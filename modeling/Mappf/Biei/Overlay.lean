import Mappf.Biei.Renderer
import Mappf.Lib.Splice
import Mappf.Styles.Catalog

/-! # Overlays on a static renderer

`renderer/overlay/slots.rs`, `pin.rs`, `features.rs` and `renderer/actor/addlayer.rs`: a static renderer keeps its
native style across requests. The layers of the overlay slots stay in it and are moved when the position changes;
the shared source, the pin images and the added layer belong to one request. Any native call may fail; what the
calls of a request come to is part of the request. Coordinates and paint values are a type parameter, and what an
overlay draws, GeoJSON, JSON and the drawing of pins are libraries. Durations are left out. -/
namespace Mappf.Biei

open Styles (JsonValue)

/-! ## Overlays -/

structure LngLat (F : Type) where
  lon : F
  lat : F

structure PathOverlay (F : Type) where
  strokeWidth : Option F
  strokeColor : Option String
  strokeOpacity : Option F
  fillColor : Option String
  fillOpacity : Option F
  coordinates : List (LngLat F)

inductive PinSize
  | small
  | medium
  | large

structure PinOverlay (F : Type) where
  size : PinSize
  label : Option String
  color : String
  coordinate : LngLat F

inductive StaticOverlay (F : Type)
  | path (path : PathOverlay F)
  | geoJson (featureCollection : JsonValue)
  | pin (pin : PinOverlay F)

structure AddLayerSource where
  tilesetId : String
  json : String
  deriving DecidableEq

structure AddLayer where
  json : String
  source : Option AddLayerSource

def maxStaticOverlays : ℕ := 64
def overlaySourceId : String := "biei-overlays-src"
def pinImagePixelRatio : ℕ := 2
def addlayerSourceCacheCapacity : ℕ := 64

structure OverlayLibraries (F Feature GeoJson : Type) where
  overlayToFeatures : StaticOverlay F → List Feature
  /-- The collection of the features, each with its `_overlay_idx`, printed and read as GeoJSON. -/
  parseGeojson : List (ℕ × Feature) → Except String GeoJson
  /-- Whether the pin can be drawn, or why not. -/
  renderPinImage : PinOverlay F → Except String Unit
  fromStr : String → Except String JsonValue
  toString : JsonValue → Except String String
  stableSourceId : AddLayerSource → String

section Features

variable {F Feature GeoJson : Type}

def StaticOverlay.strokeOnlyPath : StaticOverlay F → Bool
  | .path overlay => overlay.fillColor.isNone
  | .geoJson _ | .pin _ => false

variable (overlays : List (StaticOverlay F))

def strokeOnlyPathRunLen : ℕ :=
  (overlays.takeWhile StaticOverlay.strokeOnlyPath).length

/-- A run of stroke-only paths is one group, any other overlay a group of its own. -/
def slotGroupsWithin : ℕ → List (StaticOverlay F) → List (List (StaticOverlay F))
  | 0, _ => []
  | _ + 1, [] => []
  | fuel + 1, remaining =>
    let groupLen := max (strokeOnlyPathRunLen remaining) 1
    remaining.take groupLen :: slotGroupsWithin fuel (remaining.drop groupLen)

def overlaySlotGroups : List (List (StaticOverlay F)) :=
  slotGroupsWithin overlays.length overlays

def overlaySlotCount : ℕ := (overlaySlotGroups overlays).length

def buildUnionFeatures (libraries : OverlayLibraries F Feature GeoJson) (overlays : List (StaticOverlay F)) :
    List (ℕ × Feature) :=
  (overlaySlotGroups overlays).zipIdx.flatMap (fun (group, slotIdx) =>
    group.flatMap (fun overlay => (libraries.overlayToFeatures overlay).map (fun feature => (slotIdx, feature))))

def buildOverlayGeojson (libraries : OverlayLibraries F Feature GeoJson) (overlays : List (StaticOverlay F)) :
    Except String GeoJson :=
  libraries.parseGeojson (buildUnionFeatures libraries overlays)

def pinsOf (overlays : List (StaticOverlay F)) : List (PinOverlay F) :=
  overlays.filterMap (fun overlay =>
    match overlay with
    | .pin pin => some pin
    | .path _ | .geoJson _ => none)

def pinImageId (pin : PinOverlay F) : String :=
  let size := match pin.size with
    | .small => "s"
    | .medium => "m"
    | .large => "l"
  "biei-pin-" ++ size ++ "-" ++ pin.label.getD "dot" ++ "-" ++ pin.color ++ "-x" ++ toString pinImagePixelRatio

def pinImageIds (overlays : List (StaticOverlay F)) : List String :=
  (pinsOf overlays).foldl (fun ids pin => if pinImageId pin ∈ ids then ids else ids ++ [pinImageId pin]) []

end Features

/-! ## The native style -/

/-- Layers from bottom to top, by their ids. `faults` is what the next fallible calls come to, those that add an
image apart; `stuck` is whether the next layers to remove stay in place. -/
structure NativeStyle (GeoJson : Type) where
  layers : List String
  overlaySource : Option GeoJson := none
  sources : HashMap String String := ∅
  images : List String := []
  faults : List (Option String) := []
  imageFaults : List (Option String) := []
  stuck : List Bool := []

namespace NativeStyle

variable {GeoJson : Type} (style : NativeStyle GeoJson)

/-- A call that fails only by itself. -/
def call : Except String Unit × NativeStyle GeoJson :=
  match style.faults with
  | [] => (.ok (), style)
  | none :: faults => (.ok (), { style with faults := faults })
  | some err :: faults => (.error err, { style with faults := faults })

/-- `add_layer_before`, or `add_layer` without a layer to stay below. An id that is taken is an error. -/
def addLayer (before : Option String) (id : String) : Except String Unit × NativeStyle GeoJson :=
  match style.call with
  | (.error err, style) => (.error err, style)
  | (.ok (), style) =>
    if id ∈ style.layers then (.error ("Layer " ++ id ++ " already exists"), style)
    else (.ok (), { style with layers := insertBefore before id style.layers })

/-- Whether the layer was there and came off. -/
def removeLayer (id : String) : Bool × NativeStyle GeoJson :=
  match style.stuck with
  | true :: stuck => (false, { style with stuck := stuck })
  | [] | false :: _ =>
    (id ∈ style.layers, { style with stuck := style.stuck.tail, layers := style.layers.filter (· ≠ id) })

def setSourceGeojson (fc : GeoJson) : Except String Unit × NativeStyle GeoJson :=
  match style.call with
  | (.error err, style) => (.error err, style)
  | (.ok (), style) =>
    match style.overlaySource with
    | none => (.error ("overlay source `" ++ overlaySourceId ++ "` is missing or not a GeoJsonSource"), style)
    | some _ => (.ok (), { style with overlaySource := some fc })

def addSource (id json : String) : Except String Unit × NativeStyle GeoJson :=
  match style.call with
  | (.error err, style) => (.error err, style)
  | (.ok (), style) =>
    if style.sources.contains id then (.error ("Source " ++ id ++ " already exists"), style)
    else (.ok (), { style with sources := style.sources.insert id json })

def removeSource (id : String) : NativeStyle GeoJson :=
  { style with sources := style.sources.erase id }

def addImage (id : String) : Except String Unit × NativeStyle GeoJson :=
  match style.imageFaults with
  | some err :: imageFaults => (.error err, { style with imageFaults := imageFaults })
  | [] | none :: _ =>
    (.ok (), { style with
      imageFaults := style.imageFaults.tail
      images := if id ∈ style.images then style.images else style.images ++ [id] })

def removeImage (id : String) : NativeStyle GeoJson :=
  { style with images := style.images.filter (· ≠ id) }

end NativeStyle

/-! ## Slots -/

inductive LayerKind
  | fill
  | line
  | circle
  | symbol

def LayerKind.name : LayerKind → String
  | .fill => "fill"
  | .line => "line"
  | .circle => "circle"
  | .symbol => "symbol"

def slotLayerId (layer : ℕ × LayerKind) : String := "biei-overlay-" ++ toString layer.1 ++ "-" ++ layer.2.name

def slotLayers (idx : ℕ) : List (ℕ × LayerKind) := [(idx, .fill), (idx, .line), (idx, .circle), (idx, .symbol)]

structure OverlaySlotPool (GeoJson : Type) where
  allocated : ℕ := 0
  maxSize : ℕ := maxStaticOverlays
  emptyFc : GeoJson
  currentBefore : Option String := none
  needsReset : Bool := false
  needsRebuild : Bool := false
  hasData : Bool := false

section Slots

variable {F Feature GeoJson : Type}

def installLayers (style : NativeStyle GeoJson) (before : Option String) :
    List (ℕ × LayerKind) → Except String Unit × NativeStyle GeoJson
  | [] => (.ok (), style)
  | layer :: layers =>
    match style.call with
    | (.error err, style) => (.error err, style)
    | (.ok (), style) =>
      match style.addLayer before (slotLayerId layer) with
      | (.error err, style) => (.error err, style)
      | (.ok (), style) => installLayers style before layers

def installSlotLayers (style : NativeStyle GeoJson) (idx : ℕ) (before : Option String) :
    Except String Unit × NativeStyle GeoJson :=
  installLayers style before (slotLayers idx)

def rollbackSlotLayers (style : NativeStyle GeoJson) (idx : ℕ) : NativeStyle GeoJson :=
  (slotLayers idx).foldl (fun style layer => (style.removeLayer (slotLayerId layer)).2) style

namespace OverlaySlotPool

/-- The loop of `ensure_capacity`, for the slots that are missing. -/
def grow (slots : OverlaySlotPool GeoJson) (style : NativeStyle GeoJson) :
    ℕ → Except String Unit × OverlaySlotPool GeoJson × NativeStyle GeoJson
  | 0 => (.ok (), slots, style)
  | missing + 1 =>
    match installSlotLayers style slots.allocated slots.currentBefore with
    | (.ok (), style) => grow { slots with allocated := slots.allocated + 1 } style missing
    | (.error err, style) => (.error err, slots, rollbackSlotLayers style slots.allocated)

def ensureCapacity (slots : OverlaySlotPool GeoJson) (style : NativeStyle GeoJson) (needed : ℕ) :
    Except String Unit × OverlaySlotPool GeoJson × NativeStyle GeoJson :=
  let target := min needed slots.maxSize
  if target ≤ slots.allocated then (.ok (), slots, style) else slots.grow style (target - slots.allocated)

end OverlaySlotPool

/-! ## Moving the slots -/

def detach (style : NativeStyle GeoJson) : List (ℕ × LayerKind) → List (ℕ × LayerKind) × NativeStyle GeoJson
  | [] => ([], style)
  | layer :: layers =>
    match style.removeLayer (slotLayerId layer) with
    | (true, style) =>
      match detach style layers with
      | (taken, style) => (layer :: taken, style)
    | (false, style) => detach style layers

/-- Puts the layers back on top; whether all of them are back. -/
def restoreAll (style : NativeStyle GeoJson) : List (ℕ × LayerKind) → Bool × NativeStyle GeoJson
  | [] => (true, style)
  | layer :: layers =>
    match style.addLayer none (slotLayerId layer) with
    | (added, style) =>
      match restoreAll style layers with
      | (restored, style) => (added.isOk && restored, style)

/-- The layer whose insertion failed is built again from its template. -/
def recoverFailedMoveAll (style : NativeStyle GeoJson) (consumed : ℕ × LayerKind) (remaining : List (ℕ × LayerKind)) :
    Bool × NativeStyle GeoJson :=
  match style.call with
  | (.error _, style) => (false, (restoreAll style remaining).2)
  | (.ok (), style) => restoreAll style (consumed :: remaining)

/-- The first error, with whether the recovery put every layer back. -/
def reinsert (style : NativeStyle GeoJson) (before : Option String) :
    List (ℕ × LayerKind) → Option (String × Bool) × NativeStyle GeoJson
  | [] => (none, style)
  | layer :: layers =>
    match style.addLayer before (slotLayerId layer) with
    | (.ok (), style) => reinsert style before layers
    | (.error err, style) =>
      match recoverFailedMoveAll style layer layers with
      | (restored, style) => (some (err, restored), style)

def allSlotLayers (allocated : ℕ) : List (ℕ × LayerKind) := (List.range allocated).flatMap slotLayers

def moveAllLayers (style : NativeStyle GeoJson) (slots : OverlaySlotPool GeoJson) (before : Option String) :
    Except String Unit × OverlaySlotPool GeoJson × NativeStyle GeoJson :=
  match detach style (allSlotLayers slots.allocated) with
  | (taken, style) =>
    match reinsert style before taken with
    | (none, style) => (.ok (), { slots with currentBefore := before, needsReset := false }, style)
    | (some (err, restored), style) =>
      (.error err, { slots with
        currentBefore := none
        needsReset := true
        needsRebuild := slots.needsRebuild || !restored }, style)

/-! ## One request -/

def registerPins (libraries : OverlayLibraries F Feature GeoJson) (style : NativeStyle GeoJson)
    (seen registered : List String) : List (PinOverlay F) → Except String Unit × NativeStyle GeoJson
  | [] => (.ok (), style)
  | pin :: pins =>
    if pinImageId pin ∈ seen then registerPins libraries style seen registered pins
    else
      match libraries.renderPinImage pin with
      -- returns at once, the images registered so far stay
      | .error err => (.error err, style)
      | .ok () =>
        match style.addImage (pinImageId pin) with
        | (.error err, style) => (.error err, registered.foldl NativeStyle.removeImage style)
        | (.ok (), style) =>
          registerPins libraries style (pinImageId pin :: seen) (registered ++ [pinImageId pin]) pins

variable (libraries : OverlayLibraries F Feature GeoJson) (style : NativeStyle GeoJson)

def registerPinImages (overlays : List (StaticOverlay F)) : Except String Unit × NativeStyle GeoJson :=
  registerPins libraries style [] [] (pinsOf overlays)

def sourceGeojson (overlays : List (StaticOverlay F)) (preparedGeojson : Option GeoJson) : Except String GeoJson :=
  match preparedGeojson with
  | some fc => .ok fc
  | none => buildOverlayGeojson libraries overlays

/-- The part of `assign_slots` that fills the shared source and registers the pins. -/
def fillSlots
    (slots : OverlaySlotPool GeoJson) (overlays : List (StaticOverlay F)) (preparedGeojson : Option GeoJson) :
    Except String Unit × OverlaySlotPool GeoJson × NativeStyle GeoJson :=
  match sourceGeojson libraries overlays preparedGeojson with
  | .error err => (.error err, slots, style)
  | .ok fc =>
    match style.setSourceGeojson fc with
    | (.error err, style) => (.error err, slots, style)
    | (.ok (), style) =>
      match registerPinImages libraries style overlays with
      | (.error err, style) => (.error err, slots, style)
      | (.ok (), style) => (.ok (), { slots with hasData := true }, style)

/-- The part of `assign_slots` that brings the slots to their position, when there is something to draw. -/
def positionSlots (slots : OverlaySlotPool GeoJson) (beforeLayer : Option String) :
    Except String Unit × OverlaySlotPool GeoJson × NativeStyle GeoJson :=
  if slots.needsReset || slots.currentBefore ≠ beforeLayer then moveAllLayers style slots beforeLayer
  else (.ok (), slots, style)

def clearSlots (slots : OverlaySlotPool GeoJson) :
    Except String Unit × OverlaySlotPool GeoJson × NativeStyle GeoJson :=
  if slots.hasData then
    match style.setSourceGeojson slots.emptyFc with
    | (.error err, style) => (.error err, slots, style)
    | (.ok (), style) => (.ok (), { slots with hasData := false }, style)
  else (.ok (), slots, style)

def assignSlots (libraries : OverlayLibraries F Feature GeoJson) (style : NativeStyle GeoJson)
    (slots : OverlaySlotPool GeoJson) (overlays : List (StaticOverlay F)) (preparedGeojson : Option GeoJson)
    (beforeLayer : Option String) : Except String Unit × OverlaySlotPool GeoJson × NativeStyle GeoJson :=
  if slots.maxSize < overlays.length then
    (.error ("overlay count " ++ toString overlays.length ++ " exceeds pool max " ++ toString slots.maxSize), slots,
      style)
  else
    match slots.ensureCapacity style (overlaySlotCount overlays) with
    | (.error err, slots, style) => (.error err, slots, style)
    | (.ok (), slots, style) =>
      if overlays.isEmpty then clearSlots style slots
      else
        match positionSlots style slots beforeLayer with
        | (.error err, slots, style) => (.error err, slots, style)
        | (.ok (), slots, style) => fillSlots libraries style slots overlays preparedGeojson

inductive RenderingError
  | native (source : String)
  | other (message : String)

inductive StaticRenderError
  | setup (source : String)
  | native (err : RenderingError)

def StaticRenderError.toRendererError : StaticRenderError → RendererError
  | .native (.native source) => .nativeRenderFailed source
  | .native (.other message) => .renderFailed message
  | .setup source => .renderFailed source

/-- What `render_static` finds. -/
structure Scene (GeoJson : Type) where
  layers : List String
  overlaySource : Option GeoJson
  images : List String
  allocated : ℕ

/-- The scene that is rendered, if the setup gets that far, and the style and the pool afterwards. -/
def renderStaticWithOverlays (libraries : OverlayLibraries F Feature GeoJson) (style : NativeStyle GeoJson)
    (slots : OverlaySlotPool GeoJson) (overlays : List (StaticOverlay F)) (preparedGeojson : Option GeoJson)
    (beforeLayer : Option String) (image : Except RenderingError Unit) :
    Except StaticRenderError Unit × Option (Scene GeoJson) × OverlaySlotPool GeoJson × NativeStyle GeoJson :=
  match assignSlots libraries style slots overlays preparedGeojson beforeLayer with
  | (.error err, slots, style) => (.error (.setup err), none, slots, style)
  | (.ok (), slots, style) =>
    (image.mapError .native, some ⟨style.layers, style.overlaySource, style.images, slots.allocated⟩, slots,
      (pinImageIds overlays).foldl NativeStyle.removeImage style)

end Slots

/-! ## The added layer -/

structure AddLayerSourceCache where
  entries : HashMap String AddLayerSource := ∅
  lru : List String := []
  capacity : ℕ := addlayerSourceCacheCapacity

section AddLayer

variable {F Feature GeoJson : Type}

namespace AddLayerSourceCache

def touch (cache : AddLayerSourceCache) (id : String) : AddLayerSourceCache :=
  { cache with lru := cache.lru.filter (· ≠ id) ++ [id] }

/-- `none` is the panic "bounded addlayer source cache always has a vacant suffix". -/
def vacantId (cache : AddLayerSourceCache) (baseId : String) : Option String :=
  if !cache.entries.contains baseId then some baseId
  else
    ((List.range (cache.entries.len + 1)).map (fun n => baseId ++ "_" ++ toString (n + 1))).find?
      (fun candidate => !cache.entries.contains candidate)

/-- Evicts the least recently used sources until there is room, at most one for each of them. -/
def makeRoom (style : NativeStyle GeoJson) (cache : AddLayerSourceCache) :
    List String → AddLayerSourceCache × NativeStyle GeoJson
  | [] => ({ cache with lru := [] }, style)
  | evicted :: lru =>
    if cache.capacity ≤ cache.entries.len then
      makeRoom (style.removeSource evicted) { cache with entries := cache.entries.erase evicted } lru
    else ({ cache with lru := evicted :: lru }, style)

def ensure (libraries : OverlayLibraries F Feature GeoJson) (cache : AddLayerSourceCache) (style : NativeStyle GeoJson)
    (source : AddLayerSource) : Except String (String × Bool) × AddLayerSourceCache × NativeStyle GeoJson :=
  match cache.entries.entries.find? (fun entry => entry.2 = source) with
  | some entry => (.ok (entry.1, false), cache.touch entry.1, style)
  | none =>
    match makeRoom style cache cache.lru with
    | (cache, style) =>
      match cache.vacantId (libraries.stableSourceId source) with
      | none => (.error "bounded addlayer source cache always has a vacant suffix", cache, style)
      | some id =>
        match style.call with
        | (.error err, style) => (.error err, cache, style)
        | (.ok (), style) =>
          match style.addSource id source.json with
          | (.error err, style) => (.error err, cache, style)
          | (.ok (), style) =>
            (.ok (id, true), { cache with entries := cache.entries.insert id source, lru := cache.lru ++ [id] }, style)

def removeIfPresent (cache : AddLayerSourceCache) (style : NativeStyle GeoJson) (id : String) :
    AddLayerSourceCache × NativeStyle GeoJson :=
  if cache.entries.contains id then
    ({ cache with entries := cache.entries.erase id, lru := cache.lru.filter (· ≠ id) }, style.removeSource id)
  else (cache, style)

end AddLayerSourceCache

def addlayerId (taskId : UInt64) : String := "__biei_addlayer_" ++ toString taskId.toNat

/-- A field of a JSON object, put in place of the old one or at the end. -/
def setField (name : String) (value : JsonValue) (fields : List (String × JsonValue)) : List (String × JsonValue) :=
  if fields.any (fun field => field.1 = name) then
    fields.map (fun field => if field.1 = name then (name, value) else field)
  else fields ++ [(name, value)]

variable (libraries : OverlayLibraries F Feature GeoJson)

def rewriteAddlayerIdAndSource (json newId : String) (newSourceId : Option String) : Except String String :=
  match libraries.fromStr json with
  | .error err => .error ("addlayer JSON: " ++ err)
  | .ok (.object fields) =>
    let fields := setField "id" (.string newId) fields
    let fields := match newSourceId with
      | some sourceId => setField "source" (.string sourceId) fields
      | none => fields
    (libraries.toString (.object fields)).mapError (fun err => "addlayer reserialize: " ++ err)
  | .ok _ => .error "addlayer JSON must be an object"

/-- Undoes the source of a failed installation, if this call added it. -/
def dropNewSource (cache : AddLayerSourceCache) (style : NativeStyle GeoJson) (added : Option (String × Bool)) :
    AddLayerSourceCache × NativeStyle GeoJson :=
  match added with
  | some (id, true) => cache.removeIfPresent style id
  | some (_, false) | none => (cache, style)

/-- The part of `install_addlayer` after its source. -/
def placeAddlayer (style : NativeStyle GeoJson)
    (cache : AddLayerSourceCache) (addlayer : AddLayer) (beforeLayer : Option String) (taskId : UInt64)
    (added : Option (String × Bool)) : Except String String × AddLayerSourceCache × NativeStyle GeoJson :=
  match rewriteAddlayerIdAndSource libraries addlayer.json (addlayerId taskId) (added.map Prod.fst) with
  | .error err => (.error err, dropNewSource cache style added)
  | .ok _ =>
    match style.call with
    | (.error err, style) => (.error err, dropNewSource cache style added)
    | (.ok (), style) =>
      match style.addLayer beforeLayer (addlayerId taskId) with
      | (.error err, style) => (.error err, dropNewSource cache style added)
      | (.ok (), style) => (.ok (addlayerId taskId), cache, style)

def installAddlayer (style : NativeStyle GeoJson)
    (cache : AddLayerSourceCache) (addlayer : AddLayer) (beforeLayer : Option String) (taskId : UInt64) :
    Except String String × AddLayerSourceCache × NativeStyle GeoJson :=
  match addlayer.source with
  | none => placeAddlayer libraries style cache addlayer beforeLayer taskId none
  | some source =>
    match cache.ensure libraries style source with
    | (.error err, cache, style) => (.error err, cache, style)
    | (.ok added, cache, style) => placeAddlayer libraries style cache addlayer beforeLayer taskId (some added)

end AddLayer

/-! ## The renderer -/

structure StaticRenderer (GeoJson : Type) where
  style : NativeStyle GeoJson
  slots : OverlaySlotPool GeoJson
  addlayerSources : AddLayerSourceCache := {}

structure StaticRequest (F : Type) where
  overlays : List (StaticOverlay F)
  /-- `Positioning::Auto`, which builds the collection for the camera. -/
  auto : Bool
  beforeLayer : Option String
  addlayer : Option AddLayer
  taskId : UInt64

/-- What the native calls of a request come to. -/
structure NativeInput where
  faults : List (Option String) := []
  imageFaults : List (Option String) := []
  stuck : List Bool := []
  /-- `camera_for_geojson` finds a camera. -/
  fits : Bool := true
  image : Except RenderingError Unit := .ok ()

namespace StaticRenderer

variable {F Feature GeoJson : Type} (libraries : OverlayLibraries F Feature GeoJson)

/-- A renderer with a freshly loaded style and an empty pool, `populate_static_slots`. -/
def fresh (emptyFc : GeoJson) (base : List String) : StaticRenderer GeoJson where
  style := { layers := base, overlaySource := some emptyFc }
  slots := { emptyFc }

variable (renderer : StaticRenderer GeoJson)

def prepared (input : NativeInput) : NativeStyle GeoJson :=
  { renderer.style with faults := input.faults, imageFaults := input.imageFaults, stuck := input.stuck }

variable (request : StaticRequest F)

def renderStaticWithOverlaysAndAddlayer (preparedGeojson : Option GeoJson) (input : NativeInput) :
    Except StaticRenderError Unit × Option (Scene GeoJson) × StaticRenderer GeoJson :=
  match request.addlayer with
  | none =>
    match renderStaticWithOverlays libraries (renderer.prepared input) renderer.slots request.overlays preparedGeojson
        request.beforeLayer input.image with
    | (result, scene, slots, style) => (result, scene, { renderer with style := style, slots := slots })
  | some addlayer =>
    match installAddlayer libraries (renderer.prepared input) renderer.addlayerSources addlayer request.beforeLayer
        request.taskId with
    | (.error err, cache, style) =>
      (.error (.setup err), none, { renderer with style := style, addlayerSources := cache })
    | (.ok layerId, cache, style) =>
      match renderStaticWithOverlays libraries style renderer.slots request.overlays preparedGeojson
          request.beforeLayer input.image with
      | (result, scene, slots, style) => (result, scene, ⟨(style.removeLayer layerId).2, slots, cache⟩)

/-- The collection an automatic camera is fitted to. -/
def cameraGeojson (input : NativeInput) : Except String (Option GeoJson) :=
  if request.auto then
    match buildOverlayGeojson libraries request.overlays with
    | .error err => .error err
    | .ok fc => if input.fits then .ok (some fc) else .error "auto positioning: overlays produced no fittable geometry"
  else .ok none

/-- `render` on a static request, once there is a renderer. -/
def render (input : NativeInput) : Except RendererError Unit × Option (Scene GeoJson) × StaticRenderer GeoJson :=
  match cameraGeojson libraries request input with
  | .error err => (.error (.renderFailed err), none, renderer)
  | .ok preparedGeojson =>
    match renderer.renderStaticWithOverlaysAndAddlayer libraries request preparedGeojson input with
    | (result, scene, renderer) => (result.mapError StaticRenderError.toRendererError, scene, renderer)

end StaticRenderer

/-! ## Runs -/

structure StaticSession (F GeoJson : Type) where
  renderer : StaticRenderer GeoJson
  scenes : List (StaticRequest F × Scene GeoJson) := []

inductive StaticAction (F : Type)
  | render (request : StaticRequest F) (input : NativeInput)
  /-- The renderer is built again: another profile or pixel ratio, or an error that drops it. -/
  | rebuild

namespace StaticSession

variable {F Feature GeoJson : Type} (libraries : OverlayLibraries F Feature GeoJson) (emptyFc : GeoJson)
  (base : List String)

/-- The renderer a request runs on: a pool that could not be restored is replaced first. -/
def ensured (session : StaticSession F GeoJson) : StaticRenderer GeoJson :=
  if session.renderer.slots.needsRebuild then .fresh emptyFc base else session.renderer

/-- An error that invalidates the loaded state drops the renderer. -/
def settle (renderer : StaticRenderer GeoJson) : Except RendererError Unit → StaticRenderer GeoJson
  | .ok () => renderer
  | .error err => if err.invalidatesLoadedState then .fresh emptyFc base else renderer

def step (session : StaticSession F GeoJson) : StaticAction F → StaticSession F GeoJson
  | .rebuild => { session with renderer := .fresh emptyFc base }
  | .render request input =>
    match (session.ensured emptyFc base).render libraries request input with
    | (result, scene, renderer) =>
      { renderer := settle emptyFc base renderer result
        scenes := session.scenes ++ scene.toList.map (fun scene => (request, scene)) }

end StaticSession

def staticSessions {F Feature GeoJson : Type} (libraries : OverlayLibraries F Feature GeoJson) (emptyFc : GeoJson)
    (base : List String) : Machine (StaticSession F GeoJson) where
  init := { renderer := .fresh emptyFc base }
  step := fun session session' => ∃ action, session' = session.step libraries emptyFc base action

end Mappf.Biei
