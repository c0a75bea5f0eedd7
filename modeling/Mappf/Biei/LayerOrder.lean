import Mappf.Biei.OverlayIsolation
import Mappf.Biei.SlotBand

/-! # The order of the layers a request is rendered with

Between requests the slot layers stand in slot order where the pool says it is, unless a move failed, which the pool
remembers. A request that draws overlays without an added layer, or that has to move its slots, is therefore rendered
with its layers directly below the layer it names. An added layer is inserted before that layer each time, above slots
that are already there; only a move takes it below them. -/
namespace Mappf.Biei
open List Bool

variable {F Feature GeoJson : Type}

/-! ## Managed ids -/

def isManaged (id : String) : Bool := isSlotLayer id || isAddlayer id

/-- A layer to stay below that is not one of the renderer's own. -/
def isForeign (before : Option String) : Bool := before.all (fun id => !isManaged id)

theorem isForeign_some {before : Option String} (h : isForeign before = true) {id : String} (hid : before = some id) :
    isSlotLayer id = false ∧ isAddlayer id = false := by
  rw [hid] at h
  exact or_eq_false_iff.mp ((not_eq_true' _).mp h)

/-! ## Where the pool is -/

structure Positioned (base layers : List String) (slots : OverlaySlotPool GeoJson) : Prop where
  managed : Managed base layers slots.allocated
  placed : slots.needsReset = false → layers = insertAllBefore slots.currentBefore (band slots.allocated) base
  foreign : isForeign slots.currentBefore = true

/-! Layers that a request adds, below its slots, and that are removed at its end. -/
section Extra

variable {base layers extra : List String} {before : Option String} {allocated : ℕ}

theorem Managed.insert (h : Managed base layers allocated) (hslot : ∀ id ∈ extra, isSlotLayer id = false)
    (hbef : isForeign before = true) :
    Managed (insertAllBefore before extra base) (insertAllBefore before extra layers) allocated where
  others := by
    rw [filter_insertAllBefore_of_pos, h.others]
    · intro id hid
      rw [(isForeign_some hbef hid).1]
      rfl
    · intro id hid
      rw [hslot id hid]
      rfl
  slots := by
    rw [filter_insertAllBefore_of_neg hslot]
    exact h.slots

theorem Managed.remove (h : Managed base layers allocated) (hslot : ∀ id ∈ extra, isSlotLayer id = false) :
    Managed (base.filter (fun id => id ∉ extra)) (layers.filter (fun id => id ∉ extra)) allocated where
  others := by
    rw [filter_filter, ← h.others, filter_filter]
    exact filter_congr (fun id _ => and_comm _ _)
  slots := by
    have hkept : (layers.filter (fun id => id ∉ extra)).filter isSlotLayer = layers.filter isSlotLayer := by
      rw [filter_filter]
      refine filter_congr (fun id _ => ?_)
      by_cases hmem : id ∈ extra
      · rw [hslot id hmem]
        rfl
      · rw [decide_eq_true hmem, Bool.and_true]
    rw [hkept]
    exact h.slots

theorem filter_insertExtra (hfree : ∀ id ∈ extra, id ∉ layers) :
    (insertAllBefore before extra layers).filter (fun id => id ∉ extra) = layers := by
  rw [filter_insertAllBefore_of_neg, filter_eq_self.mpr]
  · intro id hid
    exact decide_eq_true (fun hmem => hfree id hmem hid)
  · intro id hid
    exact decide_eq_false (not_not.mpr hid)

theorem filter_insertBand (hextra : ∀ id ∈ extra, isAddlayer id = true) (hbef : isForeign before = true)
    (start count : ℕ) : (insertAllBefore before (bandFrom start count) layers).filter (fun id => id ∉ extra) =
      insertAllBefore before (bandFrom start count) (layers.filter (fun id => id ∉ extra)) := by
  apply filter_insertAllBefore_of_pos
  · intro id hid
    refine decide_eq_true (fun hmem => ?_)
    have hadded := hextra id hmem
    simp [(isForeign_some hbef hid).2] at hadded
  · intro id hid
    refine decide_eq_true (fun hmem => ?_)
    have hadded := hextra id hmem
    simp [isAddlayer_of_mem_bandFrom hid] at hadded

end Extra

/-! ## One request -/

theorem slotGroupsWithin_length (fuel : ℕ) (overlays : List (StaticOverlay F)) :
    (slotGroupsWithin fuel overlays).length ≤ fuel := by
  induction fuel generalizing overlays with
  | zero => exact Nat.le_refl 0
  | succ fuel ih =>
    cases overlays with
    | nil => exact Nat.zero_le _
    | cons overlay overlays => exact Nat.succ_le_succ (ih _)

theorem overlaySlotCount_le (overlays : List (StaticOverlay F)) : overlaySlotCount overlays ≤ overlays.length :=
  slotGroupsWithin_length overlays.length overlays

/-- Filling and clearing the shared source is not about the position of the slots. -/
structure SamePosition (slots slots' : OverlaySlotPool GeoJson) : Prop where
  allocated : slots'.allocated = slots.allocated
  currentBefore : slots'.currentBefore = slots.currentBefore
  needsReset : slots'.needsReset = slots.needsReset
  needsRebuild : slots'.needsRebuild = slots.needsRebuild

theorem fillSlots_layers (libs : OverlayLibraries F Feature GeoJson) (style : NativeStyle GeoJson)
    (slots : OverlaySlotPool GeoJson) (overlays : List (StaticOverlay F)) (geojson : Option GeoJson) :
    SameLayers style (fillSlots libs style slots overlays geojson).2.2 ∧
      SamePosition slots (fillSlots libs style slots overlays geojson).2.1 := by
  have hsame : SamePosition slots slots := ⟨rfl, rfl, rfl, rfl⟩
  unfold fillSlots
  split
  · exact ⟨.refl style, hsame⟩
  · next fc _ =>
    have hset := SameLayers.setSourceGeojson style fc
    generalize style.setSourceGeojson fc = set at hset ⊢
    obtain ⟨res, style₁⟩ := set
    cases res with
    | error err => exact ⟨hset, hsame⟩
    | ok =>
      have hpins := SameLayers.registerPins libs style₁ [] [] (pinsOf overlays)
      dsimp only at hset ⊢
      unfold registerPinImages
      generalize registerPins libs style₁ [] [] (pinsOf overlays) = registered at hpins ⊢
      obtain ⟨res, style₂⟩ := registered
      cases res with
      | error err => exact ⟨hset.trans hpins, hsame⟩
      | ok => exact ⟨hset.trans hpins, rfl, rfl, rfl, rfl⟩

theorem clearSlots_layers (style : NativeStyle GeoJson) (slots : OverlaySlotPool GeoJson) :
    SameLayers style (clearSlots style slots).2.2 ∧ SamePosition slots (clearSlots style slots).2.1 := by
  have hsame : SamePosition slots slots := ⟨rfl, rfl, rfl, rfl⟩
  unfold clearSlots
  split_ifs
  · have hset := SameLayers.setSourceGeojson style slots.emptyFc
    generalize style.setSourceGeojson slots.emptyFc = set at hset ⊢
    obtain ⟨res, style₁⟩ := set
    cases res with
    | error err => exact ⟨hset, hsame⟩
    | ok => exact ⟨hset, rfl, rfl, rfl, rfl⟩
  · exact ⟨.refl style, hsame⟩

/-- What a request does to the layers. The pool stays where it is and may grow there, or all of it is moved, or a move
fails. -/
inductive Arranged (base : List String) (before : Option String) (slots : OverlaySlotPool GeoJson)
    (layers : List String) (drawn : Prop) (slots' : OverlaySlotPool GeoJson) (layers' : List String) : Prop
  | kept (grown : ℕ) (hallocated : slots'.allocated = slots.allocated + grown)
      (hlayers : layers' = insertAllBefore slots.currentBefore (bandFrom slots.allocated grown) layers)
      (hbefore : slots'.currentBefore = slots.currentBefore) (hreset : slots'.needsReset = slots.needsReset)
      (hthere : drawn → slots.needsReset = false ∧ slots.currentBefore = before)
  | moved (hlayers : layers' = insertAllBefore before (band slots'.allocated) base)
      (hbefore : slots'.currentBefore = before)
  | failed (hreset : slots'.needsReset = true) (hbefore : slots'.currentBefore = none)
      (hmanaged : slots'.needsRebuild = false → Managed base layers' slots'.allocated) (hdrawn : ¬ drawn)

variable {libs : OverlayLibraries F Feature GeoJson} {base : List String} {style style' : NativeStyle GeoJson}
  {slots slots' : OverlaySlotPool GeoJson} {overlays : List (StaticOverlay F)} {beforeLayer : Option String}
  {request : StaticRequest F} {geojson : Option GeoJson} {layers : List String} {scene : Scene GeoJson}

theorem assignSlots_arranged (hman : Managed base style.layers slots.allocated) (hstuck : style.stuck = [])
    {res : Except String Unit}
    (hassign : assignSlots libs style slots overlays geojson beforeLayer = (res, slots', style')) :
    style'.stuck = [] ∧ (res = .ok () → overlaySlotCount overlays ≤ slots'.allocated) ∧
      Arranged base beforeLayer slots style.layers (res = .ok () ∧ overlays ≠ []) slots' style'.layers := by
  unfold assignSlots at hassign
  by_cases hcount : slots.maxSize < overlays.length
  · rw [if_pos hcount] at hassign
    cases hassign
    exact ⟨hstuck, nofun, .kept 0 rfl rfl rfl rfl (fun h => by cases h.1)⟩
  · rw [if_neg hcount] at hassign
    obtain ⟨grown, hslots₁, hlayers₁, hstuck₁, hsuff⟩ :=
      OverlaySlotPool.ensureCapacity_layers hstuck hman.vacant (overlaySlotCount overlays)
    have hman₁ := hman.grow slots.currentBefore grown
    rw [← hlayers₁] at hman₁
    generalize slots.ensureCapacity style (overlaySlotCount overlays) = ensured
      at hslots₁ hlayers₁ hstuck₁ hsuff hman₁ hassign
    obtain ⟨res₁, slots₁, style₁⟩ := ensured
    subst hslots₁
    cases res₁ with
    | error err =>
      cases hassign
      exact ⟨hstuck₁, nofun, .kept grown rfl hlayers₁ rfl rfl (fun h => by cases h.1)⟩
    | ok =>
      have hsuff₁ : overlaySlotCount overlays ≤ slots.allocated + grown := by
        have hle := overlaySlotCount_le overlays
        have hmin := hsuff rfl
        omega
      dsimp only at hassign
      by_cases hempty : overlays = []
      · subst hempty
        rw [if_pos isEmpty_nil] at hassign
        have hclear := clearSlots_layers style₁ { slots with allocated := slots.allocated + grown }
        rw [hassign] at hclear
        obtain ⟨hsame, hpos⟩ := hclear
        refine ⟨hsame.stuck.trans hstuck₁, fun _ => hpos.allocated ▸ hsuff₁, ?_⟩
        exact .kept grown hpos.allocated (hsame.layers.trans hlayers₁) hpos.currentBefore
          hpos.needsReset (fun h => absurd rfl h.2)
      · rw [if_neg (fun hnil => hempty (isEmpty_iff.mp hnil))] at hassign
        unfold positionSlots at hassign
        split_ifs at hassign with hmove
        · have hman₂ : Managed base style₁.layers
              (OverlaySlotPool.allocated { slots with allocated := slots.allocated + grown }) := hman₁
          obtain ⟨hstuck₂, hmoved⟩ := moveAllLayers_layers hman₂ hstuck₁ beforeLayer
          generalize moveAllLayers style₁ { slots with allocated := slots.allocated + grown } beforeLayer = moved
            at hstuck₂ hmoved hassign
          obtain ⟨res₂, slots₂, style₂⟩ := moved
          obtain ⟨rfl, rfl, hlayers₂⟩ | ⟨err, rebuild, rfl, rfl, hback⟩ := hmoved
          · dsimp only at hassign
            have hfill := fillSlots_layers libs style₂
              { slots with
                allocated := slots.allocated + grown
                currentBefore := beforeLayer
                needsReset := false } overlays geojson
            rw [hassign] at hfill
            obtain ⟨hsame, hpos⟩ := hfill
            refine ⟨hsame.stuck.trans hstuck₂, fun _ => hpos.allocated ▸ hsuff₁, ?_⟩
            refine .moved ?_ hpos.currentBefore
            rw [hpos.allocated, hsame.layers]
            exact hlayers₂
          · cases hassign
            exact ⟨hstuck₂, nofun, .failed rfl rfl hback (fun h => by cases h.1)⟩
        · dsimp only at hassign
          have hthere : slots.needsReset = false ∧ slots.currentBefore = beforeLayer := by
            obtain ⟨hreset, hsame⟩ := or_eq_false_iff.mp (eq_false_iff.mpr hmove)
            exact ⟨hreset, not_not.mp (of_decide_eq_false hsame)⟩
          have hfill := fillSlots_layers libs style₁ { slots with allocated := slots.allocated + grown } overlays
            geojson
          rw [hassign] at hfill
          obtain ⟨hsame, hpos⟩ := hfill
          refine ⟨hsame.stuck.trans hstuck₁, fun _ => hpos.allocated ▸ hsuff₁, ?_⟩
          exact .kept grown hpos.allocated (hsame.layers.trans hlayers₁) hpos.currentBefore
            hpos.needsReset (fun _ => hthere)

/-! ## With the added layer -/

/-- The layers above `extra` were put there for the request. Afterwards the pool is where it says, without them; the
request itself is drawn with the slots above them. -/
theorem Arranged.positioned {layers' extra : List String} {drawn : Prop}
    (h : Positioned base layers slots) (hbef : isForeign beforeLayer = true)
    (hextra : ∀ id ∈ extra, isAddlayer id = true) (hslot : ∀ id ∈ extra, isSlotLayer id = false)
    (hfree : ∀ id ∈ extra, id ∉ layers)
    (hclear : drawn → extra = [] ∨ slots.allocated = 0 ∨ slots.needsReset = true ∨ slots.currentBefore ≠ beforeLayer)
    (harranged : Arranged (insertAllBefore beforeLayer extra base) beforeLayer slots
      (insertAllBefore beforeLayer extra layers) drawn slots' layers') :
    (slots'.needsRebuild = false → Positioned base (layers'.filter (fun id => id ∉ extra)) slots') ∧
      (drawn → layers' = insertAllBefore beforeLayer (extra ++ band slots'.allocated) base) := by
  have hbase : ∀ id ∈ extra, id ∉ base := by
    intro id hid hmem
    rw [← h.managed.others] at hmem
    exact hfree id hid (mem_filter.mp hmem).1
  cases harranged with
  | kept grown hallocated hlayers hkept hreset hthere =>
    have hstrip : layers'.filter (fun id => id ∉ extra) =
        insertAllBefore slots.currentBefore (bandFrom slots.allocated grown) layers := by
      rw [hlayers, filter_insertBand hextra h.foreign, filter_insertExtra hfree]
    refine ⟨fun _ => ⟨?_, fun hsettled => ?_, ?_⟩, fun hdrawn => ?_⟩
    · rw [hstrip, hallocated]
      exact h.managed.grow slots.currentBefore grown
    · have hplaced := h.placed (hreset ▸ hsettled)
      rw [hstrip, hkept, hallocated, band_add, insertAllBefore_append, ← hplaced]
    · rw [hkept]
      exact h.foreign
    · obtain ⟨hsettled, hsame⟩ := hthere hdrawn
      have hplaced := h.placed hsettled
      rw [hsame] at hplaced hlayers
      have hcases : extra = [] ∨ slots.allocated = 0 := by
        obtain hnone | hzero | hmove | hmove := hclear hdrawn
        · exact .inl hnone
        · exact .inr hzero
        · simp [hsettled] at hmove
        · exact absurd hsame hmove
      rw [hlayers, hallocated, band_add]
      obtain hnone | hzero := hcases
      · subst hnone
        rw [nil_append, insertAllBefore_append, ← hplaced]
        rfl
      · rw [hzero] at hplaced ⊢
        have hlayers₀ : layers = base := hplaced
        rw [hlayers₀, insertAllBefore_append, insertAllBefore_append]
        rfl
  | moved hlayers hmoved =>
    have hplaced : layers'.filter (fun id => id ∉ extra) = insertAllBefore beforeLayer (band slots'.allocated) base := by
      rw [hlayers, band_eq, filter_insertBand hextra hbef, filter_insertExtra hbase]
    refine ⟨fun _ => ⟨?_, fun _ => ?_, ?_⟩, fun _ => ?_⟩
    · rw [hplaced, band_eq]
      have hnone : Managed base base 0 := by
        refine ⟨?_, ?_⟩
        · rw [← h.managed.others, filter_filter]
          exact filter_congr (fun id _ => and_self _)
        · rw [← h.managed.others, filter_filter, filter_eq_nil_iff.mpr]
          · exact List.Perm.refl []
          · intro id _
            simp
      have hgrown := hnone.grow beforeLayer slots'.allocated
      rwa [Nat.zero_add] at hgrown
    · rw [hplaced, hmoved]
    · rw [hmoved]
      exact hbef
    · rw [hlayers, insertAllBefore_append]
  | failed hreset hnone hman hdrawn =>
    refine ⟨fun hrebuild => ⟨?_, fun hsettled => ?_, ?_⟩, fun h => absurd h hdrawn⟩
    · have hrem := (hman hrebuild).remove hslot
      rwa [filter_insertExtra hbase] at hrem
    · simp [hreset] at hsettled
    · rw [hnone]
      rfl

def StaticRequest.addedLayers (request : StaticRequest F) : List String :=
  match request.addlayer with
  | none => []
  | some _ => [addlayerId request.taskId]

/-- An added layer comes below the slots only when there are none yet or they are moved. -/
def clearOfSlots (slots : OverlaySlotPool GeoJson) (request : StaticRequest F) : Bool :=
  request.overlays.isEmpty || request.addlayer.isNone || slots.allocated = 0 || slots.needsReset ||
    slots.currentBefore ≠ request.beforeLayer

theorem clearOfSlots_drawn (h : clearOfSlots slots request = true) (hover : request.overlays ≠ []) :
    request.addedLayers = [] ∨ slots.allocated = 0 ∨ slots.needsReset = true ∨
      slots.currentBefore ≠ request.beforeLayer := by
  unfold clearOfSlots at h
  simp only [or_eq_true, decide_eq_true_iff, List.isEmpty_iff, Option.isNone_iff_eq_none] at h
  obtain (((hempty | hnone) | hzero) | hreset) | hother := h
  · exact absurd hempty hover
  · unfold StaticRequest.addedLayers
    rw [hnone]
    exact .inl rfl
  · exact .inr (.inl hzero)
  · exact .inr (.inr (.inl hreset))
  · exact .inr (.inr (.inr hother))

/-- From bottom to top: layers of the base style, the added layer, the slots of the request, slots it does not use,
the rest of the base style. That rest begins with the layer the request names, or is empty. -/
def Scene.Stacked (base : List String) (request : StaticRequest F) (scene : Scene GeoJson) : Prop :=
  ∃ below above unused : List String, base = below ++ above ∧
    scene.layers = below ++ (request.addedLayers ++ band (overlaySlotCount request.overlays) ++ unused) ++ above ∧
    (∀ id ∈ unused, ∃ layer, overlaySlotCount request.overlays ≤ layer.1 ∧ id = slotLayerId layer) ∧
    (∀ id, request.beforeLayer = some id → id ∈ base → above.head? = some id) ∧
    ((∀ id ∈ base, request.beforeLayer ≠ some id) → above = [])

theorem Scene.Stacked.contiguous (h : scene.Stacked base request) :
    request.addedLayers ++ band (overlaySlotCount request.overlays) <:+: scene.layers := by
  obtain ⟨below, above, unused, -, hlayers, -⟩ := h
  refine ⟨below, unused ++ above, ?_⟩
  rw [hlayers]
  simp

theorem Scene.Stacked.of_insertAll {allocated : ℕ}
    (hbef : isForeign request.beforeLayer = true) (hadded : ∀ id ∈ request.addedLayers, isAddlayer id = true)
    (hsuff : overlaySlotCount request.overlays ≤ allocated)
    (hlayers : scene.layers = insertAllBefore request.beforeLayer (request.addedLayers ++ band allocated) base) :
    scene.Stacked base request := by
  have hfree : ∀ id ∈ request.addedLayers ++ band allocated, request.beforeLayer ≠ some id := by
    intro id hid hsome
    obtain ⟨hslot, hadd⟩ := isForeign_some hbef hsome
    obtain hmem | hmem := mem_append.mp hid
    · simp [hadded id hmem] at hadd
    · simp [isSlotLayer_of_mem_band hmem] at hslot
  obtain ⟨spare, hspare⟩ := Nat.exists_eq_add_of_le hsuff
  rw [insertAllBefore_eq hfree, hspare, band_add] at hlayers
  refine ⟨base.takeWhile (fun id => request.beforeLayer ≠ some id), base.dropWhile (fun id => request.beforeLayer ≠ some id),
    bandFrom (overlaySlotCount request.overlays) spare, takeWhile_append_dropWhile.symm, ?_, ?_, ?_, ?_⟩
  · rw [hlayers]
    simp
  · intro id hid
    obtain ⟨layer, hle, -, rfl⟩ := mem_bandFrom.mp hid
    exact ⟨layer, hle, rfl⟩
  · intro id hsome hmem
    rw [hsome]
    exact head?_dropWhile_ne hmem
  · intro hnone
    rw [dropWhile_eq_nil_iff]
    intro id hid
    exact decide_eq_true (hnone id hid)

theorem renderStaticWithOverlays_positioned (h : Positioned base layers slots)
    (hbef : isForeign request.beforeLayer = true)
    (hclear : clearOfSlots slots request = true) (hfree : ∀ id ∈ request.addedLayers, id ∉ layers)
    (hadded : ∀ id ∈ request.addedLayers, isAddlayer id = true)
    (hslot : ∀ id ∈ request.addedLayers, isSlotLayer id = false)
    (hlayers : style.layers = insertAllBefore request.beforeLayer request.addedLayers layers)
    (hstuck : style.stuck = []) {image : Except RenderingError Unit}
    {res : Except StaticRenderError Unit} {scene : Option (Scene GeoJson)}
    (hrend : renderStaticWithOverlays libs style slots request.overlays geojson request.beforeLayer
      image = (res, scene, slots', style')) :
    style'.stuck = [] ∧
      (slots'.needsRebuild = false →
        Positioned base (style'.layers.filter (fun id => id ∉ request.addedLayers)) slots') ∧
      ∀ rendered, scene = some rendered → request.overlays ≠ [] → rendered.Stacked base request := by
  have hman := h.managed.insert hslot hbef
  rw [← hlayers] at hman
  unfold renderStaticWithOverlays at hrend
  cases hassign : assignSlots libs style slots request.overlays geojson request.beforeLayer with
  | mk assigned rest =>
    obtain ⟨slots₁, style₁⟩ := rest
    rw [hassign] at hrend
    obtain ⟨hstuck₁, hsuff, harranged⟩ := assignSlots_arranged hman hstuck hassign
    rw [hlayers] at harranged
    obtain ⟨hpos, hdrawn⟩ := harranged.positioned h hbef hadded hslot hfree
      (fun hdrawn => clearOfSlots_drawn hclear hdrawn.2)
    cases assigned with
    | error err =>
      cases hrend
      exact ⟨hstuck₁, hpos, nofun⟩
    | ok =>
      cases hrend
      have hsame := SameLayers.removeImages style₁ (pinImageIds request.overlays)
      refine ⟨hsame.stuck.trans hstuck₁, ?_, fun rendered hsome hover => ?_⟩
      · rw [hsame.layers]
        exact hpos
      · cases hsome
        exact .of_insertAll hbef hadded (hsuff rfl) (hdrawn ⟨rfl, hover⟩)

namespace StaticRenderer

variable {renderer renderer' : StaticRenderer GeoJson} {input : NativeInput} {scene : Option (Scene GeoJson)}

theorem fresh_positioned (emptyFc : GeoJson) (hbase : ∀ id ∈ base, isManaged id = false) :
    Positioned base (fresh emptyFc base).style.layers (fresh emptyFc base).slots := by
  have hslot : ∀ id ∈ base, isSlotLayer id = false := fun id hid => (or_eq_false_iff.mp (hbase id hid)).1
  refine ⟨⟨?_, ?_⟩, fun _ => rfl, rfl⟩
  · refine filter_eq_self.mpr (fun id hid => ?_)
    rw [hslot id hid]
    rfl
  · have hnone : base.filter isSlotLayer = [] := by
      refine filter_eq_nil_iff.mpr (fun id hid => ?_)
      rw [hslot id hid]
      exact false_ne_true
    exact List.Perm.of_eq hnone

theorem renderStaticWithOverlaysAndAddlayer_positioned
    (h : Positioned base renderer.style.layers renderer.slots) (hbef : isForeign request.beforeLayer = true)
    (hstuck : input.stuck = []) (hclear : clearOfSlots renderer.slots request = true)
    {res : Except StaticRenderError Unit}
    (hrend : renderer.renderStaticWithOverlaysAndAddlayer libs request geojson input = (res, scene, renderer')) :
    (renderer'.slots.needsRebuild = false → Positioned base renderer'.style.layers renderer'.slots) ∧
      ∀ rendered, scene = some rendered → request.overlays ≠ [] → rendered.Stacked base request := by
  unfold renderStaticWithOverlaysAndAddlayer at hrend
  cases haddlayer : request.addlayer with
  | none =>
    have hnone : request.addedLayers = [] := by
      unfold StaticRequest.addedLayers
      rw [haddlayer]
    have hempty : ∀ id, id ∉ request.addedLayers := by
      intro id hid
      simp [hnone] at hid
    rw [haddlayer] at hrend
    cases hinner : renderStaticWithOverlays libs (renderer.prepared input) renderer.slots request.overlays
        geojson request.beforeLayer input.image with
    | mk res₁ rest =>
      obtain ⟨scene₁, slots₁, style₁⟩ := rest
      rw [hinner] at hrend
      cases hrend
      have hlayers : (renderer.prepared input).layers =
          insertAllBefore request.beforeLayer request.addedLayers renderer.style.layers := by
        rw [hnone]
        rfl
      obtain ⟨-, hafter, hscene⟩ := renderStaticWithOverlays_positioned h hbef hclear
        (fun id hid => absurd hid (hempty id)) (fun id hid => absurd hid (hempty id))
        (fun id hid => absurd hid (hempty id)) hlayers hstuck hinner
      refine ⟨fun hok => ?_, hscene⟩
      have hkept : style₁.layers.filter (fun id => id ∉ request.addedLayers) = style₁.layers :=
        filter_eq_self.mpr (fun id _ => decide_eq_true (hempty id))
      have hpos := hafter hok
      rwa [hkept] at hpos
  | some addlayer =>
    have hsome : request.addedLayers = [addlayerId request.taskId] := by
      unfold StaticRequest.addedLayers
      rw [haddlayer]
    rw [haddlayer] at hrend
    dsimp only at hrend
    have hinst := SameLayers.frame.installAddlayer libs (renderer.prepared input) renderer.addlayerSources
      addlayer request.beforeLayer request.taskId (SameLayers.keptByFailure request.beforeLayer _)
    generalize installAddlayer libs (renderer.prepared input) renderer.addlayerSources addlayer
      request.beforeLayer request.taskId = installed at hinst hrend
    obtain ⟨res₁, cache, style₁⟩ := installed
    obtain ⟨⟨err, rfl⟩, hsame⟩ | ⟨style₀, hsame, rfl, hadd⟩ := hinst
    · cases hrend
      refine ⟨fun _ => ?_, nofun⟩
      rw [hsame.layers]
      exact h
    · dsimp only at hrend hadd
      obtain ⟨⟨err, herr⟩, -⟩ | ⟨-, hfree, hlayers, hstuck₁⟩ :=
        addLayer_layers style₀ request.beforeLayer (addlayerId request.taskId)
      · simp [hadd] at herr
      rw [hadd] at hlayers hstuck₁
      rw [hsame.layers] at hfree hlayers
      cases hinner : renderStaticWithOverlays libs style₁ renderer.slots request.overlays geojson
          request.beforeLayer input.image with
      | mk res₂ rest =>
        obtain ⟨scene₂, slots₂, style₂⟩ := rest
        rw [hinner] at hrend
        cases hrend
        have hone : ∀ id ∈ request.addedLayers, id = addlayerId request.taskId := by
          intro id hid
          rw [hsome] at hid
          exact mem_singleton.mp hid
        have hlayers₁ : style₁.layers =
            insertAllBefore request.beforeLayer request.addedLayers renderer.style.layers := by
          rw [hsome]
          exact hlayers
        obtain ⟨hstuck₂, hafter, hscene⟩ := renderStaticWithOverlays_positioned h hbef hclear
          (fun id hid => hone id hid ▸ hfree) (fun id hid => hone id hid ▸ isAddlayer_addlayerId request.taskId)
          (fun id hid => hone id hid ▸ isSlotLayer_addlayerId request.taskId) hlayers₁
          (hstuck₁.trans (hsame.stuck.trans hstuck)) hinner
        refine ⟨fun hok => ?_, hscene⟩
        have hrem : (style₂.removeLayer (addlayerId request.taskId)).2.layers =
            style₂.layers.filter (fun id => id ∉ request.addedLayers) := by
          rw [removeLayer_layers hstuck₂, hsome]
          refine filter_congr (fun id _ => ?_)
          simp
        rw [hrem]
        exact hafter hok

end StaticRenderer

/-! ## Runs -/

namespace StaticSession

/-- The request names no layer of the renderer itself, its removals take effect, and a layer it adds comes below its
slots. -/
def orderly (emptyFc : GeoJson) (base : List String) (session : StaticSession F GeoJson) : StaticAction F → Bool
  | .render request input =>
    isForeign request.beforeLayer && input.stuck.isEmpty && clearOfSlots (session.ensured emptyFc base).slots request
  | .rebuild => true

def ScenesStacked (base : List String) (session : StaticSession F GeoJson) : Prop :=
  ∀ entry ∈ session.scenes, entry.1.overlays ≠ [] → entry.2.Stacked base entry.1

/-- The pool is where it says, unless it is to be built again. -/
def InPlace (base : List String) (renderer : StaticRenderer GeoJson) : Prop :=
  renderer.slots.needsRebuild = false → Positioned base renderer.style.layers renderer.slots

end StaticSession

def orderlySessions (libraries : OverlayLibraries F Feature GeoJson) (emptyFc : GeoJson) (base : List String) :
    Machine (StaticSession F GeoJson) where
  init := { renderer := .fresh emptyFc base }
  step := fun session session' => ∃ action, session.orderly emptyFc base action = true ∧
    session' = session.step libraries emptyFc base action

theorem scenes_stacked (libraries : OverlayLibraries F Feature GeoJson) (emptyFc : GeoJson) (base : List String)
    (hbase : ∀ id ∈ base, isManaged id = false) (session : StaticSession F GeoJson)
    (h : Reachable (orderlySessions libraries emptyFc base) session) : session.ScenesStacked base := by
  have hinvariant : StaticSession.InPlace base session.renderer ∧ session.ScenesStacked base := by
    refine StaticSession.scenes_of_render
      (J := fun renderer : StaticRenderer GeoJson => Positioned base renderer.style.layers renderer.slots)
      (Q := fun request scene => request.overlays ≠ [] → scene.Stacked base request)
      (StaticRenderer.fresh_positioned emptyFc hbase) ?_ h
    intro session request input result scene renderer horderly hpositioned hrender
    unfold StaticSession.orderly at horderly
    rw [and_eq_true, and_eq_true, List.isEmpty_iff] at horderly
    obtain ⟨⟨hbefore, hstuck⟩, hclear⟩ := horderly
    obtain ⟨rfl, rfl⟩ | ⟨geojson, inner, -, hinner⟩ := StaticRenderer.render_cases hrender
    · exact ⟨fun _ => hpositioned, nofun⟩
    · exact StaticRenderer.renderStaticWithOverlaysAndAddlayer_positioned hpositioned hbefore hstuck hclear hinner
  exact hinvariant.2

namespace Example

def layerRequest (colors : List String) (added : Bool) (before : Option String) : StaticRequest Unit :=
  ⟨colors.map pinOf, false, before, if added then some ⟨"background", none⟩ else none, 7⟩

def layerLibraries : OverlayLibraries Unit String (List (ℕ × String)) :=
  { pinLibraries with fromStr := fun _ => .ok (.object []), toString := fun _ => .ok "" }

def baseLayers : List String := ["water", "roads", "labels"]

def layerRun (actions : List (StaticAction Unit)) : StaticSession Unit (List (ℕ × String)) :=
  actions.foldl (StaticSession.step layerLibraries [] baseLayers) { renderer := .fresh [] baseLayers }

/-- For each scene, what its request puts together and the layers it is rendered with. -/
def stackings (session : StaticSession Unit (List (ℕ × String))) : List (List String × List String) :=
  (session.scenes.filter (fun entry => !entry.1.overlays.isEmpty)).map (fun entry =>
    (entry.1.addedLayers ++ band (overlaySlotCount entry.1.overlays), entry.2.layers))

theorem stackings_contiguous {s : StaticSession Unit (List (ℕ × String))} (h : s.ScenesStacked baseLayers)
    {stack : List String × List String} (hstack : stack ∈ stackings s) : stack.1 <:+: stack.2 := by
  obtain ⟨entry, hentry, rfl⟩ := mem_map.mp hstack
  obtain ⟨hmem, hover⟩ := mem_filter.mp hentry
  refine (h entry hmem (fun hnil => ?_)).contiguous
  simp [hnil] at hover

/-- The first request allocates the slot, the second adds a layer at the same place. -/
def addedLater : List (StaticAction Unit) :=
  [.render (layerRequest ["f44"] false none) {}, .render (layerRequest ["f44"] true none) {}]

/-- The second request is to stay below one of the renderer's own layers. -/
def belowOwnLayer : List (StaticAction Unit) :=
  [.render (layerRequest ["f44"] false none) {}, .render (layerRequest ["f44"] false (some "biei-overlay-0-line")) {}]

theorem layer_order_keeps_history :
    (Reachable (staticSessions layerLibraries [] baseLayers) (layerRun addedLater) ∧
        ¬ (layerRun addedLater).ScenesStacked baseLayers) ∧
      Reachable (staticSessions layerLibraries [] baseLayers) (layerRun belowOwnLayer) ∧
        ¬ (layerRun belowOwnLayer).ScenesStacked baseLayers := by
  have hadded :
      (["__biei_addlayer_7", "biei-overlay-0-fill", "biei-overlay-0-line", "biei-overlay-0-circle",
          "biei-overlay-0-symbol"],
        ["water", "roads", "labels", "biei-overlay-0-fill", "biei-overlay-0-line", "biei-overlay-0-circle",
          "biei-overlay-0-symbol", "__biei_addlayer_7"]) ∈ stackings (layerRun addedLater) := by decide +kernel
  have hbelow :
      (["biei-overlay-0-fill", "biei-overlay-0-line", "biei-overlay-0-circle", "biei-overlay-0-symbol"],
        ["water", "roads", "labels", "biei-overlay-0-fill", "biei-overlay-0-circle", "biei-overlay-0-symbol",
          "biei-overlay-0-line"]) ∈ stackings (layerRun belowOwnLayer) := by decide +kernel
  refine ⟨⟨reachable_foldl _ _ addedLater, fun h => ?_⟩, reachable_foldl _ _ belowOwnLayer, fun h => ?_⟩
  · exact absurd (stackings_contiguous h hadded) (by decide)
  · exact absurd (stackings_contiguous h hbelow) (by decide)

/-- A move that fails half way, then a layer added where a slot is not used any more. -/
def movedAround : List (StaticAction Unit) :=
  [.render (layerRequest ["f44", "00f"] true none) {},
    .render (layerRequest ["f44"] false (some "roads")) { faults := [none, some "no memory"] },
    .render (layerRequest ["f44"] true (some "roads")) {}]

theorem moved_around_stacked :
    (["__biei_addlayer_7", "biei-overlay-0-fill", "biei-overlay-0-line", "biei-overlay-0-circle",
        "biei-overlay-0-symbol"],
      ["water", "__biei_addlayer_7", "biei-overlay-0-fill", "biei-overlay-0-line", "biei-overlay-0-circle",
        "biei-overlay-0-symbol", "biei-overlay-1-fill", "biei-overlay-1-line", "biei-overlay-1-circle",
        "biei-overlay-1-symbol", "roads", "labels"]) ∈ stackings (layerRun movedAround) ∧
      (layerRun movedAround).ScenesStacked baseLayers := by
  have hstep : ∀ session action, session.orderly [] baseLayers action = true →
      (orderlySessions layerLibraries [] baseLayers).step session (session.step layerLibraries [] baseLayers action) :=
    fun _ action h => ⟨action, h, rfl⟩
  have hrun : Reachable (orderlySessions layerLibraries [] baseLayers) (layerRun movedAround) :=
    Reachable.init.foldl_checked (StaticSession.orderly [] baseLayers) hstep (by decide +kernel)
  exact ⟨by decide +kernel, scenes_stacked layerLibraries [] baseLayers (by decide) _ hrun⟩

end Example

end Mappf.Biei
