import Mappf.Biei.OverlayFrame

/-! # What a request leaves behind for the next one

Moving and installing layers leaves the shared source, the images and the pool's knowledge of them alone. A request
that gets to the end, or fails before it fills the source, keeps the rule: no image stays, and `has_data` is set when
the source may hold something. Two failures in the middle break it. A pin that cannot be added fails the request after
the source was filled, before `has_data` is set; a pin that cannot be drawn leaves the images of the pins before it. -/
namespace Mappf.Biei
open List

variable {F Feature GeoJson : Type}

/-! ## Calls that leave the contents alone -/

structure SameContent (style style' : NativeStyle GeoJson) : Prop where
  overlaySource : style'.overlaySource = style.overlaySource
  images : style'.images = style.images
  imageFaults : style'.imageFaults = style.imageFaults

structure SameData (slots slots' : OverlaySlotPool GeoJson) : Prop where
  emptyFc : slots'.emptyFc = slots.emptyFc
  hasData : slots'.hasData = slots.hasData

theorem SameContent.refl (style : NativeStyle GeoJson) : SameContent style style := ⟨rfl, rfl, rfl⟩

theorem SameContent.trans {style₁ style₂ style₃ : NativeStyle GeoJson} (h : SameContent style₁ style₂)
    (h' : SameContent style₂ style₃) : SameContent style₁ style₃ :=
  ⟨h'.overlaySource.trans h.overlaySource, h'.images.trans h.images, h'.imageFaults.trans h.imageFaults⟩

variable (slots : OverlaySlotPool GeoJson)

theorem SameData.refl : SameData slots slots := ⟨rfl, rfl⟩

theorem SameData.trans {slots₁ slots₂ slots₃ : OverlaySlotPool GeoJson} (h : SameData slots₁ slots₂)
    (h' : SameData slots₂ slots₃) : SameData slots₁ slots₃ :=
  ⟨h'.emptyFc.trans h.emptyFc, h'.hasData.trans h.hasData⟩

namespace SameContent

theorem frame : SourceFrame (@SameContent GeoJson) where
  refl := refl
  trans := trans
  faults := fun _ _ => ⟨rfl, rfl, rfl⟩
  sources := fun _ _ => ⟨rfl, rfl, rfl⟩

variable (style : NativeStyle GeoJson)

theorem call : SameContent style style.call.2 := frame.call style

variable (before : Option String)

theorem addLayer (id : String) : SameContent style (style.addLayer before id).2 := by
  have hcall := call style
  unfold NativeStyle.addLayer
  generalize style.call = called at hcall ⊢
  obtain ⟨result, style₁⟩ := called
  cases result with
  | error err => exact hcall
  | ok =>
    dsimp only
    split_ifs
    · exact hcall
    · exact hcall.trans ⟨rfl, rfl, rfl⟩

theorem removeLayer (id : String) : SameContent style (style.removeLayer id).2 := by
  unfold NativeStyle.removeLayer
  split <;> exact ⟨rfl, rfl, rfl⟩

variable (layers : List (ℕ × LayerKind))

theorem installLayers : SameContent style (installLayers style before layers).2 := by
  induction layers generalizing style with
  | nil => exact refl style
  | cons layer layers ih =>
    have hcall := call style
    unfold Biei.installLayers
    generalize style.call = called at hcall ⊢
    obtain ⟨result, style₁⟩ := called
    cases result with
    | error err => exact hcall
    | ok =>
      dsimp only
      have hadd := addLayer style₁ before (slotLayerId layer)
      generalize style₁.addLayer before (slotLayerId layer) = added at hadd ⊢
      obtain ⟨result, style₂⟩ := added
      cases result with
      | error err => exact hcall.trans hadd
      | ok => exact (hcall.trans hadd).trans (ih style₂)

theorem rollbackSlotLayers (idx : ℕ) : SameContent style (rollbackSlotLayers style idx) := by
  unfold Biei.rollbackSlotLayers
  generalize slotLayers idx = layers
  induction layers generalizing style with
  | nil => exact refl style
  | cons layer layers ih => exact (removeLayer style (slotLayerId layer)).trans (ih _)

theorem detach : SameContent style (detach style layers).2 := by
  induction layers generalizing style with
  | nil => exact refl style
  | cons layer layers ih =>
    have hremove := removeLayer style (slotLayerId layer)
    unfold Biei.detach
    generalize style.removeLayer (slotLayerId layer) = removed at hremove ⊢
    obtain ⟨there, style₁⟩ := removed
    cases there with
    | true | false => exact hremove.trans (ih style₁)

theorem restoreAll : SameContent style (restoreAll style layers).2 := by
  induction layers generalizing style with
  | nil => exact refl style
  | cons layer layers ih =>
    exact (addLayer style none (slotLayerId layer)).trans (ih _)

theorem recoverFailedMoveAll (consumed : ℕ × LayerKind) (left : List (ℕ × LayerKind)) :
    SameContent style (recoverFailedMoveAll style consumed left).2 := by
  have hcall := call style
  unfold Biei.recoverFailedMoveAll
  generalize style.call = called at hcall ⊢
  obtain ⟨result, style₁⟩ := called
  cases result with
  | error err => exact hcall.trans (restoreAll style₁ left)
  | ok => exact hcall.trans (restoreAll style₁ (consumed :: left))

theorem reinsert : SameContent style (reinsert style before layers).2 := by
  induction layers generalizing style with
  | nil => exact refl style
  | cons layer layers ih =>
    have hadd := addLayer style before (slotLayerId layer)
    unfold Biei.reinsert
    generalize style.addLayer before (slotLayerId layer) = added at hadd ⊢
    obtain ⟨result, style₁⟩ := added
    cases result with
    | ok => exact hadd.trans (ih style₁)
    | error err => exact hadd.trans (recoverFailedMoveAll style₁ layer layers)

theorem moveAllLayers (slots : OverlaySlotPool GeoJson) (before : Option String) :
    SameContent style (moveAllLayers style slots before).2.2 := by
  have hdetach := detach style (allSlotLayers slots.allocated)
  unfold Biei.moveAllLayers
  generalize Biei.detach style (allSlotLayers slots.allocated) = detached at hdetach ⊢
  obtain ⟨taken, style₁⟩ := detached
  have hreinsert := reinsert style₁ before taken
  dsimp only
  generalize Biei.reinsert style₁ before taken = reinserted at hreinsert ⊢
  obtain ⟨failure, style₂⟩ := reinserted
  cases failure with
  | none | some failure => exact hdetach.trans hreinsert

theorem positionSlots (slots : OverlaySlotPool GeoJson) (before : Option String) :
    SameContent style (positionSlots style slots before).2.2 := by
  unfold Biei.positionSlots
  split_ifs
  · exact moveAllLayers style slots before
  · exact refl style

end SameContent

namespace SameData

theorem moveAllLayers (style : NativeStyle GeoJson) (slots : OverlaySlotPool GeoJson) (before : Option String) :
    SameData slots (moveAllLayers style slots before).2.1 := by
  unfold Biei.moveAllLayers
  split
  split <;> exact ⟨rfl, rfl⟩

theorem positionSlots (style : NativeStyle GeoJson) (slots : OverlaySlotPool GeoJson) (before : Option String) :
    SameData slots (positionSlots style slots before).2.1 := by
  unfold Biei.positionSlots
  split_ifs
  · exact moveAllLayers style slots before
  · exact refl slots

end SameData

theorem OverlaySlotPool.grow_same (style : NativeStyle GeoJson) (missing : ℕ) :
    SameData slots (slots.grow style missing).2.1 ∧ SameContent style (slots.grow style missing).2.2 := by
  induction missing generalizing slots style with
  | zero => exact ⟨.refl slots, .refl style⟩
  | succ missing ih =>
    have hinstall := SameContent.installLayers style slots.currentBefore (slotLayers slots.allocated)
    unfold grow installSlotLayers
    generalize installLayers style slots.currentBefore (slotLayers slots.allocated) = installed at hinstall ⊢
    obtain ⟨result, style₁⟩ := installed
    cases result with
    | ok =>
      obtain ⟨hdata, hcont⟩ := ih { slots with allocated := slots.allocated + 1 } style₁
      exact ⟨⟨hdata.emptyFc, hdata.hasData⟩, hinstall.trans hcont⟩
    | error err => exact ⟨.refl slots, hinstall.trans (.rollbackSlotLayers style₁ slots.allocated)⟩

theorem OverlaySlotPool.ensureCapacity_same (style : NativeStyle GeoJson) (needed : ℕ) :
    SameData slots (slots.ensureCapacity style needed).2.1 ∧
      SameContent style (slots.ensureCapacity style needed).2.2 := by
  unfold ensureCapacity
  dsimp only
  split_ifs
  · exact ⟨.refl slots, .refl style⟩
  · exact slots.grow_same style _

/-! ## The added layer -/

theorem installAddlayer_same (libs : OverlayLibraries F Feature GeoJson) (style : NativeStyle GeoJson)
    (cache : AddLayerSourceCache) (addlayer : AddLayer) (beforeLayer : Option String) (taskId : UInt64) :
    SameContent style (installAddlayer libs style cache addlayer beforeLayer taskId).2.2 := by
  have hkept : KeptByFailure (@SameContent GeoJson) beforeLayer (addlayerId taskId) := by
    intro style₁ style₂ err hadd
    have hsame := SameContent.addLayer style₁ beforeLayer (addlayerId taskId)
    rw [hadd] at hsame
    exact hsame
  obtain ⟨-, hsame⟩ | ⟨style₁, hsame, -, hadd⟩ :=
    SameContent.frame.installAddlayer libs style cache addlayer beforeLayer taskId hkept
  · exact hsame
  · have hlast := SameContent.addLayer style₁ beforeLayer (addlayerId taskId)
    rw [hadd] at hlast
    exact hsame.trans hlast

/-! ## Pins -/

theorem foldl_removeImage (ids : List String) (style : NativeStyle GeoJson) :
    (ids.foldl NativeStyle.removeImage style).images = style.images.filter (· ∉ ids) ∧
      (ids.foldl NativeStyle.removeImage style).overlaySource = style.overlaySource := by
  induction ids generalizing style with
  | nil => exact ⟨by simp, rfl⟩
  | cons id ids ih =>
    obtain ⟨himgs, hsrc⟩ := ih (style.removeImage id)
    refine ⟨?_, hsrc⟩
    rw [foldl_cons, himgs]
    unfold NativeStyle.removeImage
    simp [Bool.and_comm]

variable {style : NativeStyle GeoJson} {geojson : Option GeoJson}
  {libs : OverlayLibraries F Feature GeoJson} {hasData : Bool} {beforeLayer : Option String}

theorem foldl_removeImage_self {ids : List String} (h : style.images = ids) :
    (ids.foldl NativeStyle.removeImage style).images = [] := by
  rw [(foldl_removeImage ids style).1, h, filter_eq_nil_iff]
  simp

theorem addImage_spec (style : NativeStyle GeoJson) (id : String) :
    (style.addImage id).2.overlaySource = style.overlaySource ∧
      (∀ fault ∈ (style.addImage id).2.imageFaults, fault ∈ style.imageFaults) ∧
      (((style.addImage id).1 = .ok () ∧
          (style.addImage id).2.images = if id ∈ style.images then style.images else style.images ++ [id]) ∨
        ∃ err, (style.addImage id).1 = .error err ∧ some err ∈ style.imageFaults ∧
          (style.addImage id).2.images = style.images) := by
  unfold NativeStyle.addImage
  split
  · next err faults hflts =>
    refine ⟨rfl, fun fault hfault => ?_, .inr ⟨err, rfl, ?_, rfl⟩⟩
    · rw [hflts]
      exact mem_cons_of_mem _ hfault
    · rw [hflts]
      exact mem_cons_self
  · exact ⟨rfl, fun fault hfault => mem_of_mem_tail hfault, .inl ⟨rfl, rfl⟩⟩
  · exact ⟨rfl, fun fault hfault => mem_of_mem_tail hfault, .inl ⟨rfl, rfl⟩⟩

/-- Pins that can all be drawn are all registered, or an image could not be added and none is left. -/
theorem registerPins_spec {pins : List (PinOverlay F)}
    (hdrawn : ∀ pin ∈ pins, libs.renderPinImage pin = .ok ()) {seen registered : List String}
    (himgs : style.images = registered) (hseen : ∀ id, id ∈ seen ↔ id ∈ registered) :
    let result := registerPins libs style seen registered pins
    result.2.overlaySource = style.overlaySource ∧
      ((result.1 = .ok () ∧ result.2.images =
          pins.foldl (fun ids pin => if pinImageId pin ∈ ids then ids else ids ++ [pinImageId pin]) registered) ∨
        ((∃ err, result.1 = .error err) ∧ result.2.images = [] ∧ ∃ err, some err ∈ style.imageFaults)) := by
  induction pins generalizing style seen registered with
  | nil => exact ⟨rfl, .inl ⟨rfl, himgs⟩⟩
  | cons pin pins ih =>
    have hrest : ∀ pin ∈ pins, libs.renderPinImage pin = .ok () :=
      fun other hother => hdrawn other (mem_cons_of_mem pin hother)
    unfold registerPins
    rw [foldl_cons]
    by_cases hmem : pinImageId pin ∈ seen
    · rw [if_pos hmem, if_pos ((hseen _).mp hmem)]
      exact ih hrest himgs hseen
    · have hfree : pinImageId pin ∉ registered := fun h => hmem ((hseen _).mpr h)
      rw [if_neg hmem, if_neg hfree, hdrawn pin mem_cons_self]
      obtain ⟨hsrc, hflts, hadded⟩ := addImage_spec style (pinImageId pin)
      generalize style.addImage (pinImageId pin) = added at hsrc hflts hadded ⊢
      obtain ⟨result, style₁⟩ := added
      obtain ⟨hok, himgs₁⟩ | ⟨err, herr, hfault, himgs₁⟩ := hadded
      · dsimp only at hok himgs₁ hsrc hflts
        rw [hok]
        rw [himgs, if_neg hfree] at himgs₁
        have hseen₁ : ∀ id, id ∈ pinImageId pin :: seen ↔ id ∈ registered ++ [pinImageId pin] := by
          intro id
          rw [mem_cons, mem_append, mem_singleton, hseen id, or_comm]
        obtain ⟨hsrc₁, hcases⟩ := ih hrest himgs₁ hseen₁
        refine ⟨hsrc₁.trans hsrc, hcases.imp_right ?_⟩
        rintro ⟨herr, hnone, err, hfault⟩
        exact ⟨herr, hnone, err, hflts _ hfault⟩
      · dsimp only at herr himgs₁ hsrc
        rw [herr]
        refine ⟨(foldl_removeImage registered style₁).2.trans hsrc, .inr ⟨⟨err, rfl⟩, ?_, err, hfault⟩⟩
        exact foldl_removeImage_self (himgs₁.trans himgs)

theorem registerPinImages_spec {overlays : List (StaticOverlay F)}
    (hdrawn : ∀ pin ∈ pinsOf overlays, libs.renderPinImage pin = .ok ()) (himgs : style.images = []) :
    let result := registerPinImages libs style overlays
    result.2.overlaySource = style.overlaySource ∧
      ((result.1 = .ok () ∧ result.2.images = pinImageIds overlays) ∨
        ((∃ err, result.1 = .error err) ∧ result.2.images = [] ∧ ∃ err, some err ∈ style.imageFaults)) :=
  registerPins_spec hdrawn himgs (fun _ => Iff.rfl)

/-! ## One request -/

/-- Between requests: no image is registered, and a source that may hold something is known to. -/
structure Isolated (emptyFc : GeoJson) (style : NativeStyle GeoJson) (slots : OverlaySlotPool GeoJson) : Prop where
  images : style.images = []
  reset : slots.emptyFc = emptyFc
  cleared : slots.hasData = false → style.overlaySource = some emptyFc

structure Scene.Own (libraries : OverlayLibraries F Feature GeoJson) (emptyFc : GeoJson)
    (overlays : List (StaticOverlay F)) (scene : Scene GeoJson) : Prop where
  images : scene.images = pinImageIds overlays
  empty : overlays = [] → scene.overlaySource = some emptyFc
  union : overlays ≠ [] → ∃ fc, buildOverlayGeojson libraries overlays = .ok fc ∧ scene.overlaySource = some fc

variable {emptyFc : GeoJson} {style' : NativeStyle GeoJson} {slots} {slots' : OverlaySlotPool GeoJson}
  {overlays : List (StaticOverlay F)}

theorem Isolated.same (h : Isolated emptyFc style slots) (hstyle : SameContent style style')
    (hslots : SameData slots slots') : Isolated emptyFc style' slots' where
  images := hstyle.images.trans h.images
  reset := hslots.emptyFc.trans h.reset
  cleared := fun hdata => hstyle.overlaySource.trans (h.cleared (hslots.hasData.symm.trans hdata))

theorem setSourceGeojson_spec (style : NativeStyle GeoJson) (fc : GeoJson) :
    ((∃ err, (style.setSourceGeojson fc).1 = .error err) ∧ SameContent style (style.setSourceGeojson fc).2) ∨
      ((style.setSourceGeojson fc).1 = .ok () ∧ (style.setSourceGeojson fc).2.overlaySource = some fc ∧
        (style.setSourceGeojson fc).2.images = style.images ∧
        (style.setSourceGeojson fc).2.imageFaults = style.imageFaults) := by
  have hcall := SameContent.call style
  unfold NativeStyle.setSourceGeojson
  generalize style.call = called at hcall ⊢
  obtain ⟨result, style₁⟩ := called
  cases result with
  | error err => exact .inl ⟨⟨err, rfl⟩, hcall⟩
  | ok =>
    dsimp only
    cases style₁.overlaySource with
    | none => exact .inl ⟨⟨_, rfl⟩, hcall⟩
    | some _ => exact .inr ⟨rfl, rfl, hcall.images, hcall.imageFaults⟩

theorem clearSlots_isolated (h : Isolated emptyFc style slots) :
    Isolated emptyFc (clearSlots style slots).2.2 (clearSlots style slots).2.1 ∧
      ((clearSlots style slots).1 = .ok () → (clearSlots style slots).2.2.overlaySource = some emptyFc) := by
  unfold clearSlots
  split_ifs with hdata
  · obtain ⟨⟨err, herr⟩, hsame⟩ | ⟨hok, hsrc, himgs, -⟩ := setSourceGeojson_spec style slots.emptyFc
    · generalize style.setSourceGeojson slots.emptyFc = set at herr hsame ⊢
      obtain ⟨result, style₁⟩ := set
      dsimp only at herr
      rw [herr]
      exact ⟨h.same hsame (.refl slots), nofun⟩
    · generalize style.setSourceGeojson slots.emptyFc = set at hok hsrc himgs ⊢
      obtain ⟨result, style₁⟩ := set
      dsimp only at hok hsrc himgs
      rw [hok]
      rw [h.reset] at hsrc
      exact ⟨⟨himgs.trans h.images, h.reset, fun _ => hsrc⟩, fun _ => hsrc⟩
  · exact ⟨h, fun _ => h.cleared (Bool.eq_false_iff.mpr hdata)⟩

/-- The images of the pins can be drawn, and added as well unless the source is already known to hold something. -/
def pinsReady (libraries : OverlayLibraries F Feature GeoJson) (hasData : Bool) (overlays : List (StaticOverlay F))
    (imageFaults : List (Option String)) : Bool :=
  (pinsOf overlays).isEmpty ||
    ((pinsOf overlays).all (fun pin => (libraries.renderPinImage pin).isOk) && (hasData || imageFaults.all Option.isNone))

theorem pinsReady_drawn {imageFaults : List (Option String)} (h : pinsReady libs hasData overlays imageFaults = true) :
    ∀ pin ∈ pinsOf overlays, libs.renderPinImage pin = .ok () := by
  intro pin hpin
  unfold pinsReady at h
  rw [Bool.or_eq_true, Bool.and_eq_true, List.isEmpty_iff] at h
  obtain hnone | ⟨hdrawn, -⟩ := h
  · rw [hnone] at hpin
    cases hpin
  · have hok := all_eq_true.mp hdrawn pin hpin
    cases hdraw : libs.renderPinImage pin with
    | ok => rfl
    | error err =>
      rw [hdraw] at hok
      cases hok

/-- A request whose pins are ready fails at an image only when the pool knows of the data in the source. -/
theorem pinsReady_failed {err : String}
    (h : pinsReady libs hasData overlays style.imageFaults = true) (himgs : style.images = [])
    (hfail : (registerPinImages libs style overlays).1 = .error err) : hasData = true := by
  obtain ⟨-, ⟨hok, -⟩ | ⟨-, -, fault, hfault⟩⟩ := registerPinImages_spec (pinsReady_drawn h) himgs
  · rw [hok] at hfail
    cases hfail
  · unfold pinsReady at h
    rw [Bool.or_eq_true, Bool.and_eq_true, Bool.or_eq_true, List.isEmpty_iff] at h
    obtain hnone | ⟨-, hdata | hnofault⟩ := h
    · unfold registerPinImages at hfail
      rw [hnone] at hfail
      cases hfail
    · exact hdata
    · exact absurd (all_eq_true.mp hnofault _ hfault) Bool.false_ne_true

section

variable (h : Isolated emptyFc style slots)
  (hprep : ∀ fc, geojson = some fc → buildOverlayGeojson libs overlays = .ok fc)
  (hready : pinsReady libs slots.hasData overlays style.imageFaults = true)
include h hprep hready

theorem fillSlots_isolated : let filled := fillSlots libs style slots overlays geojson
    ((∃ err, filled.1 = .error err) ∧ Isolated emptyFc filled.2.2 filled.2.1) ∨
      (filled.1 = .ok () ∧ filled.2.1 = { slots with hasData := true } ∧ filled.2.2.images = pinImageIds overlays ∧
        ∃ fc, buildOverlayGeojson libs overlays = .ok fc ∧ filled.2.2.overlaySource = some fc) := by
  have hbuilt : ∀ fc, sourceGeojson libs overlays geojson = .ok fc →
      buildOverlayGeojson libs overlays = .ok fc := by
    intro fc hfc
    cases hcase : geojson with
    | none =>
      rw [hcase] at hfc
      exact hfc
    | some prepared =>
      rw [hcase] at hfc
      cases hfc
      exact hprep fc hcase
  unfold fillSlots
  cases hsrc : sourceGeojson libs overlays geojson with
  | error err => exact .inl ⟨⟨err, rfl⟩, h⟩
  | ok fc =>
    dsimp only
    obtain ⟨⟨err, herr⟩, hsame⟩ | ⟨hok, hset, himgs, hflts⟩ := setSourceGeojson_spec style fc
    · generalize style.setSourceGeojson fc = set at herr hsame ⊢
      obtain ⟨result, style₁⟩ := set
      dsimp only at herr
      rw [herr]
      exact .inl ⟨⟨err, rfl⟩, h.same hsame (.refl slots)⟩
    · generalize style.setSourceGeojson fc = set at hok hset himgs hflts ⊢
      obtain ⟨result, style₁⟩ := set
      dsimp only at hok hset himgs hflts
      rw [hok]
      dsimp only
      rw [← hflts] at hready
      have hnone : style₁.images = [] := himgs.trans h.images
      obtain ⟨hkept, hpins⟩ := registerPinImages_spec (pinsReady_drawn hready) hnone
      have hfail : ∀ err, (registerPinImages libs style₁ overlays).1 = .error err → slots.hasData = true :=
        fun err => pinsReady_failed hready hnone
      generalize registerPinImages libs style₁ overlays = registered at hkept hpins hfail ⊢
      obtain ⟨result, style₂⟩ := registered
      obtain ⟨hok, hids⟩ | ⟨⟨err, herr⟩, hids, -⟩ := hpins
      · dsimp only at hok hids hkept
        rw [hok]
        exact .inr ⟨rfl, rfl, hids, fc, hbuilt fc hsrc, hkept.trans hset⟩
      · dsimp only at herr hids
        rw [herr]
        -- the source is filled, and the pool already knew that it may be
        refine .inl ⟨⟨err, rfl⟩, hids, h.reset, fun hdata => ?_⟩
        simp [hfail err herr] at hdata

theorem assignSlots_isolated {result : Except String Unit}
    (hassign : assignSlots libs style slots overlays geojson beforeLayer = (result, slots', style')) :
    ((∃ err, result = .error err) ∧ Isolated emptyFc style' slots') ∨
      (result = .ok () ∧ slots'.emptyFc = emptyFc ∧ style'.images = pinImageIds overlays ∧
        (slots'.hasData = false → style'.overlaySource = some emptyFc) ∧
        (overlays = [] → style'.overlaySource = some emptyFc) ∧
        (overlays ≠ [] → ∃ fc, buildOverlayGeojson libs overlays = .ok fc ∧ style'.overlaySource = some fc)) := by
  unfold assignSlots at hassign
  by_cases hcount : slots.maxSize < overlays.length
  · rw [if_pos hcount] at hassign
    cases hassign
    exact .inl ⟨⟨_, rfl⟩, h⟩
  · rw [if_neg hcount] at hassign
    obtain ⟨hdata₁, hsame₁⟩ := slots.ensureCapacity_same style (overlaySlotCount overlays)
    generalize slots.ensureCapacity style (overlaySlotCount overlays) = grown at hdata₁ hsame₁ hassign
    obtain ⟨result₁, slots₁, style₁⟩ := grown
    have h₁ := h.same hsame₁ hdata₁
    cases result₁ with
    | error err =>
      cases hassign
      exact .inl ⟨⟨err, rfl⟩, h₁⟩
    | ok =>
      dsimp only at hassign
      by_cases hempty : overlays = []
      · subst hempty
        rw [if_pos isEmpty_nil] at hassign
        obtain ⟨hclear, hsrc⟩ := clearSlots_isolated h₁
        rw [hassign] at hclear hsrc
        cases result with
        | error err => exact .inl ⟨⟨err, rfl⟩, hclear⟩
        | ok =>
          exact .inr ⟨rfl, hclear.reset, hclear.images, hclear.cleared, fun _ => hsrc rfl, fun hne => absurd rfl hne⟩
      · rw [if_neg (fun hnil => hempty (isEmpty_iff.mp hnil))] at hassign
        have hsame₂ := SameContent.positionSlots style₁ slots₁ beforeLayer
        have hdata₂ := SameData.positionSlots style₁ slots₁ beforeLayer
        generalize positionSlots style₁ slots₁ beforeLayer = positioned at hsame₂ hdata₂ hassign
        obtain ⟨result₂, slots₂, style₂⟩ := positioned
        have h₂ := h₁.same hsame₂ hdata₂
        cases result₂ with
        | error err =>
          cases hassign
          exact .inl ⟨⟨err, rfl⟩, h₂⟩
        | ok =>
          dsimp only at hassign
          have hready₂ : pinsReady libs slots₂.hasData overlays style₂.imageFaults = true := by
            rw [(hdata₁.trans hdata₂).hasData, (hsame₁.trans hsame₂).imageFaults]
            exact hready
          have hfill := fillSlots_isolated h₂ hprep hready₂
          rw [hassign] at hfill
          obtain ⟨herr, hisol⟩ | ⟨hok, hslots, himgs, hunion⟩ := hfill
          · exact .inl ⟨herr, hisol⟩
          · dsimp only at hok hslots himgs hunion
            refine .inr ⟨hok, ?_, himgs, ?_, fun hnil => absurd hnil hempty, fun _ => hunion⟩
            · rw [hslots]
              exact h₂.reset
            · intro hdata
              simp [hslots] at hdata

theorem renderStaticWithOverlays_isolated {image : Except RenderingError Unit}
    {result : Except StaticRenderError Unit} {scene : Option (Scene GeoJson)}
    (hrender : renderStaticWithOverlays libs style slots overlays geojson beforeLayer image =
      (result, scene, slots', style')) :
    Isolated emptyFc style' slots' ∧ ∀ rendered, scene = some rendered → rendered.Own libs emptyFc overlays := by
  unfold renderStaticWithOverlays at hrender
  cases hassign : assignSlots libs style slots overlays geojson beforeLayer with
  | mk assigned rest =>
    obtain ⟨slots₁, style₁⟩ := rest
    rw [hassign] at hrender
    obtain ⟨⟨err, rfl⟩, hisol⟩ | ⟨rfl, hreset, himgs, hcleared, hempty, hunion⟩ :=
      assignSlots_isolated h hprep hready hassign
    · cases hrender
      exact ⟨hisol, nofun⟩
    · cases hrender
      refine ⟨⟨foldl_removeImage_self himgs, hreset, fun hdata => ?_⟩, fun rendered hsome => ?_⟩
      · rw [(foldl_removeImage _ _).2]
        exact hcleared hdata
      · cases hsome
        exact ⟨himgs, hempty, hunion⟩

end

namespace StaticRenderer

variable {renderer renderer' : StaticRenderer GeoJson} {request : StaticRequest F} {input : NativeInput}

theorem renderStaticWithOverlaysAndAddlayer_isolated (h : Isolated emptyFc renderer.style renderer.slots)
    (hprep : ∀ fc, geojson = some fc → buildOverlayGeojson libs request.overlays = .ok fc)
    (hready : pinsReady libs renderer.slots.hasData request.overlays input.imageFaults = true)
    {result : Except StaticRenderError Unit} {scene : Option (Scene GeoJson)}
    (hrender : renderer.renderStaticWithOverlaysAndAddlayer libs request geojson input = (result, scene, renderer')) :
    Isolated emptyFc renderer'.style renderer'.slots ∧
      ∀ rendered, scene = some rendered → rendered.Own libs emptyFc request.overlays := by
  have hstart : Isolated emptyFc (renderer.prepared input) renderer.slots := ⟨h.images, h.reset, h.cleared⟩
  unfold renderStaticWithOverlaysAndAddlayer at hrender
  cases haddlayer : request.addlayer with
  | none =>
    rw [haddlayer] at hrender
    cases hinner : renderStaticWithOverlays libs (renderer.prepared input) renderer.slots request.overlays
        geojson request.beforeLayer input.image with
    | mk result₁ rest =>
      obtain ⟨scene₁, slots₁, style₁⟩ := rest
      rw [hinner] at hrender
      cases hrender
      exact renderStaticWithOverlays_isolated hstart hprep hready hinner
  | some addlayer =>
    rw [haddlayer] at hrender
    dsimp only at hrender
    have hsame := installAddlayer_same libs (renderer.prepared input) renderer.addlayerSources addlayer
      request.beforeLayer request.taskId
    generalize installAddlayer libs (renderer.prepared input) renderer.addlayerSources addlayer
      request.beforeLayer request.taskId = installed at hsame hrender
    obtain ⟨result₁, cache, style₁⟩ := installed
    have h₁ := hstart.same hsame (.refl renderer.slots)
    cases result₁ with
    | error err =>
      cases hrender
      exact ⟨h₁, nofun⟩
    | ok layerId =>
      dsimp only at hrender
      cases hinner : renderStaticWithOverlays libs style₁ renderer.slots request.overlays geojson
          request.beforeLayer input.image with
      | mk result₂ rest =>
        obtain ⟨scene₂, slots₂, style₂⟩ := rest
        rw [hinner] at hrender
        cases hrender
        have hready₁ : pinsReady libs renderer.slots.hasData request.overlays style₁.imageFaults = true := by
          rw [hsame.imageFaults]
          exact hready
        obtain ⟨hafter, hscene⟩ := renderStaticWithOverlays_isolated h₁ hprep hready₁ hinner
        exact ⟨hafter.same (.removeLayer style₂ layerId) (.refl slots₂), hscene⟩

theorem cameraGeojson_built (h : cameraGeojson libs request input = .ok geojson) :
    ∀ fc, geojson = some fc → buildOverlayGeojson libs request.overlays = .ok fc := by
  rintro fc rfl
  unfold cameraGeojson at h
  by_cases hauto : request.auto = true
  · rw [if_pos hauto] at h
    cases hbuilt : buildOverlayGeojson libs request.overlays with
    | error err =>
      simp [hbuilt] at h
    | ok built =>
      rw [hbuilt] at h
      split_ifs at h
      cases h
      rfl
  · simp [if_neg hauto] at h

variable {result : Except RendererError Unit} {scene : Option (Scene GeoJson)}

/-- A request fails at its camera and changes nothing, or is rendered with the collection of its overlays. -/
theorem render_cases (hrender : renderer.render libs request input = (result, scene, renderer')) :
    (scene = none ∧ renderer' = renderer) ∨
      ∃ geojson inner,
        (∀ fc, geojson = some fc → buildOverlayGeojson libs request.overlays = .ok fc) ∧
        renderer.renderStaticWithOverlaysAndAddlayer libs request geojson input = (inner, scene, renderer') := by
  unfold render at hrender
  cases hcamera : cameraGeojson libs request input with
  | error err =>
    rw [hcamera] at hrender
    cases hrender
    exact .inl ⟨rfl, rfl⟩
  | ok geojson =>
    rw [hcamera] at hrender
    dsimp only at hrender
    cases hinner : renderer.renderStaticWithOverlaysAndAddlayer libs request geojson input with
    | mk inner rest =>
      rw [hinner] at hrender
      cases hrender
      exact .inr ⟨geojson, inner, cameraGeojson_built hcamera, hinner⟩

end StaticRenderer

/-! ## Runs -/

namespace StaticSession

def pinsReady (libraries : OverlayLibraries F Feature GeoJson) (emptyFc : GeoJson) (base : List String)
    (session : StaticSession F GeoJson) : StaticAction F → Bool
  | .render request input =>
    Biei.pinsReady libraries (session.ensured emptyFc base).slots.hasData request.overlays input.imageFaults
  | .rebuild => true

def ScenesOwn (libraries : OverlayLibraries F Feature GeoJson) (emptyFc : GeoJson) (session : StaticSession F GeoJson) :
    Prop :=
  ∀ entry ∈ session.scenes, entry.2.Own libraries emptyFc entry.1.overlays

/-- A rule for runs that take only some requests: `J` holds of every renderer that is not to be built again, and with
it every scene is as `Q` says. -/
theorem scenes_of_render {base : List String} {check : StaticSession F GeoJson → StaticAction F → Bool}
    {J : StaticRenderer GeoJson → Prop} {Q : StaticRequest F → Scene GeoJson → Prop} (hfresh : J (.fresh emptyFc base))
    (hrender : ∀ (s : StaticSession F GeoJson) request input result scene renderer,
      check s (.render request input) = true → J (s.ensured emptyFc base) →
      (s.ensured emptyFc base).render libs request input = (result, scene, renderer) →
      (renderer.slots.needsRebuild = false → J renderer) ∧ ∀ rendered, scene = some rendered → Q request rendered)
    {s : StaticSession F GeoJson} (h : Reachable
      { init := { renderer := .fresh emptyFc base }
        step := fun s s' => ∃ action, check s action = true ∧
          s' = s.step libs emptyFc base action } s) :
    (s.renderer.slots.needsRebuild = false → J s.renderer) ∧
      ∀ entry ∈ s.scenes, Q entry.1 entry.2 := by
  refine h.invariant
    (I := fun s => (s.renderer.slots.needsRebuild = false → J s.renderer) ∧
      ∀ entry ∈ s.scenes, Q entry.1 entry.2) ⟨fun _ => hfresh, nofun⟩ ?_
  rintro s _ ⟨hplace, hscenes⟩ ⟨action, hcheck, rfl⟩
  cases action with
  | rebuild => exact ⟨fun _ => hfresh, hscenes⟩
  | render request input =>
    have hensured : J (s.ensured emptyFc base) := by
      unfold ensured
      split_ifs with hrebuild
      · exact hfresh
      · exact hplace (Bool.eq_false_iff.mpr hrebuild)
    unfold step
    dsimp only
    cases hrend : (s.ensured emptyFc base).render libs request input with
    | mk result rest =>
      obtain ⟨scene, renderer⟩ := rest
      obtain ⟨hafter, hscene⟩ := hrender s request input result scene renderer hcheck hensured hrend
      refine ⟨?_, fun entry hentry => ?_⟩
      · unfold settle
        split
        · exact hafter
        · split_ifs
          · exact fun _ => hfresh
          · exact hafter
      · obtain hold | hnew := mem_append.mp hentry
        · exact hscenes entry hold
        · obtain ⟨rendered, hrend, rfl⟩ := mem_map.mp hnew
          exact hscene rendered (Option.mem_toList.mp hrend)

end StaticSession

def readySessions (libraries : OverlayLibraries F Feature GeoJson) (emptyFc : GeoJson) (base : List String) :
    Machine (StaticSession F GeoJson) where
  init := { renderer := .fresh emptyFc base }
  step := fun session session' => ∃ action, session.pinsReady libraries emptyFc base action = true ∧
    session' = session.step libraries emptyFc base action

theorem scenes_own (libraries : OverlayLibraries F Feature GeoJson) (emptyFc : GeoJson) (base : List String)
    (session : StaticSession F GeoJson) (h : Reachable (readySessions libraries emptyFc base) session) :
    session.ScenesOwn libraries emptyFc := by
  refine (StaticSession.scenes_of_render (J := fun renderer => Isolated emptyFc renderer.style renderer.slots)
    (Q := fun request scene => scene.Own libraries emptyFc request.overlays)
    ⟨rfl, rfl, fun _ => rfl⟩ ?_ h).2
  intro session request input result scene renderer hready hisolated hrender
  obtain ⟨rfl, rfl⟩ | ⟨geojson, inner, hprep, hinner⟩ := StaticRenderer.render_cases hrender
  · exact ⟨fun _ => hisolated, nofun⟩
  · obtain ⟨hafter, hscene⟩ :=
      StaticRenderer.renderStaticWithOverlaysAndAddlayer_isolated hisolated hprep hready hinner
    exact ⟨fun _ => hafter, hscene⟩

namespace Example

/-- Features are the ids of the pins; a pin without a color cannot be drawn. -/
def pinLibraries : OverlayLibraries Unit String (List (ℕ × String)) where
  overlayToFeatures overlay := (pinsOf [overlay]).map pinImageId
  parseGeojson := .ok
  renderPinImage pin := if pin.color = "" then .error "failed to allocate pin pixmap" else .ok ()
  fromStr _ := .error ""
  toString _ := .error ""
  stableSourceId source := source.tilesetId

def pinOf (color : String) : StaticOverlay Unit := .pin ⟨.small, none, color, ⟨(), ()⟩⟩

def overlayRequest (overlays : List (StaticOverlay Unit)) : StaticRequest Unit := ⟨overlays, false, none, none, 1⟩

def staticRun (actions : List (StaticAction Unit)) : StaticSession Unit (List (ℕ × String)) :=
  actions.foldl (StaticSession.step pinLibraries [] []) { renderer := .fresh [] [] }

/-- The image of the pin cannot be added; the next request has no overlays. -/
def failedPin : List (StaticAction Unit) :=
  [.render (overlayRequest [pinOf "f44"]) { imageFaults := [some "no memory"] }, .render (overlayRequest []) {}]

/-- After a request that succeeds, the last pin of the next one cannot be drawn; the third has no overlays. -/
def undrawnPin : List (StaticAction Unit) :=
  [.render (overlayRequest [pinOf "00f"]) {}, .render (overlayRequest [pinOf "f44", pinOf ""]) {},
    .render (overlayRequest []) {}]

def emptyScenes (session : StaticSession Unit (List (ℕ × String))) : List (Option (List (ℕ × String)) × List String) :=
  (session.scenes.filter (fun entry => entry.1.overlays.isEmpty)).map (fun entry =>
    (entry.2.overlaySource, entry.2.images))

theorem emptyScenes_own {s : StaticSession Unit (List (ℕ × String))} (h : s.ScenesOwn pinLibraries [])
    {found : Option (List (ℕ × String)) × List String} (hfound : found ∈ emptyScenes s) : found = (some [], []) := by
  obtain ⟨entry, hentry, rfl⟩ := mem_map.mp hfound
  obtain ⟨hmem, hempty⟩ := mem_filter.mp hentry
  have hnil : entry.1.overlays = [] := isEmpty_iff.mp hempty
  have hown := h entry hmem
  rw [hown.empty hnil, hown.images, hnil]
  rfl

/-- In the first run the features of the failed request are rendered, in the second its first image is left. -/
theorem overlays_cross_requests :
    (Reachable (staticSessions pinLibraries [] []) (staticRun failedPin) ∧
        ¬ (staticRun failedPin).ScenesOwn pinLibraries []) ∧
      Reachable (staticSessions pinLibraries [] []) (staticRun undrawnPin) ∧
        ¬ (staticRun undrawnPin).ScenesOwn pinLibraries [] := by
  have hfailed : (some [(0, "biei-pin-s-dot-f44-x2")], []) ∈ emptyScenes (staticRun failedPin) := by decide +kernel
  have hundrawn : (some [], ["biei-pin-s-dot-f44-x2"]) ∈ emptyScenes (staticRun undrawnPin) := by decide +kernel
  refine ⟨⟨reachable_foldl _ _ failedPin, fun h => ?_⟩, reachable_foldl _ _ undrawnPin, fun h => ?_⟩
  · exact absurd (emptyScenes_own h hfailed) (by decide)
  · exact absurd (emptyScenes_own h hundrawn) (by decide)

/-- The second request fails at its image, and the third still finds an empty source. -/
def drawnPins : List (StaticAction Unit) :=
  [.render (overlayRequest [pinOf "f44"]) {}, .render (overlayRequest [pinOf "00f"]) { imageFaults := [some "no memory"] },
    .render (overlayRequest []) {}]

theorem drawn_pins_own :
    emptyScenes (staticRun drawnPins) = [(some [], [])] ∧ (staticRun drawnPins).ScenesOwn pinLibraries [] := by
  have hstep : ∀ session action, session.pinsReady pinLibraries [] [] action = true →
      (readySessions pinLibraries [] []).step session (session.step pinLibraries [] [] action) :=
    fun _ action h => ⟨action, h, rfl⟩
  have hrun : Reachable (readySessions pinLibraries [] []) (staticRun drawnPins) :=
    Reachable.init.foldl_checked (StaticSession.pinsReady pinLibraries [] []) hstep (by decide +kernel)
  exact ⟨by decide +kernel, scenes_own pinLibraries [] [] _ hrun⟩

end Example

end Mappf.Biei
