import Mathlib.Data.List.Nodup
import Mappf.Biei.OverlayFrame

/-! # The band of slot layers

The layers of the slots are told from those of the base style and from an added layer by their ids. While removals
take effect, growing the pool inserts the next slots where the pool is, and moving it takes out exactly the slot
layers and puts them back in slot order; a move that fails half way and is recovered leaves them somewhere, with the
other layers in their order. -/
namespace Mappf.Biei
open List Nat

variable {F Feature GeoJson : Type} {id : String} {start count allocated : ℕ} {base : List String}

/-! ## Ids -/

def isSlotLayer (id : String) : Bool := "biei-overlay-".toList.isPrefixOf id.toList

def isAddlayer (id : String) : Bool := "__biei_addlayer_".toList.isPrefixOf id.toList

variable (layer : ℕ × LayerKind)

theorem slotLayerId_toList : (slotLayerId layer).toList =
      "biei-overlay-".toList ++ ((toString layer.1).toList ++ '-' :: layer.2.name.toList) := by
  unfold slotLayerId
  rw [String.toList_append, String.toList_append, String.toList_append, append_assoc, append_assoc]
  rfl

variable (taskId : UInt64)

theorem addlayerId_toList : (addlayerId taskId).toList = "__biei_addlayer_".toList ++ (toString taskId.toNat).toList :=
  String.toList_append

theorem isSlotLayer_slotLayerId : isSlotLayer (slotLayerId layer) = true := by
  unfold isSlotLayer
  rw [slotLayerId_toList, isPrefixOf_iff_prefix]
  exact prefix_append _ _

theorem isAddlayer_slotLayerId : isAddlayer (slotLayerId layer) = false := by
  unfold isAddlayer
  rw [slotLayerId_toList]
  rfl

theorem isAddlayer_addlayerId : isAddlayer (addlayerId taskId) = true := by
  unfold isAddlayer
  rw [addlayerId_toList, isPrefixOf_iff_prefix]
  exact prefix_append _ _

theorem isSlotLayer_addlayerId : isSlotLayer (addlayerId taskId) = false := by
  unfold isSlotLayer
  rw [addlayerId_toList]
  rfl

theorem LayerKind.name_injective {kind kind' : LayerKind} (h : kind.name = kind'.name) : kind = kind' := by
  cases kind <;> cases kind' <;> first | rfl | exact absurd h (by decide)

theorem slotLayerId_injective : Function.Injective slotLayerId := by
  rintro ⟨idx, kind⟩ ⟨idx', kind'⟩ h
  have hlist := congrArg String.toList h
  rw [slotLayerId_toList, slotLayerId_toList] at hlist
  have hdash (n : ℕ) : '-' ∉ (toString n).toList := fun hmem => absurd (isDigit_of_mem_toString hmem) (by decide)
  obtain ⟨hidx, hkind⟩ := append_cons_inj (hdash idx) (hdash idx') (append_cancel_left hlist)
  have hidx : idx = idx' := by
    have hread := congrArg (parseUnsigned (idx + idx' + 1)) (String.toList_injective hidx)
    rwa [parseUnsigned_toString (by omega), parseUnsigned_toString (by omega), Option.some_inj] at hread
  have hkind : kind = kind' := LayerKind.name_injective (String.toList_injective hkind)
  rw [hidx, hkind]

/-! ## The band -/

def bandFrom (start count : ℕ) : List String := ((List.range' start count).flatMap slotLayers).map slotLayerId

def band (allocated : ℕ) : List String := (allSlotLayers allocated).map slotLayerId

theorem band_eq (allocated : ℕ) : band allocated = bandFrom 0 allocated := by
  unfold band bandFrom allSlotLayers
  rw [range_eq_range']

theorem bandFrom_add (start k count : ℕ) :
    bandFrom start (k + count) = bandFrom start k ++ bandFrom (start + k) count := by
  unfold bandFrom
  rw [← map_append, ← flatMap_append]
  have hrange : range' start k ++ range' (start + 1 * k) count = range' start (k + count) :=
    range'_append
  rw [one_mul] at hrange
  rw [hrange]

theorem band_add (allocated count : ℕ) : band (allocated + count) = band allocated ++ bandFrom allocated count := by
  rw [band_eq, band_eq, bandFrom_add, zero_add]

theorem mem_bandFrom :
    id ∈ bandFrom start count ↔ ∃ layer, start ≤ layer.1 ∧ layer.1 < start + count ∧ id = slotLayerId layer := by
  unfold bandFrom
  rw [mem_map]
  constructor
  · rintro ⟨layer, hlayer, rfl⟩
    obtain ⟨idx, hidx, hmem⟩ := mem_flatMap.mp hlayer
    have hsame : layer.1 = idx := by
      unfold slotLayers at hmem
      simp only [mem_cons, not_mem_nil, or_false] at hmem
      obtain rfl | rfl | rfl | rfl := hmem <;> rfl
    obtain ⟨hle, hlt⟩ := mem_range'_1.mp hidx
    exact ⟨layer, by omega, by omega, rfl⟩
  · rintro ⟨⟨idx, kind⟩, hle, hlt, rfl⟩
    refine ⟨(idx, kind), mem_flatMap.mpr ⟨idx, mem_range'_1.mpr ⟨hle, hlt⟩, ?_⟩, rfl⟩
    unfold slotLayers
    cases kind <;> simp

theorem mem_band : id ∈ band allocated ↔ ∃ layer, layer.1 < allocated ∧ id = slotLayerId layer := by
  rw [band_eq, mem_bandFrom]
  simp

theorem isSlotLayer_of_mem_bandFrom (h : id ∈ bandFrom start count) : isSlotLayer id = true := by
  obtain ⟨layer, -, -, rfl⟩ := mem_bandFrom.mp h
  exact isSlotLayer_slotLayerId layer

theorem isAddlayer_of_mem_bandFrom (h : id ∈ bandFrom start count) : isAddlayer id = false := by
  obtain ⟨layer, -, -, rfl⟩ := mem_bandFrom.mp h
  exact isAddlayer_slotLayerId layer

theorem isSlotLayer_of_mem_band (h : id ∈ band allocated) : isSlotLayer id = true := by
  rw [band_eq] at h
  exact isSlotLayer_of_mem_bandFrom h

theorem allSlotLayers_nodup (allocated : ℕ) : (allSlotLayers allocated).Nodup := by
  refine nodup_flatMap.mpr ⟨fun idx _ => ?_, ?_⟩
  · unfold slotLayers
    simp
  · refine List.Nodup.pairwise_of_forall_ne nodup_range ?_
    intro idx _ idx' _ hne layer hlayer hlayer'
    unfold slotLayers at hlayer hlayer'
    simp only [mem_cons, not_mem_nil, or_false] at hlayer hlayer'
    apply hne
    obtain rfl | rfl | rfl | rfl := hlayer <;> simpa using hlayer'

/-! ## Calls on the layers -/

structure SameLayers (style style' : NativeStyle GeoJson) : Prop where
  layers : style'.layers = style.layers
  stuck : style'.stuck = style.stuck

namespace SameLayers

variable (style : NativeStyle GeoJson)

theorem refl : SameLayers style style := ⟨rfl, rfl⟩

theorem trans {style₁ style₂ style₃ : NativeStyle GeoJson} (h : SameLayers style₁ style₂)
    (h' : SameLayers style₂ style₃) : SameLayers style₁ style₃ :=
  ⟨h'.layers.trans h.layers, h'.stuck.trans h.stuck⟩

theorem frame : SourceFrame (@SameLayers GeoJson) where
  refl := refl
  trans := trans
  faults := fun _ _ => ⟨rfl, rfl⟩
  sources := fun _ _ => ⟨rfl, rfl⟩

theorem setSourceGeojson (fc : GeoJson) : SameLayers style (style.setSourceGeojson fc).2 := by
  have hcall := frame.call style
  unfold NativeStyle.setSourceGeojson
  generalize style.call = called at hcall ⊢
  obtain ⟨res, style₁⟩ := called
  cases res with
  | error err => exact hcall
  | ok =>
    dsimp only
    split
    · exact hcall
    · exact hcall.trans ⟨rfl, rfl⟩

theorem addImage (id : String) : SameLayers style (style.addImage id).2 := by
  unfold NativeStyle.addImage
  split <;> exact ⟨rfl, rfl⟩

theorem removeImages (ids : List String) : SameLayers style (ids.foldl NativeStyle.removeImage style) := by
  induction ids generalizing style with
  | nil => exact refl style
  | cons id ids ih =>
    have hfirst : SameLayers style (style.removeImage id) := ⟨rfl, rfl⟩
    exact hfirst.trans (ih (style.removeImage id))

theorem registerPins (libs : OverlayLibraries F Feature GeoJson) (style : NativeStyle GeoJson)
    (seen registered : List String) (pins : List (PinOverlay F)) :
    SameLayers style (registerPins libs style seen registered pins).2 := by
  induction pins generalizing style seen registered with
  | nil => exact refl style
  | cons pin pins ih =>
    unfold Biei.registerPins
    split_ifs
    · exact ih style seen registered
    · split
      · exact refl style
      · have hadd := addImage style (pinImageId pin)
        generalize style.addImage (pinImageId pin) = added at hadd ⊢
        obtain ⟨res, style₁⟩ := added
        cases res with
        | error err => exact hadd.trans (removeImages style₁ registered)
        | ok => exact hadd.trans (ih style₁ _ _)

end SameLayers

variable (style : NativeStyle GeoJson) (before : Option String)

theorem addLayer_layers (id : String) :
    ((∃ err, (style.addLayer before id).1 = .error err) ∧ SameLayers style (style.addLayer before id).2) ∨
      ((style.addLayer before id).1 = .ok () ∧ id ∉ style.layers ∧
        (style.addLayer before id).2.layers = insertBefore before id style.layers ∧
        (style.addLayer before id).2.stuck = style.stuck) := by
  have hcall := SameLayers.frame.call style
  unfold NativeStyle.addLayer
  generalize style.call = called at hcall ⊢
  obtain ⟨res, style₁⟩ := called
  cases res with
  | error err => exact .inl ⟨⟨err, rfl⟩, hcall⟩
  | ok =>
    dsimp only at hcall ⊢
    split_ifs with hmem
    · exact .inl ⟨⟨_, rfl⟩, hcall⟩
    · rw [hcall.layers] at hmem
      exact .inr ⟨rfl, hmem, congrArg (insertBefore before id) hcall.layers, hcall.stuck⟩

theorem SameLayers.keptByFailure (id : String) :
    KeptByFailure (@SameLayers GeoJson) before id := by
  intro style style' err hadd
  obtain ⟨-, hsame⟩ | ⟨hok, -⟩ := addLayer_layers style before id
  · rw [hadd] at hsame
    exact hsame
  · rw [hadd] at hok
    cases hok

theorem removeLayer_layers {style : NativeStyle GeoJson} (hstuck : style.stuck = []) (id : String) :
    style.removeLayer id = (decide (id ∈ style.layers), { style with layers := style.layers.filter (· ≠ id) }) := by
  unfold NativeStyle.removeLayer
  rw [hstuck]
  simp

/-! ## Growing the pool -/

theorem installLayers_layers (layers : List (ℕ × LayerKind)) :
    ∃ installed, installed <+: layers ∧
      (installLayers style before layers).2.layers =
        insertAllBefore before (installed.map slotLayerId) style.layers ∧
      (installLayers style before layers).2.stuck = style.stuck ∧
      ((installLayers style before layers).1 = .ok () → installed = layers) := by
  induction layers generalizing style with
  | nil => exact ⟨[], prefix_rfl, rfl, rfl, fun _ => rfl⟩
  | cons layer layers ih =>
    have hcall := SameLayers.frame.call style
    unfold installLayers
    generalize style.call = called at hcall ⊢
    obtain ⟨res, style₁⟩ := called
    cases res with
    | error err => exact ⟨[], nil_prefix, hcall.layers, hcall.stuck, nofun⟩
    | ok =>
      dsimp only at hcall ⊢
      have hadd := addLayer_layers style₁ before (slotLayerId layer)
      generalize style₁.addLayer before (slotLayerId layer) = added at hadd ⊢
      obtain ⟨res, style₂⟩ := added
      obtain ⟨⟨err, rfl⟩, hsame⟩ | ⟨rfl, -, hlayers, hstuck⟩ := hadd
      · have hsame := hcall.trans hsame
        exact ⟨[], nil_prefix, hsame.layers, hsame.stuck, nofun⟩
      · obtain ⟨installed, hle, hrest, hstill, hok⟩ := ih style₂
        refine ⟨layer :: installed, (prefix_cons_inj layer).mpr hle, ?_, ?_, fun h => ?_⟩
        · rw [hrest, hlayers, hcall.layers]
          rfl
        · rw [hstill, hstuck, hcall.stuck]
        · rw [hok h]

theorem rollbackSlotLayers_layers {style : NativeStyle GeoJson} (hstuck : style.stuck = []) (idx : ℕ) :
    (rollbackSlotLayers style idx).layers =
        style.layers.filter (fun id => id ∉ (slotLayers idx).map slotLayerId) ∧
      (rollbackSlotLayers style idx).stuck = [] := by
  unfold rollbackSlotLayers
  generalize slotLayers idx = layers
  induction layers generalizing style with
  | nil => exact ⟨by simp, hstuck⟩
  | cons layer layers ih =>
    rw [foldl_cons, removeLayer_layers hstuck]
    obtain ⟨hlayers, hstill⟩ := @ih { style with layers := style.layers.filter (· ≠ slotLayerId layer) } hstuck
    refine ⟨?_, hstill⟩
    rw [hlayers, filter_filter]
    refine filter_congr (fun id _ => ?_)
    rw [map_cons, Bool.eq_iff_iff]
    simp only [Bool.and_eq_true, decide_eq_true_iff, mem_cons, not_or]
    exact and_comm

namespace OverlaySlotPool

def Vacant (layers : List String) (allocated : ℕ) : Prop :=
  ∀ layer : ℕ × LayerKind, allocated ≤ layer.1 → slotLayerId layer ∉ layers

theorem Vacant.grow {layers : List String} (h : Vacant layers allocated) (before : Option String) :
    Vacant (insertAllBefore before ((slotLayers allocated).map slotLayerId) layers) (allocated + 1) := by
  intro layer hle hmem
  obtain hslot | hold := mem_append.mp ((perm_insertAllBefore _ _ _).mem_iff.mp hmem)
  · obtain ⟨layer', hlayer', heq⟩ := mem_map.mp hslot
    have hsame := slotLayerId_injective heq
    subst hsame
    unfold slotLayers at hlayer'
    simp only [mem_cons, not_mem_nil, or_false] at hlayer'
    obtain rfl | rfl | rfl | rfl := hlayer' <;> dsimp only at hle <;> omega
  · exact h layer (by omega) hold

variable {slots : OverlaySlotPool GeoJson} {style : NativeStyle GeoJson}

theorem grow_layers (hstuck : style.stuck = []) (hvacant : Vacant style.layers slots.allocated) (missing : ℕ) :
    let after := slots.grow style missing
    ∃ grown, after.2.1 = { slots with allocated := slots.allocated + grown } ∧
      after.2.2.layers = insertAllBefore slots.currentBefore (bandFrom slots.allocated grown) style.layers ∧
      after.2.2.stuck = [] ∧ (after.1 = .ok () → grown = missing) := by
  induction missing generalizing slots style with
  | zero => exact ⟨0, rfl, rfl, hstuck, fun _ => rfl⟩
  | succ missing ih =>
    obtain ⟨installed, hle, hlayers, hstill, hok⟩ :=
      installLayers_layers style slots.currentBefore (slotLayers slots.allocated)
    unfold grow installSlotLayers
    generalize installLayers style slots.currentBefore (slotLayers slots.allocated) = outcome at hlayers hstill hok ⊢
    obtain ⟨res, style₁⟩ := outcome
    cases res with
    | ok =>
      rw [hok rfl] at hlayers
      have hvacant₁ : Vacant style₁.layers (slots.allocated + 1) := by
        rw [hlayers]
        exact hvacant.grow slots.currentBefore
      obtain ⟨grown, hslots, hrest, hend, hall⟩ :=
        @ih { slots with allocated := slots.allocated + 1 } style₁ (hstill.trans hstuck) hvacant₁
      refine ⟨1 + grown, ?_, ?_, hend, fun h => ?_⟩
      · rw [hslots, add_assoc]
      · have hfirst : bandFrom slots.allocated 1 = (slotLayers slots.allocated).map slotLayerId := rfl
        rw [hrest, hlayers, bandFrom_add, insertAllBefore_append, hfirst]
      · rw [hall h, add_comm]
    | error err =>
      obtain ⟨hrolled, hnone⟩ := rollbackSlotLayers_layers (hstill.trans hstuck) slots.allocated
      refine ⟨0, rfl, ?_, hnone, nofun⟩
      -- what was installed is taken out again, and none of it was there before
      rw [hrolled, hlayers, filter_insertAllBefore_of_neg, filter_eq_self.mpr]
      · rfl
      · intro id hid
        refine decide_eq_true (fun hmem => ?_)
        obtain ⟨layer, hlayer, rfl⟩ := mem_map.mp hmem
        have hidx : layer.1 = slots.allocated := by
          unfold slotLayers at hlayer
          simp only [mem_cons, not_mem_nil, or_false] at hlayer
          obtain rfl | rfl | rfl | rfl := hlayer <;> rfl
        exact hvacant layer (le_of_eq hidx.symm) hid
      · intro id hid
        refine decide_eq_false (not_not.mpr ?_)
        obtain ⟨layer, hlayer, rfl⟩ := mem_map.mp hid
        exact mem_map.mpr ⟨layer, hle.subset hlayer, rfl⟩

theorem ensureCapacity_layers (hstuck : style.stuck = []) (hvacant : Vacant style.layers slots.allocated) (needed : ℕ) :
    let after := slots.ensureCapacity style needed
    ∃ grown, after.2.1 = { slots with allocated := slots.allocated + grown } ∧
      after.2.2.layers = insertAllBefore slots.currentBefore (bandFrom slots.allocated grown) style.layers ∧
      after.2.2.stuck = [] ∧ (after.1 = .ok () → min needed slots.maxSize ≤ slots.allocated + grown) := by
  unfold ensureCapacity
  dsimp only
  split_ifs with htgt
  · exact ⟨0, rfl, rfl, hstuck, fun _ => htgt⟩
  · obtain ⟨grown, hslots, hlayers, hstill, hok⟩ :=
      grow_layers hstuck hvacant (min needed slots.maxSize - slots.allocated)
    refine ⟨grown, hslots, hlayers, hstill, fun h => ?_⟩
    have hgrown := hok h
    omega

end OverlaySlotPool

/-! ## Moving the band -/

/-- Apart from the slot layers the style has the layers of `base`; the slot layers are those of the allocated slots. -/
structure Managed (base layers : List String) (allocated : ℕ) : Prop where
  others : layers.filter (fun id => !isSlotLayer id) = base
  slots : (layers.filter isSlotLayer).Perm (band allocated)

namespace Managed

variable {layers : List String}

section

variable (h : Managed base layers allocated)
include h

theorem mem_band_iff (hid : id ∈ layers) : id ∈ band allocated ↔ isSlotLayer id = true := by
  rw [← h.slots.mem_iff, mem_filter]
  exact ⟨fun hmem => hmem.2, fun hslot => ⟨hid, hslot⟩⟩

theorem vacant : OverlaySlotPool.Vacant layers allocated := by
  intro layer hle hmem
  obtain ⟨layer', hlt, heq⟩ := mem_band.mp ((h.mem_band_iff hmem).mpr (isSlotLayer_slotLayerId layer))
  have hsame := slotLayerId_injective heq
  subst hsame
  omega

theorem without_band : layers.filter (fun id => id ∉ band allocated) = base := by
  rw [← h.others]
  refine filter_congr (fun id hid => ?_)
  rw [Bool.eq_iff_iff, decide_eq_true_iff, h.mem_band_iff hid, Bool.not_eq_true', Bool.not_eq_true]

theorem grow (before : Option String) (count : ℕ) :
    Managed base (insertAllBefore before (bandFrom allocated count) layers) (allocated + count) where
  others := by
    rw [filter_insertAllBefore_of_neg, h.others]
    intro id hid
    rw [isSlotLayer_of_mem_bandFrom hid]
    rfl
  slots := by
    have hnew : (bandFrom allocated count).filter isSlotLayer = bandFrom allocated count :=
      filter_eq_self.mpr (fun id hid => isSlotLayer_of_mem_bandFrom hid)
    have hperm := (perm_insertAllBefore before (bandFrom allocated count) layers).filter isSlotLayer
    rw [filter_append, hnew] at hperm
    rw [band_add]
    exact hperm.trans ((h.slots.append_left _).trans perm_append_comm)

end

theorem of_perm {layers' : List String} (hperm : layers'.Perm (band allocated ++ base))
    (hothers : layers'.filter (fun id => !isSlotLayer id) = base) : Managed base layers' allocated where
  others := hothers
  slots := by
    have hband : (band allocated).filter isSlotLayer = band allocated :=
      filter_eq_self.mpr (fun id hid => isSlotLayer_of_mem_band hid)
    have hbase : base.filter isSlotLayer = [] := by
      rw [← hothers, filter_filter, filter_eq_nil_iff]
      intro id _
      simp
    have hslots := hperm.filter isSlotLayer
    rwa [filter_append, hband, hbase, append_nil] at hslots

end Managed

theorem detach_layers {layers : List (ℕ × LayerKind)} (hnodup : layers.Nodup) {style : NativeStyle GeoJson}
    (hstuck : style.stuck = []) (hthere : ∀ layer ∈ layers, slotLayerId layer ∈ style.layers) :
    (detach style layers).1 = layers ∧
      (detach style layers).2.layers = style.layers.filter (fun id => id ∉ layers.map slotLayerId) ∧
      (detach style layers).2.stuck = [] := by
  induction layers generalizing style with
  | nil => exact ⟨rfl, by simp [detach], hstuck⟩
  | cons layer layers ih =>
    obtain ⟨hnot, hrest⟩ := nodup_cons.mp hnodup
    unfold detach
    rw [removeLayer_layers hstuck, decide_eq_true (hthere layer mem_cons_self)]
    have hstill : ∀ other ∈ layers, slotLayerId other ∈ style.layers.filter (· ≠ slotLayerId layer) := by
      intro other hother
      refine mem_filter.mpr ⟨hthere other (mem_cons_of_mem _ hother), decide_eq_true (fun heq => ?_)⟩
      have hsame := slotLayerId_injective heq
      subst hsame
      exact hnot hother
    obtain ⟨htaken, hlayers, hend⟩ :=
      @ih hrest { style with layers := style.layers.filter (· ≠ slotLayerId layer) } hstuck hstill
    dsimp only
    refine ⟨by rw [htaken], ?_, hend⟩
    rw [hlayers, filter_filter]
    refine filter_congr (fun id _ => ?_)
    rw [map_cons, Bool.eq_iff_iff]
    simp only [Bool.and_eq_true, decide_eq_true_iff, mem_cons, not_or]
    exact and_comm

theorem restoreAll_layers (layers : List (ℕ × LayerKind)) : (restoreAll style layers).2.stuck = style.stuck ∧
      ((restoreAll style layers).1 = true →
        (restoreAll style layers).2.layers = insertAllBefore none (layers.map slotLayerId) style.layers) := by
  induction layers generalizing style with
  | nil => exact ⟨rfl, fun _ => rfl⟩
  | cons layer layers ih =>
    have hadd := addLayer_layers style none (slotLayerId layer)
    unfold restoreAll
    generalize style.addLayer none (slotLayerId layer) = added at hadd ⊢
    obtain ⟨res, style₁⟩ := added
    obtain ⟨hstuck, hlayers⟩ := ih style₁
    obtain ⟨⟨err, rfl⟩, hsame⟩ | ⟨rfl, -, hins, hstill⟩ := hadd
    · exact ⟨hstuck.trans hsame.stuck, nofun⟩
    · refine ⟨hstuck.trans hstill, fun h => ?_⟩
      rw [hlayers h, hins]
      rfl

theorem recoverFailedMoveAll_layers (consumed : ℕ × LayerKind) (left : List (ℕ × LayerKind)) :
    (recoverFailedMoveAll style consumed left).2.stuck = style.stuck ∧
      ((recoverFailedMoveAll style consumed left).1 = true →
        (recoverFailedMoveAll style consumed left).2.layers =
          insertAllBefore none ((consumed :: left).map slotLayerId) style.layers) := by
  have hcall := SameLayers.frame.call style
  unfold recoverFailedMoveAll
  generalize style.call = called at hcall ⊢
  obtain ⟨res, style₁⟩ := called
  cases res with
  | error err => exact ⟨(restoreAll_layers style₁ left).1.trans hcall.stuck, nofun⟩
  | ok =>
    obtain ⟨hstuck, hlayers⟩ := restoreAll_layers style₁ (consumed :: left)
    refine ⟨hstuck.trans hcall.stuck, fun h => ?_⟩
    rw [← hcall.layers]
    exact hlayers h

/-- The layers go in one by one; after a failure that is recovered they are all back, in two pieces. -/
theorem reinsert_layers (layers : List (ℕ × LayerKind)) :
    let after := reinsert style before layers
    after.2.stuck = style.stuck ∧
      (after.1 = none → after.2.layers = insertAllBefore before (layers.map slotLayerId) style.layers) ∧
      ∀ err, after.1 = some (err, true) → ∃ inserted left, inserted ++ left = layers.map slotLayerId ∧
        after.2.layers = insertAllBefore none left (insertAllBefore before inserted style.layers) := by
  induction layers generalizing style with
  | nil => exact ⟨rfl, fun _ => rfl, nofun⟩
  | cons layer layers ih =>
    have hadd := addLayer_layers style before (slotLayerId layer)
    unfold reinsert
    generalize style.addLayer before (slotLayerId layer) = added at hadd ⊢
    obtain ⟨res, style₁⟩ := added
    obtain ⟨⟨err, rfl⟩, hsame⟩ | ⟨rfl, -, hins, hstill⟩ := hadd
    · obtain ⟨hstuck, hlayers⟩ := recoverFailedMoveAll_layers style₁ layer layers
      refine ⟨hstuck.trans hsame.stuck, fun hnone => ?_, fun failure h => ?_⟩
      · cases hnone
      have hrestored : (recoverFailedMoveAll style₁ layer layers).1 = true := congrArg Prod.snd (Option.some.inj h)
      refine ⟨[], (layer :: layers).map slotLayerId, rfl, ?_⟩
      rw [hlayers hrestored, hsame.layers]
      rfl
    · obtain ⟨hstuck, hmoved, hrecov⟩ := ih style₁
      refine ⟨hstuck.trans hstill, fun h => ?_, fun failure h => ?_⟩
      · rw [hmoved h, hins]
        rfl
      · obtain ⟨inserted, left, hsplit, hlayers⟩ := hrecov failure h
        refine ⟨slotLayerId layer :: inserted, left, ?_, ?_⟩
        · rw [cons_append, hsplit]
          rfl
        · rw [hlayers, hins]
          rfl

/-- A recovered move changes neither the other layers nor the set of slot layers. -/
theorem Managed.recovered {inserted left : List String} {before : Option String}
    (hbase : ∀ id ∈ base, isSlotLayer id = false) (hsplit : inserted ++ left = band allocated) :
    Managed base (insertAllBefore none left (insertAllBefore before inserted base)) allocated := by
  have hslot : ∀ id ∈ inserted ++ left, (!isSlotLayer id) = false := by
    intro id hid
    rw [hsplit] at hid
    rw [isSlotLayer_of_mem_band hid]
    rfl
  apply Managed.of_perm
  · rw [← hsplit]
    have hfirst := perm_insertAllBefore before inserted base
    have hsnd := perm_insertAllBefore none left (insertAllBefore before inserted base)
    refine hsnd.trans ((hfirst.append_left left).trans ?_)
    rw [← append_assoc]
    exact perm_append_comm.append_right base
  · rw [filter_insertAllBefore_of_neg (fun id hid => hslot id (mem_append_right inserted hid)),
      filter_insertAllBefore_of_neg (fun id hid => hslot id (mem_append_left left hid)),
      filter_eq_self.mpr]
    intro id hid
    rw [hbase id hid]
    rfl

/-- The band ends up before the layer, or the move fails and the pool is to be moved again or built again. -/
theorem moveAllLayers_layers {style : NativeStyle GeoJson} {slots : OverlaySlotPool GeoJson}
    (hman : Managed base style.layers slots.allocated) (hstuck : style.stuck = []) (before : Option String) :
    let moved := moveAllLayers style slots before
    moved.2.2.stuck = [] ∧
      ((moved.1 = .ok () ∧ moved.2.1 = { slots with currentBefore := before, needsReset := false } ∧
          moved.2.2.layers = insertAllBefore before (band slots.allocated) base) ∨
        ∃ err rebuild, moved.1 = .error err ∧
          moved.2.1 = { slots with currentBefore := none, needsReset := true, needsRebuild := rebuild } ∧
          (rebuild = false → Managed base moved.2.2.layers slots.allocated)) := by
  have hthere : ∀ layer ∈ allSlotLayers slots.allocated, slotLayerId layer ∈ style.layers := by
    intro layer hlayer
    have hmem : slotLayerId layer ∈ band slots.allocated := mem_map.mpr ⟨layer, hlayer, rfl⟩
    exact (mem_filter.mp (hman.slots.mem_iff.mpr hmem)).1
  have hbase : ∀ id ∈ base, isSlotLayer id = false := by
    intro id hid
    rw [← hman.others] at hid
    exact (Bool.not_eq_true' _).mp (mem_filter.mp hid).2
  obtain ⟨htaken, hlayers, hend⟩ := detach_layers (allSlotLayers_nodup slots.allocated) hstuck hthere
  unfold moveAllLayers
  generalize detach style (allSlotLayers slots.allocated) = detached at htaken hlayers hend ⊢
  obtain ⟨taken, style₁⟩ := detached
  dsimp only at htaken hlayers hend ⊢
  subst htaken
  have hstrip : style₁.layers = base := hlayers.trans hman.without_band
  obtain ⟨hstill, hmoved, hrecov⟩ := reinsert_layers style₁ before (allSlotLayers slots.allocated)
  rw [hstrip] at hmoved hrecov
  generalize reinsert style₁ before (allSlotLayers slots.allocated) = reinserted at hstill hmoved hrecov ⊢
  obtain ⟨failure, style₂⟩ := reinserted
  cases failure with
  | none => exact ⟨hstill.trans hend, .inl ⟨rfl, rfl, hmoved rfl⟩⟩
  | some failure =>
    obtain ⟨err, restored⟩ := failure
    refine ⟨hstill.trans hend, .inr ⟨err, slots.needsRebuild || !restored, rfl, rfl, fun hrebuild => ?_⟩⟩
    have hrestored : restored = true := (Bool.not_eq_false' _).mp (Bool.or_eq_false_iff.mp hrebuild).2
    subst hrestored
    obtain ⟨inserted, left, hsplit, hback⟩ := hrecov err rfl
    rw [hback]
    exact Managed.recovered hbase hsplit

end Mappf.Biei
