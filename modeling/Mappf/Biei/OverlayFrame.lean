import Mappf.Biei.Overlay

/-! # What installing a source leaves alone

The cache of the added sources only touches the sources of the style, and uses up what its calls come to. Any
relation between styles that survives both survives an installation. -/
namespace Mappf.Biei

variable {F Feature GeoJson : Type}

structure SourceFrame (R : NativeStyle GeoJson → NativeStyle GeoJson → Prop) : Prop where
  refl : ∀ style, R style style
  trans : ∀ {style₁ style₂ style₃}, R style₁ style₂ → R style₂ style₃ → R style₁ style₃
  faults : ∀ style faults, R style { style with faults := faults }
  sources : ∀ style sources, R style { style with sources := sources }

namespace SourceFrame

variable {R : NativeStyle GeoJson → NativeStyle GeoJson → Prop} (frame : SourceFrame R)
include frame

variable (style : NativeStyle GeoJson)

theorem call : R style style.call.2 := by
  unfold NativeStyle.call
  split
  · exact frame.refl style
  · exact frame.faults style _
  · exact frame.faults style _

theorem addSource (id json : String) : R style (style.addSource id json).2 := by
  have hcall := frame.call style
  unfold NativeStyle.addSource
  generalize style.call = called at hcall ⊢
  obtain ⟨res, style₁⟩ := called
  cases res with
  | error err => exact hcall
  | ok =>
    dsimp only
    split_ifs
    · exact hcall
    · exact frame.trans hcall (frame.sources style₁ _)

theorem makeRoom (cache : AddLayerSourceCache) (lru : List String) :
    R style (AddLayerSourceCache.makeRoom style cache lru).2 := by
  induction lru generalizing style cache with
  | nil => exact frame.refl style
  | cons evicted lru ih =>
    unfold AddLayerSourceCache.makeRoom
    split_ifs
    · exact frame.trans (frame.sources style _) (ih _ _)
    · exact frame.refl style

theorem ensure (libs : OverlayLibraries F Feature GeoJson) (cache : AddLayerSourceCache)
    (style : NativeStyle GeoJson) (source : AddLayerSource) : R style (cache.ensure libs style source).2.2 := by
  unfold AddLayerSourceCache.ensure
  split
  · exact frame.refl style
  · have hroom := frame.makeRoom style cache cache.lru
    generalize AddLayerSourceCache.makeRoom style cache cache.lru = roomy at hroom ⊢
    obtain ⟨cache₁, style₁⟩ := roomy
    dsimp only at hroom ⊢
    split
    · exact hroom
    · next id _ =>
      have hcall := frame.call style₁
      generalize style₁.call = called at hcall ⊢
      obtain ⟨res, style₂⟩ := called
      cases res with
      | error err => exact frame.trans hroom hcall
      | ok =>
        dsimp only at hcall ⊢
        have hadd := frame.addSource style₂ id source.json
        generalize style₂.addSource id source.json = added at hadd ⊢
        obtain ⟨res, style₃⟩ := added
        cases res with
        | error err | ok => exact frame.trans (frame.trans hroom hcall) hadd

theorem dropNewSource (cache : AddLayerSourceCache) (style : NativeStyle GeoJson) (added : Option (String × Bool)) :
    R style (dropNewSource cache style added).2 := by
  unfold Biei.dropNewSource
  split
  · unfold AddLayerSourceCache.removeIfPresent
    split_ifs
    · exact frame.sources style _
    · exact frame.refl style
  · exact frame.refl style
  · exact frame.refl style

end SourceFrame

/-! ## The added layer -/

/-- An installation fails and keeps the relation, or its last call adds the layer. -/
def Installed (R : NativeStyle GeoJson → NativeStyle GeoJson → Prop) (beforeLayer : Option String) (taskId : UInt64)
    (style : NativeStyle GeoJson) (outcome : Except String String × AddLayerSourceCache × NativeStyle GeoJson) : Prop :=
  ((∃ err, outcome.1 = .error err) ∧ R style outcome.2.2) ∨
    ∃ style₁, R style style₁ ∧ outcome.1 = .ok (addlayerId taskId) ∧
      style₁.addLayer beforeLayer (addlayerId taskId) = (.ok (), outcome.2.2)

def KeptByFailure (R : NativeStyle GeoJson → NativeStyle GeoJson → Prop) (beforeLayer : Option String) (id : String) :
    Prop :=
  ∀ style style' err, NativeStyle.addLayer style beforeLayer id = (.error err, style') → R style style'

namespace SourceFrame

variable {R : NativeStyle GeoJson → NativeStyle GeoJson → Prop} (frame : SourceFrame R)
include frame

theorem placeAddlayer (libs : OverlayLibraries F Feature GeoJson) {style₀ style : NativeStyle GeoJson}
    (cache : AddLayerSourceCache) (addlayer : AddLayer) (beforeLayer : Option String) (taskId : UInt64)
    (added : Option (String × Bool)) (hkept : KeptByFailure R beforeLayer (addlayerId taskId)) (h : R style₀ style) :
    Installed R beforeLayer taskId style₀ (placeAddlayer libs style cache addlayer beforeLayer taskId added) := by
  unfold Biei.placeAddlayer
  split
  · exact .inl ⟨⟨_, rfl⟩, frame.trans h (frame.dropNewSource cache style added)⟩
  · have hcall := frame.call style
    generalize style.call = called at hcall ⊢
    obtain ⟨res, style₁⟩ := called
    have h₁ : R style₀ style₁ := frame.trans h hcall
    cases res with
    | error err => exact .inl ⟨⟨err, rfl⟩, frame.trans h₁ (frame.dropNewSource cache style₁ added)⟩
    | ok =>
      dsimp only
      cases hlayer : style₁.addLayer beforeLayer (addlayerId taskId) with
      | mk res style₂ =>
        cases res with
        | error err =>
          have h₂ := frame.trans h₁ (hkept style₁ style₂ err hlayer)
          exact .inl ⟨⟨err, rfl⟩, frame.trans h₂ (frame.dropNewSource cache style₂ added)⟩
        | ok => exact .inr ⟨style₁, h₁, rfl, hlayer⟩

theorem installAddlayer (libs : OverlayLibraries F Feature GeoJson) (style : NativeStyle GeoJson)
    (cache : AddLayerSourceCache) (addlayer : AddLayer) (beforeLayer : Option String) (taskId : UInt64)
    (hkept : KeptByFailure R beforeLayer (addlayerId taskId)) : Installed R beforeLayer taskId style
      (installAddlayer libs style cache addlayer beforeLayer taskId) := by
  unfold Biei.installAddlayer
  split
  · exact frame.placeAddlayer libs cache addlayer beforeLayer taskId none hkept (frame.refl style)
  · next source _ =>
    have hensure := frame.ensure libs cache style source
    generalize cache.ensure libs style source = ensured at hensure ⊢
    obtain ⟨res, cache₁, style₁⟩ := ensured
    cases res with
    | error err => exact .inl ⟨⟨err, rfl⟩, hensure⟩
    | ok added => exact frame.placeAddlayer libs cache₁ addlayer beforeLayer taskId (some added) hkept hensure

end SourceFrame

end Mappf.Biei
