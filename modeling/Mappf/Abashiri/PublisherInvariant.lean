import Mappf.Abashiri.PublisherSpec

/-! # Links between the style store and the journal

`StoresInv` links the style store, the log of its writes and the journal. Whatever an operation may do to the
stores is `Allowed`, and what is allowed keeps the links. -/
namespace Mappf.Abashiri

variable {sha256 : Bytes → Bytes} {libs : StyleLibraries} {init : HashMap String StyleObject}

/-- The references that style objects named before the first publication. -/
def initialReferences (initial : HashMap String StyleObject) : List String :=
  initial.entries.filterMap (fun entry => entry.2.mutation)

def Drawn (initial : HashMap String StyleObject) (stores : Stores sha256) (intent : MutationIntent) : Prop :=
  intent.stateReference ∈ stores.references ∧ intent.stateReference ∉ initialReferences initial ∧
    intent.stateLocator.isSome = true

structure StoresInv (initial : HashMap String StyleObject) (stores : Stores sha256) : Prop where
  place : ∀ path intent, stores.intents.lookup path = some intent → path = intent.paths.intent
  drawn : ∀ path intent, stores.intents.lookup path = some intent → Drawn initial stores intent
  unique : ∀ path path' intent intent', stores.intents.lookup path = some intent →
    stores.intents.lookup path' = some intent' → intent.stateReference = intent'.stateReference → intent = intent'
  bound : ∀ write ∈ stores.writes, ∃ intent, Bound stores write.request intent ∧ write.reference = intent.stateReference
  expected : ∀ write ∈ stores.writes, write.replaced = write.request.precondition.expected
  chained : CasLog.Chained Write.path Write.version (Stores.initialVersion initial) Write.replaced stores.writes
  state : ∀ path, (stores.state.lookup path).map StyleObject.version =
    CasLog.latest Write.path Write.version (Stores.initialVersion initial) stores.writes path
  objects : ∀ path object, stores.state.lookup path = some object → initial.lookup path = some object ∨
    ∃ write ∈ stores.writes, write.path = path ∧ object = .written write.reference write.request.body write.version
  completions : ∀ path completion, stores.completions.lookup path = some completion →
    ∃ intent committed, path = intent.paths.completion ∧ Committed stores intent committed ∧
      completion.completed = ⟨committed.version, committed.stateSha256⟩

inductive Allowed (initial : HashMap String StyleObject) (stores : Stores sha256) : Effect sha256 → Prop
  | quiet : Allowed initial stores .quiet
  | createIntent (intent : MutationIntent) (habsent : stores.intents.lookup intent.paths.intent = none)
      (hdrawn : Drawn initial stores intent)
      (hunused : ∀ path stored, stores.intents.lookup path = some stored → stored.stateReference ≠ intent.stateReference) :
      Allowed initial stores (.createIntent intent)
  | writeStyle (write : Write sha256) (intent : MutationIntent) (hbound : Bound stores write.request intent)
      (hreference : write.reference = intent.stateReference)
      (hreplaced : write.replaced = (stores.state.lookup write.path).map StyleObject.version)
      (hexpected : write.replaced = write.request.precondition.expected)
      (hfresh : write.version ∉
        CasLog.versions Write.path Write.version (Stores.initialVersion initial) stores.writes write.path) :
      Allowed initial stores (.writeStyle write)
  | createCompletion (intent : MutationIntent) (completion : MutationCompletion) (committed : StateCommit)
      (habsent : stores.completions.lookup intent.paths.completion = none) (hcommitted : Committed stores intent committed)
      (hcompletion : completion.completed = ⟨committed.version, committed.stateSha256⟩) :
      Allowed initial stores (.createCompletion intent completion)

variable {stores stores' : Stores sha256}

theorem lookup_insert_of_absent {α : Type} {objects : HashMap String α} {key path : String} {object object' : α}
    (habs : objects.lookup key = none) (h : objects.lookup path = some object) :
    (objects.insert key object').lookup path = some object := by
  rw [HashMap.lookup_insert_eq, if_neg]
  · exact h
  · rintro rfl
    simp [habs] at h

theorem Allowed.grows {effect : Effect sha256} (h : Allowed init stores effect) : Grows stores (stores.apply effect) := by
  cases h with
  | quiet => exact .refl stores
  | createIntent intent habs hdrawn hunused =>
    exact ⟨fun _ _ hlook => lookup_insert_of_absent habs hlook, fun _ _ h => h, fun _ h => h, fun _ h => h⟩
  | writeStyle write intent hbound href hrepl hexp hfresh =>
    exact ⟨fun _ _ h => h, fun _ _ h => h, fun _ h => h, fun _ h => List.mem_append_left _ h⟩
  | createCompletion intent compl comm habs hcomm hcompl =>
    exact ⟨fun _ _ h => h, fun _ _ hlook => lookup_insert_of_absent habs hlook, fun _ h => h, fun _ h => h⟩

namespace StoresInv

theorem new (init : HashMap String StyleObject) : StoresInv init (Stores.new init : Stores sha256) where
  place := fun _ _ h => by cases h
  drawn := fun _ _ h => by cases h
  unique := fun _ _ _ _ h => by cases h
  bound := fun _ h => by cases h
  expected := fun _ h => by cases h
  chained := .nil
  state := fun _ => rfl
  objects := fun _ _ h => .inl h
  completions := fun _ _ h => by cases h

theorem carried (h : StoresInv init stores) (hgrows : Grows stores stores') :
    (∀ path intent, stores.intents.lookup path = some intent → Drawn init stores' intent) ∧
      (∀ write ∈ stores.writes, ∃ intent, Bound stores' write.request intent ∧ write.reference = intent.stateReference) ∧
      ∀ path compl, stores.completions.lookup path = some compl →
        ∃ intent comm, path = intent.paths.completion ∧ Committed stores' intent comm ∧
          compl.completed = ⟨comm.version, comm.stateSha256⟩ := by
  refine ⟨?_, ?_, ?_⟩
  · intro path intent hlook
    obtain ⟨href, hrest⟩ := h.drawn path intent hlook
    exact ⟨hgrows.references _ href, hrest⟩
  · intro write hwrite
    obtain ⟨intent, hbound, href⟩ := h.bound write hwrite
    exact ⟨intent, hgrows.bound hbound, href⟩
  · intro path compl hlook
    obtain ⟨intent, comm, hpath, hcomm, hdone⟩ := h.completions path compl hlook
    exact ⟨intent, comm, hpath, hgrows.committed hcomm, hdone⟩

theorem of_reference (h : StoresInv init stores) (reference : String) :
    StoresInv init { stores with references := reference :: stores.references } := by
  obtain ⟨hdrawns, hbds, hcompls⟩ := h.carried (Grows.reference stores reference)
  exact ⟨h.place, hdrawns, h.unique, hbds, h.expected, h.chained, h.state, h.objects, hcompls⟩

variable {intent : MutationIntent}

section

variable (h : StoresInv init stores)
include h

theorem createIntent (hallow : Allowed init stores (.createIntent intent)) :
    StoresInv init (stores.apply (.createIntent intent)) := by
  obtain ⟨hdrawns, hbds, hcompls⟩ := h.carried hallow.grows
  cases hallow with
  | createIntent _ habs hdrawn hunused =>
    have hlook : ∀ path stored, (stores.apply (.createIntent intent)).intents.lookup path = some stored →
        (path = intent.paths.intent ∧ stored = intent) ∨ stores.intents.lookup path = some stored := by
      intro path stored hstored
      rw [Stores.apply, HashMap.lookup_insert_eq] at hstored
      split_ifs at hstored with hpath
      · exact .inl ⟨hpath, (Option.some.inj hstored).symm⟩
      · exact .inr hstored
    refine ⟨?_, ?_, ?_, hbds, h.expected, h.chained, h.state, h.objects, hcompls⟩
    · intro path stored hstored
      obtain ⟨hpath, rfl⟩ | hold := hlook path stored hstored
      · exact hpath
      · exact h.place path stored hold
    · intro path stored hstored
      obtain ⟨-, rfl⟩ | hold := hlook path stored hstored
      · exact hdrawn
      · exact hdrawns path stored hold
    · intro path path' stored stored' hstored hstored' href
      obtain ⟨-, rfl⟩ | hold := hlook path stored hstored
      · obtain ⟨-, rfl⟩ | hold' := hlook path' stored' hstored'
        · rfl
        · exact absurd href.symm (hunused path' stored' hold')
      · obtain ⟨-, rfl⟩ | hold' := hlook path' stored' hstored'
        · exact absurd href (hunused path stored hold)
        · exact h.unique path path' stored stored' hold hold' href

theorem writeStyle {write : Write sha256}
    (hallow : Allowed init stores (.writeStyle write)) : StoresInv init (stores.apply (.writeStyle write)) := by
  obtain ⟨hdrawns, hbds, hcompls⟩ := h.carried hallow.grows
  have hgrows := hallow.grows
  cases hallow with
  | writeStyle _ intent hbound href hrepl hexp hfresh =>
    have hmem : ∀ write', write' ∈ (stores.apply (.writeStyle write)).writes → write' ∈ stores.writes ∨ write' = write := by
      intro write' hwrite'
      rw [Stores.apply, List.mem_append, List.mem_singleton] at hwrite'
      exact hwrite'
    refine ⟨h.place, hdrawns, h.unique, ?_, ?_, ?_, ?_, ?_, hcompls⟩
    · intro write' hwrite'
      obtain hold | rfl := hmem write' hwrite'
      · exact hbds write' hold
      · exact ⟨intent, hgrows.bound hbound, href⟩
    · intro write' hwrite'
      obtain hold | rfl := hmem write' hwrite'
      · exact h.expected write' hold
      · exact hexp
    · exact h.chained.append (hrepl.trans (h.state write.path)) hfresh
    · intro path
      rw [Stores.apply, CasLog.latest_append, HashMap.lookup_insert_eq]
      by_cases hpath : write.path = path
      · rw [if_pos hpath, if_pos hpath.symm]
        rfl
      · rw [if_neg hpath, if_neg (fun heq => hpath heq.symm)]
        exact h.state path
    · intro path object hobj
      rw [Stores.apply, HashMap.lookup_insert_eq] at hobj
      split_ifs at hobj with hpath
      · exact .inr ⟨write, List.mem_append_right _ List.mem_cons_self, hpath.symm, (Option.some.inj hobj).symm⟩
      · obtain hinit | ⟨write', hwrite', hwrote⟩ := h.objects path object hobj
        · exact .inl hinit
        · exact .inr ⟨write', List.mem_append_left _ hwrite', hwrote⟩

theorem createCompletion {compl : MutationCompletion} (hallow : Allowed init stores (.createCompletion intent compl)) :
    StoresInv init (stores.apply (.createCompletion intent compl)) := by
  obtain ⟨hdrawns, hbds, hcompls⟩ := h.carried hallow.grows
  have hgrows := hallow.grows
  cases hallow with
  | createCompletion _ _ comm habs hcomm hcompl =>
    refine ⟨h.place, hdrawns, h.unique, hbds, h.expected, h.chained, h.state, h.objects, ?_⟩
    intro path stored hstored
    rw [Stores.apply, HashMap.lookup_insert_eq] at hstored
    split_ifs at hstored with hpath
    · cases hstored
      exact ⟨intent, comm, hpath, hgrows.committed hcomm, hcompl⟩
    · exact hcompls path stored hstored

theorem apply {effect : Effect sha256} (hallow : Allowed init stores effect) :
    StoresInv init (stores.apply effect) := by
  cases effect with
  | quiet => exact h
  | createIntent intent => exact h.createIntent hallow
  | writeStyle write => exact h.writeStyle hallow
  | createCompletion intent compl => exact h.createCompletion hallow

/-- A style object that names the reference of a stored intent was written under that intent. -/
theorem committed_of_object (hstored : stores.intents.lookup intent.paths.intent = some intent) {loc : StyleObjectPath}
    {object : StyleObject} (hobj : stores.state.lookup loc.path = some object)
    (hnames : object.mutation = some intent.stateReference) {ver : VersionEvidence}
    (hver : ver.asUpdateVersion = object.version) : Committed stores intent
      (styleCommit sha256 loc (digestHex sha256 styleDigestDomain object.body) ver) := by
  obtain hinit | ⟨write, hwrite, hpath, rfl⟩ := h.objects loc.path object hobj
  · -- an object that was there before the first publication names no reference drawn since
    refine absurd ?_ (h.drawn _ _ hstored).2.1
    rw [initialReferences, List.mem_filterMap]
    exact ⟨⟨loc.path, object⟩, AList.mem_lookup_iff.mp hinit, hnames⟩
  · have href : write.reference = intent.stateReference := Option.some.inj hnames
    obtain ⟨intent', hbound, href'⟩ := h.bound write hwrite
    obtain rfl : intent' = intent :=
      h.unique _ _ _ _ hbound.stored hstored (href'.symm.trans href)
    refine ⟨write, hwrite, hbound, href, loc, ver, hpath.symm, hver, ?_⟩
    rw [write.request.isContent]
    rfl

/-- A completion at the place of a stored intent was recorded for a write under that intent. -/
theorem committed_of_completion
    (hstored : stores.intents.lookup intent.paths.intent = some intent) {compl : MutationCompletion}
    (hcompl : stores.completions.lookup intent.paths.completion = some compl) :
    ∃ comm, Committed stores intent comm ∧
      compl.completed = ⟨comm.version, comm.stateSha256⟩ := by
  obtain ⟨intent', comm, hpath, hcomm, hdone⟩ := h.completions _ _ hcompl
  obtain ⟨hacct, hkey⟩ := MutationPaths.completion_injective hpath
  have hpaths : intent.paths = intent'.paths := by
    rw [MutationIntent.paths, MutationIntent.paths, hacct, hkey]
  have hstored' : stores.intents.lookup intent'.paths.intent = some intent' := by
    obtain ⟨_, _, hbound, _⟩ := hcomm
    exact hbound.stored
  rw [← hpaths, hstored] at hstored'
  cases hstored'
  exact ⟨comm, hcomm, hdone⟩

end

end StoresInv

end Mappf.Abashiri
