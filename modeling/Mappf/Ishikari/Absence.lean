import Mappf.Ishikari.CoherentLoads

/-! # Deleted archives

What a process hears about a tileset, from its backend or from a peer, is that the archive is absent or which
generation it has. A call that begins after the archive was found absent should return a generation only if it was
supplied since. `mark_absent` leaves the bootstrap in the cache, and `revalidate_bootstrap` puts it back into service
when the next look at the backend fails, so this takes two conditions on what is heard (`Steady`). -/
namespace Mappf.Ishikari
open Option

open ChunkedStore (ArchiveStore GenerationStep ObjectResponse)
open Common (GuardMoved Leaders SingleFlight)
open Pmtiles (ArchiveKey ArchiveRange BootstrapTransfer Directory DirectoryWalker)

variable {γ μ : Type}

/-! ## What is heard -/

inductive Word (γ : Type)
  | absent (tilesetId : String)
  | supplied (tilesetId : String) (generation : γ)
  deriving DecidableEq

def Word.tilesetId : Word γ → String
  | .absent tilesetId | .supplied tilesetId _ => tilesetId

def lastWord (log : List (Word γ)) (tilesetId : String) : Option (Word γ) :=
  log.foldl (fun last word => if word.tilesetId = tilesetId then some word else last) none

/-- Every absence heard among the first `n` words was followed by a supply of the generation. -/
def Backed (log : List (Word γ)) (n : ℕ) (tilesetId : String) (generation : γ) : Prop :=
  ∀ seen < n, log[seen]? = some (.absent tilesetId) →
    ∃ later, seen < later ∧ log[later]? = some (.supplied tilesetId generation)

section Words

variable {log : List (Word γ)} {n : ℕ} {tid : String} {gen : γ}

theorem lastWord_append (word : Word γ) :
    lastWord (log ++ [word]) tid = if word.tilesetId = tid then some word else lastWord log tid := by
  unfold lastWord
  rw [List.foldl_append]
  rfl

namespace Backed

theorem mono {m : ℕ} (h : Backed log m tid gen) (hle : n ≤ m) : Backed log n tid gen :=
  fun seen hseen => h seen (by omega)

theorem append (h : Backed log n tid gen) (hn : n ≤ log.length) (words : List (Word γ)) :
    Backed (log ++ words) n tid gen := by
  intro seen hseen habs
  rw [List.getElem?_append_left (by omega)] at habs
  obtain ⟨later, hlt, hlater⟩ := h seen hseen habs
  exact ⟨later, hlt, by rw [List.getElem?_append_left (lt_length hlater), hlater]⟩

theorem hear (h : Backed log log.length tid gen) {word : Option (Word γ)} (hword : word ≠ some (.absent tid)) :
    Backed (log ++ word.toList) (log ++ word.toList).length tid gen := by
  cases word with
  | none =>
    rw [toList_none, List.append_nil]
    exact h
  | some word =>
    intro seen hseen habs
    obtain hold | ⟨-, hnew⟩ := getElem?_log.mp habs
    · exact h.append le_rfl _ seen (lt_length hold) habs
    · exact absurd (congrArg some hnew) hword

theorem supplied : Backed (log ++ [Word.supplied tid gen]) (log ++ [Word.supplied tid gen]).length tid gen := by
  intro seen hseen habs
  obtain hold | ⟨-, hnew⟩ := getElem?_log.mp habs
  · exact ⟨log.length, (lt_length hold), getElem?_log.mpr (.inr ⟨rfl, rfl⟩)⟩
  · cases hnew

end Backed
end Words

/-! ## Watched runs -/

def Phase.load : Phase γ μ → Option (Load γ μ)
  | .loading load | .reloading load => some load
  | _ => none

/-- What the step that led here has heard: only an observation or a transfer leads to these two phases. -/
def Load.word (tilesetId : String) : Load γ μ → Option (Word γ)
  | .working .markingAbsent => some (.absent tilesetId)
  | .working (.clearingAbsence archive _) => some (.supplied tilesetId archive.key.generation)
  | _ => none

def Call.word (call : Call γ μ) : Option (Word γ) := call.phase.load.bind (Load.word call.request.tilesetId)

/-- The backend answers a revalidation with an error other than absence, or with bytes that are no archive. -/
def Deployment.unreadable (d : Deployment γ μ) (tilesetId : String) (response : ObjectResponse γ) : Bool :=
  match d.observeRange tilesetId response with
  | .error .notFound => false
  | .error _ => true
  | .ok (_, bytes) =>
    match d.decodeBootstrap bytes with
    | .error _ => true
    | .ok _ => false

variable [DecidableEq γ]

/-- A run with what was heard in it, and how much of that there was when each call began. -/
structure Watched (γ μ : Type) [DecidableEq γ] where
  system : System γ μ := {}
  log : List (Word γ) := []
  since : List ℕ := []

namespace Watched

variable (d : Deployment γ μ) (s : Watched γ μ)

def heard : Action γ → Option (Word γ)
  | .move i answer => (s.system.act d (.move i answer)).calls[i]?.bind Call.word
  | _ => none

def begun : Action γ → List ℕ
  | .begin _ => s.since ++ [s.log.length]
  | _ => s.since

def act (action : Action γ) : Watched γ μ where
  system := s.system.act d action
  log := s.log ++ (s.heard d action).toList
  since := s.begun action

/-- Absence is not heard while the cache serves a bootstrap of the tileset, and a revalidation does not fail while
absence is the last that was heard. -/
def Steady : Action γ → Prop
  | .move i answer => ∀ call revalidating, s.system.calls[i]? = some call →
      call.phase.load = some (.working (.observing revalidating)) →
      (d.observeRange call.request.tilesetId answer.object = .error .notFound →
        s.system.reader.cache.get s.system.reader.now call.request.tilesetId = none) ∧
      (revalidating = true → d.unreadable call.request.tilesetId answer.object = true →
        lastWord s.log call.request.tilesetId ≠ some (.absent call.request.tilesetId))
  | _ => True

inductive Step (check : Watched γ μ → Action γ → Prop) : Watched γ μ → Watched γ μ → Prop
  | act (s : Watched γ μ) (action : Action γ) (h : check s action) : Step check s (s.act d action)
  | store (s : Watched γ μ) (key : ArchiveKey γ) (store : ArchiveStore)
      (h : GenerationStep (d.contents key.tilesetId) key.generation (d.archiveLen key) d.chunkSize d.maxFetchChunks
        (s.system.reader.stores key) store) :
      Step check s { s with system := { s.system with reader := s.system.reader.setStore key store } }

def machine : Machine (Watched γ μ) where
  init := {}
  step := Step d (fun _ _ => True)

def steadyMachine : Machine (Watched γ μ) where
  init := {}
  step := Step d (Steady d)

/-- A call that began after its archive was found absent does not return a generation from before, unless the
generation has been supplied since. -/
def NotResurrected : Prop :=
  ∀ (i : ℕ) call n resource, s.system.calls[i]? = some call → s.since[i]? = some n →
    call.phase = .returned (.ok (some resource)) →
    ∀ seen < n, s.log[seen]? = some (.absent call.request.tilesetId) →
      (∃ before < seen, s.log[before]? = some (.supplied call.request.tilesetId resource.generation)) →
      ∃ later, seen < later ∧ s.log[later]? = some (.supplied call.request.tilesetId resource.generation)

end Watched

/-! ## What calls carry -/

section Carried

variable {log : List (Word γ)} {n : ℕ} {tid : String} {P : γ → Prop} {phase : Phase γ μ}

def BackedIfAny (log : List (Word γ)) (n : ℕ) (tilesetId : String) (archive : Option (VersionedArchive γ μ)) : Prop :=
  ∀ a, archive = some a → Backed log n tilesetId a.key.generation

/-- A leader knows how its tileset stands, since nobody else listens for it meanwhile. -/
def LoadWork.Settled (log : List (Word γ)) (tilesetId : String) : LoadWork γ μ → Prop
  | .clearingAbsence archive _ | .installing archive _ =>
    archive.key.tilesetId = tilesetId ∧ Backed log log.length tilesetId archive.key.generation
  | .deferring _ => lastWord log tilesetId ≠ some (.absent tilesetId)
  | _ => True

abbrev Load.Settled (log : List (Word γ)) (n : ℕ) (tilesetId : String) (load : Load γ μ) : Prop :=
  Flying.Ok (LoadWork.Settled log tilesetId) (BackedIfAny log n tilesetId) load

abbrev LoadProgress (γ μ : Type) := Progress (LoadWork γ μ) (Option (VersionedArchive γ μ))

def Phase.Labels (P : γ → Prop) : Phase γ μ → Prop
  | .leaf archive _ _ _ | .tile archive _ _ | .metadata archive _ | .bootstrapBytes archive
  | .bootstrapRange archive _ | .metadataRange archive _ _ | .leafRange archive _ _ _ => P archive.key.generation
  | .returned (.ok (some resource)) => P resource.generation
  | .returned (.ok none) | .returned (.error _) | .invalidating _ | .unreachable | .gone => True
  | .loading load | .reloading load => load = .looking

def Phase.Settled (log : List (Word γ)) (n : ℕ) (tilesetId : String) (phase : Phase γ μ) : Prop :=
  match phase.load with
  | some load => load.Settled log n tilesetId
  | none => phase.Labels (Backed log n tilesetId)

def Load.guard (tilesetId : String) : Load γ μ → Option String
  | .working _ | .releasing _ => some tilesetId
  | .looking | .missed | .electing | .following _ | .sending _ _ => none

def Call.guard (call : Call γ μ) : Option String := call.phase.load.bind (Load.guard call.request.tilesetId)

/-- A load that has heard of a generation and not yet put it into the cache. -/
def Load.installs : Load γ μ → Bool
  | .working (.clearingAbsence _ _) | .working (.installing _ _) => true
  | _ => false

def Call.installs (call : Call γ μ) : Bool := call.phase.load.any Load.installs

def Progress.load : LoadProgress γ μ → Option (Load γ μ)
  | .on load => some load
  | _ => none

omit [DecidableEq γ] in
theorem Phase.Labels.settled (h : phase.Labels (Backed log n tid)) : phase.Settled log n tid := by
  unfold Phase.Settled
  split
  case h_1 load hload =>
    cases phase with
    | loading | reloading =>
      cases hload
      rw [show load = .looking from h]
      trivial
    | _ => cases hload
  case h_2 => exact h

omit [DecidableEq γ] in
theorem Phase.Labels.load (h : phase.Labels P) : phase.load = none ∨ phase.load = some .looking := by
  cases phase with
  | loading load | reloading load => exact .inr (congrArg some h)
  | _ => exact .inl rfl

end Carried

/-! ## Steps outside the loads -/

section Labels

variable {P : γ → Prop} {arch : VersionedArchive γ μ} {req : Request} {att : ℕ}

omit [DecidableEq γ]

theorem Phase.retry_labels (error : ReaderError) : (Phase.retry req att arch error).Labels P := by
  unfold Phase.retry
  split
  · split_ifs <;> trivial
  · split_ifs <;> trivial
  · trivial

theorem resolve_labels (h : P arch.key.generation) (walker : DirectoryWalker) (dir : Directory) :
    (resolve req att arch walker dir).Labels P := by
  unfold resolve
  split
  case h_1 => exact Phase.retry_labels _
  case h_2 => exact h
  case h_3 | h_4 =>
    split
    · exact Phase.retry_labels _
    · exact h

theorem loaded_labels (h : P arch.key.generation) : (loaded req att arch).Labels P := by
  unfold loaded
  split
  case h_1 =>
    unfold beginTile
    split
    · exact Phase.retry_labels _
    · split
      · exact Phase.retry_labels _
      · exact resolve_labels h _ _
  case h_2 | h_3 | h_4 | h_5 => exact h
  case h_6 =>
    split_ifs
    · exact h
    · trivial

theorem withBootstrap_labels (h : P arch.key.generation) (incl : Bool) (boot : Bytes) :
    (withBootstrap arch incl boot).Labels P := by
  unfold withBootstrap
  split_ifs <;> exact h

theorem Call.ranged_labels {prog : RangeProgress} {message : String} {on : RangePhase → Phase γ μ}
    {failed : ReaderError → Phase γ μ} {ok : Bytes → Phase γ μ} (hon : ∀ range, (on range).Labels P)
    (hfail : ∀ error, (failed error).Labels P) (hok : ∀ bytes, (ok bytes).Labels P) :
    (Call.ranged prog message on failed ok).Labels P := by
  unfold Call.ranged
  split
  · exact hon _
  · exact hfail _
  · exact hok _

end Labels

/-- The cache holds no bootstrap that it did not hold before, with the same deadline. -/
structure Reader.Kept (reader reader' : Reader γ μ) : Prop where
  inflight : reader'.bootstrapInflight = reader.bootstrapInflight
  now : reader'.now = reader.now
  entries : ∀ tilesetId cached', reader'.cache.archives.lookup tilesetId = some cached' →
    ∃ cached, reader.cache.archives.lookup tilesetId = some cached ∧ cached'.generation = cached.generation ∧
      cached'.revalidateAfter = cached.revalidateAfter

section Kept

variable {d : Deployment γ μ} {reader reader' : Reader γ μ} {arch : VersionedArchive γ μ}

theorem Reader.Kept.of_eq (hfly : reader'.bootstrapInflight = reader.bootstrapInflight)
    (hnow : reader'.now = reader.now) (harchs : reader'.cache.archives = reader.cache.archives) : reader.Kept reader' :=
  ⟨hfly, hnow, fun _ cached' h => ⟨cached', harchs ▸ h, rfl, rfl⟩⟩

theorem RangePhase.next_kept {key : ArchiveKey γ} {start length len : ℕ} {phase : RangePhase}
    {prog : RangeProgress} (h : phase.next d reader key start length len = some (reader', prog)) :
    reader.Kept reader' := by
  unfold RangePhase.next at h
  split at h
  · split_ifs at h
    · cases h
      exact .of_eq rfl rfl rfl
    · split at h
      · cases h
        exact .of_eq rfl rfl rfl
      · cases h
        exact .of_eq rfl rfl rfl
  · split at h
    · cases h
      exact .of_eq rfl rfl rfl
    · cases h
      exact .of_eq rfl rfl rfl
    · cases h

theorem LeafLoad.next_kept {range : ArchiveRange} {ans : Answer γ}
    {load : LeafLoad} {prog : Progress LeafWork Directory}
    (h : load.next d reader arch range ans = some (reader', prog)) : reader.Kept reader' := by
  unfold LeafLoad.next at h
  split at h
  · cases h
    exact .of_eq rfl rfl rfl
  case h_2 phase =>
    obtain ⟨load, hwork, rfl⟩ := handed_on h
    cases phase with
    | fetching phase =>
      unfold LeafLoad.work at hwork
      dsimp only at hwork
      split at hwork
      · cases hwork
      case h_2 hnext | h_3 hnext | h_4 hnext =>
        cases hwork
        exact RangePhase.next_kept hnext
    | asking | installing dir =>
      cases hwork
      exact .of_eq rfl rfl rfl
  · obtain ⟨⟨flights, prog⟩, -, heq⟩ := map_eq_some_iff.mp h
    cases heq
    exact .of_eq rfl rfl rfl

theorem MetadataLoad.next_kept {load : MetadataLoad μ}
    {prog : Progress (MetadataWork μ) μ} (h : load.next d reader arch = some (reader', prog)) :
    reader.Kept reader' := by
  unfold MetadataLoad.next at h
  split at h
  · cases h
    exact .of_eq rfl rfl rfl
  case h_2 phase =>
    obtain ⟨load, hwork, rfl⟩ := handed_on h
    cases phase with
    | leading =>
      cases hwork
      exact .of_eq rfl rfl rfl
    | fetching phase =>
      unfold MetadataLoad.work at hwork
      dsimp only at hwork
      split at hwork
      · cases hwork
      case h_2 hnext | h_3 hnext | h_4 hnext =>
        cases hwork
        exact RangePhase.next_kept hnext
    | installing metadata =>
      cases hwork
      refine ⟨rfl, rfl, ?_⟩
      intro tid cached' hlook
      obtain hold | ⟨-, old, hold, -, rfl⟩ := ArchiveCache.lookup_putMetadata hlook
      · exact ⟨cached', hold, rfl, rfl⟩
      · exact ⟨old, hold, rfl, rfl⟩
  · obtain ⟨⟨flights, prog⟩, -, heq⟩ := map_eq_some_iff.mp h
    cases heq
    exact .of_eq rfl rfl rfl

end Kept

namespace Call

variable {d : Deployment γ μ} {reader reader' : Reader γ μ} {call after : Call γ μ} {ans : Answer γ} {P : γ → Prop}
  {arch : VersionedArchive γ μ}

omit [DecidableEq γ] in
theorem afterLeaf_labels (call : Call γ μ) (h : P arch.key.generation) (walker : DirectoryWalker)
    (range : ArchiveRange) (prog : Progress LeafWork Directory) : (call.afterLeaf arch walker range prog).Labels P := by
  unfold afterLeaf
  split
  · exact h
  · trivial
  · exact Phase.retry_labels _
  · exact resolve_labels h _ _

omit [DecidableEq γ] in
theorem afterMetadata_labels (call : Call γ μ) (h : P arch.key.generation)
    (prog : Progress (MetadataWork μ) μ) : (call.afterMetadata arch prog).Labels P := by
  unfold afterMetadata
  split
  · exact h
  · trivial
  · exact Phase.retry_labels _
  · exact h

theorem next_labels (hload : call.phase.load = none) (hlabels : call.phase.Labels P)
    (h : call.next d reader ans = some (reader', after)) :
    after.request = call.request ∧ reader.Kept reader' ∧ after.phase.Labels P := by
  obtain ⟨req, att, phase⟩ := call
  cases phase with
  | loading | reloading => cases hload
  | leaf arch walker range load =>
    obtain ⟨prog, hnext, rfl⟩ := handed_on h
    exact ⟨rfl, LeafLoad.next_kept hnext, afterLeaf_labels _ hlabels walker range prog⟩
  | tile arch loc range =>
    obtain ⟨prog, hnext, rfl⟩ := handed_on h
    exact ⟨rfl, RangePhase.next_kept hnext,
      ranged_labels (fun _ => hlabels) (fun _ => Phase.retry_labels _) (fun _ => hlabels)⟩
  | metadata arch load =>
    obtain ⟨prog, hnext, rfl⟩ := handed_on h
    exact ⟨rfl, MetadataLoad.next_kept hnext, afterMetadata_labels _ hlabels prog⟩
  | invalidating key =>
    cases h
    refine ⟨rfl, ⟨rfl, rfl, fun tid cached' hlook => ?_⟩, rfl⟩
    exact ⟨cached', ArchiveCache.lookup_invalidate hlook, rfl, rfl⟩
  | bootstrapBytes arch =>
    cases h
    refine ⟨rfl, .of_eq rfl rfl rfl, ?_⟩
    split
    · exact withBootstrap_labels hlabels _ _
    · exact hlabels
  | bootstrapRange arch range =>
    obtain ⟨prog, hnext, rfl⟩ := handed_on h
    exact ⟨rfl, RangePhase.next_kept hnext,
      ranged_labels (fun _ => hlabels) (fun _ => trivial) (fun _ => withBootstrap_labels hlabels _ _)⟩
  | metadataRange arch boot range | leafRange arch offset length range =>
    obtain ⟨prog, hnext, rfl⟩ := handed_on h
    exact ⟨rfl, RangePhase.next_kept hnext, ranged_labels (fun _ => hlabels) (fun _ => trivial) (fun _ => hlabels)⟩
  | returned | unreachable | gone => cases h

end Call
end Mappf.Ishikari
