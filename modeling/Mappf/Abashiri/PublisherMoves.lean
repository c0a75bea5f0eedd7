import Mappf.Abashiri.PublisherInvariant

/-! # One move of a call or a scan

`Call.Inv` and `Scan.Inv` say what a call and a scan know of the stores in each phase. One lemma for each
operation says that what it does to the stores is allowed and what its caller knows afterwards; `Call.next_moved`
and `Scan.next_moved` collect them. -/
namespace Mappf.Abashiri

variable {sha256 : Bytes → Bytes} {libs : StyleLibraries} {init : HashMap String StyleObject}
  {stores stores' : Stores sha256} {ans : Answer} {request : PublishStyleRequest sha256}
  {path : String} {α : Type} {intent : MutationIntent}

/-! ## Operations on the stores -/

theorem readOptional_eq_ok {objects : HashMap String α} {found : Option α}
    (h : readOptional objects path ans = .ok found) : objects.lookup path = found := by
  unfold readOptional at h
  split at h
  · cases h
    rfl
  · cases h

theorem readRequired_eq_ok {objects : HashMap String α} {found : α}
    (h : readRequired objects path ans = .ok found) : objects.lookup path = some found := by
  obtain ⟨res, hres, hfound⟩ := bind_eq_ok.mp h
  rw [readOptional_eq_ok hres]
  cases res with
  | none => cases hfound
  | some object => cases hfound; rfl

theorem readStateObject_eq_ok {loc : StyleObjectPath} {noun : String} {found : Option StyleObject}
    (h : readStateObject stores loc noun ans = .ok found) : stores.state.lookup loc.path = found := by
  unfold readStateObject at h
  split at h
  · cases h
    rfl
  · cases h

theorem recordCompletion_cases (stores : Stores sha256) (intent : MutationIntent) (comm : StateCommit) (ans : Answer) :
    (∃ recorded, recordCompletion stores intent comm ans = (recorded, .quiet) ∧ recorded ≠ .created) ∨
      (stores.completions.lookup intent.paths.completion = none ∧ ∃ recorded time,
        recordCompletion stores intent comm ans =
          (recorded, .createCompletion intent (.of intent comm time)) ∧ ∀ c, recorded ≠ .exists c) := by
  unfold recordCompletion
  split
  · exact .inl ⟨_, rfl, nofun⟩
  case h_2 time _ =>
    split
    · exact .inl ⟨_, rfl, nofun⟩
    case h_2 hnone | h_3 hnone => exact .inr ⟨hnone, _, time, rfl, nofun⟩
    · exact .inl ⟨_, rfl, nofun⟩

theorem compareCompletion_eq_ok {compl : MutationCompletion}
    {completed : CompletedMutation} (h : compareCompletion stores intent compl ans = .ok completed) :
    ∃ existing, stores.completions.lookup intent.paths.completion = some existing ∧ completed = existing.completed := by
  obtain ⟨existing, hexist, hdone⟩ := bind_eq_ok.mp h
  split_ifs at hdone
  · cases hdone
    exact ⟨existing, readRequired_eq_ok hexist, rfl⟩
  · cases hdone

/-! ## Calls -/

def Call.Inv (initial : HashMap String StyleObject) (stores : Stores sha256) (request : PublishStyleRequest sha256) :
    Phase → Prop
  | .ensuring mutation intent =>
    request.mutation = .ok mutation ∧ intent.matchesRequest mutation = true ∧ Drawn initial stores intent
  | .rereading mutation => request.mutation = .ok mutation
  | .checking intent => Bound stores request intent
  | .reading intent => Bound stores request intent
  | .writing intent => Bound stores request intent
  | .resolving intent => Bound stores request intent
  | .completing intent committed => Bound stores request intent ∧ Committed stores intent committed
  | .comparing intent _ => Bound stores request intent
  | .returned (.ok (.committed published)) =>
    ∃ intent committed, Bound stores request intent ∧ Committed stores intent committed ∧
      published = committed.response ∧ stores.completions.lookup intent.paths.completion ≠ none
  | .returned (.ok (.alreadyCompleted completed)) =>
    ∃ intent committed, Bound stores request intent ∧ Committed stores intent committed ∧
      completed = ⟨committed.version, committed.stateSha256⟩
  | .returned (.error _) => True

theorem Call.Inv.grows {phase : Phase} (hgrows : Grows stores stores')
    (h : Call.Inv init stores request phase) : Call.Inv init stores' request phase := by
  cases phase with
  | ensuring mutation intent =>
    obtain ⟨hmut, hmatch, href, hrest⟩ := h
    exact ⟨hmut, hmatch, hgrows.references _ href, hrest⟩
  | rereading mutation => exact h
  | checking intent | reading intent | writing intent | resolving intent => exact hgrows.bound h
  | completing intent comm => exact ⟨hgrows.bound h.1, hgrows.committed h.2⟩
  | comparing intent compl => exact hgrows.bound h
  | returned res =>
    cases res with
    | error error => exact h
    | ok execution =>
      cases execution with
      | committed published =>
        obtain ⟨intent, comm, hbound, hcomm, hpub, hcompl⟩ := h
        refine ⟨intent, comm, hgrows.bound hbound, hgrows.committed hcomm, hpub, ?_⟩
        obtain ⟨compl, hsome⟩ := Option.ne_none_iff_exists'.mp hcompl
        rw [hgrows.completions _ _ hsome]
        exact Option.some_ne_none compl
      | alreadyCompleted completed =>
        obtain ⟨intent, comm, hbound, hcomm, hdone⟩ := h
        exact ⟨intent, comm, hgrows.bound hbound, hgrows.committed hcomm, hdone⟩

theorem Call.Inv.error (error : PublishError) : Call.Inv init stores request (.returned (.error error)) :=
  trivial

theorem Call.Inv.ofCommit {comm : Fallible StateCommit} (hbound : Bound stores request intent)
    (hcomm : ∀ commit, comm = .ok commit → Committed stores intent commit) :
    Call.Inv init stores request (.ofCommit intent comm) := by
  obtain ⟨failure, hfail⟩ | ⟨commit, hcommit, hphase⟩ := Phase.ofCommit_cases intent comm
  · rw [hfail]
    exact .error _
  · rw [hphase]
    exact ⟨hbound, hcomm commit hcommit⟩

/-- Neither before the creation of the intent nor after a commit of its own. -/
def Phase.ordinary : Phase → Bool
  | .ensuring _ _ => false
  | .returned (.ok (.committed _)) => false
  | _ => true

theorem Phase.ofCommit_ordinary (intent : MutationIntent) (comm : Fallible StateCommit) :
    (Phase.ofCommit intent comm).ordinary = true := by
  obtain ⟨failure, hfail⟩ | ⟨commit, -, hphase⟩ := Phase.ofCommit_cases intent comm
  · rw [hfail]
    rfl
  · rw [hphase]
    rfl

namespace Call

structure Moved (initial : HashMap String StyleObject) (stores : Stores sha256) (request : PublishStyleRequest sha256)
    (phase phase' : Phase) (effect : Effect sha256) : Prop where
  allowed : Allowed initial stores effect
  inv : Inv initial (stores.apply effect) request phase'
  creates : ∀ intent, effect = .createIntent intent → ∃ mutation, phase = .ensuring mutation intent
  ordinary : phase'.ordinary = true ∨ (∃ result, phase = .returned result ∧ phase' = phase) ∨
    ∃ intent completion, Bound stores request intent ∧ effect = .createCompletion intent completion ∧
      stores.completions.lookup intent.paths.completion = none ∧ ∀ mutation intent, phase' ≠ .ensuring mutation intent

variable {phase phase' : Phase} {mutation : MutationRequest}

theorem Moved.quiet (hinv : Inv init stores request phase') (hord : phase'.ordinary = true) :
    Moved init stores request phase phase' .quiet where
  allowed := .quiet
  inv := hinv
  creates := nofun
  ordinary := .inl hord

theorem ensureIntent_moved (hinv : Inv init stores request (.ensuring mutation intent))
    (hunused : ∀ path stored, stores.intents.lookup path = some stored → stored.stateReference ≠ intent.stateReference)
    (ans : Answer) :
    Moved init stores request (.ensuring mutation intent) (ensureIntent stores mutation intent ans).1
      (ensureIntent stores mutation intent ans).2 := by
  obtain ⟨hmut, hmatch, hdrawn⟩ := hinv
  have hcreates : ∀ intent', (.createIntent intent : Effect sha256) = .createIntent intent' →
      ∃ mutation', Phase.ensuring mutation intent = .ensuring mutation' intent' := by
    intro intent' h
    cases h
    exact ⟨mutation, rfl⟩
  unfold ensureIntent
  split
  · exact .quiet hmut rfl
  case h_2 habs =>
    have hstored : (stores.apply (.createIntent intent)).intents.lookup intent.paths.intent = some intent := by
      rw [Stores.apply, HashMap.lookup_insert_eq, if_pos rfl]
    exact ⟨.createIntent intent habs hdrawn hunused, .of_matches hmut hmatch hdrawn.2.2 hstored, hcreates, .inl rfl⟩
  case h_3 habs => exact ⟨.createIntent intent habs hdrawn hunused, .error _, hcreates, .inl rfl⟩
  · exact .quiet (.error _) rfl

theorem rereadIntent_moved (h : StoresInv init stores) (hinv : Inv init stores request (.rereading mutation))
    (ans : Answer) : Moved init stores request phase (rereadIntent stores mutation ans) .quiet := by
  unfold rereadIntent
  split
  · exact .quiet (.error _) rfl
  case h_2 existing hexist =>
    split_ifs with hmatch
    · have hlook := readRequired_eq_ok hexist
      have hloc := (h.drawn _ _ hlook).2.2
      rw [h.place _ _ hlook] at hlook
      exact .quiet (.of_matches hinv hmatch hloc hlook) rfl
    · exact .quiet (.error _) rfl

theorem Moved.ofCommit {comm : Fallible StateCommit} (hbound : Bound stores request intent)
    (hcomm : ∀ commit, comm = .ok commit → Committed stores intent commit) :
    Moved init stores request phase (.ofCommit intent comm) .quiet :=
  .quiet (.ofCommit hbound hcomm) (Phase.ofCommit_ordinary intent comm)

theorem Moved.commitFailed (hbound : Bound stores request intent) (failure : Failure) :
    Moved init stores request phase (.ofCommit intent (.error failure)) .quiet :=
  .ofCommit hbound nofun

theorem writeStyle_moved (hbound : Bound stores request intent)
    (hfresh : ans.version ∉ CasLog.versions Write.path Write.version (Stores.initialVersion init) stores.writes
      request.location.path) :
    Moved init stores request phase (writeStyle stores request intent ans).1
      (writeStyle stores request intent ans).2 := by
  unfold writeStyle
  dsimp only
  split_ifs with hfail hexp hserv hserv
  · exact .quiet (.error _) rfl
  · have hallow : Allowed init stores (.writeStyle
        { request, reference := intent.stateReference, version := ans.version,
          replaced := (stores.state.lookup request.location.path).map StyleObject.version }) :=
      .writeStyle _ intent hbound rfl rfl hexp hfresh
    refine ⟨hallow, .ofCommit (hallow.grows.bound hbound) ?_, fun _ h => (by cases h),
      .inl (Phase.ofCommit_ordinary intent _)⟩
    intro commit hcommit
    obtain ⟨ver, hver, rfl⟩ := styleCommitFromPut_eq_ok hcommit
    exact ⟨_, List.mem_append_right _ List.mem_cons_self, hallow.grows.bound hbound, rfl, request.location, ver,
      rfl, hver, rfl⟩
  · exact ⟨.writeStyle _ intent hbound rfl rfl hexp hfresh, .error _, fun _ h => (by cases h), .inl rfl⟩
  · exact .quiet hbound rfl
  · exact .quiet (.error _) rfl

theorem complete_moved {comm : StateCommit} (hbound : Bound stores request intent)
    (hcomm : Committed stores intent comm) (ans : Answer) :
    Moved init stores request phase (complete stores intent comm ans).1 (complete stores intent comm ans).2 := by
  unfold complete
  obtain ⟨recorded, hrec, hfound⟩ | ⟨habs, recorded, time, hrec, hcreated⟩ :=
    recordCompletion_cases stores intent comm ans
  · rw [hrec]
    cases recorded with
    | created => exact absurd rfl hfound
    | «exists» compl => exact .quiet hbound rfl
    | failed failure => exact .quiet (.error _) rfl
  · have hallow : Allowed init stores (.createCompletion intent (.of intent comm time)) :=
      .createCompletion intent _ comm habs hcomm rfl
    rw [hrec]
    cases recorded with
    | created =>
      refine ⟨hallow, ⟨intent, comm, hallow.grows.bound hbound, hallow.grows.committed hcomm, rfl, ?_⟩,
        fun _ h => (by cases h), .inr (.inr ⟨intent, _, hbound, rfl, habs, fun _ _ h => (by cases h)⟩)⟩
      rw [Stores.apply, HashMap.lookup_insert_eq, if_pos rfl]
      exact Option.some_ne_none _
    | «exists» compl => exact absurd rfl (hcreated compl)
    | failed failure => exact ⟨hallow, .error _, fun _ h => (by cases h), .inl rfl⟩

section

variable (h : StoresInv init stores) (hbound : Bound stores request intent)
include h hbound

variable (ans : Answer)

theorem checkCompletion_moved :
    Moved init stores request phase (checkCompletion stores intent ans) .quiet := by
  unfold checkCompletion
  split
  · exact .quiet (.error _) rfl
  · exact .quiet hbound rfl
  case h_3 compl hcompl =>
    split_ifs
    · obtain ⟨comm, hcomm, hdone⟩ := h.committed_of_completion hbound.stored (readOptional_eq_ok hcompl)
      exact .quiet ⟨intent, comm, hbound, hcomm, hdone⟩ rfl
    · exact .quiet (.error _) rfl

theorem existing_moved {cur : StyleObject}
    {loc : StyleObjectPath} (hcur : stores.state.lookup loc.path = some cur) {message : String}
    {ver : VersionEvidence} (hver : context message (VersionEvidence.fromMeta cur.version) = .ok ver)
    (hnames : cur.mutation = some intent.stateReference) : Moved init stores request phase
      (.ofCommit intent (existingStyleCommit sha256 libs.decodeJson cur loc request.contentSha256 ver)) .quiet := by
  refine .ofCommit hbound ?_
  intro commit hcommit
  rw [existingStyleCommit_eq_ok hcommit]
  exact h.committed_of_object hbound.stored hcur hnames (VersionEvidence.fromMeta_eq_ok (context_eq_ok.mp hver))

theorem commitStyle_moved :
    Moved init stores request phase (commitStyle libs stores request intent ans) .quiet := by
  unfold commitStyle
  split
  · exact .commitFailed hbound _
  case h_2 cur hcur =>
    split
    · exact .commitFailed hbound _
    case h_2 ver hver =>
      split_ifs with hnames
      · exact existing_moved h hbound (readStateObject_eq_ok hcur) hver hnames
      · split
        · exact .quiet (.error _) rfl
        · split_ifs
          · exact .quiet hbound rfl
          · exact .quiet (.error _) rfl
  · split
    · exact .quiet hbound rfl
    · exact .quiet (.error _) rfl

theorem resolveWriteRace_moved :
    Moved init stores request phase (resolveWriteRace libs stores request intent ans) .quiet := by
  unfold resolveWriteRace
  split
  · exact .commitFailed hbound _
  · split <;> exact .quiet (.error _) rfl
  case h_3 cur hcur =>
    split
    · exact .commitFailed hbound _
    case h_2 ver hver =>
      split_ifs with hnames
      · exact existing_moved h hbound (readStateObject_eq_ok hcur) hver hnames
      · split <;> exact .quiet (.error _) rfl

theorem compare_moved (compl : MutationCompletion) (ans : Answer) :
    Moved init stores request phase (compare stores intent compl ans) .quiet := by
  unfold compare
  split
  case h_1 completed hcmp =>
    obtain ⟨existing, hexist, rfl⟩ := compareCompletion_eq_ok hcmp
    obtain ⟨comm, hcomm, hdone⟩ := h.committed_of_completion hbound.stored hexist
    exact .quiet ⟨intent, comm, hbound, hcomm, hdone⟩ rfl
  · exact .quiet (.error _) rfl

end

theorem next_moved (h : StoresInv init stores) {call : Call sha256} (hinv : Inv init stores call.request call.phase)
    (hunused : ∀ mutation intent, call.phase = .ensuring mutation intent → ∀ path stored,
      stores.intents.lookup path = some stored → stored.stateReference ≠ intent.stateReference)
    (hfresh : ans.version ∉ CasLog.versions Write.path Write.version (Stores.initialVersion init) stores.writes
      call.request.location.path) :
    Moved init stores call.request call.phase (call.next libs stores ans).1
      (call.next libs stores ans).2 := by
  obtain ⟨request, phase⟩ := call
  cases phase with
  | ensuring mutation intent => exact ensureIntent_moved hinv (hunused mutation intent rfl) ans
  | rereading mutation => exact rereadIntent_moved h hinv ans
  | checking intent => exact checkCompletion_moved h hinv ans
  | reading intent => exact commitStyle_moved h hinv ans
  | writing intent => exact writeStyle_moved hinv hfresh
  | resolving intent => exact resolveWriteRace_moved h hinv ans
  | completing intent comm => exact complete_moved hinv.1 hinv.2 ans
  | comparing intent compl => exact compare_moved h hinv compl ans
  | returned res => exact ⟨.quiet, hinv, fun _ h => (by cases h), .inr (.inl ⟨res, rfl, rfl⟩)⟩

end Call

/-! ## Scans -/

namespace Scan

def Inv (stores : Stores sha256) : ScanPhase → Prop
  | .checking intent => stores.intents.lookup intent.paths.intent = some intent
  | .reading intent _ => stores.intents.lookup intent.paths.intent = some intent
  | .completing intent committed => Committed stores intent committed
  | .listing | .opening _ | .comparing _ _ | .returned _ => True

theorem Inv.grows {phase : ScanPhase} (hgrows : Grows stores stores') (h : Inv stores phase) : Inv stores' phase := by
  cases phase with
  | checking intent | reading intent loc => exact hgrows.intents _ _ h
  | completing intent comm => exact hgrows.committed h
  | _ => exact h

/-- All that one move of a scan can do: no style object is written and no intent is created. -/
structure Moved (initial : HashMap String StyleObject) (stores : Stores sha256) (scan' : Scan) (effect : Effect sha256) :
    Prop where
  allowed : Allowed initial stores effect
  inv : Inv (stores.apply effect) scan'.phase
  completes : effect = .quiet ∨ ∃ intent completion, effect = .createCompletion intent completion

variable {scan scan' : Scan}

theorem Moved.quiet (hinv : Inv stores scan'.phase) : Moved init stores scan' .quiet :=
  ⟨.quiet, hinv, .inl rfl⟩

theorem openIntent_moved (loc : String) (ans : Answer) : Moved init stores (scan.openIntent stores loc ans) .quiet := by
  unfold openIntent
  split
  · exact .quiet trivial
  case h_2 intent hintent =>
    split_ifs with hschema hplace
    · exact .quiet trivial
    · exact .quiet trivial
    · have hlook := readRequired_eq_ok hintent
      rw [← not_not.mp hplace] at hlook
      exact .quiet hlook

theorem checkCompletion_moved (hstored : stores.intents.lookup intent.paths.intent = some intent) (ans : Answer) :
    Moved init stores (scan.checkCompletion libs stores intent ans) .quiet := by
  unfold checkCompletion
  split
  · exact .quiet trivial
  · split_ifs <;> exact .quiet trivial
  · split_ifs
    · exact .quiet trivial
    · split
      · exact .quiet trivial
      · exact .quiet hstored

theorem readState_moved (h : StoresInv init stores)
    (hstored : stores.intents.lookup intent.paths.intent = some intent) (loc : StyleObjectPath) (ans : Answer) :
    Moved init stores (scan.readState libs stores intent loc ans) .quiet := by
  unfold readState
  split
  · exact .quiet trivial
  · exact .quiet trivial
  case h_3 cur hcur =>
    split_ifs with hnames
    · exact .quiet trivial
    · dsimp only
      split
      · exact .quiet trivial
      case h_2 comm contentSha256 hcomm =>
        obtain ⟨ver, hver, hcommit⟩ := bind_eq_ok.mp hcomm
        obtain ⟨rfl, rfl⟩ := styleCommitFromCurrent_eq_ok hcommit
        exact .quiet (h.committed_of_object hstored (readStateObject_eq_ok hcur) (not_not.mp hnames)
          (VersionEvidence.fromMeta_eq_ok (context_eq_ok.mp hver)))

theorem complete_moved {comm : StateCommit} (hcomm : Committed stores intent comm) (ans : Answer) :
    Moved init stores (scan.complete stores intent comm ans).1 (scan.complete stores intent comm ans).2 := by
  unfold complete
  obtain ⟨recorded, hrec, -⟩ | ⟨habs, recorded, time, hrec, -⟩ :=
    recordCompletion_cases stores intent comm ans
  · rw [hrec]
    cases recorded with
    | created | «exists» compl | failed failure => exact .quiet trivial
  · have hallow : Allowed init stores (.createCompletion intent (.of intent comm time)) :=
      .createCompletion intent _ comm habs hcomm rfl
    rw [hrec]
    cases recorded with
    | created | «exists» compl | failed failure => exact ⟨hallow, trivial, .inr ⟨_, _, rfl⟩⟩

theorem compare_moved (compl : MutationCompletion) (ans : Answer) :
    Moved init stores (scan.compare stores intent compl ans) .quiet := by
  unfold compare
  split <;> exact .quiet trivial

theorem next_moved (h : StoresInv init stores) (hinv : Inv stores scan.phase) (ans : Answer) :
    Moved init stores (scan.next libs stores ans).1 (scan.next libs stores ans).2 := by
  obtain ⟨layout, report, phase⟩ := scan
  cases phase with
  | listing =>
    unfold next
    dsimp only
    split <;> exact .quiet trivial
  | opening loc => exact openIntent_moved loc ans
  | checking intent => exact checkCompletion_moved hinv ans
  | reading intent loc => exact readState_moved h hinv loc ans
  | completing intent comm => exact complete_moved hinv ans
  | comparing intent compl => exact compare_moved compl ans
  | returned res => exact .quiet trivial

end Scan

end Mappf.Abashiri
