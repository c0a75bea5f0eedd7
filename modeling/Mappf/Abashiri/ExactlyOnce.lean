import Mappf.Abashiri.PublisherMoves

/-! # Publishing is exactly-once

The invariant of the whole system: the stores are linked, every call and every scan knows what its phase says,
no two calls are about to create intents with one reference, and no two calls of one account and key both
returned a commit of their own. What a publication reports is read off from it. -/
namespace Mappf.Abashiri
open List

variable {sha256 : Bytes → Bytes} {libs : StyleLibraries} {initial : HashMap String StyleObject}
  {stores : Stores sha256} {account : AccountId} {key : String}

namespace System

def Ensures (system : System sha256) (i : ℕ) (reference : String) : Prop :=
  ∃ call mutation intent, system.calls[i]? = some call ∧ call.phase = .ensuring mutation intent ∧
    intent.stateReference = reference

def Commits (system : System sha256) (i : ℕ) (account : AccountId) (key : String) : Prop :=
  ∃ call published, system.calls[i]? = some call ∧ call.phase = .returned (.ok (.committed published)) ∧
    call.request.target.accountId = account ∧ call.request.idempotencyKey = key

structure Inv (initial : HashMap String StyleObject) (system : System sha256) : Prop where
  stores : StoresInv initial system.stores
  seeded : ∀ reference ∈ initialReferences initial, reference ∈ system.stores.references
  calls : ∀ (i : ℕ) call, system.calls[i]? = some call → Call.Inv initial system.stores call.request call.phase
  scans : ∀ scan ∈ system.scans, Scan.Inv system.stores scan.phase
  unused : ∀ i reference, system.Ensures i reference → ∀ path stored,
    system.stores.intents.lookup path = some stored → stored.stateReference ≠ reference
  apart : ∀ i j reference, system.Ensures i reference → system.Ensures j reference → i = j
  single : ∀ i j account key, system.Commits i account key → system.Commits j account key → i = j

variable {system system' : System sha256}

theorem Inv.new (initial : HashMap String StyleObject) : Inv initial (System.new initial : System sha256) where
  stores := .new initial
  seeded := fun _ h => h
  calls := fun _ _ h => by cases h
  scans := fun _ h => by cases h
  unused := fun _ _ _ _ _ h => by cases h
  apart := fun _ _ _ ⟨_, _, _, h, _⟩ => by cases h
  single := fun _ _ _ _ ⟨_, _, h, _⟩ => by cases h

variable {i : ℕ} {clock : Option ℕ} {reference : String} {request : PublishStyleRequest sha256} {effect : Effect sha256}
  {intent : MutationIntent} {scan' : Scan}

variable (h : Inv initial system)
include h

theorem Inv.reference_mem (hens : system.Ensures i reference) : reference ∈ system.stores.references := by
  obtain ⟨call, mutation, intent, hcall, hphase, rfl⟩ := hens
  have hinv := h.calls i call hcall
  rw [hphase] at hinv
  exact hinv.2.2.1

/-- Returned commits of one account and key are for one stored intent, whose completion is stored. -/
theorem Inv.completed_of_commits (hcomms : system.Commits i account key)
    (hbound : Bound system.stores request intent) (hacct : request.target.accountId = account)
    (hkey : request.idempotencyKey = key) : system.stores.completions.lookup intent.paths.completion ≠ none := by
  obtain ⟨call, published, hcall, hphase, hacct', hkey'⟩ := hcomms
  have hinv := h.calls i call hcall
  rw [hphase] at hinv
  obtain ⟨intent', comm, hbound', -, -, hcompl⟩ := hinv
  rw [hbound.same_intent hbound' (hacct.trans hacct'.symm) (hkey.trans hkey'.symm)]
  exact hcompl

omit h

/-! ## Starting a publication -/

theorem publish_inv (href : reference ∈ stores.references) (hnew : reference ∉ initialReferences initial) :
    Call.Inv initial stores request (Call.publish request reference clock).phase := by
  unfold Call.publish
  split
  · exact .error _
  · exact .error _
  case h_3 mutation createdAtUnixMs hmut =>
    refine ⟨hmut, MutationIntent.ofRequest_matches .., href, hnew, ?_⟩
    obtain ⟨-, -, hloc, -⟩ := PublishStyleRequest.mutation_eq_ok hmut
    rw [MutationIntent.ofRequest, hloc]
    rfl

theorem publish_reference {mutation : MutationRequest}
    (h : (Call.publish request reference clock).phase = .ensuring mutation intent) :
    intent.stateReference = reference := by
  unfold Call.publish at h
  split at h
  · cases h
  · cases h
  · cases h
    rfl

theorem publish_not_committed {published : PublishedStyle} :
    (Call.publish request reference clock).phase ≠ .returned (.ok (.committed published)) := by
  intro h
  unfold Call.publish at h
  split at h <;> cases h

include h

theorem Inv.publish (request : PublishStyleRequest sha256)
    (clock : Option ℕ) (hnew : reference ∉ system.stores.references) : Inv initial { system with
      stores := { system.stores with references := reference :: system.stores.references }
      calls := system.calls ++ [.publish request reference clock] } := by
  have hgrows : Grows system.stores { system.stores with references := reference :: system.stores.references } :=
    .reference system.stores reference
  have hens : ∀ i r, Ensures { system with
      stores := { system.stores with references := reference :: system.stores.references }
      calls := system.calls ++ [.publish request reference clock] } i r →
      system.Ensures i r ∨ (i = system.calls.length ∧ r = reference) := by
    rintro i r ⟨call, mutation, intent, hcall, hphase, rfl⟩
    obtain hold | ⟨hi, rfl⟩ := getElem?_log.mp hcall
    · exact .inl ⟨call, mutation, intent, hold, hphase, rfl⟩
    · exact .inr ⟨hi, publish_reference hphase⟩
  have hcomms : ∀ i account key, Commits { system with
      stores := { system.stores with references := reference :: system.stores.references }
      calls := system.calls ++ [.publish request reference clock] } i account key → system.Commits i account key := by
    rintro i account key ⟨call, published, hcall, hphase, hrest⟩
    obtain hold | ⟨-, rfl⟩ := getElem?_log.mp hcall
    · exact ⟨call, published, hold, hphase, hrest⟩
    · exact absurd hphase publish_not_committed
  refine ⟨h.stores.of_reference reference, fun r hr => mem_cons_of_mem _ (h.seeded r hr), ?_, ?_, ?_, ?_, ?_⟩
  · intro i call hcall
    obtain hold | ⟨-, rfl⟩ := getElem?_log.mp hcall
    · exact (h.calls i call hold).grows hgrows
    · exact publish_inv mem_cons_self (fun hinit => hnew (h.seeded reference hinit))
  · intro scan hscan
    exact (h.scans scan hscan).grows hgrows
  · intro i r hr path stored hstored
    obtain hold | ⟨-, rfl⟩ := hens i r hr
    · exact h.unused i r hold path stored hstored
    · rintro rfl
      exact hnew (h.stores.drawn path stored hstored).1
  · intro i j r hi hj
    obtain hold | ⟨hlast, rfl⟩ := hens i r hi
    · obtain hold' | ⟨-, rfl⟩ := hens j r hj
      · exact h.apart i j r hold hold'
      · exact absurd (h.reference_mem hold) hnew
    · obtain hold' | ⟨hlast', -⟩ := hens j r hj
      · exact absurd (h.reference_mem hold') hnew
      · exact hlast.trans hlast'.symm
  · intro i j account key hi hj
    exact h.single i j account key (hcomms i account key hi) (hcomms j account key hj)

/-! ## Moving a call -/

theorem Inv.move {call : Call sha256} (hcall : system.calls[i]? = some call) {phase : Phase}
    (hmoved : Call.Moved initial system.stores call.request call.phase phase effect) : Inv initial { system with
      stores := system.stores.apply effect
      calls := system.calls.set i { call with phase } } := by
  have hgrows := hmoved.allowed.grows
  have hrefs : (system.stores.apply effect).references = system.stores.references := by
    cases effect <;> rfl
  have hnot : ∀ mutation intent, phase ≠ .ensuring mutation intent := by
    intro mutation intent hphase
    obtain hord | ⟨res, hret, hsame⟩ | ⟨_, _, _, _, _, hne⟩ := hmoved.ordinary
    · rw [hphase] at hord
      cases hord
    · rw [hsame, hret] at hphase
      cases hphase
    · exact hne mutation intent hphase
  have hens : ∀ j r, Ensures { system with
      stores := system.stores.apply effect
      calls := system.calls.set i { call with phase } } j r → j ≠ i ∧ system.Ensures j r := by
    rintro j r ⟨other, mutation, intent, hother, hphase, hr⟩
    obtain ⟨rfl, rfl⟩ | ⟨hji, hold⟩ := getElem?_set_cases hother
    · exact absurd hphase (hnot mutation intent)
    · exact ⟨hji, other, mutation, intent, hold, hphase, hr⟩
  -- a new commit was returned only now that its completion is stored
  have hcomms : ∀ j account key, Commits { system with
      stores := system.stores.apply effect
      calls := system.calls.set i { call with phase } } j account key →
      system.Commits j account key ∨ (j = i ∧ ∀ j', ¬ system.Commits j' account key) := by
    rintro j account key ⟨other, published, hother, hphase, hacct, hkey⟩
    obtain ⟨rfl, rfl⟩ | ⟨-, hold⟩ := getElem?_set_cases hother
    · obtain hord | ⟨res, hret, hsame⟩ | ⟨intent, compl, hbound, -, habs, -⟩ := hmoved.ordinary
      · have hphase' : phase = .returned (.ok (.committed published)) := hphase
        rw [hphase'] at hord
        cases hord
      · exact .inl ⟨call, published, hcall, hsame ▸ hphase, hacct, hkey⟩
      · refine .inr ⟨rfl, fun j' hj' => ?_⟩
        exact h.completed_of_commits hj' hbound hacct hkey habs
    · exact .inl ⟨other, published, hold, hphase, hacct, hkey⟩
  refine ⟨h.stores.apply hmoved.allowed, ?_, ?_, ?_, ?_, ?_, ?_⟩
  · intro reference href
    rw [hrefs]
    exact h.seeded reference href
  · intro j other hother
    obtain ⟨rfl, rfl⟩ | ⟨-, hold⟩ := getElem?_set_cases hother
    · exact hmoved.inv
    · exact (h.calls j other hold).grows hgrows
  · intro scan hscan
    exact (h.scans scan hscan).grows hgrows
  · intro j r hr path stored hstored
    obtain ⟨hji, hold⟩ := hens j r hr
    cases effect with
    | quiet | writeStyle write | createCompletion intent compl => exact h.unused j r hold path stored hstored
    | createIntent intent =>
      rw [Stores.apply, HashMap.lookup_insert_eq] at hstored
      split_ifs at hstored
      · obtain ⟨mutation, hphase⟩ := hmoved.creates intent rfl
        cases hstored
        rintro rfl
        exact hji (h.apart j i _ hold ⟨call, mutation, _, hcall, hphase, rfl⟩)
      · exact h.unused j r hold path stored hstored
  · intro j j' r hj hj'
    exact h.apart j j' r (hens j r hj).2 (hens j' r hj').2
  · intro j j' account key hj hj'
    obtain hold | ⟨hi, hnone⟩ := hcomms j account key hj
    · obtain hold' | ⟨-, hnone⟩ := hcomms j' account key hj'
      · exact h.single j j' account key hold hold'
      · exact absurd hold (hnone j)
    · obtain hold' | ⟨hi', -⟩ := hcomms j' account key hj'
      · exact absurd hold' (hnone j')
      · exact hi.trans hi'.symm

omit h

/-! ## Moving a scan -/

theorem scan_stores (hmoved : Scan.Moved initial system.stores scan' effect) :
    (system.stores.apply effect).state = system.stores.state ∧
      (system.stores.apply effect).writes = system.stores.writes ∧
      (system.stores.apply effect).intents = system.stores.intents ∧
      (system.stores.apply effect).references = system.stores.references := by
  obtain rfl | ⟨intent, compl, rfl⟩ := hmoved.completes
  · exact ⟨rfl, rfl, rfl, rfl⟩
  · exact ⟨rfl, rfl, rfl, rfl⟩

include h

theorem Inv.scan (hmoved : Scan.Moved initial system.stores scan' effect) :
    Inv initial { system with
      stores := system.stores.apply effect
      scans := system.scans.set i scan' } := by
  have hgrows := hmoved.allowed.grows
  obtain ⟨-, -, hintents, hrefs⟩ := scan_stores hmoved
  refine ⟨h.stores.apply hmoved.allowed, ?_, ?_, ?_, ?_, h.apart, h.single⟩
  · intro reference href
    rw [hrefs]
    exact h.seeded reference href
  · intro j call hcall
    exact (h.calls j call hcall).grows hgrows
  · intro scan hscan
    cases mem_or_eq_of_mem_set hscan with
    | inl hold => exact (h.scans scan hold).grows hgrows
    | inr hnew => rw [hnew]; exact hmoved.inv
  · intro j r hr path stored hstored
    rw [hintents] at hstored
    exact h.unused j r hr path stored hstored

/-! ## Runs -/

theorem Inv.step (action : Action sha256) : Inv initial (system.step libs initial action) := by
  cases action with
  | publish request reference clock =>
    unfold System.step
    dsimp only
    split_ifs with href
    · exact h
    · exact h.publish request clock href
  | move i ans =>
    unfold System.step
    dsimp only
    split
    case h_1 call hcall =>
      split_ifs with hfresh
      · refine h.move hcall (Call.next_moved h.stores (h.calls i call hcall) ?_ (of_decide_eq_true hfresh))
        intro mutation intent hphase
        exact h.unused i _ ⟨call, mutation, intent, hcall, hphase, rfl⟩
      · exact h
    · exact h
  | reconcile layout =>
    refine ⟨h.stores, h.seeded, h.calls, ?_, h.unused, h.apart, h.single⟩
    intro scan hscan
    cases mem_append.mp hscan with
    | inl hold => exact h.scans scan hold
    | inr hnew => rw [mem_singleton.mp hnew]; exact trivial
  | scan i ans =>
    unfold System.step
    dsimp only
    split
    case h_1 scan hscan => exact h.scan (Scan.next_moved h.stores (h.scans scan (mem_of_getElem? hscan)) ans)
    · exact h

omit h

theorem inv_of_reachable (h : Reachable (systems sha256 libs initial) system) : Inv initial system := by
  refine Reachable.invariant (Inv.new initial) ?_ h
  rintro system _ hinv ⟨action, rfl⟩
  exact hinv.step action

end System

/-! ## What publishing guarantees -/

def Write.IsFor (write : Write sha256) (account : AccountId) (key : String) : Prop :=
  write.request.target.accountId = account ∧ write.request.idempotencyKey = key

def PublishedStyle.Reports (published : PublishedStyle) (write : Write sha256) : Prop :=
  published.version.asUpdateVersion = write.version ∧ published.location.path = write.path ∧
    published.contentSha256 = digestHex sha256 styleDigestDomain write.request.body

def CompletedMutation.Reports (completed : CompletedMutation) (write : Write sha256) : Prop :=
  completed.stateVersion.asUpdateVersion = write.version ∧
    completed.stateSha256 = (styleCommit sha256 write.request.location
      (digestHex sha256 styleDigestDomain write.request.body) completed.stateVersion).stateSha256

theorem Committed.reports (hsha : Function.Injective sha256) {intent : MutationIntent}
    {comm : StateCommit} (h : Committed stores intent comm)
    (hacct : intent.target.accountId = account) (hkey : mutationKeySha256 sha256 key = .ok intent.keySha256) :
    ∃ write ∈ stores.writes, write.IsFor account key ∧ comm.response.Reports write ∧
      CompletedMutation.Reports ⟨comm.version, comm.stateSha256⟩ write := by
  obtain ⟨write, hwrite, hbound, -, loc, ver, hpath, hver, rfl⟩ := h
  have hisFor : write.IsFor account key :=
    ⟨hbound.account.symm.trans hacct, mutationKeySha256_injective hsha hbound.key hkey⟩
  have hcont := write.request.isContent
  refine ⟨write, hwrite, hisFor, ⟨hver, hpath, hcont⟩, hver, ?_⟩
  have hplace : loc.path = write.request.location.path := hpath
  rw [← hcont]
  unfold styleCommit
  rw [hplace]

/-- Writes for one account and key run under one intent, so they name the same place and the same version to
replace; a chain has one such write at most. -/
theorem StoresInv.write_unique (h : StoresInv initial stores) (hsha : Function.Injective sha256)
    {i j : ℕ} {write write' : Write sha256} (hi : stores.writes[i]? = some write) (hj : stores.writes[j]? = some write')
    (hfor : write.IsFor account key) (hfor' : write'.IsFor account key) : i = j := by
  obtain ⟨intent, hbound, -⟩ := h.bound write (mem_of_getElem? hi)
  obtain ⟨intent', hbound', -⟩ := h.bound write' (mem_of_getElem? hj)
  obtain rfl := hbound.same_intent hbound' (hfor.1.trans hfor'.1.symm) (hfor.2.trans hfor'.2.symm)
  obtain ⟨hpath, hpre, -⟩ := hbound.same_input hsha hbound'
  refine h.chained.replaced_injective hi hj hpath ?_
  rw [h.expected write (mem_of_getElem? hi), h.expected write' (mem_of_getElem? hj), hpre]

/-- What holds of the stores, of every result and of every scan, whatever the calls and the stores do. -/
structure ExactlyOnce (libs : StyleLibraries) (initial : HashMap String StyleObject)
    (system : System sha256) : Prop where
  once : ∀ (i j : ℕ) write write' account key, system.stores.writes[i]? = some write →
    system.stores.writes[j]? = some write' → write.IsFor account key → write'.IsFor account key → i = j
  /-- A write replaced the version that its precondition names, and no other write came in between. -/
  chain : ∀ (n : ℕ) write, system.stores.writes[n]? = some write →
    write.replaced = write.request.precondition.expected ∧ write.replaced =
      CasLog.latest Write.path Write.version (Stores.initialVersion initial) (system.stores.writes.take n) write.path
  current : ∀ path, (system.stores.state.lookup path).map StyleObject.version =
    CasLog.latest Write.path Write.version (Stores.initialVersion initial) system.stores.writes path
  written : ∀ path object, system.stores.state.lookup path = some object → initial.lookup path = some object ∨
    ∃ write ∈ system.stores.writes, write.path = path ∧ object.body = write.request.body ∧ object.version = write.version
  committed : ∀ (i : ℕ) call published, system.calls[i]? = some call →
    call.phase = .returned (.ok (.committed published)) → ∃ write ∈ system.stores.writes,
      write.IsFor call.request.target.accountId call.request.idempotencyKey ∧ published.Reports write
  alreadyCompleted : ∀ (i : ℕ) call completed, system.calls[i]? = some call →
    call.phase = .returned (.ok (.alreadyCompleted completed)) → ∃ write ∈ system.stores.writes,
      write.IsFor call.request.target.accountId call.request.idempotencyKey ∧ completed.Reports write
  completion : ∀ account key digest completion, mutationKeySha256 sha256 key = .ok digest →
    system.stores.completions.lookup (MutationPaths.fromParts account digest).completion = some completion →
      ∃ write ∈ system.stores.writes, write.IsFor account key ∧ completion.completed.Reports write
  single : ∀ i j account key, system.Commits i account key → system.Commits j account key → i = j
  /-- A move of a scan leaves the style objects, their writes and the intents alone. -/
  reconciled : ∀ (i : ℕ) answer, (system.step libs initial (.scan i answer)).stores.state = system.stores.state ∧
    (system.step libs initial (.scan i answer)).stores.writes = system.stores.writes ∧
    (system.step libs initial (.scan i answer)).stores.intents = system.stores.intents

theorem System.Inv.reconciled {system : System sha256} (h : System.Inv initial system) (i : ℕ) (ans : Answer) :
    (system.step libs initial (.scan i ans)).stores.state = system.stores.state ∧
      (system.step libs initial (.scan i ans)).stores.writes = system.stores.writes ∧
      (system.step libs initial (.scan i ans)).stores.intents = system.stores.intents := by
  unfold System.step
  dsimp only
  split
  case h_1 scan hscan =>
    have hmoved : Scan.Moved initial system.stores (scan.next libs system.stores ans).1
        (scan.next libs system.stores ans).2 :=
      Scan.next_moved h.stores (h.scans scan (mem_of_getElem? hscan)) ans
    obtain ⟨hstate, hwrites, hintents, -⟩ := System.scan_stores hmoved
    exact ⟨hstate, hwrites, hintents⟩
  · exact ⟨rfl, rfl, rfl⟩

theorem publishing_exactly_once (hsha : Function.Injective sha256) {system : System sha256}
    (h : Reachable (systems sha256 libs initial) system) : ExactlyOnce libs initial system := by
  have hinv := System.inv_of_reachable h
  refine ⟨?_, ?_, hinv.stores.state, ?_, ?_, ?_, ?_, hinv.single, hinv.reconciled⟩
  · intro i j write write' account key hi hj hfor hfor'
    exact hinv.stores.write_unique hsha hi hj hfor hfor'
  · intro n write hwrite
    exact ⟨hinv.stores.expected write (mem_of_getElem? hwrite), hinv.stores.chained.replaced n write hwrite⟩
  · intro path object hobject
    obtain hinitial | ⟨write, hwrite, hpath, rfl⟩ := hinv.stores.objects path object hobject
    · exact .inl hinitial
    · exact .inr ⟨write, hwrite, hpath, rfl, rfl⟩
  · intro i call published hcall hphase
    have hknown := hinv.calls i call hcall
    rw [hphase] at hknown
    obtain ⟨intent, committed, hbound, hcommitted, rfl, -⟩ := hknown
    obtain ⟨write, hwrite, hfor, hreports, -⟩ := hcommitted.reports hsha hbound.account hbound.key
    exact ⟨write, hwrite, hfor, hreports⟩
  · intro i call completed hcall hphase
    have hknown := hinv.calls i call hcall
    rw [hphase] at hknown
    obtain ⟨intent, committed, hbound, hcommitted, rfl⟩ := hknown
    obtain ⟨write, hwrite, hfor, -, hreports⟩ := hcommitted.reports hsha hbound.account hbound.key
    exact ⟨write, hwrite, hfor, hreports⟩
  · intro account key digest completion hkey hlookup
    obtain ⟨intent, committed, hpath, hcommitted, hcompleted⟩ := hinv.stores.completions _ _ hlookup
    obtain ⟨haccount, rfl⟩ := MutationPaths.completion_injective hpath
    obtain ⟨write, hwrite, hfor, -, hreports⟩ := hcommitted.reports hsha haccount.symm hkey
    rw [hcompleted]
    exact ⟨write, hwrite, hfor, hreports⟩

namespace Example

def plainLibraries : StyleLibraries := ⟨fun _ => some ⟨true, some 8⟩, .ok⟩

def request : PublishStyleRequest id where
  idempotencyKey := "first"
  actor := ⟨.human, "issuer", "subject"⟩
  target := ⟨⟨"acme", by decide +kernel⟩, .style, ⟨"base", by decide +kernel⟩⟩
  location := ⟨"styles/acme/base.json", "acme/base", .flat, by decide +kernel⟩
  precondition := .mustNotExist
  body := utf8 "\x7b\x7d"
  contentSha256 := digestHex id styleDigestDomain (utf8 "\x7b\x7d")
  requestId := "request"
  isStyle := rfl
  isContent := rfl

def version : UpdateVersion := ⟨some "1", none⟩

/-- The first call writes the style and never hears of it; a scan completes its intent while a second call with
the same key is on its way to do so. -/
def retried : List (System.Action id) :=
  let intent := (MutationPaths.fromParts request.target.accountId
    (digestHex id (utf8 "abashiri-idempotency-key-v1\x00") (utf8 "first"))).intent
  [.publish request "a" (some 0), .move 0 {}, .move 0 {}, .move 0 {}, .move 0 { delivery := .lost, version },
    .publish request "b" (some 1), .move 1 {}, .move 1 {}, .move 1 {}, .move 1 {},
    .reconcile .flat, .scan 0 { listed := some intent }, .scan 0 {}, .scan 0 {}, .scan 0 {}, .scan 0 {},
    .move 1 {}, .move 1 {}]

def afterRetry : System id := retried.foldl (System.step plainLibraries ∅) (.new ∅)

theorem afterRetry_exactly_once :
    (afterRetry.stores.writes.length = 1 ∧ afterRetry.stores.completions.keys.length = 1 ∧
      afterRetry.calls.map (fun call => match call.phase with
        | .returned (.ok (.alreadyCompleted completed)) => some completed.stateVersion.asUpdateVersion
        | _ => none) = [none, some version]) ∧
      ExactlyOnce plainLibraries ∅ afterRetry :=
  ⟨by decide +kernel,
    publishing_exactly_once Function.injective_id (reachable_foldl (System.step plainLibraries ∅) (.new ∅) retried)⟩

end Example

end Mappf.Abashiri
