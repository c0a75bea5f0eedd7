import Mappf.Abashiri.Publisher

/-! # What the journal and the style store agree on

An intent, once stored, fixes the reference, the place and the input of its key. A style object that names a
reference was written under the intent of that reference, and everything a completion or a result reports is
read off that write. All of it survives any change of the stores, because nothing stored is taken back
(`Grows`). -/
namespace Mappf.Abashiri

variable {sha256 : Bytes → Bytes} {libs : StyleLibraries}

/-! ## What is written stays -/

structure Grows (stores stores' : Stores sha256) : Prop where
  intents : ∀ path intent, stores.intents.lookup path = some intent → stores'.intents.lookup path = some intent
  completions : ∀ path completion, stores.completions.lookup path = some completion →
    stores'.completions.lookup path = some completion
  references : ∀ reference ∈ stores.references, reference ∈ stores'.references
  writes : ∀ write ∈ stores.writes, write ∈ stores'.writes

/-- The request runs under the stored intent, for its key, its place and its input. -/
structure Bound (stores : Stores sha256) (request : PublishStyleRequest sha256) (intent : MutationIntent) : Prop where
  stored : stores.intents.lookup intent.paths.intent = some intent
  key : mutationKeySha256 sha256 request.idempotencyKey = .ok intent.keySha256
  account : intent.target.accountId = request.target.accountId
  locator : intent.stateLocator = some request.location.path
  input : intent.inputSha256 = digestHex sha256 (utf8 "abashiri-mutation-input-v1\x00")
    (styleInputIdentity request.location request.precondition request.body)

def Committed (stores : Stores sha256) (intent : MutationIntent) (committed : StateCommit) : Prop :=
  ∃ write ∈ stores.writes, Bound stores write.request intent ∧ write.reference = intent.stateReference ∧
    ∃ (location : StyleObjectPath) (version : VersionEvidence), location.path = write.path ∧
      version.asUpdateVersion = write.version ∧
      committed = styleCommit sha256 location write.request.contentSha256 version

variable {stores stores' : Stores sha256} {req : PublishStyleRequest sha256}

namespace Grows

theorem refl (stores : Stores sha256) : Grows stores stores :=
  ⟨fun _ _ h => h, fun _ _ h => h, fun _ h => h, fun _ h => h⟩

theorem reference (stores : Stores sha256) (reference : String) :
    Grows stores { stores with references := reference :: stores.references } :=
  ⟨fun _ _ h => h, fun _ _ h => h, fun _ h => List.mem_cons_of_mem _ h, fun _ h => h⟩

variable {intent : MutationIntent}

theorem bound (h : Grows stores stores') (hbound : Bound stores req intent) : Bound stores' req intent :=
  { hbound with stored := h.intents _ _ hbound.stored }

theorem committed (h : Grows stores stores') {comm : StateCommit}
    (hcomm : Committed stores intent comm) : Committed stores' intent comm := by
  obtain ⟨write, hwrite, hbound, href, hcommit⟩ := hcomm
  exact ⟨write, h.writes write hwrite, h.bound hbound, href, hcommit⟩

end Grows

/-! ## Requests and the mutations made of them -/

theorem PublishStyleRequest.mutation_eq_ok {mutation : MutationRequest} (h : req.mutation = .ok mutation) :
    mutationKeySha256 sha256 req.idempotencyKey = .ok mutation.keySha256 ∧ mutation.target = req.target ∧
      mutation.stateLocator = some req.location.path ∧
      mutation.inputSha256 = digestHex sha256 (utf8 "abashiri-mutation-input-v1\x00")
        (styleInputIdentity req.location req.precondition req.body) := by
  obtain ⟨base, hbase, hloc⟩ := bind_eq_ok.mp h
  obtain ⟨key, hkey, hbase⟩ := bind_eq_ok.mp hbase
  cases hbase
  obtain ⟨_, _, hmut⟩ := bind_eq_ok.mp hloc
  cases hmut
  exact ⟨hkey, rfl, rfl, rfl⟩

variable {intent : MutationIntent} {loc : StyleObjectPath} {contentSha256 : String}
  {req' : PublishStyleRequest sha256} {comm : StateCommit} {ver : VersionEvidence} {cur : StyleObject}

theorem Bound.of_matches {mutation : MutationRequest}
    (hmut : req.mutation = .ok mutation) (hmatch : intent.matchesRequest mutation = true)
    (hloc : intent.stateLocator.isSome = true) (hstored : stores.intents.lookup intent.paths.intent = some intent) :
    Bound stores req intent := by
  obtain ⟨hkey, htgt, hplace, hinput⟩ := PublishStyleRequest.mutation_eq_ok hmut
  obtain ⟨-, hkey', -, -, htgt', hinput', hplace'⟩ := MutationIntent.matchesRequest_iff.mp hmatch
  obtain ⟨locator, hsome⟩ := Option.isSome_iff_exists.mp hloc
  refine ⟨hstored, by rw [hkey, hkey'], by rw [htgt', htgt], ?_, by rw [hinput', hinput]⟩
  rw [hsome, hplace' locator hsome, hplace]

theorem Bound.same_input (hsha : Function.Injective sha256)
    (h : Bound stores req intent) (h' : Bound stores req' intent) :
    req.location.path = req'.location.path ∧ req.precondition = req'.precondition ∧
      req.body = req'.body := by
  have hpath : req.location.path = req'.location.path :=
    Option.some.inj (h.locator.symm.trans h'.locator)
  have hidentity := digestHex_injective hsha (h.input.symm.trans h'.input)
  exact ⟨hpath, styleInputIdentity_injective hpath hidentity⟩

/-- Requests of one account and one key run under the same intent. -/
theorem Bound.same_intent {intent' : MutationIntent} (h : Bound stores req intent) (h' : Bound stores req' intent')
    (hacct : req.target.accountId = req'.target.accountId)
    (hkey : req.idempotencyKey = req'.idempotencyKey) : intent = intent' := by
  have hkeys : intent.keySha256 = intent'.keySha256 := by
    have hdig := h.key
    rw [hkey, h'.key] at hdig
    exact (Except.ok.inj hdig).symm
  have hpaths : intent.paths = intent'.paths := by
    rw [MutationIntent.paths, MutationIntent.paths, h.account, h'.account, hacct, hkeys]
  have hstored := h.stored
  rw [hpaths, h'.stored] at hstored
  exact (Option.some.inj hstored).symm

/-! ## Commits -/

theorem styleCommitFromPut_eq_ok {res : UpdateVersion}
    (h : styleCommitFromPut sha256 loc contentSha256 res = .ok comm) :
    ∃ ver : VersionEvidence, ver.asUpdateVersion = res ∧ comm = styleCommit sha256 loc contentSha256 ver := by
  obtain ⟨ver, hver, hcomm⟩ := bind_eq_ok.mp h
  cases hcomm
  exact ⟨ver, VersionEvidence.tryFromPut_eq_ok hver, rfl⟩

theorem styleCommitFromCurrent_eq_ok
    (h : styleCommitFromCurrent sha256 libs.decodeJson cur loc ver = .ok (comm, contentSha256)) :
    contentSha256 = digestHex sha256 styleDigestDomain cur.body ∧
      comm = styleCommit sha256 loc contentSha256 ver := by
  unfold styleCommitFromCurrent at h
  split_ifs at h
  · cases h
  · cases h
  · obtain ⟨_, _, hcomm⟩ := bind_eq_ok.mp h
    cases hcomm
    exact ⟨rfl, rfl⟩

theorem existingStyleCommit_eq_ok (h : existingStyleCommit sha256 libs.decodeJson cur loc contentSha256 ver = .ok comm) :
    comm = styleCommit sha256 loc (digestHex sha256 styleDigestDomain cur.body) ver := by
  obtain ⟨⟨found, observed⟩, hfound, hcomm⟩ := bind_eq_ok.mp h
  obtain ⟨hobs, hcommit⟩ := styleCommitFromCurrent_eq_ok hfound
  dsimp only at hcomm
  split_ifs at hcomm
  · cases hcomm
    rw [hcommit, hobs]
  · cases hcomm

theorem Phase.ofCommit_cases (intent : MutationIntent) (comm : Fallible StateCommit) :
    (∃ failure, Phase.ofCommit intent comm = .returned (.error (.failed failure))) ∨
      ∃ commit, comm = .ok commit ∧ Phase.ofCommit intent comm = .completing intent commit := by
  unfold ofCommit
  split
  case h_1 commit hcommit => exact .inr ⟨commit, context_eq_ok.mp hcommit, rfl⟩
  case h_2 failure _ => exact .inl ⟨failure, rfl⟩

end Mappf.Abashiri
