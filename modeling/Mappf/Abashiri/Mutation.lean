import Mappf.Lib.Fallible
import Mappf.Lib.Text

/-! # The mutation journal's records

`mutation.rs`: who asked for which mutation, the immutable intent written before the state, the immutable
completion written after it, and where both are kept. Only digests of the idempotency key and of the input are
stored. SHA-256 is a parameter. JSON is taken to be faithful, so the journal holds the records themselves. -/
namespace Mappf.Abashiri

def schemaVersion : ℕ := 2
def maxAccountIdLen : ℕ := 64
def maxLocalIdLen : ℕ := 128
def maxStateLocatorLen : ℕ := 1024
def maxVersionPartLen : ℕ := 1024
def maxRequestIdLen : ℕ := 128

/-! ## Identities -/

structure IdentityError where
  field : String
  reason : String
  deriving DecidableEq

def isPathIdByte (byte : UInt8) : Bool :=
  isAsciiAlphanumeric byte || byte == 0x2d || byte == 0x5f

def validatePathId (field value : String) (maxLen : ℕ) : Except IdentityError Unit :=
  if value.isEmpty ∨ maxLen < value.utf8ByteSize then .error ⟨field, "has an invalid length"⟩
  else if (utf8 value).all isPathIdByte = false then
    .error ⟨field, "must contain only ASCII letters, digits, '-' or '_'"⟩
  else .ok ()

def validateBoundedText (field value : String) (maxLen : ℕ) : Except IdentityError Unit :=
  if value.isEmpty ∨ maxLen < value.utf8ByteSize then .error ⟨field, "has an invalid length"⟩
  else if value.toList.any isControl then .error ⟨field, "must not contain control characters"⟩
  else .ok ()

structure AccountId where
  value : String
  valid : validatePathId "account_id" value maxAccountIdLen = .ok ()
  deriving DecidableEq

structure LocalResourceId where
  value : String
  valid : validatePathId "local resource id" value maxLocalIdLen = .ok ()
  deriving DecidableEq

inductive ActorKind
  | human
  | workload
  deriving DecidableEq

structure Actor where
  kind : ActorKind
  issuer : String
  subject : String
  deriving DecidableEq

inductive ResourceKind
  | style
  | sprite
  | tileset
  | token
  deriving DecidableEq

structure ResourceTarget where
  accountId : AccountId
  kind : ResourceKind
  localId : LocalResourceId
  deriving DecidableEq

inductive MutationAction
  | create
  | update
  | delete
  | publish
  deriving DecidableEq

def isTokenByte (byte : UInt8) : Bool :=
  isAsciiAlphanumeric byte || "!#$%&'*+-.^_`|~".toList.any (fun c => c.toNat == byte.toNat)

/-- `RequestId::try_new` -/
def isRequestId (value : String) : Bool :=
  !value.isEmpty && value.utf8ByteSize ≤ maxRequestIdLen && (utf8 value).all isTokenByte

def digestHex (sha256 : Bytes → Bytes) (domain value : Bytes) : String :=
  hex (sha256 (domain ++ value))

def mutationKeySha256 (sha256 : Bytes → Bytes) (idempotencyKey : String) : Except IdentityError String :=
  if isRequestId idempotencyKey then .ok (digestHex sha256 (utf8 "abashiri-idempotency-key-v1\x00") (utf8 idempotencyKey))
  else .error ⟨"idempotency key", "must be a 1..=128 byte RFC 7230 token"⟩

/-! ## Versions -/

/-- What a store reports about the version of an object, and what a conditional update names. -/
structure UpdateVersion where
  eTag : Option String
  version : Option String
  deriving DecidableEq

structure VersionEvidence where
  eTag : Option String
  version : Option String
  present : (eTag.isSome || version.isSome) = true
  bounded : [eTag, version].all (Option.all (boundedLabel maxVersionPartLen)) = true
  deriving DecidableEq

namespace VersionEvidence

def tryNew (eTag version : Option String) : Fallible VersionEvidence :=
  if hpresent : (eTag.isSome || version.isSome) = true then
    if hbounded : [eTag, version].all (Option.all (boundedLabel maxVersionPartLen)) = true then
      .ok ⟨eTag, version, hpresent, hbounded⟩
    else bail "state object returned invalid version evidence"
  else bail "state object has neither an ETag nor a version"

def fromMeta (version : UpdateVersion) : Fallible VersionEvidence :=
  context "state object returned invalid version evidence" (tryNew version.eTag version.version)

def tryFromPut (version : UpdateVersion) : Fallible VersionEvidence :=
  context "state write returned unusable version evidence" (tryNew version.eTag version.version)

def asUpdateVersion (evidence : VersionEvidence) : UpdateVersion where
  eTag := evidence.eTag
  version := evidence.version

end VersionEvidence

/-! ## Requests, intents and completions -/

structure MutationRequest where
  keySha256 : String
  actor : Actor
  action : MutationAction
  target : ResourceTarget
  inputSha256 : String
  requestId : String
  stateLocator : Option String

namespace MutationRequest

def tryNew (sha256 : Bytes → Bytes) (idempotencyKey : String) (actor : Actor) (action : MutationAction)
    (target : ResourceTarget) (canonicalInput : Bytes) (requestId : String) : Except IdentityError MutationRequest := do
  let keySha256 ← mutationKeySha256 sha256 idempotencyKey
  return { keySha256, actor, action, target
           inputSha256 := digestHex sha256 (utf8 "abashiri-mutation-input-v1\x00") canonicalInput
           requestId
           stateLocator := none }

def withStateLocator (request : MutationRequest) (value : String) : Except IdentityError MutationRequest := do
  validateBoundedText "state locator" value maxStateLocatorLen
  return { request with stateLocator := some value }

end MutationRequest

structure MutationIntent where
  schemaVersion : ℕ
  keySha256 : String
  stateReference : String
  actor : Actor
  action : MutationAction
  target : ResourceTarget
  inputSha256 : String
  firstRequestId : String
  createdAtUnixMs : ℕ
  stateLocator : Option String

namespace MutationIntent

/-- The record `ensure_intent` tries to create. -/
def ofRequest (request : MutationRequest) (stateReference : String) (createdAtUnixMs : ℕ) : MutationIntent where
  schemaVersion := Abashiri.schemaVersion
  keySha256 := request.keySha256
  stateReference := stateReference
  actor := request.actor
  action := request.action
  target := request.target
  inputSha256 := request.inputSha256
  firstRequestId := request.requestId
  createdAtUnixMs := createdAtUnixMs
  stateLocator := request.stateLocator

def matchesRequest (intent : MutationIntent) (request : MutationRequest) : Bool :=
  intent.schemaVersion == Abashiri.schemaVersion && intent.keySha256 == request.keySha256 &&
    intent.actor == request.actor && intent.action == request.action && intent.target == request.target &&
    intent.inputSha256 == request.inputSha256 &&
    intent.stateLocator.all (fun stored => some stored == request.stateLocator)

end MutationIntent

structure MutationCompletion where
  schemaVersion : ℕ
  keySha256 : String
  stateVersion : VersionEvidence
  stateSha256 : String
  completedAtUnixMs : ℕ

def MutationCompletion.sameResult (self other : MutationCompletion) : Bool :=
  self.schemaVersion == other.schemaVersion && self.keySha256 == other.keySha256 &&
    self.stateVersion == other.stateVersion && self.stateSha256 == other.stateSha256

structure CompletedMutation where
  stateVersion : VersionEvidence
  stateSha256 : String

def MutationCompletion.completed (completion : MutationCompletion) : CompletedMutation where
  stateVersion := completion.stateVersion
  stateSha256 := completion.stateSha256

inductive Execution (α : Type)
  | committed (response : α)
  | alreadyCompleted (completed : CompletedMutation)

/-! ## Places in the journal -/

structure MutationPaths where
  intent : String
  completion : String

def MutationPaths.fromParts (accountId : AccountId) (keySha256 : String) : MutationPaths where
  intent := "journal/" ++ accountId.value ++ "/mutations/" ++ keySha256 ++ "/intent.json"
  completion := "journal/" ++ accountId.value ++ "/mutations/" ++ keySha256 ++ "/completion.json"

def MutationRequest.paths (request : MutationRequest) : MutationPaths :=
  .fromParts request.target.accountId request.keySha256

def MutationIntent.paths (intent : MutationIntent) : MutationPaths :=
  .fromParts intent.target.accountId intent.keySha256

/-! ## Specifications -/

variable {sha256 : Bytes → Bytes}

theorem digestHex_injective (hsha : Function.Injective sha256) {domain a b : Bytes}
    (h : digestHex sha256 domain a = digestHex sha256 domain b) : a = b :=
  List.append_cancel_left (hsha (hex_injective h))

theorem mutationKeySha256_eq_ok {key digest : String} (h : mutationKeySha256 sha256 key = .ok digest) :
    digest = digestHex sha256 (utf8 "abashiri-idempotency-key-v1\x00") (utf8 key) := by
  unfold mutationKeySha256 at h
  split_ifs at h
  cases h
  rfl

theorem mutationKeySha256_injective (hsha : Function.Injective sha256) {a b digest : String}
    (ha : mutationKeySha256 sha256 a = .ok digest) (hb : mutationKeySha256 sha256 b = .ok digest) : a = b := by
  have hdig := (mutationKeySha256_eq_ok ha).symm.trans (mutationKeySha256_eq_ok hb)
  exact utf8_injective (digestHex_injective hsha hdig)

namespace VersionEvidence

variable {evidence : VersionEvidence}

theorem tryNew_eq_ok {eTag ver : Option String} (h : tryNew eTag ver = .ok evidence) :
    evidence.asUpdateVersion = ⟨eTag, ver⟩ := by
  unfold tryNew at h
  split_ifs at h
  · cases h
    rfl
  · cases h
  · cases h

theorem fromMeta_eq_ok {ver : UpdateVersion} (h : fromMeta ver = .ok evidence) : evidence.asUpdateVersion = ver :=
  tryNew_eq_ok (context_eq_ok.mp h)

theorem tryFromPut_eq_ok {ver : UpdateVersion} (h : tryFromPut ver = .ok evidence) : evidence.asUpdateVersion = ver :=
  tryNew_eq_ok (context_eq_ok.mp h)

theorem asUpdateVersion_injective {a b : VersionEvidence} (h : a.asUpdateVersion = b.asUpdateVersion) : a = b := by
  cases a
  cases b
  cases h
  rfl

end VersionEvidence

/-- The parts of a request that the journal fixes for its key. -/
theorem MutationIntent.matchesRequest_iff {intent : MutationIntent} {req : MutationRequest} :
    intent.matchesRequest req = true ↔
      intent.schemaVersion = Abashiri.schemaVersion ∧ intent.keySha256 = req.keySha256 ∧
        intent.actor = req.actor ∧ intent.action = req.action ∧ intent.target = req.target ∧
        intent.inputSha256 = req.inputSha256 ∧
        ∀ stored, intent.stateLocator = some stored → some stored = req.stateLocator := by
  simp [matchesRequest, Option.all_eq_true, and_assoc]

theorem MutationIntent.ofRequest_matches (req : MutationRequest) (reference : String) (createdAt : ℕ) :
    (ofRequest req reference createdAt).matchesRequest req = true := by
  rw [matchesRequest_iff]
  exact ⟨rfl, rfl, rfl, rfl, rfl, rfl, fun _ h => h.symm⟩

/-- An account has no slash, so a place in the journal determines its account and its key. -/
theorem AccountId.slash_notMem (acct : AccountId) : (0x2f : UInt8) ∉ utf8 acct.value := by
  intro hmem
  have hvalid := acct.valid
  unfold validatePathId at hvalid
  split_ifs at hvalid with _ hbytes
  rw [Bool.not_eq_false, List.all_eq_true] at hbytes
  have hslash := hbytes _ hmem
  revert hslash
  decide

theorem MutationPaths.completion_injective {acct acct' : AccountId} {key key' : String}
    (h : (fromParts acct key).completion = (fromParts acct' key').completion) : acct = acct' ∧ key = key' := by
  have hbytes := congrArg utf8 h
  have hsplit : utf8 "/mutations/" = 0x2f :: utf8 "mutations/" := by decide +kernel
  simp only [fromParts, utf8_append, List.append_assoc, hsplit, List.cons_append] at hbytes
  have hrest := List.append_cancel_left hbytes
  obtain ⟨hacct, hkey⟩ := append_cons_inj acct.slash_notMem acct'.slash_notMem hrest
  refine ⟨?_, utf8_injective (List.append_cancel_right (List.append_cancel_left hkey))⟩
  have hvalue := utf8_injective hacct
  cases acct
  cases acct'
  cases hvalue
  rfl

end Mappf.Abashiri
