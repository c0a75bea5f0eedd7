import Mappf.Auth.Credential
import Mappf.Lib.HashMap
import Mappf.Lib.SortedVec

/-! # Registry snapshots and grants

`policy.rs`: a registry document, the normalised grants a snapshot keeps of it, and the check of one
request against one grant. The JSON decoder and the URL parser are parameters; of a parsed URL only the
parts the checks look at are kept. -/
namespace Mappf.Auth

def maxCredentialsPerRegistry : ℕ := 100000
def maxPrincipalIdBytes : ℕ := 256
def maxNamespacesPerCredential : ℕ := 1024
def maxOriginsPerCredential : ℕ := 128

inductive DeliveryAction
  | renderStatic
  | read
  deriving DecidableEq

structure GrantWire where
  enabled : Bool
  namespaces : List String
  actions : List DeliveryAction
  allowedOrigins : List String
  allowMissingOrigin : Bool

structure CredentialGrantWire extends GrantWire where
  credentialSha256 : String
  principalId : String

structure RegistrySnapshotWire where
  schemaVersion : UInt32
  registryId : String
  revision : UInt64
  anonymous : Option GrantWire
  credentials : List CredentialGrantWire

structure AuthorizationGrant where
  principalId : String
  enabled : Bool
  namespaces : List String
  actions : List DeliveryAction
  allowedOrigins : List String
  allowMissingOrigin : Bool
  deriving DecidableEq

structure RegistrySnapshot where
  revision : UInt64
  anonymous : Option AuthorizationGrant
  credentials : HashMap Bytes AuthorizationGrant

structure Url where
  scheme : String
  host : Option String
  username : String
  password : Option String
  path : String
  query : Option String
  fragment : Option String
  /-- `origin().ascii_serialization()` -/
  origin : String

/-! ## Origins -/

def Url.isPlainHttp (url : Url) : Bool :=
  (url.scheme == "http" || url.scheme == "https") && url.host.isSome && url.username.isEmpty && url.password.isNone

def normalizeDeclaredOrigin (parseUrl : String → Option Url) (raw : String) : Fallible String :=
  match parseUrl raw with
  | none => bail "parse origin"
  | some url =>
    if !url.isPlainHttp || url.path != "/" || url.query.isSome || url.fragment.isSome then
      bail "origin must be HTTP(S)"
    else if url.origin == "null" then bail "opaque origins are not supported"
    else .ok url.origin

def normalizeRefererOrigin (parseUrl : String → Option Url) (raw : String) : Fallible String :=
  match parseUrl raw with
  | none => bail "parse referer"
  | some url =>
    if !url.isPlainHttp then bail "referer must be HTTP(S)"
    else if url.origin == "null" then bail "opaque origins are not supported"
    else .ok url.origin

def singleHeader (headers : HeaderMap) (name : HeaderName) : Except AuthFailure (Option String) :=
  match headers name with
  | [] => .ok none
  | [value] =>
    match value with
    | some text => .ok (some text)
    | none => .error .forbidden
  | _ :: _ :: _ => .error .forbidden

def headerOrigin (normalize : String → Fallible String) (headers : HeaderMap) (name : HeaderName) :
    Except AuthFailure (Option String) := do
  match ← singleHeader headers name with
  | none => .ok none
  | some raw =>
    match normalize raw with
    | .ok origin => .ok (some origin)
    | .error _ => .error .forbidden

/-- The origin a request claims: that of `Origin`, or else that of `Referer`. -/
def requestOrigin (parseUrl : String → Option Url) (headers : HeaderMap) : Except AuthFailure (Option String) := do
  match ← headerOrigin (normalizeDeclaredOrigin parseUrl) headers .origin with
  | some origin => .ok (some origin)
  | none => headerOrigin (normalizeRefererOrigin parseUrl) headers .referer

def authorizeOrigin (parseUrl : String → Option Url) (headers : HeaderMap) (grant : AuthorizationGrant) :
    Except AuthFailure Unit :=
  if grant.allowedOrigins.isEmpty then .ok ()
  else do
    match ← requestOrigin parseUrl headers with
    | some origin => if grant.allowedOrigins.any (· == origin) then .ok () else .error .forbidden
    | none => if grant.allowMissingOrigin then .ok () else .error .forbidden

/-! ## Grants -/

def validateBoundedLabel (name value : String) (maxBytes : ℕ) : Fallible Unit :=
  if !boundedLabel maxBytes value then
    bail (name ++ " must be non-empty, bounded, and contain no control characters")
  else .ok ()

def normalizeNamespaces (namespaces : List String) : List String :=
  if found (binarySearchBy (sortDedup namespaces) (fun value => compare value "*")) then ["*"]
  else sortDedup namespaces

variable (parseUrl : String → Option Url)

def normalizeGrant (principalId : String) (grant : GrantWire) : Fallible AuthorizationGrant := do
  validateBoundedLabel "principal_id" principalId maxPrincipalIdBytes
  if grant.namespaces.isEmpty || maxNamespacesPerCredential < grant.namespaces.length then
    bail "credential namespaces must be non-empty and bounded"
  else do
    grant.namespaces.forM (fun label => if label ≠ "*" then validateBoundedLabel "namespace" label 256 else .ok ())
    if grant.actions.isEmpty then bail "credential actions must not be empty"
    else if maxOriginsPerCredential < grant.allowedOrigins.length then
      bail "credential has too many allowed origins"
    else do
      let allowedOrigins ← grant.allowedOrigins.mapM (normalizeDeclaredOrigin parseUrl)
      .ok { principalId
            enabled := grant.enabled
            namespaces := normalizeNamespaces grant.namespaces
            actions := grant.actions
            allowedOrigins
            allowMissingOrigin := grant.allowMissingOrigin }

def namespaceAllowed (grant : AuthorizationGrant) (label : String) : Bool :=
  grant.namespaces.head? == some "*" ||
    found (binarySearchBy grant.namespaces (fun allowed => compare allowed label))

def authorizeGrant (headers : HeaderMap) (grant : AuthorizationGrant)
    (label : Option String) (action : DeliveryAction) : Except AuthFailure Unit :=
  if label.any (fun label => !namespaceAllowed grant label) || !grant.actions.contains action then
    .error .forbidden
  else authorizeOrigin parseUrl headers grant

/-! ## Snapshots -/

def insertCredential (credentials : HashMap Bytes AuthorizationGrant)
    (grant : CredentialGrantWire) : Fallible (HashMap Bytes AuthorizationGrant) := do
  let digest ← decodeSha256 grant.credentialSha256
  if credentials.contains digest then bail "auth registry contains a duplicate credential digest"
  else do
    let authorization ← normalizeGrant parseUrl grant.principalId grant.toGrantWire
    .ok (credentials.insert digest authorization)

def RegistrySnapshot.ofWire (expectedRegistryId : String) (wire : RegistrySnapshotWire) : Fallible RegistrySnapshot :=
  if wire.schemaVersion ≠ 1 then bail "unsupported auth registry schema_version"
  else if wire.registryId ≠ expectedRegistryId then bail "auth registry id does not match configured registry"
  else if maxCredentialsPerRegistry < wire.credentials.length then bail "auth registry has too many credentials"
  else do
    let anonymous ← wire.anonymous.mapM (normalizeGrant parseUrl "anonymous")
    let credentials ← wire.credentials.foldlM (insertCredential parseUrl) ∅
    .ok { revision := wire.revision, anonymous, credentials }

def RegistrySnapshot.parse (parseJson : Bytes → Option RegistrySnapshotWire) (parseUrl : String → Option Url)
    (expectedRegistryId : String) (body : Bytes) : Fallible RegistrySnapshot :=
  match parseJson body with
  | none => bail "parse auth registry JSON"
  | some wire => RegistrySnapshot.ofWire parseUrl expectedRegistryId wire

/-! ## What a grant allows -/

def OriginAllowed (headers : HeaderMap) (grant : GrantWire) : Prop :=
  grant.allowedOrigins = [] ∨
    (∃ origin raw, requestOrigin parseUrl headers = .ok (some origin) ∧ raw ∈ grant.allowedOrigins ∧
      normalizeDeclaredOrigin parseUrl raw = .ok origin) ∨
    (requestOrigin parseUrl headers = .ok none ∧ grant.allowMissingOrigin = true)

/-- The grant as its document states it covers the action, the namespace if there is one, and the origin. -/
structure GrantAllows (parseUrl : String → Option Url) (headers : HeaderMap) (grant : GrantWire)
    (label : Option String) (action : DeliveryAction) : Prop where
  action : action ∈ grant.actions
  label : ∀ l, label = some l → "*" ∈ grant.namespaces ∨ l ∈ grant.namespaces
  origin : OriginAllowed parseUrl headers grant

structure Normalized (parseUrl : String → Option Url) (principalId : String) (grant : GrantWire)
    (normalized : AuthorizationGrant) : Prop where
  principalId : normalized.principalId = principalId
  enabled : normalized.enabled = grant.enabled
  namespaces : normalized.namespaces = normalizeNamespaces grant.namespaces
  actions : normalized.actions = grant.actions
  origins : grant.allowedOrigins.mapM (normalizeDeclaredOrigin parseUrl) = .ok normalized.allowedOrigins
  missing : normalized.allowMissingOrigin = grant.allowMissingOrigin
  bounded : grant.namespaces ≠ [] ∧ grant.namespaces.length ≤ maxNamespacesPerCredential
  valid : ∀ label ∈ grant.namespaces, label = "*" ∨ boundedLabel 256 label = true

theorem validateBoundedLabel_eq_ok {name value : String} {maxBytes : ℕ}
    (h : validateBoundedLabel name value maxBytes = .ok ()) : boundedLabel maxBytes value = true := by
  unfold validateBoundedLabel at h
  by_cases hbdd : boundedLabel maxBytes value = true
  · exact hbdd
  · rw [if_pos (by simpa using hbdd)] at h
    cases h

variable {parseUrl : String → Option Url} {principalId : String} {grant : GrantWire} {normalized : AuthorizationGrant}
  {credentials' credentials : HashMap Bytes AuthorizationGrant} {snap : RegistrySnapshot} {reg : String}

theorem normalizeGrant_normalized (h : normalizeGrant parseUrl principalId grant = .ok normalized) :
    Normalized parseUrl principalId grant normalized := by
  obtain ⟨_, _, h⟩ := bind_eq_ok.mp h
  split_ifs at h with hsize hactions hmany
  · cases h
  · obtain ⟨_, _, h⟩ := bind_eq_ok.mp h
    cases h
  · obtain ⟨_, _, h⟩ := bind_eq_ok.mp h
    cases h
  obtain ⟨_, hlabels, h⟩ := bind_eq_ok.mp h
  obtain ⟨origins, horigs, h⟩ := bind_eq_ok.mp h
  cases h
  simp only [Bool.or_eq_true, List.isEmpty_iff, decide_eq_true_eq, not_or, not_lt] at hsize
  refine ⟨rfl, rfl, rfl, rfl, horigs, rfl, hsize, ?_⟩
  intro label hlabel
  have hvalid := forM_eq_ok.mp hlabels label hlabel
  by_cases hwild : label = "*"
  · exact .inl hwild
  · rw [if_pos hwild] at hvalid
    exact .inr (validateBoundedLabel_eq_ok hvalid)

theorem normalizeNamespaces_ascending (namespaces : List String) :
    (normalizeNamespaces namespaces).Pairwise (· < ·) := by
  unfold normalizeNamespaces
  split_ifs
  · exact List.pairwise_singleton _ _
  · exact sortDedup_ascending namespaces

theorem normalizeNamespaces_eq (namespaces : List String) :
    normalizeNamespaces namespaces = if "*" ∈ namespaces then ["*"] else sortDedup namespaces := by
  unfold normalizeNamespaces
  simp [binarySearch_found_iff (sortDedup_ascending namespaces), mem_sortDedup]

theorem namespaceAllowed_iff {namespaces : List String} (h : normalized.namespaces = normalizeNamespaces namespaces)
    (label : String) : namespaceAllowed normalized label = true ↔ "*" ∈ namespaces ∨ label ∈ namespaces := by
  have hascending := normalizeNamespaces_ascending namespaces
  unfold namespaceAllowed
  rw [h, Bool.or_eq_true, beq_iff_eq, binarySearch_found_iff hascending, normalizeNamespaces_eq]
  by_cases hwild : "*" ∈ namespaces
  · simp [hwild]
  · rw [if_neg hwild, mem_sortDedup]
    -- the head of the sorted list is a member, so it is not the wildcard
    have hhead : (sortDedup namespaces).head? ≠ some "*" :=
      fun hhead => hwild (mem_sortDedup.mp (List.mem_of_mem_head? hhead))
    simp [hwild, hhead]

theorem authorizeOrigin_iff (h : Normalized parseUrl principalId grant normalized) (headers : HeaderMap) :
    authorizeOrigin parseUrl headers normalized = .ok () ↔ OriginAllowed parseUrl headers grant := by
  have hmem := mapM_mem_iff h.origins
  unfold authorizeOrigin OriginAllowed
  by_cases hempty : grant.allowedOrigins = []
  · have hnone : normalized.allowedOrigins = [] := by
      have horigs := h.origins
      rw [hempty] at horigs
      exact (Except.ok.inj horigs).symm
    rw [if_pos (by rw [hnone]; rfl)]
    simp [hempty]
  · obtain ⟨raw, hraw⟩ := List.exists_mem_of_ne_nil _ hempty
    have hsome : normalized.allowedOrigins.isEmpty = false := by
      by_contra hnil
      rw [Bool.not_eq_false, List.isEmpty_iff] at hnil
      have horigs := h.origins
      rw [hnil] at horigs
      cases hallow : grant.allowedOrigins with
      | nil => exact hempty hallow
      | cons first rest =>
        rw [hallow, List.mapM_cons] at horigs
        obtain ⟨_, _, horigs⟩ := bind_eq_ok.mp horigs
        obtain ⟨_, _, horigs⟩ := bind_eq_ok.mp horigs
        exact nomatch Except.ok.inj horigs
    rw [if_neg (by rw [hsome]; decide), bind_eq_ok]
    constructor
    · rintro ⟨origin, horig, hchk⟩
      cases origin with
      | none =>
        simp only [h.missing] at hchk
        split_ifs at hchk with hmiss
        exact .inr (.inr ⟨horig, hmiss⟩)
      | some origin =>
        simp only at hchk
        split_ifs at hchk with hany
        obtain ⟨allowed, hallow, heq⟩ := List.any_eq_true.mp hany
        obtain rfl := eq_of_beq heq
        obtain ⟨raw, hraw, hnorm⟩ := (hmem allowed).mp hallow
        exact .inr (.inl ⟨allowed, raw, horig, hraw, hnorm⟩)
    · rintro (hnil | ⟨origin, raw, horig, hraw, hnorm⟩ | ⟨horig, hmiss⟩)
      · exact absurd hnil hempty
      · refine ⟨some origin, horig, ?_⟩
        have hany : normalized.allowedOrigins.any (· == origin) = true :=
          List.any_eq_true.mpr ⟨origin, (hmem origin).mpr ⟨raw, hraw, hnorm⟩, by simp⟩
        simp [hany]
      · refine ⟨none, horig, ?_⟩
        simp [h.missing, hmiss]

theorem authorizeGrant_iff (h : Normalized parseUrl principalId grant normalized) (headers : HeaderMap)
    (label : Option String) (action : DeliveryAction) :
    authorizeGrant parseUrl headers normalized label action = .ok () ↔
      GrantAllows parseUrl headers grant label action := by
  have hlabel : label.any (fun label => !namespaceAllowed normalized label) = false ↔
      ∀ l, label = some l → "*" ∈ grant.namespaces ∨ l ∈ grant.namespaces := by
    cases label with
    | none => simp
    | some label => simp [← namespaceAllowed_iff h.namespaces]
  unfold authorizeGrant
  split_ifs with hrefus
  · refine ⟨nofun, fun hallows => ?_⟩
    rw [hlabel.mpr hallows.label, Bool.false_or, h.actions] at hrefus
    simp [hallows.action] at hrefus
  · rw [authorizeOrigin_iff h]
    rw [Bool.not_eq_true, Bool.or_eq_false_iff, hlabel, h.actions] at hrefus
    exact ⟨fun horig => ⟨by simpa using hrefus.2, hrefus.1, horig⟩, GrantAllows.origin⟩

/-! ## Snapshots and their documents -/

theorem insertCredential_ok
    {grant : CredentialGrantWire} (h : insertCredential parseUrl credentials grant = .ok credentials') :
    ∃ digest authorization, decodeSha256 grant.credentialSha256 = .ok digest ∧
      normalizeGrant parseUrl grant.principalId grant.toGrantWire = .ok authorization ∧
      credentials' = credentials.insert digest authorization := by
  obtain ⟨digest, hdig, h⟩ := bind_eq_ok.mp h
  split_ifs at h
  · cases h
  obtain ⟨authorization, hauth, h⟩ := bind_eq_ok.mp h
  cases h
  exact ⟨digest, authorization, hdig, hauth, rfl⟩

theorem foldlM_insertCredential {grants : List CredentialGrantWire}
    (h : grants.foldlM (insertCredential parseUrl) credentials = .ok credentials') {digest : Bytes}
    {authorization : AuthorizationGrant} (hlook : credentials'.lookup digest = some authorization) :
    credentials.lookup digest = some authorization ∨
      ∃ grant ∈ grants, decodeSha256 grant.credentialSha256 = .ok digest ∧
        Normalized parseUrl grant.principalId grant.toGrantWire authorization := by
  induction grants generalizing credentials with
  | nil =>
    cases h
    exact .inl hlook
  | cons grant grants ih =>
    obtain ⟨next, hnext, h⟩ := bind_eq_ok.mp h
    obtain ⟨digest', authorization', hdig, hnorm, rfl⟩ := insertCredential_ok hnext
    cases ih h with
    | inl hbef =>
      rw [HashMap.lookup_insert_eq] at hbef
      split_ifs at hbef with hd
      · cases hbef
        subst hd
        exact .inr ⟨grant, List.mem_cons_self, hdig, normalizeGrant_normalized hnorm⟩
      · exact .inl hbef
    | inr hlater =>
      obtain ⟨later, hmem, hrest⟩ := hlater
      exact .inr ⟨later, List.mem_cons_of_mem grant hmem, hrest⟩

structure ParsedFrom (parseUrl : String → Option Url) (registryId : String) (wire : RegistrySnapshotWire)
    (snapshot : RegistrySnapshot) : Prop where
  registryId : wire.registryId = registryId
  revision : snapshot.revision = wire.revision
  anonymous : ∀ authorization, snapshot.anonymous = some authorization →
    ∃ grant, wire.anonymous = some grant ∧ Normalized parseUrl "anonymous" grant authorization
  credentials : ∀ digest authorization, snapshot.credentials.lookup digest = some authorization →
    ∃ grant ∈ wire.credentials, decodeSha256 grant.credentialSha256 = .ok digest ∧
      Normalized parseUrl grant.principalId grant.toGrantWire authorization

theorem ofWire_parsedFrom {wire : RegistrySnapshotWire} (h : RegistrySnapshot.ofWire parseUrl reg wire = .ok snap) :
    ParsedFrom parseUrl reg wire snap := by
  unfold RegistrySnapshot.ofWire at h
  split_ifs at h with hschema hid hmany
  · cases h
  · cases h
  · cases h
  obtain ⟨anonymous, hanon, h⟩ := bind_eq_ok.mp h
  obtain ⟨credentials, hcreds, h⟩ := bind_eq_ok.mp h
  cases h
  refine ⟨by simpa using hid, rfl, ?_, ?_⟩
  · rintro authorization rfl
    cases hwire : wire.anonymous with
    | none =>
      rw [hwire] at hanon
      cases hanon
    | some grant =>
      rw [hwire] at hanon
      cases hnorm : normalizeGrant parseUrl "anonymous" grant with
      | error failure => simp [hnorm, Functor.map, Except.map] at hanon
      | ok normalized =>
        obtain rfl : normalized = authorization := by
          simpa [hnorm, Functor.map, Except.map] using hanon
        exact ⟨grant, rfl, normalizeGrant_normalized hnorm⟩
  · intro digest authorization hlook
    cases foldlM_insertCredential hcreds hlook with
    | inl hbef => simp at hbef
    | inr hfound => exact hfound

theorem parse_parsedFrom {parseJson : Bytes → Option RegistrySnapshotWire} {body : Bytes}
    (h : RegistrySnapshot.parse parseJson parseUrl reg body = .ok snap) :
    ∃ wire, parseJson body = some wire ∧ ParsedFrom parseUrl reg wire snap := by
  unfold RegistrySnapshot.parse at h
  cases hwire : parseJson body with
  | none =>
    rw [hwire] at h
    cases h
  | some wire =>
    rw [hwire] at h
    exact ⟨wire, rfl, ofWire_parsedFrom h⟩

end Mappf.Auth
