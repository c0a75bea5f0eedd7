import Mappf.Auth.Policy

/-! # Delivery authorization

`lib.rs`: a request is authorized against the snapshot of the registry its token names, or, when it presents
nothing, against the anonymous grant of the registry selected for that. What `snapshot` returns for a
configured registry is a parameter here. -/
namespace Mappf.Auth

structure RegistryConfig where
  currentUrl : String

/-- `catalog.rs`: only validated ids enter the catalog. -/
structure RegistryCatalog where
  entries : HashMap String RegistryConfig
  validIds : ∀ id config, entries.lookup id = some config → validateRegistryId id = .ok ()

structure Libraries where
  sha256 : Bytes → Bytes
  parseForm : Bytes → List (String × String)
  parseJson : Bytes → Option RegistrySnapshotWire
  parseUrl : String → Option Url

/-- The `expect` on the configuration of the anonymous registry never fails: it is configured. -/
structure DeliveryAuth where
  catalog : RegistryCatalog
  anonymousRegistryId : Option String
  anonymousConfigured : ∀ id, anonymousRegistryId = some id → (catalog.entries.lookup id).isSome

structure AuthorizedDelivery where
  principalId : String
  registryId : String
  readableNamespaces : List String
  cachePartition : Bytes
  presentedToken : Option String
  propagateAccessToken : Bool
  deriving DecidableEq

structure Request where
  headers : HeaderMap
  query : Option String
  -- absent for resources that belong to no namespace, such as glyph ranges
  label : Option String
  action : DeliveryAction

namespace DeliveryAuth

/-- What the snapshot of a configured registry is when a request asks for it; `none` is `AuthUnavailable`. -/
abbrev Snapshots := String → Option RegistrySnapshot

variable (libraries : Libraries)

def authorizeAnonymous (auth : DeliveryAuth) (snapshots : Snapshots) (request : Request) :
    Except AuthFailure AuthorizedDelivery :=
  match auth.anonymousRegistryId with
  | none => .error .invalidCredential
  | some registryId =>
    match snapshots registryId with
    | none => .error .unavailable
    | some snapshot =>
      match snapshot.anonymous.filter (·.enabled) with
      | none => .error .invalidCredential
      | some grant => do
        authorizeGrant libraries.parseUrl request.headers grant request.label request.action
        .ok { principalId := grant.principalId
              registryId
              readableNamespaces := grant.namespaces
              cachePartition := anonymousCachePartition libraries.sha256 registryId snapshot.revision
              presentedToken := none
              propagateAccessToken := false }

def authorizePresented (auth : DeliveryAuth) (snapshots : Snapshots) (request : Request)
    (presented : PresentedCredential) : Except AuthFailure AuthorizedDelivery := do
  let (registryId, credential) ← parseTokenEnvelope presented.value
  match auth.catalog.entries.lookup registryId with
  | none => .error .invalidCredential
  | some _ =>
    match snapshots registryId with
    | none => .error .unavailable
    | some snapshot =>
      match (snapshot.credentials.lookup (credentialDigest libraries.sha256 registryId credential)).filter
          (·.enabled) with
      | none => .error .invalidCredential
      | some grant => do
        authorizeGrant libraries.parseUrl request.headers grant request.label request.action
        .ok { principalId := grant.principalId
              registryId
              readableNamespaces := grant.namespaces
              cachePartition := credentialCachePartition libraries.sha256 registryId credential snapshot.revision
              presentedToken := some presented.value
              propagateAccessToken := presented.fromQuery }

def authorize (auth : DeliveryAuth) (snapshots : Snapshots) (request : Request) :
    Except AuthFailure AuthorizedDelivery := do
  match ← deliveryToken libraries.parseForm request.headers request.query with
  | none => auth.authorizeAnonymous libraries snapshots request
  | some presented => auth.authorizePresented libraries snapshots request presented

/-! ## What a successful authorization rests on -/

def FromDocuments (snapshots : Snapshots) : Prop :=
  ∀ id snapshot, snapshots id = some snapshot →
    ∃ body, RegistrySnapshot.parse libraries.parseJson libraries.parseUrl id body = .ok snapshot

structure ByCredential (libraries : Libraries) (auth : DeliveryAuth) (snapshots : Snapshots) (request : Request)
    (registryId credential : String) (delivery : AuthorizedDelivery) : Prop where
  registry : delivery.registryId = registryId
  token : delivery.presentedToken = some (registryId ++ "." ++ credential)
  presented : PresentsOnly libraries.parseForm request.headers request.query (registryId ++ "." ++ credential)
    delivery.propagateAccessToken
  separated : '.' ∉ registryId.toList
  validId : validateRegistryId registryId = .ok ()
  wellFormed : wellFormedCredential credential = true
  configured : (auth.catalog.entries.lookup registryId).isSome
  granted : ∃ snapshot normalized, snapshots registryId = some snapshot ∧
    snapshot.credentials.lookup (credentialDigest libraries.sha256 registryId credential) = some normalized ∧
    normalized.enabled = true ∧
    authorizeGrant libraries.parseUrl request.headers normalized request.label request.action = .ok () ∧
    delivery.cachePartition = credentialCachePartition libraries.sha256 registryId credential snapshot.revision

structure Anonymously (libraries : Libraries) (auth : DeliveryAuth) (snapshots : Snapshots) (request : Request)
    (delivery : AuthorizedDelivery) : Prop where
  selected : auth.anonymousRegistryId = some delivery.registryId
  nothing : request.headers .authorization = [] ∧ accessTokens libraries.parseForm request.query = []
  token : delivery.presentedToken = none
  granted : ∃ snapshot normalized, snapshots delivery.registryId = some snapshot ∧
    snapshot.anonymous = some normalized ∧ normalized.enabled = true ∧
    authorizeGrant libraries.parseUrl request.headers normalized request.label request.action = .ok () ∧
    delivery.cachePartition = anonymousCachePartition libraries.sha256 delivery.registryId snapshot.revision

variable {libs : Libraries} {auth : DeliveryAuth} {snapshots : Snapshots} {req : Request}
  {delivery : AuthorizedDelivery}

theorem authorizePresented_ok {presented : PresentedCredential}
    (hpresented : PresentsOnly libs.parseForm req.headers req.query presented.value presented.fromQuery)
    (h : auth.authorizePresented libs snapshots req presented = .ok delivery) :
    ∃ reg cred, ByCredential libs auth snapshots req reg cred delivery := by
  obtain ⟨⟨reg, cred⟩, henvelope, h⟩ := bind_eq_ok.mp h
  obtain ⟨htoken, hwellFormed⟩ := parseTokenEnvelope_eq_ok henvelope
  dsimp only at h
  split at h
  case h_1 => cases h
  case h_2 cfg hconf =>
    split at h
    case h_1 => cases h
    case h_2 snap hsnap =>
      split at h
      case h_1 => cases h
      case h_2 normalized hfound =>
        obtain ⟨hlook, henabled⟩ := Option.filter_eq_some_iff.mp hfound
        obtain ⟨_, hgrant, h⟩ := bind_eq_ok.mp h
        cases h
        rw [htoken] at hpresented
        exact ⟨reg, cred, rfl, by rw [htoken], hpresented, hwellFormed.1, hwellFormed.2.1,
          hwellFormed.2.2, by rw [hconf]; rfl, snap, normalized, hsnap, hlook, henabled, hgrant, rfl⟩

theorem authorizeAnonymous_ok (hnothing : req.headers .authorization = [] ∧ accessTokens libs.parseForm req.query = [])
    (h : auth.authorizeAnonymous libs snapshots req = .ok delivery) : Anonymously libs auth snapshots req delivery := by
  unfold authorizeAnonymous at h
  split at h
  case h_1 => cases h
  case h_2 reg hsel =>
    split at h
    case h_1 => cases h
    case h_2 snap hsnap =>
      split at h
      case h_1 => cases h
      case h_2 normalized hfound =>
        obtain ⟨hanon, henabled⟩ := Option.filter_eq_some_iff.mp hfound
        obtain ⟨_, hgrant, h⟩ := bind_eq_ok.mp h
        cases h
        exact ⟨hsel, hnothing, rfl, snap, normalized, hsnap, hanon, henabled, hgrant, rfl⟩

theorem authorize_cases (h : auth.authorize libs snapshots req = .ok delivery) :
    (∃ reg cred, ByCredential libs auth snapshots req reg cred delivery) ∨
      Anonymously libs auth snapshots req delivery := by
  obtain ⟨token, htoken, h⟩ := bind_eq_ok.mp h
  cases token with
  | none => exact .inr (authorizeAnonymous_ok (deliveryToken_eq_ok htoken) h)
  | some presented => exact .inl (authorizePresented_ok (deliveryToken_eq_ok htoken) h)

/-- The document behind the snapshot of `registryId` has an enabled entry with the credential's digest, and
that entry covers the request's action, namespace and origin. -/
def DocumentGrants (libraries : Libraries) (snapshots : Snapshots) (request : Request)
    (registryId credential : String) : Prop :=
  ∃ snapshot body wire grant, snapshots registryId = some snapshot ∧
    RegistrySnapshot.parse libraries.parseJson libraries.parseUrl registryId body = .ok snapshot ∧
    libraries.parseJson body = some wire ∧ wire.registryId = registryId ∧ grant ∈ wire.credentials ∧
    decodeSha256 grant.credentialSha256 = .ok (credentialDigest libraries.sha256 registryId credential) ∧
    grant.enabled = true ∧
    GrantAllows libraries.parseUrl request.headers grant.toGrantWire request.label request.action

theorem ByCredential.documentGrants {reg cred : String} (h : ByCredential libs auth snapshots req reg cred delivery)
    (hdocs : FromDocuments libs snapshots) : DocumentGrants libs snapshots req reg cred := by
  obtain ⟨snap, normalized, hsnap, hlook, henabled, hgrant, -⟩ := h.granted
  obtain ⟨body, hbody⟩ := hdocs reg snap hsnap
  obtain ⟨wire, hwire, hpars⟩ := parse_parsedFrom hbody
  obtain ⟨grant, hmem, hdig, hnorm⟩ := hpars.credentials _ normalized hlook
  exact ⟨snap, body, wire, grant, hsnap, hbody, hwire, hpars.registryId, hmem, hdig,
    by rw [← hnorm.enabled]; exact henabled, (authorizeGrant_iff hnorm _ _ _).mp hgrant⟩

theorem anonymousRegistryId_size (auth : DeliveryAuth) {reg : String}
    (h : auth.anonymousRegistryId = some reg) : reg.utf8ByteSize < 2 ^ 64 := by
  obtain ⟨cfg, hconf⟩ := Option.isSome_iff_exists.mp (auth.anonymousConfigured reg h)
  exact registryId_size (auth.catalog.validIds reg cfg hconf)

/-! ## Cache partitions -/

/-- Two authorizations, at whatever times, with the same partition: the same registry at the same revision
with the same credential, or both without one. -/
theorem partition_determines {auth' : DeliveryAuth} {snapshots' : Snapshots} {req' : Request}
    {delivery' : AuthorizedDelivery} (hsha : Function.Injective libs.sha256)
    (h : auth.authorize libs snapshots req = .ok delivery) (h' : auth'.authorize libs snapshots' req' = .ok delivery')
    (hpart : delivery.cachePartition = delivery'.cachePartition) :
    delivery.registryId = delivery'.registryId ∧ delivery.presentedToken = delivery'.presentedToken ∧
      ∃ snap snap', snapshots delivery.registryId = some snap ∧
        snapshots' delivery'.registryId = some snap' ∧ snap.revision = snap'.revision := by
  obtain ⟨reg, cred, hby⟩ | hanon := authorize_cases h
  · obtain ⟨snap, _, hsnap, _, _, _, hmine⟩ := hby.granted
    obtain ⟨reg', cred', hby'⟩ | hanon' := authorize_cases h'
    · obtain ⟨snap', _, hsnap', _, _, _, htheirs⟩ := hby'.granted
      rw [hmine, htheirs] at hpart
      obtain ⟨rfl, hrev, rfl⟩ := credentialCachePartition_injective hsha (registryId_size hby.validId)
        (registryId_size hby'.validId) (credential_size hby.wellFormed) (credential_size hby'.wellFormed) hpart
      rw [hby.registry, hby'.registry, hby.token, hby'.token]
      exact ⟨rfl, rfl, snap, snap', hsnap, hsnap', hrev⟩
    · obtain ⟨_, _, _, _, _, _, htheirs⟩ := hanon'.granted
      rw [hmine, htheirs] at hpart
      exact absurd hpart (partition_domains_differ hsha _ _ _ _ _)
  · obtain ⟨snap, _, hsnap, _, _, _, hmine⟩ := hanon.granted
    obtain ⟨reg', cred', hby'⟩ | hanon' := authorize_cases h'
    · obtain ⟨_, _, _, _, _, _, htheirs⟩ := hby'.granted
      rw [hmine, htheirs] at hpart
      exact absurd hpart.symm (partition_domains_differ hsha _ _ _ _ _)
    · obtain ⟨snap', _, hsnap', _, _, _, htheirs⟩ := hanon'.granted
      rw [hmine, htheirs] at hpart
      obtain ⟨hreg, hrev⟩ := anonymousCachePartition_injective hsha
        (auth.anonymousRegistryId_size hanon.selected) (auth'.anonymousRegistryId_size hanon'.selected) hpart
      exact ⟨hreg, by rw [hanon.token, hanon'.token], snap, snap', hsnap, hsnap', hrev⟩

/-- A request authorized with a credential presented exactly that one, well formed, and the document of the
registry it names has an enabled entry with its digest that covers action, namespace and origin. A request
that presents any credential never gets the anonymous grant. Two authorizations share a cache partition only
with the same registry, revision and credential. -/
theorem authorization_sound (libraries : Libraries) (hsha : Function.Injective libraries.sha256)
    (auth : DeliveryAuth) (snapshots : Snapshots) (hdocuments : FromDocuments libraries snapshots)
    (request : Request) (delivery : AuthorizedDelivery)
    (h : auth.authorize libraries snapshots request = .ok delivery) :
    (∀ token, delivery.presentedToken = some token → ∃ registryId credential,
      token = registryId ++ "." ++ credential ∧
      ByCredential libraries auth snapshots request registryId credential delivery ∧
      DocumentGrants libraries snapshots request registryId credential) ∧
    (request.headers .authorization ≠ [] ∨ accessTokens libraries.parseForm request.query ≠ [] →
      ∃ token, delivery.presentedToken = some token) ∧
    ∀ auth' snapshots' request' delivery', DeliveryAuth.authorize libraries auth' snapshots' request' = .ok delivery' →
      delivery.cachePartition = delivery'.cachePartition →
      delivery.registryId = delivery'.registryId ∧ delivery.presentedToken = delivery'.presentedToken ∧
        ∃ snapshot snapshot', snapshots delivery.registryId = some snapshot ∧
          snapshots' delivery'.registryId = some snapshot' ∧ snapshot.revision = snapshot'.revision := by
  refine ⟨?_, ?_, fun auth' snapshots' request' delivery' h' => partition_determines hsha h h'⟩
  · intro token htoken
    obtain ⟨registryId, credential, hby⟩ | hanon := authorize_cases h
    · obtain rfl := Option.some.inj (htoken.symm.trans hby.token)
      exact ⟨registryId, credential, rfl, hby, hby.documentGrants hdocuments⟩
    · simp [hanon.token] at htoken
  · intro hpresents
    obtain ⟨registryId, credential, hby⟩ | hanon := authorize_cases h
    · exact ⟨_, hby.token⟩
    · cases hpresents with
      | inl hheader => exact absurd hanon.nothing.1 hheader
      | inr hquery => exact absurd hanon.nothing.2 hquery

/-! A digest function that gives the one credential `r.s` a digest of thirty-two bytes. -/

def zeroDigest : Bytes := List.replicate 32 0

def oneMessage : Bytes := digestDomain ++ framed "r" ++ framed "s"

def oneCredential : Libraries where
  sha256 := Equiv.swap oneMessage zeroDigest
  parseForm _ := []
  parseJson _ := some ⟨1, "r", 7, none, [⟨⟨true, ["a"], [.read], [], false⟩,
    String.ofList (List.replicate 64 '0'), "p"⟩]⟩
  parseUrl _ := none

def oneRegistry : DeliveryAuth where
  catalog := ⟨(∅ : HashMap String RegistryConfig).insert "r" ⟨"memory:///r/current.json"⟩, by
    intro id config h
    rw [HashMap.lookup_insert_eq] at h
    split_ifs at h with hid
    · rw [hid]
      decide +kernel
    · simp at h⟩
  anonymousRegistryId := none
  anonymousConfigured := nofun

def oneSnapshot : Snapshots := fun id =>
  (RegistrySnapshot.parse oneCredential.parseJson oneCredential.parseUrl id []).toOption

def bearerRequest : Request where
  headers name := if name = .authorization then [some "Bearer r.s"] else []
  query := none
  label := some "a"
  action := .read

theorem oneSnapshot_fromDocuments : FromDocuments oneCredential oneSnapshot := by
  intro id snap h
  refine ⟨[], ?_⟩
  unfold oneSnapshot at h
  cases hparse : RegistrySnapshot.parse oneCredential.parseJson oneCredential.parseUrl id [] with
  | error failure =>
    rw [hparse] at h
    cases h
  | ok parsed =>
    rw [hparse] at h
    cases h
    rfl

theorem bearerRequest_sound :
    ∃ delivery, oneRegistry.authorize oneCredential oneSnapshot bearerRequest = .ok delivery ∧
      delivery.presentedToken = some "r.s" ∧ DocumentGrants oneCredential oneSnapshot bearerRequest "r" "s" := by
  have hok : oneRegistry.authorize oneCredential oneSnapshot bearerRequest = .ok ⟨"p", "r", ["a"],
      credentialCachePartition oneCredential.sha256 "r" "s" 7, some "r.s", false⟩ := by decide +kernel
  obtain ⟨registryId, credential, htoken, hby, hgrants⟩ := (authorization_sound oneCredential
    (Equiv.injective _) oneRegistry oneSnapshot oneSnapshot_fromDocuments bearerRequest _ hok).1 "r.s" rfl
  obtain rfl : "r" = registryId := hby.registry
  obtain rfl : "s" = credential := (String.append_right_inj "r.").mp htoken
  exact ⟨_, hok, rfl, hgrants⟩

end DeliveryAuth
end Mappf.Auth
