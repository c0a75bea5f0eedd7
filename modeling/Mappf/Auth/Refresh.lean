import Mappf.Auth.DeliveryAuth
import Mappf.Common.SingleFlight
import Mappf.Lib.Machine

/-! # Refreshing registry snapshots

`lib.rs`, `snapshot`, `refresh` and `defer_failed_refresh`, cut at every lock, every cache access and every
await: any number of calls interleave at these points. A call is named by its place among the calls. The
object store is an input: it may answer anything, fail or never answer. A call can be dropped where it
awaits. Times are nanoseconds. -/
namespace Mappf.Auth

open Common (SingleFlight Flight)

def maxSnapshotBytes : ℕ := 16 * 1024 * 1024
def maxConcurrentRegistryLoads : ℕ := 8
def refreshInterval : ℕ := 60 * 10 ^ 9
def refreshFailureCooldown : ℕ := 5 * 10 ^ 9

structure CachedRegistry where
  snapshot : RegistrySnapshot
  etag : Option String
  refreshAfter : ℕ
  sourceBytes : UInt32
  validatedAt : ℕ
  refreshFailingSince : Option ℕ

structure InstalledRevision where
  revision : UInt64
  bodySha256 : Bytes

structure DeliveryAuthInner where
  cache : HashMap String CachedRegistry := ∅
  coldRetryAfter : HashMap String ℕ := ∅
  installedRevisions : HashMap String InstalledRevision := ∅
  refreshes : SingleFlight String Unit := {}
  availablePermits : ℕ := maxConcurrentRegistryLoads
  now : ℕ := 0

namespace DeliveryAuthInner

variable (inner : DeliveryAuthInner) (registryId : String)

def coldRetryPending (now : ℕ) : Bool :=
  (inner.coldRetryAfter.lookup registryId).any (now < ·)

/-- Neither an older revision nor another body under the same revision. -/
def admits (installed : Option InstalledRevision) (revision : UInt64) (bodySha256 : Bytes) : Bool :=
  match installed with
  | none => true
  | some previous =>
    if revision < previous.revision then false
    else if revision = previous.revision ∧ bodySha256 ≠ previous.bodySha256 then false
    else true

def record (installed : InstalledRevision) : DeliveryAuthInner :=
  { inner with installedRevisions := inner.installedRevisions.insert registryId installed }

def removeColdRetry : DeliveryAuthInner :=
  { inner with coldRetryAfter := inner.coldRetryAfter.erase registryId }

def insertColdRetry : DeliveryAuthInner :=
  { inner with coldRetryAfter := inner.coldRetryAfter.insert registryId (inner.now + refreshFailureCooldown) }

def insertCache (cached : CachedRegistry) : DeliveryAuthInner :=
  { inner with cache := inner.cache.insert registryId cached }

def installed (snapshot : RegistrySnapshot) (etag : Option String) (body : Bytes) : CachedRegistry where
  snapshot := snapshot
  etag := etag
  refreshAfter := inner.now + refreshInterval
  sourceBytes := UInt32.ofNat body.length
  validatedAt := inner.now
  refreshFailingSince := none

def confirmed (cached : CachedRegistry) : CachedRegistry :=
  { cached with
    refreshAfter := inner.now + refreshInterval
    validatedAt := inner.now
    refreshFailingSince := none }

/-- After a failed refresh; the first failure of a streak is kept. -/
def deferred (cached : CachedRegistry) : CachedRegistry :=
  { cached with
    refreshAfter := inner.now + refreshFailureCooldown
    refreshFailingSince := some (cached.refreshFailingSince.getD inner.now) }

def releasePermit : DeliveryAuthInner :=
  { inner with availablePermits := inner.availablePermits + 1 }

end DeliveryAuthInner

/-- How a leader ends. Only an error without a snapshot is published to the followers. -/
inductive Ending
  | served (snapshot : RegistrySnapshot)
  | unavailable
  | cancelled

def Ending.outcome : Ending → Option Unit
  | .unavailable => some ()
  | _ => none

def Ending.snapshot : Ending → Option RegistrySnapshot
  | .served snapshot => some snapshot
  | _ => none

inductive Phase
  /-- The head of the loop in `snapshot`. -/
  | looking
  | missed (now : ℕ)
  | electing
  | following (receiver : Watch.Receiver)
  | leading
  | admitted
  | resolving (previous : Option CachedRegistry)
  | awaiting (previous : Option CachedRegistry)
  | receiving (etag : Option String)
  | checking (snapshot : RegistrySnapshot) (etag : Option String) (body : Bytes)
  | recording (snapshot : RegistrySnapshot) (etag : Option String) (body : Bytes)
  | recorded (snapshot : RegistrySnapshot) (etag : Option String) (body : Bytes)
  | installing (snapshot : RegistrySnapshot) (etag : Option String) (body : Bytes)
  | confirming (cached : CachedRegistry)
  | failing
  | deferring (cached : CachedRegistry)
  | cooling
  | releasing (ending : Ending)
  | sending (sender : Option ℕ) (ending : Ending)
  | returned (result : Option RegistrySnapshot)
  | gone

structure Call where
  request : Request
  registryId : String
  phase : Phase := .looking

/-- What the object store answers to `get_opts`; a timeout is a failure. -/
inductive Response
  | notModified
  | failure
  | object (size : ℕ) (etag : Option String)

inductive Input
  | proceed
  | resolve (found : Bool)
  | respond (response : Response)
  | deliver (body : Option Bytes)
  | cancel

inductive Entry
  | rejected (request : Request) (failure : AuthFailure)
  | began (call : ℕ)
  | read (call : ℕ) (registryId : String) (snapshot : RegistrySnapshot)
  | requested (call : ℕ) (registryId : String)
  | installed (call : ℕ) (registryId : String) (snapshot : RegistrySnapshot) (body : Bytes)
  /-- What `snapshot` returned, and what `authorize` made of it. -/
  | authorized (call : ℕ) (registryId : String) (result : Option RegistrySnapshot)
      (decision : Except AuthFailure AuthorizedDelivery)

structure Session where
  inner : DeliveryAuthInner := {}
  calls : List Call := []
  log : List Entry := []

inductive Action
  | authorize (request : Request)
  | step (call : ℕ) (input : Input)
  | evict (registryId : String)
  | tick (elapsed : ℕ)

namespace DeliveryAuth

/-- The registry whose snapshot `authorize` asks for, or its failure before that. -/
def registryFor (libraries : Libraries) (auth : DeliveryAuth) (request : Request) : Except AuthFailure String := do
  match ← deliveryToken libraries.parseForm request.headers request.query with
  | none =>
    match auth.anonymousRegistryId with
    | none => .error .invalidCredential
    | some registryId => .ok registryId
  | some presented => do
    let (registryId, _) ← parseTokenEnvelope presented.value
    match auth.catalog.entries.lookup registryId with
    | none => .error .invalidCredential
    | some _ => .ok registryId

def only (registryId : String) (result : Option RegistrySnapshot) : Snapshots :=
  fun id => if id = registryId then result else none

end DeliveryAuth

/-! ## One step of a call -/

/-- A `200` or an error of `get_opts`, with the entry read before. -/
def afterResponse (inner : DeliveryAuthInner) (previous : Option CachedRegistry) : Response → DeliveryAuthInner × Phase
  | .notModified =>
    match previous with
    | some cached => (inner, .confirming cached)
    | none => (inner.releasePermit, .failing)
  | .failure => (inner.releasePermit, .failing)
  | .object size etag =>
    if maxSnapshotBytes < size then (inner.releasePermit, .failing) else (inner, .receiving etag)

def afterBody (libraries : Libraries) (inner : DeliveryAuthInner) (registryId : String) (etag : Option String) :
    Option Bytes → DeliveryAuthInner × Phase
  | none => (inner.releasePermit, .failing)
  | some body =>
    if maxSnapshotBytes < body.length then (inner.releasePermit, .failing)
    else
      match RegistrySnapshot.parse libraries.parseJson libraries.parseUrl registryId body with
      | .error _ => (inner.releasePermit, .failing)
      | .ok snapshot => (inner, .checking snapshot etag body)

/-- The next step of call `i`, if it can take one with this input: the shared state, the call's new phase
and what is logged. -/
def Call.next (libraries : Libraries) (auth : DeliveryAuth) (inner : DeliveryAuthInner) (i : ℕ) (call : Call) :
    Input → Option (DeliveryAuthInner × Phase × Option Entry)
  | .proceed =>
    match call.phase with
    | .looking =>
      match inner.cache.lookup call.registryId with
      | some cached => some (inner,
          if inner.now < cached.refreshAfter then .returned (some cached.snapshot) else .electing,
          some (.read i call.registryId cached.snapshot))
      | none => some (inner, .missed inner.now, none)
    | .missed now =>
      some (inner, if inner.coldRetryPending call.registryId now then .returned none else .electing, none)
    | .electing =>
      match inner.refreshes.begin call.registryId with
      | (refreshes, .leader) => some ({ inner with refreshes }, .leading, none)
      | (refreshes, .follower receiver) => some ({ inner with refreshes }, .following receiver, none)
    | .following receiver =>
      match inner.refreshes.wait receiver with
      | none => none
      | some (some ()) => some (inner, .returned none, none)
      | some none => some (inner, .looking, none)
    | .leading =>
      if inner.availablePermits = 0 then some (inner, .failing, none)
      else some ({ inner with availablePermits := inner.availablePermits - 1 }, .admitted, none)
    | .admitted =>
      match inner.cache.lookup call.registryId with
      | some cached => some (inner, .resolving (some cached), some (.read i call.registryId cached.snapshot))
      | none => some (inner, .resolving none, none)
    | .checking snapshot etag body =>
      if DeliveryAuthInner.admits (inner.installedRevisions.lookup call.registryId) snapshot.revision
          (libraries.sha256 body) then
        some (inner, .recording snapshot etag body, none)
      else some (inner.releasePermit, .failing, none)
    | .recording snapshot etag body =>
      some (inner.record call.registryId ⟨snapshot.revision, libraries.sha256 body⟩, .recorded snapshot etag body, none)
    | .recorded snapshot etag body =>
      some (inner.removeColdRetry call.registryId, .installing snapshot etag body, none)
    | .installing snapshot etag body =>
      some ((inner.insertCache call.registryId (inner.installed snapshot etag body)).releasePermit,
        .releasing (.served snapshot), some (.installed i call.registryId snapshot body))
    | .confirming cached =>
      some ((inner.insertCache call.registryId (inner.confirmed cached)).releasePermit,
        .releasing (.served cached.snapshot), none)
    | .failing =>
      match inner.cache.lookup call.registryId with
      | some cached => some (inner, .deferring cached, some (.read i call.registryId cached.snapshot))
      | none => some (inner, .cooling, none)
    | .deferring cached =>
      some (inner.insertCache call.registryId (inner.deferred cached), .releasing (.served cached.snapshot), none)
    | .cooling => some (inner.insertColdRetry call.registryId, .releasing .unavailable, none)
    | .releasing ending =>
      match inner.refreshes.remove call.registryId with
      | (refreshes, sender) => some ({ inner with refreshes }, .sending sender ending, none)
    | .sending sender ending =>
      some ({ inner with refreshes := inner.refreshes.finish sender ending.outcome },
        match ending with
        | .served snapshot => .returned (some snapshot)
        | .unavailable => .returned none
        | .cancelled => .gone,
        none)
    | .returned result =>
      some (inner, .gone, some (.authorized i call.registryId result
        (auth.authorize libraries (DeliveryAuth.only call.registryId result) call.request)))
    | _ => none
  | .resolve found =>
    match call.phase with
    | .resolving previous =>
      if found then some (inner, .awaiting previous, some (.requested i call.registryId))
      else some (inner.releasePermit, .failing, none)
    | _ => none
  | .respond response =>
    match call.phase with
    | .awaiting previous => some ((afterResponse inner previous response).1, (afterResponse inner previous response).2,
        none)
    | _ => none
  | .deliver body =>
    match call.phase with
    | .receiving etag =>
      some ((afterBody libraries inner call.registryId etag body).1,
        (afterBody libraries inner call.registryId etag body).2, none)
    | _ => none
  | .cancel =>
    match call.phase with
    | .following _ => some (inner, .gone, none)
    -- the future of `refresh` goes first, with its permit, then the guard
    | .awaiting _ => some (inner.releasePermit, .releasing .cancelled, none)
    | .receiving _ => some (inner.releasePermit, .releasing .cancelled, none)
    | _ => none

/-! ## Sessions -/

namespace Session

def step (libraries : Libraries) (auth : DeliveryAuth) (session : Session) : Action → Session
  | .authorize request =>
    match auth.registryFor libraries request with
    | .error failure => { session with log := session.log ++ [.rejected request failure] }
    | .ok registryId =>
      { session with
        calls := session.calls ++ [{ request, registryId }]
        log := session.log ++ [.began session.calls.length] }
  | .step i input =>
    match session.calls[i]? with
    | none => session
    | some call =>
      match call.next libraries auth session.inner i input with
      | none => session
      | some (inner, phase, entry) =>
        { inner
          calls := session.calls.set i { call with phase }
          log := session.log ++ entry.toList }
  | .evict registryId => { session with inner := { session.inner with cache := session.inner.cache.erase registryId } }
  | .tick elapsed => { session with inner := { session.inner with now := session.inner.now + elapsed } }

def run (libraries : Libraries) (auth : DeliveryAuth) (actions : List Action) : Session :=
  actions.foldl (Session.step libraries auth) {}

end Session

def sessions (libraries : Libraries) (auth : DeliveryAuth) : Machine Session where
  init := {}
  step := fun session session' => ∃ action, session' = session.step libraries auth action

theorem reachable_run (libs : Libraries) (auth : DeliveryAuth) (actions : List Action) :
    Reachable (sessions libs auth) (Session.run libs auth actions) :=
  reachable_foldl (Session.step libs auth) _ actions

/-! ## What a step can do -/

namespace Phase

def guarded : Phase → Bool
  | .looking | .missed _ | .electing | .following _ | .sending _ _ | .returned _ | .gone => false
  | _ => true

def inRefresh : Phase → Bool
  | .leading | .admitted | .resolving _ | .awaiting _ | .receiving _ | .checking _ _ _ | .recording _ _ _
  | .recorded _ _ _ | .installing _ _ _ | .confirming _ => true
  | _ => false

/-- The snapshot of the cache entry a leader holds. -/
def held : Phase → Option RegistrySnapshot
  | .resolving previous | .awaiting previous => previous.map CachedRegistry.snapshot
  | .confirming cached | .deferring cached => some cached.snapshot
  | _ => none

def result : Phase → Option RegistrySnapshot
  | .releasing ending | .sending _ ending => ending.snapshot
  | .returned snapshot => snapshot
  | _ => none

def candidate : Phase → Option (RegistrySnapshot × Bytes)
  | .checking snapshot _ body | .recording snapshot _ body | .recorded snapshot _ body
  | .installing snapshot _ body => some (snapshot, body)
  | _ => none

theorem guarded_of_inRefresh {phase : Phase} (h : phase.inRefresh = true) : phase.guarded = true := by
  cases phase <;> first | rfl | cases h

end Phase

/-- The shared state up to what no result here depends on. -/
structure SameStores (inner inner' : DeliveryAuthInner) : Prop where
  cache : inner'.cache = inner.cache
  installedRevisions : inner'.installedRevisions = inner.installedRevisions
  entries : inner'.refreshes.entries = inner.refreshes.entries

inductive Effect (libraries : Libraries) (auth : DeliveryAuth) (inner : DeliveryAuthInner) (i : ℕ) (call : Call) :
    DeliveryAuthInner → Phase → Option Entry → Prop
  /-- Nothing the other calls could see, apart from wake-ups, permits and cool-downs. -/
  | quiet {inner' : DeliveryAuthInner} {phase : Phase} (hsame : SameStores inner inner')
      (hguarded : phase.guarded = call.phase.guarded)
      (hheld : ∀ snapshot, phase.held = some snapshot → call.phase.held = some snapshot)
      (hresult : ∀ snapshot, phase.result = some snapshot → call.phase.result = some snapshot)
      (hcandidate : phase.candidate = none) :
      Effect libraries auth inner i call inner' phase none
  | elected {refreshes : SingleFlight String Unit} {channel : ℕ} (hfree : call.phase.guarded = false)
      (hnone : inner.refreshes.entries.lookup call.registryId = none)
      (hentries : refreshes.entries = inner.refreshes.entries.insert call.registryId channel) :
      Effect libraries auth inner i call { inner with refreshes } .leading none
  | looked {cached : CachedRegistry} {phase : Phase} (hcached : inner.cache.lookup call.registryId = some cached)
      (hguarded : phase.guarded = call.phase.guarded)
      (hheld : ∀ snapshot, phase.held = some snapshot → snapshot = cached.snapshot)
      (hresult : ∀ snapshot, phase.result = some snapshot → snapshot = cached.snapshot)
      (hcandidate : phase.candidate = none) :
      Effect libraries auth inner i call inner phase (some (.read i call.registryId cached.snapshot))
  | requested {previous : Option CachedRegistry} (hphase : call.phase = .resolving previous) :
      Effect libraries auth inner i call inner (.awaiting previous) (some (.requested i call.registryId))
  | received {snapshot : RegistrySnapshot} {etag : Option String} {body : Bytes} (hphase : call.phase = .receiving etag)
      (hparse : RegistrySnapshot.parse libraries.parseJson libraries.parseUrl call.registryId body = .ok snapshot) :
      Effect libraries auth inner i call inner (.checking snapshot etag body) none
  | checked {snapshot : RegistrySnapshot} {etag : Option String} {body : Bytes}
      (hphase : call.phase = .checking snapshot etag body)
      (hadmits : DeliveryAuthInner.admits (inner.installedRevisions.lookup call.registryId) snapshot.revision
        (libraries.sha256 body) = true) :
      Effect libraries auth inner i call inner (.recording snapshot etag body) none
  | recorded {snapshot : RegistrySnapshot} {etag : Option String} {body : Bytes}
      (hphase : call.phase = .recording snapshot etag body) :
      Effect libraries auth inner i call
        (inner.record call.registryId ⟨snapshot.revision, libraries.sha256 body⟩) (.recorded snapshot etag body) none
  | cleared {snapshot : RegistrySnapshot} {etag : Option String} {body : Bytes}
      (hphase : call.phase = .recorded snapshot etag body) :
      Effect libraries auth inner i call (inner.removeColdRetry call.registryId) (.installing snapshot etag body) none
  | installed {snapshot : RegistrySnapshot} {etag : Option String} {body : Bytes}
      (hphase : call.phase = .installing snapshot etag body) :
      Effect libraries auth inner i call
        (inner.insertCache call.registryId (inner.installed snapshot etag body)).releasePermit
        (.releasing (.served snapshot)) (some (.installed i call.registryId snapshot body))
  /-- The entry a leader holds goes back with other times. -/
  | kept (cached : CachedRegistry) {inner' : DeliveryAuthInner} (hguarded : call.phase.guarded = true)
      (hheld : call.phase.held = some cached.snapshot)
      (hcache : inner'.cache = inner.cache.insert call.registryId cached)
      (hinstalled : inner'.installedRevisions = inner.installedRevisions)
      (hentries : inner'.refreshes.entries = inner.refreshes.entries) :
      Effect libraries auth inner i call inner' (.releasing (.served cached.snapshot)) none
  | released {ending : Ending} (hphase : call.phase = .releasing ending) :
      Effect libraries auth inner i call
        { inner with refreshes := (inner.refreshes.remove call.registryId).1 }
        (.sending (inner.refreshes.remove call.registryId).2 ending) none
  | authorized {result : Option RegistrySnapshot} (hphase : call.phase = .returned result) :
      Effect libraries auth inner i call inner .gone (some (.authorized i call.registryId result
        (auth.authorize libraries (DeliveryAuth.only call.registryId result) call.request)))

section Effects

variable {libs : Libraries} {auth : DeliveryAuth} {inner : DeliveryAuthInner} {i : ℕ} {call : Call}
  {inner' : DeliveryAuthInner} {phase : Phase}

theorem Effect.plain {before : Phase} (hphase : call.phase = before)
    (hsame : SameStores inner inner' := by exact ⟨rfl, rfl, rfl⟩) (hgrd : phase.guarded = before.guarded := by rfl)
    (hheld : phase.held = none := by rfl) (hres : phase.result = none := by rfl)
    (hcand : phase.candidate = none := by rfl) : Effect libs auth inner i call inner' phase none :=
  .quiet hsame (by rw [hphase, hgrd]) (by rw [hheld]; exact nofun) (by rw [hres]; exact nofun) hcand

theorem afterResponse_effect (prev : Option CachedRegistry) (hphase : call.phase = .awaiting prev)
    (resp : Response) : Effect libs auth inner i call (afterResponse inner prev resp).1
      (afterResponse inner prev resp).2 none := by
  have hfail : Effect libs auth inner i call inner.releasePermit .failing none :=
    .plain hphase
  cases resp with
  | notModified =>
    cases prev with
    | none => exact hfail
    | some cached =>
      exact .quiet ⟨rfl, rfl, rfl⟩ (by rw [hphase]; rfl) (by rw [hphase]; exact fun _ h => h) nofun rfl
  | failure => exact hfail
  | object size etag =>
    unfold afterResponse
    dsimp only
    split_ifs
    · exact hfail
    · exact .plain hphase

theorem afterBody_effect (etag : Option String) (hphase : call.phase = .receiving etag) (body : Option Bytes) :
    Effect libs auth inner i call (afterBody libs inner call.registryId etag body).1
      (afterBody libs inner call.registryId etag body).2 none := by
  have hfail : Effect libs auth inner i call inner.releasePermit .failing none :=
    .plain hphase
  cases body with
  | none => exact hfail
  | some body =>
    unfold afterBody
    dsimp only
    split_ifs
    · exact hfail
    · cases hparse : RegistrySnapshot.parse libs.parseJson libs.parseUrl call.registryId body with
      | error _ => exact hfail
      | ok snap => exact .received hphase hparse

theorem next_effect {input : Input} {entry : Option Entry}
    (h : call.next libs auth inner i input = some (inner', phase, entry)) :
    Effect libs auth inner i call inner' phase entry := by
  cases input with
  | proceed =>
    cases hphase : call.phase <;> simp only [Call.next, hphase] at h
    case looking =>
      cases hcached : inner.cache.lookup call.registryId with
      | none =>
        rw [hcached] at h
        cases h
        exact .plain hphase
      | some cached =>
        rw [hcached] at h
        cases h
        split_ifs
        · exact .looked hcached (by rw [hphase]; rfl) nofun (fun _ h => (Option.some.inj h).symm) rfl
        · exact .looked hcached (by rw [hphase]; rfl) nofun nofun rfl
    case missed now =>
      cases h
      split_ifs <;> exact .plain hphase
    case electing =>
      obtain ⟨recv, hbegin⟩ | ⟨hnone, hlead, hents⟩ := inner.refreshes.begin_cases call.registryId
      · rw [hbegin] at h
        cases h
        exact .plain hphase
      · split at h
        · rename_i refreshes hbegin
          cases h
          rw [hbegin] at hents
          exact .elected (by rw [hphase]; rfl) hnone hents
        · rename_i refreshes recv hbegin
          simp [hbegin] at hlead
    case following recv =>
      split at h
      · cases h
      · cases h
        exact .plain hphase
      · cases h
        exact .plain hphase
    case leading =>
      split_ifs at h <;> cases h <;> exact .plain hphase
    case admitted | failing =>
      cases hcached : inner.cache.lookup call.registryId with
      | none =>
        rw [hcached] at h
        cases h
        exact .plain hphase
      | some cached =>
        rw [hcached] at h
        cases h
        exact .looked hcached (by rw [hphase]; rfl) (fun _ h => (Option.some.inj h).symm) nofun rfl
    case checking snap etag body =>
      split_ifs at h with hadm <;> cases h
      · exact .checked hphase hadm
      · exact .plain hphase
    case recording snap etag body =>
      cases h
      exact .recorded hphase
    case recorded snap etag body =>
      cases h
      exact .cleared hphase
    case installing snap etag body =>
      cases h
      exact .installed hphase
    case confirming cached =>
      cases h
      exact .kept (inner.confirmed cached) (by rw [hphase]; rfl) (by rw [hphase]; rfl) rfl rfl rfl
    case deferring cached =>
      cases h
      exact .kept (inner.deferred cached) (by rw [hphase]; rfl) (by rw [hphase]; rfl) rfl rfl rfl
    case cooling =>
      cases h
      exact .plain hphase
    case releasing ending =>
      cases h
      exact .released hphase
    case sending sender ending =>
      cases h
      cases ending with
      | served snap =>
        exact .quiet ⟨rfl, rfl, by simp⟩ (by rw [hphase]; rfl) nofun (by rw [hphase]; exact fun _ h => h) rfl
      | unavailable | cancelled => exact .plain hphase ⟨rfl, rfl, by simp⟩
    case returned res =>
      cases h
      exact .authorized hphase
    all_goals cases h
  | resolve found =>
    cases hphase : call.phase <;> simp only [Call.next, hphase] at h
    case resolving prev =>
      split_ifs at h <;> cases h
      · exact .requested hphase
      · exact .plain hphase
    all_goals cases h
  | respond resp =>
    cases hphase : call.phase <;> simp only [Call.next, hphase] at h
    case awaiting prev =>
      cases h
      exact afterResponse_effect prev hphase resp
    all_goals cases h
  | deliver body =>
    cases hphase : call.phase <;> simp only [Call.next, hphase] at h
    case receiving etag =>
      cases h
      exact afterBody_effect etag hphase body
    all_goals cases h
  | cancel =>
    cases hphase : call.phase <;> simp only [Call.next, hphase] at h
    case following recv | awaiting prev | receiving etag =>
      cases h
      exact .plain hphase
    all_goals cases h

end Effects

inductive Session.Moved (libraries : Libraries) (auth : DeliveryAuth) (session : Session) : Session → Prop
  | same : Moved libraries auth session session
  | rejected {request : Request} {failure : AuthFailure} :
      Moved libraries auth session { session with log := session.log ++ [.rejected request failure] }
  | began {request : Request} {registryId : String} (hregistry : auth.registryFor libraries request = .ok registryId) :
      Moved libraries auth session
        { session with
          calls := session.calls ++ [{ request, registryId }]
          log := session.log ++ [.began session.calls.length] }
  | moved {i : ℕ} {call : Call} {inner : DeliveryAuthInner} {phase : Phase} {entry : Option Entry}
      (hcall : session.calls[i]? = some call)
      (heffect : Effect libraries auth session.inner i call inner phase entry) :
      Moved libraries auth session
        { inner, calls := session.calls.set i { call with phase }, log := session.log ++ entry.toList }
  /-- The cache forgets entries, and time passes. -/
  | environment {inner : DeliveryAuthInner}
      (hcache : ∀ id cached, inner.cache.lookup id = some cached → session.inner.cache.lookup id = some cached)
      (hinstalled : inner.installedRevisions = session.inner.installedRevisions)
      (hentries : inner.refreshes.entries = session.inner.refreshes.entries) :
      Moved libraries auth session { session with inner }

theorem Session.step_moved (libs : Libraries) (auth : DeliveryAuth) (s : Session) (action : Action) :
    s.Moved libs auth (s.step libs auth action) := by
  cases action with
  | authorize request =>
    unfold step
    dsimp only
    cases hreg : auth.registryFor libs request with
    | error failure => exact .rejected
    | ok reg => exact .began hreg
  | step i input =>
    unfold step
    dsimp only
    cases hcall : s.calls[i]? with
    | none => exact .same
    | some call =>
      dsimp only
      cases hnext : call.next libs auth s.inner i input with
      | none => exact .same
      | some res => exact .moved hcall (next_effect hnext)
  | evict reg =>
    refine .environment ?_ rfl rfl
    intro id cached h
    rw [HashMap.lookup_erase_eq] at h
    split_ifs at h
    exact h
  | tick elapsed => exact .environment (fun _ _ h => h) rfl rfl

end Mappf.Auth
