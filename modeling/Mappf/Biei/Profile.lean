import Mappf.Biei.Renderer
import Mappf.Common.SingleFlight
import Mappf.Styles.Catalog

/-! # Preparing styles

`renderer/maplibre/profile.rs`, `load_style_json`, cut at every cache access, every call of the catalog and every
await: any number of loads interleave at these points. The provider, the permits and the clock are inputs; a load
can be dropped where it awaits. TileJSON has its own caches and flights and is left out, as are the namespaces of an
authorization, which nothing here reads. -/
namespace Mappf.Biei

open Common (SingleFlight Flight)
open Styles (StyleId StyleRevision StyleCatalog StyleRevisionObservation RevalidationFence ContentLibraries Instant
  Duration)

/-! ## Errors -/

inductive ProfileFetchFailureScope
  | attempt
  | caller
  deriving DecidableEq

structure ProfileFetchError where
  error : ProfilePreparationError
  negativeCacheable : Bool
  scope : ProfileFetchFailureScope
  deriving DecidableEq

def styleLoadFailed (styleId : StyleId) (source : String) : ProfilePreparationError :=
  .styleUnavailable styleId source

namespace ProfileFetchError

def permanent (error : ProfilePreparationError) : ProfileFetchError := ⟨error, true, .attempt⟩
def transient (error : ProfilePreparationError) : ProfileFetchError := ⟨error, false, .attempt⟩
def callerDeadline : ProfileFetchError := ⟨.callerDeadlineExceeded, false, .caller⟩

def isAttemptWide (failure : ProfileFetchError) : Bool := failure.scope = .attempt

def transientLoad (styleId : StyleId) (source : String) : ProfileFetchError :=
  transient (styleLoadFailed styleId source)

def permanentInvalid (styleId : StyleId) (source : String) : ProfileFetchError :=
  permanent (.invalidPreparedContent (.style styleId) source)

end ProfileFetchError

/-! ## Fetching -/

structure RenderAuthorization where
  cachePartition : CredentialCachePartition
  providerBearerToken : Option String
  deriving DecidableEq

def credentialPartition (authorization : Option RenderAuthorization) : Option CredentialCachePartition :=
  authorization.map RenderAuthorization.cachePartition

structure FetchedStyleJson where
  json : String
  servedFreshness : Duration
  etag : Option String

inductive StyleFetchOutcome
  | fetched (fetched : FetchedStyleJson)
  | notModified (servedFreshness : Option Duration) (etag : Option String)

/-- What the provider comes to, before the checks of the fetch layer. A local file never answers 304. -/
inductive ProviderAnswer
  | failed (failure : ProfileFetchError)
  | notModified (servedFreshness : Option Duration) (etag : Option String)
  | success (fetched : FetchedStyleJson)

structure PreparerLibraries extends ContentLibraries where
  redactedUrl : String → String
  wire : Styles.Wire

/-- `fetch_style_json_with_auth`: no 304 without a validator, no body that is not JSON. -/
def fetchStyleJsonWithAuth (libraries : PreparerLibraries) (styleId : StyleId) (styleUrl : String)
    (ifNoneMatch : Option String) : ProviderAnswer → Except ProfileFetchError StyleFetchOutcome
  | .failed failure => .error failure
  | .notModified servedFreshness etag =>
    if ifNoneMatch.isNone then
      .error (.transientLoad styleId ("unsolicited 304 for " ++ libraries.redactedUrl styleUrl))
    else .ok (.notModified servedFreshness etag)
  | .success fetched =>
    match libraries.fromStr fetched.json with
    | .error err => .error (.permanentInvalid styleId ("style JSON parse failed: " ++ err))
    | .ok _ => .ok (.fetched fetched)

/-! ## The preparer -/

structure StyleCacheKey where
  revision : StyleRevision
  credential : Option CredentialCachePartition
  deriving DecidableEq

structure CachedStyleJson where
  json : String
  etag : Option String
  servedFreshness : Duration
  deriving DecidableEq

structure MapLibreProfilePreparer where
  styleCatalog : StyleCatalog
  styleJsonCache : HashMap StyleCacheKey CachedStyleJson := ∅
  styleErrorCache : HashMap StyleCacheKey ProfilePreparationError := ∅
  inflightStyleLoads : SingleFlight StyleCacheKey ProfileFetchError := {}
  now : Instant := 0

namespace MapLibreProfilePreparer

variable (preparer : MapLibreProfilePreparer)

def needsRevalidation (styleId : StyleId) : Bool := preparer.styleCatalog.needsRevalidation preparer.now styleId

variable (key : StyleCacheKey)

def insertStyle (cached : CachedStyleJson) : MapLibreProfilePreparer :=
  { preparer with styleJsonCache := preparer.styleJsonCache.insert key cached }

def invalidateStyle : MapLibreProfilePreparer :=
  { preparer with styleJsonCache := preparer.styleJsonCache.erase key }

def insertError (error : ProfilePreparationError) : MapLibreProfilePreparer :=
  { preparer with styleErrorCache := preparer.styleErrorCache.insert key error }

def invalidateError : MapLibreProfilePreparer :=
  { preparer with styleErrorCache := preparer.styleErrorCache.erase key }

end MapLibreProfilePreparer

/-! ## One load -/

/-- What a leader read before its fetch. -/
structure Attempt where
  stale : Option CachedStyleJson
  firstObservation : Bool
  revalidationFence : RevalidationFence
  deriving DecidableEq

/-- How a leader ends: only a shared failure is published to the followers. -/
inductive LoadEnding
  | served (json : String)
  | failed (failure : ProfileFetchError) (shared : Bool)
  /-- A panic, or the future was dropped. -/
  | abandoned
  deriving DecidableEq

def LoadEnding.outcome : LoadEnding → Option ProfileFetchError
  | .failed failure true => some failure
  | .failed _ false | .served _ | .abandoned => none

inductive LoadPhase
  | looking
  | reading
  | checking (cached : CachedStyleJson)
  | electing
  | following (receiver : Watch.Receiver)
  | leading
  | rereading
  | rechecking (stale : CachedStyleJson)
  | observing (stale : Option CachedStyleJson)
  | fencing (stale : Option CachedStyleJson) (firstObservation : Bool)
  | acquiring (attempt : Attempt)
  | resolving (attempt : Attempt)
  | awaiting (attempt : Attempt) (styleUrl : String)
  | failing (failure : ProfileFetchError)
  | storing (attempt : Attempt) (cached : CachedStyleJson)
  | clearingObserved (attempt : Attempt) (cached : CachedStyleJson)
  | clearingRequested (attempt : Attempt) (cached : CachedStyleJson)
  | recording (attempt : Attempt) (cached : CachedStyleJson)
  | answering (attempt : Attempt) (cached : CachedStyleJson)
  | retaining (cached : CachedStyleJson)
  | releasing (ending : LoadEnding)
  | sending (sender : Option ℕ) (ending : LoadEnding)
  | returned (result : Except ProfileFetchError String)
  | gone
  deriving DecidableEq

structure Load where
  style : StyleRevision
  authorization : Option RenderAuthorization
  deadline : Instant
  phase : LoadPhase := .looking
  deriving DecidableEq

def Load.key (load : Load) : StyleCacheKey := ⟨load.style, credentialPartition load.authorization⟩

inductive PermitAnswer
  | granted
  | timedOut
  | closed

inductive LoadInput
  | proceed
  | timeout
  | acquire (answer : PermitAnswer)
  | respond (answer : ProviderAnswer)
  | cancel

/-- A body that a provider sent, with the style and the authorization of the fetch. -/
structure StyleResponse where
  styleId : StyleId
  authorization : Option RenderAuthorization
  json : String

/-- The entry a fetch leads to. A 304 replaces the fields it restates and keeps the rest of the held entry. -/
def representation (styleId : StyleId) (stale : Option CachedStyleJson) :
    StyleFetchOutcome → Except ProfileFetchError CachedStyleJson
  | .fetched fetched => .ok ⟨fetched.json, fetched.etag, fetched.servedFreshness⟩
  | .notModified servedFreshness etag =>
    match stale with
    | none => .error (.transientLoad styleId "provider answered 304 without a held representation")
    | some stale => .ok ⟨stale.json, etag.or stale.etag, servedFreshness.getD stale.servedFreshness⟩

def notRegistered (style : StyleRevision) : ProfileFetchError :=
  .transient (.infrastructureFailure ("style definition for " ++ style.id.value ++ "@" ++
    toString style.version.toNat ++ " is not registered"))

def semaphoreClosed : ProfileFetchError := .transient (.infrastructureFailure "profile fetch semaphore closed")

def superseded (styleId : StyleId) : ProfileFetchError :=
  .transientLoad styleId
    "requested style revision was superseded before its representation could be served; retry with the latest revision"

namespace Load

variable (libraries : PreparerLibraries) (preparer : MapLibreProfilePreparer) (load : Load)

def observedKey (cached : CachedStyleJson) : StyleCacheKey :=
  ⟨⟨load.style.id, libraries.styleContentVersion cached.json⟩, load.key.credential⟩

def afterAnswer (attempt : Attempt) (styleUrl : String) (answer : ProviderAnswer) : LoadPhase × Option StyleResponse :=
  match fetchStyleJsonWithAuth libraries load.style.id styleUrl (attempt.stale.bind CachedStyleJson.etag) answer with
  | .error failure => (.failing failure, none)
  | .ok outcome =>
    (match representation load.style.id attempt.stale outcome with
      | .error failure => .releasing (.failed failure true)
      | .ok cached => .storing attempt cached,
     match outcome with
      | .fetched fetched => some ⟨load.style.id, load.authorization, fetched.json⟩
      | .notModified _ _ => none)

/-- Which bytes answer the request, after the catalog has been told of the content that was observed. -/
def respond (attempt : Attempt) (cached : CachedStyleJson) : LoadPhase :=
  if libraries.styleContentVersion cached.json = load.style.version then .releasing (.served cached.json)
  else
    match attempt.stale with
    -- new bytes are not labelled with the revision that was admitted before
    | some stale => .releasing (.served stale.json)
    | none =>
      if attempt.firstObservation then .retaining cached
      else if preparer.styleCatalog.isBootstrapRevision load.style then .retaining cached
      else .releasing (.failed (superseded load.style.id) true)

/-- The next step of a load on its own: the shared state and the load's new phase. -/
def proceed : Option (MapLibreProfilePreparer × LoadPhase) :=
  match load.phase with
  | .looking =>
    match preparer.styleErrorCache.lookup load.key with
    | some error => some (preparer, .returned (.error (.permanent error)))
    | none => some (preparer, .reading)
  | .reading =>
    match preparer.styleJsonCache.lookup load.key with
    | some cached => some (preparer, .checking cached)
    | none => some (preparer, .electing)
  | .checking cached =>
    if preparer.needsRevalidation load.style.id then some (preparer, .electing)
    else some (preparer, .returned (.ok cached.json))
  | .electing =>
    match preparer.inflightStyleLoads.begin load.key with
    | (flights, .leader) => some ({ preparer with inflightStyleLoads := flights }, .leading)
    | (flights, .follower receiver) => some ({ preparer with inflightStyleLoads := flights }, .following receiver)
  | .following receiver =>
    match preparer.inflightStyleLoads.wait receiver with
    | none => none
    | some (some failure) => some (preparer, .returned (.error failure))
    | some none => some (preparer, .looking)
  | .leading =>
    match preparer.styleErrorCache.lookup load.key with
    | some error => some (preparer, .releasing (.failed (.permanent error) false))
    | none => some (preparer, .rereading)
  | .rereading =>
    match preparer.styleJsonCache.lookup load.key with
    | some stale => some (preparer, .rechecking stale)
    | none => some (preparer, .observing none)
  | .rechecking stale =>
    if preparer.needsRevalidation load.style.id then some (preparer, .observing (some stale))
    else some (preparer, .releasing (.served stale.json))
  | .observing stale =>
    some (preparer, .fencing stale (preparer.styleCatalog.observedVersion load.style.id).isNone)
  | .fencing stale firstObservation =>
    some (preparer, .acquiring ⟨stale, firstObservation, preparer.styleCatalog.revalidationFence load.style.id⟩)
  | .resolving attempt =>
    match preparer.styleCatalog.definitionForRevision load.style with
    | some definition => some (preparer, .awaiting attempt definition.styleUrl)
    | none => some (preparer, .failing (notRegistered load.style))
  | .failing failure =>
    some (if failure.negativeCacheable then preparer.insertError load.key failure.error else preparer,
      .releasing (.failed failure failure.isAttemptWide))
  | .storing attempt cached =>
    some (preparer.insertStyle (load.observedKey libraries cached) cached, .clearingObserved attempt cached)
  | .clearingObserved attempt cached =>
    some (preparer.invalidateError (load.observedKey libraries cached), .clearingRequested attempt cached)
  | .clearingRequested attempt cached => some (preparer.invalidateError load.key, .recording attempt cached)
  | .recording attempt cached =>
    match preparer.styleCatalog.recordObservedForGeneration libraries.wire preparer.now load.style.id
        (libraries.styleContentVersion cached.json) cached.servedFreshness attempt.revalidationFence with
    | (catalog, .ok _) => some ({ preparer with styleCatalog := catalog }, .answering attempt cached)
    | (catalog, .error _) => some ({ preparer with styleCatalog := catalog }, .releasing .abandoned)
  | .answering attempt cached => some (preparer, load.respond libraries preparer attempt cached)
  | .retaining cached => some (preparer.insertStyle load.key cached, .releasing (.served cached.json))
  | .releasing ending =>
    match preparer.inflightStyleLoads.remove load.key with
    | (flights, sender) => some ({ preparer with inflightStyleLoads := flights }, .sending sender ending)
  | .sending sender ending =>
    some ({ preparer with inflightStyleLoads := preparer.inflightStyleLoads.finish sender ending.outcome },
      match ending with
      | .served json => .returned (.ok json)
      | .failed failure _ => .returned (.error failure)
      | .abandoned => .gone)
  | .acquiring _ | .awaiting _ _ | .returned _ | .gone => none

/-- The next step with its input, and what the provider sent in it. -/
def next : LoadInput → Option (MapLibreProfilePreparer × LoadPhase × Option StyleResponse)
  | .proceed => (load.proceed libraries preparer).map (fun (preparer, phase) => (preparer, phase, none))
  | .timeout =>
    match load.phase with
    | .following receiver =>
      if load.deadline ≤ preparer.now ∧ (preparer.inflightStyleLoads.wait receiver).isNone then
        some (preparer, .returned (.error .callerDeadline), none)
      else none
    | _ => none
  | .acquire answer =>
    match load.phase with
    | .acquiring attempt =>
      match answer with
      | .granted => some (preparer, .resolving attempt, none)
      | .timedOut => some (preparer, .failing .callerDeadline, none)
      | .closed => some (preparer, .failing semaphoreClosed, none)
    | _ => none
  | .respond answer =>
    match load.phase with
    | .awaiting attempt styleUrl => some (preparer, load.afterAnswer libraries attempt styleUrl answer)
    | _ => none
  | .cancel =>
    match load.phase with
    | .following _ => some (preparer, .gone, none)
    | .acquiring _ | .awaiting _ _ => some (preparer, .releasing .abandoned, none)
    | _ => none

end Load

/-! ## Sessions -/

structure ProfileSession where
  preparer : MapLibreProfilePreparer
  loads : List Load := []
  responses : List StyleResponse := []

inductive ProfileAction
  | load (style : StyleRevision) (authorization : Option RenderAuthorization) (deadline : Instant)
  | step (load : ℕ) (input : LoadInput)
  | evictStyle (key : StyleCacheKey)
  | evictError (key : StyleCacheKey)
  | markStyleLoadFailed (revision : StyleRevision) (authorization : Option RenderAuthorization)
  | requestRevalidation (styleId : StyleId) (hintId : Option String)
  | applyClusterObservation (observation : StyleRevisionObservation)
  | tick (elapsed : Duration)

namespace MapLibreProfilePreparer

def markStyleLoadFailed (preparer : MapLibreProfilePreparer) (revision : StyleRevision)
    (authorization : Option RenderAuthorization) : MapLibreProfilePreparer :=
  let key : StyleCacheKey := ⟨revision, credentialPartition authorization⟩
  (preparer.invalidateStyle key).insertError key (styleLoadFailed revision.id "MapLibre rejected the prepared style")

end MapLibreProfilePreparer

namespace ProfileSession

variable (libraries : PreparerLibraries)

def start (interval : Duration) (configurations : List StyleCatalog.Configuration) : ProfileSession where
  preparer := { styleCatalog :=
    configurations.foldl StyleCatalog.configure (StyleCatalog.withMinimumRevalidationInterval interval) }

def setPreparer (session : ProfileSession) (preparer : MapLibreProfilePreparer) : ProfileSession :=
  { session with preparer := preparer }

def step (session : ProfileSession) : ProfileAction → ProfileSession
  | .load style authorization deadline =>
    -- a node admits only tasks whose revision the catalog accepts
    if session.preparer.styleCatalog.acceptsRevision style then
      { session with loads := session.loads ++ [{ style, authorization, deadline }] }
    else session
  | .step i input =>
    match session.loads[i]? with
    | none => session
    | some load =>
      match load.next libraries session.preparer input with
      | none => session
      | some (preparer, phase, response) =>
        { preparer
          loads := session.loads.set i { load with phase }
          responses := session.responses ++ response.toList }
  | .evictStyle key => session.setPreparer (session.preparer.invalidateStyle key)
  | .evictError key => session.setPreparer (session.preparer.invalidateError key)
  | .markStyleLoadFailed revision authorization =>
    session.setPreparer (session.preparer.markStyleLoadFailed revision authorization)
  | .requestRevalidation styleId hintId =>
    session.setPreparer { session.preparer with
      styleCatalog := (session.preparer.styleCatalog.requestRevalidationInner styleId hintId).1 }
  | .applyClusterObservation observation =>
    session.setPreparer { session.preparer with
      styleCatalog := (session.preparer.styleCatalog.applyClusterObservation libraries.wire.json observation).1 }
  | .tick elapsed => session.setPreparer { session.preparer with now := session.preparer.now + elapsed }

end ProfileSession

def profileSessions (libraries : PreparerLibraries) (interval : Duration)
    (configurations : List StyleCatalog.Configuration) : Machine ProfileSession where
  init := .start interval configurations
  step := fun session session' => ∃ action, session' = session.step libraries action

end Mappf.Biei
