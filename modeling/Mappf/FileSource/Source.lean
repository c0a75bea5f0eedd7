import Mappf.FileSource.Response
import Mappf.Lib.HashMap
import Mappf.Lib.Machine

/-! # The shared resource cache

`source.rs`, `source/cache.rs` and `source/singleflight.rs`: any number of Database and Network requests of several
renderers on one process-wide cache, cut at every operation on the cache or on the flights and at every await. A Network
request is named by its place among the tasks. The renderer copies the validators of an earlier Database answer for its
key into a Network request, and the body if it withheld it.

The origin is a parameter. A request that ends before it reaches a flight (by the negative cache, by the cooldown
after a failed refresh, or because it is dropped) brings no body and leaves the cache alone; all of these are `drop`.
Metrics, provider health and admission are left out. -/
namespace Mappf.FileSource

def maxAttempts : ℕ := 2
def maxRefreshDeferral : ℕ := 300 * second

/-! ## The cache -/

structure CachedResource where
  response : Response
  freshness : CachedFreshness

def canServeStale (entry : CachedResource) (now : ℕ) : Bool :=
  !entry.response.noContent && entry.response.expires.any (fun expires => expires ≤ now) &&
    entry.freshness.staleUntil.any (fun staleUntil => now < staleUntil)

inductive CacheLookup
  | hit (response : Response)
  | serveStaleWhileRevalidating (response : Response)
  | revalidate (response : Response)
  | miss

def isCacheableResponse (response : Response) : Bool :=
  if response.error.isSome || response.notModified then false else response.noContent || response.data.isSome

def cacheMiss : Response := { Response.failed .notFound "resource cache miss" with noContent := true }

abbrev ResourceCache := HashMap ResourceRequestKey CachedResource

namespace ResourceCache

variable (cache : ResourceCache) (key : ResourceRequestKey) (now : ℕ)

/-- An entry whose explicit lifetime has not elapsed. -/
def freshResponse : Option CachedResource :=
  (cache.lookup key).filter (fun entry => entry.response.expires.any (fun expires => now < expires))

def classify : CacheLookup :=
  match cache.lookup key with
  | none => .miss
  | some entry =>
    if entry.response.expires.any (fun expires => expires ≤ now) then
      if canServeStale entry now then .serveStaleWhileRevalidating entry.response else .revalidate entry.response
    else if entry.response.mustRevalidate && entry.response.expires.isNone then .revalidate entry.response
    else .hit entry.response

def store (response : Response) (freshness : CachedFreshness) : ResourceCache :=
  if isCacheableResponse response then cache.insert key ⟨response, freshness⟩ else cache

end ResourceCache

def databaseAnswer (cache : ResourceCache) (request : ResourceRequest) (now : ℕ) : Response :=
  if request.storagePolicy ≠ .permanent then cacheMiss
  else
    match ResourceCache.classify cache request.key now with
    | .hit response => response
    | .serveStaleWhileRevalidating response => { response with mustRevalidate := false }
    | .revalidate response => { response with mustRevalidate := true }
    | .miss => cacheMiss

variable (request : ResourceRequest)

/-- What the renderer copies into the Network request that follows a Database answer. -/
def ResourceRequest.following (answer : Response) (withheld : Bool) : ResourceRequest :=
  { request with
    priorData := if withheld then answer.data else none
    priorEtag := answer.etag
    priorModified := answer.modified
    priorExpires := answer.expires }

/-! ## The race with another renderer -/

def ResourceRequest.consultsSharedCache : Bool :=
  request.storagePolicy = .permanent && request.cacheAllowed

inductive NativeDatabaseState
  | miss
  | delivered
  | withheldForRevalidation
  deriving DecidableEq

def nativeDatabaseState : NativeDatabaseState :=
  if request.priorData.isSome then .withheldForRevalidation
  else if request.priorEtag.isSome || request.priorModified.isSome || request.priorExpires.isSome then .delivered
  else .miss

structure RefreshDeferral where
  wait : ℕ
  capped : Bool

def refreshDeferral (expires minimumUpdateInterval now : ℕ) : RefreshDeferral :=
  let requested := max (expires - now) minimumUpdateInterval
  { wait := min requested maxRefreshDeferral, capped := maxRefreshDeferral < requested }

def completeDeferredRefresh (deferral : RefreshDeferral) (currentExpires : Option ℕ) : Option Response :=
  if !deferral.capped && currentExpires.isNone then none
  else some { Response.unchanged with expires := currentExpires }

/-! ## Flights -/

structure FlightKey where
  resource : ResourceRequestKey
  persistent : Bool
  priority : Priority
  cacheAllowed : Bool
  priorEtag : Option String
  priorModified : Option ℕ
  priorExpires : Option ℕ
  hasPriorData : Bool
  deriving DecidableEq

def FlightKey.fromRequest (request : ResourceRequest) : FlightKey where
  resource := request.key
  persistent := request.storagePolicy = .permanent
  priority := request.priority
  cacheAllowed := request.cacheAllowed
  priorEtag := request.priorEtag
  priorModified := request.priorModified
  priorExpires := request.priorExpires
  hasPriorData := request.priorData.isSome

inductive FlightState
  | pending
  | complete (response : Response)
  | aborted

/-- The flights by key, and the state of every flight there was. A state that nobody waits for is kept too. -/
structure Flights where
  entries : HashMap FlightKey ℕ := ∅
  states : List FlightState := []

namespace Flights

variable (flights : Flights)

def join (key : FlightKey) : Flights × ℕ × Bool :=
  match flights.entries.lookup key with
  | some flight => (flights, flight, false)
  | none =>
    ({ entries := flights.entries.insert key flights.states.length, states := flights.states ++ [.pending] },
      flights.states.length, true)

/-- The end of a leader: `complete`, or `abort` when it is dropped. -/
def finish (key : FlightKey) (flight : ℕ) (state : FlightState) : Flights where
  entries := if flights.entries.lookup key = some flight then flights.entries.erase key else flights.entries
  states := flights.states.set flight state

end Flights

/-! ## The origin -/

abbrev Content := Option Bytes

structure Representation where
  content : Content
  etag : Option String
  lastModified : Option ℕ

/-- Every validator the origin ever sends names one body of its resource. -/
structure Names where
  named : ResourceRequestKey → String → Content
  dated : ResourceRequestKey → ℕ → Content

namespace Names

variable (names : Names) (key : ResourceRequestKey)

def validator : ConditionalValidator → Content
  | .etag etag => names.named key etag
  | .modified modified => names.dated key modified

def sends (representation : Representation) : Bool :=
  representation.etag.all (fun etag => names.named key etag = representation.content) &&
    representation.lastModified.all (fun modified => names.dated key modified = representation.content)

end Names

/-- The origin answers a request with a `304` when the validator of the request names the representation it has. -/
structure Origin extends Names where
  confirms : ResourceRequestKey → ConditionalValidator → Representation → Bool
  confirms_names : ∀ key validator representation, toNames.sends key representation = true →
    confirms key validator representation = true → toNames.validator key validator = representation.content

inductive Reply
  | transport (message : String)
  | timeout
  | refusal (status : ℕ) (headers : Headers)
  | oversized (message : String)
  /-- The representation or a `304`. A `304` may leave out its validators. -/
  | answer (headers : Headers) (partialContent restatesEtag restatesModified : Bool)

def Origin.attempt (origin : Origin) (current : Representation) (request : ResourceRequest) (prior : PriorResponse)
    (now : ℕ) : Reply → Option FetchAttempt
  | .transport message => some (.retryable (.failed .connection message) "transport" none)
  | .timeout => some (.retryable (.failed .connection "resource request timed out") "timeout" none)
  | .refusal status headers =>
    if status = 200 ∨ status = 204 ∨ status = 206 ∨ status = 304 then none
    else some (attemptFor request status headers [] prior now)
  | .oversized message => some (.done (.failed .other message))
  | .answer headers partialContent restatesEtag restatesModified =>
    if (conditionalValidator prior).any (fun validator => origin.confirms request.key validator current) then
      some (attemptFor request 304
        { headers with
          etag := if restatesEtag then current.etag else none
          lastModified := if restatesModified then current.lastModified else none } [] prior now)
    else
      let headers := { headers with etag := current.etag, lastModified := current.lastModified }
      match current.content with
      | some body => some (attemptFor request (if partialContent then 206 else 200) headers body prior now)
      | none => some (attemptFor request 204 headers [] prior now)

/-! ## Requests -/

inductive Phase
  /-- `resolve_shared_cache_race`. -/
  | racing
  | parked (deferral : RefreshDeferral) (since : ℕ)
  | coalescing
  | waiting (flight : ℕ)
  /-- The leader of a flight, from here on. The number of attempts completed. -/
  | admitted (flight attempts : ℕ)
  | sent (flight attempts : ℕ) (prior : PriorResponse)
  | finishing (flight attempts : ℕ) (attempt : FetchAttempt)
  | completing (flight : ℕ) (response : Response)
  | returned (response : Response)
  | dropped

structure Task where
  request : ResourceRequest
  phase : Phase

structure Session where
  cache : ResourceCache := ∅
  flights : Flights := {}
  tasks : List Task := []
  answers : List (ResourceRequestKey × Response) := []
  current : ResourceRequestKey → Representation := fun _ => ⟨none, none, none⟩
  now : ℕ := 0

/-- What the outside adds to a step: the reply of the origin, and whether a retry fits the budget. -/
structure Input where
  reply : Option Reply := none
  fits : Bool := false

inductive Action
  | database (request : ResourceRequest)
  /-- A Network request, after the Database answer at the place given, delivered or withheld. -/
  | network (request : ResourceRequest) (answer : Option (ℕ × Bool))
  | move (task : ℕ) (input : Input)
  | drop (task : ℕ)
  | publish (key : ResourceRequestKey) (representation : Representation)
  | evict (key : ResourceRequestKey)
  | tick (elapsed : ℕ)

/-- The entry an attempt looks up. -/
def Session.consulted (s : Session) (request : ResourceRequest) : Option CachedResource :=
  if request.consultsSharedCache then s.cache.lookup request.key else none

structure Effect where
  cache : ResourceCache
  flights : Flights
  phase : Phase

def Session.prior (s : Session) (request : ResourceRequest) : PriorResponse :=
  let cached := s.consulted request
  priorResponseWithCache request (cached.map CachedResource.response) ((cached.map CachedResource.freshness).getD {})

/-- `finish_fetch`, on the cache. -/
def finishFetch (cache : ResourceCache) (key : ResourceRequestKey) (attempt : FetchAttempt) : ResourceCache :=
  match attempt.cachePolicy with
  | .store freshness => ResourceCache.store cache key (attempt.cacheResponse.getD attempt.response) freshness
  | .remove => cache.erase key
  | .unchanged => cache

def Session.race (s : Session) (request : ResourceRequest) : Phase :=
  match (if request.consultsSharedCache then ResourceCache.freshResponse s.cache request.key s.now else none) with
  | none => .coalescing
  | some cached =>
    if nativeDatabaseState request = .delivered ∧ request.priority = .low ∧ request.online then
      .parked (refreshDeferral (cached.response.expires.getD 0) request.minimumUpdateInterval s.now) s.now
    else .returned cached.response

def Session.next (origin : Origin) (s : Session) (request : ResourceRequest) (input : Input) : Phase → Option Effect
  | .racing => some ⟨s.cache, s.flights, s.race request⟩
  | .parked deferral since =>
    let currentExpires :=
      (ResourceCache.freshResponse s.cache request.key s.now).bind (fun entry => entry.response.expires)
    if s.now < since + deferral.wait then none
    else
      match completeDeferredRefresh deferral currentExpires with
      | some response => some ⟨s.cache, s.flights, .returned response⟩
      | none => some ⟨s.cache, s.flights, .coalescing⟩
  | .coalescing =>
    match s.flights.join (.fromRequest request) with
    | (flights, flight, true) => some ⟨s.cache, flights, .admitted flight 0⟩
    | (flights, flight, false) => some ⟨s.cache, flights, .waiting flight⟩
  | .waiting flight =>
    match s.flights.states[flight]? with
    | some (.complete response) => some ⟨s.cache, s.flights, .returned response⟩
    | some .aborted => some ⟨s.cache, s.flights, .coalescing⟩
    | some .pending | none => none
  | .admitted flight attempts => some ⟨s.cache, s.flights, .sent flight attempts (s.prior request)⟩
  | .sent flight attempts prior =>
    match input.reply.bind (origin.attempt (s.current request.key) request prior s.now) with
    | none => none
    | some attempt => some ⟨s.cache, s.flights, .finishing flight (attempts + 1) attempt⟩
  | .finishing flight attempts attempt =>
    if attempt.retry.isSome ∧ attempts < maxAttempts ∧ input.fits then
      some ⟨s.cache, s.flights, .admitted flight attempts⟩
    else some ⟨finishFetch s.cache request.key attempt, s.flights, .completing flight attempt.response⟩
  | .completing flight response =>
    some ⟨s.cache, s.flights.finish (.fromRequest request) flight (.complete response), .returned response⟩
  | .returned _ | .dropped => none

namespace Session

def take (s : Session) (i : ℕ) (request : ResourceRequest) (effect : Effect) : Session :=
  { s with cache := effect.cache, flights := effect.flights, tasks := s.tasks.set i ⟨request, effect.phase⟩ }

def composed (s : Session) (request : ResourceRequest) : Option (ℕ × Bool) → Option ResourceRequest
  | none => some { request with priorData := none, priorEtag := none, priorModified := none, priorExpires := none }
  | some (place, withheld) =>
    match s.answers[place]? with
    | some (key, answer) => if key = request.key then some (request.following answer withheld) else none
    | none => none

def step (origin : Origin) (s : Session) : Action → Session
  | .database request =>
    { s with answers := s.answers ++ [(request.key, databaseAnswer s.cache request s.now)] }
  | .network request answer =>
    match s.composed request answer with
    | none => s
    | some request => { s with tasks := s.tasks ++ [⟨request, .racing⟩] }
  | .move i input =>
    match s.tasks[i]? with
    | none => s
    | some task =>
      match s.next origin task.request input task.phase with
      | none => s
      | some effect => s.take i task.request effect
  | .drop i =>
    match s.tasks[i]? with
    | none => s
    | some task =>
      match task.phase with
      | .finishing _ _ _ | .completing _ _ | .returned _ | .dropped => s
      | .admitted flight _ | .sent flight _ _ =>
        s.take i task.request ⟨s.cache, s.flights.finish (.fromRequest task.request) flight .aborted, .dropped⟩
      | .racing | .parked _ _ | .coalescing | .waiting _ => s.take i task.request ⟨s.cache, s.flights, .dropped⟩
  | .publish key representation =>
    if origin.sends key representation then { s with current := Function.update s.current key representation } else s
  | .evict key => { s with cache := s.cache.erase key }
  | .tick elapsed => { s with now := s.now + elapsed }

end Session

def sessions (origin : Origin) : Machine Session where
  init := {}
  step := fun s s' => ∃ action, s' = s.step origin action

/-! ## Pairs of a body and its validators -/

/-- The body is the one named by the ETag, or by the date when there is no ETag. -/
def Names.Pairs (names : Names) (key : ResourceRequestKey) (content : Content) (etag : Option String)
    (modified : Option ℕ) : Prop :=
  match etag with
  | some etag => names.named key etag = content
  | none => ∀ date, modified = some date → names.dated key date = content

def Response.Paired (names : Names) (key : ResourceRequestKey) (response : Response) : Prop :=
  names.Pairs key response.data response.etag response.modified

/-- Every entry of the cache, and every body that is returned, goes with its validators. -/
def Session.Paired (names : Names) (s : Session) : Prop :=
  (∀ key entry, s.cache.lookup key = some entry → entry.response.Paired names key) ∧
    ∀ task ∈ s.tasks, ∀ response, task.phase = .returned response → response.data.isSome →
      response.Paired names task.request.key

end Mappf.FileSource
