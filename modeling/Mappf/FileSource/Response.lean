import Mathlib.Algebra.Group.Nat.Defs
import Mappf.Lib.Bytes

/-! # Responses of the file source

`source/response.rs`: what an HTTP response comes to for the renderer, and what it says about keeping it. A header is
given by what the program reads from it. Times are nanoseconds since the epoch, `now` is the clock at the call;
modification dates are whole seconds. -/
namespace Mappf.FileSource

def second : ℕ := 10 ^ 9

def revalidatedFallbackTtl : ℕ := 60 * second
def heuristicFreshnessDivisor : ℕ := 10
def minHeuristicFreshness : ℕ := 60 * second
def maxHeuristicFreshness : ℕ := 3600 * second
def defaultHeuristicFreshness : ℕ := 300 * second
def negativeCacheTtl : ℕ := 15 * second

inductive ResourceKind
  | unknown | style | source | tile | glyphs | spriteImage | spriteJson | image
  deriving DecidableEq

inductive StoragePolicy
  | permanent | volatile
  deriving DecidableEq

inductive Priority
  | regular | low
  deriving DecidableEq

inductive ErrorReason
  | notFound | server | connection | rateLimit | other

structure Response where
  error : Option (ErrorReason × String) := none
  notModified : Bool := false
  noContent : Bool := false
  data : Option Bytes := none
  etag : Option String := none
  modified : Option ℕ := none
  expires : Option ℕ := none
  mustRevalidate : Bool := false
  retryAfter : Option ℕ := none

namespace Response

def failed (reason : ErrorReason) (message : String) : Response := { error := some (reason, message) }

def ofData (data : Bytes) : Response := { data := some data }

def empty : Response := { noContent := true }

def unchanged : Response := { notModified := true }

end Response

/-! ## Headers -/

structure ParsedCacheControl where
  noStore : Bool := false
  noCache : Bool := false
  isPrivate : Bool := false
  mustRevalidate : Bool := false
  proxyRevalidate : Bool := false
  maxAge : Option ℕ := none
  sMaxage : Option ℕ := none
  staleWhileRevalidate : Option ℕ := none

structure Headers where
  etag : Option String := none
  lastModified : Option ℕ := none
  /-- `parsed_cache_control`: an unreadable field reads as `no-store`. -/
  cacheControl : Option ParsedCacheControl := none
  hasExpires : Bool := false
  /-- An `Expires` that is a date. -/
  expires : Option ℕ := none
  age : ℕ := 0
  date : Option ℕ := none
  retryAfter : Option ℕ := none

def checkedAdd (time duration : ℕ) : Option ℕ := if time + duration < 2 ^ 63 * second then some (time + duration) else none

def sharedMaxAge (control : Option ParsedCacheControl) : Option ℕ :=
  (control.bind (fun control => control.sMaxage.orElse (fun _ => control.maxAge))).map (· * second)

def Headers.currentAge (headers : Headers) (now : ℕ) : ℕ :=
  max (headers.age * second) ((headers.date.map (fun date => now - date * second)).getD 0)

def declaresFreshness (headers : Headers) : Bool := headers.cacheControl.isSome || headers.hasExpires

/-! ## What is kept -/

structure CachedFreshness where
  lifetime : Option ℕ := none
  staleWhileRevalidate : Option ℕ := none
  staleUntil : Option ℕ := none

def CachedFreshness.reanchored (freshness : CachedFreshness) (now currentAge : ℕ) : CachedFreshness :=
  { freshness with
    staleUntil := freshness.staleWhileRevalidate.bind (fun grant =>
      checkedAdd now (freshness.lifetime.getD 0 + grant - currentAge)) }

inductive CachePolicy
  | store (freshness : CachedFreshness)
  | remove
  | unchanged

def staleWhileRevalidateGrant (control : ParsedCacheControl) : Option ℕ :=
  if control.mustRevalidate || control.proxyRevalidate || control.noCache then none
  else control.staleWhileRevalidate.map (· * second)

def freshnessForResponse (headers : Headers) (now : ℕ) : CachedFreshness :=
  let lifetime := sharedMaxAge headers.cacheControl
  let grant := headers.cacheControl.bind staleWhileRevalidateGrant
  { lifetime
    staleWhileRevalidate := grant
    staleUntil := grant.bind (fun grant =>
      match lifetime with
      | some lifetime => checkedAdd now (lifetime + grant - headers.currentAge now)
      | none => headers.expires.bind (fun expires => checkedAdd (expires * second) grant)) }

def cachePolicyForResponse (storagePolicy : StoragePolicy) (headers : Headers) (now : ℕ) : CachePolicy :=
  if storagePolicy ≠ .permanent then .unchanged
  else if headers.cacheControl.any (fun control => control.noStore || control.isPrivate) then .remove
  else .store (freshnessForResponse headers now)

def cachePolicyForNotModified (storagePolicy : StoragePolicy) (headers : Headers) (priorFreshness : CachedFreshness)
    (now : ℕ) : CachePolicy :=
  let policy := cachePolicyForResponse storagePolicy headers now
  if declaresFreshness headers then policy
  else
    match policy with
    | .store _ => .store (priorFreshness.reanchored now (headers.currentAge now))
    | .remove => .remove
    | .unchanged => .unchanged

/-! ## Retries -/

structure RetryDirective where
  reason : String
  delay : Option ℕ

def retryDirective (status : ℕ) (headers : Headers) (now : ℕ) : Option RetryDirective :=
  if status = 408 then some ⟨"request_timeout", none⟩
  else if status = 429 then
    some ⟨"rate_limit", headers.retryAfter.bind (fun time => if now ≤ time then some (time - now) else none)⟩
  else if 500 ≤ status ∧ status ≤ 599 then some ⟨"server", none⟩
  else none

/-! ## The prior response -/

structure PriorResponse where
  nativeData : Option Bytes := none
  cacheData : Option Bytes := none
  etag : Option String := none
  modified : Option ℕ := none
  expires : Option ℕ := none
  mustRevalidate : Bool := false
  freshness : CachedFreshness := {}

def PriorResponse.body (prior : PriorResponse) : Option Bytes := prior.nativeData.orElse (fun _ => prior.cacheData)

structure ResourceTileKey where
  urlTemplate : String
  pixelRatio : ℕ
  x : ℤ
  y : ℤ
  z : ℤ
  deriving DecidableEq

structure ResourceRequestKey where
  url : String
  kind : ResourceKind
  range : Option (ℕ × ℕ)
  tile : Option ResourceTileKey
  deriving DecidableEq

structure ResourceRequest where
  key : ResourceRequestKey
  storagePolicy : StoragePolicy := .permanent
  /-- `loading_methods.has_cache()`. -/
  cacheAllowed : Bool := true
  priority : Priority := .regular
  online : Bool := true
  minimumUpdateInterval : ℕ := 0
  priorData : Option Bytes := none
  priorEtag : Option String := none
  priorModified : Option ℕ := none
  priorExpires : Option ℕ := none

/-- The body, the validators and the expiry are each taken from the request, or else from the cache. -/
def priorResponseWithCache (request : ResourceRequest) (cached : Option Response) (cachedFreshness : CachedFreshness) :
    PriorResponse where
  nativeData := request.priorData
  cacheData := cached.bind Response.data
  etag := request.priorEtag.orElse (fun _ => cached.bind Response.etag)
  modified := request.priorModified.orElse (fun _ => cached.bind Response.modified)
  expires := request.priorExpires.orElse (fun _ => cached.bind Response.expires)
  mustRevalidate := cached.any Response.mustRevalidate
  freshness := cachedFreshness

inductive ConditionalValidator
  | etag (etag : String)
  | modified (modified : ℕ)

def conditionalValidator (prior : PriorResponse) : Option ConditionalValidator :=
  (prior.etag.map .etag).orElse (fun _ => prior.modified.map .modified)

/-! ## The response of an HTTP status -/

variable (headers : Headers)

def heuristicExpires (now : ℕ) : Option ℕ :=
  let age := headers.lastModified.bind (fun date => if date * second ≤ now then some (now - date * second) else none)
  checkedAdd now (match age with
    | none => defaultHeuristicFreshness
    | some age => max minHeuristicFreshness (min maxHeuristicFreshness (age / heuristicFreshnessDivisor)))

def requiresValidation (prior : PriorResponse) : Bool :=
  match headers.cacheControl with
  | some control => control.noCache || control.mustRevalidate || control.sMaxage.isSome
  | none => prior.mustRevalidate

/-- The expiry that a sparse `304` inherits. -/
def inheritedExpires (prior : PriorResponse) (now : ℕ) : Option ℕ :=
  match prior.expires with
  | some expires =>
    if prior.body.isSome ∧ expires ≤ now then
      checkedAdd now (prior.freshness.lifetime.getD revalidatedFallbackTtl - headers.currentAge now)
    else some expires
  | none => none

def expiresFor (prior : PriorResponse) (now : ℕ) : Option ℕ :=
  let noCache := headers.cacheControl.any ParsedCacheControl.noCache ||
    (headers.cacheControl.isNone && prior.mustRevalidate && prior.expires = some 0)
  if requiresValidation headers prior && noCache then some 0
  else
    ((sharedMaxAge headers.cacheControl).bind (fun maxAge => checkedAdd now (maxAge - headers.currentAge now))).orElse
      (fun _ => (headers.expires.map (· * second)).orElse (fun _ => (inheritedExpires headers prior now).orElse
          (fun _ => if requiresValidation headers prior then none else heuristicExpires headers now)))

def withCacheMetadata (response : Response) (headers : Headers) (prior : PriorResponse) (now : ℕ) : Response :=
  { response with
    etag := (headers.etag.orElse (fun _ => prior.etag)).orElse (fun _ => response.etag)
    modified := (headers.lastModified.orElse (fun _ => prior.modified)).orElse (fun _ => response.modified)
    expires := (expiresFor headers prior now).orElse (fun _ => response.expires)
    mustRevalidate := requiresValidation headers prior || response.mustRevalidate }

def responseFromHttp (status : ℕ) (headers : Headers) (body : Bytes) (kind : ResourceKind) (prior : PriorResponse)
    (now : ℕ) : Response :=
  if status = 200 ∨ status = 206 then withCacheMetadata (.ofData body) headers {} now
  else if status = 204 then withCacheMetadata .empty headers {} now
  else if status = 304 then withCacheMetadata .unchanged headers prior now
  else if status = 404 ∨ status = 410 then
    if kind = .tile then .empty else .failed .notFound s!"HTTP {status}"
  else if status = 429 then { Response.failed .rateLimit "HTTP 429" with retryAfter := headers.retryAfter }
  else if 500 ≤ status ∧ status ≤ 599 then .failed .server s!"HTTP {status}"
  else .failed .other s!"HTTP {status}"

def materializeNotModified (response : Response) (prior : PriorResponse) : Option Response :=
  prior.body.map (fun data => { response with notModified := false, data := some data })

/-! ## One attempt -/

structure FetchAttempt where
  response : Response
  retry : Option RetryDirective := none
  cachePolicy : CachePolicy := .unchanged
  cacheResponse : Option Response := none

namespace FetchAttempt

variable (response : Response)

def done : FetchAttempt := { response }

def doneWithCache (cachePolicy : CachePolicy) : FetchAttempt := { response, cachePolicy }

def doneWithCacheResponse (cachePolicy : CachePolicy) (cacheResponse : Response) : FetchAttempt :=
  { response, cachePolicy, cacheResponse := some cacheResponse }

def retryable (reason : String) (delay : Option ℕ) : FetchAttempt :=
  { response, retry := some ⟨reason, delay⟩ }

end FetchAttempt

variable (kind : ResourceKind) (storagePolicy : StoragePolicy) (headers : Headers)

def notModifiedAttempt (prior : PriorResponse) (now : ℕ) : FetchAttempt :=
  let notModified := responseFromHttp 304 headers [] kind prior now
  match materializeNotModified notModified prior with
  | none =>
    if prior.etag.isSome ∨ prior.modified.isSome then .done notModified
    else .done (.failed .other "HTTP 304 received without a prior validator")
  | some materialized =>
    let cachePolicy := cachePolicyForNotModified storagePolicy headers prior.freshness now
    if prior.nativeData.isSome then .doneWithCacheResponse materialized cachePolicy materialized
    else .doneWithCacheResponse notModified cachePolicy materialized

def emptyRepresentation (now : ℕ) : Response :=
  let response := responseFromHttp 204 headers [] kind {} now
  if declaresFreshness headers then response else { response with expires := some (now + negativeCacheTtl) }

def emptyRepresentationCachePolicy (now : ℕ) : CachePolicy :=
  if kind = .tile then cachePolicyForResponse storagePolicy headers now else .unchanged

def emptyRepresentationAttempt (now : ℕ) : FetchAttempt :=
  .doneWithCache (emptyRepresentation kind headers now) (emptyRepresentationCachePolicy kind storagePolicy headers now)

def noRepresentationAttempt (status : ℕ) (headers : Headers) (prior : PriorResponse) (now : ℕ) : FetchAttempt where
  response := responseFromHttp status headers [] kind prior now
  retry := retryDirective status headers now

/-- `None` means that a representation has still to be read. -/
def headerOnlyAttempt (request : ResourceRequest) (status : ℕ) (headers : Headers) (prior : PriorResponse) (now : ℕ) :
    Option FetchAttempt :=
  if status = 304 then some (notModifiedAttempt request.key.kind request.storagePolicy headers prior now)
  else if status = 200 ∨ status = 206 then none
  else if status = 204 then some (emptyRepresentationAttempt request.key.kind request.storagePolicy headers now)
  else some (noRepresentationAttempt request.key.kind status headers prior now)

/-- The attempt that an HTTP response comes to, its body read. -/
def attemptFor (request : ResourceRequest) (status : ℕ) (headers : Headers) (body : Bytes) (prior : PriorResponse)
    (now : ℕ) : FetchAttempt :=
  match headerOnlyAttempt request status headers prior now with
  | some attempt => attempt
  | none => .doneWithCache (responseFromHttp status headers body request.key.kind {} now)
      (cachePolicyForResponse request.storagePolicy headers now)

end Mappf.FileSource
