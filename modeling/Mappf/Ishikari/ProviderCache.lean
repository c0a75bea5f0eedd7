import Mathlib.Algebra.Group.Nat.Defs
import Mappf.Common.SingleFlight
import Mappf.Lib.Machine
import Mappf.Lib.Bytes

/-! # The provider cache

`upstream/cache.rs` and `upstream/mod.rs`, cut at every operation on one of the caches, on the counter of refreshes
and on the flights, and at every await: any number of requests, background revalidations and refreshes interleave at
these points. A task is named by its place among the tasks. What the origin answers is an input, and so are the
evictions of each cache. A request can be dropped where it awaits. Times are nanoseconds. Metrics and the admission of
fetches are left out; a fetch that is not admitted fails.

Two things are kept that the program does not keep: a value that came from the origin carries how many refreshes had
begun when the fence of its fetch was captured, and the session records the refreshes that returned and what lookups
and followers came to. -/
namespace Mappf.Ishikari.Upstream

open Common (SingleFlight Flight)

/-! ## Representations -/

def providerStaleRevalidationFailureCooldown : ℕ := 5 * 10 ^ 9

structure HttpError where
  status : ℕ
  message : String

structure Validators where
  etag : Option String
  lastModified : Option ℕ

structure CachePolicy where
  store : Bool
  fresh : ℕ
  swr : ℕ
  responseCacheControl : String

structure NegativeCachePolicy where
  store : Bool
  fresh : ℕ

structure FetchedProviderResource where
  bytes : Bytes
  policy : CachePolicy
  validators : Validators
  contentEncoding : Option String
  initialAge : ℕ

structure FetchedProviderNegative where
  status : ℕ
  policy : NegativeCachePolicy
  initialAge : ℕ

inductive ProviderOriginOutcome
  | modified (fetched : FetchedProviderResource)
  /-- A `304`, with the representation that was revalidated. -/
  | notModified (fetched : FetchedProviderResource)
  | negative (negative : FetchedProviderNegative)

structure ProviderResource where
  bytes : Bytes
  cacheControl : String
  ageSeconds : ℕ
  validators : Validators
  contentEncoding : Option String

abbrev ProviderResult := Except HttpError ProviderResource

def ProviderResource.fetched (fetched : FetchedProviderResource) : ProviderResource where
  bytes := fetched.bytes
  cacheControl := fetched.policy.responseCacheControl
  ageSeconds := fetched.initialAge / 10 ^ 9
  validators := fetched.validators
  contentEncoding := fetched.contentEncoding

def providerNegativeError (status : ℕ) : HttpError := ⟨status, if status = 410 then "gone" else "not found"⟩

structure CachedProviderRepresentation where
  bytes : Bytes
  cacheControl : String
  validators : Validators
  contentEncoding : Option String

inductive CachedProviderFetch
  | found (invalidationEpoch : UInt64) (representation : CachedProviderRepresentation)
      (ageAtInsert storedAt freshUntil staleUntil : ℕ)
  | negative (invalidationEpoch : UInt64) (status : ℕ) (freshUntil staleUntil : ℕ)

inductive Freshness
  | fresh
  | stale
  | expired
  deriving DecidableEq

namespace CachedProviderFetch

def invalidationEpoch : CachedProviderFetch → UInt64
  | found epoch _ _ _ _ _ | negative epoch _ _ _ => epoch

def freshness (now : ℕ) : CachedProviderFetch → Freshness
  | found _ _ _ _ freshUntil staleUntil | negative _ _ freshUntil staleUntil =>
    if now < freshUntil then .fresh else if now < staleUntil then .stale else .expired

def intoResult (now : ℕ) : CachedProviderFetch → ProviderResult
  | found _ representation ageAtInsert storedAt _ _ => .ok
      { bytes := representation.bytes
        cacheControl := representation.cacheControl
        ageSeconds := (now - storedAt + ageAtInsert) / 10 ^ 9
        validators := representation.validators
        contentEncoding := representation.contentEncoding }
  | negative _ status _ _ => .error (providerNegativeError status)

def representation : CachedProviderFetch → Option CachedProviderRepresentation
  | found _ representation _ _ _ _ => some representation
  | negative _ _ _ _ => none

end CachedProviderFetch

/-! ## Fences -/

structure FetchFence where
  keyEpoch : Option UInt64
  refreshes : UInt64

def FetchFence.storedEpoch (fence : FetchFence) : UInt64 := fence.keyEpoch.getD 0

/-- The entry `put_found` stores, `none` when the response is not to be retained. -/
def FetchedProviderResource.retained (fetched : FetchedProviderResource) (fence : FetchFence) (storedAt : ℕ) :
    Option CachedProviderFetch :=
  if !fetched.policy.store then none
  else
    let freshRemaining := fetched.policy.fresh - fetched.initialAge
    let retentionRemaining := fetched.policy.fresh + fetched.policy.swr - fetched.initialAge
    if retentionRemaining = 0 then none
    else some (.found fence.storedEpoch
      ⟨fetched.bytes, fetched.policy.responseCacheControl, fetched.validators, fetched.contentEncoding⟩
      fetched.initialAge storedAt (storedAt + freshRemaining) (storedAt + retentionRemaining))

def FetchedProviderNegative.retained (negative : FetchedProviderNegative) (fence : FetchFence) (now : ℕ) :
    Option CachedProviderFetch :=
  if !negative.policy.store then none
  else
    let fresh := negative.policy.fresh - negative.initialAge
    if fresh = 0 then none else some (.negative fence.storedEpoch negative.status (now + fresh) (now + fresh))

def ProviderOriginOutcome.retained (fence : FetchFence) (now : ℕ) :
    ProviderOriginOutcome → Option CachedProviderFetch
  | modified fetched | notModified fetched => fetched.retained fence now
  | negative answer => answer.retained fence now

/-- What a leader answers, and publishes to its followers. -/
def ProviderOriginOutcome.response : ProviderOriginOutcome → ProviderResult
  | modified fetched | notModified fetched => .ok (.fetched fetched)
  | negative answer => .error (providerNegativeError answer.status)

structure ProviderFlightOutcome where
  fence : FetchFence
  result : ProviderResult

/-- A value that came from the origin, with the number of refreshes that had begun when the fence of the fetch was
captured. -/
structure Sourced (α : Type) where
  value : α
  fenced : ℕ

inductive BodyValidation
  | bytes
  | json
  deriving DecidableEq

structure ProviderFetchCacheKey where
  resource : String
  acceptedContentTypes : List String
  bodyValidation : BodyValidation
  url : String
  deriving DecidableEq

structure ProviderFetchCache where
  entries : HashMap ProviderFetchCacheKey (Sourced CachedProviderFetch) := ∅
  invalidationEpochs : HashMap ProviderFetchCacheKey UInt64 := ∅
  refreshes : UInt64 := 0
  failedRevalidations : HashMap ProviderFetchCacheKey ℕ := ∅
  inflight : SingleFlight ProviderFetchCacheKey (Sourced ProviderFlightOutcome) := {}
  now : ℕ := 0

namespace ProviderFetchCache

variable (cache : ProviderFetchCache) (key : ProviderFetchCacheKey)

def invalidationEpoch : UInt64 := (cache.invalidationEpochs.lookup key).getD 0

/-- The second half of `get`, on the entry that was found. -/
def reachable (entry : CachedProviderFetch) : Option Freshness :=
  if entry.invalidationEpoch ≠ cache.invalidationEpoch key then none
  else
    match entry.freshness cache.now with
    | .expired => none
    | .fresh => some .fresh
    | .stale => some .stale

def storedFreshness : Option Freshness := (cache.entries.lookup key).map (fun entry => entry.value.freshness cache.now)

/-- The second half of `is_superseded`, once the counter has moved. -/
def epochMoved (fence : FetchFence) : Bool :=
  match cache.invalidationEpochs.lookup key with
  | some current => some current ≠ fence.keyEpoch
  | none => true

/-- `is_superseded` at one moment. -/
def isSuperseded (fence : FetchFence) : Bool :=
  if cache.refreshes = fence.refreshes then false else cache.epochMoved key fence

def eraseEntry : ProviderFetchCache := { cache with entries := cache.entries.erase key }

def eraseEpoch : ProviderFetchCache := { cache with invalidationEpochs := cache.invalidationEpochs.erase key }

def eraseFailure : ProviderFetchCache := { cache with failedRevalidations := cache.failedRevalidations.erase key }

end ProviderFetchCache

/-! ## Tasks -/

inductive Role
  | request
  /-- Under flight ownership, before a fetch. -/
  | leader
  /-- `stale_representation`, for a request that has its answer. -/
  | revalidation (served : CachedProviderFetch)

/-- A fetch under way. A background revalidation has the representation it revalidates. -/
structure Fetch where
  fence : FetchFence
  fenced : ℕ
  stale : Option CachedProviderRepresentation

/-- What a guard that is dropped without an outcome leaves its owner to do. -/
inductive Next
  | again
  | serve (served : CachedProviderFetch)
  | gone

inductive Phase
  | looking (role : Role)
  | comparing (role : Role) (entry : Sourced CachedProviderFetch) (asked : ℕ)
  /-- `stale_revalidation_allowed`, before and after the election. -/
  | allowing (leading : Bool) (served : CachedProviderFetch)
  | clearingCooldown (leading : Bool) (served : CachedProviderFetch)
  | electing (served : Option CachedProviderFetch)
  | following (receiver : Watch.Receiver)
  | woken (outcome : Sourced ProviderFlightOutcome) (asked : ℕ)
  | rechecking (outcome : Sourced ProviderFlightOutcome) (asked : ℕ)
  /-- The two reads of `fetch_fence`. -/
  | fencing (background : Option (CachedProviderRepresentation × CachedProviderFetch))
  | loading (background : Option (CachedProviderRepresentation × CachedProviderFetch)) (keyEpoch : Option UInt64)
  | fetching (fetch : Fetch)
  /-- `mark_stale_revalidation_failure`. -/
  | marking (fetch : Fetch) (err : HttpError)
  | coolingDown (fetch : Fetch) (err : HttpError)
  | resuming (fetch : Fetch) (err : HttpError)
  /-- `put_found` and `put_negative`. -/
  | resetting (fetch : Fetch) (origin : ProviderOriginOutcome)
  | checking (fetch : Fetch) (origin : ProviderOriginOutcome)
  | checkingEpoch (fetch : Fetch) (origin : ProviderOriginOutcome)
  | inserting (fetch : Fetch) (origin : ProviderOriginOutcome) (entry : CachedProviderFetch)
  /-- The two halves of `invalidate`. -/
  | dropping (fetch : Fetch) (result : ProviderResult)
  | dropped (fetch : Fetch) (result : ProviderResult)
  /-- The two halves of completing a guard. -/
  | publishing (fetch : Fetch) (result : ProviderResult)
  | sending (fetch : Fetch) (result : ProviderResult) (sender : Option ℕ)
  | releasing (next : Next)
  | released (next : Next) (sender : Option ℕ)
  /-- `invalidate_for_refresh`, with the number of the refresh. -/
  | raising
  | reading (number : ℕ)
  | writing (number : ℕ) (next : UInt64)
  | clearingEntry (number : ℕ)
  | clearingFailure (number : ℕ)
  | refreshed (number : ℕ)
  | returned (result : ProviderResult)
  | gone

def Role.missed : Role → Phase
  | request => .electing none
  | leader => .fencing none
  | revalidation served => .releasing (.serve served)

def Role.hit (now : ℕ) (entry : CachedProviderFetch) (freshness : Freshness) : Role → Phase
  | request => if freshness = .stale then .allowing false entry else .returned (entry.intoResult now)
  | leader => .releasing .again
  | revalidation served =>
    match freshness, entry.representation with
    | .stale, some stale => .fencing (some (stale, served))
    | .stale, none | .fresh, _ | .expired, _ => .releasing (.serve served)

def Next.phase (now : ℕ) : Next → Phase
  | again => .looking .request
  | serve served => .returned (served.intoResult now)
  | gone => .gone

def allowed (leading : Bool) (served : CachedProviderFetch) : Phase :=
  if leading then .looking (.revalidation served) else .electing (some served)

def refused (now : ℕ) (leading : Bool) (served : CachedProviderFetch) : Phase :=
  if leading then .releasing (.serve served) else .returned (served.intoResult now)

def Fetch.answered (fetch : Fetch) : Except HttpError ProviderOriginOutcome → Phase
  | .error err => if fetch.stale.isSome then .marking fetch err else .publishing fetch (.error err)
  | .ok origin => .resetting fetch origin

def Fetch.store (fetch : Fetch) (origin : ProviderOriginOutcome) (now : ℕ) : Phase :=
  match origin.retained fetch.fence now with
  | none => .dropping fetch origin.response
  | some entry => .inserting fetch origin entry

def Fetch.outcome (fetch : Fetch) (result : ProviderResult) : Sourced ProviderFlightOutcome :=
  ⟨⟨fetch.fence, result⟩, fetch.fenced⟩

structure Effect where
  cache : ProviderFetchCache
  phase : Phase
  spawned : Option Phase := none
  /-- A lookup or a woken follower has an answer: since when it asked, and the number of its origin. -/
  answer : Option (ℕ × ℕ) := none
  raised : Bool := false
  ended : Option ℕ := none

/-- The next step of a task, if it can take one. `begun` is the number of refreshes so far, `asked` that of those that
have returned. -/
def Phase.next (cache : ProviderFetchCache) (begun asked : ℕ) (key : ProviderFetchCacheKey)
    (origin : Option (Except HttpError ProviderOriginOutcome)) : Phase → Option Effect
  | looking role =>
    match cache.entries.lookup key with
    | none => some { cache, phase := role.missed }
    | some entry => some { cache, phase := .comparing role entry asked }
  | comparing role entry asked =>
    match cache.reachable key entry.value with
    | none => some { cache, phase := role.missed }
    | some freshness =>
      some { cache, phase := role.hit cache.now entry.value freshness, answer := some (asked, entry.fenced) }
  | allowing leading served =>
    match cache.failedRevalidations.lookup key with
    | none => some { cache, phase := allowed leading served }
    | some retryAt =>
      some { cache, phase :=
        if cache.now < retryAt then refused cache.now leading served else .clearingCooldown leading served }
  | clearingCooldown leading served => some { cache := cache.eraseFailure key, phase := allowed leading served }
  | electing served =>
    match cache.inflight.begin key, served with
    | (inflight, .leader), none => some { cache := { cache with inflight }, phase := .looking .leader }
    | (inflight, .leader), some served => some { cache := { cache with inflight }, phase := .allowing true served }
    | (inflight, .follower receiver), none => some { cache := { cache with inflight }, phase := .following receiver }
    | (inflight, .follower _), some served =>
      some { cache := { cache with inflight }, phase := .returned (served.intoResult cache.now) }
  | following receiver =>
    match cache.inflight.wait receiver with
    | none => none
    | some none => some { cache, phase := .looking .request }
    | some (some outcome) => some { cache, phase := .woken outcome asked }
  | woken outcome asked =>
    if cache.refreshes = outcome.value.fence.refreshes then
      some { cache, phase := .returned outcome.value.result, answer := some (asked, outcome.fenced) }
    else some { cache, phase := .rechecking outcome asked }
  | rechecking outcome asked =>
    if cache.epochMoved key outcome.value.fence then some { cache, phase := .looking .request }
    else some { cache, phase := .returned outcome.value.result, answer := some (asked, outcome.fenced) }
  | fencing background => some { cache, phase := .loading background (cache.invalidationEpochs.lookup key) }
  | loading none keyEpoch => some { cache, phase := .fetching ⟨⟨keyEpoch, cache.refreshes⟩, begun, none⟩ }
  | loading (some (stale, served)) keyEpoch =>
    some { cache, phase := .returned (served.intoResult cache.now),
           spawned := some (.fetching ⟨⟨keyEpoch, cache.refreshes⟩, begun, some stale⟩) }
  | fetching fetch => origin.map (fun result => { cache, phase := fetch.answered result })
  | marking fetch err =>
    match cache.storedFreshness key with
    | some .stale => some { cache, phase := .coolingDown fetch err }
    | some .expired => some { cache, phase := .dropping fetch (.error err) }
    | some .fresh | none => some { cache, phase := .resuming fetch err }
  | coolingDown fetch err =>
    some { cache := { cache with failedRevalidations :=
             cache.failedRevalidations.insert key (cache.now + providerStaleRevalidationFailureCooldown) },
           phase := .publishing fetch (.error err) }
  | resuming fetch err => some { cache := cache.eraseFailure key, phase := .publishing fetch (.error err) }
  | resetting fetch origin => some { cache := cache.eraseFailure key, phase := .checking fetch origin }
  | checking fetch origin =>
    some { cache, phase :=
      if cache.refreshes = fetch.fence.refreshes then fetch.store origin cache.now else .checkingEpoch fetch origin }
  | checkingEpoch fetch origin =>
    some { cache, phase :=
      if cache.epochMoved key fetch.fence then .dropping fetch origin.response else fetch.store origin cache.now }
  | inserting fetch origin entry =>
    some { cache := { cache with entries := cache.entries.insert key ⟨entry, fetch.fenced⟩ },
           phase := .publishing fetch origin.response }
  | dropping fetch result => some { cache := cache.eraseEntry key, phase := .dropped fetch result }
  | dropped fetch result => some { cache := cache.eraseFailure key, phase := .publishing fetch result }
  | publishing fetch result =>
    match cache.inflight.remove key with
    | (inflight, sender) => some { cache := { cache with inflight }, phase := .sending fetch result sender }
  | sending fetch result sender =>
    some { cache := { cache with inflight := cache.inflight.finish sender (some (fetch.outcome result)) },
           phase := if fetch.stale.isSome then .gone else .returned result }
  | releasing next =>
    match cache.inflight.remove key with
    | (inflight, sender) => some { cache := { cache with inflight }, phase := .released next sender }
  | released next sender =>
    some { cache := { cache with inflight := cache.inflight.finish sender none }, phase := next.phase cache.now }
  | raising => some { cache := { cache with refreshes := cache.refreshes + 1 }, phase := .reading (begun + 1), raised := true }
  | reading number => some { cache, phase := .writing number (cache.invalidationEpoch key + 1) }
  | writing number next =>
    some { cache := { cache with invalidationEpochs := cache.invalidationEpochs.insert key next },
           phase := .clearingEntry number }
  | clearingEntry number => some { cache := cache.eraseEntry key, phase := .clearingFailure number }
  | clearingFailure number =>
    some { cache := cache.eraseFailure key, phase := .refreshed number, ended := some number }
  | refreshed _ | returned _ | gone => none

/-- A request that is dropped where it awaits. -/
def Phase.cancelled : Phase → Option Phase
  | following _ => some .gone
  | fetching fetch => if fetch.stale.isSome then none else some (.releasing .gone)
  | _ => none

structure Task where
  key : ProviderFetchCacheKey
  phase : Phase

/-! ## Runs -/

/-- What a lookup or a follower came to: how many refreshes had returned when it asked, and how many had begun when
the fence of its origin was captured. -/
structure Answer where
  key : ProviderFetchCacheKey
  asked : ℕ
  fenced : ℕ

structure Session where
  cache : ProviderFetchCache := {}
  tasks : List Task := []
  begun : ℕ := 0
  /-- The refreshes that have returned, in that order, each with its number. -/
  ended : List (ProviderFetchCacheKey × ℕ) := []
  answers : List Answer := []

inductive Action
  | request (key : ProviderFetchCacheKey)
  | refresh (key : ProviderFetchCacheKey)
  | move (task : ℕ) (origin : Option (Except HttpError ProviderOriginOutcome))
  | cancel (task : ℕ)
  | forgetEntry (key : ProviderFetchCacheKey)
  | forgetEpoch (key : ProviderFetchCacheKey)
  | forgetFailure (key : ProviderFetchCacheKey)
  | tick (elapsed : ℕ)

namespace Session

def take (s : Session) (i : ℕ) (key : ProviderFetchCacheKey) (effect : Effect) : Session where
  cache := effect.cache
  tasks := s.tasks.set i ⟨key, effect.phase⟩ ++ effect.spawned.toList.map (fun phase => ⟨key, phase⟩)
  begun := if effect.raised then s.begun + 1 else s.begun
  ended := s.ended ++ effect.ended.toList.map (fun number => (key, number))
  answers := s.answers ++ effect.answer.toList.map (fun (asked, fenced) => ⟨key, asked, fenced⟩)

def step (s : Session) : Action → Session
  | .request key => { s with tasks := s.tasks ++ [⟨key, .looking .request⟩] }
  | .refresh key => { s with tasks := s.tasks ++ [⟨key, .raising⟩] }
  | .move i origin =>
    match s.tasks[i]? with
    | none => s
    | some task =>
      match task.phase.next s.cache s.begun s.ended.length task.key origin with
      | none => s
      | some effect => s.take i task.key effect
  | .cancel i =>
    match s.tasks[i]? with
    | none => s
    | some task =>
      match task.phase.cancelled with
      | none => s
      | some phase => { s with tasks := s.tasks.set i ⟨task.key, phase⟩ }
  | .forgetEntry key => { s with cache := s.cache.eraseEntry key }
  | .forgetEpoch key => { s with cache := s.cache.eraseEpoch key }
  | .forgetFailure key => { s with cache := s.cache.eraseFailure key }
  | .tick elapsed => { s with cache := { s.cache with now := s.cache.now + elapsed } }

/-- Once a refresh has returned, nothing that asks later is answered from a fetch whose fence was captured before the
refresh began. -/
def Current (s : Session) : Prop :=
  ∀ answer ∈ s.answers, ∀ refresh ∈ s.ended.take answer.asked, refresh.1 = answer.key → refresh.2 ≤ answer.fenced

end Session

def sessions : Machine Session where
  init := {}
  step := fun s s' => ∃ action, s' = s.step action

end Mappf.Ishikari.Upstream
