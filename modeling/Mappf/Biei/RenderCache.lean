import Mappf.Biei.Types
import Mappf.Lib.Watch

/-! # The render output cache

`render_cache.rs`: finished images by request key, and the flights that make equal requests wait for one
render. The image cache is a map whose entries may vanish at any time; `get` never returns an entry that
an earlier `invalidate_entries_if` matched. Flights are kept in sixteen maps, each behind its own lock,
and the hash that picks the map is a parameter. Every definition is one section of the code that runs
without interruption: `cachedHit` is one read of the image cache, `joinFlight` is the part under the
flight lock with the read of the epoch, `insertFromOutcome` and `invalidateStyle` hold the mutation gate. -/
namespace Mappf.Biei

open Styles (StyleId)

def renderFlightShards : ℕ := 16

structure RenderCacheKey (ρ : Type) where
  styleId : String
  styleVersion : UInt64
  request : ρ
  scale : Scale
  outputFormat : ImageFormat
  sourceHash : Option UInt64
  deriving DecidableEq

/-- `requestKey` is `RenderRequestKey::from`. -/
def RenderCacheKey.fromTask {Request ρ : Type} (requestKey : Request → ρ) (task : InternalTask Request) :
    RenderCacheKey ρ where
  styleId := task.style.id.value
  styleVersion := task.style.version
  request := requestKey task.request
  scale := task.scale
  outputFormat := task.outputFormat
  sourceHash := task.source.map SourceRef.hash

structure CachedRenderOutput where
  output : RenderOutput
  requiredNamespaces : Option NamespaceSet

def CachedRenderOutput.isAuthorizedFor (self : CachedRenderOutput) (readableNamespaces : Option NamespaceSet) : Bool :=
  match self.requiredNamespaces, readableNamespaces with
  | none, none => true
  | some required, some readable => readable.allows required
  | none, some _ => false
  | some _, none => false

structure RenderOutputCacheInner (ρ : Type) where
  cache : HashMap (RenderCacheKey ρ) CachedRenderOutput
  /-- The sender of a flight is named by its channel. -/
  inFlight : Fin renderFlightShards → HashMap (RenderCacheKey ρ) ℕ
  channels : Watch.Heap UInt64
  invalidationEpoch : UInt64

structure RenderFlightFollower (ρ : Type) where
  key : RenderCacheKey ρ
  readableNamespaces : Option NamespaceSet
  changed : Watch.Receiver
  deriving DecidableEq

structure RenderFlightLeader (ρ : Type) where
  key : Option (RenderCacheKey ρ)
  requiredNamespaces : Option NamespaceSet
  invalidationEpoch : UInt64
  deriving DecidableEq

inductive RenderCacheLookup (ρ : Type)
  | disabled
  | hit (output : RenderOutput)
  | leader (leader : RenderFlightLeader ρ)
  | wait (follower : RenderFlightFollower ρ)
  deriving DecidableEq

variable {ρ : Type}

namespace RenderOutputCacheInner

def new : RenderOutputCacheInner ρ where
  cache := ∅
  inFlight := fun _ => ∅
  channels := []
  invalidationEpoch := 0

def flightShard (hash : RenderCacheKey ρ → UInt64) (key : RenderCacheKey ρ) : Fin renderFlightShards :=
  ⟨(hash key).toNat &&& (renderFlightShards - 1), Nat.lt_of_le_of_lt Nat.and_le_right (by decide)⟩

variable [DecidableEq ρ] (inner : RenderOutputCacheInner ρ)

def invalidateStyle (styleId : StyleId) : RenderOutputCacheInner ρ :=
  { inner with
    invalidationEpoch := inner.invalidationEpoch + 1
    cache := inner.cache.retain (fun key _ => key.styleId ≠ styleId.value) }

/-- The entry is dropped for its age, for room, or because the weight of a new one was refused. -/
def evict (key : RenderCacheKey ρ) : RenderOutputCacheInner ρ :=
  { inner with cache := inner.cache.erase key }

def cachedHit (key : RenderCacheKey ρ) (readableNamespaces : Option NamespaceSet) : Option RenderOutput :=
  match inner.cache.lookup key with
  | some output => if output.isAuthorizedFor readableNamespaces = true then some output.output else none
  | none => none

variable (hash : RenderCacheKey ρ → UInt64) (inner : RenderOutputCacheInner ρ)

def flight (key : RenderCacheKey ρ) : Option ℕ :=
  (inner.inFlight (flightShard hash key)).lookup key

def joinFlight (key : RenderCacheKey ρ)
    (readableNamespaces : Option NamespaceSet) : RenderCacheLookup ρ × RenderOutputCacheInner ρ :=
  match inner.cachedHit key readableNamespaces with
  | some output => (.hit output, inner)
  | none =>
    match inner.flight hash key with
    | some channel =>
      (.wait { key, readableNamespaces, changed := inner.channels.subscribe channel }, inner)
    | none =>
      let shard := flightShard hash key
      (.leader { key := some key, requiredNamespaces := readableNamespaces,
                 invalidationEpoch := inner.invalidationEpoch },
        { inner with
          inFlight := Function.update inner.inFlight shard ((inner.inFlight shard).insert key inner.channels.length)
          channels := inner.channels.create 0 })

/-- A call that is not interrupted between its first look at the cache and the flight lock. -/
def lookupOrJoinKey (key : RenderCacheKey ρ)
    (readableNamespaces : Option NamespaceSet) : RenderCacheLookup ρ × RenderOutputCacheInner ρ :=
  match inner.cachedHit key readableNamespaces with
  | some output => (.hit output, inner)
  | none => inner.joinFlight hash key readableNamespaces

end RenderOutputCacheInner

namespace RenderFlightLeader

variable [DecidableEq ρ]

def insertFromOutcome (leader : RenderFlightLeader ρ) (inner : RenderOutputCacheInner ρ) (result : TaskResult) :
    Bool × RenderOutputCacheInner ρ :=
  match result, leader.key with
  | .completed output, some key =>
    if leader.invalidationEpoch ≠ inner.invalidationEpoch then (false, inner)
    else if (inner.cache.lookup key).any (fun existing => existing.requiredNamespaces ≠ leader.requiredNamespaces) then
      -- a resident requirement is neither relaxed nor replaced
      (false, inner)
    else
      (true, { inner with
        cache := inner.cache.insert key { output, requiredNamespaces := leader.requiredNamespaces } })
  | _, _ => (false, inner)

/-- `Drop`: the flight is removed, then its followers are told and its channel loses the sender. -/
def drop (hash : RenderCacheKey ρ → UInt64) (leader : RenderFlightLeader ρ) (inner : RenderOutputCacheInner ρ) :
    RenderOutputCacheInner ρ :=
  match leader.key with
  | none => inner
  | some key =>
    let shard := RenderOutputCacheInner.flightShard hash key
    match (inner.inFlight shard).lookup key with
    | none => inner
    | some channel =>
      { inner with
        inFlight := Function.update inner.inFlight shard ((inner.inFlight shard).erase key)
        channels := inner.channels.sendAndDrop channel (· + 1) }

end RenderFlightLeader

/-! ## Specifications -/

/-- The entry is public and the caller unauthenticated, or both are protected and the caller's grant
covers the requirement. -/
def Authorized : Option NamespaceSet → Option NamespaceSet → Prop
  | none, none => True
  | some required, some readable => required.denoted ⊆ readable.denoted
  | none, some _ => False
  | some _, none => False

theorem CachedRenderOutput.isAuthorizedFor_iff (entry : CachedRenderOutput) (readable : Option NamespaceSet) :
    entry.isAuthorizedFor readable = true ↔ Authorized entry.requiredNamespaces readable := by
  unfold isAuthorizedFor Authorized
  cases entry.requiredNamespaces with
  | none => cases readable <;> simp
  | some required =>
    cases readable with
    | none => simp
    | some readable => exact readable.allows_iff_subset required

variable [DecidableEq ρ]

namespace RenderOutputCacheInner

variable {inner : RenderOutputCacheInner ρ} {key k : RenderCacheKey ρ} {entry : CachedRenderOutput}

theorem cachedHit_eq_some {readable : Option NamespaceSet} {output : RenderOutput} :
    inner.cachedHit key readable = some output ↔
      ∃ entry, inner.cache.lookup key = some entry ∧ entry.output = output ∧
        Authorized entry.requiredNamespaces readable := by
  unfold cachedHit
  cases inner.cache.lookup key with
  | none => simp
  | some entry =>
    by_cases hauth : entry.isAuthorizedFor readable = true
    · simp [hauth, (entry.isAuthorizedFor_iff readable).mp hauth]
    · have hrefus := (entry.isAuthorizedFor_iff readable).not.mp hauth
      simp [hauth, hrefus]

theorem lookup_evict : (inner.evict key).cache.lookup k = some entry ↔ k ≠ key ∧ inner.cache.lookup k = some entry := by
  rw [evict, HashMap.lookup_erase_eq, Option.ite_none_left_eq_some]

theorem lookup_invalidateStyle {sid : StyleId} : (inner.invalidateStyle sid).cache.lookup k = some entry ↔
      inner.cache.lookup k = some entry ∧ k.styleId ≠ sid.value := by
  rw [invalidateStyle, HashMap.lookup_retain_eq, Option.filter_eq_some_iff, decide_eq_true_iff]

theorem flight_update (hash : RenderCacheKey ρ → UInt64) (inner inner' : RenderOutputCacheInner ρ)
    (key : RenderCacheKey ρ) (flights : HashMap (RenderCacheKey ρ) ℕ) (channel : Option ℕ)
    (hflies : ∀ k, flights.lookup k = if k = key then channel else (inner.inFlight (flightShard hash key)).lookup k)
    (hinner : inner'.inFlight = Function.update inner.inFlight (flightShard hash key) flights) (k : RenderCacheKey ρ) :
    inner'.flight hash k = if k = key then channel else inner.flight hash k := by
  unfold flight
  rw [hinner]
  by_cases hshard : flightShard hash k = flightShard hash key
  · rw [hshard, Function.update_self, hflies]
  · rw [Function.update_of_ne hshard]
    -- equal keys share a shard
    rw [if_neg (fun hk => hshard (by rw [hk]))]

theorem joinFlight_cases (hash : RenderCacheKey ρ → UInt64) (inner : RenderOutputCacheInner ρ)
    (key : RenderCacheKey ρ) (readable : Option NamespaceSet) :
    (∃ output, inner.cachedHit key readable = some output ∧
      inner.joinFlight hash key readable = (.hit output, inner)) ∨
    (∃ channel, inner.flight hash key = some channel ∧
      inner.joinFlight hash key readable =
        (.wait ⟨key, readable, inner.channels.subscribe channel⟩, inner)) ∨
    (inner.flight hash key = none ∧
      ∃ inner', inner.joinFlight hash key readable =
          (.leader ⟨some key, readable, inner.invalidationEpoch⟩, inner') ∧
        inner'.cache = inner.cache ∧ inner'.invalidationEpoch = inner.invalidationEpoch ∧
        inner'.channels = inner.channels.create 0 ∧
        ∀ k, inner'.flight hash k = if k = key then some inner.channels.length else inner.flight hash k) := by
  unfold joinFlight
  cases hhit : inner.cachedHit key readable with
  | some output => exact .inl ⟨output, rfl, rfl⟩
  | none =>
    cases hfly : inner.flight hash key with
    | some channel => exact .inr (.inl ⟨channel, rfl, rfl⟩)
    | none =>
      refine .inr (.inr ⟨rfl, _, rfl, rfl, rfl, rfl, ?_⟩)
      exact flight_update hash inner _ key _ _ (fun k => HashMap.lookup_insert_eq _ _ _ _) rfl

end RenderOutputCacheInner

namespace RenderFlightLeader

/-- An accepted result was complete, not fenced, and under the requirement of the resident entry if any. -/
theorem insertFromOutcome_cases (leader : RenderFlightLeader ρ) (inner : RenderOutputCacheInner ρ)
    (res : TaskResult) : leader.insertFromOutcome inner res = (false, inner) ∨
      ∃ output key, res = .completed output ∧ leader.key = some key ∧
        leader.invalidationEpoch = inner.invalidationEpoch ∧
        (∀ entry, inner.cache.lookup key = some entry → entry.requiredNamespaces = leader.requiredNamespaces) ∧
        leader.insertFromOutcome inner res =
          (true, { inner with cache := inner.cache.insert key ⟨output, leader.requiredNamespaces⟩ }) := by
  unfold insertFromOutcome
  split
  case h_2 => exact .inl rfl
  case h_1 output key hkey =>
    by_cases hepoch : leader.invalidationEpoch = inner.invalidationEpoch
    · rw [if_neg (by simpa using hepoch)]
      split_ifs with hresid
      · exact .inl rfl
      · refine .inr ⟨output, key, rfl, hkey, hepoch, ?_, rfl⟩
        intro entry hentry
        rw [hentry] at hresid
        simpa using hresid
    · rw [if_pos hepoch]
      exact .inl rfl

theorem drop_cache (hash : RenderCacheKey ρ → UInt64) (leader : RenderFlightLeader ρ)
    (inner : RenderOutputCacheInner ρ) : (leader.drop hash inner).cache = inner.cache := by
  unfold drop
  split
  · rfl
  · dsimp only
    split <;> rfl

theorem drop_spec (hash : RenderCacheKey ρ → UInt64) (leader : RenderFlightLeader ρ)
    (inner : RenderOutputCacheInner ρ) {key : RenderCacheKey ρ} (hkey : leader.key = some key) :
    (leader.drop hash inner).invalidationEpoch = inner.invalidationEpoch ∧
      (leader.drop hash inner).channels =
        (inner.flight hash key).elim inner.channels (fun channel => inner.channels.sendAndDrop channel (· + 1)) ∧
      ∀ k, (leader.drop hash inner).flight hash k = if k = key then none else inner.flight hash k := by
  unfold drop
  rw [hkey]
  dsimp only
  rw [← RenderOutputCacheInner.flight]
  cases hfly : inner.flight hash key with
  | none =>
    refine ⟨rfl, rfl, fun k => ?_⟩
    by_cases hk : k = key
    · rw [if_pos hk, hk]
      exact hfly
    · rw [if_neg hk]
  | some channel =>
    refine ⟨rfl, rfl, ?_⟩
    exact RenderOutputCacheInner.flight_update hash inner _ key _ _ (fun k => HashMap.lookup_erase_eq _ _ _) rfl

end RenderFlightLeader

end Mappf.Biei
