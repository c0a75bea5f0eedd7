import Mappf.Biei.Types
import Mappf.Biei.WorkerPool
import Mappf.Lib.Select

/-! # The four tiers of routing

`dispatcher.rs` and `hrw.rs`: a node chooses where a task is rendered from the cluster state it has heard by
gossip and from its own state. The random generator is a parameter; when the decision is taken and when the
task arrived are arguments. Sums of configured costs are taken to stay below the largest duration, where the
source's `+` does not panic. -/
namespace Mappf.Biei

open Styles (StyleRevision Instant Duration)

variable {Request : Type}

/-! ## Views of the cluster -/

structure WorkerView where
  id : WorkerId
  /-- `none` for a fresh worker -/
  loadedProfile : Option WorkerProfile
  queueDepth : ℕ

structure NodeStateView where
  id : NodeId
  acceptsNewRenders : Bool
  workers : List WorkerView

namespace NodeStateView

def offers (node : NodeStateView) (usable : WorkerView → Bool) : Bool :=
  node.acceptsNewRenders && node.workers.any usable

def hasCapacity (node : NodeStateView) (blCapacityPerWorker : ℕ) : Bool :=
  node.offers (fun worker => worker.queueDepth < blCapacityPerWorker)

def hasAdmissionCapacity (node : NodeStateView) (queueCapacityPerWorker : ℕ) : Bool :=
  node.offers (fun worker => worker.queueDepth < queueCapacityPerWorker)

end NodeStateView

/-- What gossip has propagated. `Membership::view` enters the state of every live member under its id. -/
structure ClusterView where
  members : List NodeId
  states : HashMap NodeId NodeStateView
  members_nodup : members.Nodup
  states_member : ∀ id state, states.lookup id = some state → id ∈ members
  states_id : ∀ id state, states.lookup id = some state → state.id = id

structure DispatchView where
  cluster : ClusterView
  localState : Option NodeStateView
  local_member : ∀ state, localState = some state → state.id ∈ cluster.members

namespace DispatchView

def new (cluster : ClusterView) (localState : Option NodeStateView) : DispatchView where
  cluster := cluster
  localState := localState.filter (fun state => state.id ∈ cluster.members)
  local_member state h := by simpa using (Option.filter_eq_some_iff.mp h).2

def members (view : DispatchView) : List NodeId := view.cluster.members

def state (view : DispatchView) (id : NodeId) : Option NodeStateView :=
  match view.localState.filter (fun state => state.id = id) with
  | some state => some state
  | none => view.cluster.states.lookup id

def stateEntries (view : DispatchView) : List (NodeId × NodeStateView) :=
  (view.cluster.states.entries.filter (fun entry => view.localState.all (fun state => state.id ≠ entry.1))).map
      (fun entry => (entry.1, entry.2))
    ++ view.localState.toList.map (fun state => (state.id, state))

def states (view : DispatchView) : List NodeStateView := view.stateEntries.map Prod.snd

end DispatchView

/-! ## Configuration -/

inductive Tier1Strategy
  | weightedRandom
  | powerOfTwo

structure RoutingConfig where
  tier1Strategy : Tier1Strategy
  tier3Enabled : Bool
  drainMaxQueue : ℕ

def durationMax : Duration := 2 ^ 64 * 10 ^ 9 - 1

structure CostRange where
  min : Duration
  max : Duration

namespace CostRange

def mid (range : CostRange) : Duration := (range.min + range.max) / 2

def saturatingAdd (range other : CostRange) : CostRange where
  min := Min.min (range.min + other.min) durationMax
  max := Min.min (range.max + other.max) durationMax

end CostRange

structure CostConfig where
  styleSetupCost : CostRange
  renderCpuCost : CostRange
  renderResourceCost : CostRange
  firstRenderResourceCost : CostRange
  sla : Duration

namespace CostConfig

def warmRenderCost (costs : CostConfig) : CostRange := costs.renderCpuCost.saturatingAdd costs.renderResourceCost

def firstRenderCost (costs : CostConfig) : CostRange := costs.renderCpuCost.saturatingAdd costs.firstRenderResourceCost

end CostConfig

structure Rng where
  State : Type
  seedFromU64 : UInt64 → State
  randomRange : State → ℕ → ℕ × State
  randomRange_lt : ∀ state bound, 0 < bound → (randomRange state bound).1 < bound

structure Dispatcher where
  nodeId : NodeId
  config : RoutingConfig
  costs : CostConfig
  blCapacity : ℕ
  queueCapacity : ℕ
  seed : UInt64
  blCapacity_le : blCapacity ≤ queueCapacity

/-! ## Hashing -/

def splitmix64Finalize (value : UInt64) : UInt64 :=
  let value := (value ^^^ (value >>> 30)) * 0xbf58476d1ce4e5b9
  let value := (value ^^^ (value >>> 27)) * 0x94d049bb133111eb
  value ^^^ (value >>> 31)

def fnv1aContinue (h : UInt64) (bytes : Bytes) : UInt64 :=
  bytes.foldl (fun h b => (h ^^^ b.toUInt64) * 0x00000100000001b3) h

def fnv1a (bytes : Bytes) : UInt64 := fnv1aContinue 0xcbf29ce484222325 bytes

def fnv1aProfile (profile : WorkerProfile) : UInt64 :=
  let h := fnv1a (utf8 profile.style.id.value)
  let h := fnv1aContinue h [0]
  let h := fnv1aContinue h [match profile.renderMode with
    | .static => 0x73
    | .tile => 0x74]
  let h := fnv1aContinue h [0]
  fnv1aContinue h [match profile.scale with
    | .x1 => 0x31
    | .x2 => 0x32]

/-- The style's version plays no part: a new version must not move routing. -/
def hrwWeight (profile : WorkerProfile) (node : NodeId) : UInt64 :=
  splitmix64Finalize ((fnv1aProfile profile * 0x9E3779B97F4A7C15) ^^^ (fnv1a (utf8 node.value) * 0xBF58476D1CE4E5B9))

def routingSeed (seed taskId : UInt64) : UInt64 := splitmix64Finalize (seed ^^^ (taskId * 0x9E3779B97F4A7C15))

/-! ## Tier 1: warm tracking -/

structure WarmCandidate where
  node : NodeStateView
  warmCount : ℕ
  styleSpareBl : ℕ

structure WarmTally where
  warmCount : ℕ := 0
  styleSpareBl : ℕ := 0
  hasUsableCapacity : Bool := false

def WarmTally.visit (profile : WorkerProfile) (bl : ℕ) (tally : WarmTally) (worker : WorkerView) : WarmTally :=
  if worker.loadedProfile = some profile then
    { warmCount := tally.warmCount + 1
      styleSpareBl := tally.styleSpareBl + (bl - worker.queueDepth)
      hasUsableCapacity := tally.hasUsableCapacity || worker.queueDepth < bl }
  else if worker.loadedProfile = none then
    -- whatever its queue: a fresh worker can expand a warm profile without evicting another one
    { tally with hasUsableCapacity := true }
  else tally

def warmCandidate (node : NodeStateView) (profile : WorkerProfile) (bl : ℕ) : Option WarmCandidate :=
  if node.acceptsNewRenders then
    let tally := node.workers.foldl (WarmTally.visit profile bl) {}
    if 0 < tally.warmCount ∧ tally.hasUsableCapacity then some ⟨node, tally.warmCount, tally.styleSpareBl⟩ else none
  else none

/-- The second of two distinct samples is drawn from the indices that are left. -/
def secondSample (firstIdx drawn : ℕ) : ℕ := if firstIdx ≤ drawn then drawn + 1 else drawn

def WarmCandidate.roomier (first second : WarmCandidate) : WarmCandidate :=
  if second.styleSpareBl ≤ first.styleSpareBl then first else second

namespace Dispatcher

def warmCandidates (dispatcher : Dispatcher) (view : DispatchView) (profile : WorkerProfile) : List WarmCandidate :=
  view.states.filterMap (fun node => warmCandidate node profile dispatcher.blCapacity)

/-- `none` also stands for the branches the source marks unreachable. -/
def selectWarmTarget (dispatcher : Dispatcher) (rng : Rng) (task : InternalTask Request) (view : DispatchView)
    (profile : WorkerProfile) : Option NodeId :=
  let state := rng.seedFromU64 (routingSeed dispatcher.seed task.id)
  let candidates := dispatcher.warmCandidates view profile
  match dispatcher.config.tier1Strategy with
  | .weightedRandom =>
    let totalWeight := (candidates.map WarmCandidate.warmCount).sum
    if totalWeight = 0 then none
    else
      (pickWeighted WarmCandidate.warmCount (rng.randomRange state totalWeight).1 candidates).map (fun c => c.node.id)
  | .powerOfTwo =>
    let candidateCount := candidates.length
    if candidateCount = 0 then none
    else if candidateCount = 1 then candidates.head?.map (fun c => c.node.id)
    else
      let (firstIdx, state) := rng.randomRange state candidateCount
      let secondIdx := secondSample firstIdx (rng.randomRange state (candidateCount - 1)).1
      match candidates[firstIdx]?, candidates[secondIdx]? with
      | some first, some second => some (first.roomier second).node.id
      | _, _ => none

end Dispatcher

/-! ## Tiers 2 and 4: rendezvous hashing -/

def defaultForwardCandidates : ℕ := 2

def topHrwCandidates (members : List NodeId) (profile : WorkerProfile) (limit : ℕ) (eligible : NodeId → Bool) :
    List ForwardCandidate :=
  (topBy limit (hrwWeight profile) (members.filter eligible)).map (fun nodeId => ⟨nodeId, none⟩)

/-! ## Tier 3: drain and swap -/

structure Tier3Candidate where
  protectsLast : Bool
  shapeMismatch : Bool
  count : ℕ
  nodeId : NodeId
  worker : WorkerView

namespace Tier3Candidate

/-- The most over-allocated profile comes first among those of one shape. -/
def compare (a b : Tier3Candidate) : Ordering :=
  (Ord.compare a.protectsLast b.protectsLast).then <|
  (Ord.compare a.shapeMismatch b.shapeMismatch).then <|
  (Ord.compare b.count a.count).then <|
  (Ord.compare a.worker.queueDepth b.worker.queueDepth).then <|
  (Ord.compare a.nodeId.value b.nodeId.value).then <|
  Ord.compare a.worker.id b.worker.id

end Tier3Candidate

def DispatchView.clusterCount (view : DispatchView) (profile : WorkerProfile) : ℕ :=
  ((view.stateEntries.filter (fun entry => entry.2.acceptsNewRenders)).flatMap (fun entry => entry.2.workers)).countP
    (fun worker => worker.loadedProfile = some profile)

/-- `tier3_sort_key`; a fresh worker has no profile to protect. -/
def tier3Candidate (view : DispatchView) (taskProfile : WorkerProfile) (nodeId : NodeId) (worker : WorkerView) :
    Tier3Candidate :=
  match worker.loadedProfile with
  | none => ⟨false, true, 2 ^ 64 - 1, nodeId, worker⟩
  | some profile =>
    ⟨view.clusterCount profile ≤ 1, profile.renderMode ≠ taskProfile.renderMode || profile.scale ≠ taskProfile.scale,
      view.clusterCount profile, nodeId, worker⟩

namespace Dispatcher

variable (dispatcher : Dispatcher)

/-- Pessimistic: each queued task ahead pays a profile swap and a render. -/
def estimateDrainEta (worker : WorkerView) (taskProfile : WorkerProfile) : Duration :=
  let warm := dispatcher.costs.warmRenderCost.mid
  let first := dispatcher.costs.firstRenderCost.mid
  let setup := dispatcher.costs.styleSetupCost.mid
  -- the depth is cut to a `u32`, the product and the sum saturate
  let queueWait := min ((first + setup) * (worker.queueDepth % 2 ^ 32)) durationMax
  let own := if worker.loadedProfile = some taskProfile then warm else setup + first
  min (queueWait + own) durationMax

/-- A warm worker for the profile is no candidate: this is the eviction path. -/
def drainable (taskProfile : WorkerProfile) (worker : WorkerView) : Bool :=
  worker.queueDepth < dispatcher.config.drainMaxQueue && worker.loadedProfile ≠ some taskProfile

def meetsSla (now arrivedAt : Instant) (taskProfile : WorkerProfile) (worker : WorkerView) : Bool :=
  (Instant.add arrivedAt dispatcher.costs.sla).all (fun deadline =>
    (Instant.add now (dispatcher.estimateDrainEta worker taskProfile)).any (fun eta => eta ≤ deadline))

def tier3CandidatesView (now arrivedAt : Instant) (view : DispatchView)
    (taskProfile : WorkerProfile) (limit : ℕ) : List ForwardCandidate :=
  let accepting := view.stateEntries.filter (fun entry => entry.2.acceptsNewRenders)
  let candidates := accepting.flatMap (fun entry =>
    (entry.2.workers.filter (dispatcher.drainable taskProfile)).map (tier3Candidate view taskProfile entry.1))
  let sorted := candidates.insertionSort (fun a b => (a.compare b).isLE = true)
  let timely := sorted.filter (fun candidate => dispatcher.meetsSla now arrivedAt taskProfile candidate.worker)
  -- the limit is looked at after a candidate was pushed
  (timely.take (max limit 1)).map (fun candidate => ⟨candidate.nodeId, some candidate.worker.id⟩)

/-! ## The decision -/

def tier1Candidates (view : DispatchView) (profile : WorkerProfile) (targetId : NodeId) : List ForwardCandidate :=
  ⟨targetId, none⟩ ::
    (topHrwCandidates view.members profile defaultForwardCandidates (fun id =>
      id ≠ targetId && (view.state id).any (fun node => node.hasCapacity dispatcher.blCapacity))).take
        (defaultForwardCandidates - 1)

def tier2Candidates (view : DispatchView) (profile : WorkerProfile) : List ForwardCandidate :=
  topHrwCandidates view.members profile defaultForwardCandidates (fun id =>
    (view.state id).any (fun node => node.hasCapacity dispatcher.blCapacity))

def tier4Candidates (view : DispatchView) (profile : WorkerProfile) : List ForwardCandidate :=
  topHrwCandidates view.members profile defaultForwardCandidates (fun id =>
    (view.state id).any (fun node => node.hasAdmissionCapacity dispatcher.queueCapacity))

/-- The tier that takes the task, with its candidates; Tier 4 takes it even without one. -/
def route (rng : Rng) (now arrivedAt : Instant) (task : InternalTask Request)
    (profile : WorkerProfile) (view : DispatchView) : RouteTier × List ForwardCandidate :=
  match dispatcher.selectWarmTarget rng task view profile with
  | some targetId => (.tier1WarmTracking, dispatcher.tier1Candidates view profile targetId)
  | none =>
    let tier2 := dispatcher.tier2Candidates view profile
    if tier2 ≠ [] then (.tier2HrwBl, tier2)
    else
      let tier3 := dispatcher.tier3CandidatesView now arrivedAt view profile defaultForwardCandidates
      if dispatcher.config.tier3Enabled ∧ tier3 ≠ [] then (.tier3DrainSwap, tier3)
      else (.tier4Overflow, dispatcher.tier4Candidates view profile)

def decideView (rng : Rng) (now arrivedAt : Instant) (renderMode : Request → RenderMode)
    (task : InternalTask Request) (view : DispatchView) : Decision :=
  let (tier, candidates) := dispatcher.route rng now arrivedAt task (task.workerProfile renderMode) view
  materializeCandidates dispatcher.nodeId task tier candidates

end Dispatcher

end Mappf.Biei
