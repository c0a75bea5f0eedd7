import Mappf.Biei.Routing
import Mathlib.Algebra.Order.BigOperators.Group.List

/-! # What routing aims at

A worker refuses a task once its queue reaches the hard limit. Tiers 2 and 4 and the fallback of Tier 1 ask
for a queue below a limit that is at most the hard one. Tier 3 compares with a threshold of its own, Tier 1
takes a fresh worker without looking at its queue, and a task that already was forwarded stays where it is. -/
namespace Mappf.Biei
open DispatchView List Bool

open Styles (StyleRevision Instant Duration)

variable {Request : Type} {candidate : ForwardCandidate} {view : DispatchView}

/-! ## Looking up states -/

namespace DispatchView

variable {id : NodeId} {node : NodeStateView}

theorem mem_stateEntries : (id, node) ∈ view.stateEntries ↔ view.state id = some node := by
  unfold stateEntries state
  rw [mem_append, mem_map, mem_map]
  cases hlocal : view.localState with
  | none =>
    rw [Option.filter_none]
    rw [← Option.mem_def, AList.mem_lookup_iff]
    constructor
    · rintro (⟨entry, hentry, heq⟩ | ⟨entry, hentry, -⟩)
      · cases heq
        exact (mem_filter.mp hentry).1
      · cases hentry
    · intro hentry
      exact .inl ⟨⟨id, node⟩, mem_filter.mpr ⟨hentry, rfl⟩, rfl⟩
  | some authoritative =>
    by_cases hid : authoritative.id = id
    · rw [Option.filter_some_pos (by simpa using hid)]
      constructor
      · rintro (⟨entry, hentry, heq⟩ | ⟨entry, hentry, heq⟩)
        · cases heq
          exact absurd hid (by simpa using (mem_filter.mp hentry).2)
        · cases heq
          cases mem_singleton.mp hentry
          rfl
      · intro heq
        cases heq
        exact .inr ⟨node, mem_singleton_self node, by rw [hid]⟩
    · rw [Option.filter_some_neg (by simpa using hid)]
      rw [← Option.mem_def, AList.mem_lookup_iff]
      constructor
      · rintro (⟨entry, hentry, heq⟩ | ⟨entry, hentry, heq⟩)
        · cases heq
          exact (mem_filter.mp hentry).1
        · cases heq
          cases mem_singleton.mp hentry
          exact absurd rfl hid
      · intro hentry
        exact .inl ⟨⟨id, node⟩, mem_filter.mpr ⟨hentry, by simpa using hid⟩, rfl⟩

section

variable (h : view.state id = some node)
include h

theorem mem_states : node ∈ view.states :=
  mem_map.mpr ⟨(id, node), mem_stateEntries.mpr h, rfl⟩

theorem state_cases : (view.localState = some node ∧ node.id = id) ∨ view.cluster.states.lookup id = some node := by
  unfold state at h
  split at h
  case h_1 found hfilt =>
    obtain ⟨hlocal, hid⟩ := Option.filter_eq_some_iff.mp hfilt
    cases h
    exact .inl ⟨hlocal, by simpa using hid⟩
  case h_2 => exact .inr h

theorem id_of_state : node.id = id := by
  obtain ⟨-, hid⟩ | hlook := state_cases h
  · exact hid
  · exact view.cluster.states_id id node hlook

theorem member_of_state : id ∈ view.members := by
  obtain ⟨hlocal, hid⟩ | hlook := state_cases h
  · exact hid ▸ view.local_member node hlocal
  · exact view.cluster.states_member id node hlook

end

theorem state_of_mem (h : node ∈ view.states) : view.state node.id = some node := by
  obtain ⟨⟨id, found⟩, hentry, rfl⟩ := mem_map.mp h
  have hstate := mem_stateEntries.mp hentry
  rw [id_of_state hstate, hstate]

end DispatchView

/-! ## Usable workers -/

namespace NodeStateView

def expandable (node : NodeStateView) (profile : WorkerProfile) : Bool :=
  node.offers (fun worker => worker.loadedProfile = some profile) &&
    node.offers (fun worker => worker.loadedProfile = none)

variable {node : NodeStateView} {usable : WorkerView → Bool}

theorem offers_iff :
    node.offers usable = true ↔ node.acceptsNewRenders = true ∧ ∃ worker ∈ node.workers, usable worker = true := by
  rw [offers, and_eq_true, any_eq_true]

theorem offers_mono {usable' : WorkerView → Bool}
    (himp : ∀ worker, usable worker = true → usable' worker = true) (h : node.offers usable = true) :
    node.offers usable' = true := by
  obtain ⟨hacc, worker, hwork, husable⟩ := offers_iff.mp h
  exact offers_iff.mpr ⟨hacc, worker, hwork, himp worker husable⟩

theorem hasAdmissionCapacity_of_hasCapacity {soft hard : ℕ} (hle : soft ≤ hard)
    (h : node.hasCapacity soft = true) : node.hasAdmissionCapacity hard = true := by
  refine offers_mono (fun worker hbelow => ?_) h
  exact decide_eq_true (Nat.lt_of_lt_of_le (of_decide_eq_true hbelow) hle)

end NodeStateView

/-- The candidate's node is known, and accepts renders for a drained worker or as a whole. -/
def DispatchView.leads (view : DispatchView) (drains : WorkerView → Bool) (takes : NodeStateView → Bool)
    (candidate : ForwardCandidate) : Bool :=
  (view.state candidate.nodeId).any (fun node =>
    match candidate.drainWorker with
    | some id => node.offers (fun worker => worker.id = id && drains worker)
    | none => takes node)

theorem DispatchView.leads_whole {drains : WorkerView → Bool} {takes : NodeStateView → Bool}
    {node : NodeStateView} (hwhole : candidate.drainWorker = none)
    (hstate : view.state candidate.nodeId = some node) (htakes : takes node = true) :
    view.leads drains takes candidate = true := by
  rw [leads, hstate, hwhole]
  exact htakes

namespace Decision

def candidates (nodeId : NodeId) : Decision → List ForwardCandidate
  | here _ workerHint fallbackCandidates => ⟨nodeId, workerHint⟩ :: fallbackCandidates
  | forward _ candidates => candidates
  | reject _ => []

def routeTier : Decision → Option RouteTier
  | here tier _ _ => some tier
  | forward tier _ => some tier
  | reject _ => none

/-- Rejects exactly when every accepting worker is full, and aims at nothing else. -/
def AimsBelow (nodeId : NodeId) (hard : ℕ) (view : DispatchView) (decision : Decision) : Prop :=
  (decision = .reject .noCapacity ↔ view.states.any (fun node => node.hasAdmissionCapacity hard) = false) ∧
    ∀ candidate ∈ decision.candidates nodeId,
      view.leads (fun worker => worker.queueDepth < hard) (fun node => node.hasAdmissionCapacity hard) candidate = true

instance (nodeId : NodeId) (hard : ℕ) (view : DispatchView) (decision : Decision) :
    Decidable (decision.AimsBelow nodeId hard view) := inferInstanceAs (Decidable (_ ∧ _))

end Decision

namespace Dispatcher

def drains (dispatcher : Dispatcher) (worker : WorkerView) : Bool :=
  worker.queueDepth < dispatcher.config.drainMaxQueue

def admits (dispatcher : Dispatcher) (node : NodeStateView) : Bool := node.hasAdmissionCapacity dispatcher.queueCapacity

end Dispatcher

structure QueueLimits where
  soft : ℕ
  hard : ℕ

def Dispatcher.new (nodeId : NodeId) (config : RoutingConfig) (costs : CostConfig) (limits : QueueLimits)
    (seed : UInt64) : Dispatcher where
  nodeId
  config
  costs
  blCapacity := limits.soft
  queueCapacity := max limits.hard limits.soft
  seed
  blCapacity_le := le_max_right ..

/-- `node.rs` spawns the pool with the limits it gives to the dispatcher. -/
def QueueLimits.pool (limits : QueueLimits) (renderMode : Request → RenderMode) : PoolConfig Request :=
  ⟨limits.hard, limits.soft, renderMode⟩

/-! ## Tier 1 -/

namespace WarmTally

variable {profile : WorkerProfile} {bl : ℕ}

theorem foldl_warmCount (workers : List WorkerView) (tally : WarmTally)
    (h : tally.warmCount < (workers.foldl (visit profile bl) tally).warmCount) :
    ∃ worker ∈ workers, worker.loadedProfile = some profile := by
  induction workers generalizing tally with
  | nil => exact absurd h (Nat.lt_irrefl _)
  | cons worker workers ih =>
    by_cases hwarm : worker.loadedProfile = some profile
    · exact ⟨worker, mem_cons_self, hwarm⟩
    · have hcount : (tally.visit profile bl worker).warmCount = tally.warmCount := by
        unfold visit
        split_ifs <;> rfl
      obtain ⟨found, hfound, hloaded⟩ := ih (tally.visit profile bl worker) (by rw [hcount]; exact h)
      exact ⟨found, mem_cons_of_mem worker hfound, hloaded⟩

theorem foldl_hasUsableCapacity (workers : List WorkerView) (tally : WarmTally)
    (h : (workers.foldl (visit profile bl) tally).hasUsableCapacity = true) : tally.hasUsableCapacity = true ∨
      ∃ worker ∈ workers, worker.queueDepth < bl ∨ worker.loadedProfile = none := by
  induction workers generalizing tally with
  | nil => exact .inl h
  | cons worker workers ih =>
    obtain hvisit | ⟨found, hfound, husable⟩ := ih (tally.visit profile bl worker) h
    · unfold visit at hvisit
      split_ifs at hvisit with hwarm hfresh
      · obtain hold | hnew := or_eq_true_iff.mp hvisit
        · exact .inl hold
        · exact .inr ⟨worker, mem_cons_self, .inl (of_decide_eq_true hnew)⟩
      · exact .inr ⟨worker, mem_cons_self, .inr hfresh⟩
      · exact .inl hvisit
    · exact .inr ⟨found, mem_cons_of_mem worker hfound, husable⟩

end WarmTally

theorem warmCandidate_eq_some {node : NodeStateView} {profile : WorkerProfile} {bl : ℕ} {candidate : WarmCandidate}
    (h : warmCandidate node profile bl = some candidate) : candidate.node = node ∧ 0 < candidate.warmCount ∧
      (node.hasCapacity bl = true ∨ node.expandable profile = true) := by
  unfold warmCandidate at h
  dsimp only at h
  split_ifs at h with hacc htally
  cases h
  refine ⟨rfl, htally.1, ?_⟩
  obtain ⟨warm, hwarm, hloaded⟩ := WarmTally.foldl_warmCount node.workers {} htally.1
  obtain hfalse | ⟨worker, hwork, hbelow | hfresh⟩ := WarmTally.foldl_hasUsableCapacity node.workers {} htally.2
  · cases hfalse
  · exact .inl (NodeStateView.offers_iff.mpr ⟨hacc, worker, hwork, decide_eq_true hbelow⟩)
  · refine .inr (and_eq_true_iff.mpr ⟨?_, ?_⟩)
    · exact NodeStateView.offers_iff.mpr ⟨hacc, warm, hwarm, decide_eq_true hloaded⟩
    · exact NodeStateView.offers_iff.mpr ⟨hacc, worker, hwork, decide_eq_true hfresh⟩

theorem WarmCandidate.roomier_cases (first second : WarmCandidate) :
    first.roomier second = first ∨ first.roomier second = second := by
  unfold roomier
  split_ifs
  · exact .inl rfl
  · exact .inr rfl

namespace Dispatcher

variable {dispatcher : Dispatcher} {rng : Rng} {task : InternalTask Request}
  {profile : WorkerProfile} {now arrivedAt : Instant}

theorem mem_warmCandidates {candidate : WarmCandidate} (h : candidate ∈ dispatcher.warmCandidates view profile) :
    view.state candidate.node.id = some candidate.node ∧ 0 < candidate.warmCount ∧
      (candidate.node.hasCapacity dispatcher.blCapacity = true ∨ candidate.node.expandable profile = true) := by
  obtain ⟨node, hnode, hcand⟩ := mem_filterMap.mp h
  obtain ⟨rfl, hcount, husable⟩ := warmCandidate_eq_some hcand
  exact ⟨state_of_mem hnode, hcount, husable⟩

theorem selectWarmTarget_mem {targetId : NodeId}
    (h : dispatcher.selectWarmTarget rng task view profile = some targetId) :
    ∃ candidate ∈ dispatcher.warmCandidates view profile, candidate.node.id = targetId := by
  unfold selectWarmTarget at h
  dsimp only at h
  split at h
  case h_1 =>
    split_ifs at h
    obtain ⟨candidate, hpick, hid⟩ := Option.map_eq_some_iff.mp h
    exact ⟨candidate, mem_of_pickWeighted hpick, hid⟩
  case h_2 =>
    split_ifs at h
    · obtain ⟨candidate, hhead, hid⟩ := Option.map_eq_some_iff.mp h
      exact ⟨candidate, mem_of_head? hhead, hid⟩
    · split at h
      case h_1 first second hfirst hsnd =>
        refine ⟨first.roomier second, ?_, Option.some.inj h⟩
        obtain hroomier | hroomier := first.roomier_cases second
        · rw [hroomier]
          exact mem_of_getElem? hfirst
        · rw [hroomier]
          exact mem_of_getElem? hsnd
      case h_2 => cases h

end Dispatcher

/-! ## Tiers 2 and 4 -/

section Hrw

variable {members : List NodeId} {profile : WorkerProfile} {limit : ℕ} {eligible : NodeId → Bool}

theorem mem_topHrwCandidates (h : candidate ∈ topHrwCandidates members profile limit eligible) :
    candidate.drainWorker = none ∧ eligible candidate.nodeId = true := by
  obtain ⟨nodeId, htop, rfl⟩ := mem_map.mp h
  exact ⟨rfl, (mem_filter.mp (mem_of_topBy htop)).2⟩

theorem topHrwCandidates_eq_nil (hlimit : 0 < limit) (h : topHrwCandidates members profile limit eligible = []) :
    ∀ id ∈ members, ¬ eligible id = true :=
  filter_eq_nil_iff.mp (topBy_eq_nil hlimit (map_eq_nil_iff.mp h))

end Hrw

namespace Dispatcher

variable {dispatcher : Dispatcher} {rng : Rng} {task : InternalTask Request}
  {profile : WorkerProfile} {now arrivedAt : Instant} {limit : ℕ}

theorem leads_of_eligible {cap : NodeStateView → Bool} (hcap : ∀ node, cap node = true → dispatcher.admits node = true)
    (hwhole : candidate.drainWorker = none) (helig : (view.state candidate.nodeId).any cap = true) :
    view.leads dispatcher.drains dispatcher.admits candidate = true := by
  obtain ⟨node, hstate, hnode⟩ := (Option.any_eq_true _ _).mp helig
  exact leads_whole hwhole hstate (hcap node hnode)

theorem admits_of_hasCapacity (node : NodeStateView) (h : node.hasCapacity dispatcher.blCapacity = true) :
    dispatcher.admits node = true :=
  NodeStateView.hasAdmissionCapacity_of_hasCapacity dispatcher.blCapacity_le h

/-! ## Tier 3 -/

theorem mem_tier3CandidatesView (h : candidate ∈ dispatcher.tier3CandidatesView now arrivedAt view profile limit) :
    ∃ node worker, view.state candidate.nodeId = some node ∧ node.acceptsNewRenders = true ∧ worker ∈ node.workers ∧
      candidate.drainWorker = some worker.id ∧ dispatcher.drains worker = true := by
  obtain ⟨chosen, htimely, rfl⟩ := mem_map.mp h
  have hsorted := (mem_filter.mp (mem_of_mem_take htimely)).1
  obtain ⟨⟨id, node⟩, hentry, hchosen⟩ := mem_flatMap.mp ((mem_insertionSort _).mp hsorted)
  obtain ⟨hstate, hacc⟩ := mem_filter.mp hentry
  obtain ⟨worker, hdrainable, rfl⟩ := mem_map.mp hchosen
  obtain ⟨hwork, hdrains⟩ := mem_filter.mp hdrainable
  have hparts : (tier3Candidate view profile id worker).nodeId = id ∧
      (tier3Candidate view profile id worker).worker = worker := by
    unfold tier3Candidate
    split <;> exact ⟨rfl, rfl⟩
  rw [hparts.1, hparts.2]
  exact ⟨node, worker, mem_stateEntries.mp hstate, hacc, hwork, rfl, (and_eq_true_iff.mp hdrains).1⟩

theorem leads_of_tier3 (takes : NodeStateView → Bool)
    (h : candidate ∈ dispatcher.tier3CandidatesView now arrivedAt view profile limit) :
    view.leads dispatcher.drains takes candidate = true := by
  obtain ⟨node, worker, hstate, hacc, hwork, hdrain, hdrains⟩ := mem_tier3CandidatesView h
  rw [leads, hstate, hdrain]
  refine NodeStateView.offers_iff.mpr ⟨hacc, worker, hwork, ?_⟩
  rw [and_eq_true_iff]
  exact ⟨decide_eq_true rfl, hdrains⟩

/-! ## The tier that takes a task -/

def takes (dispatcher : Dispatcher) (profile : WorkerProfile) (tier : Option RouteTier) (node : NodeStateView) : Bool :=
  dispatcher.admits node || (tier = some .tier1WarmTracking && node.expandable profile)

structure Routed (dispatcher : Dispatcher) (view : DispatchView) (profile : WorkerProfile) (tier : RouteTier)
    (candidates : List ForwardCandidate) : Prop where
  targets : ∀ candidate ∈ candidates, view.leads dispatcher.drains (dispatcher.takes profile (some tier)) candidate = true
  fallbacks : ∀ candidate ∈ candidates.tail, view.leads dispatcher.drains dispatcher.admits candidate = true
  drained : ∀ candidate ∈ candidates, candidate.drainWorker ≠ none → dispatcher.config.tier3Enabled = true
  exhausted : candidates = [] → ∀ node ∈ view.states, ¬ dispatcher.admits node = true

end Dispatcher

theorem DispatchView.leads_mono {drains : WorkerView → Bool} {takes takes' : NodeStateView → Bool}
    (himp : ∀ node, takes node = true → takes' node = true)
    (h : view.leads drains takes candidate = true) : view.leads drains takes' candidate = true := by
  obtain ⟨node, hstate, hnode⟩ := (Option.any_eq_true _ _).mp h
  refine (Option.any_eq_true _ _).mpr ⟨node, hstate, ?_⟩
  split at hnode
  case h_1 => exact hnode
  case h_2 => exact himp node hnode

namespace Dispatcher

variable {dispatcher : Dispatcher} {rng : Rng} {task : InternalTask Request}
  {profile : WorkerProfile} {now arrivedAt : Instant} {candidates : List ForwardCandidate} {tier : RouteTier}

theorem takes_of_admits (node : NodeStateView) (h : dispatcher.admits node = true) :
    dispatcher.takes profile (some tier) node = true := by
  rw [takes, h, Bool.true_or]

namespace Routed

theorem of_leads (hleads : ∀ candidate ∈ candidates, view.leads dispatcher.drains dispatcher.admits candidate = true)
    (hdrained : ∀ candidate ∈ candidates, candidate.drainWorker ≠ none → dispatcher.config.tier3Enabled = true)
    (hexh : candidates = [] → ∀ node ∈ view.states, ¬ dispatcher.admits node = true) :
    Routed dispatcher view profile tier candidates where
  targets candidate hmem := leads_mono takes_of_admits (hleads candidate hmem)
  fallbacks candidate hmem := hleads candidate (mem_of_mem_tail hmem)
  drained := hdrained
  exhausted := hexh

theorem of_hrw {cap : NodeStateView → Bool}
    (hcap : ∀ node, cap node = true → dispatcher.admits node = true) (hcands : candidates =
      topHrwCandidates view.members profile defaultForwardCandidates (fun id => (view.state id).any cap))
    (hexh : candidates = [] → ∀ node ∈ view.states, ¬ dispatcher.admits node = true) :
    Routed dispatcher view profile tier candidates := by
  refine of_leads (fun candidate hmem => ?_) (fun candidate hmem hdrain => ?_) hexh
  · obtain ⟨hwhole, helig⟩ := mem_topHrwCandidates (hcands ▸ hmem)
    exact leads_of_eligible hcap hwhole helig
  · exact absurd (mem_topHrwCandidates (hcands ▸ hmem)).1 hdrain

theorem warm {targetId : NodeId} (htgt : dispatcher.selectWarmTarget rng task view profile = some targetId) :
    Routed dispatcher view profile .tier1WarmTracking (dispatcher.tier1Candidates view profile targetId) := by
  obtain ⟨warm, hwarm, rfl⟩ := selectWarmTarget_mem htgt
  obtain ⟨hstate, -, husable⟩ := mem_warmCandidates hwarm
  have hfalls : ∀ candidate ∈ (dispatcher.tier1Candidates view profile warm.node.id).tail,
      candidate.drainWorker = none ∧ view.leads dispatcher.drains dispatcher.admits candidate = true := by
    intro candidate hmem
    obtain ⟨hwhole, helig⟩ := mem_topHrwCandidates (mem_of_mem_take hmem)
    exact ⟨hwhole, leads_of_eligible admits_of_hasCapacity hwhole (and_eq_true_iff.mp helig).2⟩
  refine ⟨fun candidate hmem => ?_, fun candidate hmem => (hfalls candidate hmem).2, fun candidate hmem hdrain => ?_,
    fun hnil => absurd hnil (cons_ne_nil _ _)⟩
  · obtain rfl | hrest := mem_cons.mp hmem
    · refine leads_whole rfl hstate ?_
      obtain hcap | hexpand := husable
      · exact takes_of_admits _ (admits_of_hasCapacity _ hcap)
      · rw [takes, hexpand]
        exact or_true _
    · exact leads_mono takes_of_admits (hfalls candidate hrest).2
  · obtain rfl | hrest := mem_cons.mp hmem
    · exact absurd rfl hdrain
    · exact absurd (hfalls candidate hrest).1 hdrain

end Routed

theorem route_routed (dispatcher : Dispatcher) (rng : Rng) (now arrivedAt : Instant) (task : InternalTask Request)
    (profile : WorkerProfile) (view : DispatchView) :
    Routed dispatcher view profile (dispatcher.route rng now arrivedAt task profile view).1
      (dispatcher.route rng now arrivedAt task profile view).2 := by
  unfold route
  split
  case h_1 targetId htgt => exact Routed.warm htgt
  case h_2 =>
    dsimp only
    split_ifs with htier2 htier3
    · exact Routed.of_hrw admits_of_hasCapacity rfl (fun hnil => absurd hnil htier2)
    · exact Routed.of_leads (fun candidate hmem => leads_of_tier3 dispatcher.admits hmem)
        (fun candidate hmem hdrain => htier3.1) (fun hnil => absurd hnil htier3.2)
    · refine Routed.of_hrw (fun node h => h) rfl (fun hnil node hnode hadm => ?_)
      have hstate := state_of_mem hnode
      refine topHrwCandidates_eq_nil Nat.two_pos hnil node.id (member_of_state hstate) ?_
      rw [hstate]
      exact hadm

end Dispatcher

/-! ## The decision -/

section Materialize

variable {nodeId : NodeId} {task : InternalTask Request} {tier : RouteTier} {candidates : List ForwardCandidate}

theorem materializeCandidates_eq_reject :
    materializeCandidates nodeId task tier candidates = .reject .noCapacity ↔ candidates = [] := by
  cases candidates with
  | nil => exact ⟨fun _ => rfl, fun _ => rfl⟩
  | cons first rest =>
    rw [materializeCandidates]
    constructor
    · intro h
      split_ifs at h
    · nofun

theorem routeTier_materializeCandidates (h : candidates ≠ []) :
    (materializeCandidates nodeId task tier candidates).routeTier = some tier := by
  cases candidates with
  | nil => exact absurd rfl h
  | cons first rest =>
    rw [materializeCandidates]
    split_ifs <;> rfl

theorem candidates_materializeCandidates (hhops : task.forwardingHops = 0) (first : ForwardCandidate)
    (rest : List ForwardCandidate) : (materializeCandidates nodeId task tier (first :: rest)).candidates nodeId =
      first :: rest.filter (fun candidate => candidate.nodeId ≠ nodeId) := by
  have hfresh : ¬ 1 ≤ task.forwardingHops := by omega
  rw [materializeCandidates, if_neg hfresh, if_neg hfresh]
  split_ifs with hfirst
  · cases first
    cases hfirst
    rfl
  · rw [Decision.candidates, filter_cons_of_pos (by simpa using hfirst)]

theorem hopped_materializeCandidates (hhops : 1 ≤ task.forwardingHops)
    (h : candidate ∈ (materializeCandidates nodeId task tier candidates).candidates nodeId) :
    candidate.nodeId = nodeId ∧ (candidate.drainWorker ≠ none → candidate ∈ candidates) := by
  cases candidates with
  | nil => cases h
  | cons first rest =>
    rw [materializeCandidates, if_pos hhops] at h
    split_ifs at h with hfirst
    · cases mem_singleton.mp h
      refine ⟨rfl, fun _ => ?_⟩
      cases first
      cases hfirst
      exact mem_cons_self
    · cases mem_singleton.mp h
      exact ⟨rfl, fun hdrain => absurd rfl hdrain⟩

theorem kept_materializeCandidates (hhops : 1 ≤ task.forwardingHops) {first : ForwardCandidate}
    (hfirst : first.nodeId = nodeId) (rest : List ForwardCandidate) :
    (materializeCandidates nodeId task tier (first :: rest)).candidates nodeId = [first] := by
  rw [materializeCandidates, if_pos hhops, if_pos hfirst, ← hfirst]
  rfl

end Materialize

/-- What holds of every decision: it rejects only when every accepting worker is full, drains only below the
drain threshold, and sends a whole task to a node with room or, in Tier 1, to a warm node with a fresh worker.
A task that was forwarded once is kept, here, with a promise about this node only if it comes first in `routed`. -/
structure Decision.AimsUsably (dispatcher : Dispatcher) (profile : WorkerProfile) (forwardingHops : ℕ)
    (view : DispatchView) (routed : List ForwardCandidate) (decision : Decision) : Prop where
  rejects : decision = .reject .noCapacity → view.states.any dispatcher.admits = false
  usable : decision ≠ .reject .noCapacity → view.states.any (fun node =>
    dispatcher.admits node || node.expandable profile ||
      (dispatcher.config.tier3Enabled && node.hasAdmissionCapacity dispatcher.config.drainMaxQueue)) = true
  targets : forwardingHops = 0 → ∀ candidate ∈ decision.candidates dispatcher.nodeId,
    view.leads dispatcher.drains (dispatcher.takes profile decision.routeTier) candidate = true
  fallbacks : forwardingHops = 0 → ∀ candidate ∈ (decision.candidates dispatcher.nodeId).tail,
    view.leads dispatcher.drains dispatcher.admits candidate = true
  hopped : 1 ≤ forwardingHops → ∀ candidate ∈ decision.candidates dispatcher.nodeId,
    candidate.nodeId = dispatcher.nodeId ∧
      (candidate.drainWorker ≠ none → view.leads dispatcher.drains dispatcher.admits candidate = true)
  kept : 1 ≤ forwardingHops → ∀ first ∈ routed.head?, first.nodeId = dispatcher.nodeId →
    decision.candidates dispatcher.nodeId = [first] ∧
      view.leads dispatcher.drains (dispatcher.takes profile decision.routeTier) first = true

namespace Dispatcher.Routed

variable {dispatcher : Dispatcher} {profile : WorkerProfile} {tier : RouteTier} {candidates : List ForwardCandidate}

theorem exists_usable (h : Routed dispatcher view profile tier candidates) (hne : candidates ≠ []) :
    view.states.any (fun node => dispatcher.admits node || node.expandable profile ||
      (dispatcher.config.tier3Enabled && node.hasAdmissionCapacity dispatcher.config.drainMaxQueue)) = true := by
  obtain ⟨first, hfirst⟩ := exists_mem_of_ne_nil candidates hne
  obtain ⟨node, hstate, hleads⟩ := (Option.any_eq_true _ _).mp (h.targets first hfirst)
  refine any_eq_true.mpr ⟨node, mem_states hstate, ?_⟩
  split at hleads
  case h_1 id hdrain =>
    have henabled := h.drained first hfirst (by rw [hdrain]; exact Option.some_ne_none id)
    have hroom : node.hasAdmissionCapacity dispatcher.config.drainMaxQueue = true :=
      NodeStateView.offers_mono (fun worker hwork => (and_eq_true_iff.mp hwork).2) hleads
    rw [henabled, hroom]
    exact or_true _
  case h_2 =>
    obtain hadm | hexpand := or_eq_true_iff.mp hleads
    · rw [hadm, Bool.true_or, Bool.true_or]
    · rw [(Bool.and_eq_true_iff.mp hexpand).2, Bool.or_true, Bool.true_or]

theorem leads_drained (h : Routed dispatcher view profile tier candidates)
    (hmem : candidate ∈ candidates) (hdrain : candidate.drainWorker ≠ none) :
    view.leads dispatcher.drains dispatcher.admits candidate = true := by
  have htgt := h.targets candidate hmem
  obtain ⟨id, hid⟩ := Option.ne_none_iff_exists'.mp hdrain
  unfold leads at htgt ⊢
  rw [hid] at htgt ⊢
  exact htgt

end Dispatcher.Routed

/-- Over all cluster views, local states, thresholds and random draws. -/
theorem decideView_aims_usably (dispatcher : Dispatcher) (rng : Rng) (now arrivedAt : Instant)
    (renderMode : Request → RenderMode) (task : InternalTask Request) (cluster : ClusterView)
    (localState : Option NodeStateView) :
    (dispatcher.decideView rng now arrivedAt renderMode task (DispatchView.new cluster localState)).AimsUsably dispatcher
      (task.workerProfile renderMode) task.forwardingHops (DispatchView.new cluster localState)
      (dispatcher.route rng now arrivedAt task (task.workerProfile renderMode) (DispatchView.new cluster localState)).2 ∧
    ∀ limits, (Dispatcher.new dispatcher.nodeId dispatcher.config dispatcher.costs limits dispatcher.seed).queueCapacity =
      (limits.pool renderMode).hardLimit := by
  refine ⟨?_, fun limits => rfl⟩
  generalize DispatchView.new cluster localState = view
  have hrouted := Dispatcher.route_routed dispatcher rng now arrivedAt task (task.workerProfile renderMode) view
  unfold Dispatcher.decideView
  generalize dispatcher.route rng now arrivedAt task (task.workerProfile renderMode) view = routed at hrouted
  obtain ⟨tier, candidates⟩ := routed
  refine ⟨fun hreject => ?_, fun haccept => ?_, fun hhops => ?_, fun hhops => ?_, fun hhops candidate hmem => ?_,
    fun hhops first hfirst hhere => ?_⟩
  · refine any_eq_false.mpr (hrouted.exhausted (materializeCandidates_eq_reject.mp hreject))
  · exact hrouted.exists_usable (fun hnil => haccept (materializeCandidates_eq_reject.mpr hnil))
  · cases candidates with
    | nil => intro candidate hmem; cases hmem
    | cons first rest =>
      rw [candidates_materializeCandidates hhops, routeTier_materializeCandidates (cons_ne_nil first rest)]
      intro candidate hmem
      obtain rfl | hrest := mem_cons.mp hmem
      · exact hrouted.targets candidate mem_cons_self
      · exact hrouted.targets candidate (mem_cons_of_mem first (mem_filter.mp hrest).1)
  · cases candidates with
    | nil => intro candidate hmem; cases hmem
    | cons first rest =>
      rw [candidates_materializeCandidates hhops]
      intro candidate hmem
      exact hrouted.fallbacks candidate (mem_filter.mp hmem).1
  · obtain ⟨hnode, hdrained⟩ := hopped_materializeCandidates hhops hmem
    exact ⟨hnode, fun hdrain => hrouted.leads_drained (hdrained hdrain) hdrain⟩
  · obtain ⟨rest, rfl⟩ := head?_eq_some_iff.mp hfirst
    rw [kept_materializeCandidates hhops hhere, routeTier_materializeCandidates (cons_ne_nil first rest)]
    exact ⟨rfl, hrouted.targets first mem_cons_self⟩

namespace Example

def node (value : String) : NodeId := ⟨value⟩

def profile (style : String) : WorkerProfile := ⟨⟨⟨style⟩, 0⟩, .tile, .x1⟩

/-- Nodes under distinct ids, entered the way `Membership::view` does. -/
def cluster (states : List NodeStateView) (hnodup : (states.map NodeStateView.id).Nodup) : ClusterView where
  members := states.map NodeStateView.id
  states := ⟨states.map (fun state => ⟨state.id, state⟩), by
    rw [List.NodupKeys, List.keys, List.map_map]
    exact hnodup⟩
  members_nodup := hnodup
  states_member id state h := by
    obtain ⟨found, hfound, heq⟩ := List.mem_map.mp (AList.mem_lookup_iff.mp h)
    cases heq
    exact List.mem_map_of_mem hfound
  states_id id state h := by
    obtain ⟨found, hfound, heq⟩ := List.mem_map.mp (AList.mem_lookup_iff.mp h)
    cases heq
    rfl

def rng : Rng where
  State := Unit
  seedFromU64 _ := ()
  randomRange _ _ := (0, ())
  randomRange_lt _ _ h := h

/-- One worker takes one task; the drain threshold is two. -/
def dispatcher : Dispatcher where
  nodeId := node "a"
  config := ⟨.weightedRandom, true, 2⟩
  costs := ⟨⟨1, 1⟩, ⟨1, 1⟩, ⟨1, 1⟩, ⟨1, 1⟩, 1000⟩
  blCapacity := 1
  queueCapacity := 1
  seed := 0
  blCapacity_le := Nat.le_refl 1

def task (forwardingHops : ℕ) : InternalTask Unit where
  id := 7
  readableNamespaces := none
  style := ⟨⟨"s"⟩, 0⟩
  source := none
  request := ()
  scale := .x1
  outputFormat := .png
  deadline := 1000
  forwardingHops := forwardingHops

def decision (forwardingHops : ℕ) (cluster : ClusterView) : Decision :=
  dispatcher.decideView rng 0 0 (fun _ => .tile) (task forwardingHops) (DispatchView.new cluster none)

/-- A full worker with another profile, below the drain threshold. -/
def draining : ClusterView := cluster [⟨node "a", true, [⟨0, some (profile "t"), 1⟩]⟩] (List.nodup_singleton _)

/-- A warm worker and a fresh one, both full. -/
def warm : ClusterView :=
  cluster [⟨node "a", true, [⟨0, some (profile "s"), 5⟩, ⟨1, none, 5⟩]⟩] (List.nodup_singleton _)

/-- The node a task was forwarded to stopped accepting renders; another one has room. -/
def hopped : ClusterView :=
  cluster [⟨node "a", false, [⟨0, none, 0⟩]⟩, ⟨node "b", true, [⟨0, none, 0⟩]⟩] (by decide)

/-- Tier 3 drains a worker at its hard limit, Tier 1 chooses a node whose workers are all beyond it, and a
forwarded task stays on a node that accepts none. -/
theorem aims_at_refusing_workers :
    ¬ (decision 0 draining).AimsBelow (node "a") 1 (DispatchView.new draining none) ∧
      ¬ (decision 0 warm).AimsBelow (node "a") 1 (DispatchView.new warm none) ∧
      ¬ (decision 1 hopped).AimsBelow (node "a") 1 (DispatchView.new hopped none) := by
  decide +kernel

end Example

end Mappf.Biei
