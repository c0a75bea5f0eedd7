import Mappf.Biei.Cluster
import Mappf.Biei.NodeSpec
import Mappf.Lib.Acyclic

/-! # Waiting across nodes

A follower waits for the leader of its key on its own node, and a call that has forwarded its task waits for
the call it started on the target. A forwarded call joins the flight on its node like any other, so it may
follow a leader that has itself forwarded. Waiting then goes from node to node along the outstanding forwards
of leaders of one key (`ForwardsTo`). Nothing in the code keeps these from leading back: two nodes that lead
the same key and forward it to each other wait for each other until the deadlines. As long as no leader
forwards to a node from which outstanding forwards lead back to it, no call ever waits for itself. -/
namespace Mappf.Biei
open List

open Relation (TransGen ReflTransGen)

variable {Request ρ : Type}

namespace Call

def unfinished (call : Call Request ρ) : Bool :=
  match call.phase with
  | .finished _ => false
  | .cancelled => false
  | _ => true

/-- The call waits in a flight on its node that has not changed, and `leader` leads it. -/
def follows [DecidableEq ρ] (call leader : Call Request ρ) (inner : RenderOutputCacheInner ρ) : Bool :=
  match call.phase, leader.guard with
  | .following follower, some guard =>
    !inner.channels.changed follower.changed && leader.node == call.node && guard.key == some follower.key
  | _, _ => false

end Call

namespace Cluster

/-- Call `i` cannot go on before call `j` finishes, unless a deadline passes or the transport fails. -/
def waitsFor [DecidableEq ρ] (cluster : Cluster Request ρ) (i j : ℕ) : Bool :=
  match cluster.calls[i]?, cluster.calls[j]? with
  | some call, some other =>
    call.follows other (cluster.caches call.node) ||
      (call.phase.sent.any (fun sent => sent.2.2 == some j) && other.unfinished)
  | _, _ => false

def WaitsFor [DecidableEq ρ] (cluster : Cluster Request ρ) (i j : ℕ) : Prop :=
  cluster.waitsFor i j = true

variable (cluster : Cluster Request ρ)

/-- A leader of `key` on `source` has sent its task to `target` and has no answer yet. -/
def ForwardsTo (key : RenderCacheKey ρ) (source target : NodeId) : Prop :=
  ∃ call ∈ cluster.calls, ∃ guard candidate request handler,
    call.node = source ∧ call.guard = some guard ∧ guard.key = some key ∧
      call.phase.sent = some (candidate, request, handler) ∧ candidate.nodeId = target

def nextForward (i : ℕ) : Option (RenderCacheKey ρ × NodeId × NodeId) := do
  let call ← cluster.calls[i]?
  let guard ← call.guard
  let key ← guard.key
  match call.phase with
  | .forwarding failover => failover.candidates.head?.map (fun candidate => (key, call.node, candidate.nodeId))
  | _ => none

/-- A leader sends its task only where no chain of outstanding forwards of its key leads back to its node. -/
def AvoidsReturn : Action Request ρ → Prop
  | .move i _ => ∀ key source target, cluster.nextForward i = some (key, source, target) →
      ¬ ReflTransGen (cluster.ForwardsTo key) target source
  | _ => True

/-! ## What a step can do -/

inductive Moved (requestKey : Request → ρ) (cluster cluster' : Cluster Request ρ) : Prop
  | quiet (hcalls : cluster'.calls = cluster.calls)
  | arrived (call : Call Request ρ) (hsound : call.Sound requestKey) (hsent : call.phase.sent = none)
      (hcalls : cluster'.calls = cluster.calls ++ [call])
  | delivered (i : ℕ) (call call' handler : Call Request ρ) (target : ForwardCandidate)
      (request : ForwardRequest Request) (hcall : cluster.calls[i]? = some call)
      (hbefore : call.phase.sent = some (target, request, none))
      (hnode : call'.node = call.node) (hentry : call'.entry = call.entry) (htask : call'.task = call.task)
      (hguard : call'.guard = call.guard) (hsound : call'.Sound requestKey)
      (hafter : call'.phase.sent = some (target, request, some cluster.calls.length))
      (hhandler : handler.Sound requestKey) (hhandlerSent : handler.phase.sent = none)
      (hhandlerNode : handler.node = target.nodeId) (hhandlerEntry : handler.entry.requiresLocalRenderer = true)
      (hhandlerKey : RenderCacheKey.fromTask requestKey handler.task = .fromTask requestKey call.task)
      (hcalls : cluster'.calls = cluster.calls.set i call' ++ [handler])
  | moved (i : ℕ) (call call' : Call Request ρ) (hcall : cluster.calls[i]? = some call)
      (hnode : call'.node = call.node) (hentry : call'.entry = call.entry) (htask : call'.task = call.task)
      (hsound : call'.Sound requestKey)
      (hsent : call'.phase.sent = none ∨ call' = call ∨
        ∃ candidate request, call'.guard = call.guard ∧ call'.phase.sent = some (candidate, request, none) ∧
          ∀ guard key, call.guard = some guard → guard.key = some key →
            ¬ ReflTransGen (cluster.ForwardsTo key) candidate.nodeId call.node)
      (hcalls : cluster'.calls = cluster.calls.set i call')

variable {call : Call Request ρ} {i : ℕ}
  {cluster : Cluster Request ρ} {failover : Failover} {target : ForwardCandidate} {h : ℕ} {action : Action Request ρ}

theorem deliver_moved {requestKey : Request → ρ} {req : ForwardRequest Request} (answers : Answers)
    (hcall : cluster.calls[i]? = some call) (hsound : call.Sound requestKey)
    (hphase : call.phase = .sending failover target req none) : Moved requestKey cluster
      { cluster with
        calls := cluster.calls.set i
            { call with phase := .sending failover target req (some cluster.calls.length) }
          ++ [.handleForwarded requestKey answers cluster.now target.nodeId req] } := by
  have hbef : call.phase.sent = some (target, req, none) := by
    rw [hphase]
    rfl
  obtain ⟨hhand, hhandlerSent, hhandlerNode, hhandlerEntry, hhandlerTask⟩ :=
    Call.handleForwarded_spec requestKey answers cluster.now target.nodeId req
  obtain ⟨sentAt, hopLatency, hwire⟩ := hsound.sent target req none hbef
  refine .delivered i call { call with phase := .sending failover target req (some cluster.calls.length) } _
    target req hcall hbef rfl rfl rfl rfl ?_ rfl hhand hhandlerSent hhandlerNode
    hhandlerEntry ?_ rfl
  · refine ⟨?_, hsound.guard, ?_, ?_⟩
    · nofun
    · intro hentry
      have hroutes := hsound.entry hentry
      rw [hphase] at hroutes
      cases hroutes
    · intro target' req' handler' hsent
      cases hsent
      exact ⟨sentAt, hopLatency, hwire⟩
  · rw [hhandlerTask, hwire]
    exact fromTask_intoInternal requestKey call.task sentAt cluster.now hopLatency

/-! ## Invariants of guarded runs -/

def HandledBy (requestKey : Request → ρ) (cluster : Cluster Request ρ) (call : Call Request ρ)
    (target : ForwardCandidate) (h : ℕ) : Prop :=
  ∃ handler, cluster.calls[h]? = some handler ∧ handler.node = target.nodeId ∧
    handler.entry.requiresLocalRenderer = true ∧
    RenderCacheKey.fromTask requestKey handler.task = .fromTask requestKey call.task

structure Inv (requestKey : Request → ρ) (cluster : Cluster Request ρ) : Prop where
  sound : ∀ call ∈ cluster.calls, call.Sound requestKey
  handled : ∀ call ∈ cluster.calls, ∀ target request h, call.phase.sent = some (target, request, some h) →
    cluster.HandledBy requestKey call target h
  acyclic : ∀ key, Acyclic (cluster.ForwardsTo key)

variable {requestKey : Request → ρ} {cluster' : Cluster Request ρ}

variable (hmoved : Moved requestKey cluster cluster')
include hmoved

theorem Moved.persists {handler : Call Request ρ} (hhand : cluster.calls[h]? = some handler) :
    ∃ handler', cluster'.calls[h]? = some handler' ∧ handler'.node = handler.node ∧
      handler'.entry = handler.entry ∧ handler'.task = handler.task := by
  have hlen := (List.getElem?_eq_some_iff.mp hhand).1
  -- the place a step sets holds a call of the same node, entry and task
  have hset : ∀ (i : ℕ) (call call' : Call Request ρ), cluster.calls[i]? = some call → call'.node = call.node →
      call'.entry = call.entry → call'.task = call.task →
      ∃ handler', (cluster.calls.set i call')[h]? = some handler' ∧ handler'.node = handler.node ∧
        handler'.entry = handler.entry ∧ handler'.task = handler.task := by
    intro i call call' hcall hnode hentry htask
    rw [getElem?_set]
    by_cases hi : i = h
    · subst hi
      obtain rfl : call = handler := Option.some.inj (hcall.symm.trans hhand)
      exact ⟨call', by rw [if_pos rfl, if_pos hlen], hnode, hentry, htask⟩
    · exact ⟨handler, by rw [if_neg hi]; exact hhand, rfl, rfl, rfl⟩
  cases hmoved with
  | quiet hcalls => exact ⟨handler, by rw [hcalls]; exact hhand, rfl, rfl, rfl⟩
  | arrived call hsound hsent hcalls =>
    refine ⟨handler, ?_, rfl, rfl, rfl⟩
    rw [hcalls, getElem?_append_left hlen]
    exact hhand
  | delivered i call call' handler₂ target req hcall hbef hnode hentry htask hguard hsound hafter hhand₂
      hhandlerSent hhandlerNode hhandlerEntry hhandlerKey hcalls =>
    rw [hcalls, getElem?_append_left (by rw [length_set]; exact hlen)]
    exact hset i call call' hcall hnode hentry htask
  | moved i call call' hcall hnode hentry htask hsound hsent hcalls =>
    rw [hcalls]
    exact hset i call call' hcall hnode hentry htask

theorem HandledBy.persists {call' : Call Request ρ} (hhandled : cluster.HandledBy requestKey call target h)
    (htask : call'.task = call.task) : cluster'.HandledBy requestKey call' target h := by
  obtain ⟨handler, hhand, hnode, hentry, hkey⟩ := hhandled
  obtain ⟨handler', hhand', hnode', hentry', htask'⟩ := hmoved.persists hhand
  exact ⟨handler', hhand', hnode'.trans hnode, by rw [hentry']; exact hentry, by rw [htask', htask]; exact hkey⟩

/-- How the one call that a step may leave waiting for a peer came to wait. -/
inductive Sends (requestKey : Request → ρ) (cluster cluster' : Cluster Request ρ) (call : Call Request ρ) : Prop
  | delivered (before : Call Request ρ) (hbefore : before ∈ cluster.calls) (target : ForwardCandidate)
      (request : ForwardRequest Request) (h : ℕ) (hnode : call.node = before.node) (hguard : call.guard = before.guard)
      (hsentBefore : before.phase.sent = some (target, request, none))
      (hsent : call.phase.sent = some (target, request, some h)) (hhandled : cluster'.HandledBy requestKey call target h)
  | contacted (candidate : ForwardCandidate) (request : ForwardRequest Request)
      (hsent : call.phase.sent = some (candidate, request, none))
      (havoids : ∀ guard key, call.guard = some guard → guard.key = some key →
        ¬ ReflTransGen (cluster.ForwardsTo key) candidate.nodeId call.node)

/-- Every call after a step is an old one, one that waits for no peer, or the one the step moved. -/
theorem Moved.origin :
    ∃ last, ∀ call ∈ cluster'.calls, call ∈ cluster.calls ∨
      (call.Sound requestKey ∧ (call.phase.sent = none ∨ (some call = last ∧ Sends requestKey cluster cluster' call))) := by
  cases hmoved with
  | quiet hcalls => exact ⟨none, fun call hmem => .inl (by rw [← hcalls]; exact hmem)⟩
  | arrived call hsound hsent hcalls =>
    refine ⟨none, ?_⟩
    intro call₁ hmem
    rw [hcalls, mem_append, mem_singleton] at hmem
    cases hmem with
    | inl hbef => exact .inl hbef
    | inr hnew => rw [hnew]; exact .inr ⟨hsound, .inl hsent⟩
  | delivered i call call' handler target req hcall hbef hnode hentry htask hguard hsound hafter hhand
      hhandlerSent hhandlerNode hhandlerEntry hhandlerKey hcalls =>
    refine ⟨some call', ?_⟩
    intro call₁ hmem
    rw [hcalls, mem_append, mem_singleton] at hmem
    cases hmem with
    | inl hset =>
      cases mem_or_eq_of_mem_set hset with
      | inl hold => exact .inl hold
      | inr hcall' =>
        rw [hcall']
        refine .inr ⟨hsound, .inr ⟨rfl, .delivered call (mem_of_getElem? hcall) target req _ hnode hguard hbef hafter ?_⟩⟩
        refine ⟨handler, ?_, hhandlerNode, hhandlerEntry, by rw [htask]; exact hhandlerKey⟩
        rw [hcalls, getElem?_append_right (by rw [length_set]), length_set, Nat.sub_self]
        rfl
    | inr hnew => rw [hnew]; exact .inr ⟨hhand, .inl hhandlerSent⟩
  | moved i call call' hcall hnode hentry htask hsound hsent hcalls =>
    refine ⟨some call', ?_⟩
    intro call₁ hmem
    rw [hcalls] at hmem
    cases mem_or_eq_of_mem_set hmem with
    | inl hold => exact .inl hold
    | inr hcall' =>
      rw [hcall']
      obtain hnone | hsame | ⟨cand, req, hguard, hfresh, havoids⟩ := hsent
      · exact .inr ⟨hsound, .inl hnone⟩
      · exact .inl (by rw [hsame]; exact mem_of_getElem? hcall)
      · exact .inr ⟨hsound, .inr ⟨rfl, .contacted cand req hfresh (by rw [hguard, hnode]; exact havoids)⟩⟩

omit hmoved

/-- A step adds at most one forward of a key, and only one that does not close a cycle. -/
theorem Inv.acyclic_moved (hinv : Inv requestKey cluster) (hmoved : Moved requestKey cluster cluster')
    (key : RenderCacheKey ρ) : Acyclic (cluster'.ForwardsTo key) := by
  obtain ⟨last, horig⟩ := hmoved.origin
  by_cases hnew : ∃ call cand req guard, some call = last ∧
      call.phase.sent = some (cand, req, none) ∧ call.guard = some guard ∧ guard.key = some key ∧
      ¬ ReflTransGen (cluster.ForwardsTo key) cand.nodeId call.node
  · obtain ⟨call, cand, req, guard, hlast, hsent, -, -, havoids⟩ := hnew
    refine (hinv.acyclic key).add_edge (a := call.node) (b := cand.nodeId) ?_ havoids
    rintro source target ⟨call₁, hmem, guard₁, cand₁, req₁, handler₁, hnode, hguard, hkey, hsent₁, htgt⟩
    obtain hold | ⟨-, hnone | ⟨hcall₁, -⟩⟩ := horig call₁ hmem
    · exact .inl ⟨call₁, hold, guard₁, cand₁, req₁, handler₁, hnode, hguard, hkey, hsent₁, htgt⟩
    · rw [hnone] at hsent₁
      cases hsent₁
    · obtain rfl : call₁ = call := Option.some.inj (hcall₁.trans hlast.symm)
      rw [hsent] at hsent₁
      cases hsent₁
      exact .inr ⟨hnode.symm, htgt.symm⟩
  · refine (hinv.acyclic key).mono ?_
    rintro source target ⟨call₁, hmem, guard₁, cand₁, req₁, handler₁, hnode, hguard, hkey, hsent₁, htgt⟩
    obtain hold | ⟨-, hnone | ⟨hcall₁, hsends⟩⟩ := horig call₁ hmem
    · exact ⟨call₁, hold, guard₁, cand₁, req₁, handler₁, hnode, hguard, hkey, hsent₁, htgt⟩
    · simp [hnone] at hsent₁
    · cases hsends with
      | delivered before hbef target' req' h hnode' hguard' hsentBefore hsent hhandled =>
        rw [hsent] at hsent₁
        cases hsent₁
        exact ⟨before, hbef, guard₁, cand₁, req₁, none, hnode'.symm.trans hnode, hguard'.symm.trans hguard,
          hkey, hsentBefore, htgt⟩
      | contacted cand req hsent havoids =>
        exact absurd ⟨call₁, cand, req, guard₁, hcall₁, hsent, hguard, hkey, havoids guard₁ key hguard hkey⟩ hnew

theorem Inv.moved (hinv : Inv requestKey cluster) (hmoved : Moved requestKey cluster cluster') :
    Inv requestKey cluster' := by
  obtain ⟨last, horig⟩ := hmoved.origin
  refine ⟨?_, ?_, hinv.acyclic_moved hmoved⟩
  · intro call hmem
    obtain hold | ⟨hsound, -⟩ := horig call hmem
    · exact hinv.sound call hold
    · exact hsound
  · intro call hmem target req h hsent
    obtain hold | ⟨-, hnone | ⟨-, hsends⟩⟩ := horig call hmem
    · exact (hinv.handled call hold target req h hsent).persists hmoved rfl
    · simp [hnone] at hsent
    · cases hsends with
      | delivered before hbef target' req' h' hnode hguard hsentBefore hsent' hhandled =>
        rw [hsent'] at hsent
        cases hsent
        exact hhandled
      | contacted cand req' hsent' havoids =>
        simp [hsent'] at hsent

/-- A forwarded call never waits for a peer. -/
theorem Inv.sent_eq_none (hinv : Inv requestKey cluster) (hmem : call ∈ cluster.calls)
    (hentry : call.entry.requiresLocalRenderer = true) : call.phase.sent = none := by
  have hroutes := (hinv.sound call hmem).entry hentry
  cases hphase : call.phase with
  | sending => rw [hphase] at hroutes; cases hroutes
  | _ => rfl

variable [DecidableEq ρ]

theorem step_moved (cfg : NodeId → NodeConfig ρ) (hsound : ∀ call ∈ cluster.calls, call.Sound requestKey)
    (havoids : cluster.AvoidsReturn action) : Moved requestKey cluster (cluster.step requestKey cfg action) := by
  cases action with
  | arrive node task answers =>
    obtain ⟨hnew, hsent⟩ := Call.handleIncoming_spec requestKey answers cluster.now node task
    exact .arrived _ hnew hsent rfl
  | deliver i answers =>
    unfold step
    dsimp only
    split
    case h_2 => exact .quiet rfl
    case h_1 call hcall =>
      split
      case h_2 => exact .quiet rfl
      case h_1 failover target req hphase =>
        exact deliver_moved answers hcall (hsound call (mem_of_getElem? hcall)) hphase
  | move i answers =>
    unfold step
    dsimp only
    split
    case h_2 => exact .quiet rfl
    case h_1 call hcall =>
      split_ifs
      case neg => exact .quiet rfl
      case pos =>
        have hnext := Call.next_next (cfg call.node).hash (cfg call.node).hopLatency answers cluster.now
          (cluster.caches call.node) (hsound call (mem_of_getElem? hcall))
        refine .moved i call _ hcall hnext.node hnext.entry hnext.task hnext.sound ?_ rfl
        obtain hnone | hsame | ⟨failover, cand, candidates, req, hphase, hcands, hguard, hsent⟩ := hnext.sent
        · exact .inl hnone
        · exact .inr (.inl hsame)
        · refine .inr (.inr ⟨cand, req, hguard, hsent, ?_⟩)
          intro guard key hleads hkey
          exact havoids key call.node cand.nodeId (by simp [nextForward, hcall, hleads, hkey, hphase, hcands])
  | cancel i =>
    unfold step
    dsimp only
    split
    case h_2 => exact .quiet rfl
    case h_1 call hcall =>
      have hnext := Call.cancel_next (cfg call.node).hash (cluster.caches call.node) (hsound call (mem_of_getElem? hcall))
      refine .moved i call _ hcall hnext.node hnext.entry hnext.task hnext.sound ?_ rfl
      exact (Call.cancel_sent _ _ call).imp_right .inl
  | _ => exact .quiet rfl

theorem inv_of_reachable {cfg : NodeId → NodeConfig ρ}
    (h : Reachable (clusters requestKey cfg AvoidsReturn) cluster) : Inv requestKey cluster := by
  refine h.invariant (I := Inv requestKey) ⟨?_, ?_, ?_⟩ ?_
  · intro call hmem
    cases hmem
  · intro call hmem
    cases hmem
  · intro key node hcycle
    obtain ⟨_, ⟨call, hmem, _⟩, _⟩ := Relation.TransGen.head'_iff.mp hcycle
    cases hmem
  · rintro before after hinv ⟨action, havoids, rfl⟩
    exact hinv.moved (step_moved cfg hinv.sound havoids)

theorem step_sound (cfg : NodeId → NodeConfig ρ) (hsound : ∀ call ∈ cluster.calls, call.Sound requestKey) :
    ∀ call ∈ (cluster.step requestKey cfg action).calls, call.Sound requestKey := by
  intro call hmem
  by_cases havoids : cluster.AvoidsReturn action
  · obtain ⟨last, horig⟩ := (step_moved cfg hsound havoids).origin
    exact (horig call hmem).elim (hsound call) And.left
  cases action with
  | move i answers =>
    unfold step at hmem
    dsimp only at hmem
    split at hmem
    case h_2 => exact hsound call hmem
    case h_1 before hbefore =>
      split_ifs at hmem
      case neg => exact hsound call hmem
      case pos =>
        obtain hold | rfl := mem_or_eq_of_mem_set hmem
        · exact hsound call hold
        · exact (Call.next_next _ _ answers _ _ (hsound before (mem_of_getElem? hbefore))).sound
  | _ => exact absurd trivial havoids

/-- A forwarded call contacts no peer, wherever the dispatchers route: tasks take one hop. -/
theorem forwards_one_hop (requestKey : Request → ρ) (config : NodeId → NodeConfig ρ)
    (actions : List (Action Request ρ)) : ∀ call ∈ (actions.foldl (step requestKey config) .new).calls,
      call.entry.requiresLocalRenderer = true → call.phase.sent = none := by
  intro call hmem hentry
  have hsound : call.Sound requestKey := by
    refine (reachable_foldl _ _ actions).invariant (I := fun cluster : Cluster Request ρ =>
      ∀ call ∈ cluster.calls, call.Sound requestKey) (by simp [new]) ?_ call hmem
    rintro _ _ hsound ⟨action, rfl⟩
    exact step_sound config hsound
  have hroutes := hsound.entry hentry
  cases hphase : call.phase with
  | sending => simp [hphase, Phase.routes] at hroutes
  | _ => rfl

/-! ## Walks of waiting calls -/

theorem follows_iff {leader : Call Request ρ} {inner : RenderOutputCacheInner ρ} :
    call.follows leader inner = true ↔ ∃ foll guard, call.phase = .following foll ∧
      inner.channels.changed foll.changed = false ∧ leader.node = call.node ∧ leader.guard = some guard ∧
      guard.key = some foll.key := by
  unfold Call.follows
  split
  case h_1 foll guard hphase hguard =>
    simp [hphase, hguard, and_assoc]
  case h_2 hother =>
    constructor
    · nofun
    · rintro ⟨foll, guard, hphase, -, -, hguard, -⟩
      exact absurd hguard (hother foll guard hphase)

theorem waitsFor_iff {j : ℕ} :
    cluster.WaitsFor i j ↔ ∃ call other, cluster.calls[i]? = some call ∧ cluster.calls[j]? = some other ∧
      (call.follows other (cluster.caches call.node) = true ∨
        (∃ target req, call.phase.sent = some (target, req, some j)) ∧ other.unfinished = true) := by
  unfold WaitsFor waitsFor
  cases cluster.calls[i]? with
  | none => simp
  | some call =>
    cases cluster.calls[j]? with
    | none => simp
    | some other => simp [Option.any_eq_true]

section walks

variable (hinv : Inv requestKey cluster) {guard : RenderFlightLeader ρ}
include hinv

/-- Waiting that begins with a leader's forward goes along the outstanding forwards of its key. -/
theorem Inv.forwards_of_walk {j : ℕ} {origin : Call Request ρ}
    {key : RenderCacheKey ρ} (horig : cluster.calls[i]? = some origin) (hguard : origin.guard = some guard)
    (hkey : guard.key = some key) (hwalk : TransGen cluster.WaitsFor i j) :
    ∃ call, cluster.calls[j]? = some call ∧ RenderCacheKey.fromTask requestKey call.task = key ∧
      TransGen (cluster.ForwardsTo key) origin.node call.node ∧
      (call.phase.sent = none ∨ ∃ guard, call.guard = some guard ∧ guard.key = some key) := by
  -- a leader that waits has forwarded: its handler is on the target and about the same key
  have hforward : ∀ (i j : ℕ) (call : Call Request ρ) (guard : RenderFlightLeader ρ), cluster.calls[i]? = some call →
      call.guard = some guard → guard.key = some key → cluster.WaitsFor i j →
      ∃ handler, cluster.calls[j]? = some handler ∧ RenderCacheKey.fromTask requestKey handler.task = key ∧
        cluster.ForwardsTo key call.node handler.node ∧ handler.phase.sent = none := by
    intro i j call guard hcall hguard hkey hwaits
    have hsound := hinv.sound call (mem_of_getElem? hcall)
    obtain ⟨call', handler, hcall', hhand, hfollows | ⟨⟨target, req, hsent⟩, -⟩⟩ := waitsFor_iff.mp hwaits
    · obtain rfl : call = call' := Option.some.inj (hcall.symm.trans hcall')
      obtain ⟨foll, -, hphase, -⟩ := follows_iff.mp hfollows
      have hnone := (hsound.awaited foll.key (by rw [hphase]; rfl)).2
      rw [hguard] at hnone
      cases hnone
    · obtain rfl : call = call' := Option.some.inj (hcall.symm.trans hcall')
      obtain ⟨handler', hhand', hnode, hentry, htask⟩ :=
        hinv.handled call (mem_of_getElem? hcall) target req j hsent
      obtain rfl : handler = handler' := Option.some.inj (hhand.symm.trans hhand')
      refine ⟨handler, hhand, ?_, ?_, hinv.sent_eq_none (mem_of_getElem? hhand) hentry⟩
      · rw [htask]
        exact Option.some.inj ((hsound.guard guard hguard).symm.trans hkey)
      · exact ⟨call, mem_of_getElem? hcall, guard, target, req, _, rfl, hguard, hkey, hsent, hnode.symm⟩
  induction hwalk with
  | single hwaits =>
    obtain ⟨handler, hhand, htask, hedge, hsent⟩ := hforward i _ origin guard horig hguard hkey hwaits
    exact ⟨handler, hhand, htask, .single hedge, .inl hsent⟩
  | tail _ hwaits ih =>
    obtain ⟨call, hcall, htask, hpath, hlast⟩ := ih
    obtain ⟨call', other, hcall', hother, hfollows | ⟨⟨target, req, hsent⟩, -⟩⟩ := waitsFor_iff.mp hwaits
    · -- a follower waits on its own node
      obtain rfl : call = call' := Option.some.inj (hcall.symm.trans hcall')
      obtain ⟨foll, guard', hphase, -, hnode, hguard', hkey'⟩ := follows_iff.mp hfollows
      have hwait := ((hinv.sound call (mem_of_getElem? hcall)).awaited foll.key (by rw [hphase]; rfl)).1
      have hleads : guard'.key = some key := by rw [hkey', hwait, htask]
      refine ⟨other, hother, ?_, by rw [hnode]; exact hpath, .inr ⟨guard', hguard', hleads⟩⟩
      exact Option.some.inj (((hinv.sound other (mem_of_getElem? hother)).guard guard' hguard').symm.trans hleads)
    · obtain rfl : call = call' := Option.some.inj (hcall.symm.trans hcall')
      obtain hnone | ⟨guard', hguard', hleads⟩ := hlast
      · simp [hnone] at hsent
      · obtain ⟨handler, hhand, htask', hedge, hsent'⟩ := hforward _ _ call guard' hcall hguard' hleads hwaits
        exact ⟨handler, hhand, htask', hpath.tail hedge, .inl hsent'⟩

/-- No cycle of waiting goes through a leader. -/
theorem Inv.no_cycle_of_leader
    (hcall : cluster.calls[i]? = some call) (hguard : call.guard = some guard) : ¬ TransGen cluster.WaitsFor i i := by
  intro hcycle
  have hkey := (hinv.sound call (mem_of_getElem? hcall)).guard guard hguard
  obtain ⟨call', hcall', -, hpath, -⟩ := hinv.forwards_of_walk hcall hguard hkey hcycle
  obtain rfl : call = call' := Option.some.inj (hcall.symm.trans hcall')
  exact hinv.acyclic _ call.node hpath

/-- A call that is waited for leads a flight or is a forwarded one, and those wait only for leaders. -/
theorem Inv.waitsFor_acyclic : Acyclic cluster.WaitsFor := by
  intro i hcycle
  obtain ⟨j, hwaits, hback⟩ := Relation.TransGen.head'_iff.mp hcycle
  obtain ⟨call, other, hcall, hother, hfollows | ⟨⟨target, req, hsent⟩, -⟩⟩ := waitsFor_iff.mp hwaits
  · obtain ⟨_, guard, -, -, -, hguard, -⟩ := follows_iff.mp hfollows
    exact hinv.no_cycle_of_leader hother hguard (.tail' hback hwaits)
  · -- the call before `i` on the cycle follows it, because `i` has itself forwarded
    obtain ⟨k, -, hlast⟩ := Relation.TransGen.tail'_iff.mp hcycle
    obtain ⟨before, call', hbef, hcall', hfollows | ⟨⟨target', req', hsent'⟩, -⟩⟩ := waitsFor_iff.mp hlast
    · obtain ⟨_, guard, -, -, -, hguard, -⟩ := follows_iff.mp hfollows
      exact hinv.no_cycle_of_leader hcall' hguard hcycle
    · obtain rfl : call = call' := Option.some.inj (hcall.symm.trans hcall')
      obtain ⟨handler, hhand, -, hentry, -⟩ :=
        hinv.handled before (mem_of_getElem? hbef) target' req' i hsent'
      obtain rfl : call = handler := Option.some.inj (hcall.symm.trans hhand)
      simp [hinv.sent_eq_none (mem_of_getElem? hcall) hentry] at hsent

end walks

def unexpired (cluster : Cluster Request ρ) (i : ℕ) : Bool :=
  (cluster.calls[i]?).any (fun call => cluster.now < call.task.deadline)

/-- As long as leaders forward only where no outstanding forwards lead back to them, no call waits for itself,
and no calls wait only for each other. -/
theorem no_wait_cycle {config : NodeId → NodeConfig ρ}
    (h : Reachable (clusters requestKey config AvoidsReturn) cluster) :
    Acyclic cluster.WaitsFor ∧
      ∀ calls : Set ℕ, (∀ i ∈ calls, cluster.unexpired i = true) → (∀ i ∈ calls, ∃ j ∈ calls, cluster.WaitsFor i j) →
        calls = ∅ := by
  have hacyclic := (inv_of_reachable h).waitsFor_acyclic
  refine ⟨hacyclic, ?_⟩
  intro calls _ hclosed
  have hfinite : calls.Finite := by
    refine (Set.finite_lt_nat cluster.calls.length).subset ?_
    intro i hi
    obtain ⟨j, -, hwaits⟩ := hclosed i hi
    obtain ⟨call, _, hcall, _⟩ := waitsFor_iff.mp hwaits
    exact (List.getElem?_eq_some_iff.mp hcall).1
  exact hacyclic.eq_empty_of_closed hfinite hclosed

/-! ## A check that a node could make before it forwards -/

/-- The next candidate is another node, and no leader of the key there waits for a peer. -/
def targetIdle (cluster : Cluster Request ρ) : Action Request ρ → Bool
  | .move i _ =>
    match cluster.nextForward i with
    | some (key, source, target) =>
      target != source && cluster.calls.all (fun call =>
        !(call.node == target && call.guard.bind RenderFlightLeader.key == some key && call.phase.sent.isSome))
    | none => true
  | _ => true

theorem avoidsReturn_of_targetIdle (hidle : cluster.targetIdle action = true) : cluster.AvoidsReturn action := by
  cases action with
  | move i answers =>
    intro key source target hnext hback
    simp only [targetIdle, hnext, Bool.and_eq_true, bne_iff_ne, all_eq_true] at hidle
    cases hback.cases_head with
    | inl hsame => exact hidle.1 hsame
    | inr hedge =>
      obtain ⟨_, ⟨call, hmem, guard, cand, req, handler, hnode, hguard, hkey, hsent, -⟩, -⟩ := hedge
      have hbusy := hidle.2 call hmem
      simp [hnode, hguard, hkey, hsent] at hbusy
  | _ => trivial

end Cluster

/-! ## Two nodes that forward one key to each other -/

namespace Cluster.Example

def nodeA : NodeId := ⟨"a"⟩
def nodeB : NodeId := ⟨"b"⟩

def config : NodeId → NodeConfig Unit := fun _ => { hash := fun _ => 0, hopLatency := 0 }

def request (id : UInt64) : InternalTask Unit where
  id := id
  readableNamespaces := none
  style := { id := ⟨"basic"⟩, version := 1 }
  source := none
  request := ()
  scale := .x1
  outputFormat := .png
  deadline := 10 ^ 9
  forwardingHops := 0

/-- The dispatcher picks `target`, which is warm for the style. -/
def routedTo (target : NodeId) : Answers := { candidates := [⟨target, none⟩] }

def run : List (Action Unit Unit) → Cluster Unit Unit :=
  List.foldl (step id config) .new

/-- Calls 0 and 1 lead the key on `a` and on `b` and forward it to each other; calls 2 and 3 handle the
forwarded tasks and follow them. -/
def crossForward : List (Action Unit Unit) :=
  [.arrive nodeA (request 1) {}, .move 0 {}, .move 0 {},
   .arrive nodeB (request 2) {}, .move 1 {}, .move 1 {},
   .move 0 (routedTo nodeB), .move 0 {}, .move 1 (routedTo nodeA), .move 1 {},
   .deliver 0 {}, .move 2 {}, .move 2 {}, .deliver 1 {}, .move 3 {}, .move 3 {}]

theorem crossForward_waits_for_itself :
    Reachable (clusters id config (fun _ _ => True)) (run crossForward) ∧
      TransGen (run crossForward).WaitsFor 0 0 ∧
      ∀ i ∈ ({0, 1, 2, 3} : Set ℕ), (run crossForward).unexpired i = true ∧
        ∃ j ∈ ({0, 1, 2, 3} : Set ℕ), (run crossForward).WaitsFor i j := by
  have h02 : (run crossForward).WaitsFor 0 2 := by unfold WaitsFor; decide +kernel
  have h21 : (run crossForward).WaitsFor 2 1 := by unfold WaitsFor; decide +kernel
  have h13 : (run crossForward).WaitsFor 1 3 := by unfold WaitsFor; decide +kernel
  have h30 : (run crossForward).WaitsFor 3 0 := by unfold WaitsFor; decide +kernel
  have hunexpired : ∀ i < 4, (run crossForward).unexpired i = true := by decide +kernel
  refine ⟨?_, ((TransGen.single h02).tail h21).tail h13 |>.tail h30, ?_⟩
  · refine Reachable.init.foldl_checked (fun _ _ => true) ?_ (by decide +kernel)
    exact fun _ action _ => ⟨action, trivial, rfl⟩
  · rintro i (rfl | rfl | rfl | rfl)
    · exact ⟨hunexpired 0 (by decide), 2, by simp, h02⟩
    · exact ⟨hunexpired 1 (by decide), 3, by simp, h13⟩
    · exact ⟨hunexpired 2 (by decide), 1, by simp, h21⟩
    · exact ⟨hunexpired 3 (by decide), 0, by simp, h30⟩

theorem crossForward_one_hop :
    ∃ call ∈ (run crossForward).calls, call.entry.requiresLocalRenderer = true ∧ call.phase.sent = none :=
  have hmem := mem_of_getElem? (i := 2) rfl
  ⟨_, hmem, rfl, forwards_one_hop id config crossForward _ hmem rfl⟩

/-- Call 0 on `a` forwards to `b`, where call 1 handles it; calls 2 and 3 follow the leader on their node. -/
def oneForward : List (Action Unit Unit) :=
  [.arrive nodeA (request 1) {}, .move 0 {}, .move 0 {}, .move 0 (routedTo nodeB), .move 0 {},
   .deliver 0 {}, .move 1 {}, .move 1 {},
   .arrive nodeB (request 2) {}, .move 2 {}, .move 2 {}, .arrive nodeA (request 3) {}, .move 3 {}, .move 3 {}]

theorem oneForward_no_wait_cycle :
    ((run oneForward).waitsFor 3 0 ∧ (run oneForward).waitsFor 0 1 ∧ (run oneForward).waitsFor 2 1) ∧
      Acyclic (run oneForward).WaitsFor := by
  have hreachable : Reachable (clusters id config AvoidsReturn) (run oneForward) := by
    refine Reachable.init.foldl_checked targetIdle ?_ (by decide +kernel)
    exact fun _ action hidle => ⟨action, avoidsReturn_of_targetIdle hidle, rfl⟩
  exact ⟨by decide +kernel, (no_wait_cycle hreachable).1⟩

end Cluster.Example
end Mappf.Biei
