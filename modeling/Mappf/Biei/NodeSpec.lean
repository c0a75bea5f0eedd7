import Mappf.Biei.Node

/-! # What one section of a call can do

A call never changes its node, its entry or its task. It looks up, joins, follows and leads only the key of
its task, leads nothing while it looks or waits, and sends only from the head of the failover loop, to the
candidate that comes next. A forwarded call stays on the local path. -/
namespace Mappf.Biei

open Styles (Instant Duration)

variable {Request ρ : Type}

namespace Phase

def awaitedKey : Phase Request ρ → Option (RenderCacheKey ρ)
  | .looking key _ => some key
  | .joining key _ => some key
  | .following follower => some follower.key
  | _ => none

/-- The candidate a call waits for, the request it sent there, and the call that the request started. -/
def sent : Phase Request ρ → Option (ForwardCandidate × ForwardRequest Request × Option ℕ)
  | .sending _ target request handler => some (target, request, handler)
  | _ => none

def routes : Phase Request ρ → Bool
  | .viewing => true
  | .preparing (.route _ _ _) => true
  | .preparing (.overflow _) => true
  | .rendering (.route _ _ _) => true
  | .rendering (.overflow _) => true
  | .forwarding _ => true
  | .sending _ _ _ _ => true
  | _ => false

end Phase

theorem fromTask_intoInternal (rkey : Request → ρ) (task : InternalTask Request) (sentAt receivedAt : Instant)
    (hopLatency : Duration) :
    RenderCacheKey.fromTask rkey ((task.toForwardWire sentAt hopLatency).intoInternal receivedAt) =
      .fromTask rkey task := by
  unfold RenderCacheKey.fromTask WireTask.intoInternal InternalTask.toForwardWire InternalTask.toWireWithHopLatency
  dsimp only

namespace Call

structure Sound (requestKey : Request → ρ) (call : Call Request ρ) : Prop where
  awaited : ∀ key, call.phase.awaitedKey = some key → key = .fromTask requestKey call.task ∧ call.guard = none
  guard : ∀ guard, call.guard = some guard → guard.key = some (.fromTask requestKey call.task)
  entry : call.entry.requiresLocalRenderer = true → call.phase.routes = false
  sent : ∀ target request handler, call.phase.sent = some (target, request, handler) →
    ∃ now hopLatency, request.task = call.task.toForwardWire now hopLatency

/-- The call goes on without waiting for a flight or for a peer. -/
structure Proceeds (call call' : Call Request ρ) : Prop where
  node : call'.node = call.node
  entry : call'.entry = call.entry
  task : call'.task = call.task
  guard : call'.guard = call.guard
  awaited : call'.phase.awaitedKey = none
  sent : call'.phase.sent = none
  routes : call.entry.requiresLocalRenderer = true → call'.phase.routes = false

theorem finish_proceeds (call : Call Request ρ) (outcome : TaskOutcome) : call.Proceeds (call.finish outcome) := by
  unfold finish
  split <;> exact ⟨rfl, rfl, rfl, rfl, rfl, rfl, fun _ => rfl⟩

section incoming

variable {call : Call Request ρ} (hinc : call.entry.requiresLocalRenderer = false)
include hinc

theorem forwardWithFailover_proceeds (now : Instant) (routeTier : RouteTier) (candidates : List ForwardCandidate) :
    call.Proceeds (call.forwardWithFailover now routeTier candidates) := by
  unfold forwardWithFailover
  split_ifs
  · exact call.finish_proceeds _
  · exact call.finish_proceeds _
  · exact ⟨rfl, rfl, rfl, rfl, rfl, rfl, fun h => by rw [hinc] at h; cases h⟩

theorem processLocalRoute_proceeds (answers : Answers) (now : Instant) (routeTier : RouteTier)
    (workerHint : Option WorkerId) (fallbackCandidates : List ForwardCandidate) :
    call.Proceeds (call.processLocalRoute answers now routeTier workerHint fallbackCandidates) := by
  unfold processLocalRoute
  split_ifs
  · exact ⟨rfl, rfl, rfl, rfl, rfl, rfl, fun h => by rw [hinc] at h; cases h⟩
  · exact call.finish_proceeds _
  · exact forwardWithFailover_proceeds hinc now routeTier fallbackCandidates

theorem dispatch_proceeds (answers : Answers) (now : Instant) : call.Proceeds (call.dispatch answers now) := by
  unfold dispatch
  split
  · exact processLocalRoute_proceeds hinc answers now _ _ _
  · exact forwardWithFailover_proceeds hinc now _ _
  · exact call.finish_proceeds _

end incoming

theorem processFailed_proceeds {call : Call Request ρ} {route : LocalRoute} (now : Instant) (error : ProcessError)
    (hroute : call.entry.requiresLocalRenderer = true → (.rendering route : Phase Request ρ).routes = false) :
    call.Proceeds (call.processFailed now route error) := by
  cases route with
  | route routeTier workerHint fallbackCandidates =>
    have hinc : call.entry.requiresLocalRenderer = false := by
      cases h : call.entry.requiresLocalRenderer with
      | false => rfl
      | true => cases hroute h
    cases error with
    | queueFull | renderAdmissionClosed =>
      unfold processFailed
      dsimp only
      split_ifs
      · exact call.finish_proceeds _
      · exact forwardWithFailover_proceeds hinc now routeTier fallbackCandidates
    | queueDisconnected => exact call.finish_proceeds _
  | overflow exhaustionReason | forwarded routeTier drainWorker => cases error <;> exact call.finish_proceeds _

/-! ## Sections -/

structure Next (requestKey : Request → ρ) (call call' : Call Request ρ) : Prop where
  node : call'.node = call.node
  entry : call'.entry = call.entry
  task : call'.task = call.task
  sound : call'.Sound requestKey
  sent : call'.phase.sent = none ∨ call' = call ∨
    ∃ failover candidate candidates request, call.phase = .forwarding failover ∧
      failover.candidates = candidate :: candidates ∧ call'.guard = call.guard ∧
      call'.phase.sent = some (candidate, request, none)

variable {rkey : Request → ρ} {call call' : Call Request ρ}

namespace Next

theorem same (h : call.Sound rkey) : call.Next rkey call :=
  ⟨rfl, rfl, rfl, h, .inr (.inl rfl)⟩

theorem of_proceeds (h : call.Sound rkey) (hproc : call.Proceeds call') : call.Next rkey call' := by
  refine ⟨hproc.node, hproc.entry, hproc.task, ⟨?_, ?_, ?_, ?_⟩, .inl hproc.sent⟩
  · simp [hproc.awaited]
  · intro guard hguard
    rw [hproc.guard] at hguard
    rw [hproc.task]
    exact h.guard guard hguard
  · intro hentry
    rw [hproc.entry] at hentry
    exact hproc.routes hentry
  · simp [hproc.sent]

theorem of_awaits (h : call.Sound rkey) (hguard : call.guard = none) (phase : Phase Request ρ)
    (hkey : phase.awaitedKey = some (.fromTask rkey call.task)) (hsent : phase.sent = none)
    (hroutes : phase.routes = false) : call.Next rkey { call with phase } := by
  refine ⟨rfl, rfl, rfl, ⟨?_, h.guard, fun _ => hroutes, ?_⟩, .inl hsent⟩
  · intro key hwait
    rw [hkey] at hwait
    exact ⟨(Option.some.inj hwait).symm, hguard⟩
  · simp [hsent]

theorem of_unguarded (phase : Phase Request ρ) (hwait : phase.awaitedKey = none) (hsent : phase.sent = none)
    (hroutes : phase.routes = false) : call.Next rkey { call with guard := none, phase } := by
  refine ⟨rfl, rfl, rfl, ⟨?_, ?_, fun _ => hroutes, ?_⟩, .inl hsent⟩
  · simp [hwait]
  · nofun
  · simp [hsent]

end Next

theorem acquired_next {guard : Option (RenderFlightLeader ρ)}
    (hguard : ∀ leader, guard = some leader → leader.key = some (.fromTask rkey call.task)) :
    call.Next rkey (call.acquired guard) := by
  unfold acquired
  split
  case h_1 hinc =>
    refine ⟨rfl, rfl, rfl, ⟨?_, hguard, ?_, ?_⟩, .inl rfl⟩
    · nofun
    · intro hentry
      rw [hinc] at hentry
      cases hentry
    · intro target req handler hsent
      cases hsent
  case h_2 =>
    refine ⟨rfl, rfl, rfl, ⟨?_, hguard, fun _ => rfl, ?_⟩, .inl rfl⟩
    · nofun
    · intro target req handler hsent
      cases hsent

theorem acquireRenderOutputCache_next (answers : Answers) (h : call.Sound rkey) (hguard : call.guard = none) :
    call.Next rkey (call.acquireRenderOutputCache rkey answers) := by
  unfold acquireRenderOutputCache
  split_ifs
  · exact .of_proceeds h (call.finish_proceeds _)
  · exact acquired_next nofun
  · exact .of_awaits h hguard _ rfl rfl rfl

theorem Sound.start (node : NodeId) (entry : Entry) (task : InternalTask Request) (phase : Phase Request ρ)
    (hwait : phase.awaitedKey = none) (hsent : phase.sent = none)
    (hroutes : entry.requiresLocalRenderer = true → phase.routes = false) :
    Sound rkey { node, entry, task, guard := none, phase } := by
  refine ⟨?_, ?_, hroutes, ?_⟩
  · simp [hwait]
  · nofun
  · simp [hsent]

theorem Next.sent_eq_none (h : call.Next rkey call') (hsent : call.phase.sent = none)
    (hloop : ∀ failover, call.phase ≠ .forwarding failover) : call'.phase.sent = none := by
  obtain hnone | rfl | ⟨failover, _, _, _, hphase, _⟩ := h.sent
  · exact hnone
  · exact hsent
  · exact absurd hphase (hloop failover)

theorem handleIncoming_spec (rkey : Request → ρ) (answers : Answers) (now : Instant) (node : NodeId)
    (task : InternalTask Request) : (handleIncoming rkey answers now node task).Sound rkey ∧
      (handleIncoming rkey answers now node task).phase.sent = none := by
  have hstart : Sound rkey { node, entry := .incoming, task, guard := none, phase := .viewing } :=
    .start node .incoming task .viewing rfl rfl nofun
  have hnext : Next rkey { node, entry := .incoming, task, guard := none, phase := .viewing }
      (handleIncoming rkey answers now node task) := by
    unfold handleIncoming
    split_ifs
    · exact .of_proceeds hstart (finish_proceeds _ _)
    · exact acquireRenderOutputCache_next answers hstart rfl
  exact ⟨hnext.sound, hnext.sent_eq_none rfl nofun⟩

theorem handleForwarded_spec (rkey : Request → ρ) (answers : Answers) (now : Instant) (node : NodeId)
    (req : ForwardRequest Request) : let handled := handleForwarded rkey answers now node req
    handled.Sound rkey ∧ handled.phase.sent = none ∧ handled.node = node ∧
      handled.entry.requiresLocalRenderer = true ∧ handled.task = req.task.intoInternal now := by
  generalize hcall : ({ node, entry := .forwarded req.routeTier req.drainWorker, task := req.task.intoInternal now
                        guard := none, phase := .preparing (.forwarded req.routeTier req.drainWorker) } :
    Call Request ρ) = call
  have hstart : call.Sound rkey := by
    rw [← hcall]
    exact .start node _ _ _ rfl rfl (fun _ => rfl)
  have hnext : call.Next rkey (handleForwarded rkey answers now node req) := by
    unfold handleForwarded
    dsimp only
    rw [hcall]
    split_ifs
    · exact .of_proceeds hstart (finish_proceeds _ _)
    · exact .of_proceeds hstart (finish_proceeds _ _)
    · exact acquireRenderOutputCache_next answers hstart (by rw [← hcall])
  refine ⟨hnext.sound, ?_, hnext.node.trans (by rw [← hcall]), ?_, hnext.task.trans (by rw [← hcall])⟩
  · refine hnext.sent_eq_none (by rw [← hcall]; rfl) ?_
    rw [← hcall]
    nofun
  · rw [hnext.entry, ← hcall]
    rfl

variable [DecidableEq ρ] (hash : RenderCacheKey ρ → UInt64)

theorem join_next (answers : Answers) (inner : RenderOutputCacheInner ρ)
    (h : call.Sound rkey) {key : RenderCacheKey ρ} (readable : Option NamespaceSet)
    (hkey : key = .fromTask rkey call.task) (hguard : call.guard = none) :
    call.Next rkey (call.join hash answers inner key readable).1 := by
  unfold join
  obtain ⟨output, -, hjoin⟩ | ⟨channel, -, hjoin⟩ | ⟨-, inner', hjoin, -⟩ := inner.joinFlight_cases hash key readable
  · rw [hjoin]
    exact .of_proceeds h (call.finish_proceeds _)
  · rw [hjoin]
    exact .of_awaits h hguard (.following _) (congrArg some hkey) rfl rfl
  · rw [hjoin]
    split_ifs
    · exact .of_proceeds h (call.finish_proceeds _)
    · refine acquired_next ?_
      intro leader hlead
      cases hlead
      rw [hkey]

omit [DecidableEq ρ] in
theorem contactNext_next (hopLatency : Duration) (answers : Answers) (now : Instant) (h : call.Sound rkey)
    {failover : Failover} (hphase : call.phase = .forwarding failover) :
    call.Next rkey (call.contactNext hopLatency answers now failover) := by
  have hinc : call.entry.requiresLocalRenderer ≠ true := by
    intro hentry
    have hroutes := h.entry hentry
    rw [hphase] at hroutes
    cases hroutes
  unfold contactNext
  split
  case h_1 =>
    split_ifs
    · exact .of_proceeds h (call.finish_proceeds _)
    · exact .of_proceeds h (call.finish_proceeds _)
    · exact .of_proceeds h ⟨rfl, rfl, rfl, rfl, rfl, rfl, fun hentry => absurd hentry hinc⟩
  case h_2 cand candidates hcands =>
    split_ifs
    · exact .of_proceeds h (call.finish_proceeds _)
    · refine ⟨rfl, rfl, rfl, ⟨?_, h.guard, fun hentry => absurd hentry hinc, ?_⟩, ?_⟩
      · nofun
      · intro target req handler hsent
        cases hsent
        exact ⟨now, hopLatency, rfl⟩
      · exact .inr (.inr ⟨failover, cand, candidates, _, hphase, hcands, rfl, rfl⟩)

omit [DecidableEq ρ] in
theorem replied_next (answers : Answers) (now : Instant) (h : call.Sound rkey) (failover : Failover)
    (hinc : call.entry.requiresLocalRenderer ≠ true) : call.Next rkey (call.replied answers now failover) := by
  have hagain : ∀ failover', call.Next rkey { call with phase := .forwarding failover' } := by
    intro failover'
    exact .of_proceeds h ⟨rfl, rfl, rfl, rfl, rfl, rfl, fun hentry => absurd hentry hinc⟩
  unfold replied
  split
  · split_ifs
    · exact .of_proceeds h (call.finish_proceeds _)
    · exact .same h
  · exact hagain _
  · split
    · split_ifs
      · exact hagain _
      · exact hagain _
      · exact .of_proceeds h (call.finish_proceeds _)
    · exact .of_proceeds h (call.finish_proceeds _)

theorem next_next (hopLatency : Duration) (answers : Answers) (now : Instant)
    (inner : RenderOutputCacheInner ρ) (h : call.Sound rkey) :
    call.Next rkey (call.next hash hopLatency answers now inner).1 := by
  have hentry : ∀ phase, call.phase = phase → call.entry.requiresLocalRenderer = true → phase.routes = false := by
    intro phase hphase
    rw [← hphase]
    exact h.entry
  unfold next
  split
  case h_1 key readable hphase =>
    obtain ⟨hkey, hguard⟩ := h.awaited key (by rw [hphase]; rfl)
    split
    · exact .of_proceeds h (call.finish_proceeds _)
    · exact .of_awaits h hguard (.joining key readable) (congrArg some hkey) rfl rfl
  case h_2 key readable hphase =>
    obtain ⟨hkey, hguard⟩ := h.awaited key (by rw [hphase]; rfl)
    exact join_next hash answers inner h readable hkey hguard
  case h_3 foll hphase =>
    obtain ⟨hkey, hguard⟩ := h.awaited foll.key (by rw [hphase]; rfl)
    split_ifs
    · exact .of_awaits h hguard (.looking foll.key foll.readableNamespaces) (congrArg some hkey) rfl rfl
    · exact .of_proceeds h (call.finish_proceeds _)
    · exact .same h
  case h_4 hphase =>
    have hinc : call.entry.requiresLocalRenderer = false := by
      cases hreq : call.entry.requiresLocalRenderer with
      | false => rfl
      | true => cases hentry _ hphase hreq
    split_ifs
    · exact .of_proceeds h (call.finish_proceeds _)
    · exact .of_proceeds h (dispatch_proceeds hinc answers now)
  case h_5 route hphase =>
    have hroute : call.entry.requiresLocalRenderer = true → (.rendering route : Phase Request ρ).routes = false := by
      intro hreq
      have hroutes := hentry _ hphase hreq
      cases route <;> first | rfl | cases hroutes
    split
    · exact .of_proceeds h (call.finish_proceeds _)
    · split_ifs
      · exact .of_proceeds h ⟨rfl, rfl, rfl, rfl, rfl, rfl, hroute⟩
      · exact .of_proceeds h (processFailed_proceeds now _ hroute)
  case h_6 route hphase =>
    split
    · exact .of_proceeds h (call.finish_proceeds _)
    · exact .of_proceeds h (processFailed_proceeds now _ (hentry _ hphase))
  case h_7 failover hphase => exact contactNext_next hopLatency answers now h hphase
  case h_8 failover _ _ _ hphase =>
    refine replied_next answers now h failover ?_
    intro hreq
    cases hentry _ hphase hreq
  case h_9 outcome hphase =>
    split <;> exact .of_proceeds h ⟨rfl, rfl, rfl, rfl, rfl, rfl, fun _ => rfl⟩
  case h_10 outcome hphase =>
    split
    · exact .of_unguarded (.finished outcome) rfl rfl rfl
    · exact .of_proceeds h ⟨rfl, rfl, rfl, rfl, rfl, rfl, fun _ => rfl⟩
  case h_11 | h_12 => exact .same h

theorem cancel_next (inner : RenderOutputCacheInner ρ)
    (h : call.Sound rkey) : call.Next rkey (call.cancel hash inner).1 := by
  unfold cancel
  split
  · exact .same h
  · exact .of_unguarded .cancelled rfl rfl rfl
  · exact .of_proceeds h ⟨rfl, rfl, rfl, rfl, rfl, rfl, fun _ => rfl⟩

theorem cancel_sent (inner : RenderOutputCacheInner ρ) (call : Call Request ρ) :
    (call.cancel hash inner).1.phase.sent = none ∨ (call.cancel hash inner).1 = call := by
  unfold cancel
  split
  · exact .inr rfl
  · exact .inl rfl
  · exact .inl rfl

end Call
end Mappf.Biei
