import Mappf.Biei.Types
import Mappf.Biei.RenderCache

/-! # Handling a render task on a node

`node.rs`: `handle_incoming` and `handle_forwarded`, cut at every await and at every section that locks the
output cache. A call is one of these handlers under way. What it learns from its surroundings in one section
is an input (`Answers`): the style catalog, render admission, the cluster view, the dispatcher's candidates,
the profile preparer, the worker pool and the transport. The order of the sections, every early return and
the hand-over between the local, the remote and the overflow path are the source's. Metrics are left out. -/
namespace Mappf.Biei

open Styles (StyleId Instant Duration)

def minForwardBudgetMs : ℕ := 200
def maxForwardingHops : ℕ := 1

/-! ## Outcomes -/

structure TaskOutcome where
  taskId : UInt64
  result : TaskResult
  deriving DecidableEq

def TaskOutcome.rejectedReason (outcome : TaskOutcome) : Option RejectionReason :=
  match outcome.result with
  | .rejected reason => some reason
  | _ => none

inductive ProcessError
  | queueFull
  | renderAdmissionClosed
  | queueDisconnected

variable {Request ρ : Type}

namespace InternalTask

variable (task : InternalTask Request)

def reject (reason : RejectionReason) : TaskOutcome where
  taskId := task.id
  result := .rejected reason

def rendererDegradedReject : TaskOutcome :=
  task.reject .rendererDegraded

def fail (error : String) (kind : FailureKind) : TaskOutcome where
  taskId := task.id
  result := .failed error kind

def cacheHitOutcome (output : RenderOutput) : TaskOutcome where
  taskId := task.id
  result := .completed output

def preparationErrorOutcome (error : ProfilePreparationError) : TaskOutcome :=
  match error.failureKind with
  | some kind => task.fail error.toString kind
  | none => task.reject .unknownStyle

def processErrorOutcome : ProcessError → TaskOutcome
  | .queueFull => task.reject .queueFull
  | .renderAdmissionClosed => task.reject .rendererDegraded
  | .queueDisconnected => task.fail "worker queue disconnected" .other

def forwardBudgetTooSmall (now : Instant) : Bool :=
  task.deadline - now < minForwardBudgetMs * nanosPerMilli

end InternalTask

/-! ## Calls -/

/-- The handler a call runs. Only `handle_incoming` may forward. -/
inductive Entry
  | incoming
  | forwarded (routeTier : RouteTier) (drainWorker : Option WorkerId)

/-- `CacheMissAdmission`: a forwarded miss must render on this node. -/
def Entry.requiresLocalRenderer : Entry → Bool
  | incoming => false
  | forwarded _ _ => true

inductive LocalRoute
  | route (routeTier : RouteTier) (workerHint : Option WorkerId) (fallbackCandidates : List ForwardCandidate)
  | overflow (exhaustionReason : RejectionReason)
  | forwarded (routeTier : RouteTier) (drainWorker : Option WorkerId)

/-- The loop of `forward_with_failover`: the candidates not yet contacted and what the others said. -/
structure Failover where
  routeTier : RouteTier
  candidates : List ForwardCandidate
  lastRetryableRejection : Option RejectionReason := none
  sawTransportFailure : Bool := false
  sawUnconvergedStyle : Bool := false

def Failover.exhaustionReason (failover : Failover) : RejectionReason :=
  failover.lastRetryableRejection.getD (if failover.sawUnconvergedStyle then .noCapacity
     else if failover.sawTransportFailure then .forwardFailed
     else .noCapacity)

inductive Phase (Request ρ : Type)
  | looking (key : RenderCacheKey ρ) (readable : Option NamespaceSet)
  | joining (key : RenderCacheKey ρ) (readable : Option NamespaceSet)
  | following (follower : RenderFlightFollower ρ)
  | viewing
  | preparing (route : LocalRoute)
  | rendering (route : LocalRoute)
  | forwarding (failover : Failover)
  /-- `handler` names the call on the target once the request has arrived there. -/
  | sending (failover : Failover) (target : ForwardCandidate) (request : ForwardRequest Request) (handler : Option ℕ)
  | publishing (outcome : TaskOutcome)
  | releasing (outcome : TaskOutcome)
  | finished (outcome : TaskOutcome)
  | cancelled

structure Call (Request ρ : Type) where
  node : NodeId
  entry : Entry
  task : InternalTask Request
  guard : Option (RenderFlightLeader ρ)
  phase : Phase Request ρ

inductive Reply
  /-- `timeout_at`: nothing came before the deadline. -/
  | timeout
  | response (outcome : TaskOutcome)
  /-- A retryable or fatal transport error; both go on with the next candidate. -/
  | failed

structure Answers where
  revalidationBlocksOutputCache : Bool := false
  acceptsRevision : Bool := true
  canStartRender : Bool := true
  /-- `can_start_render` as read for the dispatcher. -/
  acceptsNewRenders : Bool := true
  /-- The branch `select!` takes when the flight has changed and the deadline has passed. -/
  prefersChange : Bool := true
  viewLoaded : Bool := true
  routeTier : RouteTier := .tier1WarmTracking
  candidates : List ForwardCandidate := []
  preparation : Except ProfilePreparationError Unit := .ok ()
  pool : Except ProcessError TaskResult := .error .queueFull
  reply : Reply := .failed

namespace Call

/-- The handler returns: a leader first offers the outcome to the cache and drops its flight. -/
def finish (call : Call Request ρ) (outcome : TaskOutcome) : Call Request ρ :=
  match call.guard with
  | some _ => { call with phase := .publishing outcome }
  | none => { call with phase := .finished outcome }

/-- `acquire_render_output_cache` returned `Ok`. -/
def acquired (call : Call Request ρ) (guard : Option (RenderFlightLeader ρ)) : Call Request ρ :=
  match call.entry with
  | .incoming => { call with guard, phase := .viewing }
  | .forwarded routeTier drainWorker => { call with guard, phase := .preparing (.forwarded routeTier drainWorker) }

/-- The start of `acquire_render_output_cache`, up to the first look at the cache. -/
def acquireRenderOutputCache (requestKey : Request → ρ) (answers : Answers) (call : Call Request ρ) : Call Request ρ :=
  if answers.revalidationBlocksOutputCache || !call.task.source.all (fun source => source.policy == .cacheable) then
    if call.entry.requiresLocalRenderer && !answers.canStartRender then call.finish call.task.rendererDegradedReject
    else call.acquired none
  else { call with phase := .looking (.fromTask requestKey call.task) call.task.readableNamespaces }

def handleIncoming (requestKey : Request → ρ) (answers : Answers) (now : Instant) (node : NodeId)
    (task : InternalTask Request) : Call Request ρ :=
  let call : Call Request ρ := { node, entry := .incoming, task, guard := none, phase := .viewing }
  if task.deadline ≤ now then call.finish (task.reject .deadlineExceeded)
  else call.acquireRenderOutputCache requestKey answers

def handleForwarded (requestKey : Request → ρ) (answers : Answers) (now : Instant) (node : NodeId)
    (request : ForwardRequest Request) : Call Request ρ :=
  let task := request.task.intoInternal now
  let entry : Entry := .forwarded request.routeTier request.drainWorker
  let call : Call Request ρ :=
    { node, entry, task, guard := none, phase := .preparing (.forwarded request.routeTier request.drainWorker) }
  if answers.acceptsRevision = false then call.finish (task.reject .unknownStyle)
  else if task.deadline ≤ now then call.finish (task.reject .deadlineExceeded)
  else call.acquireRenderOutputCache requestKey answers

/-- Up to the loop. -/
def forwardWithFailover (now : Instant) (call : Call Request ρ) (routeTier : RouteTier)
    (candidates : List ForwardCandidate) : Call Request ρ :=
  if maxForwardingHops ≤ call.task.forwardingHops then call.finish (call.task.reject .hopLimitExceeded)
  else if call.task.forwardBudgetTooSmall now then call.finish (call.task.reject .deadlineTooClose)
  else { call with phase := .forwarding { routeTier, candidates } }

/-- Up to the preparation of the profile. -/
def processLocalRoute (answers : Answers) (now : Instant) (call : Call Request ρ) (routeTier : RouteTier)
    (workerHint : Option WorkerId) (fallbackCandidates : List ForwardCandidate) : Call Request ρ :=
  if answers.canStartRender then { call with phase := .preparing (.route routeTier workerHint fallbackCandidates) }
  else if fallbackCandidates.isEmpty then call.finish call.task.rendererDegradedReject
  else call.forwardWithFailover now routeTier fallbackCandidates

/-- `process_local_task` returned `Err`. -/
def processFailed (now : Instant) (call : Call Request ρ) : LocalRoute → ProcessError → Call Request ρ
  | .route routeTier _ fallbackCandidates, .renderAdmissionClosed =>
    if fallbackCandidates.isEmpty then call.finish call.task.rendererDegradedReject
    else call.forwardWithFailover now routeTier fallbackCandidates
  | .route routeTier _ fallbackCandidates, .queueFull =>
    if fallbackCandidates.isEmpty then call.finish (call.task.processErrorOutcome .queueFull)
    else call.forwardWithFailover now routeTier fallbackCandidates
  -- a worker that accepted the command may have rendered it
  | .route _ _ _, .queueDisconnected => call.finish (call.task.processErrorOutcome .queueDisconnected)
  | .overflow _, .renderAdmissionClosed => call.finish call.task.rendererDegradedReject
  | .overflow _, .queueDisconnected => call.finish (call.task.processErrorOutcome .queueDisconnected)
  | .overflow exhaustionReason, .queueFull => call.finish (call.task.reject exhaustionReason)
  | .forwarded _ _, .renderAdmissionClosed => call.finish call.task.rendererDegradedReject
  | .forwarded _ _, error => call.finish (call.task.processErrorOutcome error)

/-- What `handle_incoming` does with the view it loaded. -/
def dispatch (answers : Answers) (now : Instant) (call : Call Request ρ) : Call Request ρ :=
  match materializeCandidates call.node call.task answers.routeTier answers.candidates with
  | .here routeTier workerHint fallbackCandidates =>
    call.processLocalRoute answers now routeTier workerHint fallbackCandidates
  | .forward routeTier candidates => call.forwardWithFailover now routeTier candidates
  | .reject reason =>
    call.finish (call.task.reject
      (if reason = .noCapacity ∧ answers.acceptsNewRenders = false then .rendererDegraded else reason))

/-- One turn of the failover loop up to the send, or what follows the loop. -/
def contactNext (hopLatency : Duration) (answers : Answers) (now : Instant) (call : Call Request ρ)
    (failover : Failover) : Call Request ρ :=
  match failover.candidates with
  | [] =>
    if answers.canStartRender = false then call.finish (call.task.reject failover.exhaustionReason)
    else if call.task.deadline ≤ now then call.finish (call.task.reject .deadlineExceeded)
    else { call with phase := .preparing (.overflow failover.exhaustionReason) }
  | candidate :: candidates =>
    if call.task.forwardBudgetTooSmall now then call.finish (call.task.reject .deadlineTooClose)
    else
      { call with
        phase := .sending { failover with candidates } candidate
          { task := call.task.toForwardWire now hopLatency
            routeTier := failover.routeTier
            drainWorker := candidate.drainWorker } none }

def replied (answers : Answers) (now : Instant) (call : Call Request ρ) (failover : Failover) : Call Request ρ :=
  match answers.reply with
  | .timeout => if call.task.deadline ≤ now then call.finish (call.task.reject .deadlineExceeded) else call
  | .failed => { call with phase := .forwarding { failover with sawTransportFailure := true } }
  | .response outcome =>
    match outcome.rejectedReason with
    | some reason =>
      if reason.isRetryableAtForward then
        { call with phase := .forwarding { failover with lastRetryableRejection := some reason } }
      else if reason = .unknownStyle ∧ answers.acceptsRevision = true then
        -- the peer is still learning a revision that this node has resolved
        { call with phase := .forwarding { failover with sawUnconvergedStyle := true } }
      else call.finish outcome
    | none => call.finish outcome

variable [DecidableEq ρ] (hash : RenderCacheKey ρ → UInt64)

/-- The section under the flight lock. -/
def join (answers : Answers) (inner : RenderOutputCacheInner ρ)
    (call : Call Request ρ) (key : RenderCacheKey ρ) (readable : Option NamespaceSet) :
    Call Request ρ × RenderOutputCacheInner ρ :=
  match inner.joinFlight hash key readable with
  | (.disabled, inner) => (call, inner)
  | (.hit output, inner) => (call.finish (call.task.cacheHitOutcome output), inner)
  | (.leader leader, inner) =>
    if call.entry.requiresLocalRenderer && !answers.canStartRender then
      (call.finish call.task.rendererDegradedReject, leader.drop hash inner)
    else (call.acquired (some leader), inner)
  | (.wait follower, inner) => ({ call with phase := .following follower }, inner)

/-- One section of a call, over the output cache of its node. -/
def next (hopLatency : Duration) (answers : Answers) (now : Instant)
    (inner : RenderOutputCacheInner ρ) (call : Call Request ρ) : Call Request ρ × RenderOutputCacheInner ρ :=
  match call.phase with
  | .looking key readable =>
    match inner.cachedHit key readable with
    | some output => (call.finish (call.task.cacheHitOutcome output), inner)
    | none => ({ call with phase := .joining key readable }, inner)
  | .joining key readable => call.join hash answers inner key readable
  | .following follower =>
    if inner.channels.changed follower.changed && (answers.prefersChange || now < call.task.deadline) then
      ({ call with phase := .looking follower.key follower.readableNamespaces }, inner)
    else if call.task.deadline ≤ now then (call.finish (call.task.reject .deadlineExceeded), inner)
    else (call, inner)
  | .viewing =>
    if answers.viewLoaded = false ∨ call.task.deadline ≤ now then
      (call.finish (call.task.reject .deadlineExceeded), inner)
    else (call.dispatch answers now, inner)
  | .preparing route =>
    match answers.preparation with
    | .error error => (call.finish (call.task.preparationErrorOutcome error), inner)
    | .ok _ =>
      if answers.canStartRender then ({ call with phase := .rendering route }, inner)
      else (call.processFailed now route .renderAdmissionClosed, inner)
  | .rendering route =>
    match answers.pool with
    | .ok result => (call.finish { taskId := call.task.id, result }, inner)
    | .error error => (call.processFailed now route error, inner)
  | .forwarding failover => (call.contactNext hopLatency answers now failover, inner)
  | .sending failover _ _ _ => (call.replied answers now failover, inner)
  | .publishing outcome =>
    match call.guard with
    | some guard => ({ call with phase := .releasing outcome }, (guard.insertFromOutcome inner outcome.result).2)
    | none => ({ call with phase := .finished outcome }, inner)
  | .releasing outcome =>
    match call.guard with
    | some guard => ({ call with guard := none, phase := .finished outcome }, guard.drop hash inner)
    | none => ({ call with phase := .finished outcome }, inner)
  | .finished _ => (call, inner)
  | .cancelled => (call, inner)

/-- The handler is dropped at an await, with the flight it leads. -/
def cancel (inner : RenderOutputCacheInner ρ) (call : Call Request ρ) : Call Request ρ × RenderOutputCacheInner ρ :=
  match call.phase, call.guard with
  | .finished _, _ => (call, inner)
  | _, some guard => ({ call with guard := none, phase := .cancelled }, guard.drop hash inner)
  | _, none => ({ call with phase := .cancelled }, inner)

end Call
end Mappf.Biei
