import Mappf.Biei.NamespaceSet
import Mappf.Styles.Catalog

/-! # Render tasks and their outcomes

`types.rs`: what a render task carries and how it ends. The request itself is a type parameter, because
caching and routing only compare what is derived from it. A pixel ratio is only ever built from a scale,
so a task carries the scale. Timings and metrics of a finished task are left out. -/
namespace Mappf.Biei

open Styles (StyleId StyleRevision Instant Duration)

inductive Scale
  | x1
  | x2
  deriving DecidableEq

inductive ImageFormat
  | png
  | webp
  | jpeg
  deriving DecidableEq

inductive CachePolicy
  | cacheable
  | oneShot
  deriving DecidableEq

structure SourceRef where
  hash : UInt64
  policy : CachePolicy

structure RenderOutput where
  bytes : List UInt8
  format : ImageFormat
  deriving DecidableEq

inductive RejectionReason
  | queueFull
  | noCapacity
  | rendererDegraded
  | drainTooSlow
  | unknownStyle
  | hopLimitExceeded
  | forwardFailed
  | deadlineTooClose
  | deadlineExceeded
  deriving DecidableEq

namespace RejectionReason

def isRetryableAtForward : RejectionReason → Bool
  | queueFull | noCapacity | rendererDegraded | drainTooSlow => true
  | unknownStyle | hopLimitExceeded | forwardFailed | deadlineTooClose | deadlineExceeded => false

end RejectionReason

inductive FailureKind
  | renderTimeout
  | rendererDead
  | styleUnavailable
  | styleNotReady
  | sourceUnavailable
  | preparationTimeout
  | other
  deriving DecidableEq

inductive ProfileContent
  | style (styleId : StyleId)
  | source (hash : UInt64)
  deriving DecidableEq

inductive ProfilePreparationError
  | styleNotFound (styleId : StyleId) (source : String)
  | styleUnavailable (styleId : StyleId) (source : String)
  | sourceUnavailable (hash : UInt64) (source : String)
  | callerDeadlineExceeded
  | infrastructureFailure (source : String)
  | invalidPreparedContent (content : ProfileContent) (source : String)
  deriving DecidableEq

namespace ProfilePreparationError

def failureKind : ProfilePreparationError → Option FailureKind
  | styleNotFound _ _ => none
  | styleUnavailable _ _ => some .styleUnavailable
  | sourceUnavailable _ _ => some .sourceUnavailable
  | callerDeadlineExceeded => some .preparationTimeout
  | infrastructureFailure _ => some .other
  | invalidPreparedContent (.style _) _ => some .styleUnavailable
  | invalidPreparedContent (.source _) _ => some .sourceUnavailable

def toString : ProfilePreparationError → String
  | styleNotFound styleId source | styleUnavailable styleId source
  | invalidPreparedContent (.style styleId) source => s!"style load failed for {styleId.value}: {source}"
  | sourceUnavailable hash source
  | invalidPreparedContent (.source hash) source => s!"source fetch failed for {hash}: {source}"
  | callerDeadlineExceeded => "profile preparation deadline exceeded"
  | infrastructureFailure source => s!"profile preparation infrastructure failure: {source}"

end ProfilePreparationError

inductive TaskResult
  | completed (output : RenderOutput)
  | rejected (reason : RejectionReason)
  | failed (error : String) (kind : FailureKind)
  deriving DecidableEq

structure InternalTask (Request : Type) where
  id : UInt64
  /-- The namespaces of the verified grant; `none` when delivery authorization is off for the route. -/
  readableNamespaces : Option NamespaceSet
  style : StyleRevision
  source : Option SourceRef
  request : Request
  scale : Scale
  outputFormat : ImageFormat
  deadline : Instant
  forwardingHops : ℕ

/-! ## Tasks on the wire between nodes

`wire.rs`: a forwarded task carries its remaining budget instead of a deadline, because instants mean
nothing on another node. Instants and durations are nanoseconds. The response budget of the sending node
and the request id play no part in what the receiving node does with the task and are left out. -/

structure NodeId where
  value : String
  deriving DecidableEq

abbrev WorkerId := UInt32

inductive RouteTier
  | renderCacheHit
  | tier1WarmTracking
  | tier2HrwBl
  | tier3DrainSwap
  | tier4Overflow
  deriving DecidableEq

structure WireTask (Request : Type) where
  id : UInt64
  readableNamespaces : Option NamespaceSet
  style : StyleRevision
  source : Option SourceRef
  request : Request
  scale : Scale
  outputFormat : ImageFormat
  remainingBudgetMs : ℕ
  forwardingHops : ℕ

structure ForwardRequest (Request : Type) where
  task : WireTask Request
  routeTier : RouteTier
  drainWorker : Option WorkerId

def nanosPerMilli : ℕ := 10 ^ 6

variable {Request : Type}

namespace InternalTask

def toWireWithHopLatency (task : InternalTask Request) (now : Instant) (hopLatency : Duration) : WireTask Request where
  id := task.id
  readableNamespaces := task.readableNamespaces
  style := task.style
  source := task.source
  request := task.request
  scale := task.scale
  outputFormat := task.outputFormat
  -- both subtractions saturate; the result is cut to whole milliseconds of a `u32`
  remainingBudgetMs := min ((task.deadline - now - hopLatency) / nanosPerMilli) (2 ^ 32 - 1)
  forwardingHops := task.forwardingHops

/-- The budget reserves the round trip, not just the outbound hop. -/
def toForwardWire (task : InternalTask Request) (now : Instant) (hopLatency : Duration) : WireTask Request :=
  { task.toWireWithHopLatency now (hopLatency * 2) with forwardingHops := min (task.forwardingHops + 1) 255 }

end InternalTask

def WireTask.intoInternal (wire : WireTask Request) (now : Instant) : InternalTask Request where
  id := wire.id
  readableNamespaces := wire.readableNamespaces
  style := wire.style
  source := wire.source
  request := wire.request
  scale := wire.scale
  outputFormat := wire.outputFormat
  deadline := now + wire.remainingBudgetMs * nanosPerMilli
  forwardingHops := wire.forwardingHops

/-! ## Routing decisions

`dispatcher.rs`: every tier ends in a list of candidates, best first, which `materialize_candidates` turns
into a decision for the node it runs on. -/

structure ForwardCandidate where
  nodeId : NodeId
  drainWorker : Option WorkerId
  deriving DecidableEq

inductive Decision
  | here (routeTier : RouteTier) (workerHint : Option WorkerId) (fallbackCandidates : List ForwardCandidate)
  | forward (routeTier : RouteTier) (candidates : List ForwardCandidate)
  | reject (reason : RejectionReason)
  deriving DecidableEq

def materializeCandidates {Request : Type} (nodeId : NodeId) (task : InternalTask Request) (tier : RouteTier) :
    List ForwardCandidate → Decision
  | [] => .reject .noCapacity
  | first :: rest =>
    if first.nodeId = nodeId then
      .here tier first.drainWorker
        (if 1 ≤ task.forwardingHops then [] else rest.filter (fun candidate => candidate.nodeId ≠ nodeId))
    else if 1 ≤ task.forwardingHops then
      -- chained forwarding is banned, and the hint names a worker of another node
      .here tier none []
    else .forward tier ((first :: rest).filter (fun candidate => candidate.nodeId ≠ nodeId))

end Mappf.Biei
