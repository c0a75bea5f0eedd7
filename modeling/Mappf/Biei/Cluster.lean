import Mappf.Biei.Node
import Mappf.Lib.Machine

/-! # A cluster of render nodes

Any number of nodes, each with its own output cache, and every call under way on any of them. A call that
sends its task to a peer starts a call there when the request arrives (`deliver`), and the peer's answer is
the outcome of that call. Which step comes next, what every call learns, and where the dispatcher sends a
task are inputs, so equal requests may arrive at any nodes and be routed to any others. The clocks of the
nodes run at one rate and a deadline crosses the wire as a budget, so one clock serves all. -/
namespace Mappf.Biei

open Styles (StyleId Instant Duration)

/-- What differs between nodes: the hasher of the flight maps and the configured latency of a hop. -/
structure NodeConfig (ρ : Type) where
  hash : RenderCacheKey ρ → UInt64
  hopLatency : Duration

structure Cluster (Request ρ : Type) where
  now : Instant
  caches : NodeId → RenderOutputCacheInner ρ
  calls : List (Call Request ρ)

variable {Request ρ : Type}

def Call.outcome (call : Call Request ρ) : Option TaskOutcome :=
  match call.phase with
  | .finished outcome => some outcome
  | _ => none

namespace Cluster

inductive Action (Request ρ : Type)
  | arrive (node : NodeId) (task : InternalTask Request) (answers : Answers)
  | deliver (call : ℕ) (answers : Answers)
  | move (call : ℕ) (answers : Answers)
  | cancel (call : ℕ)
  | advance (elapsed : Duration)
  | evict (node : NodeId) (key : RenderCacheKey ρ)
  | invalidateStyle (node : NodeId) (styleId : StyleId)

def new : Cluster Request ρ where
  now := 0
  caches := fun _ => .new
  calls := []

def mayReply (cluster : Cluster Request ρ) (call : Call Request ρ) (reply : Reply) : Bool :=
  match call.phase, reply with
  | .sending _ _ _ handler, .response outcome =>
    ((handler.bind (fun h => cluster.calls[h]?)).bind Call.outcome) == some outcome
  | _, _ => true

def put (cluster : Cluster Request ρ) (i : ℕ) (call : Call Request ρ) (inner : RenderOutputCacheInner ρ) :
    Cluster Request ρ :=
  { cluster with
    caches := Function.update cluster.caches call.node inner
    calls := cluster.calls.set i call }

variable [DecidableEq ρ]

def step (requestKey : Request → ρ) (config : NodeId → NodeConfig ρ) (cluster : Cluster Request ρ) :
    Action Request ρ → Cluster Request ρ
  | .arrive node task answers =>
    { cluster with calls := cluster.calls ++ [.handleIncoming requestKey answers cluster.now node task] }
  | .deliver i answers =>
    match cluster.calls[i]? with
    | some call =>
      match call.phase with
      | .sending failover target request none =>
        { cluster with
          calls := cluster.calls.set i
              { call with phase := .sending failover target request (some cluster.calls.length) }
            ++ [.handleForwarded requestKey answers cluster.now target.nodeId request] }
      | _ => cluster
    | none => cluster
  | .move i answers =>
    match cluster.calls[i]? with
    | some call =>
      if cluster.mayReply call answers.reply then
        let (call', inner') := call.next (config call.node).hash (config call.node).hopLatency answers cluster.now
          (cluster.caches call.node)
        cluster.put i call' inner'
      else cluster
    | none => cluster
  | .cancel i =>
    match cluster.calls[i]? with
    | some call =>
      let (call', inner') := call.cancel (config call.node).hash (cluster.caches call.node)
      cluster.put i call' inner'
    | none => cluster
  | .advance elapsed => { cluster with now := cluster.now + elapsed }
  | .evict node key =>
    { cluster with caches := Function.update cluster.caches node ((cluster.caches node).evict key) }
  | .invalidateStyle node styleId =>
    { cluster with caches := Function.update cluster.caches node ((cluster.caches node).invalidateStyle styleId) }

end Cluster

variable [DecidableEq ρ]

def clusters (requestKey : Request → ρ) (config : NodeId → NodeConfig ρ)
    (allowed : Cluster Request ρ → Cluster.Action Request ρ → Prop) : Machine (Cluster Request ρ) where
  init := .new
  step := fun cluster cluster' => ∃ action, allowed cluster action ∧ cluster' = cluster.step requestKey config action

end Mappf.Biei
