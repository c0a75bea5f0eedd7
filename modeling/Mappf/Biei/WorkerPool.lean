import Mappf.Biei.Types
import Mappf.Lib.Machine
import Mathlib.Data.Fin.Basic
import Mathlib.Data.Finset.Basic

/-! # The worker pool

`worker_pool.rs` and the loop of `worker.rs`: callers reserve a slot, mark the predicted profile and send a
command; workers take commands, run them and account for them. The code is cut at every atomic access, every
lock and every await, and everything a renderer does is an input. The guard that accounts for an accepted
command travels with it; dropping it takes the lock first and gives the slot back afterwards. -/
namespace Mappf.Biei

open Styles (StyleRevision)
open Function (update)

inductive RenderMode
  | static
  | tile
  deriving DecidableEq

structure WorkerProfile where
  style : StyleRevision
  renderMode : RenderMode
  scale : Scale
  deriving DecidableEq

def InternalTask.workerProfile {ρ : Type} (renderMode : ρ → RenderMode) (task : InternalTask ρ) : WorkerProfile where
  style := task.style
  renderMode := renderMode task.request
  scale := task.scale

/-! ## Predicted profiles -/

structure PoolState (n : ℕ) where
  loaded : Fin n → Option WorkerProfile := fun _ => none
  dispatchGenerations : Fin n → UInt64 := fun _ => 0
  profileCounts : HashMap WorkerProfile ℕ := ∅
  lastUsed : Fin n → Option ℕ := fun _ => none
  addlayerSourceIds : Fin n → Finset String := fun _ => ∅
  addlayerSourceLru : Fin n → List String := fun _ => []

namespace PoolState

variable {n : ℕ}

def addlayerSourceAffinityCapacity : ℕ := 64

variable (state : PoolState n)

def decrementProfileCount (profile : WorkerProfile) : PoolState n :=
  match state.profileCounts.lookup profile with
  | some count =>
    { state with
      profileCounts :=
        if count - 1 = 0 then state.profileCounts.erase profile else state.profileCounts.insert profile (count - 1) }
  | none => state

def clearAddlayerSources (idx : Fin n) : PoolState n :=
  { state with
    addlayerSourceIds := update state.addlayerSourceIds idx ∅
    addlayerSourceLru := update state.addlayerSourceLru idx [] }

/-- `loaded[idx].take()` with the count of what was there. -/
def takeLoaded (idx : Fin n) : PoolState n :=
  match state.loaded idx with
  | some previous => { state with loaded := update state.loaded idx none }.decrementProfileCount previous
  | none => state

def markLoaded (now : ℕ) (idx : Fin n) (profile : WorkerProfile) : PoolState n × UInt64 :=
  let generation := state.dispatchGenerations idx + 1
  let state := { state with
    dispatchGenerations := update state.dispatchGenerations idx generation
    lastUsed := update state.lastUsed idx (some now) }
  if state.loaded idx = some profile then (state, generation)
  else
    let state := (state.takeLoaded idx).clearAddlayerSources idx
    ({ state with
        profileCounts := state.profileCounts.insert profile ((state.profileCounts.lookup profile).getD 0 + 1)
        loaded := update state.loaded idx (some profile) }, generation)

/-- The loop that makes room: the least recently used ids go first. -/
def evictAddlayerSources : Finset String → List String → Finset String × List String
  | ids, [] => (ids, [])
  | ids, evicted :: lru =>
    if addlayerSourceAffinityCapacity ≤ ids.card then evictAddlayerSources (ids.erase evicted) lru
    else (ids, evicted :: lru)

def markAddlayerSource (idx : Fin n) (sourceId : String) : PoolState n :=
  if sourceId ∈ state.addlayerSourceIds idx then
    { state with
      addlayerSourceLru := update state.addlayerSourceLru idx
        ((state.addlayerSourceLru idx).filter (· ≠ sourceId) ++ [sourceId]) }
  else
    let (ids, lru) := evictAddlayerSources (state.addlayerSourceIds idx) (state.addlayerSourceLru idx)
    { state with
      addlayerSourceIds := update state.addlayerSourceIds idx (insert sourceId ids)
      addlayerSourceLru := update state.addlayerSourceLru idx (lru ++ [sourceId]) }

def clearLoaded (idx : Fin n) : PoolState n :=
  let state := state.takeLoaded idx
  { state with lastUsed := update state.lastUsed idx none }.clearAddlayerSources idx

def clearLoadedIfLatest (idx : Fin n) (dispatchGeneration : UInt64) : PoolState n :=
  if state.dispatchGenerations idx = dispatchGeneration then state.clearLoaded idx else state

end PoolState

/-! ## Callers, commands and workers -/

structure WorkerCompletion (n : ℕ) where
  workerIdx : Fin n
  dispatchGeneration : UInt64
  deriving DecidableEq

inductive DropStage
  | clear
  | release
  deriving DecidableEq

/-- `WorkerCmd::Process`. The task is that of the call, and `attempt` names the reply channel: every
dispatch of a call makes a new one. -/
structure Command (n : ℕ) where
  call : ℕ
  attempt : ℕ
  admittedAtOverflow : Bool
  completion : WorkerCompletion n

inductive WorkerCmd (n : ℕ)
  | process (command : Command n)
  | retire

/-- What a reply channel holds; `disconnected` when its sender was dropped. -/
inductive WorkerReply
  | outcome (result : TaskResult)
  | redispatch
  | disconnected
  deriving DecidableEq

inductive CallResult
  | outcome (result : TaskResult)
  | queueFull
  | queueDisconnected
  | cancelled

inductive CallerPhase (n : ℕ)
  | choosing (hint : Option ℕ)
  | reserving (idx : Fin n) (hinted : Bool)
  | loading (idx : Fin n) (hinted : Bool)
  | comparing (idx : Fin n) (hinted : Bool) (current : ℕ)
  /-- The exchange has succeeded and the slot is taken. -/
  | rechecking (idx : Fin n) (hinted : Bool) (depth : ℕ)
  | undoing (idx : Fin n) (hinted : Bool)
  | marking (idx : Fin n) (depth : ℕ)
  /-- The command is in the future of `send`. -/
  | sending (admittedAtOverflow : Bool) (completion : WorkerCompletion n)
  | dropping (completion : WorkerCompletion n) (stage : DropStage) (result : CallResult)
  | waiting (started : Bool)
  | ended (result : CallResult)

structure Caller (n : ℕ) (ρ : Type) where
  task : InternalTask ρ
  addlayerSourceId : Option String
  phase : CallerPhase n
  attempt : ℕ := 0
  started : Bool := false
  reply : Option WorkerReply := none

inductive WorkerPhase (n : ℕ)
  | idle
  | inspecting (command : Command n)
  /-- `drop(completion)` before a redispatch. -/
  | bouncing (command : Command n) (stage : DropStage)
  | returning (command : Command n)
  | running (command : Command n) (responded : Bool)
  /-- `completion.finish`. -/
  | finishing (command : Command n) (result : TaskResult) (responded : Bool) (stage : DropStage)
  | responding (command : Command n) (result : TaskResult)
  /-- The loop is left; the commands still held are dropped one by one. -/
  | closing (dropping : Option (Command n × DropStage)) (commands : List (Command n))
  | exited

structure Worker (n : ℕ) where
  channel : List (WorkerCmd n) := []
  receiverAlive : Bool := true
  phase : WorkerPhase n := .idle

structure PoolConfig (ρ : Type) where
  queueCapacity : ℕ
  blCapacity : ℕ
  renderMode : ρ → RenderMode

/-- The hard limit of a spawned pool is never below its soft limit. -/
def PoolConfig.hardLimit {ρ : Type} (config : PoolConfig ρ) : ℕ := max config.queueCapacity config.blCapacity

def channelCapacity : ℕ := 1024

structure PoolSession (n : ℕ) (ρ : Type) where
  queueDepth : Fin n → ℕ := fun _ => 0
  available : Fin n → Bool
  state : PoolState n := {}
  workers : Fin n → Worker n := fun _ => {}
  callers : List (Caller n ρ) := []
  now : ℕ := 0

inductive CallerInput (n : ℕ)
  | proceed
  /-- What the scan of `best_available_worker` comes to. It reads the flags and depths one after the other
  while they change, so it may come to any worker or to none. -/
  | pick (choice : Option (Fin n))
  | compareExchange (spuriousFailure : Bool)
  | timeout
  | cancel

inductive WorkerInput
  | proceed
  /-- A repair tick, with the renderer's answer. -/
  | repair (available : Bool)
  /-- The look at the renderer after a command was taken; an answer only if it was found unavailable. -/
  | inspect (repaired : Option Bool)
  /-- The response deadline passes while the stages run. -/
  | deadline
  /-- The stages end with this result, and the flag is published anew if the code does so. -/
  | finish (result : TaskResult) (available : Option Bool)
  | panic

inductive PoolAction (n : ℕ) (ρ : Type)
  | process (task : InternalTask ρ) (addlayerSourceId : Option String) (hint : Option ℕ)
  | caller (call : ℕ) (input : CallerInput n)
  | worker (idx : Fin n) (input : WorkerInput)
  | shutdown (idx : Fin n)
  | tick (elapsed : ℕ)

namespace PoolSession

variable {n : ℕ} {ρ : Type}

/-- `fetch_sub(1)` wraps around. -/
def fetchSub (depth : ℕ) : ℕ := if depth = 0 then 2 ^ 64 - 1 else depth - 1

variable (session : PoolSession n ρ)

def giveBack (idx : Fin n) : PoolSession n ρ :=
  { session with queueDepth := update session.queueDepth idx (fetchSub (session.queueDepth idx)) }

def clearIfLatest (completion : WorkerCompletion n) : PoolSession n ρ :=
  { session with
    state := session.state.clearLoadedIfLatest completion.workerIdx completion.dispatchGeneration }

def setCaller (call : ℕ) (caller : Caller n ρ) : PoolSession n ρ :=
  { session with callers := session.callers.set call caller }

def setWorker (idx : Fin n) (worker : Worker n) : PoolSession n ρ :=
  { session with workers := update session.workers idx worker }

def setAvailable (idx : Fin n) (available : Bool) : PoolSession n ρ :=
  { session with available := update session.available idx available }

/-- `respond_to.send`, or its drop: only the attempt it belongs to can see it. -/
def respond (command : Command n) (reply : WorkerReply) : PoolSession n ρ :=
  match session.callers[command.call]? with
  | some caller =>
    if caller.attempt = command.attempt then session.setCaller command.call { caller with reply := some reply }
    else session
  | none => session

def signalStarted (command : Command n) : PoolSession n ρ :=
  match session.callers[command.call]? with
  | some caller =>
    if caller.attempt = command.attempt then session.setCaller command.call { caller with started := true }
    else session
  | none => session

/-- `try_reserve` has come to nothing: a hint is final, the scan starts over. -/
def afterRefusal (hinted : Bool) : CallerPhase n := if hinted then .ended .queueFull else .choosing none

/-- The section under the lock before a command is sent, with the generation of the dispatch. -/
def predict (config : PoolConfig ρ) (session : PoolSession n ρ) (caller : Caller n ρ) (idx : Fin n) :
    PoolState n × UInt64 :=
  let marked := session.state.markLoaded session.now idx (caller.task.workerProfile config.renderMode)
  match caller.addlayerSourceId with
  | some sourceId => (marked.1.markAddlayerSource idx sourceId, marked.2)
  | none => marked

def stepCaller (config : PoolConfig ρ) (session : PoolSession n ρ) (call : ℕ) (caller : Caller n ρ) :
    CallerInput n → PoolSession n ρ
  | .proceed =>
    match caller.phase with
    | .choosing (some hint) =>
      if h : hint < n then session.setCaller call { caller with phase := .reserving ⟨hint, h⟩ true }
      else session.setCaller call { caller with phase := .choosing none }
    | .reserving idx hinted =>
      session.setCaller call
        { caller with phase := if session.available idx then .loading idx hinted else afterRefusal hinted }
    | .loading idx hinted =>
      session.setCaller call { caller with phase := .comparing idx hinted (session.queueDepth idx) }
    | .rechecking idx hinted depth =>
      session.setCaller call
        { caller with phase := if session.available idx then .marking idx depth else .undoing idx hinted }
    | .undoing idx hinted => (session.giveBack idx).setCaller call { caller with phase := afterRefusal hinted }
    | .marking idx depth =>
      let predicted := session.predict config caller idx
      ({ session with state := predicted.1 }).setCaller call
        { caller with
          phase := .sending (decide (config.blCapacity ≤ depth)) ⟨idx, predicted.2⟩
          attempt := caller.attempt + 1
          started := false
          reply := none }
    | .sending admittedAtOverflow completion =>
      let worker := session.workers completion.workerIdx
      let command := { call, attempt := caller.attempt, admittedAtOverflow, completion }
      if worker.receiverAlive = false then
        session.setCaller call { caller with phase := .dropping completion .clear .queueFull }
      else if worker.channel.length < channelCapacity then
        (session.setWorker completion.workerIdx
          { worker with channel := worker.channel ++ [.process command] }).setCaller call
          { caller with phase := .waiting false }
      else session
    | .dropping completion .clear result =>
      (session.clearIfLatest completion).setCaller call { caller with phase := .dropping completion .release result }
    | .dropping completion .release result =>
      (session.giveBack completion.workerIdx).setCaller call { caller with phase := .ended result }
    | .waiting started =>
      match caller.reply with
      | some (.outcome result) => session.setCaller call { caller with phase := .ended (.outcome result) }
      | some .redispatch => session.setCaller call { caller with phase := .choosing none, reply := none }
      | some .disconnected => session.setCaller call { caller with phase := .ended .queueDisconnected }
      | none =>
        if caller.started && !started then session.setCaller call { caller with phase := .waiting true } else session
    | _ => session
  | .pick choice =>
    match caller.phase with
    | .choosing none =>
      match choice with
      | some idx => session.setCaller call { caller with phase := .reserving idx false }
      | none => session.setCaller call { caller with phase := .ended .queueFull }
    | _ => session
  | .compareExchange spuriousFailure =>
    match caller.phase with
    | .comparing idx hinted current =>
      if config.hardLimit ≤ current then session.setCaller call { caller with phase := afterRefusal hinted }
      else if session.queueDepth idx = current && !spuriousFailure then
        ({ session with queueDepth := update session.queueDepth idx (current + 1) }).setCaller call
          { caller with phase := .rechecking idx hinted current }
      else session.setCaller call { caller with phase := .comparing idx hinted (session.queueDepth idx) }
    | _ => session
  | .timeout =>
    match caller.phase with
    -- once the start was seen, only the reply counts
    | .waiting false =>
      if caller.task.deadline ≤ session.now then
        session.setCaller call { caller with phase := .ended (.outcome (.failed "render timeout" .renderTimeout)) }
      else session
    | _ => session
  | .cancel =>
    match caller.phase with
    | .sending _ completion => session.setCaller call { caller with phase := .dropping completion .clear .cancelled }
    | .waiting _ => session.setCaller call { caller with phase := .ended .cancelled }
    | _ => session

def commands : List (WorkerCmd n) → List (Command n) :=
  List.filterMap (fun cmd => match cmd with
    | .process command => some command
    | .retire => none)

/-- The first stage of `completion.finish`: only a failed or rejected task takes the lock. -/
def finishStage : TaskResult → DropStage
  | .completed _ => .release
  | .failed _ _ | .rejected _ => .clear

variable (session : PoolSession n ρ)

def publish (idx : Fin n) : Option Bool → PoolSession n ρ
  | some available => session.setAvailable idx available
  | none => session

def deadlinePassed (command : Command n) : Bool :=
  match session.callers[command.call]? with
  | some caller => decide (caller.task.deadline ≤ session.now)
  | none => false

def timeoutReply : WorkerReply := .outcome (.failed "render timeout" .renderTimeout)

def stepWorker (idx : Fin n) : WorkerInput → PoolSession n ρ
  | .proceed =>
    let worker := session.workers idx
    match worker.phase with
    | .idle =>
      match worker.channel with
      | .process command :: channel =>
        (session.setWorker idx { worker with channel, phase := .inspecting command }).signalStarted command
      | .retire :: channel =>
        session.setWorker idx
          { channel := [], receiverAlive := false, phase := .closing none (commands channel) }
      | [] => session
    | .bouncing command .clear =>
      (session.clearIfLatest command.completion).setWorker idx { worker with phase := .bouncing command .release }
    | .bouncing command .release =>
      (session.giveBack command.completion.workerIdx).setWorker idx { worker with phase := .returning command }
    | .returning command => (session.setWorker idx { worker with phase := .idle }).respond command .redispatch
    | .finishing command result responded .clear =>
      (session.clearIfLatest command.completion).setWorker idx
        { worker with phase := .finishing command result responded .release }
    | .finishing command result responded .release =>
      (session.giveBack command.completion.workerIdx).setWorker idx
        { worker with phase := if responded then .idle else .responding command result }
    | .responding command result => (session.setWorker idx { worker with phase := .idle }).respond command (.outcome result)
    | .closing (some (command, .clear)) commands =>
      (session.clearIfLatest command.completion).setWorker idx
        { worker with phase := .closing (some (command, .release)) commands }
    | .closing (some (command, .release)) commands =>
      (session.giveBack command.completion.workerIdx).setWorker idx { worker with phase := .closing none commands }
    -- the fields of a command go in order: its reply channel before its completion
    | .closing none (command :: commands) =>
      (session.setWorker idx { worker with phase := .closing (some (command, .clear)) commands }).respond command
        .disconnected
    | .closing none [] => session.setWorker idx { worker with phase := .exited }
    | _ => session
  | .repair available =>
    match (session.workers idx).phase with
    | .idle => session.setAvailable idx available
    | _ => session
  | .inspect repaired =>
    let worker := session.workers idx
    match worker.phase with
    | .inspecting command =>
      let session := session.publish idx repaired
      session.setWorker idx
        { worker with
          phase := if session.available idx then .running command false else .bouncing command .clear }
    | _ => session
  | .deadline =>
    let worker := session.workers idx
    match worker.phase with
    | .running command false =>
      if session.deadlinePassed command then
        ((session.setAvailable idx false).setWorker idx { worker with phase := .running command true }).respond command
          timeoutReply
      else session
    | _ => session
  | .finish result available =>
    let worker := session.workers idx
    match worker.phase with
    | .running command responded =>
      let session := session.publish idx available
      -- a completion after the deadline is never passed on
      if !responded && session.deadlinePassed command && finishStage result = .release then
        (session.setWorker idx { worker with phase := .finishing command result true (finishStage result) }).respond
          command timeoutReply
      else
        session.setWorker idx { worker with phase := .finishing command result responded (finishStage result) }
    | _ => session
  | .panic =>
    let worker := session.workers idx
    match worker.phase with
    | .running command _ =>
      session.setWorker idx
        { channel := [], receiverAlive := false, phase := .closing none (command :: commands worker.channel) }
    | _ => session

def step (config : PoolConfig ρ) (session : PoolSession n ρ) : PoolAction n ρ → PoolSession n ρ
  | .process task addlayerSourceId hint =>
    { session with callers := session.callers ++ [{ task, addlayerSourceId, phase := .choosing hint }] }
  | .caller call input =>
    match session.callers[call]? with
    | some caller => session.stepCaller config call caller input
    | none => session
  | .worker idx input => session.stepWorker idx input
  | .shutdown idx =>
    let worker := session.workers idx
    if worker.receiverAlive && decide (worker.channel.length < channelCapacity) then
      session.setWorker idx { worker with channel := worker.channel ++ [.retire] }
    else session
  | .tick elapsed => { session with now := session.now + elapsed }

def run (config : PoolConfig ρ) (available : Fin n → Bool) (actions : List (PoolAction n ρ)) : PoolSession n ρ :=
  actions.foldl (PoolSession.step config) { available }

end PoolSession

def poolSessions {n : ℕ} {ρ : Type} (config : PoolConfig ρ) (available : Fin n → Bool) : Machine (PoolSession n ρ) where
  init := { available }
  step := fun session session' => ∃ action, session' = session.step config action

theorem reachable_pool_run {n : ℕ} {ρ : Type} (cfg : PoolConfig ρ) (avail : Fin n → Bool)
    (actions : List (PoolAction n ρ)) : Reachable (poolSessions cfg avail) (PoolSession.run cfg avail actions) :=
  reachable_foldl (PoolSession.step cfg) _ actions

end Mappf.Biei
