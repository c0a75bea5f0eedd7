import Mappf.Biei.WorkerPool

/-! # A worker, its renderer and the renderer's actor

`worker.rs`, `renderer/maplibre.rs` and `renderer/actor/protocol.rs`: each of the three remembers what is loaded.
The worker takes one command at a time and waits for the actor thread at two points; the native backend, the
permits, the clocks and the spawning of threads are inputs. The thread may exit at any time. Metrics, and the
abandoned actors that nothing refers to any more, are left out. -/
namespace Mappf.Biei

open Styles (StyleId StyleRevision)

/-! ## Errors -/

inductive RendererError
  | styleLoadFailed (styleId : StyleId) (source : String)
  | setupFailed (styleId : StyleId) (source : String)
  | styleNotReady (styleId : StyleId) (version : UInt64)
  | sourceFetchFailed (hash : UInt64) (source : String)
  | nativeRenderFailed (source : String)
  | renderFailed (message : String)
  | timeout
  | actorDead
  deriving DecidableEq

namespace RendererError

/-- `renderer_error_invalidates_warm_state`, on the worker's side. -/
def invalidatesWarmState : RendererError → Bool
  | styleLoadFailed _ _ | setupFailed _ _ | styleNotReady _ _ | timeout | actorDead => true
  | sourceFetchFailed _ _ | nativeRenderFailed _ | renderFailed _ => false

/-- `error_invalidates_loaded_state` of the native backend, on the actor's side. -/
def invalidatesLoadedState : RendererError → Bool
  | renderFailed _ => false
  | styleLoadFailed _ _ | setupFailed _ _ | styleNotReady _ _ | sourceFetchFailed _ _ | nativeRenderFailed _
  | timeout | actorDead => true

def isActorPanic : RendererError → Bool
  | renderFailed message => "renderer actor panicked during ".toList.isPrefixOf message.toList
  | styleLoadFailed _ _ | setupFailed _ _ | styleNotReady _ _ | sourceFetchFailed _ _ | nativeRenderFailed _
  | timeout | actorDead => false

end RendererError

/-! ## The actor -/

structure CredentialCachePartition where
  digest : List UInt8
  deriving DecidableEq

structure RendererProfileIdentity where
  revision : StyleRevision
  authorizationPartition : Option CredentialCachePartition
  deriving DecidableEq

inductive BackendOutcome
  | ok
  | error (err : RendererError)
  | panic (message : String)

def catchBackendUnwind (operation : String) : BackendOutcome → Except RendererError Unit
  | .ok => .ok ()
  | .error err => .error err
  | .panic message => .error (.renderFailed ("renderer actor panicked during " ++ operation ++ ": " ++ message))

structure Actor where
  loaded : Option RendererProfileIdentity := none
  running : Bool := true
  /-- Whether the join handle is still there. -/
  attached : Bool := true

namespace Actor

def isAlive (actor : Actor) : Bool := actor.attached && actor.running

def loadProfile (actor : Actor) (identity : RendererProfileIdentity) (outcome : BackendOutcome) :
    Actor × Except RendererError Unit :=
  match catchBackendUnwind "load_profile" outcome with
  | .ok () => ({ actor with loaded := some identity }, .ok ())
  | .error err => ({ actor with loaded := none }, .error err)

/-- `RenderCmd::Render` in `run_actor`; the backend is only called for the profile that is loaded. -/
def render (actor : Actor) (identity : RendererProfileIdentity) (outcome : BackendOutcome) :
    Actor × Except RendererError Unit :=
  let result :=
    if actor.loaded = some identity then catchBackendUnwind "render" outcome
    else .error (.styleNotReady identity.revision.id identity.revision.version)
  match result with
  | .ok () => (actor, .ok ())
  | .error err =>
    if err.isActorPanic || err.invalidatesLoadedState then ({ actor with loaded := none }, .error err)
    else (actor, .error err)

/-- Detaches the thread, within the budget for orphans when it is still running. -/
def tryAbandon (actor : Actor) (orphanBudget : Bool) : Actor × Bool :=
  if actor.attached = false then (actor, true)
  else if actor.running = false ∨ orphanBudget then ({ actor with attached := false }, true)
  else (actor, false)

end Actor

/-! ## The renderer -/

structure RepairInput where
  orphanBudget : Bool
  spawnError : Option String

structure MapLibreRenderer where
  actor : Actor := {}
  retiring : Bool := false

namespace MapLibreRenderer

variable (renderer : MapLibreRenderer)

def isAvailable : Bool := !renderer.retiring && renderer.actor.isAlive

variable (input : RepairInput)

def spawnAndInstallReplacement : MapLibreRenderer × Except RendererError Unit :=
  match input.spawnError with
  | none => ({ renderer with actor := {} }, .ok ())
  | some err => (renderer, .error (.renderFailed ("failed to spawn renderer actor: " ++ err)))

def replaceRetiringActor : MapLibreRenderer × Except RendererError Unit :=
  let (actor, abandoned) := renderer.actor.tryAbandon input.orphanBudget
  if abandoned then
    match { renderer with actor }.spawnAndInstallReplacement input with
    | (renderer, .ok ()) => ({ renderer with retiring := false }, .ok ())
    | (renderer, .error err) => (renderer, .error err)
  else (renderer, .error .actorDead)

/-- `repair_if_needed`, and `actor()` before every call. -/
def repairIfNeeded : MapLibreRenderer × Except RendererError Unit :=
  if renderer.retiring then renderer.replaceRetiringActor input
  else if renderer.actor.isAlive = false then renderer.spawnAndInstallReplacement input
  else (renderer, .ok ())

def retireAfterCurrent : MapLibreRenderer :=
  ({ renderer with retiring := true }.replaceRetiringActor input).1

end MapLibreRenderer

/-! ## The worker -/

structure SourceCache where
  capacity : ℕ
  entries : List UInt64 := []

namespace SourceCache

def touch (cache : SourceCache) (hash : UInt64) : SourceCache :=
  let entries := cache.entries.erase hash ++ [hash]
  { cache with entries := entries.drop (entries.length - cache.capacity) }

def clear (cache : SourceCache) : SourceCache := { cache with entries := [] }

end SourceCache

structure StageTask where
  profile : WorkerProfile
  authorizationPartition : Option CredentialCachePartition
  source : Option SourceRef

def StageTask.identity (task : StageTask) : RendererProfileIdentity := ⟨task.profile.style, task.authorizationPartition⟩

structure PreparedProfile where
  revision : StyleRevision
  authorizationPartition : Option CredentialCachePartition

inductive StageResult
  | completed
  | deadlineExceeded
  | permitClosed
  | rendererError (err : RendererError)
  deriving DecidableEq

inductive Stage
  | acquireRenderPermit
  | styleSwap
  | acquireNativeRenderPermit
  | render

structure Staged where
  task : StageTask
  prepared : Option PreparedProfile
  styleSwap : Bool
  responseDeadlineElapsed : Bool := false

inductive StagePhase
  | idle
  | busy (stage : Stage) (staged : Staged)

structure WorkerSession where
  currentProfile : Option (WorkerProfile × Option CredentialCachePartition) := none
  cache : SourceCache
  available : Bool := true
  renderer : MapLibreRenderer := {}
  phase : StagePhase := .idle
  outcomes : List (Bool × StageResult) := []

inductive StageAction
  | process (task : StageTask) (prepared : Option PreparedProfile) (repair : RepairInput)
  | repairTick (repair : RepairInput)
  /-- The permit waited for is acquired; whether the deadline has passed is looked at right after. -/
  | granted (deadlinePassed : Bool) (repairs : ℕ → RepairInput)
  | notGranted (closed : Bool) (repairs : ℕ → RepairInput)
  | loadReturns (outcome : BackendOutcome) (deadlinePassed : Bool) (repairs : ℕ → RepairInput)
  | renderReturns (outcome : BackendOutcome) (repairs : ℕ → RepairInput)
  | responseDeadline
  | hardWedge (repairs : ℕ → RepairInput)
  | threadExits

namespace WorkerSession

variable (session : WorkerSession)

def syncAvailability (input : RepairInput) : WorkerSession :=
  match session.renderer.repairIfNeeded input with
  | (renderer, .ok ()) => { session with renderer, available := renderer.isAvailable }
  | (renderer, .error _) => { session with renderer, available := false }

/-- The branch of `worker_loop` for a renderer error. -/
def afterError (err : RendererError) (repairs : ℕ → RepairInput) : WorkerSession :=
  let session :=
    if err = .timeout then
      { session with available := false, renderer := session.renderer.retireAfterCurrent (repairs 1) }
    else session
  let session := session.syncAvailability (repairs 2)
  if err.invalidatesWarmState then { session with currentProfile := none, cache := session.cache.clear } else session

variable (staged : Staged)

def settle (result : StageResult) (repairs : ℕ → RepairInput) : WorkerSession :=
  let session := match result with
    | .rendererError err => session.afterError err repairs
    | .completed => session
    | .deadlineExceeded => session
    | .permitClosed => session
  let session := if staged.responseDeadlineElapsed then session.syncAvailability (repairs 3) else session
  { session with phase := .idle, outcomes := session.outcomes ++ [(staged.styleSwap, result)] }

/-- The renderer has no sources of its own to load, so a source is only noted. -/
def ensureSource (deadlinePassed : Bool) (repairs : ℕ → RepairInput) : WorkerSession :=
  if deadlinePassed then session.settle staged .deadlineExceeded repairs
  else
    let cache := match staged.task.source with
      | some source => if source.policy = .cacheable then session.cache.touch source.hash else session.cache
      | none => session.cache
    { session with cache, phase := .busy .acquireNativeRenderPermit staged }

def setupProfile (repairs : ℕ → RepairInput) : WorkerSession :=
  let usable := staged.prepared.any (fun prepared =>
    prepared.revision = staged.task.profile.style &&
      prepared.authorizationPartition = staged.task.authorizationPartition)
  if usable then
    match session.renderer.repairIfNeeded (repairs 0) with
    | (renderer, .ok ()) => { session with renderer, phase := .busy .styleSwap staged }
    | (renderer, .error err) => { session with renderer }.settle staged (.rendererError err) repairs
  else
    session.settle staged
      (.rendererError (.styleLoadFailed staged.task.profile.style.id "prepared style JSON is missing or stale")) repairs

def beginRender (repairs : ℕ → RepairInput) : WorkerSession :=
  match session.renderer.repairIfNeeded (repairs 0) with
  | (renderer, .ok ()) => { session with renderer, phase := .busy .render staged }
  | (renderer, .error err) => { session with renderer }.settle staged (.rendererError err) repairs

/-- The decision of `run_stages`. -/
def needsSwap (task : StageTask) : Bool :=
  session.currentProfile.all (fun current =>
    current.1 ≠ task.profile || current.2 ≠ task.authorizationPartition)

def afterLoad (deadlinePassed : Bool) (repairs : ℕ → RepairInput) : Actor × Except RendererError Unit → WorkerSession
  | (actor, .ok ()) =>
    { session with
      renderer := { session.renderer with actor }
      currentProfile := some (staged.task.profile, staged.task.authorizationPartition)
      cache := session.cache.clear }.ensureSource staged deadlinePassed repairs
  | (actor, .error err) =>
    { session with renderer := { session.renderer with actor } }.settle staged (.rendererError err) repairs

def afterRender (repairs : ℕ → RepairInput) : Actor × Except RendererError Unit → WorkerSession
  | (actor, .ok ()) => { session with renderer := { session.renderer with actor } }.settle staged .completed repairs
  | (actor, .error err) =>
    { session with renderer := { session.renderer with actor } }.settle staged (.rendererError err) repairs

def process (task : StageTask) (prepared : Option PreparedProfile) (repair : RepairInput) : WorkerSession :=
  let session := if session.renderer.isAvailable then session else session.syncAvailability repair
  -- otherwise the untouched command goes back to the pool
  if session.available then
    { session with phase := .busy .acquireRenderPermit ⟨task, prepared, session.needsSwap task, false⟩ }
  else session

/-- A reply is lost with the thread that owes it. -/
def answer (actor : Actor) (reply : Actor × Except RendererError Unit) : Actor × Except RendererError Unit :=
  if actor.running then reply else (actor, .error .actorDead)

def step (action : StageAction) : WorkerSession :=
  match session.phase, action with
  | .idle, .process task prepared repair => session.process task prepared repair
  | .idle, .repairTick repair => session.syncAvailability repair
  | .busy .acquireRenderPermit staged, .granted deadlinePassed repairs =>
    if staged.styleSwap then
      if deadlinePassed then session.settle staged .deadlineExceeded repairs else session.setupProfile staged repairs
    else session.ensureSource staged deadlinePassed repairs
  | .busy .acquireNativeRenderPermit staged, .granted deadlinePassed repairs =>
    if deadlinePassed then session.settle staged .deadlineExceeded repairs else session.beginRender staged repairs
  | .busy .acquireRenderPermit staged, .notGranted closed repairs =>
    session.settle staged (if closed then .permitClosed else .deadlineExceeded) repairs
  | .busy .acquireNativeRenderPermit staged, .notGranted closed repairs =>
    session.settle staged (if closed then .permitClosed else .deadlineExceeded) repairs
  | .busy .styleSwap staged, .loadReturns outcome deadlinePassed repairs =>
    let actor := session.renderer.actor
    session.afterLoad staged deadlinePassed repairs (answer actor (actor.loadProfile staged.task.identity outcome))
  | .busy .render staged, .renderReturns outcome repairs =>
    let actor := session.renderer.actor
    session.afterRender staged repairs (answer actor (actor.render staged.task.identity outcome))
  | .busy stage staged, .responseDeadline =>
    { session with available := false, phase := .busy stage { staged with responseDeadlineElapsed := true } }
  | .busy _ staged, .hardWedge repairs =>
    -- the stages are only given up after the response deadline
    if staged.responseDeadlineElapsed then session.settle staged (.rendererError .timeout) repairs else session
  | _, .threadExits =>
    { session with renderer := { session.renderer with actor := { session.renderer.actor with running := false } } }
  | _, _ => session

def start (sourceCacheCapacity : ℕ) : WorkerSession where
  cache := ⟨max sourceCacheCapacity 1, []⟩

end WorkerSession

end Mappf.Biei
