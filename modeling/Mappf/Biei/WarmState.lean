import Mappf.Biei.Renderer

/-! # Agreement on what is loaded

A worker that remembers a profile skips its setup, so the actor should still have that profile loaded. The
actor forgets it on more errors than the worker does: on a failed native render, on a panic, and with its thread.
Agreement holds along every run that meets none of these while the worker remembers something (`Steady`). -/
namespace Mappf.Biei
open Bool

open Styles (StyleId StyleRevision)

/-! ## Warm renderers -/

/-- What the worker remembers is loaded in an actor that is alive. -/
def Warm (current : Option (WorkerProfile × Option CredentialCachePartition)) (renderer : MapLibreRenderer) : Prop :=
  ∀ profile partition, current = some (profile, partition) →
    renderer.isAvailable = true ∧ renderer.actor.loaded = some ⟨profile.style, partition⟩

namespace MapLibreRenderer

variable {renderer : MapLibreRenderer}

theorem isAvailable_iff : renderer.isAvailable = true ↔ renderer.retiring = false ∧ renderer.actor.attached = true ∧
      renderer.actor.running = true := by
  rw [isAvailable, Actor.isAlive, and_eq_true, and_eq_true, not_eq_true']

theorem isAvailable_of_repair {repaired : MapLibreRenderer} {input : RepairInput}
    (h : renderer.repairIfNeeded input = (repaired, .ok ())) : repaired.isAvailable = true := by
  have hspawn : ∀ {renderer repaired : MapLibreRenderer},
      renderer.spawnAndInstallReplacement input = (repaired, .ok ()) → repaired = { renderer with actor := {} } := by
    intro renderer repaired hspawned
    unfold spawnAndInstallReplacement at hspawned
    split at hspawned
    · exact (congrArg Prod.fst hspawned).symm
    · cases hspawned
  unfold repairIfNeeded at h
  split_ifs at h with hret halive
  · unfold replaceRetiringActor at h
    dsimp only at h
    split_ifs at h with habandoned
    · split at h
      case h_1 spawned hspawned =>
        cases h
        rw [hspawn hspawned]
        rfl
      case h_2 => cases h
    · cases h
  · rw [hspawn h, isAvailable_iff]
    exact ⟨eq_false_iff.mpr hret, rfl, rfl⟩
  · cases h
    unfold isAvailable
    rw [eq_false_iff.mpr hret, eq_true_of_not_eq_false halive]
    rfl

theorem repairIfNeeded_of_isAvailable (h : renderer.isAvailable = true)
    (input : RepairInput) : renderer.repairIfNeeded input = (renderer, .ok ()) := by
  obtain ⟨hret, hatta, hrun⟩ := isAvailable_iff.mp h
  unfold repairIfNeeded Actor.isAlive
  rw [hret, hatta, hrun]
  rfl

end MapLibreRenderer

namespace Warm

variable {cur : Option (WorkerProfile × Option CredentialCachePartition)} {renderer : MapLibreRenderer}

theorem forgotten (renderer : MapLibreRenderer) : Warm none renderer := by
  nofun

theorem repair (h : Warm cur renderer) (input : RepairInput) : Warm cur (renderer.repairIfNeeded input).1 := by
  intro prof partition hcur
  rw [MapLibreRenderer.repairIfNeeded_of_isAvailable (h prof partition hcur).1 input]
  exact h prof partition hcur

end Warm

namespace WorkerSession

variable {session : WorkerSession} {staged : Staged} {repairs : ℕ → RepairInput}

def IsWarm (session : WorkerSession) : Prop := Warm session.currentProfile session.renderer

theorem syncAvailability_eq (session : WorkerSession) (input : RepairInput) :
    ∃ available, session.syncAvailability input =
      { session with renderer := (session.renderer.repairIfNeeded input).1, available } := by
  unfold syncAvailability
  split
  case h_1 renderer hrepair => exact ⟨renderer.isAvailable, by rw [hrepair]⟩
  case h_2 renderer err hrepair => exact ⟨false, by rw [hrepair]⟩

theorem IsWarm.sync (h : session.IsWarm) (input : RepairInput) : (session.syncAvailability input).IsWarm := by
  obtain ⟨available, heq⟩ := session.syncAvailability_eq input
  rw [heq]
  exact h.repair input

/-- After a renderer error: a worker that forgets is warm, and so is one that was and does not retire the actor. -/
theorem IsWarm.afterError (err : RendererError) (h : err.invalidatesWarmState = true ∨ session.IsWarm) :
    (session.afterError err repairs).IsWarm := by
  unfold WorkerSession.afterError
  by_cases hinval : err.invalidatesWarmState = true
  · rw [if_pos hinval]
    exact Warm.forgotten _
  · have htimeout : err ≠ .timeout := by
      rintro rfl
      exact hinval rfl
    rw [if_neg hinval, if_neg htimeout]
    exact (h.resolve_left hinval).sync (repairs 2)

theorem afterError_outcomes (err : RendererError) : (session.afterError err repairs).outcomes = session.outcomes := by
  unfold afterError
  dsimp only
  obtain ⟨available, heq⟩ := syncAvailability_eq (if err = .timeout then
      { session with available := false, renderer := session.renderer.retireAfterCurrent (repairs 1) }
    else session) (repairs 2)
  rw [heq]
  split_ifs <;> rfl

theorem settle_spec (session : WorkerSession) (staged : Staged) (res : StageResult) (repairs : ℕ → RepairInput) :
    (session.settle staged res repairs).phase = .idle ∧
      (session.settle staged res repairs).outcomes = session.outcomes ++ [(staged.styleSwap, res)] := by
  unfold settle
  dsimp only
  refine ⟨rfl, ?_⟩
  have hsync : ∀ session : WorkerSession, (session.syncAvailability (repairs 3)).outcomes = session.outcomes := by
    intro session
    obtain ⟨available, heq⟩ := session.syncAvailability_eq (repairs 3)
    rw [heq]
  cases res with
  | rendererError err =>
    split_ifs
    · rw [hsync, afterError_outcomes]
    · rw [afterError_outcomes]
  | _ =>
    split_ifs
    · rw [hsync]
    · rfl

theorem IsWarm.settle {res : StageResult}
    (h : (∃ err, res = .rendererError err ∧ err.invalidatesWarmState = true) ∨ session.IsWarm) :
    (session.settle staged res repairs).IsWarm := by
  unfold WorkerSession.settle
  cases res with
  | rendererError err =>
    have hafter : (session.afterError err repairs).IsWarm := by
      refine IsWarm.afterError err (h.imp_left ?_)
      rintro ⟨_, heq, hinval⟩
      cases heq
      exact hinval
    split_ifs
    · exact hafter.sync (repairs 3)
    · exact hafter
  | _ =>
    have hwarm : session.IsWarm := by
      refine h.resolve_left ?_
      rintro ⟨_, heq, -⟩
      cases heq
    split_ifs
    · exact hwarm.sync (repairs 3)
    · exact hwarm

/-! ## The invariant -/

def awaitsReply (session : WorkerSession) : Bool :=
  match session.phase with
  | .busy .styleSwap _ | .busy .render _ => true
  | .busy .acquireRenderPermit _ | .busy .acquireNativeRenderPermit _ | .idle => false

end WorkerSession

def Stage.Past (stage : Stage) (staged : Staged) : Prop :=
  staged.styleSwap = false ∨ stage = .acquireNativeRenderPermit ∨ stage = .render

def RendererError.isStyleNotReady : RendererError → Bool
  | styleNotReady _ _ => true
  | styleLoadFailed _ _ | setupFailed _ _ | sourceFetchFailed _ _ | nativeRenderFailed _ | renderFailed _
  | timeout | actorDead => false

def StageResult.isStyleNotReady : StageResult → Bool
  | rendererError err => err.isStyleNotReady
  | completed | deadlineExceeded | permitClosed => false

/-- The actor did not have what a task that skipped its setup needed. -/
def Refused (outcome : Bool × StageResult) : Prop := outcome.1 = false ∧ outcome.2.isStyleNotReady = true

namespace WorkerSession

structure Agreement (session : WorkerSession) : Prop where
  warm : session.awaitsReply = false → session.IsWarm
  /-- While a reply is waited for, the thread may be gone: its silence tells the worker. -/
  held : ∀ profile partition, session.currentProfile = some (profile, partition) →
    session.renderer.actor.loaded = some ⟨profile.style, partition⟩
  bound : session.awaitsReply = true → session.renderer.retiring = false ∧ session.renderer.actor.attached = true
  past : ∀ stage staged, session.phase = .busy stage staged → stage.Past staged →
    session.currentProfile = some (staged.task.profile, staged.task.authorizationPartition)
  swapping : ∀ staged, session.phase = .busy .styleSwap staged → staged.styleSwap = true
  served : ∀ outcome ∈ session.outcomes, ¬ Refused outcome

namespace Agreement

variable {session : WorkerSession} {staged : Staged} {repairs : ℕ → RepairInput}

theorem of_isWarm (hwarm : session.IsWarm) (hwait : session.awaitsReply = false)
    (hpast : ∀ stage staged, session.phase = .busy stage staged → stage.Past staged →
      session.currentProfile = some (staged.task.profile, staged.task.authorizationPartition))
    (hserv : ∀ outcome ∈ session.outcomes, ¬ Refused outcome) : Agreement session where
  warm _ := hwarm
  held prof partition hcur := (hwarm prof partition hcur).2
  bound h := by rw [hwait] at h; cases h
  past := hpast
  swapping staged hphase := by rw [awaitsReply, hphase] at hwait; cases hwait
  served := hserv

variable {res : StageResult} (hserv : ∀ outcome ∈ session.outcomes, ¬ Refused outcome)
include hserv

theorem settle
    (hwarm : (∃ err, res = .rendererError err ∧ err.invalidatesWarmState = true) ∨ session.IsWarm)
    (hres : ¬ Refused (staged.styleSwap, res)) : Agreement (session.settle staged res repairs) := by
  obtain ⟨hphase, houtcomes⟩ := settle_spec session staged res repairs
  refine of_isWarm (IsWarm.settle hwarm) (by rw [awaitsReply, hphase]) ?_ ?_
  · intro stage staged hbusy
    cases hbusy
  · rw [houtcomes]
    intro outcome hmem
    obtain hold | hnew := List.mem_append.mp hmem
    · exact hserv outcome hold
    · rw [List.mem_singleton.mp hnew]
      exact hres

theorem ensureSource (hwarm : session.IsWarm)
    (hcur : session.currentProfile = some (staged.task.profile, staged.task.authorizationPartition))
    (deadlinePassed : Bool) : Agreement (session.ensureSource staged deadlinePassed repairs) := by
  unfold WorkerSession.ensureSource
  split_ifs
  · exact settle hserv (.inr hwarm) (fun h => by cases h.2)
  · refine of_isWarm hwarm rfl ?_ hserv
    intro stage staged hbusy hpast
    cases hbusy
    exact hcur

theorem setupProfile (hwarm : session.IsWarm)
    (hswap : staged.styleSwap = true) : Agreement (session.setupProfile staged repairs) := by
  have hrefus : ∀ res, ¬ Refused (staged.styleSwap, res) := by
    intro res h
    rw [hswap] at h
    cases h.1
  unfold WorkerSession.setupProfile
  dsimp only
  have hrepaired := hwarm.repair (repairs 0)
  split_ifs
  · split
    case h_1 renderer hrepair =>
      rw [hrepair] at hrepaired
      obtain ⟨hret, hatta, -⟩ := MapLibreRenderer.isAvailable_iff.mp (MapLibreRenderer.isAvailable_of_repair hrepair)
      refine ⟨nofun, fun prof partition hcur => (hrepaired prof partition hcur).2,
        fun _ => ⟨hret, hatta⟩, ?_, (fun staged hbusy => by cases hbusy; exact hswap), hserv⟩
      intro stage staged hbusy hpast
      cases hbusy
      obtain hskip | hlater | hlater := hpast
      · rw [hswap] at hskip
        cases hskip
      · cases hlater
      · cases hlater
    case h_2 renderer err hrepair =>
      rw [hrepair] at hrepaired
      exact settle hserv (.inr hrepaired) (hrefus _)
  · exact settle hserv (.inl ⟨_, rfl, rfl⟩) (hrefus _)

theorem beginRender (hwarm : session.IsWarm)
    (hcur : session.currentProfile = some (staged.task.profile, staged.task.authorizationPartition)) :
    Agreement (session.beginRender staged repairs) := by
  obtain ⟨havail, hloaded⟩ := hwarm _ _ hcur
  obtain ⟨hret, hatta, -⟩ := MapLibreRenderer.isAvailable_iff.mp havail
  unfold WorkerSession.beginRender
  rw [MapLibreRenderer.repairIfNeeded_of_isAvailable havail]
  refine ⟨nofun, fun prof partition h => (hwarm prof partition h).2, fun _ => ⟨hret, hatta⟩, ?_, nofun, hserv⟩
  intro stage staged hbusy hpast
  cases hbusy
  exact hcur

theorem process (hwarm : session.IsWarm)
    (hidle : session.phase = .idle) (task : StageTask) (prepared : Option PreparedProfile) (repair : RepairInput) :
    Agreement (session.process task prepared repair) := by
  unfold WorkerSession.process
  dsimp only
  generalize hsynced : (if session.renderer.isAvailable then session else session.syncAvailability repair) = synced
  have hafter : synced.IsWarm ∧ synced.phase = .idle ∧ ∀ outcome ∈ synced.outcomes, ¬ Refused outcome := by
    rw [← hsynced]
    split_ifs
    · exact ⟨hwarm, hidle, hserv⟩
    · refine ⟨hwarm.sync repair, ?_⟩
      obtain ⟨available, heq⟩ := session.syncAvailability_eq repair
      rw [heq]
      exact ⟨hidle, hserv⟩
  obtain ⟨hwarm, hidle, hserv⟩ := hafter
  split_ifs
  · refine of_isWarm hwarm rfl ?_ hserv
    intro stage staged hbusy hpast
    cases hbusy
    obtain hskip | hlater | hlater := hpast
    · -- the setup is skipped only for what the worker remembers
      obtain ⟨⟨prof, partition⟩, hcur, hsame⟩ := (Option.all_eq_false _ _).mp hskip
      rw [hcur]
      simpa using hsame
    · cases hlater
    · cases hlater
  · refine of_isWarm hwarm (by rw [awaitsReply, hidle]) ?_ hserv
    simp [hidle]

end Agreement

end WorkerSession

/-! ## Steady runs -/

/-- The worker forgets whenever the actor does; the backend itself has no reason to answer `StyleNotReady`. -/
def RendererError.isAgreed (err : RendererError) : Bool :=
  (err.invalidatesWarmState || !(err.isActorPanic || err.invalidatesLoadedState)) && !err.isStyleNotReady

def BackendOutcome.errorsMeet (operation : String) (outcome : BackendOutcome) (p : RendererError → Bool) : Bool :=
  match catchBackendUnwind operation outcome with
  | .ok () => true
  | .error err => p err

theorem BackendOutcome.errorsMeet_error {operation : String} {outcome : BackendOutcome} {p : RendererError → Bool}
    {err : RendererError} (h : outcome.errorsMeet operation p = true)
    (herr : catchBackendUnwind operation outcome = .error err) : p err = true := by
  unfold errorsMeet at h
  rw [herr] at h
  exact h

namespace Actor

theorem loadProfile_cases (actor : Actor) (identity : RendererProfileIdentity) (outcome : BackendOutcome) :
    actor.loadProfile identity outcome = ({ actor with loaded := some identity }, .ok ()) ∨
      ∃ err, catchBackendUnwind "load_profile" outcome = .error err ∧
        actor.loadProfile identity outcome = ({ actor with loaded := none }, .error err) := by
  unfold loadProfile
  cases hres : catchBackendUnwind "load_profile" outcome with
  | ok _ => exact .inl rfl
  | error err => exact .inr ⟨err, rfl, rfl⟩

theorem render_cases {actor : Actor} {identity : RendererProfileIdentity} (hloaded : actor.loaded = some identity)
    (outcome : BackendOutcome) : actor.render identity outcome = (actor, .ok ()) ∨
      (∃ err, catchBackendUnwind "render" outcome = .error err ∧
        (err.isActorPanic || err.invalidatesLoadedState) = true ∧
          actor.render identity outcome = ({ actor with loaded := none }, .error err)) ∨
      ∃ err, catchBackendUnwind "render" outcome = .error err ∧ actor.render identity outcome = (actor, .error err) := by
  unfold render
  rw [if_pos hloaded]
  cases hres : catchBackendUnwind "render" outcome with
  | ok _ => exact .inl rfl
  | error err =>
    dsimp only
    split_ifs with hforgets
    · exact .inr (.inl ⟨err, rfl, hforgets, rfl⟩)
    · exact .inr (.inr ⟨err, rfl, rfl⟩)

end Actor

namespace WorkerSession

def steady (session : WorkerSession) : StageAction → Bool
  | .threadExits => session.currentProfile.isNone || session.awaitsReply
  | .loadReturns outcome _ _ =>
    session.currentProfile.isNone || outcome.errorsMeet "load_profile" RendererError.invalidatesWarmState
  | .renderReturns outcome _ => outcome.errorsMeet "render" RendererError.isAgreed
  | .process _ _ _ | .repairTick _ | .granted _ _ | .notGranted _ _ | .responseDeadline | .hardWedge _ => true

namespace Agreement

variable {session : WorkerSession} {staged : Staged} {repairs : ℕ → RepairInput} {outcome : BackendOutcome}

theorem afterLoad (h : Agreement session) (hphase : session.phase = .busy .styleSwap staged)
    (hsteady : session.currentProfile.isNone = true ∨
      outcome.errorsMeet "load_profile" RendererError.invalidatesWarmState = true) (deadlinePassed : Bool) :
    Agreement (session.afterLoad staged deadlinePassed repairs
      (answer session.renderer.actor (session.renderer.actor.loadProfile staged.task.identity outcome))) := by
  have hrefus : ∀ res, ¬ Refused (staged.styleSwap, res) := by
    intro res hres
    rw [h.swapping staged hphase] at hres
    cases hres.1
  obtain ⟨hret, hatta⟩ := h.bound (by rw [awaitsReply, hphase])
  unfold answer
  split_ifs with hrun
  · obtain hload | ⟨err, herr, hload⟩ := session.renderer.actor.loadProfile_cases staged.task.identity outcome
    · rw [hload, WorkerSession.afterLoad]
      refine ensureSource ?_ ?_ rfl deadlinePassed
      · exact h.served
      intro prof partition hcur
      cases hcur
      exact ⟨MapLibreRenderer.isAvailable_iff.mpr ⟨hret, hatta, hrun⟩, rfl⟩
    · rw [hload, WorkerSession.afterLoad]
      refine settle h.served ?_ (hrefus _)
      obtain hnone | hmeets := hsteady
      · refine .inr ?_
        intro prof partition hcur
        simp [Option.isNone_iff_eq_none.mp hnone] at hcur
      · exact .inl ⟨err, rfl, BackendOutcome.errorsMeet_error hmeets herr⟩
  · exact settle h.served (.inl ⟨_, rfl, rfl⟩) (hrefus _)

theorem afterRender (h : Agreement session) (hphase : session.phase = .busy .render staged)
    (hsteady : outcome.errorsMeet "render" RendererError.isAgreed = true) :
    Agreement (session.afterRender staged repairs
      (answer session.renderer.actor (session.renderer.actor.render staged.task.identity outcome))) := by
  have hcur := h.past .render staged hphase (.inr (.inr rfl))
  have hloaded : session.renderer.actor.loaded = some staged.task.identity := h.held _ _ hcur
  obtain ⟨hret, hatta⟩ := h.bound (by rw [awaitsReply, hphase])
  have hagreed : ∀ err, catchBackendUnwind "render" outcome = .error err →
      (err.invalidatesWarmState = true ∨ (err.isActorPanic || err.invalidatesLoadedState) = false) ∧
        ¬ Refused (staged.styleSwap, .rendererError err) := by
    intro err herr
    obtain ⟨hforgets, hready⟩ := and_eq_true_iff.mp (BackendOutcome.errorsMeet_error hsteady herr)
    refine ⟨(or_eq_true_iff.mp hforgets).imp_right (fun hkeeps => ?_), fun hrefus => ?_⟩
    · rwa [not_eq_true'] at hkeeps
    have hnot : err.isStyleNotReady = true := hrefus.2
    simp [hnot] at hready
  unfold answer
  split_ifs with hrun
  · have hwarm : session.IsWarm := fun prof partition hcur =>
      ⟨MapLibreRenderer.isAvailable_iff.mpr ⟨hret, hatta, hrun⟩, h.held prof partition hcur⟩
    obtain hrend | ⟨err, herr, hforgets, hrend⟩ | ⟨err, herr, hrend⟩ := Actor.render_cases hloaded outcome
    · rw [hrend, WorkerSession.afterRender]
      exact settle h.served (.inr hwarm) (fun hrefus => by cases hrefus.2)
    · rw [hrend, WorkerSession.afterRender]
      obtain ⟨hinval | hkeeps, hserv⟩ := hagreed err herr
      · exact settle h.served (.inl ⟨err, rfl, hinval⟩) hserv
      · simp [hforgets] at hkeeps
    · rw [hrend, WorkerSession.afterRender]
      exact settle h.served (.inr hwarm) (hagreed err herr).2
  · exact settle h.served (.inl ⟨_, rfl, rfl⟩) (fun hrefus => by cases hrefus.2)

/-- The worker's phase, the actor's answer and the condition on it decide each case. -/
theorem step (h : Agreement session) {action : StageAction} (hsteady : session.steady action = true) :
    Agreement (session.step action) := by
  unfold WorkerSession.step
  split
  case h_1 task prepared repair hphase =>
    exact process h.served (h.warm (by rw [awaitsReply, hphase])) hphase task prepared repair
  case h_2 repair hphase =>
    have hwarm := (h.warm (by rw [awaitsReply, hphase])).sync repair
    obtain ⟨available, heq⟩ := session.syncAvailability_eq repair
    rw [heq] at hwarm ⊢
    refine of_isWarm hwarm (by rw [awaitsReply, hphase]) ?_ h.served
    simp [hphase]
  case h_3 staged deadlinePassed repairs hphase =>
    have hwarm := h.warm (by rw [awaitsReply, hphase])
    split_ifs with hswap
    · exact settle h.served (.inr hwarm) (fun hrefus => by cases hrefus.2)
    · exact setupProfile h.served hwarm hswap
    · exact ensureSource h.served hwarm (h.past _ staged hphase (.inl (eq_false_iff.mpr hswap))) deadlinePassed
  case h_4 staged deadlinePassed repairs hphase =>
    have hwarm := h.warm (by rw [awaitsReply, hphase])
    split_ifs
    · exact settle h.served (.inr hwarm) (fun hrefus => by cases hrefus.2)
    · exact beginRender h.served hwarm (h.past _ staged hphase (.inr (.inl rfl)))
  case h_5 staged closed repairs hphase | h_6 staged closed repairs hphase =>
    refine settle h.served (.inr (h.warm (by rw [awaitsReply, hphase]))) (fun hrefus => ?_)
    cases closed <;> cases hrefus.2
  case h_7 staged outcome deadlinePassed repairs hphase =>
    exact h.afterLoad hphase (or_eq_true_iff.mp hsteady) deadlinePassed
  case h_8 staged outcome repairs hphase => exact h.afterRender hphase hsteady
  case h_9 stage staged hphase =>
    have hwait : ∀ staged', awaitsReply { session with available := false, phase := .busy stage staged' } =
        session.awaitsReply := by
      intro staged'
      unfold awaitsReply
      rw [hphase]
      cases stage <;> rfl
    refine ⟨fun hidle => h.warm ((hwait _).symm.trans hidle), h.held,
      fun hreply => h.bound ((hwait _).symm.trans hreply), ?_, ?_, h.served⟩
    · intro stage' staged' hbusy hpast
      cases hbusy
      exact h.past stage staged hphase hpast
    · intro staged' hbusy
      cases hbusy
      exact h.swapping staged hphase
  case h_10 stage staged repairs hphase =>
    split_ifs
    · exact settle h.served (.inl ⟨_, rfl, rfl⟩) (fun hrefus => by cases hrefus.2)
    · exact h
  case h_11 =>
    refine ⟨fun hidle => ?_, h.held, h.bound, h.past, h.swapping, h.served⟩
    have hidle : session.awaitsReply = false := hidle
    obtain hnone | hreply := or_eq_true_iff.mp hsteady
    · intro prof partition hcur
      simp [Option.isNone_iff_eq_none.mp hnone] at hcur
    · simp [hidle] at hreply
  case h_12 => exact h

end Agreement

def Agrees (session : WorkerSession) : Prop :=
  (∀ stage staged, session.phase = .busy stage staged → staged.styleSwap = false →
    session.renderer.actor.loaded = some staged.task.identity) ∧
  ∀ outcome ∈ session.outcomes, ¬ Refused outcome

variable {session : WorkerSession}

theorem Agreement.agrees (h : Agreement session) : session.Agrees :=
  ⟨fun stage staged hphase hskip => h.held _ _ (h.past stage staged hphase (.inl hskip)), h.served⟩

def machine (sourceCacheCapacity : ℕ) : Machine WorkerSession where
  init := start sourceCacheCapacity
  step session session' := ∃ action, session' = session.step action

def steadyMachine (sourceCacheCapacity : ℕ) : Machine WorkerSession where
  init := start sourceCacheCapacity
  step session session' := ∃ action, session.steady action = true ∧ session' = session.step action

theorem agreement_of_steady {sourceCacheCapacity : ℕ}
    (h : Reachable (steadyMachine sourceCacheCapacity) session) : Agreement session := by
  refine h.invariant ?_ ?_
  · refine Agreement.of_isWarm (Warm.forgotten _) rfl ?_ ?_
    · intro stage staged hbusy
      cases hbusy
    · nofun
  · rintro session _ hagreement ⟨action, hsteady, rfl⟩
    exact hagreement.step hsteady

end WorkerSession

open WorkerSession in
theorem warm_state_agrees {sourceCacheCapacity : ℕ} {session : WorkerSession}
    (h : Reachable (steadyMachine sourceCacheCapacity) session) : session.Agrees :=
  (agreement_of_steady h).agrees

namespace Example

def stageTask : StageTask := ⟨⟨⟨⟨"s"⟩, 0⟩, .tile, .x1⟩, none, none⟩

def repair : RepairInput := ⟨true, none⟩

def request : StageAction := .process stageTask (some ⟨⟨⟨"s"⟩, 0⟩, none⟩) repair

/-- A setup and a render that ends with the outcome, then the same task once more. -/
def twice (outcome : BackendOutcome) : List StageAction :=
  [request, .granted false (fun _ => repair), .loadReturns .ok false (fun _ => repair),
    .granted false (fun _ => repair), .renderReturns outcome (fun _ => repair),
    request, .granted false (fun _ => repair), .granted false (fun _ => repair),
    .renderReturns .ok (fun _ => repair)]

open WorkerSession in
/-- The actor discards the profile after a failed native render, the worker does not. -/
theorem failed_render_refuses_next : ∃ session, Reachable (machine 1) session ∧ ¬ session.Agrees := by
  refine ⟨_, reachable_foldl step (start 1) (twice (.error (.nativeRenderFailed "glyphs"))), fun h => ?_⟩
  exact h.2 (false, .rendererError (.styleNotReady ⟨"s"⟩ 0)) (by decide +kernel) ⟨rfl, rfl⟩

open WorkerSession in
theorem rendered_twice_agrees :
    ((twice .ok).foldl step (start 1)).outcomes = [(true, .completed), (false, .completed)] ∧
      ((twice .ok).foldl step (start 1)).Agrees := by
  have hstep : ∀ session action, steady session action = true → (steadyMachine 1).step session (session.step action) :=
    fun session action h => ⟨action, h, rfl⟩
  have hreached : Reachable (steadyMachine 1) ((twice .ok).foldl step (start 1)) :=
    Reachable.init.foldl_checked steady hstep (by decide +kernel)
  exact ⟨by decide +kernel, warm_state_agrees hreached⟩

end Example

end Mappf.Biei
