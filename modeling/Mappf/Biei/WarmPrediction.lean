import Mappf.Biei.PoolCounts
import Mappf.Biei.WorkerCharges
import Mappf.Lib.Announcement

/-! # The pool's prediction of warm workers

A profile is marked as loaded before its command is sent, so the prediction is right once the worker has drained
only if the command that was marked last is also sent last. Nothing in the code makes it so: the mark is made under a
lock, the send is not. The prediction is right along the runs in which no command overtakes the one marked last
(`inOrder`). -/
namespace Mappf.Biei
open Function List

open Styles (StyleRevision)

variable {n : ℕ} {ρ : Type}

/-! ## Commands that can still clear the prediction -/

/-- The completion a caller holds, unless its drop has already taken the lock. -/
def CallerPhase.live : CallerPhase n → Option (WorkerCompletion n)
  | .sending _ completion => some completion
  | .dropping completion .clear _ => some completion
  | .dropping _ .release _ | .choosing _ | .reserving _ _ | .loading _ _ | .comparing _ _ _ | .rechecking _ _ _
  | .undoing _ _ | .marking _ _ | .waiting _ | .ended _ => none

/-- The commands in a worker's hand that have neither completed nor taken the lock. -/
def WorkerPhase.live : WorkerPhase n → List (Command n)
  | .inspecting command | .running command _ | .bouncing command .clear | .finishing command _ _ .clear => [command]
  | .closing (some (command, .clear)) commands => command :: commands
  | .closing (some (_, .release)) commands | .closing none commands => commands
  | .bouncing _ .release | .finishing _ _ _ .release | .idle | .returning _ | .responding _ _ | .exited => []

/-- In the order in which the worker takes them. -/
def Worker.queue (worker : Worker n) : List (Command n) := worker.phase.live ++ PoolSession.commands worker.channel

namespace PoolSession

def queue (session : PoolSession n ρ) (idx : Fin n) : List (Command n) := (session.workers idx).queue

def liveAt (session : PoolSession n ρ) (call : ℕ) : Option (WorkerCompletion n) :=
  (session.callers[call]?).bind (fun caller => caller.phase.live)

def profileOf (config : PoolConfig ρ) (session : PoolSession n ρ) (call : ℕ) : Option WorkerProfile :=
  (session.callers[call]?).map (fun caller => caller.task.workerProfile config.renderMode)

def latest (session : PoolSession n ρ) (idx : Fin n) : WorkerCompletion n := ⟨idx, session.state.dispatchGenerations idx⟩

end PoolSession

/-! ## What a worker finished last -/

structure WatchedPool (n : ℕ) (ρ : Type) where
  session : PoolSession n ρ
  /-- The profile of the command whose stages ended last, and how they ended. -/
  finished : Fin n → Option (Option WorkerProfile × TaskResult) := fun _ => none

namespace WatchedPool

def record (config : PoolConfig ρ) (pool : WatchedPool n ρ) :
    PoolAction n ρ → Fin n → Option (Option WorkerProfile × TaskResult)
  | .worker idx (.finish result _) =>
    match (pool.session.workers idx).phase with
    | .running command _ => update pool.finished idx (some (pool.session.profileOf config command.call, result))
    | _ => pool.finished
  | _ => pool.finished

def step (config : PoolConfig ρ) (pool : WatchedPool n ρ) (action : PoolAction n ρ) : WatchedPool n ρ where
  session := pool.session.step config action
  finished := pool.record config action

end WatchedPool

/-! ## What a step does -/

namespace PoolSession

structure KeepsTasks (config : PoolConfig ρ) (session session' : PoolSession n ρ) : Prop where
  length : session.callers.length ≤ session'.callers.length
  profiles : ∀ call < session.callers.length, session'.profileOf config call = session.profileOf config call

/-- What a step can do to the prediction and to the commands that can still clear it. -/
inductive Move (config : PoolConfig ρ) (action : PoolAction n ρ) (session session' : PoolSession n ρ) : Prop
  | quiet (hstate : session'.state = session.state) (hlive : session'.liveAt = session.liveAt)
      (hqueue : session'.queue = session.queue)
  | marked (call : ℕ) (caller : Caller n ρ) (idx : Fin n) (depth : ℕ) (haction : action = .caller call .proceed)
      (hcaller : session.callers[call]? = some caller)
      (hphase : caller.phase = .marking idx depth) (hstate : session'.state = (session.predict config caller idx).1)
      (hlive : session'.liveAt = update session.liveAt call (some ⟨idx, (session.predict config caller idx).2⟩))
      (hqueue : session'.queue = session.queue)
  | sent (command : Command n) (caller : Caller n ρ) (overflow : Bool) (haction : action = .caller command.call .proceed)
      (hcaller : session.callers[command.call]? = some caller)
      (hphase : caller.phase = .sending overflow command.completion)
      (hroom : (session.workers command.completion.workerIdx).receiverAlive = true ∧
        (session.workers command.completion.workerIdx).channel.length < channelCapacity)
      (hstate : session'.state = session.state) (hlive : session'.liveAt = update session.liveAt command.call none)
      (hqueue : session'.queue = update session.queue command.completion.workerIdx
        (session.queue command.completion.workerIdx ++ [command]))
  | withdrawn (call : ℕ) (completion : WorkerCompletion n) (hheld : session.liveAt call = some completion)
      (hstate : session'.state = session.state.clearLoadedIfLatest completion.workerIdx completion.dispatchGeneration)
      (hlive : session'.liveAt = update session.liveAt call none) (hqueue : session'.queue = session.queue)
  | dropped (idx : Fin n) (command : Command n) (rest : List (Command n)) (hhead : session.queue idx = command :: rest)
      (hstate : session'.state =
        session.state.clearLoadedIfLatest command.completion.workerIdx command.completion.dispatchGeneration)
      (hlive : session'.liveAt = session.liveAt) (hqueue : session'.queue = update session.queue idx rest)

section Observables

variable {cfg : PoolConfig ρ} {s s' : PoolSession n ρ} {call : ℕ} {caller caller' : Caller n ρ}
  {action : PoolAction n ρ} {mid : PoolSession n ρ} {idx : Fin n}

theorem liveAt_setCaller (hsame : mid.callers = s.callers)
    (hcaller : s.callers[call]? = some caller) (caller' : Caller n ρ) :
    (mid.setCaller call caller').liveAt = update s.liveAt call caller'.phase.live := by
  have hlt := lt_length hcaller
  funext other
  unfold liveAt setCaller
  rw [hsame]
  by_cases hother : other = call
  · subst hother
    rw [getElem?_set_self hlt, update_self]
    rfl
  · rw [getElem?_set_ne (Ne.symm hother), update_of_ne hother]

theorem liveAt_setCaller_same (hsame : mid.callers = s.callers)
    (hcaller : s.callers[call]? = some caller) (hlive : caller'.phase.live = caller.phase.live) :
    (mid.setCaller call caller').liveAt = s.liveAt := by
  rw [liveAt_setCaller hsame hcaller, hlive]
  have hself : s.liveAt call = caller.phase.live := by
    unfold liveAt
    rw [hcaller]
    rfl
  rw [← hself, update_eq_self]

theorem queue_setWorker (s : PoolSession n ρ) (idx : Fin n) (worker : Worker n) :
    (s.setWorker idx worker).queue = update s.queue idx worker.queue := by
  funext j
  unfold queue setWorker
  dsimp only
  by_cases hj : j = idx
  · subst hj
    rw [update_self, update_self]
  · rw [update_of_ne hj, update_of_ne hj]

theorem queue_setWorker_same {worker : Worker n} (h : worker.queue = s.queue idx) :
    (s.setWorker idx worker).queue = s.queue := by
  rw [queue_setWorker, h, update_eq_self]

theorem KeepsTasks.of_callers (h : s'.callers = s.callers) : KeepsTasks cfg s s' :=
  ⟨by rw [h], fun call _ => by unfold profileOf; rw [h]⟩

theorem KeepsTasks.setCaller (hsame : mid.callers = s.callers)
    (hcaller : s.callers[call]? = some caller) (htask : caller'.task = caller.task) :
    KeepsTasks cfg s (mid.setCaller call caller') := by
  refine ⟨by rw [PoolSession.setCaller, length_set, hsame], fun other hlt => ?_⟩
  unfold profileOf PoolSession.setCaller
  rw [hsame]
  by_cases hother : other = call
  · subst hother
    rw [getElem?_set_self hlt, hcaller, Option.map_some, Option.map_some, htask]
  · rw [getElem?_set_ne (Ne.symm hother)]

theorem KeepsTasks.trans (h : KeepsTasks cfg s mid) (h' : KeepsTasks cfg mid s') : KeepsTasks cfg s s' :=
  ⟨h.length.trans h'.length, fun call hlt =>
    (h'.profiles call (Nat.lt_of_lt_of_le hlt h.length)).trans (h.profiles call hlt)⟩

structure Unseen (config : PoolConfig ρ) (session session' : PoolSession n ρ) : Prop where
  state : session'.state = session.state
  live : session'.liveAt = session.liveAt
  queue : session'.queue = session.queue
  tasks : KeepsTasks config session session'

theorem Unseen.message (hcaller : s.callers[call]? = some caller) (hphase : caller'.phase = caller.phase)
    (htask : caller'.task = caller.task) : Unseen cfg s (s.setCaller call caller') :=
  ⟨rfl, liveAt_setCaller_same rfl hcaller (by rw [hphase]), rfl, .setCaller rfl hcaller htask⟩

theorem Unseen.refl (s : PoolSession n ρ) : Unseen cfg s s := ⟨rfl, rfl, rfl, .of_callers rfl⟩

theorem respond_unseen (s : PoolSession n ρ) (cmd : Command n) (reply : WorkerReply) :
    Unseen cfg s (s.respond cmd reply) := by
  obtain hsame | ⟨caller, hcaller, hset⟩ := s.respond_cases cmd reply
  · rw [hsame]
    exact .refl s
  · rw [hset]
    exact .message hcaller rfl rfl

theorem signalStarted_unseen (s : PoolSession n ρ) (cmd : Command n) : Unseen cfg s (s.signalStarted cmd) := by
  obtain hsame | ⟨caller, hcaller, hset⟩ := s.signalStarted_cases cmd
  · rw [hsame]
    exact .refl s
  · rw [hset]
    exact .message hcaller rfl rfl

def Moves (config : PoolConfig ρ) (action : PoolAction n ρ) (session session' : PoolSession n ρ) : Prop :=
  Move config action session session' ∧ KeepsTasks config session session'

theorem Moves.unseen (h : Moves cfg action s mid) (hafter : Unseen cfg mid s') : Moves cfg action s s' := by
  refine ⟨?_, h.2.trans hafter.tasks⟩
  cases h.1 with
  | quiet hstate hlive hqueue =>
    exact .quiet (hafter.state.trans hstate) (hafter.live.trans hlive) (hafter.queue.trans hqueue)
  | marked call caller idx depth hact hcaller hphase hstate hlive hqueue =>
    exact .marked call caller idx depth hact hcaller hphase (hafter.state.trans hstate) (hafter.live.trans hlive)
      (hafter.queue.trans hqueue)
  | sent cmd caller overflow hact hcaller hphase hroom hstate hlive hqueue =>
    exact .sent cmd caller overflow hact hcaller hphase hroom (hafter.state.trans hstate) (hafter.live.trans hlive)
      (hafter.queue.trans hqueue)
  | withdrawn call completion hheld hstate hlive hqueue =>
    exact .withdrawn call completion hheld (hafter.state.trans hstate) (hafter.live.trans hlive) (hafter.queue.trans hqueue)
  | dropped idx cmd rest hhead hstate hlive hqueue =>
    exact .dropped idx cmd rest hhead (hafter.state.trans hstate) (hafter.live.trans hlive) (hafter.queue.trans hqueue)

theorem Moves.ofCaller (halike : Alike s mid) (hstate : mid.state = s.state)
    (hcaller : s.callers[call]? = some caller) (hlive : caller'.phase.live = caller.phase.live)
    (htask : caller'.task = caller.task) : Moves cfg action s (mid.setCaller call caller') := by
  refine ⟨.quiet hstate (liveAt_setCaller_same halike.callers hcaller hlive) ?_, .setCaller halike.callers hcaller htask⟩
  funext idx
  unfold queue setCaller
  rw [halike.workers]

theorem Moves.refl (s : PoolSession n ρ) : Moves cfg action s s := ⟨.quiet rfl rfl rfl, .of_callers rfl⟩

theorem stepCaller_moves (hcaller : s.callers[call]? = some caller) (input : CallerInput n) :
    Moves cfg (.caller call input) s (s.stepCaller cfg call caller input) := by
  have hquiet : ∀ {phase phase' : CallerPhase n}, caller.phase = phase → phase'.live = phase.live →
      Moves cfg (.caller call input) s (s.setCaller call { caller with phase := phase' }) := by
    rintro _ _ rfl hlive
    exact Moves.ofCaller (.refl s) rfl hcaller hlive rfl
  have hrefus : ∀ hinted : Bool, (afterRefusal hinted : CallerPhase n).live = none := by
    intro hinted
    cases hinted <;> rfl
  cases input with
  | proceed =>
    unfold stepCaller
    dsimp only
    split
    case h_1 hint hphase =>
      split_ifs <;> exact hquiet hphase rfl
    case h_2 idx hinted hphase =>
      split_ifs
      · exact hquiet hphase rfl
      · exact hquiet hphase (hrefus hinted)
    case h_3 idx hinted hphase => exact hquiet hphase rfl
    case h_4 idx hinted depth hphase =>
      split_ifs <;> exact hquiet hphase rfl
    case h_5 idx hinted hphase =>
      refine Moves.ofCaller (s.giveBack_alike idx) rfl hcaller ?_ rfl
      rw [hphase, hrefus]
      rfl
    case h_6 idx depth hphase =>
      exact ⟨.marked call caller idx depth rfl hcaller hphase rfl (liveAt_setCaller rfl hcaller _) rfl,
        .setCaller rfl hcaller rfl⟩
    case h_7 admittedAtOverflow completion hphase =>
      split_ifs with halive hcap
      · exact hquiet hphase rfl
      · let cmd : Command n := { call, attempt := caller.attempt, admittedAtOverflow, completion }
        refine ⟨.sent cmd caller _ rfl hcaller hphase ⟨Bool.eq_true_of_not_eq_false halive, hcap⟩ rfl
          (liveAt_setCaller rfl hcaller _) ?_,
          .setCaller rfl hcaller rfl⟩
        refine (queue_setWorker s completion.workerIdx _).trans (congrArg _ ?_)
        simp [Worker.queue, queue, commands, cmd]
      · exact .refl s
    case h_8 completion res hphase =>
      refine ⟨.withdrawn call completion ?_ rfl (liveAt_setCaller rfl hcaller _) rfl, .setCaller rfl hcaller rfl⟩
      unfold liveAt
      rw [hcaller, Option.bind_some, hphase]
      rfl
    case h_9 completion res hphase =>
      refine Moves.ofCaller (s.giveBack_alike completion.workerIdx) rfl hcaller ?_ rfl
      rw [hphase]
      rfl
    case h_10 started hphase =>
      split
      · exact hquiet hphase rfl
      · exact Moves.ofCaller (.refl s) rfl hcaller (by rw [hphase]; rfl) rfl
      · exact hquiet hphase rfl
      · split_ifs
        · exact hquiet hphase rfl
        · exact .refl s
    case h_11 => exact .refl s
  | pick choice =>
    unfold stepCaller
    dsimp only
    split
    · rename_i hphase
      cases choice <;> exact hquiet hphase rfl
    · exact .refl s
  | compareExchange spuriousFailure =>
    unfold stepCaller
    dsimp only
    split
    · rename_i idx hinted cur hphase
      split_ifs
      · exact hquiet hphase (hrefus hinted)
      · refine Moves.ofCaller (s.queueDepth_alike _) rfl hcaller ?_ rfl
        rw [hphase]
        rfl
      · exact hquiet hphase rfl
    · exact .refl s
  | timeout =>
    unfold stepCaller
    dsimp only
    split
    · rename_i hphase
      split_ifs
      · exact hquiet hphase rfl
      · exact .refl s
    · exact .refl s
  | cancel =>
    unfold stepCaller
    dsimp only
    split
    · rename_i admittedAtOverflow completion hphase
      exact hquiet hphase rfl
    · rename_i started hphase
      exact hquiet hphase rfl
    · exact .refl s

theorem Moves.worker {worker : Worker n} (halike : Alike s s')
    (hstate : s'.state = s.state) (hqueue : worker.queue = (s.workers idx).queue) :
    Moves cfg action s (s'.setWorker idx worker) := by
  refine ⟨.quiet hstate ?_ ?_, .of_callers halike.callers⟩
  · funext call
    unfold liveAt setWorker
    rw [halike.callers]
  · have hsame : s'.queue = s.queue := by
      funext j
      unfold queue
      rw [halike.workers]
    refine (queue_setWorker_same ?_).trans hsame
    rw [hqueue, hsame]
    rfl

theorem Moves.drops {worker : Worker n} {cmd : Command n} (hqueue : (s.workers idx).queue = cmd :: worker.queue) :
    Moves cfg action s ((s.clearIfLatest cmd.completion).setWorker idx worker) :=
  ⟨.dropped idx cmd worker.queue hqueue rfl rfl (queue_setWorker _ idx worker), .of_callers rfl⟩

theorem Moves.phase {old phase : WorkerPhase n} (halike : Alike s s') (hstate : s'.state = s.state)
    (hphase : (s.workers idx).phase = old) (hlive : phase.live = old.live) :
    Moves cfg action s (s'.setWorker idx { s.workers idx with phase }) := by
  refine Moves.worker halike hstate ?_
  unfold Worker.queue
  rw [hlive, hphase]

theorem stepWorker_moves (idx : Fin n) {input : WorkerInput} (hinput : ∀ res avail, input ≠ .finish res avail) :
    Moves cfg action s (s.stepWorker idx input) := by
  have hdrop : ∀ {old phase : WorkerPhase n} {cmd : Command n}, (s.workers idx).phase = old →
      old.live = cmd :: phase.live →
      Moves cfg action s ((s.clearIfLatest cmd.completion).setWorker idx { s.workers idx with phase }) := by
    intro old phase cmd hphase hlive
    refine Moves.drops ?_
    unfold Worker.queue
    rw [hphase, hlive, cons_append]
  cases input with
  | proceed =>
    unfold stepWorker
    dsimp only
    split
    case h_1 hphase =>
      split
      · rename_i cmd channel hchan
        refine Moves.unseen (Moves.worker (.refl s) rfl ?_) (signalStarted_unseen _ cmd)
        simp [Worker.queue, WorkerPhase.live, hphase, hchan, commands]
      · rename_i channel hchan
        refine Moves.worker (.refl s) rfl ?_
        simp [Worker.queue, WorkerPhase.live, hphase, hchan, commands]
      · exact .refl s
    case h_2 cmd hphase => exact hdrop hphase rfl
    case h_3 cmd hphase => exact .phase (s.giveBack_alike _) rfl hphase rfl
    case h_4 cmd hphase => exact .unseen (.phase (.refl s) rfl hphase (by rfl)) (respond_unseen _ cmd _)
    case h_5 cmd res responded hphase => exact hdrop hphase rfl
    case h_6 cmd res responded hphase => exact .phase (s.giveBack_alike _) rfl hphase (by cases responded <;> rfl)
    case h_7 cmd res hphase => exact .unseen (.phase (.refl s) rfl hphase (by rfl)) (respond_unseen _ cmd _)
    case h_8 cmd commands hphase => exact hdrop hphase rfl
    case h_9 cmd commands hphase => exact .phase (s.giveBack_alike _) rfl hphase rfl
    case h_10 cmd commands hphase => exact .unseen (.phase (.refl s) rfl hphase (by rfl)) (respond_unseen _ cmd _)
    case h_11 hphase => exact .phase (.refl s) rfl hphase rfl
    case h_12 => exact .refl s
  | repair avail =>
    unfold stepWorker
    dsimp only
    split
    · exact ⟨.quiet rfl rfl rfl, .of_callers rfl⟩
    · exact .refl s
  | inspect repaired =>
    unfold stepWorker
    dsimp only
    split
    · rename_i cmd hphase
      have hpub : (s.publish idx repaired).state = s.state := by cases repaired <;> rfl
      refine .phase (s.publish_alike idx repaired).1 hpub hphase ?_
      split_ifs <;> rfl
    · exact .refl s
  | deadline =>
    unfold stepWorker
    dsimp only
    split
    · rename_i cmd hphase
      split_ifs
      · exact .unseen (.phase (s.setAvailable_alike idx false) rfl hphase (by rfl)) (respond_unseen _ cmd _)
      · exact .refl s
    · exact .refl s
  | finish res avail => exact absurd rfl (hinput res avail)
  | panic =>
    unfold stepWorker
    dsimp only
    split
    · rename_i cmd responded hphase
      refine Moves.worker (.refl s) rfl ?_
      simp [Worker.queue, WorkerPhase.live, hphase, commands]
    · exact .refl s

theorem step_moves (cfg : PoolConfig ρ) (s : PoolSession n ρ)
    (hact : ∀ idx res avail, action ≠ .worker idx (.finish res avail)) : Moves cfg action s (s.step cfg action) := by
  cases action with
  | process task addlayerSourceId hint =>
    refine ⟨.quiet rfl ?_ rfl, ?_, ?_⟩
    · funext call
      unfold liveAt step
      by_cases hlt : call < s.callers.length
      · rw [getElem?_append_left hlt]
      · rw [getElem?_append_right (by omega), getElem?_eq_none (by omega : s.callers.length ≤ call)]
        cases call - s.callers.length <;> rfl
    · simp [step]
    · intro call hlt
      unfold profileOf step
      rw [getElem?_append_left hlt]
  | caller call input =>
    unfold step
    dsimp only
    split
    · rename_i caller hcaller
      exact stepCaller_moves hcaller input
    · exact .refl s
  | worker idx input =>
    exact stepWorker_moves idx (fun res avail h => hact idx res avail (by rw [h]))
  | shutdown idx =>
    unfold step
    dsimp only
    split_ifs
    · refine Moves.worker (.refl s) rfl ?_
      simp [Worker.queue, commands]
    · exact .refl s
  | tick elapsed => exact ⟨.quiet rfl rfl rfl, .of_callers rfl⟩

/-- The end of the first command's stages: a completed one leaves the queue, any other stays until it takes the
lock. -/
structure Finishes (config : PoolConfig ρ) (session : PoolSession n ρ) (idx : Fin n) (rest : List (Command n))
    (result : TaskResult) (session' : PoolSession n ρ) : Prop where
  state : session'.state = session.state
  live : session'.liveAt = session.liveAt
  queue : session'.queue = update session.queue idx
    (if finishStage result = .release then rest else session.queue idx)
  tasks : KeepsTasks config session session'

theorem Finishes.unseen {rest : List (Command n)} {res : TaskResult}
    (h : Finishes cfg s idx rest res mid) (hafter : Unseen cfg mid s') : Finishes cfg s idx rest res s' :=
  ⟨hafter.state.trans h.state, hafter.live.trans h.live, hafter.queue.trans h.queue, h.tasks.trans hafter.tasks⟩

theorem step_finish (cfg : PoolConfig ρ) (s : PoolSession n ρ) (idx : Fin n) (res : TaskResult)
    (avail : Option Bool) {cmd : Command n} {responded : Bool}
    (hphase : (s.workers idx).phase = .running cmd responded) :
    ∃ rest, s.queue idx = cmd :: rest ∧
      Finishes cfg s idx rest res (s.step cfg (.worker idx (.finish res avail))) := by
  have hhead : s.queue idx = cmd :: commands (s.workers idx).channel := by
    unfold queue Worker.queue
    rw [hphase]
    rfl
  have hpub : (s.publish idx avail).state = s.state := by cases avail <;> rfl
  obtain ⟨halike, -⟩ := s.publish_alike idx avail
  -- the worker goes on with its channel, whether it still has a reply to send or not
  have hset : ∀ responded', Finishes cfg s idx (commands (s.workers idx).channel) res
      ((s.publish idx avail).setWorker idx
        { s.workers idx with phase := .finishing cmd res responded' (finishStage res) }) := by
    intro responded'
    refine ⟨hpub, ?_, ?_, .of_callers halike.callers⟩
    · funext call
      unfold liveAt setWorker
      rw [halike.callers]
    · have hsame : (s.publish idx avail).queue = s.queue := by
        funext j
        unfold queue
        rw [halike.workers]
      rw [queue_setWorker, hsame, hhead]
      congr 1
      cases res <;> rfl
  refine ⟨commands (s.workers idx).channel, hhead, ?_⟩
  unfold step stepWorker
  dsimp only
  rw [hphase]
  dsimp only
  split_ifs
  · exact (hset true).unseen (respond_unseen _ cmd _)
  · exact hset responded

end Observables

end PoolSession

end Mappf.Biei
