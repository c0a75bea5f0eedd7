import Mappf.Lib.Log
import Mappf.Biei.WorkerPool
import Mappf.Lib.Tally

/-! # Charged slots

A slot of a worker is charged to a reservation or to a completion, and every charge has one place: a caller
between its exchange and the end of its guard, the channel, the hand of a worker, or a receiver that is being
dropped. `Balance` says what a step does to the depths and to the charges. -/
namespace Mappf.Biei

variable {n : ℕ} {ρ : Type}

/-! ## Charges -/

namespace CallerPhase

/-- The worker a caller has a slot of, reserved but not yet covered by a completion. -/
def reservation : CallerPhase n → Option (Fin n)
  | .rechecking idx _ _ | .undoing idx _ | .marking idx _ => some idx
  | _ => none

def completion : CallerPhase n → Option (WorkerCompletion n)
  | .sending _ completion => some completion
  | .dropping completion _ _ => some completion
  | _ => none

def charge (phase : CallerPhase n) : Option (Fin n) :=
  phase.reservation.or (phase.completion.map WorkerCompletion.workerIdx)

end CallerPhase

namespace WorkerPhase

/-- The commands in a worker's hand whose completion is not dropped yet. -/
def charged : WorkerPhase n → List (Command n)
  | .inspecting command | .bouncing command _ | .running command _ | .finishing command _ _ _ => [command]
  | .closing (some (command, _)) commands => command :: commands
  | .closing none commands => commands
  | .idle | .returning _ | .responding _ _ | .exited => []

def held : WorkerPhase n → List (Command n)
  | .inspecting command | .bouncing command _ | .running command _ | .finishing command _ _ _
  | .returning command | .responding command _ => [command]
  | .closing (some (command, _)) commands => command :: commands
  | .closing none commands => commands
  | .idle | .exited => []

end WorkerPhase

/-- The commands a worker's completions belong to: those in its channel and those in its hand. -/
def Worker.charged (worker : Worker n) : List (Command n) :=
  PoolSession.commands worker.channel ++ worker.phase.charged

def Worker.held (worker : Worker n) : List (Command n) :=
  PoolSession.commands worker.channel ++ worker.phase.held

namespace PoolSession

def one (p : Prop) [Decidable p] : ℕ := if p then 1 else 0

variable (session : PoolSession n ρ)

def outstandingReservations (idx : Fin n) : ℕ :=
  tally (fun caller => one (caller.phase.reservation = some idx)) session.callers

def unfinishedCompletions (idx : Fin n) : ℕ :=
  tally (fun caller => one (caller.phase.completion.map WorkerCompletion.workerIdx = some idx)) session.callers +
    ∑ j, tally (fun command => one (command.completion.workerIdx = idx)) (session.workers j).charged

def chargedTo (call : ℕ) (idx : Fin n) : ℕ :=
  one ((session.callers[call]?).bind (fun caller => caller.phase.charge) = some idx) +
    ∑ j, tally (fun command => one (command.call = call ∧ command.completion.workerIdx = idx))
      (session.workers j).charged

/-! ## What a step does to the charges -/

def charges (idx : Fin n) : ℕ :=
  tally (fun caller => one (caller.phase.charge = some idx)) session.callers +
    ∑ j, tally (fun command => one (command.completion.workerIdx = idx)) (session.workers j).charged

theorem charges_eq (s : PoolSession n ρ) (idx : Fin n) :
    s.charges idx = s.outstandingReservations idx + s.unfinishedCompletions idx := by
  have hcaller : ∀ caller : Caller n ρ, one (caller.phase.charge = some idx) =
      one (caller.phase.reservation = some idx) + one (caller.phase.completion.map WorkerCompletion.workerIdx = some idx) := by
    intro caller
    cases caller.phase <;> simp [one, CallerPhase.charge, CallerPhase.reservation, CallerPhase.completion]
  have hcallers : tally (fun caller => one (caller.phase.charge = some idx)) s.callers =
      tally (fun caller => one (caller.phase.reservation = some idx)) s.callers +
        tally (fun caller => one (caller.phase.completion.map WorkerCompletion.workerIdx = some idx)) s.callers := by
    induction s.callers with
    | nil => rfl
    | cons caller callers ih =>
      rw [tally_cons, tally_cons, tally_cons, hcaller, ih]
      omega
  unfold charges outstandingReservations unfinishedCompletions
  omega

structure Alike (session session' : PoolSession n ρ) : Prop where
  callers : session'.callers = session.callers
  workers : session'.workers = session.workers

theorem Alike.charges {s s' : PoolSession n ρ} (h : Alike s s') (idx : Fin n) : s'.charges idx = s.charges idx := by
  unfold PoolSession.charges
  rw [h.callers, h.workers]

section

variable (s : PoolSession n ρ)

theorem Alike.refl : Alike s s := ⟨rfl, rfl⟩

theorem clearIfLatest_alike (compl : WorkerCompletion n) :
    Alike s (s.clearIfLatest compl) := ⟨rfl, rfl⟩

theorem giveBack_alike (idx : Fin n) : Alike s (s.giveBack idx) := ⟨rfl, rfl⟩

theorem queueDepth_alike (queueDepth : Fin n → ℕ) : Alike s { s with queueDepth } := ⟨rfl, rfl⟩

theorem setAvailable_alike (idx : Fin n) (avail : Bool) :
    Alike s (s.setAvailable idx avail) := ⟨rfl, rfl⟩

theorem state_alike (state : PoolState n) : Alike s { s with state } := ⟨rfl, rfl⟩

theorem charges_setCaller {call : ℕ} {caller : Caller n ρ}
    (hcaller : s.callers[call]? = some caller) (caller' : Caller n ρ) (idx : Fin n) :
    (s.setCaller call caller').charges idx + one (caller.phase.charge = some idx) =
      s.charges idx + one (caller'.phase.charge = some idx) := by
  have := tally_set (fun caller => one (caller.phase.charge = some idx)) hcaller caller'
  unfold charges setCaller
  dsimp only
  omega

theorem charges_setWorker (j : Fin n) (worker : Worker n) (idx : Fin n) : (s.setWorker j worker).charges idx +
        tally (fun cmd => one (cmd.completion.workerIdx = idx)) (s.workers j).charged =
      s.charges idx + tally (fun cmd => one (cmd.completion.workerIdx = idx)) worker.charged := by
  have := sum_update (fun worker : Worker n =>
    tally (fun cmd => one (cmd.completion.workerIdx = idx)) worker.charged) s.workers j worker
  unfold charges setWorker
  dsimp only
  omega

theorem respond_cases (cmd : Command n) (reply : WorkerReply) : s.respond cmd reply = s ∨
      ∃ caller, s.callers[cmd.call]? = some caller ∧
        s.respond cmd reply = s.setCaller cmd.call { caller with reply := some reply } := by
  unfold respond
  split
  · rename_i caller hcaller
    split_ifs
    · exact .inr ⟨caller, hcaller, rfl⟩
    · exact .inl rfl
  · exact .inl rfl

theorem signalStarted_cases (cmd : Command n) : s.signalStarted cmd = s ∨
      ∃ caller, s.callers[cmd.call]? = some caller ∧
        s.signalStarted cmd = s.setCaller cmd.call { caller with started := true } := by
  unfold signalStarted
  split
  · rename_i caller hcaller
    split_ifs
    · exact .inr ⟨caller, hcaller, rfl⟩
    · exact .inl rfl
  · exact .inl rfl

end

/-- What a step does to depths and charges: nothing, or one slot taken below the limit, or one given back. -/
inductive Balance (config : PoolConfig ρ) (session session' : PoolSession n ρ) : Prop
  | even (hdepth : session'.queueDepth = session.queueDepth)
      (hcharges : ∀ idx, session'.charges idx = session.charges idx)
  | took (idx : Fin n) (hfree : session.queueDepth idx < config.hardLimit)
      (hdepth : session'.queueDepth = Function.update session.queueDepth idx (session.queueDepth idx + 1))
      (hcharges : ∀ j, session'.charges j = session.charges j + one (j = idx))
  | gave (idx : Fin n) (hdepth : session'.queueDepth =
        Function.update session.queueDepth idx (fetchSub (session.queueDepth idx)))
      (hcharges : ∀ j, session'.charges j + one (j = idx) = session.charges j)

section Steps

variable {cfg : PoolConfig ρ} {s s' : PoolSession n ρ} {call : ℕ} {caller : Caller n ρ}

theorem Balance.refl (cfg : PoolConfig ρ) (s : PoolSession n ρ) : Balance cfg s s :=
  .even rfl (fun _ => rfl)

variable {caller' : Caller n ρ} {idx j : Fin n} {worker : Worker n}

theorem balance_caller (hcaller : s.callers[call]? = some caller) (halike : Alike s s')
    (hdepth : s'.queueDepth = s.queueDepth) (hcharge : caller'.phase.charge = caller.phase.charge) :
    Balance cfg s (s'.setCaller call caller') := by
  refine .even hdepth ?_
  intro idx
  have hset := charges_setCaller s' (by rw [halike.callers]; exact hcaller) caller' idx
  rw [hcharge, halike.charges] at hset
  omega

theorem Balance.message {mid : PoolSession n ρ} (h : Balance cfg s mid)
    (hcaller : mid.callers[call]? = some caller) (hcharge : caller'.phase.charge = caller.phase.charge) :
    Balance cfg s (mid.setCaller call caller') := by
  have hchg : ∀ idx, (mid.setCaller call caller').charges idx = mid.charges idx := by
    intro idx
    have hset := charges_setCaller mid hcaller caller' idx
    rw [hcharge] at hset
    omega
  cases h with
  | even hdepth heven => exact .even hdepth (fun idx => (hchg idx).trans (heven idx))
  | took idx hfree hdepth htook => exact .took idx hfree hdepth (fun j => (hchg j).trans (htook j))
  | gave idx hdepth hgave => exact .gave idx hdepth (fun j => by rw [hchg]; exact hgave j)

theorem one_some : one (some idx = some j) = one (j = idx) := by simp [one, eq_comm]

theorem one_none : one (none = some j) = 0 := by simp [one]

theorem balance_caller_gives (hcaller : s.callers[call]? = some caller)
    (hbef : caller.phase.charge = some idx) (hafter : caller'.phase.charge = none) :
    Balance cfg s ((s.giveBack idx).setCaller call caller') := by
  have halike : Alike s (s.giveBack idx) := ⟨rfl, rfl⟩
  refine .gave idx rfl ?_
  intro j
  have hset := charges_setCaller (s.giveBack idx) hcaller caller' j
  rw [hbef, hafter, halike.charges, one_some, one_none] at hset
  omega

theorem balance_caller_takes (hcaller : s.callers[call]? = some caller) (halike : Alike s s')
    (hdepth : s'.queueDepth = Function.update s.queueDepth idx (s.queueDepth idx + 1))
    (hbef : caller.phase.charge = none) (hafter : caller'.phase.charge = some idx)
    (hfree : s.queueDepth idx < cfg.hardLimit) : Balance cfg s (s'.setCaller call caller') := by
  refine .took idx hfree hdepth ?_
  intro j
  have hset := charges_setCaller s' (by rw [halike.callers]; exact hcaller) caller' j
  rw [hbef, hafter, halike.charges, one_some, one_none] at hset
  omega

theorem balance_worker (halike : Alike s s') (hdepth : s'.queueDepth = s.queueDepth)
    (hchg : ∀ f, tally f worker.charged = tally f (s.workers j).charged) : Balance cfg s (s'.setWorker j worker) := by
  refine .even hdepth ?_
  intro idx
  have hset := charges_setWorker s' j worker idx
  rw [halike.charges, halike.workers, hchg] at hset
  omega

theorem balance_worker_gives {cmd : Command n} (hidx : cmd.completion.workerIdx = idx)
    (hchg : ∀ f, tally f worker.charged + f cmd = tally f (s.workers j).charged) :
    Balance cfg s ((s.giveBack idx).setWorker j worker) := by
  have halike : Alike s (s.giveBack idx) := ⟨rfl, rfl⟩
  refine .gave idx rfl ?_
  intro i
  have hset := charges_setWorker (s.giveBack idx) j worker i
  rw [halike.charges, halike.workers, ← hchg] at hset
  have hone : one (cmd.completion.workerIdx = i) = one (i = idx) := by rw [hidx]; simp [one, eq_comm]
  omega

theorem balance_send (hcaller : s.callers[call]? = some caller) (cmd : Command n)
    (hbef : caller.phase.charge = some cmd.completion.workerIdx) (hafter : caller'.phase.charge = none)
    (hchg : ∀ f, tally f worker.charged = tally f (s.workers j).charged + f cmd) :
    Balance cfg s ((s.setWorker j worker).setCaller call caller') := by
  refine .even rfl ?_
  intro idx
  have hwork := charges_setWorker s j worker idx
  have hset := charges_setCaller (s.setWorker j worker) hcaller caller' idx
  rw [hchg] at hwork
  rw [hbef, hafter, one_none] at hset
  have hone : one (some cmd.completion.workerIdx = some idx) = one (cmd.completion.workerIdx = idx) := by
    simp [one]
  omega

theorem publish_alike (s : PoolSession n ρ) (j : Fin n) (avail : Option Bool) :
    Alike s (s.publish j avail) ∧ (s.publish j avail).queueDepth = s.queueDepth := by
  cases avail <;> exact ⟨⟨rfl, rfl⟩, rfl⟩

end Steps

end PoolSession
end Mappf.Biei
