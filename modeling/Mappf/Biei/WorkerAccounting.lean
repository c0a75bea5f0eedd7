import Mappf.Biei.WorkerCharges

/-! # Queue accounting

The depth of a worker counts its charges, along every session. The task of a call is in one place, which
moves with the command and comes back with a redispatch; so no call is charged twice. -/
namespace Mappf.Biei
open Worker CallerPhase

variable {n : ℕ} {ρ : Type}

/-! ## Where a task is -/

def CallerPhase.tasks : CallerPhase n → ℕ
  | .waiting _ | .ended _ => 0
  | _ => 1

/-- How many copies of its task a caller has: its own, and one that came back in a reply. -/
def Caller.tasks (caller : Caller n ρ) : ℕ :=
  caller.phase.tasks + PoolSession.one (caller.reply = some .redispatch)

namespace PoolSession

def holders (session : PoolSession n ρ) (call : ℕ) : ℕ :=
  (session.callers[call]?).elim 0 Caller.tasks +
    ∑ j, tally (fun command => one (command.call = call)) (session.workers j).held

variable (s : PoolSession n ρ)

theorem holders_setCaller {call : ℕ} {caller : Caller n ρ}
    (hcaller : s.callers[call]? = some caller) (caller' : Caller n ρ) (p : ℕ) :
    (s.setCaller call caller').holders p + (if p = call then caller.tasks else 0) =
      s.holders p + (if p = call then caller'.tasks else 0) := by
  unfold holders setCaller
  by_cases hp : p = call
  · subst hp
    rw [List.getElem?_set_self (lt_length hcaller), hcaller, if_pos rfl, if_pos rfl]
    simp only [Option.elim_some]
    omega
  · rw [List.getElem?_set_ne (Ne.symm hp), if_neg hp, if_neg hp]

theorem holders_setWorker (j : Fin n) (worker : Worker n) (p : ℕ) : (s.setWorker j worker).holders p +
        tally (fun cmd => one (cmd.call = p)) (s.workers j).held =
      s.holders p + tally (fun cmd => one (cmd.call = p)) worker.held := by
  have := sum_update (fun worker : Worker n => tally (fun cmd => one (cmd.call = p)) worker.held) s.workers j worker
  unfold holders setWorker
  dsimp only
  omega

variable {s} {config : PoolConfig ρ} {s' : PoolSession n ρ}

theorem Alike.holders (h : Alike s s') (p : ℕ) : s'.holders p = s.holders p := by
  unfold PoolSession.holders
  rw [h.callers, h.workers]

structure NoCopy (session session' : PoolSession n ρ) : Prop where
  calls : session'.callers.length = session.callers.length
  holders : ∀ p, session'.holders p ≤ session.holders p

section Steps

variable {call : ℕ} {caller : Caller n ρ}

theorem NoCopy.refl (s : PoolSession n ρ) : NoCopy s s := ⟨rfl, fun _ => le_rfl⟩

variable {caller' : Caller n ρ} {j : Fin n} {worker : Worker n} {mid : PoolSession n ρ} {old phase : WorkerPhase n}

theorem noCopy_caller (hcaller : s.callers[call]? = some caller) (halike : Alike s s')
    (htasks : caller'.tasks ≤ caller.tasks) : NoCopy s (s'.setCaller call caller') := by
  refine ⟨by simp [setCaller, halike.callers], ?_⟩
  intro p
  have hset := holders_setCaller s' (by rw [halike.callers]; exact hcaller) caller' p
  rw [halike.holders] at hset
  split_ifs at hset <;> omega

theorem noCopy_worker (halike : Alike s s') (hheld : ∀ f, tally f worker.held ≤ tally f (s.workers j).held) :
    NoCopy s (s'.setWorker j worker) := by
  refine ⟨by simp [setWorker, halike.callers], ?_⟩
  intro p
  have hset := holders_setWorker s' j worker p
  have hle := hheld (fun cmd => one (cmd.call = p))
  rw [halike.holders, halike.workers] at hset
  omega

theorem NoCopy.message (h : NoCopy s mid) (hcaller : mid.callers[call]? = some caller)
    (htasks : caller'.tasks ≤ caller.tasks) : NoCopy s (mid.setCaller call caller') := by
  have hnext := noCopy_caller hcaller (.refl mid) htasks
  exact ⟨hnext.calls.trans h.calls, fun p => (hnext.holders p).trans (h.holders p)⟩

theorem noCopy_send (hcaller : s.callers[call]? = some caller) (cmd : Command n)
    (hcall : cmd.call = call) (htasks : caller'.tasks + 1 ≤ caller.tasks)
    (hheld : ∀ f, tally f worker.held = tally f (s.workers j).held + f cmd) :
    NoCopy s ((s.setWorker j worker).setCaller call caller') := by
  refine ⟨by simp [setCaller, setWorker], ?_⟩
  intro p
  have hworker := holders_setWorker s j worker p
  have hset := holders_setCaller (s.setWorker j worker) hcaller caller' p
  rw [hheld, hcall] at hworker
  by_cases hp : p = call
  · have hone : one (call = p) = 1 := if_pos hp.symm
    rw [if_pos hp, if_pos hp] at hset
    omega
  · have hzero : one (call = p) = 0 := if_neg (Ne.symm hp)
    rw [if_neg hp, if_neg hp] at hset
    omega

theorem noCopy_return (cmd : Command n) (hheld : ∀ f, tally f worker.held + f cmd = tally f (s.workers j).held) :
    NoCopy s ((s.setWorker j worker).respond cmd .redispatch) := by
  have hworker := holders_setWorker s j worker
  obtain hsame | ⟨caller, hcaller, hset⟩ := (s.setWorker j worker).respond_cases cmd .redispatch
  · rw [hsame]
    refine ⟨rfl, fun p => ?_⟩
    have := hworker p
    rw [← hheld] at this
    omega
  · rw [hset]
    refine ⟨by simp [setCaller, setWorker], fun p => ?_⟩
    have hwork := hworker p
    have hreply := holders_setCaller (s.setWorker j worker) hcaller
      { caller with reply := some .redispatch } p
    have htasks : ({ caller with reply := some WorkerReply.redispatch } : Caller n ρ).tasks ≤ caller.tasks + 1 := by
      simp [Caller.tasks, one]
    rw [← hheld] at hwork
    by_cases hp : p = cmd.call
    · have hone : one (cmd.call = p) = 1 := if_pos hp.symm
      rw [if_pos hp, if_pos hp] at hreply
      omega
    · rw [if_neg hp, if_neg hp] at hreply
      omega

/-- What a step of a party does to the depths, to the charges and to the tasks. -/
structure Accounted (config : PoolConfig ρ) (session session' : PoolSession n ρ) : Prop where
  balance : Balance config session session'
  copies : NoCopy session session'

theorem Accounted.refl : Accounted config s s := ⟨.refl config s, .refl s⟩

theorem accounted_caller (hcaller : s.callers[call]? = some caller) (halike : Alike s s')
    (hdepth : s'.queueDepth = s.queueDepth)
    (h : caller'.phase.charge = caller.phase.charge ∧ caller'.tasks ≤ caller.tasks) :
    Accounted config s (s'.setCaller call caller') :=
  ⟨balance_caller hcaller halike hdepth h.1, noCopy_caller hcaller halike h.2⟩

theorem Accounted.respond (h : Accounted config s mid) (cmd : Command n)
    {reply : WorkerReply} (hreply : reply ≠ .redispatch) : Accounted config s (mid.respond cmd reply) := by
  obtain hsame | ⟨caller, hcaller, hset⟩ := mid.respond_cases cmd reply
  · rw [hsame]
    exact h
  · rw [hset]
    exact ⟨h.balance.message hcaller rfl, h.copies.message hcaller (by simp [Caller.tasks, one, hreply])⟩

theorem Accounted.signalStarted (h : Accounted config s mid) (cmd : Command n) :
    Accounted config s (mid.signalStarted cmd) := by
  obtain hsame | ⟨caller, hcaller, hset⟩ := mid.signalStarted_cases cmd
  · rw [hsame]
    exact h
  · rw [hset]
    exact ⟨h.balance.message hcaller rfl, h.copies.message hcaller le_rfl⟩

theorem stepCaller_accounted (hcaller : s.callers[call]? = some caller) (input : CallerInput n) :
    Accounted config s (s.stepCaller config call caller input) := by
  have hkeep : ∀ {phase phase' : CallerPhase n}, caller.phase = phase → phase'.charge = phase.charge ∧
      phase'.tasks ≤ phase.tasks → Accounted config s (s.setCaller call { caller with phase := phase' }) := by
    rintro _ _ rfl h
    exact accounted_caller hcaller (.refl s) rfl ⟨h.1, Nat.add_le_add_right h.2 _⟩
  have hrefus : ∀ hinted : Bool, (afterRefusal hinted : CallerPhase n).charge = none ∧
      (afterRefusal hinted : CallerPhase n).tasks ≤ 1 := by
    intro hinted
    cases hinted
    · exact ⟨rfl, le_rfl⟩
    · exact ⟨rfl, Nat.zero_le _⟩
  cases input with
  | proceed =>
    unfold stepCaller
    dsimp only
    split
    case h_1 hint hphase => split_ifs <;> exact hkeep hphase ⟨rfl, le_rfl⟩
    case h_2 idx hinted hphase =>
      split_ifs
      · exact hkeep hphase ⟨rfl, le_rfl⟩
      · exact hkeep hphase (hrefus hinted)
    case h_3 idx hinted hphase => exact hkeep hphase ⟨rfl, le_rfl⟩
    case h_4 idx hinted depth hphase => split_ifs <;> exact hkeep hphase ⟨rfl, le_rfl⟩
    case h_5 idx hinted hphase =>
      refine ⟨balance_caller_gives hcaller (by rw [hphase]; rfl) (hrefus hinted).1,
        noCopy_caller hcaller (s.giveBack_alike idx) (Nat.add_le_add_right ?_ _)⟩
      rw [hphase]
      exact (hrefus hinted).2
    case h_6 idx depth hphase =>
      refine accounted_caller hcaller (s.state_alike (s.predict config caller idx).1) rfl ?_
      rw [hphase]
      exact ⟨rfl, by simp [Caller.tasks, tasks, hphase, one]⟩
    case h_7 admittedAtOverflow completion hphase =>
      split_ifs
      · exact hkeep hphase ⟨rfl, le_rfl⟩
      · let cmd : Command n := { call, attempt := caller.attempt, admittedAtOverflow, completion }
        refine ⟨balance_send hcaller cmd (by rw [hphase]; rfl) rfl ?_, noCopy_send hcaller cmd rfl ?_ ?_⟩
        · intro f
          simp [charged, commands, cmd]
          omega
        · simp [Caller.tasks, tasks, hphase]
        · intro f
          simp [held, commands, cmd]
          omega
      · exact .refl
    case h_8 completion result hphase =>
      refine accounted_caller hcaller (s.clearIfLatest_alike completion) rfl ?_
      rw [hphase]
      exact ⟨rfl, Nat.add_le_add_right (by rw [hphase]; exact le_rfl) _⟩
    case h_9 completion result hphase =>
      exact ⟨balance_caller_gives hcaller (by rw [hphase]; rfl) rfl,
        noCopy_caller hcaller (s.giveBack_alike _) (Nat.add_le_add_right (Nat.zero_le _) _)⟩
    case h_10 started hphase =>
      split
      · exact hkeep hphase ⟨rfl, le_rfl⟩
      · rename_i hreply
        refine accounted_caller hcaller (.refl s) rfl ⟨by rw [hphase]; rfl, ?_⟩
        simp [Caller.tasks, tasks, hphase, hreply, one]
      · exact hkeep hphase ⟨rfl, le_rfl⟩
      · split_ifs
        · exact hkeep hphase ⟨rfl, le_rfl⟩
        · exact .refl
    case h_11 => exact .refl
  | pick choice =>
    unfold stepCaller
    dsimp only
    split
    · rename_i hphase
      cases choice with
      | none => exact hkeep hphase ⟨rfl, Nat.zero_le _⟩
      | some idx => exact hkeep hphase ⟨rfl, le_rfl⟩
    · exact .refl
  | compareExchange spuriousFailure =>
    unfold stepCaller
    dsimp only
    split
    · rename_i idx hinted current hphase
      split_ifs with hfull hequal
      · exact hkeep hphase (hrefus hinted)
      · simp only [Bool.and_eq_true, decide_eq_true_eq] at hequal
        refine ⟨balance_caller_takes hcaller ⟨rfl, rfl⟩ ?_ (by rw [hphase]; rfl) rfl (by rw [hequal.1]; omega),
          noCopy_caller hcaller (s.queueDepth_alike _) (Nat.add_le_add_right ?_ _)⟩
        · rw [hequal.1]
        · rw [hphase]
          exact le_rfl
      · exact hkeep hphase ⟨rfl, le_rfl⟩
    · exact .refl
  | timeout =>
    unfold stepCaller
    dsimp only
    split
    · rename_i hphase
      split_ifs
      · exact hkeep hphase ⟨rfl, le_rfl⟩
      · exact .refl
    · exact .refl
  | cancel =>
    unfold stepCaller
    dsimp only
    split
    · rename_i admittedAtOverflow completion hphase
      exact hkeep hphase ⟨rfl, le_rfl⟩
    · rename_i started hphase
      exact hkeep hphase ⟨rfl, le_rfl⟩
    · exact .refl

theorem accounted_worker (halike : Alike s s') (hdepth : s'.queueDepth = s.queueDepth)
    (h : ∀ f, tally f worker.charged = tally f (s.workers j).charged ∧
      tally f worker.held ≤ tally f (s.workers j).held) :
    Accounted config s (s'.setWorker j worker) :=
  ⟨balance_worker halike hdepth (fun f => (h f).1), noCopy_worker halike (fun f => (h f).2)⟩

theorem accounted_phase (halike : Alike s s') (hdepth : s'.queueDepth = s.queueDepth)
    (hphase : (s.workers j).phase = old)
    (h : phase.charged = old.charged ∧ ∀ f, tally f phase.held ≤ tally f old.held) :
    Accounted config s (s'.setWorker j { s.workers j with phase }) := by
  subst hphase
  exact accounted_worker halike hdepth (fun f => ⟨by simp [charged, h.1], by simpa [held] using h.2 f⟩)

theorem accounted_phase_gives {cmd : Command n} (hphase : (s.workers j).phase = old)
    (h : old.charged = cmd :: phase.charged ∧ ∀ f, tally f phase.held ≤ tally f old.held) :
    Accounted config s
      ((s.giveBack cmd.completion.workerIdx).setWorker j { s.workers j with phase }) := by
  subst hphase
  exact ⟨balance_worker_gives rfl (fun f => by simp [charged, h.1]; omega),
    noCopy_worker (s.giveBack_alike _) (fun f => by simpa [held] using h.2 f)⟩

theorem stepWorker_accounted (j : Fin n) (input : WorkerInput) : Accounted config s (s.stepWorker j input) := by
  cases input with
  | proceed =>
    unfold stepWorker
    dsimp only
    split
    case h_1 hphase =>
      split
      · rename_i cmd channel hchan
        refine Accounted.signalStarted (accounted_worker (.refl s) rfl ?_) cmd
        intro f
        simp [charged, WorkerPhase.charged, held, WorkerPhase.held, hphase, hchan, commands]
        omega
      · rename_i channel hchan
        refine accounted_worker (.refl s) rfl ?_
        intro f
        simp [charged, WorkerPhase.charged, held, WorkerPhase.held, hphase, hchan, commands]
      · exact .refl
    case h_2 cmd hphase =>
      exact accounted_phase (s.clearIfLatest_alike _) rfl hphase ⟨rfl, fun f => le_rfl⟩
    case h_3 cmd hphase => exact accounted_phase_gives hphase ⟨rfl, fun f => le_rfl⟩
    case h_4 cmd hphase =>
      have hbalance : Balance config s (s.setWorker j { s.workers j with phase := .idle }) :=
        balance_worker (.refl s) rfl (fun f => by simp [charged, hphase, WorkerPhase.charged])
      refine ⟨?_, noCopy_return cmd (fun f => by simp [held, WorkerPhase.held, hphase])⟩
      obtain hsame | ⟨caller, hcaller, hset⟩ := respond_cases _ cmd .redispatch
      · rw [hsame]
        exact hbalance
      · rw [hset]
        exact hbalance.message hcaller rfl
    case h_5 cmd result responded hphase =>
      exact accounted_phase (s.clearIfLatest_alike _) rfl hphase ⟨rfl, fun f => le_rfl⟩
    case h_6 cmd result responded hphase =>
      refine accounted_phase_gives hphase ?_
      cases responded
      · exact ⟨rfl, fun f => le_rfl⟩
      · exact ⟨rfl, fun f => Nat.zero_le _⟩
    case h_7 cmd result hphase =>
      refine (accounted_phase (.refl s) rfl hphase ?_).respond cmd nofun
      exact ⟨rfl, fun f => Nat.zero_le _⟩
    case h_8 cmd commands hphase =>
      exact accounted_phase (s.clearIfLatest_alike _) rfl hphase ⟨rfl, fun f => le_rfl⟩
    case h_9 cmd commands hphase =>
      exact accounted_phase_gives hphase ⟨rfl, fun f => by simp [WorkerPhase.held]⟩
    case h_10 cmd commands hphase =>
      refine (accounted_phase (.refl s) rfl hphase ?_).respond cmd nofun
      exact ⟨rfl, fun f => le_rfl⟩
    case h_11 hphase => exact accounted_phase (.refl s) rfl hphase ⟨rfl, fun f => le_rfl⟩
    case h_12 => exact .refl
  | repair available =>
    unfold stepWorker
    dsimp only
    split
    · exact ⟨.even rfl (fun _ => rfl), rfl, fun _ => le_rfl⟩
    · exact .refl
  | inspect repaired =>
    unfold stepWorker
    dsimp only
    split
    · rename_i cmd hphase
      obtain ⟨halike, hdepth⟩ := s.publish_alike j repaired
      refine accounted_phase halike hdepth hphase ?_
      split_ifs <;> exact ⟨rfl, fun f => le_rfl⟩
    · exact .refl
  | deadline =>
    unfold stepWorker
    dsimp only
    split
    · rename_i cmd hphase
      split_ifs
      · refine (accounted_phase (s.setAvailable_alike j false) rfl hphase ?_).respond cmd nofun
        exact ⟨rfl, fun f => le_rfl⟩
      · exact .refl
    · exact .refl
  | finish result available =>
    unfold stepWorker
    dsimp only
    split
    · rename_i cmd responded hphase
      obtain ⟨halike, hdepth⟩ := s.publish_alike j available
      have hfin : ∀ responded', Accounted config s ((s.publish j available).setWorker j
          { s.workers j with phase := .finishing cmd result responded' (finishStage result) }) :=
        fun _ => accounted_phase halike hdepth hphase ⟨rfl, fun f => le_rfl⟩
      split_ifs
      · exact (hfin true).respond cmd nofun
      · exact hfin responded
    · exact .refl
  | panic =>
    unfold stepWorker
    dsimp only
    split
    · rename_i cmd responded hphase
      refine accounted_worker (.refl s) rfl ?_
      intro f
      simp [charged, WorkerPhase.charged, held, WorkerPhase.held, hphase, commands]
      omega
    · exact .refl

theorem step_accounted (config : PoolConfig ρ) (s : PoolSession n ρ) (action : PoolAction n ρ) :
    (∃ task addlayerSourceId hint, action = .process task addlayerSourceId hint) ∨
      Accounted config s (s.step config action) := by
  cases action with
  | process task addlayerSourceId hint => exact .inl ⟨task, addlayerSourceId, hint, rfl⟩
  | caller call input =>
    refine .inr ?_
    unfold step
    dsimp only
    split
    · rename_i caller hcaller
      exact stepCaller_accounted hcaller input
    · exact .refl
  | worker j input => exact .inr (stepWorker_accounted j input)
  | shutdown j =>
    refine .inr ?_
    unfold step
    dsimp only
    split_ifs
    · refine accounted_worker (.refl s) rfl ?_
      intro f
      simp [charged, held, commands]
    · exact .refl
  | tick elapsed => exact .inr ⟨.even rfl (fun _ => rfl), rfl, fun _ => le_rfl⟩

theorem step_balance (config : PoolConfig ρ) (s : PoolSession n ρ) (action : PoolAction n ρ) :
    Balance config s (s.step config action) := by
  obtain ⟨task, addlayerSourceId, hint, rfl⟩ | h := s.step_accounted config action
  · refine .even rfl ?_
    intro idx
    simp [step, charges, one, charge, reservation, completion]
  · exact h.balance

end Steps

/-! ## Whole sessions -/

structure Accounts (config : PoolConfig ρ) (session : PoolSession n ρ) : Prop where
  depth : ∀ idx, session.queueDepth idx = session.charges idx
  bounded : ∀ idx, session.queueDepth idx ≤ config.hardLimit
  single : ∀ call, session.holders call ≤ 1
  unknown : ∀ call, session.callers.length ≤ call → session.holders call = 0

theorem Accounts.init (config : PoolConfig ρ) (available : Fin n → Bool) :
    Accounts config ({ available } : PoolSession n ρ) where
  depth idx := by simp [charges, charged, commands, WorkerPhase.charged]
  bounded idx := Nat.zero_le _
  single call := by simp [holders, held, commands, WorkerPhase.held]
  unknown call _ := by simp [holders, held, commands, WorkerPhase.held]

theorem Accounts.balanced (h : Accounts config s) (hbalance : Balance config s s') :
    (∀ idx, s'.queueDepth idx = s'.charges idx) ∧
      (∀ idx, s'.queueDepth idx ≤ config.hardLimit) ∧
      ∀ idx, s'.queueDepth idx ≤ s.queueDepth idx + 1 ∧
        s.queueDepth idx ≤ s'.queueDepth idx + 1 := by
  cases hbalance with
  | even hdepth hchg =>
    rw [hdepth]
    exact ⟨fun idx => (h.depth idx).trans (hchg idx).symm, h.bounded, fun idx => by omega⟩
  | took idx hfree hdepth hchg =>
    have hnext : ∀ j, s'.queueDepth j = s.queueDepth j + one (j = idx) := by
      intro j
      rw [hdepth, Function.update_apply]
      split_ifs with hj
      · rw [hj, one, if_pos rfl]
      · rw [one, if_neg hj]
        omega
    refine ⟨fun j => by rw [hnext, hchg, h.depth], fun j => ?_, fun j => ?_⟩
    · rw [hnext, one]
      have := h.bounded j
      split_ifs with hj
      · rw [hj]
        omega
      · omega
    · rw [hnext, one]
      split_ifs <;> omega
  | gave idx hdepth hchg =>
    -- the slot that is given back was counted, so the depth is not zero
    have hnext : ∀ j, s'.queueDepth j + one (j = idx) = s.queueDepth j := by
      intro j
      rw [hdepth, Function.update_apply]
      by_cases hj : j = idx
      · have hcnt := hchg idx
        have hone : one (j = idx) = 1 := if_pos hj
        have hself : one (idx = idx) = 1 := if_pos rfl
        rw [if_pos hj, hone, hj, h.depth, fetchSub, if_neg (by omega)]
        omega
      · rw [if_neg hj, one, if_neg hj]
        omega
    have hsmall : ∀ j, one (j = idx) ≤ 1 := by
      intro j
      unfold one
      split_ifs <;> omega
    refine ⟨fun j => ?_, fun j => ?_, fun j => ?_⟩
    · have hdepths := hnext j
      have hcount := hchg j
      have hexact := h.depth j
      omega
    · have hdepths := hnext j
      have hbound := h.bounded j
      omega
    · have hdepths := hnext j
      have hle := hsmall j
      omega

theorem Accounts.step (h : Accounts config s) (action : PoolAction n ρ) : Accounts config (s.step config action) := by
  obtain ⟨hdepth, hbdd, -⟩ := h.balanced (step_balance config s action)
  obtain ⟨task, addlayerSourceId, hint, rfl⟩ | hparty := s.step_accounted config action
  · have hold : ∀ p, p ≠ s.callers.length →
        (s.step config (.process task addlayerSourceId hint)).holders p = s.holders p := by
      intro p hp
      have hcaller : (s.callers ++ [{ task, addlayerSourceId, phase := .choosing hint }])[p]? = s.callers[p]? := by
        by_cases hlt : p < s.callers.length
        · rw [List.getElem?_append_left hlt]
        · rw [List.getElem?_eq_none (by rw [List.length_append, List.length_singleton]; omega),
            List.getElem?_eq_none (by omega)]
      simp [PoolSession.step, holders, hcaller]
    have hnew : (s.step config (.process task addlayerSourceId hint)).holders s.callers.length = 1 := by
      have hnone := h.unknown s.callers.length le_rfl
      unfold holders at hnone ⊢
      have hcaller : (s.step config (.process task addlayerSourceId hint)).callers[s.callers.length]? =
          some { task, addlayerSourceId, phase := .choosing hint } := by
        simp [PoolSession.step]
      rw [hcaller, Option.elim_some]
      have htasks : ({ task, addlayerSourceId, phase := .choosing hint } : Caller n ρ).tasks = 1 := by
        simp [Caller.tasks, tasks, one]
      have hworkers := (Nat.eq_zero_of_add_eq_zero hnone).2
      simp [PoolSession.step, htasks, hworkers]
    refine ⟨hdepth, hbdd, fun p => ?_, fun p hp => ?_⟩
    · by_cases hlast : p = s.callers.length
      · rw [hlast, hnew]
      · rw [hold p hlast]
        exact h.single p
    · have hlen : s.callers.length + 1 ≤ p := by simpa [PoolSession.step] using hp
      rw [hold p (by omega)]
      exact h.unknown p (by omega)
  · exact ⟨hdepth, hbdd, fun p => (hparty.copies.holders p).trans (h.single p),
      fun p hp => Nat.le_zero.mp ((hparty.copies.holders p).trans (h.unknown p (hparty.copies.calls ▸ hp)).le)⟩

theorem Accounts.of_reachable {available : Fin n → Bool}
    (h : Reachable (poolSessions config available) s) : Accounts config s := by
  refine h.invariant (Accounts.init config available) ?_
  rintro before after hbef ⟨action, rfl⟩
  exact hbef.step action

/-! ## A task is charged where it is -/

theorem tally_charged_le (worker : Worker n) (f : Command n → ℕ) : tally f worker.charged ≤ tally f worker.held := by
  unfold charged held
  rw [tally_append, tally_append]
  refine Nat.add_le_add_left ?_ _
  cases worker.phase with
  | closing dropping commands => cases dropping <;> exact le_rfl
  | returning cmd | responding cmd result => exact Nat.zero_le _
  | _ => exact le_rfl

theorem sum_tally (call : ℕ) (commands : List (Command n)) :
    ∑ idx, tally (fun cmd => one (cmd.call = call ∧ cmd.completion.workerIdx = idx)) commands =
      tally (fun cmd => one (cmd.call = call)) commands := by
  induction commands with
  | nil => simp
  | cons cmd commands ih =>
    simp only [tally_cons, Finset.sum_add_distrib, ih]
    congr 1
    by_cases hcall : cmd.call = call <;> simp [one, hcall]

theorem chargedTo_le_holders (call : ℕ) : ∑ idx, s.chargedTo call idx ≤ s.holders call := by
  unfold chargedTo holders
  rw [Finset.sum_add_distrib, Finset.sum_comm]
  apply Nat.add_le_add
  · cases hcaller : s.callers[call]? with
    | none => simp [one]
    | some caller =>
      cases hphase : caller.phase <;>
        simp [one, Caller.tasks, tasks, hphase, charge, reservation, completion]
  · apply Finset.sum_le_sum
    intro j _
    rw [sum_tally]
    exact tally_charged_le (s.workers j) _

theorem charges_eq_zero {idx : Fin n} (h : ∀ call, s.chargedTo call idx = 0) : s.charges idx = 0 := by
  unfold charges
  have hcallers : tally (fun caller => one (caller.phase.charge = some idx)) s.callers = 0 := by
    by_contra hpos
    obtain ⟨caller, hmem, hcharge⟩ := exists_pos_of_tally (Nat.pos_of_ne_zero hpos)
    obtain ⟨call, hcall⟩ := List.mem_iff_getElem?.mp hmem
    have hzero := h call
    unfold chargedTo at hzero
    rw [hcall, Option.bind_some] at hzero
    omega
  have hworkers : ∑ j, tally (fun cmd => one (cmd.completion.workerIdx = idx)) (s.workers j).charged =
      0 := by
    rw [Finset.sum_eq_zero_iff]
    intro j _
    by_contra hpos
    obtain ⟨cmd, hmem, hidx⟩ := exists_pos_of_tally (Nat.pos_of_ne_zero hpos)
    have hzero := h cmd.call
    have hworker := Finset.sum_eq_zero_iff.mp (Nat.eq_zero_of_add_eq_zero hzero).2 j (Finset.mem_univ j)
    have hle := le_tally (fun other : Command n => one (other.call = cmd.call ∧ other.completion.workerIdx = idx)) hmem
    have hchg : cmd.completion.workerIdx = idx := by
      by_contra hother
      rw [one, if_neg hother] at hidx
      omega
    rw [hworker, one, if_pos ⟨rfl, hchg⟩] at hle
    omega
  omega

/-- In every session the depth of a worker is the number of its outstanding reservations and unfinished
completions, at most the limit, moves by at most one in a step and never below zero, and is zero when no
call is charged to the worker. No call is charged twice. -/
theorem queue_accounting (config : PoolConfig ρ) (available : Fin n → Bool) (session : PoolSession n ρ)
    (h : Reachable (poolSessions config available) session) :
    (∀ idx, session.queueDepth idx = session.outstandingReservations idx + session.unfinishedCompletions idx) ∧
    (∀ idx, session.queueDepth idx ≤ config.hardLimit) ∧
    (∀ action idx, (session.step config action).queueDepth idx ≤ session.queueDepth idx + 1 ∧
      session.queueDepth idx ≤ (session.step config action).queueDepth idx + 1) ∧
    (∀ idx, (∀ call, session.chargedTo call idx = 0) → session.queueDepth idx = 0) ∧
    ∀ call, ∑ idx, session.chargedTo call idx ≤ 1 := by
  have haccounts := Accounts.of_reachable h
  refine ⟨?_, haccounts.bounded, ?_, ?_, ?_⟩
  · intro idx
    rw [haccounts.depth, charges_eq]
  · intro action
    exact (haccounts.balanced (step_balance config session action)).2.2
  · intro idx hnone
    rw [haccounts.depth, charges_eq_zero hnone]
  · intro call
    exact (session.chargedTo_le_holders call).trans (haccounts.single call)

/-! One worker, one call: the exchange takes the slot, and the command is with the worker. -/

def oneSlot : PoolConfig Unit where
  queueCapacity := 1
  blCapacity := 1
  renderMode _ := .tile

def tileTask : InternalTask Unit where
  id := 1
  readableNamespaces := none
  style := ⟨⟨"a/b"⟩, 1⟩
  source := none
  request := ()
  scale := .x1
  outputFormat := .png
  deadline := 10
  forwardingHops := 0

def oneDispatch : List (PoolAction 1 Unit) :=
  [.process tileTask none none, .caller 0 (.pick (some 0)), .caller 0 .proceed, .caller 0 .proceed,
    .caller 0 (.compareExchange false), .caller 0 .proceed, .caller 0 .proceed, .caller 0 .proceed,
    .worker 0 .proceed]

theorem oneDispatch_accounted :
    (PoolSession.run oneSlot (fun _ => true) oneDispatch).queueDepth 0 = 1 ∧
      (PoolSession.run oneSlot (fun _ => true) oneDispatch).unfinishedCompletions 0 = 1 ∧
      ∀ call, ∑ idx, (PoolSession.run oneSlot (fun _ => true) oneDispatch).chargedTo call idx ≤ 1 := by
  have hrun := reachable_pool_run oneSlot (fun _ => true) oneDispatch
  obtain ⟨hdepth, -, -, -, hsingle⟩ := queue_accounting oneSlot (fun _ => true) _ hrun
  have hone : (PoolSession.run oneSlot (fun _ => true) oneDispatch).queueDepth 0 = 1 := by decide +kernel
  have hreserved : (PoolSession.run oneSlot (fun _ => true) oneDispatch).outstandingReservations 0 = 0 := by
    decide +kernel
  have hexact := hdepth 0
  exact ⟨hone, by omega, hsingle⟩

end PoolSession
end Mappf.Biei
