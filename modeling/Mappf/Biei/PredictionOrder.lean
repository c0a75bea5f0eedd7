import Mappf.Biei.WarmPrediction

/-! # Marks and sends in order

Seen from one worker, a pool is a line of announcements: a mark announces a profile, a send joins the queue, and a
guard that takes the lock retracts the announcement if its generation is the last one. -/
namespace Mappf.Biei
open List Function Option

variable {n : ℕ} {ρ : Type}

/-! ## The state under the lock -/

namespace PoolState

variable (state : PoolState n)

theorem decrementProfileCount_spec (prof : WorkerProfile) :
    (state.decrementProfileCount prof).loaded = state.loaded ∧
      (state.decrementProfileCount prof).dispatchGenerations = state.dispatchGenerations := by
  unfold decrementProfileCount
  split <;> exact ⟨rfl, rfl⟩

theorem takeLoaded_loaded (idx : Fin n) : (state.takeLoaded idx).loaded = update state.loaded idx none ∧
      (state.takeLoaded idx).dispatchGenerations = state.dispatchGenerations := by
  unfold takeLoaded
  split
  case h_1 prev _ => exact decrementProfileCount_spec _ prev
  case h_2 hnone => exact ⟨by rw [← hnone, update_eq_self], rfl⟩

theorem markLoaded_spec (now : ℕ) (idx : Fin n) (prof : WorkerProfile) :
    (state.markLoaded now idx prof).1.loaded = update state.loaded idx (some prof) ∧
      (state.markLoaded now idx prof).1.dispatchGenerations =
        update state.dispatchGenerations idx (state.dispatchGenerations idx + 1) ∧
      (state.markLoaded now idx prof).2 = state.dispatchGenerations idx + 1 := by
  unfold markLoaded
  dsimp only
  split_ifs with hsame
  · refine ⟨?_, rfl, rfl⟩
    rw [← hsame, update_eq_self]
  · obtain ⟨hloaded, hgens⟩ := takeLoaded_loaded
      { state with
        dispatchGenerations := update state.dispatchGenerations idx (state.dispatchGenerations idx + 1)
        lastUsed := update state.lastUsed idx (some now) } idx
    refine ⟨?_, hgens, rfl⟩
    dsimp only [clearAddlayerSources]
    rw [hloaded, update_idem]

theorem markAddlayerSource_spec (idx : Fin n) (sourceId : String) :
    (state.markAddlayerSource idx sourceId).loaded = state.loaded ∧
      (state.markAddlayerSource idx sourceId).dispatchGenerations = state.dispatchGenerations := by
  unfold markAddlayerSource
  split_ifs <;> exact ⟨rfl, rfl⟩

theorem clearLoadedIfLatest_spec (idx : Fin n) (gen : UInt64) :
    (state.clearLoadedIfLatest idx gen).loaded =
        (if state.dispatchGenerations idx = gen then update state.loaded idx none else state.loaded) ∧
      (state.clearLoadedIfLatest idx gen).dispatchGenerations = state.dispatchGenerations := by
  unfold clearLoadedIfLatest
  split_ifs
  · exact takeLoaded_loaded state idx
  · exact ⟨rfl, rfl⟩

end PoolState

namespace PoolSession

theorem predict_spec (cfg : PoolConfig ρ) (session : PoolSession n ρ) (caller : Caller n ρ) (idx : Fin n) :
    (session.predict cfg caller idx).1.loaded =
        update session.state.loaded idx (some (caller.task.workerProfile cfg.renderMode)) ∧
      (session.predict cfg caller idx).1.dispatchGenerations =
        update session.state.dispatchGenerations idx (session.state.dispatchGenerations idx + 1) ∧
      (session.predict cfg caller idx).2 = session.state.dispatchGenerations idx + 1 := by
  obtain ⟨hloaded, hgens, hgen⟩ :=
    session.state.markLoaded_spec session.now idx (caller.task.workerProfile cfg.renderMode)
  unfold predict
  split
  · obtain ⟨hloaded', hgens'⟩ := PoolState.markAddlayerSource_spec
      (session.state.markLoaded session.now idx (caller.task.workerProfile cfg.renderMode)).1 idx _
    exact ⟨hloaded'.trans hloaded, hgens'.trans hgens, hgen⟩
  · exact ⟨hloaded, hgens, hgen⟩

theorem predict_consistent (cfg : PoolConfig ρ) (session : PoolSession n ρ) (caller : Caller n ρ) (idx : Fin n)
    (h : session.state.Consistent) : (session.predict cfg caller idx).1.Consistent := by
  have hmark := h.markLoaded session.now idx (caller.task.workerProfile cfg.renderMode)
  unfold predict
  split
  · exact hmark.markAddlayerSource idx _
  · exact hmark

variable {session : PoolSession n ρ} {cfg : PoolConfig ρ} {finished : Option (Option WorkerProfile × TaskResult)} {idx : Fin n}

theorem Move.consistent {action : PoolAction n ρ} {session' : PoolSession n ρ}
    (hmove : Move cfg action session session') (h : session.state.Consistent) : session'.state.Consistent := by
  cases hmove with
  | quiet hstate => rw [hstate]; exact h
  | marked call caller idx depth _ _ _ hstate => rw [hstate]; exact predict_consistent cfg session caller idx h
  | sent cmd caller overflow _ _ _ _ hstate => rw [hstate]; exact h
  | withdrawn call compl _ hstate | dropped idx cmd rest _ hstate =>
    rw [hstate]; exact h.clearLoadedIfLatest _ _

/-! ## Where commands are -/

def Placed (session : PoolSession n ρ) : Prop :=
  ∀ idx, ∀ command ∈ session.queue idx, command.completion.workerIdx = idx ∧ command.call < session.callers.length

section Moves

variable {action : PoolAction n ρ} {session' : PoolSession n ρ} {call : ℕ}

theorem lt_of_liveAt (h : session.liveAt call ≠ none) : call < session.callers.length := by
  by_contra hle
  apply h
  unfold liveAt
  rw [getElem?_eq_none (by omega)]
  rfl

theorem Move.live_lt (hmove : Move cfg action session session') (h : session'.liveAt call ≠ none) :
    call < session.callers.length := by
  have hupd : ∀ {who : ℕ} {held : Option (WorkerCompletion n)},
      session'.liveAt = update session.liveAt who held → who < session.callers.length →
      call < session.callers.length := by
    intro who held hlive hwho
    by_cases hsame : call = who
    · rw [hsame]
      exact hwho
    · rw [hlive, update_of_ne hsame] at h
      exact lt_of_liveAt h
  cases hmove with
  | quiet _ hlive => rw [hlive] at h; exact lt_of_liveAt h
  | marked who caller idx depth _ hcaller _ _ hlive | sent cmd caller overflow _ hcaller _ _ _ hlive =>
    exact hupd hlive (lt_length hcaller)
  | withdrawn who compl hheld _ hlive =>
    exact hupd hlive (lt_of_liveAt (by rw [hheld]; exact some_ne_none compl))
  | dropped idx cmd rest _ _ hlive => rw [hlive] at h; exact lt_of_liveAt h

theorem Move.placed (hmove : Move cfg action session session') (h : Placed session) (idx : Fin n) :
    ∀ cmd ∈ session'.queue idx, cmd.completion.workerIdx = idx ∧ cmd.call < session.callers.length := by
  intro cmd hmem
  cases hmove with
  | quiet _ _ hqueue | marked who caller idx' depth _ _ _ _ _ hqueue | withdrawn who compl _ _ _ hqueue =>
    rw [hqueue] at hmem; exact h idx cmd hmem
  | sent new caller overflow _ hcaller _ _ _ _ hqueue =>
    rw [hqueue] at hmem
    by_cases hidx : idx = new.completion.workerIdx
    · rw [hidx, update_self] at hmem
      obtain hold | hnew := mem_append.mp hmem
      · rw [hidx]
        exact h _ cmd hold
      · rw [mem_singleton.mp hnew, hidx]
        exact ⟨rfl, (lt_length hcaller)⟩
    · rw [update_of_ne hidx] at hmem
      exact h idx cmd hmem
  | dropped idx' first rest hhead _ _ hqueue =>
    rw [hqueue] at hmem
    by_cases hidx : idx = idx'
    · subst hidx
      rw [update_self] at hmem
      exact h idx cmd (by rw [hhead]; exact mem_cons_of_mem first hmem)
    · rw [update_of_ne hidx] at hmem
      exact h idx cmd hmem

end Moves

/-! ## One worker's line -/

/-- What a call holds of a worker, with its profile. -/
def heldAt (profiles : ℕ → Option WorkerProfile) (live : ℕ → Option (WorkerCompletion n)) (idx : Fin n) (call : ℕ) :
    Option (UInt64 × Option WorkerProfile) :=
  (live call).bind (fun completion =>
    if completion.workerIdx = idx then some (completion.dispatchGeneration, profiles call) else none)

def lineOf (profiles : ℕ → Option WorkerProfile) (state : PoolState n) (live : ℕ → Option (WorkerCompletion n))
    (queue : Fin n → List (Command n)) (finished : Option (Option WorkerProfile × TaskResult)) (idx : Fin n) :
    Line ℕ UInt64 (Option WorkerProfile) where
  announced := (state.loaded idx).map some
  ticket := state.dispatchGenerations idx
  held := heldAt profiles live idx
  queue := (queue idx).map (fun command => (command.completion.dispatchGeneration, profiles command.call))
  established := finished.bind (fun last => if finishStage last.2 = .release then some last.1 else none)

def line (config : PoolConfig ρ) (session : PoolSession n ρ) (finished : Option (Option WorkerProfile × TaskResult))
    (idx : Fin n) : Line ℕ UInt64 (Option WorkerProfile) :=
  lineOf (session.profileOf config) session.state session.liveAt session.queue finished idx

theorem lineOf_congr {profiles profiles' : ℕ → Option WorkerProfile} {state : PoolState n}
    {live : ℕ → Option (WorkerCompletion n)} {queue : Fin n → List (Command n)}
    (hlive : ∀ call, live call ≠ none → profiles' call = profiles call)
    (hqueue : ∀ cmd ∈ queue idx, profiles' cmd.call = profiles cmd.call) :
    lineOf profiles' state live queue finished idx = lineOf profiles state live queue finished idx := by
  unfold lineOf
  congr 1
  · funext call
    unfold heldAt
    cases hcall : live call with
    | none => rfl
    | some compl => rw [hlive call (by rw [hcall]; exact some_ne_none compl)]
  · exact map_congr_left (fun cmd hmem => by rw [hqueue cmd hmem])

/-! ## Order -/

def unused (session : PoolSession n ρ) (idx : Fin n) (generation : UInt64) : Bool :=
  session.callers.all (fun caller => caller.phase.live ≠ some ⟨idx, generation⟩) &&
    (session.queue idx).all (fun command => command.completion.dispatchGeneration ≠ generation)

/-- The command marked last is not sent yet, or its mark is gone. -/
def notOvertaking (session : PoolSession n ρ) (idx : Fin n) : Bool :=
  session.state.loaded idx = none || session.callers.any (fun caller => caller.phase.live = some (session.latest idx))

/-- Nothing is sent behind the command marked last, and no generation comes around while it is in use. -/
def inOrder (session : PoolSession n ρ) : PoolAction n ρ → Bool
  | .caller call .proceed =>
    match session.callers[call]? with
    | some caller =>
      match caller.phase with
      | .marking idx _ => session.unused idx (session.state.dispatchGenerations idx + 1)
      | .sending _ completion =>
        let worker := session.workers completion.workerIdx
        !worker.receiverAlive || channelCapacity ≤ worker.channel.length || session.notOvertaking completion.workerIdx
      | _ => true
    | none => true
  | _ => true

section Lines

variable {action : PoolAction n ρ} {session' : PoolSession n ρ} {profiles : ℕ → Option WorkerProfile}
  {call : ℕ} {live : ℕ → Option (WorkerCompletion n)} {res : TaskResult}
  {compl : WorkerCompletion n} {gen : UInt64} {caller : Caller n ρ}

theorem exists_caller_of_liveAt (h : session.liveAt call = some compl) :
    ∃ caller ∈ session.callers, caller.phase.live = some compl := by
  obtain ⟨caller, hcaller, hlive⟩ := bind_eq_some_iff.mp h
  exact ⟨caller, mem_of_getElem? hcaller, hlive⟩

variable {cmd : Command n} {rest : List (Command n)}

theorem unused_spec (h : session.unused idx gen = true) :
    (∀ call, session.liveAt call ≠ some ⟨idx, gen⟩) ∧
      ∀ cmd ∈ session.queue idx, cmd.completion.dispatchGeneration ≠ gen := by
  obtain ⟨hcallers, hqueue⟩ := Bool.and_eq_true_iff.mp h
  refine ⟨fun call hlive => ?_, fun cmd hmem => of_decide_eq_true (all_eq_true.mp hqueue cmd hmem)⟩
  obtain ⟨caller, hmem, hphase⟩ := exists_caller_of_liveAt hlive
  exact of_decide_eq_true (all_eq_true.mp hcallers caller hmem) hphase

theorem notOvertaking_spec (h : session.notOvertaking idx = true) :
    session.state.loaded idx = none ∨ ∃ call, session.liveAt call = some (session.latest idx) := by
  obtain hnone | hany := Bool.or_eq_true_iff.mp h
  · exact .inl (of_decide_eq_true hnone)
  · obtain ⟨caller, hmem, hlive⟩ := any_eq_true.mp hany
    obtain ⟨call, hcaller⟩ := mem_iff_getElem?.mp hmem
    exact .inr ⟨call, bind_eq_some_iff.mpr ⟨caller, hcaller, of_decide_eq_true hlive⟩⟩

theorem heldAt_eq_some {prof : Option WorkerProfile} : heldAt profiles live idx call = some (gen, prof) ↔
      live call = some ⟨idx, gen⟩ ∧ profiles call = prof := by
  unfold heldAt
  constructor
  · intro h
    obtain ⟨⟨workerIdx, dispatchGeneration⟩, hcompl, hsome⟩ := bind_eq_some_iff.mp h
    split_ifs at hsome with hidx
    cases hsome
    rw [← hidx]
    exact ⟨hcompl, rfl⟩
  · rintro ⟨hlive, rfl⟩
    rw [hlive, bind_some, if_pos rfl]

theorem heldAt_eq_none (h : ∀ compl, live call = some compl → compl.workerIdx ≠ idx) :
    heldAt profiles live idx call = none := by
  unfold heldAt
  cases hlive : live call with
  | none => rfl
  | some compl => rw [bind_some, if_neg (h compl hlive)]

theorem heldAt_update (live : ℕ → Option (WorkerCompletion n)) (idx : Fin n) (call : ℕ)
    (held : Option (WorkerCompletion n)) : heldAt profiles (update live call held) idx =
      update (heldAt profiles live idx) call (heldAt profiles (fun _ => held) idx call) := by
  funext other
  by_cases hother : other = call
  · subst hother
    rw [update_self]
    unfold heldAt
    rw [update_self]
  · rw [update_of_ne hother]
    unfold heldAt
    rw [update_of_ne hother]

theorem heldAt_unseen {held : Option (WorkerCompletion n)}
    (hbef : ∀ compl, live call = some compl → compl.workerIdx ≠ idx)
    (hafter : ∀ compl, held = some compl → compl.workerIdx ≠ idx) :
    heldAt profiles (update live call held) idx = heldAt profiles live idx := by
  rw [heldAt_update, heldAt_eq_none hafter, ← heldAt_eq_none hbef, update_eq_self]

theorem retract_lineOf (state : PoolState n) (live : ℕ → Option (WorkerCompletion n)) (queue : Fin n → List (Command n))
    (idx : Fin n) (gen : UInt64) : ((state.clearLoadedIfLatest idx gen).loaded idx).map some =
      (lineOf profiles state live queue finished idx).retract gen := by
  unfold Line.retract lineOf
  rw [(state.clearLoadedIfLatest_spec idx gen).1]
  split_ifs
  · rw [update_self]
    rfl
  · rfl

theorem line_queue (hhead : session.queue idx = cmd :: rest) : (line cfg session finished idx).queue =
      (cmd.completion.dispatchGeneration, session.profileOf cfg cmd.call) ::
        rest.map (fun cmd => (cmd.completion.dispatchGeneration, session.profileOf cfg cmd.call)) := by
  dsimp only [line, lineOf]
  rw [hhead, map_cons]

theorem loaded_clear_ne (state : PoolState n) {other : Fin n} (hne : other ≠ idx) (gen : UInt64) :
    (state.clearLoadedIfLatest idx gen).loaded other = state.loaded other := by
  rw [(state.clearLoadedIfLatest_spec idx gen).1]
  split_ifs
  · rw [update_of_ne hne]
  · rfl

theorem inOrder_marking {depth : ℕ}
    (h : session.inOrder (.caller call .proceed) = true) (hcaller : session.callers[call]? = some caller)
    (hphase : caller.phase = .marking idx depth) :
    session.unused idx (session.state.dispatchGenerations idx + 1) = true := by
  dsimp only [inOrder] at h
  rw [hcaller] at h
  dsimp only at h
  rw [hphase] at h
  exact h

theorem inOrder_sending {overflow : Bool}
    (h : session.inOrder (.caller call .proceed) = true) (hcaller : session.callers[call]? = some caller)
    (hphase : caller.phase = .sending overflow compl)
    (hroom : (session.workers compl.workerIdx).receiverAlive = true ∧
      (session.workers compl.workerIdx).channel.length < channelCapacity) :
    session.notOvertaking compl.workerIdx = true := by
  dsimp only [inOrder] at h
  rw [hcaller] at h
  dsimp only at h
  rw [hphase] at h
  dsimp only at h
  rw [hroom.1, decide_eq_false (Nat.not_le.mpr hroom.2)] at h
  exact h

section Steps

variable (idx) {idx' : Fin n}

theorem lineOf_unseen {state : PoolState n}
    {queue : Fin n → List (Command n)} (hloaded : state.loaded idx = session.state.loaded idx)
    (hgen : state.dispatchGenerations idx = session.state.dispatchGenerations idx)
    (hheld : heldAt (session.profileOf cfg) live idx = heldAt (session.profileOf cfg) session.liveAt idx)
    (hqueue : queue idx = session.queue idx) :
    lineOf (session.profileOf cfg) state live queue finished idx = line cfg session finished idx := by
  unfold line lineOf
  rw [hloaded, hgen, hheld, hqueue]

/-- The profile of a call is announced under the next generation. -/
theorem lineOf_marked (hcaller : session.callers[call]? = some caller) (hnone : session.liveAt call = none)
    (hunused : session.unused idx' (session.state.dispatchGenerations idx' + 1) = true) :
    (line cfg session finished idx).Follows (lineOf (session.profileOf cfg) (session.predict cfg caller idx').1
        (update session.liveAt call (some ⟨idx', (session.predict cfg caller idx').2⟩)) session.queue
        finished idx) := by
  obtain ⟨hloaded, hgens, hgen⟩ := session.predict_spec cfg caller idx'
  have hbef : ∀ compl, session.liveAt call = some compl → compl.workerIdx ≠ idx := by
    simp [hnone]
  by_cases hidx : idx = idx'
  · subst hidx
    have hprof : session.profileOf cfg call = some (caller.task.workerProfile cfg.renderMode) := by
      unfold profileOf
      rw [hcaller]
      rfl
    obtain ⟨hfresh, hfreshQueue⟩ := unused_spec hunused
    have hann : Line.Step (line cfg session finished idx) _ := .announce call
      (session.state.dispatchGenerations idx + 1) (session.profileOf cfg call) (heldAt_eq_none hbef)
      (fun holder value hheld => hfresh holder (heldAt_eq_some.mp hheld).1) (by
        intro item hitem
        obtain ⟨cmd, hmem, rfl⟩ := mem_map.mp hitem
        exact hfreshQueue cmd hmem)
    refine .inr (hann.of_parts ?_ ?_ ?_ rfl rfl)
    · dsimp only [lineOf]
      rw [hloaded, update_self, hprof]
      rfl
    · dsimp only [lineOf]
      rw [hgens, update_self]
    · dsimp only [lineOf, line]
      rw [heldAt_update, hgen]
      congr 1
      exact heldAt_eq_some.mpr ⟨rfl, rfl⟩
  · refine .inl (lineOf_unseen idx ?_ ?_ (heldAt_unseen hbef ?_) rfl)
    · rw [hloaded, update_of_ne hidx]
    · rw [hgens, update_of_ne hidx]
    · rintro compl ⟨⟩
      exact Ne.symm hidx

theorem lineOf_sent (hheld : session.liveAt cmd.call = some cmd.completion)
    (horder : session.notOvertaking cmd.completion.workerIdx = true) : (line cfg session finished idx).Follows
      (lineOf (session.profileOf cfg) session.state (update session.liveAt cmd.call none)
        (update session.queue cmd.completion.workerIdx
          (session.queue cmd.completion.workerIdx ++ [cmd])) finished idx) := by
  by_cases hidx : idx = cmd.completion.workerIdx
  · subst hidx
    refine .inr (Line.Step.of_parts (.join cmd.call _ (heldAt_eq_some.mpr ⟨hheld, rfl⟩) ?_) rfl rfl ?_ ?_ rfl)
    · obtain hnone | ⟨call, hlat⟩ := notOvertaking_spec horder
      · refine .inl ?_
        dsimp only [line, lineOf]
        rw [hnone]
        rfl
      · exact .inr ⟨call, session.profileOf cfg call, heldAt_eq_some.mpr ⟨hlat, rfl⟩⟩
    · dsimp only [lineOf, line]
      rw [heldAt_update]
      rfl
    · dsimp only [lineOf, line]
      rw [update_self, map_append]
      rfl
  · refine .inl (lineOf_unseen idx rfl rfl (heldAt_unseen ?_ nofun) (update_of_ne hidx _ _))
    intro compl hsome
    rw [hheld] at hsome
    cases hsome
    exact Ne.symm hidx

theorem lineOf_withdrawn (hheld : session.liveAt call = some compl) : (line cfg session finished idx).Follows
      (lineOf (session.profileOf cfg) (session.state.clearLoadedIfLatest compl.workerIdx compl.dispatchGeneration)
        (update session.liveAt call none) session.queue finished idx) := by
  have hgens := (session.state.clearLoadedIfLatest_spec compl.workerIdx compl.dispatchGeneration).2
  by_cases hidx : idx = compl.workerIdx
  · subst hidx
    refine .inr (Line.Step.of_parts (.withdraw call (compl.dispatchGeneration, session.profileOf cfg call)
      (heldAt_eq_some.mpr ⟨hheld, rfl⟩)) ?_ ?_ ?_ rfl rfl)
    · exact retract_lineOf session.state session.liveAt session.queue compl.workerIdx _
    · dsimp only [lineOf, line]
      rw [hgens]
    · dsimp only [lineOf, line]
      rw [heldAt_update]
      rfl
  · refine .inl (lineOf_unseen idx (loaded_clear_ne session.state hidx _) (by rw [hgens]) (heldAt_unseen ?_ nofun) rfl)
    intro other hsome
    rw [hheld] at hsome
    cases hsome
    exact Ne.symm hidx

theorem lineOf_dropped (hhead : session.queue idx' = cmd :: rest) (hwork : cmd.completion.workerIdx = idx') :
    (line cfg session finished idx).Follows (lineOf (session.profileOf cfg)
        (session.state.clearLoadedIfLatest cmd.completion.workerIdx cmd.completion.dispatchGeneration)
        session.liveAt (update session.queue idx' rest) finished idx) := by
  have hgens :=
    (session.state.clearLoadedIfLatest_spec cmd.completion.workerIdx cmd.completion.dispatchGeneration).2
  by_cases hidx : idx = idx'
  · subst hidx
    refine .inr (Line.Step.of_parts (.drop _ _ (line_queue hhead)) ?_ ?_ rfl ?_ rfl)
    · rw [hwork]
      exact retract_lineOf session.state session.liveAt session.queue idx _
    · dsimp only [lineOf, line]
      rw [hgens]
    · dsimp only [lineOf, line]
      rw [update_self]
  · exact .inl (lineOf_unseen idx (hwork ▸ loaded_clear_ne session.state (hwork ▸ hidx) _) (by rw [hgens]) rfl
      (update_of_ne hidx _ _))

end Steps

/-- Every move is a step of each worker's line, or not seen by it. -/
theorem lineOf_move (hplaced : Placed session) (hmove : Move cfg action session session')
    (horder : session.inOrder action = true) (idx : Fin n) : (line cfg session finished idx).Follows
      (lineOf (session.profileOf cfg) session'.state session'.liveAt session'.queue finished idx) := by
  cases hmove with
  | quiet hstate hlive hqueue =>
    rw [hstate, hlive, hqueue]
    exact .inl rfl
  | marked call caller idx' depth hact hcaller hphase hstate hlive hqueue =>
    rw [hact] at horder
    rw [hstate, hlive, hqueue]
    refine lineOf_marked idx hcaller ?_ (inOrder_marking horder hcaller hphase)
    unfold liveAt
    rw [hcaller, bind_some, hphase]
    rfl
  | sent cmd caller overflow hact hcaller hphase hroom hstate hlive hqueue =>
    rw [hact] at horder
    rw [hstate, hlive, hqueue]
    refine lineOf_sent idx ?_ (inOrder_sending horder hcaller hphase hroom)
    unfold liveAt
    rw [hcaller, bind_some, hphase]
    rfl
  | withdrawn call compl hheld hstate hlive hqueue =>
    rw [hstate, hlive, hqueue]
    exact lineOf_withdrawn idx hheld
  | dropped idx' cmd rest hhead hstate hlive hqueue =>
    rw [hstate, hlive, hqueue]
    exact lineOf_dropped idx hhead (hplaced idx' cmd (by rw [hhead]; exact mem_cons_self)).1

theorem line_of_keeps (htasks : KeepsTasks cfg session session')
    (hlive : ∀ call, session'.liveAt call ≠ none → call < session.callers.length)
    (hqueue : ∀ idx, ∀ cmd ∈ session'.queue idx, cmd.call < session.callers.length) (idx : Fin n) :
    line cfg session' finished idx =
      lineOf (session.profileOf cfg) session'.state session'.liveAt session'.queue finished idx :=
  lineOf_congr (fun call hcall => htasks.profiles call (hlive call hcall))
    (fun cmd hmem => htasks.profiles cmd.call (hqueue idx cmd hmem))

theorem Moves.line (hplaced : Placed session) (hmoves : Moves cfg action session session')
    (horder : session.inOrder action = true) (idx : Fin n) :
    (line cfg session finished idx).Follows (line cfg session' finished idx) := by
  rw [line_of_keeps hmoves.2 (fun call => hmoves.1.live_lt) (fun idx cmd hmem => (hmoves.1.placed hplaced idx cmd hmem).2)]
  exact lineOf_move hplaced hmoves.1 horder idx

theorem Moves.placed (hplaced : Placed session) (hmoves : Moves cfg action session session') : Placed session' := by
  intro idx cmd hmem
  obtain ⟨hwork, hcall⟩ := hmoves.1.placed hplaced idx cmd hmem
  exact ⟨hwork, Nat.lt_of_lt_of_le hcall hmoves.2.length⟩

variable (h : Finishes cfg session idx rest res session')
include h

theorem Finishes.queue_subset (hhead : session.queue idx = cmd :: rest) (j : Fin n) :
    ∀ queued ∈ session'.queue j, queued ∈ session.queue j := by
  intro queued hmem
  rw [h.queue] at hmem
  by_cases hj : j = idx
  · subst hj
    rw [update_self] at hmem
    split_ifs at hmem
    · rw [hhead]
      exact mem_cons_of_mem cmd hmem
    · exact hmem
  · rw [update_of_ne hj] at hmem
    exact hmem

theorem Finishes.line (hhead : session.queue idx = cmd :: rest) (hplaced : Placed session) :
    (line cfg session finished idx).Follows (line cfg session' (some (session.profileOf cfg cmd.call, res)) idx) := by
  refine .inr ?_
  rw [line_of_keeps h.tasks (fun call hcall => lt_of_liveAt (by rw [← h.live]; exact hcall))
    (fun j queued hmem => (hplaced j queued (h.queue_subset hhead j queued hmem)).2) idx, h.state, h.live, h.queue]
  by_cases hdone : finishStage res = .release
  · refine Line.Step.of_parts (.complete _ _ (line_queue hhead)) rfl rfl rfl ?_ ?_
    · dsimp only [lineOf]
      rw [update_self, if_pos hdone]
    · dsimp only [lineOf]
      rw [bind_some, if_pos hdone]
  · refine Line.Step.of_parts (.fail (by rw [line_queue hhead]; exact cons_ne_nil _ _)) rfl rfl rfl ?_ ?_
    · rw [if_neg hdone, update_eq_self]
      rfl
    · dsimp only [lineOf]
      rw [bind_some, if_neg hdone]

theorem Finishes.line_ne {j : Fin n} (hhead : session.queue idx = cmd :: rest) (hplaced : Placed session) (hj : j ≠ idx) :
    PoolSession.line cfg session' finished j = PoolSession.line cfg session finished j := by
  rw [line_of_keeps h.tasks (fun call hcall => lt_of_liveAt (by rw [← h.live]; exact hcall))
    (fun j queued hmem => (hplaced j queued (h.queue_subset hhead j queued hmem)).2) j, h.state, h.live, h.queue]
  exact lineOf_unseen j rfl rfl rfl (update_of_ne hj _ _)

omit h

end Lines

/-! ## Drained workers -/

theorem charge_of_live {phase : CallerPhase n} {compl : WorkerCompletion n} (h : phase.live = some compl) :
    phase.charge = some compl.workerIdx := by
  unfold CallerPhase.live at h
  split at h <;> cases h <;> rfl

theorem live_subset_charged (phase : WorkerPhase n) : ∀ cmd ∈ phase.live, cmd ∈ phase.charged := by
  intro cmd hmem
  unfold WorkerPhase.live at hmem
  split at hmem
  case h_6 => exact mem_cons_of_mem _ hmem
  case h_1 | h_2 | h_3 | h_4 | h_5 | h_7 => exact hmem
  case h_8 | h_9 | h_10 | h_11 | h_12 | h_13 => cases hmem

theorem drained_of_charges (hplaced : Placed session) (h : session.charges idx = 0) :
    (∀ call, (line cfg session finished idx).held call = none) ∧ (line cfg session finished idx).queue = [] := by
  obtain ⟨hcallers, hworkers⟩ := Nat.add_eq_zero_iff.mp h
  constructor
  · intro call
    refine heldAt_eq_none (fun compl hlive hidx => ?_)
    obtain ⟨caller, hmem, hphase⟩ := exists_caller_of_liveAt hlive
    have hle := le_tally (fun caller : Caller n ρ => one (caller.phase.charge = some idx)) hmem
    rw [hcallers, one, if_pos (by rw [charge_of_live hphase, hidx])] at hle
    omega
  · have hempty : session.queue idx = [] := by
      refine eq_nil_iff_forall_not_mem.mpr (fun cmd hmem => ?_)
      have hwork := (hplaced idx cmd hmem).1
      have hchg : cmd ∈ (session.workers idx).charged := by
        obtain hlive | hchan := mem_append.mp hmem
        · exact mem_append_right _ (live_subset_charged _ cmd hlive)
        · exact mem_append_left _ hchan
      have hle := le_tally (fun cmd : Command n => one (cmd.completion.workerIdx = idx)) hchg
      rw [Finset.sum_eq_zero_iff.mp hworkers idx (Finset.mem_univ idx), one, if_pos hwork] at hle
      omega
    dsimp only [line, lineOf]
    rw [hempty]
    rfl

end PoolSession

/-! ## Runs -/

namespace WatchedPool

open PoolSession (Placed)

variable {cfg : PoolConfig ρ} {pool : WatchedPool n ρ}

structure Predicted (config : PoolConfig ρ) (pool : WatchedPool n ρ) : Prop where
  placed : Placed pool.session
  sound : ∀ idx, (pool.session.line config (pool.finished idx) idx).Sound

/-- A step either ends the stages of a running command or moves the session and records nothing. -/
theorem step_cases (cfg : PoolConfig ρ) (pool : WatchedPool n ρ) (action : PoolAction n ρ) :
    (PoolSession.Moves cfg action pool.session (pool.step cfg action).session ∧
        (pool.step cfg action).finished = pool.finished) ∨
      ∃ idx cmd rest res, pool.session.queue idx = cmd :: rest ∧
        PoolSession.Finishes cfg pool.session idx rest res (pool.step cfg action).session ∧
        (pool.step cfg action).finished =
          update pool.finished idx (some (pool.session.profileOf cfg cmd.call, res)) := by
  by_cases hact : ∃ idx res available, action = .worker idx (.finish res available)
  · obtain ⟨idx, res, available, rfl⟩ := hact
    by_cases hrun : ∃ cmd responded, (pool.session.workers idx).phase = .running cmd responded
    · obtain ⟨cmd, responded, hphase⟩ := hrun
      obtain ⟨rest, hhead, hfin⟩ := PoolSession.step_finish cfg pool.session idx res available hphase
      refine .inr ⟨idx, cmd, rest, res, hhead, hfin, ?_⟩
      dsimp only [step, record]
      rw [hphase]
    · have hsess : pool.session.step cfg (.worker idx (.finish res available)) = pool.session := by
        dsimp only [PoolSession.step, PoolSession.stepWorker]
        split
        case h_1 cmd responded hphase => exact absurd ⟨cmd, responded, hphase⟩ hrun
        case h_2 => rfl
      refine .inl ⟨?_, ?_⟩
      · dsimp only [step]
        rw [hsess]
        exact .refl pool.session
      · dsimp only [step, record]
        split
        case h_1 cmd responded hphase => exact absurd ⟨cmd, responded, hphase⟩ hrun
        case h_2 => rfl
  · refine .inl ⟨PoolSession.step_moves cfg pool.session (fun idx res available h => ?_), ?_⟩
    · exact hact ⟨idx, res, available, h⟩
    · dsimp only [step, record]
      split
      case h_1 idx res available => exact absurd ⟨idx, res, available, rfl⟩ hact
      case h_2 => rfl

theorem consistent_step (h : pool.session.state.Consistent) (action : PoolAction n ρ) :
    (pool.step cfg action).session.state.Consistent := by
  obtain ⟨hmoves, -⟩ | ⟨idx, cmd, rest, res, -, hfin, -⟩ := pool.step_cases cfg action
  · exact hmoves.1.consistent h
  · rw [hfin.state]
    exact h

theorem Predicted.step (h : Predicted cfg pool) {action : PoolAction n ρ}
    (horder : pool.session.inOrder action = true) : Predicted cfg (pool.step cfg action) := by
  obtain ⟨hmoves, hfinished⟩ | ⟨idx, cmd, rest, res, hhead, hfin, hfinished⟩ := pool.step_cases cfg action
  · refine ⟨hmoves.placed h.placed, fun idx => ?_⟩
    rw [hfinished]
    exact (h.sound idx).follows (hmoves.line h.placed horder idx)
  · refine ⟨fun j queued hmem => ?_, fun j => ?_⟩
    · obtain ⟨hwork, hcall⟩ := h.placed j queued (hfin.queue_subset hhead j queued hmem)
      exact ⟨hwork, Nat.lt_of_lt_of_le hcall hfin.tasks.length⟩
    · rw [hfinished]
      by_cases hj : j = idx
      · subst hj
        rw [update_self]
        exact (h.sound j).follows (hfin.line hhead h.placed)
      · rw [update_of_ne hj, hfin.line_ne hhead h.placed hj]
        exact h.sound j

end WatchedPool

def watchedPools (config : PoolConfig ρ) (available : Fin n → Bool) : Machine (WatchedPool n ρ) where
  init := { session := { available } }
  step pool pool' := ∃ action, pool' = pool.step config action

def orderedPools (config : PoolConfig ρ) (available : Fin n → Bool) : Machine (WatchedPool n ρ) where
  init := { session := { available } }
  step pool pool' := ∃ action, pool.session.inOrder action = true ∧ pool' = pool.step config action

variable {pool : WatchedPool n ρ} {cfg : PoolConfig ρ} {available : Fin n → Bool}

theorem predicted_of_ordered (h : Reachable (orderedPools cfg available) pool) : pool.Predicted cfg := by
  refine h.invariant ?_ ?_
  · refine ⟨?_, fun idx => ⟨?_, ?_, ?_⟩⟩
    · intro idx cmd hmem
      cases hmem
    · nofun
    · nofun
    · nofun
  · rintro pool _ hpred ⟨action, horder, rfl⟩
    exact hpred.step horder

theorem consistent_of_watched (h : Reachable (watchedPools cfg available) pool) : pool.session.state.Consistent := by
  refine h.invariant (I := fun pool => pool.session.state.Consistent) PoolState.Consistent.init ?_
  rintro pool _ hcons ⟨action, rfl⟩
  exact WatchedPool.consistent_step hcons action

/-- A drained worker for which a profile is predicted has completed a command for that profile last. -/
def WatchedPool.PredictsRight (pool : WatchedPool n ρ) : Prop :=
  ∀ idx profile, pool.session.charges idx = 0 → pool.session.state.loaded idx = some profile →
    ∃ output, pool.finished idx = some (some profile, .completed output)

theorem WatchedPool.Predicted.right (h : pool.Predicted cfg) : pool.PredictsRight := by
  intro idx prof hchg hloaded
  obtain ⟨hheld, hqueue⟩ := PoolSession.drained_of_charges h.placed hchg
  have hann : (pool.session.line cfg (pool.finished idx) idx).announced = some (some prof) := by
    dsimp only [PoolSession.line, PoolSession.lineOf]
    rw [hloaded]
    rfl
  have hest := (h.sound idx).established_of_drained hheld hqueue hann
  obtain ⟨⟨last, res⟩, hfinished, hsome⟩ := bind_eq_some_iff.mp hest
  split_ifs at hsome with hdone
  cases hsome
  cases res with
  | completed output => exact ⟨output, hfinished⟩
  | rejected reason | failed error kind => cases hdone

/-- In every run the counts are the multiset of the predictions and the source ids are the contents of their queue;
in every run in order the prediction for a drained worker is right. -/
theorem warm_prediction (config : PoolConfig ρ) (available : Fin n → Bool) (pool : WatchedPool n ρ) :
    (Reachable (watchedPools config available) pool → pool.session.state.Consistent) ∧
      (Reachable (orderedPools config available) pool → pool.PredictsRight) :=
  ⟨consistent_of_watched, fun h => (predicted_of_ordered h).right⟩

namespace Example

def twoSlots : PoolConfig Unit where
  queueCapacity := 2
  blCapacity := 2
  renderMode _ := .tile

def styled (style : String) : InternalTask Unit where
  id := 1
  readableNamespaces := none
  style := ⟨⟨style⟩, 1⟩
  source := none
  request := ()
  scale := .x1
  outputFormat := .png
  deadline := 10
  forwardingHops := 0

def styledProfile (style : String) : WorkerProfile := ⟨⟨⟨style⟩, 1⟩, .tile, .x1⟩

def soleWorker : Fin 1 := Fin.last 0

/-- From the choice of the worker to the mark. -/
def reserve (call : ℕ) : List (PoolAction 1 Unit) :=
  [.caller call (.pick (some soleWorker)), .caller call .proceed, .caller call .proceed, .caller call (.compareExchange false),
    .caller call .proceed, .caller call .proceed]

def rendered : TaskResult := .completed ⟨[], .png⟩

/-- The worker takes a command, completes it and answers. -/
def complete : List (PoolAction 1 Unit) :=
  [.worker soleWorker .proceed, .worker soleWorker (.inspect none), .worker soleWorker (.finish rendered none),
    .worker soleWorker .proceed, .worker soleWorker .proceed]

/-- Two calls mark the worker one after the other and send in the order given. -/
def twoCalls (first second : ℕ) : List (PoolAction 1 Unit) :=
  [.process (styled "a") none none, .process (styled "b") none none] ++ reserve 0 ++ reserve 1 ++
    [.caller first .proceed, .caller second .proceed] ++ complete ++ complete

def afterCalls (first second : ℕ) : WatchedPool 1 Unit :=
  (twoCalls first second).foldl (WatchedPool.step twoSlots) { session := { available := fun _ => true } }

/-- The call that marked last sends first: the prediction stays at its profile, the worker ends with the other. -/
theorem overtaken_mark_mispredicts :
    ∃ pool, Reachable (watchedPools twoSlots (fun _ : Fin 1 => true)) pool ∧ ¬ pool.PredictsRight := by
  refine ⟨afterCalls 1 0, reachable_foldl (WatchedPool.step twoSlots) _ (twoCalls 1 0), fun h => ?_⟩
  obtain ⟨output, hfinished⟩ := h 0 (styledProfile "b") (by decide +kernel) (by decide +kernel)
  have hsame : some (styledProfile "a") = some (styledProfile "b") := (Prod.mk.inj (some.inj hfinished)).1
  exact absurd hsame (by decide)

theorem ordered_marks_predict :
    (afterCalls 0 1).session.state.loaded 0 = some (styledProfile "b") ∧
      (afterCalls 0 1).session.state.Consistent ∧ (afterCalls 0 1).PredictsRight := by
  have hwatched : Reachable (watchedPools twoSlots (fun _ : Fin 1 => true)) (afterCalls 0 1) :=
    reachable_foldl (WatchedPool.step twoSlots) _ (twoCalls 0 1)
  have hstep : ∀ (pool : WatchedPool 1 Unit) action, pool.session.inOrder action = true →
      (orderedPools twoSlots (fun _ : Fin 1 => true)).step pool (pool.step twoSlots action) :=
    fun pool action h => ⟨action, h, rfl⟩
  have hordered : Reachable (orderedPools twoSlots (fun _ : Fin 1 => true)) (afterCalls 0 1) :=
    Reachable.init.foldl_checked (fun pool => pool.session.inOrder) hstep (by decide +kernel)
  obtain ⟨hconsistent, hright⟩ := warm_prediction twoSlots (fun _ : Fin 1 => true) (afterCalls 0 1)
  exact ⟨by decide +kernel, hconsistent hwatched, hright hordered⟩

end Example

end Mappf.Biei
