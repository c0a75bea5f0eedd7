import Mappf.ChunkedStore.CoordinatorSpec
import Mappf.Lib.Machine

/-! # Runs of the chunk fetch coordinator

The steps are the sections the source runs under the coordinator lock: `fetch_chunks` enqueues, a
scheduler task prunes and selects, a dispatched group completes, and outside the lock a caller
drops a receiver or a throttled scheduler takes the capacity permit. Group ranges may overlap
(gap filling can repeat a chunk another group is fetching), so nothing below counts how many
groups cover a chunk. -/
namespace Mappf.ChunkedStore
open List

structure DispatchedGroup where
  chunkRange : ChunkRange
  archiveLen : ℕ

inductive SchedulerPhase
  | ready
  | waitingCapacity

/-- One archive's entry of `tileset_states`, the channels handed out for it, its scheduler tasks
and the groups dispatched but not completed. -/
structure ArchiveCoordinator where
  state : Option TilesetFetchState := none
  channels : Channels := fun _ => ⟨0, .closed⟩
  nextChannel : ℕ := 0
  schedulers : List SchedulerPhase := []
  groups : List DispatchedGroup := []

namespace ArchiveCoordinator

variable (c : ArchiveCoordinator)

/-- The entry, or the default the source would insert for it. -/
def current : TilesetFetchState := c.state.getD {}

def allocate (channels : Channels) (required : List ℕ) (next : ℕ) : Channels := fun i =>
  if i < next then channels i
  else match required[i - next]? with
    | some chunkIndex => ⟨chunkIndex, .waiting⟩
    | none => channels i

def fetchChunks (required : List ℕ) (queuedAt archiveLen : ℕ) : ArchiveCoordinator × List EnqueuedChunk :=
  let state := { c.current with archiveLen := max c.current.archiveLen archiveLen }
  let (state, joined) := state.enqueueChunks queuedAt required c.nextChannel
  let c := { c with channels := allocate c.channels required c.nextChannel
                    nextChannel := c.nextChannel + required.length }
  if !state.schedulerRunning && !state.pendingChunks.isEmpty then
    ({ c with state := some { state with schedulerRunning := true }
              schedulers := c.schedulers ++ [.ready] }, joined)
  else ({ c with state := some state }, joined)

def removeDrainableState : ArchiveCoordinator × Bool :=
  if c.current.isDrainable && c.state.isSome then
    ({ c with state := none
              channels := c.current.waiters.foldl (fun channels w => channels.dropSender w.2) c.channels }, true)
  else (c, false)

/-- The locked block of one `run_scheduler` pass, up to the removal an idle pass ends with. -/
def schedulerSection (task maxFetchChunks now : ℕ) : ArchiveCoordinator × DispatchDecision :=
  let (pruned, _) := c.current.pruneCancelledWaiters c.channels
  let (state, decision) := pruned.selectDispatchGroups maxFetchChunks now
  let c := { c with state := some state }
  (match decision with
    | .idle => { c with schedulers := c.schedulers.eraseIdx task }
    | .throttled => { c with schedulers := c.schedulers.set task .waitingCapacity }
    | .dispatch groups archiveLen _ _ =>
      { c with groups := c.groups ++ groups.map (fun r => ⟨r, archiveLen⟩) }, decision)

def schedulerPass (task maxFetchChunks now : ℕ) : ArchiveCoordinator :=
  if c.state.isNone then { c with schedulers := c.schedulers.eraseIdx task }
  else
    let (next, decision) := c.schedulerSection task maxFetchChunks now
    if decision = .idle then next.removeDrainableState.1 else next

/-- `complete_dispatched_group` up to its final removal. The group leaves the multiset also when
the archive has no state to complete it in. -/
def completionSection (group : ℕ) (chunkRange : ChunkRange)
    (result : Except ChunkFetchError (ℕ → Option Bytes)) : ArchiveCoordinator :=
  let c := { c with groups := c.groups.eraseIdx group }
  match c.state with
  | none => c
  | some state =>
    let (state, channels, _) := state.completeGroup c.channels chunkRange result
    { c with state := some state, channels }

def completeDispatchedGroup (group : ℕ) (chunkRange : ChunkRange)
    (result : Except ChunkFetchError (ℕ → Option Bytes)) : ArchiveCoordinator :=
  (c.completionSection group chunkRange result).removeDrainableState.1

def dropReceiver (c : ArchiveCoordinator) (id : ℕ) : ArchiveCoordinator :=
  { c with channels := c.channels.dropReceiver id }

/-- A throttled scheduler consumes the permit and runs its next pass without a merge window. -/
def wakeScheduler (task : ℕ) : ArchiveCoordinator :=
  { c with state := c.state.map (fun state => { state with capacityAvailable := false })
           schedulers := c.schedulers.set task .ready }

inductive Step (maxFetchChunks : ℕ) : ArchiveCoordinator → ArchiveCoordinator → Prop
  | fetchChunks (c : ArchiveCoordinator) (required : List ℕ) (queuedAt archiveLen : ℕ) :
      Step maxFetchChunks c (c.fetchChunks required queuedAt archiveLen).1
  | dropReceiver (c : ArchiveCoordinator) (id : ℕ) : Step maxFetchChunks c (c.dropReceiver id)
  | schedulerPass (c : ArchiveCoordinator) (task now : ℕ) (h : c.schedulers[task]? = some .ready) :
      Step maxFetchChunks c (c.schedulerPass task maxFetchChunks now)
  | wakeScheduler (c : ArchiveCoordinator) (task : ℕ)
      (h : c.schedulers[task]? = some .waitingCapacity) (hcap : c.current.capacityAvailable = true) :
      Step maxFetchChunks c (c.wakeScheduler task)
  | completeGroup (c : ArchiveCoordinator) (group : ℕ) (g : DispatchedGroup)
      (result : Except ChunkFetchError (ℕ → Option Bytes)) (h : c.groups[group]? = some g) :
      Step maxFetchChunks c (c.completeDispatchedGroup group g.chunkRange result)

end ArchiveCoordinator

def coordinatorMachine (maxFetchChunks : ℕ) : Machine ArchiveCoordinator where
  init := {}
  step := ArchiveCoordinator.Step maxFetchChunks

/-! ## No live waiter is orphaned

The invariant of the coordinator machine and its preservation by every step. A chunk with a live
waiter is pending or inside the range of some uncompleted group; that is all the coverage the
overlap of groups leaves room for, and it is enough for state removal to be safe. -/

namespace ArchiveCoordinator

/-! ## The invariant -/

structure Inv (c : ArchiveCoordinator) : Prop where
  covered : ∀ w ∈ c.current.waiters, (c.channels w.2).status = .waiting →
    w.1 ∈ c.current.pendingChunks ∨ ∃ g ∈ c.groups, w.1 ∈ g.chunkRange
  inflight : ∀ x ∈ c.current.inflightChunks, ∃ g ∈ c.groups, x ∈ g.chunkRange
  count : c.current.inflightFetchCount = c.groups.length
  bounded : c.groups.length ≤ maxConcurrentFetchesPerTileset
  running : ∀ x ∈ c.current.pendingChunks, c.current.schedulerRunning = true
  scheduled : c.schedulers.length = if c.current.schedulerRunning then 1 else 0
  throttled : .waitingCapacity ∈ c.schedulers → c.current.capacityAvailable = true ∨
    (maxConcurrentFetchesPerTileset ≤ c.current.inflightFetchCount ∧ c.current.pendingChunks.isEmpty = false)
  numbered : ∀ w ∈ c.current.waiters, w.2 < c.nextChannel ∧ (c.channels w.2).chunkIndex = w.1
  registered : ∀ i, (c.channels i).status = .waiting → ((c.channels i).chunkIndex, i) ∈ c.current.waiters
  answered : ∀ i, (c.channels i).status ≠ .abandoned

theorem inv_init : Inv {} where
  covered := by simp [current]
  inflight := by simp [current]
  count := rfl
  bounded := by simp
  running := by simp [current]
  scheduled := rfl
  throttled := by simp
  numbered := by simp [current]
  registered := by simp
  answered := by simp

theorem allocate_lt (channels : Channels) (required : List ℕ) {next i : ℕ} (h : i < next) :
    allocate channels required next i = channels i := by
  simp [allocate, h]

theorem allocate_cases (channels : Channels) (required : List ℕ) (next i : ℕ) :
    (∃ x, (x, i) ∈ required.zipIdx next ∧ allocate channels required next i = ⟨x, .waiting⟩) ∨
      allocate channels required next i = channels i := by
  by_cases h : i < next
  · exact .inr (allocate_lt channels required h)
  · simp only [allocate, if_neg h, mk_mem_zipIdx_iff_le_and_getElem?_sub]
    cases hx : required[i - next]? with
    | some x => exact .inl ⟨x, ⟨Nat.not_lt.mp h, rfl⟩, rfl⟩
    | none => exact .inr rfl

/-! ## Enqueueing and cancelling -/

variable (c : ArchiveCoordinator)

theorem fetchChunks_current (required : List ℕ) (queuedAt archiveLen : ℕ) :
    let state := (({ c.current with archiveLen := max c.current.archiveLen archiveLen } :
      TilesetFetchState).enqueueChunks queuedAt required c.nextChannel).1
    let c' := (c.fetchChunks required queuedAt archiveLen).1
    c'.current = { state with schedulerRunning := state.schedulerRunning || !state.pendingChunks.isEmpty } ∧
      c'.channels = allocate c.channels required c.nextChannel ∧
      c'.nextChannel = c.nextChannel + required.length ∧ c'.groups = c.groups ∧
      c'.schedulers = c.schedulers ++
        (if !state.schedulerRunning && !state.pendingChunks.isEmpty then [.ready] else []) := by
  simp only [fetchChunks]
  generalize ({ c.current with archiveLen := max c.current.archiveLen archiveLen } :
    TilesetFetchState).enqueueChunks queuedAt required c.nextChannel = enqueued
  obtain ⟨⟨pending, first, inflight, waiters, running, count, cap, len⟩, joined⟩ := enqueued
  cases running <;> cases pending.isEmpty <;> simp [current]

theorem inv_fetchChunks (hc : Inv c) (required : List ℕ)
    (queuedAt archiveLen : ℕ) : Inv (c.fetchChunks required queuedAt archiveLen).1 := by
  obtain ⟨hcur, hch, hnext, hgrps, hsched⟩ := fetchChunks_current c required queuedAt archiveLen
  obtain ⟨hw, hin, hrun, hcount, hcap, _, hpend, _⟩ := TilesetFetchState.enqueueChunks_spec queuedAt required
    { c.current with archiveLen := max c.current.archiveLen archiveLen } c.nextChannel
  set state := (({ c.current with archiveLen := max c.current.archiveLen archiveLen } :
      TilesetFetchState).enqueueChunks queuedAt required c.nextChannel).1
  have hold : ∀ w ∈ c.current.waiters, allocate c.channels required c.nextChannel w.2 = c.channels w.2 :=
    fun w hw => allocate_lt c.channels required (hc.numbered w hw).1
  have hnew : ∀ w ∈ required.zipIdx c.nextChannel, c.nextChannel ≤ w.2 ∧
      w.2 < c.nextChannel + required.length ∧ w.1 ∈ required ∧
      allocate c.channels required c.nextChannel w.2 = ⟨w.1, .waiting⟩ := by
    intro w hw
    have hle := le_snd_of_mem_zipIdx hw
    refine ⟨hle, snd_lt_add_of_mem_zipIdx hw, fst_mem_of_mem_zipIdx hw, ?_⟩
    rw [mem_zipIdx_iff_le_and_getElem?_sub] at hw
    simp [allocate, Nat.not_lt.mpr hle, hw.2]
  constructor
  · intro w hwm hlive
    rw [hcur, hw] at hwm
    rw [hcur, hgrps]
    rw [hch] at hlive
    rcases mem_append.mp hwm with hwm | hwm
    · rw [hold w hwm] at hlive
      rcases hc.covered w hwm hlive with h | h
      · exact .inl ((hpend w.1).mpr (.inl h))
      · exact .inr h
    · obtain ⟨_, _, hreq, _⟩ := hnew w hwm
      by_cases hfly : w.1 ∈ c.current.inflightChunks
      · exact .inr (hc.inflight w.1 hfly)
      · exact .inl ((hpend w.1).mpr (.inr ⟨hreq, hfly⟩))
  · rw [hcur, hgrps]
    intro x hx
    exact hc.inflight x (hin ▸ hx)
  · rw [hcur, hgrps]
    exact hcount.trans hc.count
  · rw [hgrps]
    exact hc.bounded
  · intro x hx
    rw [hcur] at hx ⊢
    have hne : state.pendingChunks.isEmpty = false := OrderedSet.isEmpty_eq_false_iff.mpr ⟨x, hx⟩
    simp [hne]
  · rw [hsched, hcur, length_append, hc.scheduled, ← hrun]
    cases state.schedulerRunning <;> cases state.pendingChunks.isEmpty <;> rfl
  · rw [hsched, hcur, mem_append]
    intro hwait
    have hwait' : .waitingCapacity ∈ c.schedulers := by
      rcases hwait with h | h
      · exact h
      · split_ifs at h <;> simp at h
    rcases hc.throttled hwait' with h | ⟨hfull, hne⟩
    · exact .inl (hcap.trans h)
    · right
      refine ⟨by rw [hcount]; exact hfull, ?_⟩
      obtain ⟨x, hx⟩ := OrderedSet.isEmpty_eq_false_iff.mp hne
      exact OrderedSet.isEmpty_eq_false_iff.mpr ⟨x, (hpend x).mpr (.inl hx)⟩
  · intro w hwm
    rw [hcur, hw] at hwm
    rw [hnext, hch]
    rcases mem_append.mp hwm with hwm | hwm
    · obtain ⟨hlt, hidx⟩ := hc.numbered w hwm
      exact ⟨by omega, by rw [hold w hwm]; exact hidx⟩
    · obtain ⟨_, hlt, _, halloc⟩ := hnew w hwm
      exact ⟨hlt, by rw [halloc]⟩
  · intro i hi
    rw [hch] at hi ⊢
    rw [hcur, hw, mem_append]
    cases allocate_cases c.channels required c.nextChannel i with
    | inl hnew =>
      obtain ⟨x, hx, he⟩ := hnew
      rw [he]
      exact .inr hx
    | inr he =>
      rw [he] at hi ⊢
      exact .inl (hc.registered i hi)
  · intro i
    rw [hch]
    cases allocate_cases c.channels required c.nextChannel i with
    | inl hnew =>
      obtain ⟨x, _, he⟩ := hnew
      rw [he]
      exact nofun
    | inr he =>
      rw [he]
      exact hc.answered i

theorem inv_dropReceiver (hc : Inv c) (id : ℕ) : Inv (c.dropReceiver id) := by
  have hlive : ∀ i, (c.channels.dropReceiver id i).status = .waiting → (c.channels i).status = .waiting := by
    intro i hi
    rcases c.channels.dropReceiver_status id i with h | ⟨_, h, _⟩
    · rw [← h]; exact hi
    · exact h
  refine { hc with covered := ?_, numbered := ?_, registered := ?_, answered := ?_ }
  · intro w hw hi
    exact hc.covered w hw (hlive w.2 hi)
  · intro w hw
    obtain ⟨hlt, hidx⟩ := hc.numbered w hw
    exact ⟨hlt, (c.channels.dropReceiver_chunkIndex id w.2).trans hidx⟩
  · intro i hi
    have hreg := hc.registered i (hlive i hi)
    rw [← c.channels.dropReceiver_chunkIndex id i] at hreg
    exact hreg
  · intro i hi
    rcases c.channels.dropReceiver_status id i with h | ⟨_, _, h⟩
    · exact hc.answered i (h ▸ hi)
    · simp [show (c.dropReceiver id).channels i = c.channels.dropReceiver id i from rfl, h] at hi

/-! ## Removing a drained state -/

def NoLiveWaiter (c : ArchiveCoordinator) : Prop :=
  ∀ w ∈ c.current.waiters, (c.channels w.2).status ≠ .waiting

theorem foldl_dropSender (waiters : List (ℕ × ℕ)) (channels : Channels)
    (h : ∀ w ∈ waiters, (channels w.2).status ≠ .waiting) :
    waiters.foldl (fun channels w => channels.dropSender w.2) channels = channels := by
  induction waiters with
  | nil => rfl
  | cons w rest ih =>
    have hw : channels.dropSender w.2 = channels := by
      simp [Channels.dropSender, h w (mem_cons_self ..)]
    rw [foldl_cons, hw]
    exact ih (fun v hv => h v (mem_cons_of_mem _ hv))

/-- A drainable state has neither pending chunks nor groups, so a live waiter in it would be
covered by nothing. -/
theorem Inv.noLiveWaiter {c : ArchiveCoordinator} (hc : Inv c) (hd : c.current.isDrainable = true) :
    c.groups = [] ∧ c.schedulers = [] ∧ NoLiveWaiter c := by
  simp only [TilesetFetchState.isDrainable, Bool.and_eq_true, Bool.not_eq_true', beq_iff_eq] at hd
  obtain ⟨⟨hrun, hpend⟩, hcount⟩ := hd
  have hgrps : c.groups = [] := length_eq_zero_iff.mp (hc.count ▸ hcount)
  have hsched : c.schedulers = [] := by
    have := hc.scheduled
    rw [hrun] at this
    exact length_eq_zero_iff.mp this
  refine ⟨hgrps, hsched, ?_⟩
  intro w hw hlive
  rcases hc.covered w hw hlive with h | ⟨g, hg, _⟩
  · exact OrderedSet.isEmpty_iff.mp hpend w.1 h
  · simp [hgrps] at hg

theorem inv_removeDrainableState (hc : Inv c) : Inv c.removeDrainableState.1 := by
  unfold removeDrainableState
  split_ifs with h
  · rw [Bool.and_eq_true] at h
    obtain ⟨hgrps, hsched, hnone⟩ := hc.noLiveWaiter h.1
    have hdead : ∀ i, (c.channels i).status ≠ .waiting :=
      fun i hi => hnone _ (hc.registered i hi) hi
    rw [foldl_dropSender c.current.waiters c.channels hnone]
    refine ⟨?_, ?_, ?_, hc.bounded, ?_, ?_, ?_, ?_, ?_, hc.answered⟩
    · intro w _ hlive
      exact absurd hlive (hdead w.2)
    · nofun
    · rw [hgrps]; rfl
    · nofun
    · rw [hsched]; rfl
    · rw [hsched]
      nofun
    · nofun
    · intro i hi
      exact absurd hi (hdead i)
  · exact hc

/-! ## One scheduler pass -/

/-- There is at most one scheduler task, so a task found at `task` is the only one. -/
theorem Inv.single_scheduler {c : ArchiveCoordinator} (hc : Inv c) {task : ℕ} {phase : SchedulerPhase}
    (h : c.schedulers[task]? = some phase) :
    task = 0 ∧ c.schedulers = [phase] ∧ c.current.schedulerRunning = true ∧ c.state.isSome = true := by
  have hlt : task < c.schedulers.length := (List.getElem?_eq_some_iff.mp h).1
  have hlen := hc.scheduled
  cases hrun : c.current.schedulerRunning with
  | false => rw [hrun] at hlen; simp at hlen; simp [hlen] at hlt
  | true =>
    rw [hrun, if_pos rfl] at hlen
    obtain ⟨p, hp⟩ := length_eq_one_iff.mp hlen
    have htask : task = 0 := by omega
    subst htask
    rw [hp] at h ⊢
    have hphase : p = phase := by simpa using h
    refine ⟨rfl, by rw [hphase], rfl, ?_⟩
    cases hs : c.state with
    | some s => rfl
    | none => simp [current, hs] at hrun

theorem growRanges_ne_nil (maxFetch maxGap start stop : ℕ) (chunks : List ℕ) :
    growRanges maxFetch maxGap start stop chunks ≠ [] := by
  induction chunks generalizing start stop with
  | nil => simp [growRanges]
  | cons chunk rest ih =>
    rw [growRanges]
    split_ifs
    · exact ih _ _
    · simp

theorem contiguousChunkRanges_ne_nil (chunks : OrderedSet ℕ) (maxFetch maxGap : ℕ)
    (h : chunks.isEmpty = false) : contiguousChunkRanges chunks maxFetch maxGap ≠ [] := by
  unfold contiguousChunkRanges
  unfold OrderedSet.isEmpty at h
  cases hl : chunks.toList with
  | nil => rw [hl] at h; cases h
  | cons start rest => exact growRanges_ne_nil _ _ _ _ rest

theorem inv_prune (hc : Inv c) (hs : c.schedulers = [.ready]) :
    Inv { c with state := some (c.current.pruneCancelledWaiters c.channels).1 } := by
  obtain ⟨hw, hp, hin, hrun, hcount, _, _⟩ := c.current.pruneCancelledWaiters_spec c.channels
  constructor
  · intro w hwm hlive
    rcases hc.covered w ((hw w).mp hwm).1 hlive with h | h
    · exact .inl ((hp w.1).mpr ⟨h, w, hwm, rfl⟩)
    · exact .inr h
  · intro x hx
    exact hc.inflight x (hin ▸ hx)
  · exact hcount.trans hc.count
  · exact hc.bounded
  · intro x hx
    exact hrun.trans (hc.running x ((hp x).mp hx).1)
  · exact hc.scheduled
  · rw [hs]
    intro h
    simp at h
  · intro w hwm
    exact hc.numbered w ((hw w).mp hwm).1
  · intro i hi
    exact (hw _).mpr ⟨hc.registered i hi, by rw [hi]; simp⟩
  · exact hc.answered

theorem inv_schedulerSection (hc : Inv c) (task cap now : ℕ)
    (h : c.schedulers[task]? = some .ready) : Inv (c.schedulerSection task cap now).1 := by
  obtain ⟨rfl, hs, hrun, _⟩ := hc.single_scheduler h
  have hprun := inv_prune c hc hs
  have hrunning : (c.current.pruneCancelledWaiters c.channels).1.schedulerRunning = true := hrun
  unfold schedulerSection
  revert hprun hrunning
  generalize c.current.pruneCancelledWaiters c.channels = p
  obtain ⟨pruned, cancelled⟩ := p
  intro hprun hrunning
  dsimp only at hprun hrunning
  rcases pruned.selectDispatchGroups_cases cap now with
    ⟨hempty, he⟩ | ⟨hne, he, hwhy⟩ | ⟨groups, delay, count, he, hcap, _⟩
  · -- Nothing is pending: the task ends and its flag goes down with it.
    simp only [he, hs]
    refine { hprun with running := ?_, scheduled := rfl, throttled := by simp }
    intro x hx
    exact absurd hx (OrderedSet.isEmpty_iff.mp hempty x)
  · simp only [he, hs]
    refine { hprun with scheduled := ?_, throttled := ?_ }
    · simp [current, hrunning]
    · intro _
      right
      refine ⟨?_, hne⟩
      rcases hwhy with hfull | hnone
      · exact hfull
      · exact absurd hnone (contiguousChunkRanges_ne_nil _ _ _ hne)
  · obtain ⟨hw, hr, hcount, _, _, hin, hp⟩ := pruned.reserve_spec groups
    simp only [he]
    constructor
    · intro w hwm hlive
      rcases hprun.covered w (hw ▸ hwm) hlive with hpend | ⟨g, hg, hmem⟩
      · by_cases hsel : ∃ g ∈ groups, w.1 ∈ g
        · obtain ⟨g, hg, hmem⟩ := hsel
          exact .inr ⟨⟨g, pruned.archiveLen⟩, mem_append_right _ (mem_map.mpr ⟨g, hg, rfl⟩), hmem⟩
        · push Not at hsel
          exact .inl ((hp w.1).mpr ⟨hpend, hsel⟩)
      · exact .inr ⟨g, mem_append_left _ hg, hmem⟩
    · intro x hx
      rcases (hin x).mp hx with hold | ⟨g, hg, hmem⟩
      · obtain ⟨g, hg, hmem⟩ := hprun.inflight x hold
        exact ⟨g, mem_append_left _ hg, hmem⟩
      · exact ⟨⟨g, pruned.archiveLen⟩, mem_append_right _ (mem_map.mpr ⟨g, hg, rfl⟩), hmem⟩
    · have hold : pruned.inflightFetchCount = c.groups.length := hprun.count
      simp [current, hcount, hold]
    · have hold : pruned.inflightFetchCount = c.groups.length := hprun.count
      simp only [length_append, length_map]
      omega
    · intro x hx
      exact hr.trans (hprun.running x ((hp x).mp hx).1)
    · simp [current, hr, hrunning, hs]
    · simp [hs]
    · intro w hwm
      exact hprun.numbered w (hw ▸ hwm)
    · intro i hi
      have hreg := hprun.registered i hi
      simp only [current, Option.getD_some] at hreg ⊢
      rw [hw]
      exact hreg
    · exact hprun.answered

theorem inv_schedulerPass (hc : Inv c) (task cap now : ℕ)
    (h : c.schedulers[task]? = some .ready) : Inv (c.schedulerPass task cap now) := by
  obtain ⟨_, _, _, hsome⟩ := hc.single_scheduler h
  have hsect := inv_schedulerSection c hc task cap now h
  unfold schedulerPass
  rw [if_neg (by rw [Option.isNone_iff_eq_none]; intro hn; rw [hn] at hsome; cases hsome)]
  dsimp only
  split_ifs
  · exact inv_removeDrainableState _ hsect
  · exact hsect

theorem inv_wakeScheduler (hc : Inv c) (task : ℕ)
    (h : c.schedulers[task]? = some .waitingCapacity) : Inv (c.wakeScheduler task) := by
  obtain ⟨rfl, hs, hrun, hsome⟩ := hc.single_scheduler h
  obtain ⟨state, hstate⟩ := Option.isSome_iff_exists.mp hsome
  have hcur : c.current = state := by simp [current, hstate]
  have hcur' : (c.wakeScheduler 0).current = { state with capacityAvailable := false } := by
    simp [current, wakeScheduler, hstate]
  have hs' : (c.wakeScheduler 0).schedulers = [.ready] := by simp [wakeScheduler, hs]
  refine ⟨?_, ?_, ?_, hc.bounded, ?_, ?_, ?_, ?_, ?_, hc.answered⟩
  · rw [hcur']; rw [← hcur]; exact hc.covered
  · rw [hcur']; rw [← hcur]; exact hc.inflight
  · rw [hcur']; rw [← hcur]; exact hc.count
  · rw [hcur']; rw [← hcur]; exact hc.running
  · rw [hcur', hs', ← hcur]; simp [hrun]
  · rw [hs']; simp
  · rw [hcur']; rw [← hcur]; exact hc.numbered
  · rw [hcur']; rw [← hcur]; exact hc.registered

/-! ## Completion of a group -/

theorem covered_eraseIdx {groups : List DispatchedGroup} {group x : ℕ} {g : DispatchedGroup}
    (hg : groups[group]? = some g) (hx : x ∉ g.chunkRange)
    (h : ∃ g' ∈ groups, x ∈ g'.chunkRange) : ∃ g' ∈ groups.eraseIdx group, x ∈ g'.chunkRange := by
  obtain ⟨g', hg', hmem⟩ := h
  obtain ⟨j, hj⟩ := mem_iff_getElem?.mp hg'
  refine ⟨g', mem_eraseIdx_iff_getElem?.mpr ⟨j, ?_, hj⟩, hmem⟩
  intro he
  subst he
  rw [hg] at hj
  cases hj
  exact hx hmem

theorem inv_completionSection (hc : Inv c) (group : ℕ) (g : DispatchedGroup)
    (res : Except ChunkFetchError (ℕ → Option Bytes)) (hg : c.groups[group]? = some g) :
    Inv (c.completionSection group g.chunkRange res) ∧ 1 ≤ c.current.inflightFetchCount := by
  have hlt : group < c.groups.length := (List.getElem?_eq_some_iff.mp hg).1
  have hpos : 1 ≤ c.current.inflightFetchCount := by rw [hc.count]; omega
  refine ⟨?_, hpos⟩
  cases hstate : c.state with
  | none =>
    have : c.current.inflightFetchCount = 0 := by simp [current, hstate]
    omega
  | some state =>
    have hcur : c.current = state := by simp [current, hstate]
    obtain ⟨hp, hr, hcount, hcap, _, hin, hw, hch⟩ := state.completeGroup_spec c.channels g.chunkRange res
    unfold completionSection
    simp only [hstate]
    generalize state.completeGroup c.channels g.chunkRange res = out at *
    obtain ⟨state', channels', outcome⟩ := out
    dsimp only at hp hr hcount hcap hin hw hch ⊢
    have hlive : ∀ i, (channels' i).status = .waiting →
        (c.channels i).status = .waiting ∧ ∀ x ∈ g.chunkRange, (x, i) ∉ state.waiters := by
      intro i hi
      obtain ⟨_, hst, hdone⟩ := hch i
      refine ⟨?_, fun x hx hxw => hdone ⟨x, hx, hxw⟩ hi⟩
      rcases hst with h | ⟨x, _, _, h⟩
      · exact h ▸ hi
      · rw [h] at hi; cases hi
    constructor
    · intro w hwm hi
      obtain ⟨hold, hout⟩ := (hw w).mp hwm
      rcases hc.covered w (by rw [hcur]; exact hold) (hlive w.2 hi).1 with h | h
      · left
        rw [hcur, ← hp] at h
        exact h
      · exact .inr (covered_eraseIdx hg hout h)
    · intro x hx
      obtain ⟨hold, hout⟩ := (hin x).mp hx
      exact covered_eraseIdx hg hout (hc.inflight x (by rw [hcur]; exact hold))
    · have := hc.count
      rw [hcur] at this
      simp only [current, Option.getD_some, hcount, length_eraseIdx_of_lt hlt]
      omega
    · have := hc.bounded
      simp only [length_eraseIdx_of_lt hlt]
      omega
    · intro x hx
      have hrun := hc.running x (by rw [hcur, ← hp]; exact hx)
      rw [hcur, ← hr] at hrun
      exact hrun
    · have := hc.scheduled
      rw [hcur, ← hr] at this
      exact this
    · intro hwait
      left
      simp only [current, Option.getD_some, hcap]
      rcases hc.throttled hwait with h | ⟨hfull, hne⟩
      · rw [hcur] at h; simp [h]
      · rw [hcur] at hfull hne; simp [hfull, hne]
    · intro w hwm
      obtain ⟨hold, _⟩ := (hw w).mp hwm
      obtain ⟨hn, hidx⟩ := hc.numbered w (by rw [hcur]; exact hold)
      exact ⟨hn, (hch w.2).1.trans hidx⟩
    · intro i hi
      obtain ⟨hold, hout⟩ := hlive i hi
      have hreg := hc.registered i hold
      rw [hcur] at hreg
      rw [(hch i).1]
      exact (hw _).mpr ⟨hreg, fun hx => hout _ hx hreg⟩
    · intro i hi
      rcases (hch i).2.1 with h | ⟨x, _, _, h⟩
      · exact hc.answered i (h ▸ hi)
      · rw [h] at hi; cases hi

theorem inv_step (cap : ℕ) (c c' : ArchiveCoordinator) (hc : Inv c) (h : Step cap c c') : Inv c' := by
  cases h with
  | fetchChunks required queuedAt archiveLen => exact inv_fetchChunks c hc required queuedAt archiveLen
  | dropReceiver id => exact inv_dropReceiver c hc id
  | schedulerPass task now h => exact inv_schedulerPass c hc task cap now h
  | wakeScheduler task h _ => exact inv_wakeScheduler c hc task h
  | completeGroup group g res h =>
    exact inv_removeDrainableState _ (inv_completionSection c hc group g res h).1

theorem inv_reachable (cap : ℕ) (c : ArchiveCoordinator) (h : Reachable (coordinatorMachine cap) c) : Inv c :=
  h.invariant inv_init (inv_step cap)

end ArchiveCoordinator

/-! ## The coordinator of all archives -/

/-- `ChunkFetchCoordinator`: one coordinator per archive key behind one lock. -/
def chunkFetchCoordinator (κ : Type) [DecidableEq κ] (maxFetchChunks : ℕ) : Machine (κ → ArchiveCoordinator) :=
  keyed (fun _ => coordinatorMachine maxFetchChunks)

open ArchiveCoordinator in
/-- In every reachable state of every interleaving: live waiters are covered, inflight marks belong
to uncompleted groups, the slot count is the number of those groups, pending work has a scheduler
that waits for capacity only while a permit or a full set of groups will wake it, and a state is
removed only without live waiters. So every receiver handed out is answered, was dropped by its
caller, or is still registered for a chunk that is pending or being fetched. -/
theorem no_live_waiter_orphaned {κ : Type} [DecidableEq κ] (maxFetchChunks : ℕ)
    (coordinators : κ → ArchiveCoordinator) (archive : κ)
    (h : Reachable (chunkFetchCoordinator κ maxFetchChunks) coordinators) :
    let c := coordinators archive
    let s := c.current
    (∀ w ∈ s.waiters, (c.channels w.2).status = .waiting →
        w.1 ∈ s.pendingChunks ∨ ∃ g ∈ c.groups, w.1 ∈ g.chunkRange) ∧
      (∀ x ∈ s.inflightChunks, ∃ g ∈ c.groups, x ∈ g.chunkRange) ∧
      (s.inflightFetchCount = c.groups.length ∧ c.groups.length ≤ 32 ∧
        ∀ (group : ℕ) (g : DispatchedGroup), c.groups[group]? = some g → c.state.isSome = true ∧ 1 ≤ s.inflightFetchCount) ∧
      (((∃ x, x ∈ s.pendingChunks) → s.schedulerRunning = true ∧ c.schedulers.length = 1) ∧
        (.waitingCapacity ∈ c.schedulers → s.capacityAvailable = true ∨ 32 ≤ c.groups.length)) ∧
      ((∀ task now : ℕ, c.schedulers[task]? = some .ready →
          let removal := (c.schedulerSection task maxFetchChunks now).1
          removal.removeDrainableState.2 = true → NoLiveWaiter removal) ∧
        ∀ (group : ℕ) (g : DispatchedGroup) result, c.groups[group]? = some g →
          let removal := c.completionSection group g.chunkRange result
          removal.removeDrainableState.2 = true → NoLiveWaiter removal) ∧
      ∀ i < c.nextChannel, (c.channels i).status ≠ .abandoned ∧
        ((c.channels i).status = .waiting →
          ((c.channels i).chunkIndex, i) ∈ s.waiters ∧
            ((c.channels i).chunkIndex ∈ s.pendingChunks ∨
              ∃ g ∈ c.groups, (c.channels i).chunkIndex ∈ g.chunkRange)) := by
  have hc : Inv (coordinators archive) := inv_reachable maxFetchChunks _ (keyed_reachable h archive)
  intro c s
  have hdrain : ∀ c' : ArchiveCoordinator, Inv c' → c'.removeDrainableState.2 = true → NoLiveWaiter c' := by
    intro c' hc' hremoved
    unfold removeDrainableState at hremoved
    split_ifs at hremoved with hcond
    rw [Bool.and_eq_true] at hcond
    exact (hc'.noLiveWaiter hcond.1).2.2
  refine ⟨hc.covered, hc.inflight, ⟨hc.count, hc.bounded, ?_⟩, ⟨?_, ?_⟩, ⟨?_, ?_⟩, ?_⟩
  · intro group g hg
    have hpos := (inv_completionSection c hc group g (.ok fun _ => none) hg).2
    refine ⟨?_, hpos⟩
    cases hs : c.state with
    | some state => rfl
    | none => simp [current, hs] at hpos
  · rintro ⟨x, hx⟩
    have hrun := hc.running x hx
    have hlen := hc.scheduled
    rw [hrun, if_pos rfl] at hlen
    exact ⟨hrun, hlen⟩
  · intro hwait
    rcases hc.throttled hwait with hcap | ⟨hfull, _⟩
    · exact .inl hcap
    · exact .inr (hc.count ▸ hfull)
  · intro task now htask removal hremoved
    exact hdrain _ (inv_schedulerSection c hc task maxFetchChunks now htask) hremoved
  · intro group g result hg removal hremoved
    exact hdrain _ (inv_completionSection c hc group g result hg).1 hremoved
  · intro i _
    refine ⟨hc.answered i, fun hi => ?_⟩
    have hreg := hc.registered i hi
    exact ⟨hreg, hc.covered _ hreg hi⟩

/-- Chunk 2 is being fetched when 1 and 3 are requested: gap filling dispatches `1..4` over it. -/
def overlappingGroups : ArchiveCoordinator :=
  let c := (({} : ArchiveCoordinator).fetchChunks [2] 0 64).1.schedulerPass 0 4 0
  (c.fetchChunks [1, 3] 0 64).1.schedulerPass 0 4 0

theorem overlappingGroups_reachable : Reachable (chunkFetchCoordinator Unit 4) (fun _ => overlappingGroups) := by
  have h1 : Reachable (coordinatorMachine 4) _ := Reachable.init.step (.fetchChunks {} [2] 0 64)
  have h2 := h1.step (.schedulerPass _ 0 0 rfl)
  have h3 := h2.step (.fetchChunks _ [1, 3] 0 64)
  exact keyed_unit_reachable (h3.step (.schedulerPass _ 0 0 rfl))

theorem overlappingGroups_not_orphaned :
    overlappingGroups.groups.map DispatchedGroup.chunkRange = [⟨2, 3⟩, ⟨1, 4⟩] ∧
      overlappingGroups.current.inflightFetchCount = overlappingGroups.groups.length ∧
      ∀ i < overlappingGroups.nextChannel, (overlappingGroups.channels i).status ≠ .abandoned := by
  obtain ⟨_, _, ⟨hcount, _⟩, _, _, hchannels⟩ :=
    no_live_waiter_orphaned 4 (fun _ => overlappingGroups) () overlappingGroups_reachable
  exact ⟨by decide, hcount, fun i hi => (hchannels i hi).1⟩

end Mappf.ChunkedStore
