import Mappf.ChunkedStore.StoreRun
import Mathlib.Data.List.InsertIdx

/-! # Every read returns the archive's bytes

What ties the store to the archive: every chunk that sits in the cache, travels through a channel
or is held by a read or a group task is the archive's chunk of its index, and every dispatched
group lies inside the archive. -/
namespace Mappf.ChunkedStore
open List

/-! ## Ranges handed out by the scheduler -/

variable {size L : ℕ} {chunks resolved : ℕ → Option Bytes}

theorem contiguousChunkRanges_valid (hsize : 0 < size) (hL : L < 2 ^ 64)
    (maxFetch maxGap : ℕ) (chunks : OrderedSet ℕ) (hin : ∀ c ∈ chunks, c * size < L) :
    ∀ g ∈ contiguousChunkRanges chunks maxFetch maxGap, ValidGroup size L g := by
  intro g hg
  have hsmall : ∀ c ∈ chunks, c + 1 < 2 ^ 64 := by
    intro c hc
    have hle : c ≤ c * size := Nat.le_mul_of_pos_right c hsize
    have := hin c hc
    omega
  have htight := (contiguousChunkRanges_spec chunks maxFetch maxGap hsmall).1 g hg
  exact ⟨htight.nonempty, hin _ htight.last⟩

namespace ArchiveCoordinator

/-! ## The coordinator's content -/

structure Content (A : Bytes) (chunkSize : ℕ) (c : ArchiveCoordinator) : Prop where
  archiveLen : ∀ s, c.state = some s → s.archiveLen = A.length
  pending : ∀ x ∈ c.current.pendingChunks, x * chunkSize < A.length
  groups : ∀ g ∈ c.groups, ValidGroup chunkSize A.length g.chunkRange ∧ g.archiveLen = A.length
  sent : ∀ i b, (c.channels i).status = .sent (.ok b) → b = archiveChunk A chunkSize (c.channels i).chunkIndex

structure Extends (c c' : ArchiveCoordinator) : Prop where
  next : c.nextChannel ≤ c'.nextChannel
  chunkIndex : ∀ i < c.nextChannel, (c'.channels i).chunkIndex = (c.channels i).chunkIndex

variable {A : Bytes}

theorem Extends.refl (c : ArchiveCoordinator) : Extends c c := ⟨le_rfl, fun _ _ => rfl⟩

variable {c : ArchiveCoordinator}

theorem Extends.trans {c' c'' : ArchiveCoordinator} (h : Extends c c') (h' : Extends c' c'') : Extends c c'' :=
  ⟨h.next.trans h'.next, fun i hi => (h'.chunkIndex i (hi.trans_le h.next)).trans (h.chunkIndex i hi)⟩

theorem content_init : Content A size {} where
  archiveLen := by simp
  pending := by simp [current]
  groups := by simp
  sent := by simp

theorem Content.current_archiveLen (hc : Content A size c) :
    c.current.archiveLen = 0 ∨ c.current.archiveLen = A.length := by
  cases hs : c.state with
  | none => left; simp [current, hs]
  | some s => right; simpa [current, hs] using hc.archiveLen s hs

theorem fetchChunks_state (c : ArchiveCoordinator) (required : List ℕ) (queuedAt archiveLen : ℕ) :
    (c.fetchChunks required queuedAt archiveLen).1.state = some (c.fetchChunks required queuedAt archiveLen).1.current ∧
    (c.fetchChunks required queuedAt archiveLen).2.map (fun e => (e.chunkIndex, e.receiver)) =
      required.zipIdx c.nextChannel := by
  have hjoin := (TilesetFetchState.enqueueChunks_spec queuedAt required
    { c.current with archiveLen := max c.current.archiveLen archiveLen } c.nextChannel).2.2.2.2.2.2.2
  revert hjoin
  simp only [fetchChunks]
  generalize ({ c.current with archiveLen := max c.current.archiveLen archiveLen } :
    TilesetFetchState).enqueueChunks queuedAt required c.nextChannel = enqueued
  intro hjoin
  split_ifs <;> exact ⟨rfl, hjoin⟩

theorem content_fetchChunks (hc : Content A size c) (required : List ℕ)
    (hreq : ∀ x ∈ required, x * size < A.length) (queuedAt : ℕ) :
    Content A size (c.fetchChunks required queuedAt A.length).1 := by
  obtain ⟨hcur, hch, hnext, hgrps, _⟩ := fetchChunks_current c required queuedAt A.length
  obtain ⟨_, _, _, _, _, hlen, hpend, _⟩ := TilesetFetchState.enqueueChunks_spec queuedAt required
    { c.current with archiveLen := max c.current.archiveLen A.length } c.nextChannel
  obtain ⟨hstate, _⟩ := fetchChunks_state c required queuedAt A.length
  constructor
  · intro s hs
    rw [hstate, Option.some.injEq] at hs
    rw [← hs, hcur]
    have hmax : max c.current.archiveLen A.length = A.length := by
      cases hc.current_archiveLen with
      | inl h => rw [h]; exact Nat.zero_max _
      | inr h => rw [h]; exact Nat.max_self _
    exact hlen.trans hmax
  · intro x hx
    rw [hcur] at hx
    cases (hpend x).mp hx with
    | inl h => exact hc.pending x h
    | inr h => exact hreq x h.1
  · rw [hgrps]
    exact hc.groups
  · intro i b hi
    rw [hch] at hi ⊢
    cases allocate_cases c.channels required c.nextChannel i with
    | inl hnew =>
      obtain ⟨x, _, he⟩ := hnew
      simp [he] at hi
    | inr he =>
      rw [he] at hi ⊢
      exact hc.sent i b hi

theorem extends_fetchChunks (c : ArchiveCoordinator) (required : List ℕ) (queuedAt archiveLen : ℕ) :
    Extends c (c.fetchChunks required queuedAt archiveLen).1 := by
  obtain ⟨_, hch, hnext, _⟩ := fetchChunks_current c required queuedAt archiveLen
  refine ⟨by omega, ?_⟩
  intro i hi
  rw [hch, allocate_lt c.channels required hi]

theorem content_dropReceiver (hc : Content A size c) (id : ℕ) : Content A size (c.dropReceiver id) := by
  refine { hc with sent := ?_ }
  intro i b hi
  rw [show (c.dropReceiver id).channels i = c.channels.dropReceiver id i from rfl] at hi ⊢
  rw [Channels.dropReceiver_chunkIndex]
  cases c.channels.dropReceiver_status id i with
  | inl h => exact hc.sent i b (h ▸ hi)
  | inr h => rw [h.2.2] at hi; cases hi

theorem extends_dropReceiver (c : ArchiveCoordinator) (id : ℕ) : Extends c (c.dropReceiver id) :=
  ⟨le_rfl, fun i _ => c.channels.dropReceiver_chunkIndex id i⟩

theorem removeDrainableState_content (hinv : Inv c) (hc : Content A size c) :
    Content A size c.removeDrainableState.1 ∧ Extends c c.removeDrainableState.1 ∧
      c.removeDrainableState.1.groups = c.groups := by
  unfold removeDrainableState
  split_ifs with h
  · rw [Bool.and_eq_true] at h
    obtain ⟨_, _, hnone⟩ := hinv.noLiveWaiter h.1
    rw [foldl_dropSender c.current.waiters c.channels hnone]
    refine ⟨⟨by simp, ?_, hc.groups, hc.sent⟩, ⟨le_rfl, fun _ _ => rfl⟩, rfl⟩
    nofun
  · exact ⟨hc, Extends.refl c, rfl⟩

theorem schedulerSection_content (hsize : 0 < size) (hL : A.length < 2 ^ 64) (hc : Content A size c)
    (hsome : c.state.isSome = true) (task cap now : ℕ) : let c' := (c.schedulerSection task cap now).1
    Content A size c' ∧ Extends c c' ∧ ∃ dispatched, c'.groups = c.groups ++ dispatched := by
  obtain ⟨_, hp, _, _, _, _, hlen⟩ := c.current.pruneCancelledWaiters_spec c.channels
  have hold : c.current.archiveLen = A.length := by
    obtain ⟨s, hs⟩ := Option.isSome_iff_exists.mp hsome
    simpa [current, hs] using hc.archiveLen s hs
  unfold schedulerSection
  generalize c.current.pruneCancelledWaiters c.channels = p at *
  obtain ⟨pruned, cancelled⟩ := p
  dsimp only at hp hlen ⊢
  have hpend : ∀ x ∈ pruned.pendingChunks, x * size < A.length := fun x hx => hc.pending x ((hp x).mp hx).1
  have hplen : pruned.archiveLen = A.length := hlen.trans hold
  obtain ⟨_, he⟩ | ⟨_, he, _⟩ | ⟨groups, delay, count, he, _, hsel⟩ := pruned.selectDispatchGroups_cases cap now
  · rw [he]
    exact ⟨⟨fun s hs => by cases hs; exact hplen, hpend, hc.groups, hc.sent⟩, ⟨le_rfl, fun _ _ => rfl⟩, [], by simp⟩
  · rw [he]
    exact ⟨⟨fun s hs => by cases hs; exact hplen, hpend, hc.groups, hc.sent⟩, ⟨le_rfl, fun _ _ => rfl⟩, [], by simp⟩
  · obtain ⟨_, _, _, _, hrlen, _, hrp⟩ := pruned.reserve_spec groups
    rw [he]
    refine ⟨⟨?_, ?_, ?_, hc.sent⟩, ⟨le_rfl, fun _ _ => rfl⟩, _, rfl⟩
    · intro s hs
      cases hs
      exact hrlen.trans hplen
    · intro x hx
      exact hpend x ((hrp x).mp hx).1
    · intro g hg
      cases mem_append.mp hg with
      | inl h => exact hc.groups g h
      | inr h =>
        obtain ⟨r, hr, rfl⟩ := mem_map.mp h
        exact ⟨contiguousChunkRanges_valid hsize hL _ _ _ hpend r (hsel r hr), hplen⟩

theorem schedulerPass_content (hsize : 0 < size) (hL : A.length < 2 ^ 64) (hinv : Inv c)
    (hc : Content A size c) (task cap now : ℕ) (h : c.schedulers[task]? = some .ready) : let c' := c.schedulerPass task cap now
    Content A size c' ∧ Extends c c' ∧ ∃ dispatched, c'.groups = c.groups ++ dispatched := by
  obtain ⟨_, _, _, hsome⟩ := hinv.single_scheduler h
  obtain ⟨hc', hext, dispatched, hgrps⟩ := schedulerSection_content hsize hL hc hsome task cap now
  have hinv' := inv_schedulerSection c hinv task cap now h
  have hnone : ¬ c.state.isNone = true := by
    rw [Option.isNone_iff_eq_none]
    intro hn
    simp [hn] at hsome
  intro c'
  have hpass : c' = if (c.schedulerSection task cap now).2 = .idle
      then (c.schedulerSection task cap now).1.removeDrainableState.1
      else (c.schedulerSection task cap now).1 := if_neg hnone
  rw [hpass]
  split_ifs
  · obtain ⟨hrem, hrext, hrgroups⟩ := removeDrainableState_content hinv' hc'
    exact ⟨hrem, hext.trans hrext, dispatched, hrgroups.trans hgrps⟩
  · exact ⟨hc', hext, dispatched, hgrps⟩

theorem content_wakeScheduler (hc : Content A size c) (task : ℕ) : Content A size (c.wakeScheduler task) := by
  constructor
  · intro s hs
    obtain ⟨s', hs', rfl⟩ := Option.map_eq_some_iff.mp hs
    exact hc.archiveLen s' hs'
  · intro x hx
    apply hc.pending x
    cases hs : c.state with
    | none => simp [current, wakeScheduler, hs] at hx
    | some s => simpa [current, wakeScheduler, hs] using hx
  · exact hc.groups
  · exact hc.sent

theorem completionSection_content (hinv : Inv c) (hc : Content A size c) (group : ℕ) (r : ChunkRange)
    (res : Except ChunkFetchError (ℕ → Option Bytes)) (hresult : ∀ chunks, res = .ok chunks → ChunksOf A size chunks) :
    Content A size (c.completionSection group r res) ∧ Extends c (c.completionSection group r res) ∧
      (c.completionSection group r res).groups = c.groups.eraseIdx group := by
  have hgrps : ∀ g ∈ c.groups.eraseIdx group, ValidGroup size A.length g.chunkRange ∧ g.archiveLen = A.length :=
    fun g hg => hc.groups g (mem_of_mem_eraseIdx hg)
  unfold completionSection
  cases hstate : c.state with
  | none =>
    refine ⟨⟨by simp, ?_, hgrps, hc.sent⟩, ⟨le_rfl, fun _ _ => rfl⟩, rfl⟩
    intro x hx
    simp [current] at hx
  | some state =>
    dsimp only
    have hcur : c.current = state := by simp [current, hstate]
    obtain ⟨hp, _, _, _, hlen, _, _, hch⟩ := state.completeGroup_spec c.channels r res
    generalize state.completeGroup c.channels r res = out at *
    obtain ⟨state', channels', outcome⟩ := out
    refine ⟨⟨?_, ?_, hgrps, ?_⟩, ⟨le_rfl, fun i _ => (hch i).1⟩, rfl⟩
    · intro s hs
      cases hs
      exact hlen.trans (hc.archiveLen state hstate)
    · intro x hx
      apply hc.pending x
      rw [hcur, ← hp]
      exact hx
    · intro i b hi
      obtain ⟨hidx, hst, _⟩ := hch i
      rw [hidx]
      cases hst with
      | inl h => exact hc.sent i b (h ▸ hi)
      | inr h =>
        obtain ⟨x, _, hw, hs⟩ := h
        have hx : (c.channels i).chunkIndex = x := (hinv.numbered (x, i) (by rw [hcur]; exact hw)).2
        rw [hs, ChannelStatus.sent.injEq] at hi
        rw [hx]
        -- The waiter received the entry of its own chunk in the group's result.
        unfold TilesetFetchState.chunkResult at hi
        cases res with
        | error e => cases hi
        | ok chunks =>
          cases hb : chunks x with
          | none => simp [hb] at hi
          | some b' =>
            simp only [hb, Except.ok.injEq] at hi
            rw [← hi]
            exact hresult chunks rfl x b' hb

end ArchiveCoordinator

open ArchiveCoordinator

variable {A : Bytes} {length start : ℕ}

/-! ## Group tasks and reads -/

def GroupPhase.Holds (A : Bytes) (chunkSize : ℕ) : GroupPhase → Prop
  | .fetching => True
  | .caching rest chunks => (∀ e ∈ rest, e.2 = archiveChunk A chunkSize e.1) ∧ ChunksOf A chunkSize chunks
  | .finished (.ok chunks) => ChunksOf A chunkSize chunks
  | .finished (.error _) => True

def ReadPhase.Holds (A : Bytes) (chunkSize : ℕ) (c : ArchiveCoordinator) (start length : ℕ) : ReadPhase → Prop
  | .probing rest resolved missing => start + length ≤ A.length ∧ (∀ x ∈ rest, x * chunkSize < A.length) ∧
      (∀ x ∈ missing, x * chunkSize < A.length) ∧ ChunksOf A chunkSize resolved
  | .awaiting receivers fetched resolved => start + length ≤ A.length ∧
      (∀ w ∈ receivers, w.2 < c.nextChannel ∧ (c.channels w.2).chunkIndex = w.1) ∧
      ChunksOf A chunkSize fetched ∧ ChunksOf A chunkSize resolved
  | .done (.ok out) => start + length ≤ A.length ∧ out.bytes = slice A start (start + length)
  | .done (.error _) => True
  | .cancelled => start + length ≤ A.length

theorem chunksOf_none : ChunksOf A size (fun _ => none) := by
  nofun

theorem ChunksOf.update (h : ChunksOf A size chunks) {c : ℕ} {b : Bytes}
    (hb : b = archiveChunk A size c) : ChunksOf A size (Function.update chunks c (some b)) := by
  rw [hb]
  exact h.insert c

theorem ChunksOf.extend {fetched : ℕ → Option Bytes} (hr : ChunksOf A size resolved)
    (hf : ChunksOf A size fetched) : ChunksOf A size (extendChunks resolved fetched) := by
  intro c b h
  unfold extendChunks at h
  cases hfc : fetched c with
  | none => rw [hfc, Option.none_or] at h; exact hr c b h
  | some b' => rw [hfc, Option.some_or] at h; cases h; exact hf c _ hfc

theorem fetchAnswered_holds (hsize : 0 < size)
    {objectStore : ℕ → ℕ → Except ChunkFetchError Bytes} (hserves : Serves A objectStore) {g : DispatchedGroup}
    (hg : ValidGroup size A.length g.chunkRange ∧ g.archiveLen = A.length) :
    (fetchAnswered size objectStore g).Holds A size := by
  unfold fetchAnswered
  rw [hg.2]
  cases hf : fetchChunkGroup size objectStore g.chunkRange A.length with
  | error e => exact trivial
  | ok bytes =>
    dsimp only
    rw [cutChunkGroup_ok hsize hg.1 hserves hf]
    refine ⟨?_, chunksOf_none⟩
    intro e he
    obtain ⟨c, _, rfl⟩ := mem_map.mp he
    rfl

theorem ReadPhase.Holds.extends {c c' : ArchiveCoordinator} (hext : Extends c c')
    {phase : ReadPhase} (h : phase.Holds A size c start length) : phase.Holds A size c' start length := by
  cases phase with
  | awaiting receivers fetched resolved =>
    obtain ⟨hrange, hrec, hmaps⟩ := h
    refine ⟨hrange, ?_, hmaps⟩
    intro w hw
    obtain ⟨hlt, hidx⟩ := hrec w hw
    exact ⟨hlt.trans_le hext.next, (hext.chunkIndex w.2 hlt).trans hidx⟩
  | probing rest resolved missing | cancelled => exact h
  | done res =>
    cases res with
    | ok out | error e => exact h

/-! ### Steps of a read -/

theorem validateByteRange_ok {archiveLen stop : ℕ} (h : validateByteRange start length (some archiveLen) = .ok stop) :
    stop = start + length ∧ stop ≤ archiveLen := by
  unfold validateByteRange at h
  cases hadd : checkedAdd start length with
  | none => simp [hadd] at h
  | some e =>
    obtain ⟨_, rfl⟩ := checkedAdd_eq_some.mp hadd
    simp only [hadd] at h
    split_ifs at h with hout
    cases h
    omega

variable (c : ArchiveCoordinator)

theorem beginRead_holds (start length : ℕ) (hsize : 0 < size) :
    (beginRead A.length size start length).Holds A size c start length := by
  unfold beginRead
  cases hv : validateByteRange start length (some A.length) with
  | error e => exact trivial
  | ok stop =>
    obtain ⟨rfl, hle⟩ := validateByteRange_ok hv
    split_ifs with hzero
    · subst hzero
      exact ⟨hle, (slice_self A start).symm⟩
    · refine ⟨hle, ?_, by simp, chunksOf_none⟩
      intro x hx
      have hlast : x ≤ (start + length - 1) / size := by
        have hx' := mem_range'_1.mp hx
        simp only [byteRangeToChunkRange, chunkIndex] at hx'
        omega
      have hmul : x * size ≤ start + length - 1 := (Nat.le_div_iff_mul_le hsize).mp hlast
      omega

theorem probeChunk_holds {chunk : ℕ} {rest missing : List ℕ} {cache : ℕ → Option Bytes} (hcache : ChunksOf A size cache)
    (h : (ReadPhase.probing (chunk :: rest) resolved missing).Holds A size c start length) :
    (probeChunk cache chunk rest resolved missing).Holds A size c start length := by
  obtain ⟨hrange, hrest, hmiss, hres⟩ := h
  have hrest' : ∀ x ∈ rest, x * size < A.length := fun x hx => hrest x (mem_cons_of_mem _ hx)
  unfold probeChunk
  cases hc : cache chunk with
  | some bytes => exact ⟨hrange, hrest', hmiss, hres.update (hcache chunk bytes hc)⟩
  | none =>
    refine ⟨hrange, hrest', ?_, hres⟩
    intro x hx
    cases mem_append.mp hx with
    | inl h => exact hmiss x h
    | inr h => rw [mem_singleton.mp h]; exact hrest chunk (mem_cons_self ..)

theorem answer_holds (hch : ChunksOf A size chunks) (hrange : start + length ≤ A.length) (source : ChunkReadSource) :
    (answer size start length chunks source).Holds A size c start length := by
  unfold answer
  cases hr : readResolvedBytes size start length chunks with
  | error e => exact trivial
  | ok bytes => exact ⟨hrange, readResolvedBytes_correct A size start length chunks hch hrange bytes hr⟩

namespace ArchiveStore

/-! ## The invariant of the store -/

structure StoreInv (A : Bytes) (chunkSize : ℕ) (s : ArchiveStore) : Prop where
  inv : Inv s.coordinator
  content : Content A chunkSize s.coordinator
  groups : s.tasks.map GroupTask.group = s.coordinator.groups
  tasks : ∀ t ∈ s.tasks, t.phase.Holds A chunkSize
  cache : ChunksOf A chunkSize s.cache
  reads : ∀ r ∈ s.reads, r.phase.Holds A chunkSize s.coordinator r.start r.length

theorem storeInv_init : StoreInv A size {} :=
  ⟨inv_init, content_init, rfl, by simp, chunksOf_none, by simp⟩

variable {s : ArchiveStore} {t : GroupTask}

section

variable (h : StoreInv A size s) {r : ReadTask}
include h

theorem StoreInv.valid (ht : t ∈ s.tasks) :
    ValidGroup size A.length t.group.chunkRange ∧ t.group.archiveLen = A.length := by
  apply h.content.groups
  rw [← h.groups]
  exact mem_map.mpr ⟨t, ht, rfl⟩

theorem StoreInv.setRead (i : ℕ) (r : ReadTask) {phase : ReadPhase}
    (hphase : phase.Holds A size s.coordinator r.start r.length) : StoreInv A size (s.setRead i r phase) := by
  refine { h with reads := ?_ }
  intro r' hr'
  cases mem_or_eq_of_mem_set hr' with
  | inl hold => exact h.reads r' hold
  | inr heq => rw [heq]; exact hphase

theorem StoreInv.setTask {i : ℕ} (ht : s.tasks[i]? = some t) {phase : GroupPhase}
    (hphase : phase.Holds A size) : StoreInv A size (s.setTask i t phase) := by
  refine { h with groups := ?_, tasks := ?_ }
  · have hg : (s.tasks.map GroupTask.group)[i]? = some t.group := by rw [getElem?_map, ht]; rfl
    show (s.tasks.set i { t with phase }).map GroupTask.group = s.coordinator.groups
    rw [← h.groups, map_set]
    obtain ⟨hlt, he⟩ := List.getElem?_eq_some_iff.mp hg
    rw [← he]
    exact set_getElem_self hlt
  · intro t' ht'
    cases mem_or_eq_of_mem_set ht' with
    | inl hold => exact h.tasks t' hold
    | inr heq => rw [heq]; exact hphase

theorem StoreInv.withCoordinator {c : ArchiveCoordinator} (hinv : Inv c)
    (hc : Content A size c) (hext : Extends s.coordinator c) (hgrps : c.groups = s.coordinator.groups) :
    StoreInv A size { s with coordinator := c } :=
  { h with
    inv := hinv
    content := hc
    groups := h.groups.trans hgrps.symm
    reads := fun r hr => (h.reads r hr).extends hext }

theorem StoreInv.dropReceivers (receivers : List (ℕ × ℕ)) : StoreInv A size (s.dropReceivers receivers) := by
  induction receivers generalizing s with
  | nil => exact h
  | cons w rest ih =>
    have hdrop := h.withCoordinator (inv_dropReceiver _ h.inv w.2) (content_dropReceiver h.content w.2)
      (extends_dropReceiver _ w.2) rfl
    exact ih hdrop

theorem StoreInv.probed (queuedAt i : ℕ)
    {missing : List ℕ} (hr : (ReadPhase.probing [] resolved missing).Holds A size s.coordinator r.start r.length) :
    StoreInv A size (s.probed size A.length queuedAt i r resolved missing) := by
  obtain ⟨hrange, _, hmiss, hres⟩ := hr
  unfold ArchiveStore.probed
  split_ifs
  · exact h.setRead i r (answer_holds _ hres hrange _)
  · have hext := extends_fetchChunks s.coordinator missing queuedAt A.length
    have hinv := inv_fetchChunks s.coordinator h.inv missing queuedAt A.length
    obtain ⟨_, hch, hnext, hgrps, _⟩ := fetchChunks_current s.coordinator missing queuedAt A.length
    have hstore := h.withCoordinator hinv (content_fetchChunks h.content missing hmiss queuedAt) hext hgrps
    obtain ⟨_, hjoin⟩ := fetchChunks_state s.coordinator missing queuedAt A.length
    have hreceivers : ∀ w ∈ missing.zipIdx s.coordinator.nextChannel,
        w.2 < (s.coordinator.fetchChunks missing queuedAt A.length).1.nextChannel ∧
          ((s.coordinator.fetchChunks missing queuedAt A.length).1.channels w.2).chunkIndex = w.1 := by
      intro w hw
      have hge := le_snd_of_mem_zipIdx hw
      have hlt := snd_lt_add_of_mem_zipIdx hw
      refine ⟨by rw [hnext]; exact hlt, ?_⟩
      rw [mem_zipIdx_iff_le_and_getElem?_sub] at hw
      rw [hch]
      simp [allocate, Nat.not_lt.mpr hge, hw.2]
    rw [← hjoin] at hreceivers
    apply hstore.setRead i r
    exact ⟨hrange, hreceivers, chunksOf_none, hres⟩

theorem StoreInv.receive (i : ℕ) {w : ℕ × ℕ} {receivers : List (ℕ × ℕ)}
    {fetched : ℕ → Option Bytes} {res : Except ChunkFetchError Bytes}
    (hr : (ReadPhase.awaiting (w :: receivers) fetched resolved).Holds A size s.coordinator r.start r.length)
    (hresult : received (s.coordinator.channels w.2).status = some res) :
    StoreInv A size (s.receive i r w.1 receivers fetched resolved res) := by
  obtain ⟨hrange, hrec, hfetched, hres⟩ := hr
  cases res with
  | error e => exact (h.dropReceivers receivers).setRead i r trivial
  | ok bytes =>
    have hsent : (s.coordinator.channels w.2).status = .sent (.ok bytes) := by
      cases hst : (s.coordinator.channels w.2).status with
      | waiting | closed | abandoned => rw [hst] at hresult; cases hresult
      | sent out => rw [hst] at hresult; cases hresult; rfl
    have hbytes := h.content.sent w.2 bytes hsent
    rw [(hrec w (mem_cons_self ..)).2] at hbytes
    exact h.setRead i r ⟨hrange, fun v hv => hrec v (mem_cons_of_mem _ hv), hfetched.update hbytes, hres⟩

end

theorem StoreInv.schedulerPass (hsize : 0 < size) (hL : A.length < 2 ^ 64) (h : StoreInv A size s)
    (task cap now : ℕ) (hready : s.coordinator.schedulers[task]? = some .ready) :
    StoreInv A size (s.schedulerPass task cap now) := by
  obtain ⟨hc, hext, dispatched, hgrps⟩ :=
    schedulerPass_content hsize hL h.inv h.content task cap now hready
  refine ⟨inv_schedulerPass _ h.inv task cap now hready, hc, ?_, ?_, h.cache, ?_⟩
  · have hnew : (dispatched.map (fun g => (⟨g, .fetching⟩ : GroupTask))).map GroupTask.group = dispatched := by
      rw [map_map]
      exact map_id dispatched
    show (s.tasks ++ ((s.coordinator.schedulerPass task cap now).groups.drop
      s.coordinator.groups.length).map (fun g => (⟨g, .fetching⟩ : GroupTask))).map GroupTask.group =
      (s.coordinator.schedulerPass task cap now).groups
    rw [hgrps, drop_left, map_append, h.groups, hnew]
  · intro t ht
    cases mem_append.mp ht with
    | inl hold => exact h.tasks t hold
    | inr hnew =>
      obtain ⟨g, _, rfl⟩ := mem_map.mp hnew
      exact trivial
  · intro r hr
    exact (h.reads r hr).extends hext

theorem StoreInv.complete (h : StoreInv A size s) {i : ℕ} (ht : s.tasks[i]? = some t)
    (res : Except ChunkFetchError (ℕ → Option Bytes)) (hresult : ∀ chunks, res = .ok chunks → ChunksOf A size chunks) :
    StoreInv A size (s.complete i t res) := by
  have hg : s.coordinator.groups[i]? = some t.group := by
    rw [← h.groups, getElem?_map, ht]
    rfl
  obtain ⟨hinv, _⟩ := inv_completionSection s.coordinator h.inv i t.group res hg
  obtain ⟨hc, hext, hgrps⟩ := completionSection_content h.inv h.content i t.group.chunkRange res hresult
  obtain ⟨hc', hext', hgrps'⟩ := removeDrainableState_content hinv hc
  refine ⟨inv_removeDrainableState _ hinv, hc', ?_, ?_, h.cache, ?_⟩
  · show (s.tasks.eraseIdx i).map GroupTask.group =
      (s.coordinator.completionSection i t.group.chunkRange res).removeDrainableState.1.groups
    rw [hgrps', hgrps, ← h.groups, eraseIdx_map]
  · intro t' ht'
    exact h.tasks t' (mem_of_mem_eraseIdx ht')
  · intro r hr
    exact (h.reads r hr).extends (hext.trans hext')

theorem storeInv_step (hsize : 0 < size) (hL : A.length < 2 ^ 64) (cap : ℕ)
    (s s' : ArchiveStore) (h : StoreInv A size s) (hstep : Step A size cap s s') : StoreInv A size s' := by
  have hread : ∀ {i : ℕ} {r : ReadTask} {phase : ReadPhase}, s.reads[i]? = some r → r.phase = phase →
      phase.Holds A size s.coordinator r.start r.length := by
    intro i r phase hr hphase
    rw [← hphase]
    exact h.reads r (mem_of_getElem? hr)
  have htask : ∀ {i : ℕ} {t : GroupTask} {phase : GroupPhase}, s.tasks[i]? = some t → t.phase = phase →
      phase.Holds A size := by
    intro i t phase ht hphase
    rw [← hphase]
    exact h.tasks t (mem_of_getElem? ht)
  cases hstep with
  | readBytes start length _ _ =>
    refine { h with reads := ?_ }
    intro r hr
    cases mem_append.mp hr with
    | inl hold => exact h.reads r hold
    | inr hnew => rw [mem_singleton.mp hnew]; exact beginRead_holds _ start length hsize
  | probe i r chunk rest resolved missing hr hphase =>
    exact h.setRead i r (probeChunk_holds _ h.cache (hread hr hphase))
  | probed i queuedAt r resolved missing hr hphase => exact h.probed queuedAt i (hread hr hphase)
  | receive i r w receivers fetched resolved res hr hphase hresult =>
    exact h.receive i (hread hr hphase) hresult
  | fetched i r fetched resolved hr hphase =>
    obtain ⟨hrange, _, hfetched, hres⟩ := hread hr hphase
    exact h.setRead i r (answer_holds _ (hres.extend hfetched) hrange _)
  | cancelProbing i r rest resolved missing hr hphase => exact h.setRead i r (hread hr hphase).1
  | cancelAwaiting i r receivers fetched resolved hr hphase =>
    exact (h.dropReceivers receivers).setRead i r (hread hr hphase).1
  | schedulerPass task now hready => exact h.schedulerPass hsize hL task cap now hready
  | wakeScheduler task hwait _ =>
    exact h.withCoordinator (inv_wakeScheduler _ h.inv task hwait) (content_wakeScheduler h.content task)
      ⟨le_rfl, fun _ _ => rfl⟩ rfl
  | answered i t objectStore ht _ hserves =>
    exact h.setTask ht (fetchAnswered_holds hsize hserves (h.valid (mem_of_getElem? ht)))
  | cacheChunk i t chunk rest chunks ht hphase =>
    obtain ⟨hrest, hchunks⟩ := htask ht hphase
    have hchunk := hrest chunk (mem_cons_self ..)
    have hcached : StoreInv A size { s with cache := Function.update s.cache chunk.1 (some chunk.2) } :=
      { h with cache := h.cache.update hchunk }
    exact hcached.setTask ht ⟨fun e he => hrest e (mem_cons_of_mem _ he), hchunks.update hchunk⟩
  | cached i t chunks ht hphase => exact h.setTask ht (htask ht hphase).2
  | complete i t res ht hphase =>
    apply h.complete ht res
    intro chunks hok
    subst hok
    exact htask ht hphase
  | abort i t e ht =>
    apply h.complete ht
    nofun
  | evict keep =>
    refine { h with cache := ?_ }
    intro c b hb
    dsimp only at hb
    split_ifs at hb
    exact h.cache c b hb

end ArchiveStore

open ArchiveStore

theorem storeInv_reachable (hsize : 0 < size) (hL : A.length < 2 ^ 64) (cap : ℕ)
    {s : ArchiveStore} (h : Reachable (archiveStoreMachine size cap A) s) : StoreInv A size s :=
  h.invariant storeInv_init (storeInv_step hsize hL cap)

/-- Over every interleaving of reads, coordinator steps, object-store failures and evictions: a read
that returns `Ok` returns the requested bytes of its archive, a read outside the archive has
returned an error, and the bytes fetched for a dispatched group are always cut into its chunks. -/
theorem read_bytes_returns_archive_bytes {κ : Type} [DecidableEq κ] (archives : κ → Bytes)
    (chunkSize maxFetchChunks : ℕ) (hsize : 0 < chunkSize) (hL : ∀ k, (archives k).length + chunkSize < 2 ^ 64)
    (stores : κ → ArchiveStore) (h : Reachable (chunkedStore archives chunkSize maxFetchChunks) stores) (k : κ) :
    (∀ r ∈ (stores k).reads, ∀ out, r.phase = .done (.ok out) →
        out.bytes = slice (archives k) r.start (r.start + r.length)) ∧
      (∀ r ∈ (stores k).reads, (archives k).length < r.start + r.length ∨ 2 ^ 64 ≤ r.start + r.length →
        ∃ e, r.phase = .done (.error e)) ∧
      (∀ t ∈ (stores k).tasks, ∀ objectStore bytes, Serves (archives k) objectStore →
        fetchChunkGroup chunkSize objectStore t.group.chunkRange t.group.archiveLen = .ok bytes →
        ∃ cut, cutChunkGroup t.group.chunkRange chunkSize t.group.archiveLen bytes = .ok cut) := by
  have hinv := storeInv_reachable hsize (by have := hL k; omega) maxFetchChunks (keyed_reachable h k)
  refine ⟨?_, ?_, ?_⟩
  · intro r hr out hout
    have hholds := hinv.reads r hr
    rw [hout] at hholds
    exact hholds.2
  · intro r hr hrange
    have hholds := hinv.reads r hr
    have hlen := hL k
    have hout : ¬ r.start + r.length ≤ (archives k).length := by omega
    cases hphase : r.phase with
    | probing rest resolved missing | awaiting receivers fetched resolved =>
      rw [hphase] at hholds; exact absurd hholds.1 hout
    | cancelled => rw [hphase] at hholds; exact absurd hholds hout
    | done result =>
      cases result with
      | ok out => rw [hphase] at hholds; exact absurd hholds.1 hout
      | error e => exact ⟨e, rfl⟩
  · intro t ht objectStore bytes hserves hfetch
    obtain ⟨hvalid, hlen⟩ := hinv.valid ht
    rw [hlen] at hfetch ⊢
    exact ⟨_, cutChunkGroup_ok hsize hvalid hserves hfetch⟩

def threeBytes : Bytes := [1, 2, 3]

def twoChunks : ArchiveCoordinator :=
  (({} : ArchiveCoordinator).fetchChunks [0, 1] 0 3).1.schedulerPass 0 4 0

theorem dispatched_reachable : ∃ s, Reachable (archiveStoreMachine 2 4 threeBytes) s ∧
    s.reads = [⟨1, 2, .awaiting [(0, 0), (1, 1)] (fun _ => none) (fun _ => none)⟩] ∧
    s.tasks = [⟨⟨⟨0, 2⟩, 3⟩, .fetching⟩] ∧ s.coordinator = twoChunks := by
  have h1 : Reachable (archiveStoreMachine 2 4 threeBytes) _ :=
    Reachable.init.step (.readBytes {} 1 2 (by decide) (by decide))
  have h2 := h1.step (.probe _ 0 _ 0 [1] _ _ rfl rfl)
  have h3 := h2.step (.probe _ 0 _ 1 [] _ _ rfl rfl)
  have h4 := h3.step (.probed _ 0 0 _ _ _ rfl rfl)
  have h5 := h4.step (.schedulerPass _ 0 0 rfl)
  exact ⟨_, h5, rfl, rfl, rfl⟩

/-- A read across the two chunks of a three-byte archive, fetched as one group. -/
theorem two_chunk_read_returns_bytes :
    ∃ stores : Unit → ArchiveStore, Reachable (chunkedStore (fun _ => threeBytes) 2 4) stores ∧
      ∃ r ∈ (stores ()).reads, ∃ out, r.phase = .done (.ok out) ∧ out.source = .backend ∧
        out.bytes = [2, 3] := by
  have hserves : Serves threeBytes (fun a b => .ok (slice threeBytes a b)) := by
    intro a b bytes h
    cases h
    rfl
  obtain ⟨⟨coordinator, cache, tasks, reads⟩, h5, hreads, htasks, hcoordinator⟩ := dispatched_reachable
  subst hreads htasks hcoordinator
  have h6 := h5.step (.answered _ 0 _ _ rfl rfl hserves)
  have h7 := h6.step (.cacheChunk _ 0 _ (0, [1, 2]) _ _ rfl rfl)
  have h8 := h7.step (.cacheChunk _ 0 _ (1, [3]) _ _ rfl rfl)
  have h9 := h8.step (.cached _ 0 _ _ rfl rfl)
  have h10 := h9.step (.complete _ 0 _ _ rfl rfl)
  have h11 := h10.step (.receive _ 0 _ (0, 0) _ _ _ (.ok [1, 2]) rfl rfl rfl)
  have h12 := h11.step (.receive _ 0 _ (1, 1) _ _ _ (.ok [3]) rfl rfl rfl)
  have h13 := keyed_unit_reachable (M := fun _ => archiveStoreMachine 2 4 threeBytes)
    (h12.step (.fetched _ 0 _ _ _ rfl rfl))
  refine ⟨_, h13, ⟨1, 2, .done (.ok ⟨[2, 3], .backend⟩)⟩, mem_of_getElem? (i := 0) rfl, _, rfl, rfl, ?_⟩
  exact (read_bytes_returns_archive_bytes (fun _ => threeBytes) 2 4 (by decide) (fun _ => by decide) _ h13 ()).1
    ⟨1, 2, .done (.ok ⟨[2, 3], .backend⟩)⟩ (mem_of_getElem? (i := 0) rfl) _ rfl

end Mappf.ChunkedStore
