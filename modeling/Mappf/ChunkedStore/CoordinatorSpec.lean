import Mappf.ChunkedStore.Coordinator
import Mathlib.Data.List.Range

/-! # What each locked section of the coordinator does

One specification per operation of `TilesetFetchState`; the run invariants are derived from
these and never unfold the operations again. -/
namespace Mappf.ChunkedStore
open List

/-! ## Ranges handed out by the scheduler -/

section ranges

/-- A range the loop may hand out for the chunks in `M`. -/
structure Tight (M : ℕ → Prop) (maxFetchChunks maxGap : ℕ) (r : ChunkRange) : Prop where
  nonempty : r.start < r.stop
  first : M r.start
  last : M (r.stop - 1)
  short : r.stop - r.start ≤ maxFetchChunks
  dense : ∀ c, r.start ≤ c → c + maxGap < r.stop → ∃ member, M member ∧ c ≤ member ∧ member ≤ c + maxGap

variable {M : ℕ → Prop} {cap maxGap start stop chunk : ℕ}

theorem Tight.single (hone : 1 ≤ cap) (h : M chunk) : Tight M cap maxGap ⟨chunk, chunk + 1⟩ :=
  ⟨chunk.lt_succ_self, h, h, by simpa using hone, fun c _ _ => ⟨chunk, h, by dsimp only at *; omega, by dsimp only at *; omega⟩⟩

theorem Tight.grow (h : Tight M cap maxGap ⟨start, stop⟩) (hchunk : M chunk) (hle : stop ≤ chunk)
    (hnear : chunk ≤ stop + maxGap) (hfits : chunk + 1 - start ≤ cap) : Tight M cap maxGap ⟨start, chunk + 1⟩ := by
  have hlt : start < stop := h.nonempty
  refine ⟨by dsimp only; omega, h.first, hchunk, hfits, fun c hc hend => ?_⟩
  dsimp only at hc hend
  by_cases hold : c + maxGap < stop
  · exact h.dense c hc hold
  · by_cases hlast : c < stop
    · exact ⟨stop - 1, h.last, by omega, by omega⟩
    · exact ⟨chunk, hchunk, by omega, by omega⟩

theorem growRanges_spec (hone : 1 ≤ cap) {rest : List ℕ} (h : Tight M cap maxGap ⟨start, stop⟩)
    (hrest : ∀ c ∈ rest, M c ∧ stop ≤ c ∧ c + 1 < 2 ^ 64) (hasc : rest.Pairwise (· < ·)) :
    (∀ r ∈ growRanges cap maxGap start stop rest, Tight M cap maxGap r ∧ start ≤ r.start) ∧
      (growRanges cap maxGap start stop rest).Pairwise (fun r r' => r.stop ≤ r'.start) ∧
      ∀ c, c ∈ ChunkRange.mk start stop ∨ c ∈ rest → ∃ r ∈ growRanges cap maxGap start stop rest, c ∈ r := by
  induction rest generalizing start stop with
  | nil => simp [growRanges, h]
  | cons chunk rest ih =>
    obtain ⟨hchunk, hle, hsmall⟩ := hrest chunk mem_cons_self
    obtain ⟨hlater, hasc⟩ := pairwise_cons.mp hasc
    have hlt : start < stop := h.nonempty
    have hnext : ∀ c ∈ rest, M c ∧ chunk + 1 ≤ c ∧ c + 1 < 2 ^ 64 := fun c hc =>
      ⟨(hrest c (mem_cons_of_mem _ hc)).1, hlater c hc, (hrest c (mem_cons_of_mem _ hc)).2.2⟩
    rw [growRanges, wrappingAdd_eq hsmall]
    split_ifs with hgrow
    · have hnear : chunk ≤ stop + maxGap := hgrow.1.trans (Nat.mod_le _ _)
      have hfits : chunk + 1 - start ≤ cap := by
        have hsub : wrappingSub (chunk + 1) start = chunk + 1 - start := by
          rw [wrappingSub]
          omega
        exact hsub ▸ hgrow.2
      obtain ⟨htight, hapart, hcover⟩ := ih (h.grow hchunk hle hnear hfits) hnext hasc
      refine ⟨htight, hapart, fun c hc => hcover c ?_⟩
      grind [ChunkRange.mem_iff]
    · obtain ⟨htight, hapart, hcover⟩ := ih (Tight.single hone hchunk) hnext hasc
      refine ⟨?_, pairwise_cons.mpr ⟨fun r hr => hle.trans (htight r hr).2, hapart⟩, fun c hc => ?_⟩
      · intro r hr
        obtain rfl | hr := mem_cons.mp hr
        · exact ⟨h, le_rfl⟩
        · exact ⟨(htight r hr).1, by have := (htight r hr).2; omega⟩
      · obtain hc | hc := hc
        · exact ⟨_, mem_cons_self, hc⟩
        · obtain ⟨r, hr, hmem⟩ := hcover c (by grind [ChunkRange.mem_iff])
          exact ⟨r, mem_cons_of_mem _ hr, hmem⟩

theorem contiguousChunkRanges_spec (chunks : OrderedSet ℕ) (cap maxGap : ℕ) (h : ∀ c ∈ chunks, c + 1 < 2 ^ 64) :
    (∀ r ∈ contiguousChunkRanges chunks cap maxGap, Tight (· ∈ chunks) (max 1 cap) maxGap r) ∧
      (contiguousChunkRanges chunks cap maxGap).Pairwise (fun r r' => r.stop ≤ r'.start) ∧
      ∀ c ∈ chunks, ∃ r ∈ contiguousChunkRanges chunks cap maxGap, c ∈ r := by
  obtain ⟨l, hasc⟩ := chunks
  cases l with
  | nil => simp [contiguousChunkRanges, ← OrderedSet.mem_toList]
  | cons start rest =>
    obtain ⟨hlater, hasc'⟩ := pairwise_cons.mp hasc
    rw [contiguousChunkRanges]
    dsimp only
    rw [wrappingAdd_eq (h start mem_cons_self), max_comm cap]
    have hone : ∀ maxGap, Tight (· ∈ (⟨start :: rest, hasc⟩ : OrderedSet ℕ)) (max 1 cap) maxGap
        ⟨start, start + 1⟩ := fun _ => .single (le_max_left 1 _) mem_cons_self
    obtain ⟨htight, hapart, hcover⟩ := growRanges_spec (le_max_left 1 cap) (hone maxGap)
      (fun c hc => ⟨mem_cons_of_mem _ hc, hlater c hc, h c (mem_cons_of_mem _ hc)⟩) hasc'
    refine ⟨fun r hr => (htight r hr).1, hapart, fun c hc => hcover c ?_⟩
    obtain rfl | hc := mem_cons.mp hc
    · exact .inl ⟨le_rfl, c.lt_succ_self⟩
    · exact .inr hc

theorem chunk_ranges_tight (chunks : OrderedSet ℕ) (maxFetchChunks maxGap : ℕ) (h : ∀ c ∈ chunks, c < 2 ^ 64 - 2) :
    (∀ r ∈ contiguousChunkRanges chunks maxFetchChunks maxGap, Tight (· ∈ chunks) (max 1 maxFetchChunks) maxGap r) ∧
      (contiguousChunkRanges chunks maxFetchChunks maxGap).Pairwise (fun r r' => r.stop ≤ r'.start) ∧
      ∀ c ∈ chunks, ∃ r ∈ contiguousChunkRanges chunks maxFetchChunks maxGap, c ∈ r :=
  contiguousChunkRanges_spec chunks maxFetchChunks maxGap fun c hc => by
    have := h c hc
    omega

theorem threeChunks_tight : ∃ r ∈ contiguousChunkRanges ⟨[3, 5, 9], by decide⟩ 4 1, 9 ∈ r :=
  (chunk_ranges_tight ⟨[3, 5, 9], by decide⟩ 4 1 (by decide)).2.2 9 (by decide)

end ranges

/-! ## Channels -/

namespace Channels

variable (channels : Channels)

@[simp] theorem setStatus_self (id : ℕ) (status : ChannelStatus) :
    channels.setStatus id status id = ⟨(channels id).chunkIndex, status⟩ := by
  simp [setStatus]

theorem setStatus_ne {id i : ℕ} (status : ChannelStatus) (h : i ≠ id) :
    channels.setStatus id status i = channels i := by
  simp [setStatus, h]

@[simp] theorem setStatus_chunkIndex (id i : ℕ) (status : ChannelStatus) :
    (channels.setStatus id status i).chunkIndex = (channels i).chunkIndex := by
  by_cases h : i = id
  · subst h; simp
  · rw [setStatus_ne channels status h]

theorem dropReceiver_status (id i : ℕ) : (channels.dropReceiver id i).status = (channels i).status ∨
      (i = id ∧ (channels i).status = .waiting ∧ (channels.dropReceiver id i).status = .closed) := by
  unfold dropReceiver
  split_ifs with h
  · by_cases hi : i = id
    · subst hi; right; simp [h]
    · left; rw [setStatus_ne channels _ hi]
  · exact .inl rfl

@[simp] theorem dropReceiver_chunkIndex (id i : ℕ) :
    (channels.dropReceiver id i).chunkIndex = (channels i).chunkIndex := by
  unfold dropReceiver
  split_ifs <;> simp

end Channels

namespace TilesetFetchState

/-! ## Enqueueing -/

variable (s : TilesetFetchState)

theorem enqueueChunk_spec (queuedAt chunkIndex id : ℕ) : let s' := (s.enqueueChunk queuedAt chunkIndex id).1
    s'.waiters = s.waiters ++ [(chunkIndex, id)] ∧ s'.inflightChunks = s.inflightChunks ∧
      s'.schedulerRunning = s.schedulerRunning ∧ s'.inflightFetchCount = s.inflightFetchCount ∧
      s'.capacityAvailable = s.capacityAvailable ∧ s'.archiveLen = s.archiveLen ∧
      (∀ c, c ∈ s'.pendingChunks ↔ c ∈ s.pendingChunks ∨ (c = chunkIndex ∧ c ∉ s.inflightChunks)) := by
  simp only [enqueueChunk]
  split_ifs with hin hpend
  · refine ⟨rfl, rfl, rfl, rfl, rfl, rfl, fun c => ⟨.inl, ?_⟩⟩
    rintro (hc | ⟨rfl, hn⟩)
    · exact hc
    · exact absurd hin hn
  · refine ⟨rfl, rfl, rfl, rfl, rfl, rfl, fun c => ⟨.inl, ?_⟩⟩
    rintro (hc | ⟨rfl, _⟩)
    · exact hc
    · exact hpend
  · refine ⟨rfl, rfl, rfl, rfl, rfl, rfl, fun c => ?_⟩
    rw [OrderedSet.mem_insert]
    constructor
    · rintro (rfl | hc)
      · exact .inr ⟨rfl, hin⟩
      · exact .inl hc
    · rintro (hc | ⟨rfl, _⟩)
      · exact .inr hc
      · exact .inl rfl

theorem enqueueChunks_spec (queuedAt : ℕ) (required : List ℕ) (s : TilesetFetchState) (id : ℕ) :
    let s' := (s.enqueueChunks queuedAt required id).1
    s'.waiters = s.waiters ++ required.zipIdx id ∧
      s'.inflightChunks = s.inflightChunks ∧ s'.schedulerRunning = s.schedulerRunning ∧
      s'.inflightFetchCount = s.inflightFetchCount ∧ s'.capacityAvailable = s.capacityAvailable ∧
      s'.archiveLen = s.archiveLen ∧
      (∀ c, c ∈ s'.pendingChunks ↔ c ∈ s.pendingChunks ∨ (c ∈ required ∧ c ∉ s.inflightChunks)) ∧
      (s.enqueueChunks queuedAt required id).2.map (fun e => (e.chunkIndex, e.receiver)) = required.zipIdx id := by
  induction required generalizing s id with
  | nil => simp [enqueueChunks]
  | cons chunkIndex rest ih =>
    obtain ⟨hw, hi, hr, hc, hn, ha, hp⟩ := enqueueChunk_spec s queuedAt chunkIndex id
    obtain ⟨hw', hi', hr', hc', hn', ha', hp', hjoin⟩ := ih (s.enqueueChunk queuedAt chunkIndex id).1 (id + 1)
    simp only [enqueueChunks]
    refine ⟨?_, hi'.trans hi, hr'.trans hr, hc'.trans hc, hn'.trans hn, ha'.trans ha, ?_, ?_⟩
    · rw [hw', hw, zipIdx_cons, append_assoc, singleton_append]
    · intro c
      rw [hp', hp, hi, mem_cons]
      tauto
    · rw [map_cons, hjoin, zipIdx_cons]

/-! ## Pruning and selection -/

theorem pruneCancelledWaiters_spec (channels : Channels) : let s' := (s.pruneCancelledWaiters channels).1
    (∀ w, w ∈ s'.waiters ↔ w ∈ s.waiters ∧ (channels w.2).status ≠ .closed) ∧
      (∀ c, c ∈ s'.pendingChunks ↔ c ∈ s.pendingChunks ∧ ∃ w ∈ s'.waiters, w.1 = c) ∧
      s'.inflightChunks = s.inflightChunks ∧ s'.schedulerRunning = s.schedulerRunning ∧
      s'.inflightFetchCount = s.inflightFetchCount ∧ s'.capacityAvailable = s.capacityAvailable ∧
      s'.archiveLen = s.archiveLen := by
  refine ⟨?_, ?_, rfl, rfl, rfl, rfl, rfl⟩
  · intro w
    simp [pruneCancelledWaiters, mem_filter, Channels.isClosed]
  · intro c
    simp [pruneCancelledWaiters, OrderedSet.mem_retain, beq_iff_eq]

theorem foldl_markInflight (groups : List ChunkRange) (s : TilesetFetchState) : let s' := groups.foldl markInflight s
    s'.waiters = s.waiters ∧ s'.schedulerRunning = s.schedulerRunning ∧
      s'.inflightFetchCount = s.inflightFetchCount ∧ s'.capacityAvailable = s.capacityAvailable ∧
      s'.archiveLen = s.archiveLen ∧
      (∀ c, c ∈ s'.inflightChunks ↔ c ∈ s.inflightChunks ∨ ∃ g ∈ groups, c ∈ g) ∧
      (∀ c, c ∈ s'.pendingChunks ↔ c ∈ s.pendingChunks ∧ ∀ g ∈ groups, c ∉ g) := by
  induction groups generalizing s with
  | nil => simp
  | cons g groups ih =>
    obtain ⟨hw, hr, hc, hn, ha, hi, hp⟩ := ih (s.markInflight g)
    refine ⟨hw, hr, hc, hn, ha, ?_, ?_⟩
    · intro c
      rw [foldl_cons, hi]
      simp only [markInflight, OrderedSet.mem_extend, ChunkRange.mem_chunks, mem_cons, exists_eq_or_imp, or_assoc]
    · intro c
      rw [foldl_cons, hp]
      simp only [markInflight, OrderedSet.mem_removeAll, ChunkRange.mem_chunks, mem_cons, forall_eq_or_imp, and_assoc]

theorem reserve_spec (groups : List ChunkRange) :
    (s.reserve groups).waiters = s.waiters ∧ (s.reserve groups).schedulerRunning = s.schedulerRunning ∧
      (s.reserve groups).inflightFetchCount = s.inflightFetchCount + groups.length ∧
      (s.reserve groups).capacityAvailable = s.capacityAvailable ∧
      (s.reserve groups).archiveLen = s.archiveLen ∧
      (∀ c, c ∈ (s.reserve groups).inflightChunks ↔ c ∈ s.inflightChunks ∨ ∃ g ∈ groups, c ∈ g) ∧
      (∀ c, c ∈ (s.reserve groups).pendingChunks ↔ c ∈ s.pendingChunks ∧ ∀ g ∈ groups, c ∉ g) := by
  obtain ⟨hw, hr, hc, hn, ha, hi, hp⟩ := foldl_markInflight groups s
  exact ⟨hw, hr, by simp only [reserve, hc], hn, ha, hi, hp⟩

theorem selectDispatchGroups_cases (cap now : ℕ) : (s.pendingChunks.isEmpty = true ∧
        s.selectDispatchGroups cap now = ({ s with schedulerRunning := false }, .idle)) ∨
      (s.pendingChunks.isEmpty = false ∧ s.selectDispatchGroups cap now = (s, .throttled) ∧
        (maxConcurrentFetchesPerTileset ≤ s.inflightFetchCount ∨
          contiguousChunkRanges s.pendingChunks cap maxChunkGap = [])) ∨
      ∃ groups delay count, s.selectDispatchGroups cap now =
          (s.reserve groups, .dispatch groups s.archiveLen delay count) ∧
        s.inflightFetchCount + groups.length ≤ maxConcurrentFetchesPerTileset ∧
        ∀ g ∈ groups, g ∈ contiguousChunkRanges s.pendingChunks cap maxChunkGap := by
  unfold selectDispatchGroups
  by_cases hempty : s.pendingChunks.isEmpty = true
  · exact .inl ⟨hempty, if_pos hempty⟩
  · right
    rw [if_neg hempty]
    by_cases hfull : maxConcurrentFetchesPerTileset ≤ s.inflightFetchCount
    · exact .inl ⟨by simpa using hempty, if_pos hfull, .inl hfull⟩
    · rw [if_neg hfull]
      set groups := (contiguousChunkRanges s.pendingChunks cap maxChunkGap).take
        (maxConcurrentFetchesPerTileset - s.inflightFetchCount) with hgrps
      by_cases hnone : groups.isEmpty = true
      · refine .inl ⟨by simpa using hempty, if_pos hnone, .inr ?_⟩
        have hpos : maxConcurrentFetchesPerTileset - s.inflightFetchCount ≠ 0 := by omega
        rw [List.isEmpty_iff, hgrps, List.take_eq_nil_iff] at hnone
        exact hnone.resolve_left hpos
      · refine .inr ⟨groups, _, _, if_neg hnone, ?_, ?_⟩
        · have hlen : groups.length ≤ maxConcurrentFetchesPerTileset - s.inflightFetchCount :=
            length_take_le _ _
          omega
        · intro g hg
          exact mem_of_mem_take hg

/-! ## Completion -/

theorem release_channels (res : Except ChunkFetchError Bytes) (ids : List ℕ) (channels : Channels)
    (outcome : GroupWaiterOutcome) (i : ℕ) : (release res channels outcome ids).1 i =
      if i ∈ ids ∧ (channels i).status ≠ .closed then ⟨(channels i).chunkIndex, .sent res⟩
      else channels i := by
  induction ids generalizing channels outcome with
  | nil => simp [release]
  | cons id rest ih =>
    simp only [release, ih, mem_cons]
    by_cases hclosed : (channels id).status = .closed
    · have hsend : channels.send id res = (channels, false) := by
        simp [Channels.send, Channels.isClosed, hclosed]
      rw [hsend]
      by_cases hi : i = id
      · subst hi; simp [hclosed]
      · simp [hi]
    · have hsend : channels.send id res = (channels.setStatus id (.sent res), true) := by
        simp [Channels.send, Channels.isClosed, hclosed]
      rw [hsend]
      by_cases hi : i = id
      · subst hi; simp [hclosed]
      · simp [hi, Channels.setStatus_ne channels _ hi]

/-- The waiters of some chunks are answered, and nothing else changes. -/
structure Answered (result : Except ChunkFetchError (ℕ → Option Bytes)) (chunks : ℕ → Prop)
    (s s' : TilesetFetchState) (channels channels' : Channels) : Prop where
  pendingChunks : s'.pendingChunks = s.pendingChunks
  schedulerRunning : s'.schedulerRunning = s.schedulerRunning
  inflightFetchCount : s'.inflightFetchCount = s.inflightFetchCount
  capacityAvailable : s'.capacityAvailable = s.capacityAvailable
  archiveLen : s'.archiveLen = s.archiveLen
  inflightChunks : ∀ c, c ∈ s'.inflightChunks ↔ c ∈ s.inflightChunks ∧ ¬ chunks c
  waiters : ∀ w, w ∈ s'.waiters ↔ w ∈ s.waiters ∧ ¬ chunks w.1
  channels : ∀ i, (channels' i).chunkIndex = (channels i).chunkIndex ∧
    ((channels' i).status = (channels i).status ∨
      ∃ c, chunks c ∧ (c, i) ∈ s.waiters ∧ (channels' i).status = .sent (chunkResult result c)) ∧
    ((∃ c, chunks c ∧ (c, i) ∈ s.waiters) → (channels' i).status ≠ .waiting)

theorem completeChunks_spec (res : Except ChunkFetchError (ℕ → Option Bytes)) (chunks : List ℕ)
    (s : TilesetFetchState) (channels : Channels) (outcome : GroupWaiterOutcome) :
    let out := completeChunks res chunks s channels outcome
    Answered res (· ∈ chunks) s out.1 channels out.2.1 := by
  induction chunks generalizing s channels outcome with
  | nil => exact ⟨rfl, rfl, rfl, rfl, rfl, by simp [completeChunks], by simp [completeChunks], by simp [completeChunks]⟩
  | cons chunkIndex rest ih =>
    simp only [completeChunks]
    set removed := (s.waiters.filter (fun w => w.1 == chunkIndex)).map Prod.snd with hrem
    have hmem : ∀ i, i ∈ removed ↔ (chunkIndex, i) ∈ s.waiters := by
      intro i
      simp [hrem, mem_filter]
    set sent := release (chunkResult res chunkIndex) channels outcome removed with hsent
    have hchan := release_channels (chunkResult res chunkIndex) removed channels outcome
    obtain ⟨hp, hr, hc, hn, ha, hi, hw, hch⟩ := ih { s with
      inflightChunks := s.inflightChunks.remove chunkIndex
      waiters := s.waiters.filter (fun w => !(w.1 == chunkIndex)) } sent.1 sent.2
    refine ⟨hp, hr, hc, hn, ha, ?_, ?_, ?_⟩
    · intro c
      rw [hi, OrderedSet.mem_remove, mem_cons]
      tauto
    · intro w
      rw [hw, mem_filter]
      simp only [Bool.not_eq_true', beq_eq_false_iff_ne, mem_cons]
      tauto
    · intro i
      obtain ⟨hidx, hstat, hdone⟩ := hch i
      have hfirst : (sent.1 i).chunkIndex = (channels i).chunkIndex := by
        rw [hchan]; split_ifs <;> rfl
      refine ⟨hidx.trans hfirst, ?_, ?_⟩
      · rcases hstat with hsame | ⟨c, hcr, hcw, hcs⟩
        · rw [hsame, hchan]
          split_ifs with hif
          · exact .inr ⟨chunkIndex, mem_cons_self .., (hmem i).mp hif.1, rfl⟩
          · exact .inl rfl
        · exact .inr ⟨c, mem_cons_of_mem _ hcr, (mem_filter.mp hcw).1, hcs⟩
      · rintro ⟨c, hcr, hcw⟩
        -- A waiter of a later chunk is still registered; one of this chunk was just answered.
        by_cases hlater : ∃ c ∈ rest, (c, i) ∈ s.waiters.filter (fun w => !(w.1 == chunkIndex))
        · exact hdone hlater
        · have hce : c = chunkIndex := by
            rcases mem_cons.mp hcr with h | h
            · exact h
            · by_contra hne
              exact hlater ⟨c, h, mem_filter.mpr ⟨hcw, by simpa using hne⟩⟩
          subst hce
          rcases hstat with hsame | ⟨c', hcr', hcw', _⟩
          · rw [hsame, hchan]
            by_cases hclosed : (channels i).status = .closed
            · simp [hclosed]
            · simp [(hmem i).mpr hcw, hclosed]
          · exact absurd ⟨c', hcr', hcw'⟩ hlater

theorem completeGroup_spec (channels : Channels) (r : ChunkRange)
    (res : Except ChunkFetchError (ℕ → Option Bytes)) : let out := s.completeGroup channels r res
    Answered res (· ∈ r) { s with
      inflightFetchCount := s.inflightFetchCount - 1
      capacityAvailable := s.capacityAvailable ||
        (decide (maxConcurrentFetchesPerTileset ≤ s.inflightFetchCount) && !s.pendingChunks.isEmpty) } out.1
      channels out.2.1 := by
  simpa only [completeGroup, ChunkRange.mem_chunks] using completeChunks_spec res r.chunks _ channels {}

end TilesetFetchState
end Mappf.ChunkedStore
