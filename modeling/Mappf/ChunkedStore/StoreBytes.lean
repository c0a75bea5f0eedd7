import Mappf.ChunkedStore.Store
import Mathlib.Tactic.Ring

/-! # Chunks of an archive and what the store's arithmetic does with them

`archiveChunk` says which bytes a chunk stands for. The three separate computations of `store.rs`
and `fetcher.rs` (the fetched range of a group, its slices, the reassembly of a read) are each
compared with it, the short last chunk included. -/
namespace Mappf.ChunkedStore
open Nat

/-- Chunk `c` of the archive `A`; shorter than `chunkSize` only at the end of the archive. -/
def archiveChunk (A : Bytes) (chunkSize c : ℕ) : Bytes := slice A (c * chunkSize) ((c + 1) * chunkSize)

def ChunksOf (A : Bytes) (chunkSize : ℕ) (chunks : ℕ → Option Bytes) : Prop :=
  ∀ c b, chunks c = some b → b = archiveChunk A chunkSize c

variable {size : ℕ} {r : ChunkRange} {objectStore : ℕ → ℕ → Except ChunkFetchError Bytes} {bytes : Bytes}
  {A : Bytes} {len bytesLen : ℕ}

theorem ChunksOf.insert {chunks : ℕ → Option Bytes} (h : ChunksOf A size chunks) (c : ℕ) :
    ChunksOf A size (Function.update chunks c (some (archiveChunk A size c))) := by
  intro c' b hb
  by_cases hc : c' = c
  · subst hc
    rw [Function.update_self] at hb
    cases hb
    rfl
  · rw [Function.update_of_ne hc] at hb
    exact h c' b hb

theorem archiveChunk_length (A : Bytes) (size c : ℕ) :
    (archiveChunk A size c).length = min size (A.length - c * size) := by
  have e : (c + 1) * size - c * size = size := by rw [succ_mul]; omega
  rw [archiveChunk, slice_length, e]

/-! ## Answering a read -/

theorem sliceSingleChunk_correct (A : Bytes) (size c start length : ℕ) (b : Bytes)
    (h : sliceSingleChunk size c start length (archiveChunk A size (start / size)) = .ok b) :
    b = slice A start (start + length) := by
  unfold sliceSingleChunk at h
  cases hadd : checkedAdd (start % size) length with
  | none => simp [hadd] at h
  | some chunkEnd =>
    obtain ⟨_, rfl⟩ := checkedAdd_eq_some.mp hadd
    simp only [hadd] at h
    split_ifs at h with hlen
    cases h
    have hlength := archiveChunk_length A size (start / size)
    have hstart : start / size * size + start % size = start := div_add_mod' start size
    have hfit : start / size * size + (start % size + length) ≤
        (start / size + 1) * size := by
      rw [succ_mul]; omega
    rw [archiveChunk, slice_slice A _ _ _ _ hfit, hstart, ← add_assoc, hstart]

/-- Invariant of the reassembly loop: the bytes so far are `A[start..position]`, and unless the read
is complete the next chunk continues exactly at `position`. -/
theorem reassemble_correct (A : Bytes) (size : ℕ) (chunks : ℕ → Option Bytes)
    (hch : ChunksOf A size chunks) (start : ℕ) :
    ∀ (n c remaining offset pos : ℕ) (remaining' : ℕ) (bytes : Bytes),
      start ≤ pos → pos + remaining ≤ A.length →
      (remaining = 0 ∨ pos = c * size + offset) →
      reassemble chunks (List.range' c n) remaining offset (slice A start pos) = .ok (remaining', bytes) →
      remaining' ≤ remaining ∧ bytes = slice A start (pos + (remaining - remaining'))
  | 0, c, remaining, offset, pos, remaining', bytes, _, _, _, h => by
      obtain ⟨rfl, rfl⟩ := h
      simp
  | n + 1, c, remaining, offset, pos, remaining', bytes, hsp, hpl, hpos, h => by
      rw [List.range'_succ, reassemble] at h
      cases hc : chunks c with
      | none => simp [hc] at h
      | some data =>
        have hdata := hch c data hc
        subst hdata
        simp only [hc] at h
        split_ifs at h with hoff
        set take := min remaining ((archiveChunk A size c).length - offset) with htake
        cases hadd : checkedAdd offset take with
        | none => simp [hadd] at h
        | some currentEnd =>
          obtain ⟨_, rfl⟩ := checkedAdd_eq_some.mp hadd
          simp only [hadd] at h
          have hlen := archiveChunk_length A size c
          have hnext : (c + 1) * size = c * size + size := by ring
          -- The slice taken from this chunk extends the prefix from `pos` to `pos + take`.
          have hslice : slice A start pos ++ slice (archiveChunk A size c) offset (offset + take) =
              slice A start (pos + take) := by
            rcases hpos with h0 | hp
            · have ht : take = 0 := by omega
              rw [ht, add_zero, slice_self, List.append_nil, add_zero]
            · rw [archiveChunk, slice_slice A _ _ _ _ (by omega), ← add_assoc, ← hp]
              exact slice_append A hsp (by omega)
          rw [hslice] at h
          have hpos' : remaining - take = 0 ∨ pos + take = (c + 1) * size + 0 := by
            rcases hpos with h0 | hp
            · left; omega
            · by_cases hall : take = remaining
              · left; omega
              · right; omega
          obtain ⟨hle, hbytes⟩ := reassemble_correct A size chunks hch start n (c + 1) (remaining - take) 0
            (pos + take) remaining' bytes (by omega) (by omega) hpos' h
          refine ⟨by omega, ?_⟩
          rw [hbytes]
          congr 1
          omega

/-- Whatever chunks a read has, an answer it assembles from archive chunks is the requested slice. -/
theorem readResolvedBytes_correct (A : Bytes) (size start length : ℕ) (chunks : ℕ → Option Bytes)
    (hch : ChunksOf A size chunks) (hrange : start + length ≤ A.length) (b : Bytes)
    (h : readResolvedBytes size start length chunks = .ok b) : b = slice A start (start + length) := by
  unfold readResolvedBytes at h
  cases hadd : checkedAdd start length with
  | none => simp [hadd] at h
  | some stop =>
    simp only [hadd] at h
    split_ifs at h with hone
    · cases hc : chunks (byteRangeToChunkRange start stop size).1 with
      | none => simp [hc] at h
      | some data =>
        simp only [hc] at h
        rw [hch _ data hc] at h
        exact sliceSingleChunk_correct A size _ start length b h
    · cases hr : reassemble chunks (chunksOf (byteRangeToChunkRange start stop size)) length
          (start % size) [] with
      | error e => simp [hr] at h
      | ok out =>
        obtain ⟨left, bytes⟩ := out
        simp only [hr] at h
        split_ifs at h with hrem
        cases h
        have h0 : left = 0 := not_not.mp hrem
        subst h0
        rw [← slice_self A start] at hr
        have hstart : start = start / size * size + start % size := (div_add_mod' start size).symm
        obtain ⟨_, hb⟩ := reassemble_correct A size chunks hch start _ _ _ _ start _ _ le_rfl hrange (.inr hstart) hr
        rw [hb, Nat.sub_zero]

/-! ## The slices of a dispatched group -/

/-- A group the coordinator may dispatch: non-empty, and its last chunk starts inside the archive. -/
def ValidGroup (chunkSize archiveLen : ℕ) (r : ChunkRange) : Prop :=
  r.start < r.stop ∧ (r.stop - 1) * chunkSize < archiveLen

theorem chunkSlice_ok {c : ℕ} (hsize : 0 < size) (hend : r.stop * size < 2 ^ 64) (hr : ValidGroup size len r) (hc : c ∈ r)
    (hbytes : bytesLen = min (r.stop * size) len - r.start * size) :
    chunkSlice size len bytesLen (r.start * size) c =
      .ok (c * size - r.start * size, min ((c + 1) * size) len - r.start * size) := by
  obtain ⟨hlo, hhi⟩ := hc
  have hmono : c * size ≤ (r.stop - 1) * size := mul_le_mul_right _ (by omega)
  have hnext : (c + 1) * size = c * size + size := by ring
  have hstop : (c + 1) * size ≤ r.stop * size := mul_le_mul_right _ hhi
  have hlast := hr.2
  have hcle : c ≤ c * size := Nat.le_mul_of_pos_right c hsize
  have h1 : checkedMul c size = some (c * size) := checkedMul_eq_some.mpr ⟨by omega, rfl⟩
  have h2 : checkedAdd c 1 = some (c + 1) := checkedAdd_eq_some.mpr ⟨by omega, rfl⟩
  have h3 : checkedMul (c + 1) size = some ((c + 1) * size) := checkedMul_eq_some.mpr ⟨by omega, rfl⟩
  simp only [chunkSlice, h1, h2, h3]
  rw [if_neg (by omega), if_neg (by omega)]

theorem chunkSlicesLoop_ok (hsize : 0 < size) (hend : r.stop * size < 2 ^ 64) (hr : ValidGroup size len r)
    (hbytes : bytesLen = min (r.stop * size) len - r.start * size) (chunks : List ℕ)
    (hchunks : ∀ c ∈ chunks, c ∈ r) : chunkSlicesLoop size len bytesLen (r.start * size) chunks =
      .ok (chunks.map (fun c => (c, c * size - r.start * size, min ((c + 1) * size) len - r.start * size))) := by
  induction chunks with
  | nil => rfl
  | cons c rest ih =>
    rw [chunkSlicesLoop, chunkSlice_ok hsize hend hr (hchunks c (List.mem_cons_self ..)) hbytes,
      ih (fun c hc => hchunks c (List.mem_cons_of_mem _ hc))]
    rfl

/-- What `fetch_chunk_group` returns for a dispatched group is the range of its chunks, which fits `u64`. -/
theorem fetchChunkGroup_ok (hr : ValidGroup size len r)
    (h : fetchChunkGroup size objectStore r len = .ok bytes) : r.stop * size < 2 ^ 64 ∧
      fetchRange objectStore (r.start * size) (min (r.stop * size) len) = .ok bytes := by
  unfold fetchChunkGroup at h
  dsimp only at h
  rw [if_neg (not_le.mpr hr.1)] at h
  split at h
  case h_1 rangeStart rangeEnd hstart hend =>
    obtain ⟨_, rfl⟩ := checkedMul_eq_some.mp hstart
    obtain ⟨hlt, rfl⟩ := checkedMul_eq_some.mp hend
    split_ifs at h
    exact ⟨hlt, h⟩
  · cases h

theorem fetchRange_ok {a b : ℕ} (h : fetchRange objectStore a b = .ok bytes) :
    objectStore a b = .ok bytes ∧ bytes.length = b - a := by
  unfold fetchRange at h
  cases ho : objectStore a b with
  | error e => simp [ho] at h
  | ok data =>
    simp only [ho] at h
    split_ifs at h with hlen
    cases h
    exact ⟨rfl, not_not.mp hlen⟩

def Serves (A : Bytes) (objectStore : ℕ → ℕ → Except ChunkFetchError Bytes) : Prop :=
  ∀ a b bytes, objectStore a b = .ok bytes → bytes = slice A a b

/-- `cache_chunk_group` accepts whatever `fetch_chunk_group` returned for a dispatched group, and
cuts it into the archive's chunks. -/
theorem cutChunkGroup_ok (hsize : 0 < size) (hr : ValidGroup size A.length r)
    (hstore : Serves A objectStore) (h : fetchChunkGroup size objectStore r A.length = .ok bytes) :
    cutChunkGroup r size A.length bytes = .ok (r.chunks.map (fun c => (c, archiveChunk A size c))) := by
  obtain ⟨hend, hrange⟩ := fetchChunkGroup_ok hr h
  obtain ⟨hobj, hlen⟩ := fetchRange_ok hrange
  have hbytes := hstore _ _ _ hobj
  obtain ⟨hlt, hlast⟩ := hr
  have hstart : r.start * size ≤ (r.stop - 1) * size := mul_le_mul_right _ (by omega)
  have hbef : r.start * size ≤ r.stop * size := mul_le_mul_right _ (by omega)
  have h1 : checkedMul r.start size = some (r.start * size) := checkedMul_eq_some.mpr ⟨by omega, rfl⟩
  have hslices : chunkSlices r size A.length bytes.length = .ok (r.chunks.map (fun c => (c, c * size - r.start * size,
        min ((c + 1) * size) A.length - r.start * size))) := by
    simp only [chunkSlices, h1]
    rw [if_neg (by omega), chunkSlicesLoop_ok hsize hend ⟨hlt, hlast⟩ hlen r.chunks
      (fun c hc => ChunkRange.mem_chunks.mp hc)]
  simp only [cutChunkGroup, hslices, List.map_map]
  congr 1
  apply List.map_congr_left
  intro c hc
  obtain ⟨hlo, hhi⟩ := ChunkRange.mem_chunks.mp hc
  have hcs : r.start * size ≤ c * size := mul_le_mul_right _ hlo
  have hstop : (c + 1) * size ≤ r.stop * size := mul_le_mul_right _ hhi
  have hnext : (c + 1) * size = c * size + size := by ring
  simp only [Function.comp_apply, Prod.mk.injEq, true_and]
  rw [hbytes, slice_slice A _ _ _ _ (by omega)]
  -- Cutting at the end of the archive changes nothing: the slice stops there anyway.
  have ha : r.start * size + (c * size - r.start * size) = c * size := by omega
  have hb : r.start * size + (min ((c + 1) * size) A.length - r.start * size) =
      min ((c + 1) * size) A.length := by omega
  rw [ha, hb, archiveChunk, slice, slice]
  rcases le_total ((c + 1) * size) A.length with hle | hle
  · rw [min_eq_left hle]
  · rw [min_eq_right hle, List.take_of_length_le (by simp), List.take_of_length_le (by simp; omega)]

end Mappf.ChunkedStore
