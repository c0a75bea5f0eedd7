import Mappf.ChunkedStore.StoreInvariant

/-! # The chunked store of one archive generation

Every key of the store names a generation, and `fetch_range` compares the generation of each response with it.
The length of an archive is what its header declares, so the object may be shorter; `fetch_range` refuses the
short answers it then gets. What the store holds is the same whatever one imagines past the end of the object,
hence it is the object's own bytes. -/
namespace Mappf.ChunkedStore
open List

variable {γ : Type}

/-! ## Answers of the object store -/

inductive ObjectStoreError
  | notFound
  | precondition
  | other (message : String)

def mapObjectStoreError (error : ObjectStoreError) (generationWasPinned : Bool) : ChunkFetchError :=
  match error with
  | .notFound => if generationWasPinned then .generationChanged else .notFound
  | .precondition =>
    if generationWasPinned then .generationChanged else .backend "object-store backend failure: precondition failed"
  | .other message => .backend s!"object-store backend failure: {message}"

/-- How a range read ends: with bytes of some generation, with an error of the object store, or before or
after it: no permit, a timeout, no usable validator. -/
inductive ObjectResponse (γ : Type)
  | object (generation : γ)
  | refused (error : ObjectStoreError)
  | unavailable (error : ChunkFetchError)

/-- `fetch_range` without an expected generation, at most the requested bytes: what a bootstrap is read with. -/
def observedRead (contents : γ → Bytes) (response : ObjectResponse γ) (start stop : ℕ) :
    Except ChunkFetchError (γ × Bytes) :=
  match response with
  | .object generation => .ok (generation, slice (contents generation) start stop)
  | .refused error => .error (mapObjectStoreError error false)
  | .unavailable error => .error error

variable [DecidableEq γ] {start stop len : ℕ}
  {contents : γ → Bytes} {bytes content A : Bytes} {α : Type} {objectStore : ℕ → ℕ → Except ChunkFetchError Bytes}

/-- The object store behind `fetch_range` with an expected generation, up to the check of the length. -/
def pinnedRead (contents : γ → Bytes) (expected : γ) (response : ObjectResponse γ) (start stop : ℕ) :
    Except ChunkFetchError Bytes :=
  match response with
  | .object generation =>
    if generation = expected then .ok (slice (contents generation) start stop) else .error .generationChanged
  | .refused error => .error (mapObjectStoreError error true)
  | .unavailable error => .error error

theorem pinnedRead_eq_ok {expected : γ} {resp : ObjectResponse γ}
    (h : pinnedRead contents expected resp start stop = .ok bytes) :
    bytes = slice (contents expected) start stop := by
  unfold pinnedRead at h
  split at h
  · split_ifs at h with heq
    cases h
    rw [heq]
  · cases h
  · cases h

/-! ## Steps -/

/-- A step of the store of one generation: the object store answers a group, or the store moves without looking
at the bytes of the archive. -/
inductive GenerationStep (contents : γ → Bytes) (generation : γ) (archiveLen chunkSize maxFetchChunks : ℕ) :
    ArchiveStore → ArchiveStore → Prop
  | answered (s : ArchiveStore) (i : ℕ) (t : GroupTask) (response : ObjectResponse γ) (ht : s.tasks[i]? = some t)
      (hphase : t.phase = .fetching) :
      GenerationStep contents generation archiveLen chunkSize maxFetchChunks s
        (s.setTask i t (fetchAnswered chunkSize (pinnedRead contents generation response) t.group))
  | blind (s s' : ArchiveStore)
      (h : ∀ A : Bytes, A.length = archiveLen → ArchiveStore.Step A chunkSize maxFetchChunks s s') :
      GenerationStep contents generation archiveLen chunkSize maxFetchChunks s s'

/-! ## Completing a short object -/

/-- `A` has the declared length and begins like the object. -/
def Completes (content : Bytes) (archiveLen : ℕ) (A : Bytes) : Prop :=
  A.length = archiveLen ∧ A.take content.length = content.take archiveLen

def padded (content : Bytes) (archiveLen : ℕ) (pad : UInt8) : Bytes :=
  content.take archiveLen ++ List.replicate (archiveLen - content.length) pad

theorem padded_completes (content : Bytes) (len : ℕ) (pad : UInt8) :
    Completes content len (padded content len pad) := by
  constructor
  · rw [padded, length_append, length_take, length_replicate]
    omega
  · rw [padded]
    by_cases hle : len ≤ content.length
    · rw [show len - content.length = 0 by omega, replicate_zero, append_nil, take_take, min_eq_right hle]
    · rw [take_of_length_le (by omega : content.length ≤ len), take_left' rfl]

theorem slice_eq_drop_take (l : List α) (start stop : ℕ) : slice l start stop = (l.take stop).drop start := by
  rw [slice, drop_take]

theorem Completes.slice_eq (h : Completes content len A)
    (hstop : stop ≤ content.length) (hlen : stop ≤ len) : slice A start stop = slice content start stop := by
  have htake : A.take stop = content.take stop := by
    calc A.take stop = (A.take content.length).take stop := by rw [take_take, min_eq_left hstop]
      _ = (content.take len).take stop := by rw [h.2]
      _ = content.take stop := by rw [take_take, min_eq_left hlen]
  rw [slice_eq_drop_take, slice_eq_drop_take, htake]

theorem slice_getElem? (l : List α) {k : ℕ} (hk : start + k < stop) : (slice l start stop)[k]? = l[start + k]? := by
  rw [slice, getElem?_take_of_lt (by omega), getElem?_drop]

theorem padded_getElem? (content : Bytes) {n : ℕ} (pad : UInt8) (hlow : content.length ≤ n)
    (hhigh : n < len) : (padded content len pad)[n]? = some pad := by
  have hshort : (content.take len).length ≤ n := by
    rw [length_take]
    omega
  have hin : n - (content.take len).length < len - content.length := by
    rw [length_take]
    omega
  rw [padded, getElem?_append_right hshort, getElem?_replicate, if_pos hin]

theorem slice_of_completions (hlen : stop ≤ len) (h : ∀ A, Completes content len A → bytes = slice A start stop) :
    bytes = slice content start stop ∧ (start < stop → stop ≤ content.length) := by
  have hin : start < stop → stop ≤ content.length := by
    intro hlt
    by_contra hlong
    have hzero := h _ (padded_completes content len 0)
    have hone := h _ (padded_completes content len 1)
    have hlast : start + (stop - 1 - start) = stop - 1 := by omega
    have h0 := slice_getElem? (padded content len 0) (by omega : start + (stop - 1 - start) < stop)
    have h1 := slice_getElem? (padded content len 1) (by omega : start + (stop - 1 - start) < stop)
    rw [hlast, padded_getElem? content _ (by omega) (by omega), ← hzero] at h0
    rw [hlast, padded_getElem? content _ (by omega) (by omega), ← hone, h0] at h1
    exact absurd h1 (by decide)
  refine ⟨?_, hin⟩
  have hpadded := h _ (padded_completes content len 0)
  by_cases hlt : start < stop
  · rw [hpadded, (padded_completes content len 0).slice_eq (hin hlt) hlen]
  · have hempty : stop - start = 0 := by omega
    rw [hpadded, slice, slice, hempty, take_zero, take_zero]

/-! ## What the store holds -/

def GenerationInv (content : Bytes) (archiveLen chunkSize : ℕ) (s : ArchiveStore) : Prop :=
  ∀ A, Completes content archiveLen A → ArchiveStore.StoreInv A chunkSize s

theorem fetchAnswered_congr {size : ℕ} {g : DispatchedGroup} {objectStore' : ℕ → ℕ → Except ChunkFetchError Bytes}
    (h : ∀ a b, b ≤ g.archiveLen → fetchRange objectStore a b = fetchRange objectStore' a b) :
    fetchAnswered size objectStore g = fetchAnswered size objectStore' g := by
  have hgroup : fetchChunkGroup size objectStore g.chunkRange g.archiveLen =
      fetchChunkGroup size objectStore' g.chunkRange g.archiveLen := by
    unfold fetchChunkGroup
    dsimp only
    split_ifs
    · rfl
    · split
      · split_ifs
        · rfl
        · exact h _ _ (min_le_right _ _)
      · rfl
  unfold fetchAnswered
  rw [hgroup]

/-- The answers for one generation, with the short ones turned into the error that `fetch_range` makes of them. -/
def exactRead (objectStore : ℕ → ℕ → Except ChunkFetchError Bytes) (archiveLen start stop : ℕ) :
    Except ChunkFetchError Bytes :=
  if stop ≤ archiveLen then fetchRange objectStore start stop else .error .notFound

theorem fetchRange_exactRead (h : stop ≤ len) :
    fetchRange objectStore start stop = fetchRange (exactRead objectStore len) start stop := by
  cases hread : fetchRange objectStore start stop with
  | error e =>
    unfold fetchRange exactRead
    rw [if_pos h, hread]
  | ok bytes =>
    obtain ⟨-, hlen⟩ := fetchRange_ok hread
    conv_rhs => unfold fetchRange exactRead
    rw [if_pos h, hread]
    dsimp only
    rw [if_neg (not_not.mpr hlen)]

theorem exactRead_serves {gen : γ} (hA : Completes (contents gen) len A) (resp : ObjectResponse γ) :
    Serves A (exactRead (pinnedRead contents gen resp) len) := by
  intro start stop bytes h
  unfold exactRead at h
  split_ifs at h with hstop
  obtain ⟨hread, hlen⟩ := fetchRange_ok h
  have hbytes := pinnedRead_eq_ok hread
  by_cases hlt : start < stop
  · have hin : stop ≤ (contents gen).length := by
      rw [hbytes, slice_length] at hlen
      omega
    rw [hbytes, hA.slice_eq hin hstop]
  · have hempty : stop - start = 0 := by omega
    rw [hbytes, slice, slice, hempty, take_zero, take_zero]

namespace GenerationInv

variable {gen : γ} {size cap : ℕ} {s s' : ArchiveStore}

omit [DecidableEq γ] in
theorem init : GenerationInv content len size {} :=
  fun _ _ => ArchiveStore.storeInv_init

theorem step (hsize : 0 < size) (hL : len < 2 ^ 64) (h : GenerationInv (contents gen) len size s)
    (hstep : GenerationStep contents gen len size cap s s') : GenerationInv (contents gen) len size s' := by
  intro A hA
  refine ArchiveStore.storeInv_step hsize (hA.1.symm ▸ hL) cap s s' (h A hA) ?_
  cases hstep with
  | blind _ hblind => exact hblind A hA.1
  | answered i t resp ht hphase =>
    have hlen := ((h A hA).valid (mem_of_getElem? ht)).2
    rw [fetchAnswered_congr (fun a b hb => fetchRange_exactRead (hb.trans_eq (hlen.trans hA.1)))]
    exact .answered s i t _ ht hphase (exactRead_serves hA resp)

omit [DecidableEq γ] in
theorem readBytes (hsize : 0 < size) (hL : len < 2 ^ 64)
    (h : GenerationInv content len size s) {length : ℕ} (hstart : start < 2 ^ 64)
    (hlen : length < 2 ^ 64) : GenerationInv content len size
      { s with reads := s.reads ++ [⟨start, length, beginRead len size start length⟩] } := by
  intro A hA
  refine ArchiveStore.storeInv_step hsize (hA.1.symm ▸ hL) 0 s _ (h A hA) ?_
  rw [← hA.1]
  exact .readBytes s start length hstart hlen

omit [DecidableEq γ] in
theorem read_eq (h : GenerationInv content len size s) {r : ReadTask} (hr : r ∈ s.reads)
    {out : ChunkRead} (hout : r.phase = .done (.ok out)) : out.bytes = slice content r.start (r.start + r.length) := by
  have hholds : ∀ A, Completes content len A →
      r.start + r.length ≤ A.length ∧ out.bytes = slice A r.start (r.start + r.length) := by
    intro A hA
    have hread := (h A hA).reads r hr
    rw [hout] at hread
    exact hread
  have hcompl := padded_completes content len 0
  have hrange := (hholds _ hcompl).1
  rw [hcompl.1] at hrange
  exact (slice_of_completions hrange (fun A hA => (hholds A hA).2)).1

omit [DecidableEq γ] in
theorem chunk_eq (h : GenerationInv content len size s) {c : ℕ} (hc : s.cache c = some bytes) :
    bytes = slice content (c * size) (min ((c + 1) * size) len) := by
  refine (slice_of_completions (min_le_right _ _) ?_).1
  intro A hA
  rw [(h A hA).cache c bytes hc, archiveChunk, slice_eq_drop_take, slice_eq_drop_take, ← hA.1, take_eq_take_min]

end GenerationInv

/-! ## Reads keep their range -/

def KeepsReads (s s' : ArchiveStore) : Prop :=
  ∀ (i : ℕ) (r : ReadTask), s.reads[i]? = some r →
    ∃ r', s'.reads[i]? = some r' ∧ r'.start = r.start ∧ r'.length = r.length

namespace KeepsReads

variable {s s' : ArchiveStore} {cap size : ℕ}

theorem of_eq (h : s'.reads = s.reads) : KeepsReads s s' := by
  intro i r hr
  exact ⟨r, by rw [h, hr], rfl, rfl⟩

theorem append (read : ReadTask) : KeepsReads s { s with reads := s.reads ++ [read] } := by
  intro i r hr
  obtain ⟨hi, -⟩ := List.getElem?_eq_some_iff.mp hr
  exact ⟨r, by rw [getElem?_append_left hi, hr], rfl, rfl⟩

theorem setRead {i : ℕ} {r : ReadTask} (hr : s.reads[i]? = some r) (hreads : s'.reads = s.reads) (phase : ReadPhase) :
    KeepsReads s (s'.setRead i r phase) := by
  intro j r' hr'
  obtain ⟨hi, -⟩ := List.getElem?_eq_some_iff.mp hr
  show ∃ _, (s'.reads.set i _)[j]? = some _ ∧ _
  rw [hreads, getElem?_set]
  split_ifs with hij
  · subst hij
    rw [hr] at hr'
    cases hr'
    exact ⟨{ r with phase := phase }, rfl, rfl, rfl⟩
  · exact ⟨r', hr', rfl, rfl⟩

theorem step (h : ArchiveStore.Step A size cap s s') : KeepsReads s s' := by
  cases h with
  | readBytes => exact append _
  | probe i r chunk rest resolved missing hr => exact setRead hr rfl _
  | probed i queuedAt r resolved missing hr =>
    unfold ArchiveStore.probed
    split_ifs <;> exact setRead hr rfl _
  | receive i r w receivers fetched resolved res hr =>
    cases res with
    | ok bytes | error e => exact setRead hr rfl _
  | fetched i r fetched resolved hr | cancelProbing i r rest resolved missing hr
  | cancelAwaiting i r receivers fetched resolved hr => exact setRead hr rfl _
  | _ => exact of_eq rfl

theorem generationStep {gen : γ} (h : GenerationStep contents gen len size cap s s') : KeepsReads s s' := by
  cases h with
  | answered => exact of_eq rfl
  | blind _ hblind => exact step (hblind (padded [] len 0) (padded_completes [] len 0).1)

end KeepsReads
end Mappf.ChunkedStore
