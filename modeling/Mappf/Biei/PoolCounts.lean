import Mappf.Biei.WorkerPool
import Mappf.Lib.Tally

/-! # The counts of the pool

`profile_counts` is the multiset of the profiles in `loaded`, and the source ids of a worker are the contents of
its queue of least recently used ones, without duplicates and at most 64 of them. Every operation on the state keeps
both. -/
namespace Mappf.Biei.PoolState
open List Function

variable {n : ℕ}

/-! ## Counts of profiles -/

def predicted (loaded : Fin n → Option WorkerProfile) (profile : WorkerProfile) : ℕ :=
  ∑ idx, if loaded idx = some profile then 1 else 0

def CountsMatch (counts : HashMap WorkerProfile ℕ) (loaded : Fin n → Option WorkerProfile) : Prop :=
  ∀ profile, counts.lookup profile =
    if predicted loaded profile = 0 then none else some (predicted loaded profile)

theorem predicted_update (loaded : Fin n → Option WorkerProfile) (idx : Fin n) (new : Option WorkerProfile)
    (prof : WorkerProfile) :
    predicted (update loaded idx new) prof + (if loaded idx = some prof then 1 else 0) =
      predicted loaded prof + if new = some prof then 1 else 0 :=
  sum_update (fun entry : Option WorkerProfile => if entry = some prof then 1 else 0) loaded idx new

variable {counts : HashMap WorkerProfile ℕ} {ids : Finset String} {lru : List String}
  {loaded : Fin n → Option WorkerProfile}

theorem CountsMatch.getD (h : CountsMatch counts loaded)
    (prof : WorkerProfile) : (counts.lookup prof).getD 0 = predicted loaded prof := by
  rw [h prof]
  split_ifs with hzero
  · rw [hzero, Option.getD_none]
  · rw [Option.getD_some]

theorem CountsMatch.decrement (h : CountsMatch counts loaded) {idx : Fin n}
    {prev : WorkerProfile} (hprev : loaded idx = some prev) :
    ∃ count, counts.lookup prev = some count ∧
      CountsMatch (if count - 1 = 0 then counts.erase prev else counts.insert prev (count - 1))
        (update loaded idx none) := by
  have hupd := fun prof => predicted_update loaded idx none prof
  have hself := hupd prev
  rw [hprev, if_pos rfl, if_neg ((Option.some_ne_none prev).symm)] at hself
  refine ⟨predicted loaded prev, ?_, fun prof => ?_⟩
  · rw [h prev, if_neg (by omega)]
  · by_cases hsame : prof = prev
    · subst hsame
      split_ifs with hlast hzero hzero
      · rw [AList.lookup_erase]
      · omega
      · omega
      · rw [AList.lookup_insert]
        congr 1
        omega
    · have hother := hupd prof
      rw [hprev, if_neg (fun heq => hsame (Option.some.inj heq).symm), if_neg ((Option.some_ne_none prof).symm)] at hother
      have hkept : predicted (update loaded idx none) prof = predicted loaded prof := by omega
      rw [hkept, ← h prof]
      split_ifs
      · rw [AList.lookup_erase_ne hsame]
      · rw [AList.lookup_insert_ne hsame]

theorem CountsMatch.increment (h : CountsMatch counts loaded) {idx : Fin n}
    (hnone : loaded idx = none) (prof : WorkerProfile) :
    CountsMatch (counts.insert prof ((counts.lookup prof).getD 0 + 1)) (update loaded idx (some prof)) := by
  intro other
  have hupd := predicted_update loaded idx (some prof) other
  rw [hnone, if_neg ((Option.some_ne_none other).symm)] at hupd
  by_cases hsame : other = prof
  · subst hsame
    rw [if_pos rfl] at hupd
    rw [AList.lookup_insert, h.getD, if_neg (by omega), ← hupd, Nat.add_zero]
  · rw [if_neg (fun heq => hsame (Option.some.inj heq).symm)] at hupd
    have hkept : predicted (update loaded idx (some prof)) other = predicted loaded other := by omega
    rw [AList.lookup_insert_ne hsame, hkept, h other]

/-! ## Source ids -/

structure Affine (ids : Finset String) (lru : List String) : Prop where
  contents : ids = lru.toFinset
  nodup : lru.Nodup
  bounded : ids.card ≤ addlayerSourceAffinityCapacity

theorem Affine.empty : Affine ∅ [] := ⟨rfl, nodup_nil, Nat.zero_le _⟩

theorem Affine.evict (h : Affine ids lru) : Affine (evictAddlayerSources ids lru).1 (evictAddlayerSources ids lru).2 ∧
      (evictAddlayerSources ids lru).1.card < addlayerSourceAffinityCapacity ∧
      (evictAddlayerSources ids lru).1 ⊆ ids := by
  induction lru generalizing ids with
  | nil =>
    refine ⟨h, ?_, Finset.Subset.refl ids⟩
    rw [h.contents]
    exact Nat.zero_lt_succ 63
  | cons evicted lru ih =>
    rw [evictAddlayerSources]
    obtain ⟨hfresh, hnodup⟩ := nodup_cons.mp h.nodup
    split_ifs with hfull
    · have herase : ids.erase evicted = lru.toFinset := by
        rw [h.contents, toFinset_cons, Finset.erase_insert (fun hmem => hfresh (mem_toFinset.mp hmem))]
      obtain ⟨haffine, hroom, hsubset⟩ := ih ⟨herase, hnodup, (Finset.card_erase_le).trans h.bounded⟩
      exact ⟨haffine, hroom, hsubset.trans (Finset.erase_subset _ _)⟩
    · exact ⟨h, Nat.not_le.mp hfull, Finset.Subset.refl ids⟩

theorem Affine.touch (h : Affine ids lru) {sourceId : String} (hmem : sourceId ∈ ids) :
    Affine ids (lru.filter (· ≠ sourceId) ++ [sourceId]) where
  contents := by
    rw [h.contents] at hmem ⊢
    ext other
    simp only [mem_toFinset, mem_append, mem_filter, mem_singleton, decide_eq_true_eq]
    constructor
    · intro hother
      by_cases hsame : other = sourceId
      · exact .inr hsame
      · exact .inl ⟨hother, hsame⟩
    · rintro (⟨hother, -⟩ | rfl)
      · exact hother
      · exact mem_toFinset.mp hmem
  nodup := by
    refine nodup_append.mpr ⟨h.nodup.filter _, nodup_singleton sourceId, ?_⟩
    intro other hother last hlast
    rw [mem_singleton.mp hlast]
    exact of_decide_eq_true (mem_filter.mp hother).2
  bounded := h.bounded

theorem Affine.insert (h : Affine ids lru) {sourceId : String} (hnew : sourceId ∉ ids)
    (hroom : ids.card < addlayerSourceAffinityCapacity) : Affine (insert sourceId ids) (lru ++ [sourceId]) where
  contents := by
    rw [toFinset_append, ← h.contents, toFinset_cons, toFinset_nil, Finset.union_insert, Finset.union_empty]
  nodup := by
    refine nodup_append.mpr ⟨h.nodup, nodup_singleton sourceId, ?_⟩
    intro other hother last hlast hsame
    rw [mem_singleton.mp hlast] at hsame
    rw [h.contents, ← hsame] at hnew
    exact hnew (mem_toFinset.mpr hother)
  bounded := (Finset.card_insert_le sourceId ids).trans hroom

/-! ## Operations -/

structure Consistent (state : PoolState n) : Prop where
  counts : CountsMatch state.profileCounts state.loaded
  sources : ∀ idx, Affine (state.addlayerSourceIds idx) (state.addlayerSourceLru idx)

variable {state : PoolState n}

theorem Consistent.init : Consistent ({} : PoolState n) := by
  refine ⟨fun prof => ?_, fun idx => Affine.empty⟩
  have hzero : predicted (fun _ : Fin n => none) prof = 0 := by
    unfold predicted
    simp
  rw [hzero]
  rfl

/-- `loaded[idx].take()` empties one entry and touches nothing but the counts. -/
theorem takeLoaded_spec (state : PoolState n) (idx : Fin n) (h : CountsMatch state.profileCounts state.loaded) :
    ∃ counts, state.takeLoaded idx =
        { state with loaded := update state.loaded idx none, profileCounts := counts } ∧
      CountsMatch counts (update state.loaded idx none) := by
  unfold takeLoaded
  split
  case h_1 prev hprev =>
    obtain ⟨count, hcount, hmatch⟩ := h.decrement hprev
    unfold decrementProfileCount
    rw [hcount]
    exact ⟨_, rfl, hmatch⟩
  case h_2 hnone =>
    have hsame : update state.loaded idx none = state.loaded := by
      rw [← hnone, update_eq_self]
    exact ⟨state.profileCounts, by rw [hsame], by rw [hsame]; exact h⟩

theorem sources_clear (h : ∀ idx, Affine (state.addlayerSourceIds idx) (state.addlayerSourceLru idx)) (idx : Fin n) :
    ∀ j, Affine ((state.clearAddlayerSources idx).addlayerSourceIds j)
      ((state.clearAddlayerSources idx).addlayerSourceLru j) := by
  intro j
  unfold clearAddlayerSources
  dsimp only
  by_cases hj : j = idx
  · subst hj
    rw [update_self, update_self]
    exact Affine.empty
  · rw [update_of_ne hj, update_of_ne hj]
    exact h j

theorem Consistent.markLoaded (h : Consistent state) (now : ℕ) (idx : Fin n) (prof : WorkerProfile) :
    Consistent (state.markLoaded now idx prof).1 := by
  unfold PoolState.markLoaded
  dsimp only
  split_ifs with hsame
  · exact ⟨h.counts, h.sources⟩
  · obtain ⟨counts, htake, hcnts⟩ := takeLoaded_spec
      { state with
        dispatchGenerations := update state.dispatchGenerations idx (state.dispatchGenerations idx + 1)
        lastUsed := update state.lastUsed idx (some now) } idx h.counts
    rw [htake]
    refine ⟨?_, sources_clear h.sources idx⟩
    exact hcnts.increment (update_self idx none state.loaded) prof

theorem Consistent.markAddlayerSource (h : Consistent state) (idx : Fin n) (sourceId : String) :
    Consistent (state.markAddlayerSource idx sourceId) := by
  unfold PoolState.markAddlayerSource
  split_ifs with hmem
  · refine ⟨h.counts, fun j => ?_⟩
    dsimp only
    by_cases hj : j = idx
    · subst hj
      rw [update_self]
      exact (h.sources j).touch hmem
    · rw [update_of_ne hj]
      exact h.sources j
  · refine ⟨h.counts, fun j => ?_⟩
    dsimp only
    by_cases hj : j = idx
    · subst hj
      rw [update_self, update_self]
      obtain ⟨haffine, hroom, hsubset⟩ := (h.sources j).evict
      exact haffine.insert (fun hkept => hmem (hsubset hkept)) hroom
    · rw [update_of_ne hj, update_of_ne hj]
      exact h.sources j

theorem Consistent.clearLoadedIfLatest (h : Consistent state) (idx : Fin n) (dispatchGeneration : UInt64) :
    Consistent (state.clearLoadedIfLatest idx dispatchGeneration) := by
  unfold PoolState.clearLoadedIfLatest
  split_ifs
  · obtain ⟨counts, htake, hcnts⟩ := takeLoaded_spec state idx h.counts
    unfold clearLoaded
    rw [htake]
    exact ⟨hcnts, sources_clear h.sources idx⟩
  · exact h

end Mappf.Biei.PoolState
