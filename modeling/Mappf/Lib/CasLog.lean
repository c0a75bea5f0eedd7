import Mappf.Lib.Log
import Mathlib.Data.List.Induction
import Mathlib.Order.Lattice

/-! # Logs of conditional writes

A cell is replaced only by a write that names the version it holds, or created where there is none, and every
write gives its cell a version that the cell has never had. The log of all writes then is a chain for every
cell, and no two writes to a cell replaced the same version. -/
namespace Mappf.CasLog
open List

variable {W κ ν : Type} [DecidableEq κ] (key : W → κ) (version : W → ν) (initial : κ → Option ν)

def latest (log : List W) (k : κ) : Option ν :=
  log.foldl (fun current w => if key w = k then some (version w) else current) (initial k)

def versions (log : List W) (k : κ) : List ν :=
  (initial k).toList ++ (log.filter (fun w => key w = k)).map version

structure Chained (replaced : W → Option ν) (log : List W) : Prop where
  replaced : ∀ (n : ℕ) w, log[n]? = some w → replaced w = latest key version initial (log.take n) (key w)
  fresh : ∀ (n : ℕ) w, log[n]? = some w → version w ∉ versions key version initial (log.take n) (key w)

variable {key version initial}

theorem latest_append (log : List W) (w : W) (k : κ) : latest key version initial (log ++ [w]) k =
      if key w = k then some (version w) else latest key version initial log k := by
  rw [latest, foldl_append]
  rfl

theorem mem_versions_append {log : List W} {w : W} {k : κ} {v : ν} : v ∈ versions key version initial (log ++ [w]) k ↔
      v ∈ versions key version initial log k ∨ (key w = k ∧ v = version w) := by
  unfold versions
  rw [filter_append, map_append, ← append_assoc, mem_append, filter_singleton]
  by_cases hk : key w = k <;> simp [hk]

theorem mem_versions_of_latest {log : List W} {k : κ} {v : ν} (h : latest key version initial log k = some v) :
    v ∈ versions key version initial log k := by
  induction log using reverseRecOn with
  | nil =>
    have hinit : initial k = some v := h
    simp [versions, hinit]
  | append_singleton log w ih =>
    rw [latest_append] at h
    rw [mem_versions_append]
    split_ifs at h with hk
    · exact .inr ⟨hk, (Option.some.inj h).symm⟩
    · exact .inl (ih h)

namespace Chained

variable {replaced : W → Option ν} {log : List W}

theorem nil : Chained key version initial replaced [] := by
  constructor <;> nofun

variable (h : Chained key version initial replaced log)
include h

theorem append {w : W} (hrepl : replaced w = latest key version initial log (key w))
    (hfresh : version w ∉ versions key version initial log (key w)) :
    Chained key version initial replaced (log ++ [w]) := by
  -- the writes before the last one see the same log as before
  have htake : ∀ (n : ℕ) w', log[n]? = some w' → (log ++ [w]).take n = log.take n := by
    intro n w' hn
    rw [take_append_of_le_length (Nat.le_of_lt (lt_length hn))]
  constructor
  · intro n w' hn
    cases getElem?_log.mp hn with
    | inl hold => rw [htake n w' hold]; exact h.replaced n w' hold
    | inr hlast =>
      obtain ⟨rfl, rfl⟩ := hlast
      rw [take_left']
      · exact hrepl
      · rfl
  · intro n w' hn
    cases getElem?_log.mp hn with
    | inl hold => rw [htake n w' hold]; exact h.fresh n w' hold
    | inr hlast =>
      obtain ⟨rfl, rfl⟩ := hlast
      rw [take_left']
      · exact hfresh
      · rfl

/-- What a write replaced is gone from its cell for good. -/
theorem latest_ne_replaced {i n : ℕ} {w : W} (hw : log[i]? = some w) (hi : i < n) (hn : n ≤ log.length) :
    latest key version initial (log.take n) (key w) ≠ replaced w ∧
      ∀ v, replaced w = some v → v ∈ versions key version initial (log.take n) (key w) := by
  induction n with
  | zero => omega
  | succ n ih =>
    have hlt : n < log.length := by omega
    rw [take_succ_eq_append_getElem hlt, latest_append]
    by_cases hin : i = n
    · subst hin
      obtain ⟨_, rfl⟩ := List.getElem?_eq_some_iff.mp hw
      rw [if_pos rfl]
      have hbef := h.replaced i _ hw
      have hfresh := h.fresh i _ hw
      have hold : ∀ v, replaced log[i] = some v → v ∈ versions key version initial (log.take i) (key log[i]) := by
        intro v hv
        exact mem_versions_of_latest (hbef.symm.trans hv)
      refine ⟨fun heq => hfresh (hold _ heq.symm), ?_⟩
      intro v hv
      exact mem_versions_append.mpr (.inl (hold v hv))
    · obtain ⟨hne, hold⟩ := ih (by omega) (by omega)
      have hthen : ∀ v, replaced w = some v →
          v ∈ versions key version initial (log.take n ++ [log[n]]) (key w) :=
        fun v hv => mem_versions_append.mpr (.inl (hold v hv))
      split_ifs with hk
      · refine ⟨?_, hthen⟩
        intro heq
        have hfresh := h.fresh n _ (getElem?_eq_getElem hlt)
        rw [hk] at hfresh
        exact hfresh (hold _ heq.symm)
      · exact ⟨hne, hthen⟩

/-- No two writes to a cell replaced the same version. -/
theorem replaced_injective {i j : ℕ} {w w' : W}
    (hw : log[i]? = some w) (hw' : log[j]? = some w') (hkey : key w = key w') (hrepl : replaced w = replaced w') :
    i = j := by
  have hlt : ∀ (i j : ℕ) (w w' : W), log[i]? = some w → log[j]? = some w' → key w = key w' →
      replaced w = replaced w' → ¬ i < j := by
    intro i j w w' hw hw' hkey hrepl hij
    have hj := (List.getElem?_eq_some_iff.mp hw').1
    apply (h.latest_ne_replaced hw hij (Nat.le_of_lt hj)).1
    rw [hrepl, h.replaced j w' hw', hkey]
  have hij := hlt i j w w' hw hw' hkey hrepl
  have hji := hlt j i w' w hw' hw hkey.symm hrepl.symm
  omega

omit h

end Chained
end Mappf.CasLog
