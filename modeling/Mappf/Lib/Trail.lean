import Mathlib.Algebra.BigOperators.Group.List.Lemmas
import Mathlib.Algebra.Order.Group.Int
import Mathlib.Algebra.Ring.Int.Defs
import Mathlib.Data.List.Perm.Basic

/-! # Trails in a directed multigraph

The arcs of a list leave each vertex as often as they enter it, up to the flow. A list without flow is
what a collection of closed trails has; the arcs left over by a trail that is still under way have flow
at its two ends only, so the trail can go on until it is back at its start. -/
namespace Mappf

variable {V A : Type} [DecidableEq V]

def mark (u v : V) : ℤ := if u = v then 1 else 0

@[simp] theorem mark_self (v : V) : mark v v = 1 := if_pos rfl

variable {u v : V} {arcs : List A} {a : A} {s : V}

theorem mark_of_ne (h : u ≠ v) : mark u v = 0 := if_neg h

section
variable (source target : A → V)

def flow (arcs : List A) (v : V) : ℤ := (arcs.map (fun a => mark (source a) v - mark (target a) v)).sum

def Balanced (arcs : List A) : Prop := ∀ v, flow source target arcs v = 0

/-- The arcs that a trail from `s`, which has come to `c`, has not used yet. -/
def LeftOver (s c : V) (arcs : List A) : Prop := ∀ v, flow source target arcs v = mark c v - mark s v

def Trail : V → V → List A → Prop
  | u, v, [] => u = v
  | u, v, a :: arcs => source a = u ∧ Trail (target a) v arcs

end

variable {source target : A → V}

theorem flow_cons (a : A) (arcs : List A) (v : V) :
    flow source target (a :: arcs) v = mark (source a) v - mark (target a) v + flow source target arcs v := by
  rw [flow, List.map_cons, List.sum_cons, flow]

theorem flow_perm {l m : List A} (h : l.Perm m) (v : V) : flow source target l v = flow source target m v :=
  (h.map _).sum_eq

theorem exists_source_of_flow_pos (h : 0 < flow source target arcs v) : ∃ a ∈ arcs, source a = v := by
  induction arcs with
  | nil => cases h
  | cons a arcs ih =>
    by_cases ha : source a = v
    · exact ⟨a, List.mem_cons_self, ha⟩
    · rw [flow_cons, mark_of_ne ha] at h
      have hmark : 0 ≤ mark (target a) v := by
        unfold mark
        split_ifs <;> decide
      obtain ⟨b, hb, hsrc⟩ := ih (by omega)
      exact ⟨b, List.mem_cons_of_mem a hb, hsrc⟩

theorem Balanced.leftOver (h : Balanced source target (a :: arcs)) :
    LeftOver source target (source a) (target a) arcs := by
  intro v
  have hv := h v
  rw [flow_cons] at hv
  omega

theorem LeftOver.step (h : LeftOver source target s (source a) (a :: arcs)) :
    LeftOver source target s (target a) arcs := by
  intro v
  have hv := h v
  rw [flow_cons] at hv
  omega

theorem LeftOver.balanced (h : LeftOver source target s s arcs) : Balanced source target arcs := by
  intro v
  rw [h v, Int.sub_self]

theorem LeftOver.exists_next {c : V} (h : LeftOver source target s c arcs) (hne : c ≠ s) :
    ∃ a ∈ arcs, source a = c := by
  have hpos : 0 < flow source target arcs c := by
    rw [h c, mark_self, mark_of_ne (Ne.symm hne)]
    decide
  exact exists_source_of_flow_pos hpos

omit [DecidableEq V] in
theorem trail_concat (h : Trail source target u v arcs) (ha : source a = v) :
    Trail source target u (target a) (arcs ++ [a]) := by
  induction arcs generalizing u with
  | nil => exact ⟨ha.trans (Eq.symm h), rfl⟩
  | cons b arcs ih => exact ⟨h.1, ih h.2⟩

theorem flow_trail (h : Trail source target u v arcs) (w : V) : flow source target arcs w = mark u w - mark v w := by
  induction arcs generalizing u with
  | nil =>
    have huv : u = v := h
    rw [huv, Int.sub_self]
    rfl
  | cons a arcs ih =>
    rw [flow_cons, ih h.2, h.1]
    omega

end Mappf
