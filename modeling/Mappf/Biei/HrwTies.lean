import Mappf.Biei.Routing
import Mathlib.Data.Fintype.EquivFin

/-! # Ties between HRW weights

Every step of a weight after the FNV hashes can be undone, so two weights of one profile or of one node are equal
only where the hashes are. -/
namespace Mappf.Biei

theorem splitmix64Finalize_injective : Function.Injective splitmix64Finalize :=
  (xorShift_injective (k := 31) (by decide) (by decide)).comp
    ((mul_injective_of_odd (c := 0x94d049bb133111eb) (by decide)).comp
      ((xorShift_injective (k := 27) (by decide) (by decide)).comp
        ((mul_injective_of_odd (c := 0xbf58476d1ce4e5b9) (by decide)).comp
          (xorShift_injective (k := 30) (by decide) (by decide)))))

/-! ## The FNV loop -/

theorem fnv1aContinue_injective (bytes : Bytes) : Function.Injective (fnv1aContinue · bytes) := by
  induction bytes with
  | nil => exact Function.injective_id
  | cons byte bytes ih =>
    intro h h' heq
    have hstep := mul_injective_of_odd (c := 0x00000100000001b3) (by decide) (ih heq)
    exact (UInt64.xor_left_inj _).mp hstep

theorem fnv1aContinue_byte_ne {h : UInt64} {a b : UInt8} (hne : a ≠ b) : fnv1aContinue h [a] ≠ fnv1aContinue h [b] := by
  intro heq
  have hbyte := (UInt64.xor_right_inj _).mp (mul_injective_of_odd (c := 0x00000100000001b3) (by decide) heq)
  exact hne (UInt8.toUInt64_inj.mp hbyte)

theorem fnv1aProfile_ne {p p' : WorkerProfile} (hstyle : p.style.id = p'.style.id)
    (h : (p.renderMode ≠ p'.renderMode ∧ p.scale = p'.scale) ∨ (p.renderMode = p'.renderMode ∧ p.scale ≠ p'.scale)) :
    fnv1aProfile p ≠ fnv1aProfile p' := by
  unfold fnv1aProfile
  rw [hstyle]
  obtain ⟨hmode, hscale⟩ | ⟨hmode, hscale⟩ := h
  · rw [hscale]
    refine (fnv1aContinue_injective _).ne ((fnv1aContinue_injective _).ne (fnv1aContinue_byte_ne ?_))
    cases hp : p.renderMode <;> cases hp' : p'.renderMode <;> simp_all
  · rw [hmode]
    refine fnv1aContinue_byte_ne ?_
    cases hp : p.scale <;> cases hp' : p'.scale <;> simp_all

theorem hrwWeight_eq_iff {p p' : WorkerProfile} {n n' : NodeId} : hrwWeight p n = hrwWeight p' n' ↔
    fnv1aProfile p * 0x9E3779B97F4A7C15 ^^^ fnv1a (utf8 n.value) * 0xBF58476D1CE4E5B9 =
      fnv1aProfile p' * 0x9E3779B97F4A7C15 ^^^ fnv1a (utf8 n'.value) * 0xBF58476D1CE4E5B9 :=
  splitmix64Finalize_injective.eq_iff

theorem hrw_ties_from_hashes :
    Function.Bijective splitmix64Finalize ∧
    (∀ p (n n' : NodeId), hrwWeight p n = hrwWeight p n' ↔ fnv1a (utf8 n.value) = fnv1a (utf8 n'.value)) ∧
    (∀ n p p', hrwWeight p n = hrwWeight p' n ↔ fnv1aProfile p = fnv1aProfile p') ∧
    ∀ n p p', p.style.id = p'.style.id →
      (p.renderMode ≠ p'.renderMode ∧ p.scale = p'.scale) ∨ (p.renderMode = p'.renderMode ∧ p.scale ≠ p'.scale) →
      hrwWeight p n ≠ hrwWeight p' n := by
  have hprofiles : ∀ n p p', hrwWeight p n = hrwWeight p' n ↔ fnv1aProfile p = fnv1aProfile p' := by
    intro n p p'
    rw [hrwWeight_eq_iff, UInt64.xor_left_inj]
    exact (mul_injective_of_odd (c := 0x9E3779B97F4A7C15) (by decide)).eq_iff
  have : Finite UInt64 := .of_injective UInt64.toFin (fun _ _ => UInt64.toFin_inj.mp)
  refine ⟨Finite.injective_iff_bijective.mp splitmix64Finalize_injective, ?_, hprofiles, ?_⟩
  · intro p n n'
    rw [hrwWeight_eq_iff, UInt64.xor_right_inj]
    exact (mul_injective_of_odd (c := 0xBF58476D1CE4E5B9) (by decide)).eq_iff
  · intro n p p' hstyle hdiffer heq
    exact fnv1aProfile_ne hstyle hdiffer ((hprofiles n p p').mp heq)

end Mappf.Biei
