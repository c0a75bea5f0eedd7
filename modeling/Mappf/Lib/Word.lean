import Mathlib.Algebra.Group.Nat.Defs
import Mathlib.Data.Nat.Basic
import Mathlib.Data.Nat.Bitwise
import Mathlib.Data.Nat.ModEq

/-! # Unsigned 64-bit arithmetic on naturals

`u64` values are naturals below `2 ^ 64`. Operators that wrap in a release build carry the
reduction in their definition; the checked operators return `none` where the source's do. -/
namespace Mappf

def wrappingAdd (a b : ℕ) : ℕ := (a + b) % 2 ^ 64

def wrappingSub (a b : ℕ) : ℕ := (a + 2 ^ 64 - b) % 2 ^ 64

def checkedAdd (a b : ℕ) : Option ℕ := if a + b < 2 ^ 64 then some (a + b) else none

def checkedMul (a b : ℕ) : Option ℕ := if a * b < 2 ^ 64 then some (a * b) else none

variable {a b c : ℕ}

theorem wrappingAdd_eq (h : a + b < 2 ^ 64) : wrappingAdd a b = a + b := Nat.mod_eq_of_lt h

@[simp] theorem checkedAdd_eq_some : checkedAdd a b = some c ↔ a + b < 2 ^ 64 ∧ a + b = c := by
  rw [checkedAdd, Option.ite_none_right_eq_some, Option.some.injEq]

@[simp] theorem checkedMul_eq_some : checkedMul a b = some c ↔ a * b < 2 ^ 64 ∧ a * b = c := by
  rw [checkedMul, Option.ite_none_right_eq_some, Option.some.injEq]

/-! ## Mixers

The steps that hash finalizers are made of. Each one determines the word it was applied to. -/

theorem mul_injective_of_odd {c : UInt64} (hodd : c.toNat % 2 = 1) : Function.Injective (· * c) := by
  intro a b h
  have hmod : a.toNat * c.toNat ≡ b.toNat * c.toNat [MOD 2 ^ 64] := by
    simpa [Nat.ModEq] using congrArg UInt64.toNat h
  have hcoprime : (2 ^ 64).Coprime c.toNat := by
    refine Nat.Coprime.pow_left 64 ?_
    rw [Nat.Coprime, Nat.gcd_rec, hodd]
    rfl
  exact UInt64.toNat_inj.mp ((hmod.cancel_right_of_coprime hcoprime).eq_of_lt_of_lt a.toNat_lt b.toNat_lt)

theorem xor_eq_of_shift {x y k : ℕ} (h : x ^^^ x >>> k = y ^^^ y >>> k) : x ^^^ y = (x ^^^ y) >>> k := by
  refine Nat.eq_of_testBit_eq fun i => ?_
  have hbit := congrArg (Nat.testBit · i) h
  simp only [Nat.testBit_xor, Nat.testBit_shiftRight] at hbit ⊢
  grind

theorem xorShift_injective {k : UInt64} (hpos : 0 < k.toNat) (hk : k.toNat < 64) :
    Function.Injective (fun x : UInt64 => x ^^^ (x >>> k)) := by
  intro x y h
  have hnat : x.toNat ^^^ x.toNat >>> k.toNat = y.toNat ^^^ y.toNat >>> k.toNat := by
    simpa [Nat.mod_eq_of_lt hk] using congrArg UInt64.toNat h
  -- the difference of the two words is its own shift, so it is zero
  have hfix := xor_eq_of_shift hnat
  rw [Nat.shiftRight_eq_div_pow] at hfix
  have hzero : x.toNat ^^^ y.toNat = 0 := by
    by_contra hne
    have hlt := Nat.div_lt_self (Nat.pos_of_ne_zero hne) (Nat.one_lt_two_pow hpos.ne')
    omega
  exact UInt64.toNat_inj.mp (Nat.xor_eq_zero_iff.mp hzero)

end Mappf
