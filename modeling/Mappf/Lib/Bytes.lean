import Mathlib.Data.Nat.Digits.Lemmas
import Mathlib.Data.Nat.Bitwise

/-! # Bytes and the numbers in them

`slice l a b` is the part of `l` at positions `a ≤ i < b`, cut short where `l` ends. -/
namespace Mappf
open List

abbrev Bytes := List UInt8

variable {α : Type}

def slice (l : List α) (start stop : ℕ) : List α := (l.drop start).take (stop - start)

variable (l : List α)

@[simp] theorem slice_length (a b : ℕ) : (slice l a b).length = min (b - a) (l.length - a) := by
  simp [slice]

@[simp] theorem slice_self (a : ℕ) : slice l a a = [] := by
  simp [slice]

theorem slice_append {a b c : ℕ} (hab : a ≤ b) (hbc : b ≤ c) : slice l a b ++ slice l b c = slice l a c := by
  have hsplit : c - a = (b - a) + (c - b) := by omega
  have hdrop : l.drop b = (l.drop a).drop (b - a) := by
    rw [drop_drop]; congr 1; omega
  rw [slice, slice, slice, hsplit, take_add, hdrop]

theorem slice_slice (a b c d : ℕ) (h : a + d ≤ b) : slice (slice l a b) c d = slice l (a + c) (a + d) := by
  rw [slice, slice, drop_take, take_take, drop_drop, slice]
  congr 1
  omega

theorem slice_middle (l m r : List α) {a b : ℕ} (ha : l.length = a) (hb : a + m.length = b) :
    slice (l ++ m ++ r) a b = m := by
  have hsize : b - a = m.length := by omega
  rw [slice, append_assoc, drop_left' ha, hsize, take_left' rfl]

/-! ## Fixed-width little-endian numbers -/

def leDecode (bytes : Bytes) : ℕ := Nat.ofDigits 256 (bytes.map UInt8.toNat)

def leEncode : ℕ → ℕ → Bytes
  | 0, _ => []
  | width + 1, n => UInt8.ofNat (n % 256) :: leEncode width (n / 256)

theorem leDecode_cons (b : UInt8) (bytes : Bytes) : leDecode (b :: bytes) = b.toNat + 256 * leDecode bytes := by
  simp [leDecode, Nat.ofDigits_cons]

@[simp] theorem leEncode_length (width n : ℕ) : (leEncode width n).length = width := by
  induction width generalizing n with
  | zero => rfl
  | succ width ih => rw [leEncode, length_cons, ih]

theorem leDecode_leEncode (width n : ℕ) (h : n < 256 ^ width) : leDecode (leEncode width n) = n := by
  induction width generalizing n with
  | zero =>
    have hn : n = 0 := by simpa using h
    rw [hn]
    rfl
  | succ width ih =>
    have hdiv : n / 256 < 256 ^ width := by
      rw [Nat.pow_succ, Nat.mul_comm] at h
      exact Nat.div_lt_of_lt_mul h
    have hbyte : (UInt8.ofNat (n % 256)).toNat = n % 256 :=
      UInt8.toNat_ofNat_of_lt (Nat.mod_lt n (by decide))
    rw [leEncode, leDecode_cons, hbyte, ih (n / 256) hdiv]
    omega

/-! ## Little-endian base 128

`leb128 k v` writes `v < 128 ^ (k + 1)` with seven bits per byte, low bits first, and no byte more
than it needs; every byte but the last has its high bit set. The remaining lemmas are what a bitwise
reader needs: payload and continuation bit of a byte, and `|||` as addition on disjoint bits. -/

def leb128 : ℕ → ℕ → List UInt8
  | 0, v => [UInt8.ofNat v]
  | k + 1, v => if v < 128 then [UInt8.ofNat v] else UInt8.ofNat (v % 128 + 128) :: leb128 k (v / 128)

theorem leb128_ne_nil (k v : ℕ) : leb128 k v ≠ [] := by
  cases k with
  | zero => simp [leb128]
  | succ k =>
    rw [leb128]
    split_ifs <;> simp

theorem leb128_length_pos (k v : ℕ) : 1 ≤ (leb128 k v).length :=
  length_pos_iff.mpr (leb128_ne_nil k v)

theorem leb128_small {v : ℕ} (k : ℕ) (h : v < 128) : leb128 k v = [UInt8.ofNat v] := by
  cases k with
  | zero => rfl
  | succ k => rw [leb128, if_pos h]

theorem leb128_length_mul (k v payload : ℕ) (hp : payload < 128) (hv : 0 < v) :
    (leb128 (k + 1) (payload + 128 * v)).length = (leb128 k v).length + 1 := by
  have hdiv : (payload + 128 * v) / 128 = v := by omega
  rw [leb128, if_neg (by omega), length_cons, hdiv]

/-! ## Bytes -/

theorem payload_toNat (b : UInt8) : (b &&& 0x7f).toNat = b.toNat % 128 := by
  exact Nat.and_two_pow_sub_one_eq_mod b.toNat 7

theorem continuation_eq_zero_iff (b : UInt8) : b &&& 0x80 = 0 ↔ b.toNat < 128 := by
  have hb := b.toNat_lt
  have hbit : b.toNat &&& 128 = 128 * (b.toNat / 128) := by
    have h := Nat.and_two_pow b.toNat 7
    have h' : b.toNat / 128 < 2 := by omega
    rw [show (128 : ℕ) = 2 ^ 7 from rfl, h, Nat.testBit_eq_decide_div_mod_eq,
      Nat.mod_eq_of_lt (show b.toNat / 2 ^ 7 < 2 from h')]
    have hcases : b.toNat / 2 ^ 7 = 0 ∨ b.toNat / 2 ^ 7 = 1 := by omega
    cases hcases with
    | inl h0 => rw [h0]; rfl
    | inr h1 => rw [h1]; rfl
  rw [← UInt8.toNat_inj, UInt8.toNat_and]
  show b.toNat &&& 128 = 0 ↔ _
  omega

theorem or_shiftLeft_eq_add {value shift : ℕ} (payload : ℕ) (h : value < 2 ^ shift) :
    value ||| payload <<< shift = value + payload * 2 ^ shift := by
  rw [Nat.or_comm, ← Nat.shiftLeft_add_eq_or_of_lt h, Nat.shiftLeft_eq]
  ring

end Mappf
