import Mappf.Lib.Bytes
import Mathlib.Data.String.Basic

/-! # Text

Character classes, lengths, bytes and splitting of Rust strings: `len` counts UTF-8 bytes, `char::is_control`
is the Unicode general category `Cc`, and `split_once` cuts at the first occurrence. -/
namespace Mappf
open List String

/-- `char::is_control` -/
def isControl (c : Char) : Bool := c.toNat < 0x20 || (0x7f ≤ c.toNat && c.toNat ≤ 0x9f)

/-- `char::is_whitespace`: the characters with the Unicode property `White_Space`. -/
def isWhitespace (c : Char) : Bool :=
  (0x09 ≤ c.toNat && c.toNat ≤ 0x0d) || c.toNat == 0x20 || c.toNat == 0x85 || c.toNat == 0xa0 ||
    c.toNat == 0x1680 || (0x2000 ≤ c.toNat && c.toNat ≤ 0x200a) || c.toNat == 0x2028 || c.toNat == 0x2029 ||
    c.toNat == 0x202f || c.toNat == 0x205f || c.toNat == 0x3000

/-- `u8::is_ascii_control` -/
def isAsciiControl (byte : UInt8) : Bool := byte < 0x20 || byte == 0x7f

/-- `u8::is_ascii_whitespace` -/
def isAsciiWhitespace (byte : UInt8) : Bool :=
  byte == 0x20 || byte == 0x09 || byte == 0x0a || byte == 0x0c || byte == 0x0d

/-- `u8::is_ascii_alphanumeric` -/
def isAsciiAlphanumeric (byte : UInt8) : Bool :=
  (0x30 ≤ byte && byte ≤ 0x39) || (0x41 ≤ byte && byte ≤ 0x5a) || (0x61 ≤ byte && byte ≤ 0x7a)

/-- Non-empty, at most `maxBytes` bytes long and without control characters. -/
def boundedLabel (maxBytes : ℕ) (value : String) : Bool :=
  !(value.isEmpty || maxBytes < value.utf8ByteSize || value.toList.any isControl)

def eqIgnoreAsciiCase (a b : String) : Bool := a.toList.map Char.toLower == b.toList.map Char.toLower

/-- `as_bytes` -/
def utf8 (s : String) : Bytes := s.toByteArray.data.toList

variable {s : String} {n : ℕ} {c : Char}

theorem utf8_injective {t : String} (h : utf8 s = utf8 t) : s = t := by
  have hdata : s.toByteArray.data = t.toByteArray.data := Array.toList_inj.mp h
  exact toByteArray_inj.mp (ByteArray.ext hdata)

theorem utf8_length (s : String) : (utf8 s).length = s.utf8ByteSize := rfl

theorem utf8_append (s t : String) : utf8 (s ++ t) = utf8 s ++ utf8 t := by
  simp [utf8]

theorem utf8_ofList (l : List Char) : utf8 (String.ofList l) = l.flatMap String.utf8EncodeChar := by
  simp [utf8, utf8Encode]

theorem ofNat_ne_zero (hpos : 0 < n) (hlt : n < 256) : (0 : UInt8) ≠ UInt8.ofNat n := by
  intro h
  have hnat := congrArg UInt8.toNat h
  rw [UInt8.toNat_ofNat_of_lt' (by simpa using hlt), UInt8.toNat_zero] at hnat
  omega

/-- Only NUL is encoded with a zero byte. -/
theorem zero_notMem_utf8 (h : Char.ofNat 0 ∉ s.toList) : (0 : UInt8) ∉ utf8 s := by
  rw [← ofList_toList (s := s), utf8_ofList, mem_flatMap]
  rintro ⟨c, hc, hzero⟩
  have hpos : c.val.toNat ≠ 0 := by
    intro hval
    have hnul : c = Char.ofNat 0 := Char.ext (UInt32.toNat_inj.mp hval)
    exact h (hnul ▸ hc)
  unfold utf8EncodeChar at hzero
  dsimp only at hzero
  -- by the number of bytes; all but the single byte of ASCII have their high bit set
  split_ifs at hzero with h1 h2 h3 <;> simp only [mem_cons, not_mem_nil, or_false] at hzero
  · exact ofNat_ne_zero (by omega) (by omega) hzero
  · rcases hzero with hb | hb <;> exact ofNat_ne_zero (by omega) (by omega) hb
  · rcases hzero with hb | hb | hb <;> exact ofNat_ne_zero (by omega) (by omega) hb
  · rcases hzero with hb | hb | hb | hb <;> exact ofNat_ne_zero (by omega) (by omega) hb

/-! ## Splitting -/

/-- A list is cut at the first separator in one way only. -/
theorem append_cons_inj {α : Type} {c : α} {a b x y : List α} (ha : c ∉ a) (hb : c ∉ b)
    (h : a ++ c :: x = b ++ c :: y) : a = b ∧ x = y := by
  induction a generalizing b with
  | nil =>
    cases b with
    | nil => exact ⟨rfl, (cons_eq_cons.mp h).2⟩
    | cons d b =>
      obtain ⟨rfl, -⟩ := cons_eq_cons.mp h
      exact absurd mem_cons_self hb
  | cons d a ih =>
    cases b with
    | nil =>
      obtain ⟨rfl, -⟩ := cons_eq_cons.mp h
      exact absurd mem_cons_self ha
    | cons e b =>
      obtain ⟨rfl, hrest⟩ := cons_eq_cons.mp h
      obtain ⟨rfl, rfl⟩ := ih (fun hc => ha (mem_cons_of_mem _ hc)) (fun hc => hb (mem_cons_of_mem _ hc)) hrest
      exact ⟨rfl, rfl⟩

def splitOnceList (c : Char) : List Char → Option (List Char × List Char)
  | [] => none
  | x :: xs => if x = c then some ([], xs) else (splitOnceList c xs).map (fun (front, back) => (x :: front, back))

def splitOnce (c : Char) (s : String) : Option (String × String) :=
  (splitOnceList c s.toList).map (fun (front, back) => (String.ofList front, String.ofList back))

theorem splitOnceList_eq_some {l front back : List Char} (h : splitOnceList c l = some (front, back)) :
    l = front ++ c :: back ∧ c ∉ front := by
  induction l generalizing front with
  | nil => simp [splitOnceList] at h
  | cons x xs ih =>
    rw [splitOnceList] at h
    split_ifs at h with hx
    · cases h
      simp [hx]
    · rw [Option.map_eq_some_iff] at h
      obtain ⟨⟨front', back'⟩, hsplit, heq⟩ := h
      cases heq
      obtain ⟨rfl, hfree⟩ := ih hsplit
      refine ⟨rfl, ?_⟩
      simp only [mem_cons, not_or]
      exact ⟨fun hc => hx hc.symm, hfree⟩

theorem splitOnce_eq_some {front back : String} (h : splitOnce c s = some (front, back)) :
    s = front ++ String.singleton c ++ back ∧ c ∉ front.toList := by
  rw [splitOnce, Option.map_eq_some_iff] at h
  obtain ⟨⟨front', back'⟩, hsplit, heq⟩ := h
  cases heq
  obtain ⟨hs, hfree⟩ := splitOnceList_eq_some hsplit
  refine ⟨?_, by simpa using hfree⟩
  apply toList_inj.mp
  rw [hs]
  simp

theorem splitOnceList_append {front : List Char} (h : c ∉ front) (back : List Char) :
    splitOnceList c (front ++ c :: back) = some (front, back) := by
  induction front with
  | nil => simp [splitOnceList]
  | cons x front ih =>
    simp only [mem_cons, not_or] at h
    simp [splitOnceList, Ne.symm h.1, ih h.2]

theorem splitOnce_append {front : String} (h : c ∉ front.toList) (back : String) :
    splitOnce c (front ++ String.singleton c ++ back) = some (front, back) := by
  have hlist : (front ++ singleton c ++ back).toList = front.toList ++ c :: back.toList := by simp
  rw [splitOnce, hlist, splitOnceList_append h]
  simp

def rsplitOnce (c : Char) (s : String) : Option (String × String) :=
  (splitOnceList c s.toList.reverse).map (fun (back, front) => (String.ofList front.reverse, String.ofList back.reverse))

theorem rsplitOnce_append (front : String) {back : String} (h : c ∉ back.toList) :
    rsplitOnce c (front ++ String.singleton c ++ back) = some (front, back) := by
  have hrev : (front ++ singleton c ++ back).toList.reverse =
      back.toList.reverse ++ c :: front.toList.reverse := by simp
  rw [rsplitOnce, hrev, splitOnceList_append (by simpa using h)]
  simp

/-! ## Numbers -/

/-- `parse` of an unsigned integer below `bound`: one plus sign may precede the digits. -/
def parseUnsigned (bound : ℕ) (s : String) : Option ℕ :=
  let digits := if s.toList.head? = some '+' then s.toList.tail else s.toList
  if digits.isEmpty || !digits.all Char.isDigit then none
  else (some (Nat.ofDigitChars 10 digits 0)).filter (· < bound)

theorem isDigit_of_mem_toString (h : c ∈ (toString n).toList) : c.isDigit = true := by
  rw [Nat.toString_eq_ofList_toDigits, toList_ofList] at h
  exact Nat.isDigit_of_mem_toDigits (by decide) (by decide) h

theorem parseUnsigned_toString {bound : ℕ} (h : n < bound) : parseUnsigned bound (toString n) = some n := by
  have hdigits : (toString n).toList.all Char.isDigit = true := all_eq_true.mpr fun _ => isDigit_of_mem_toString
  have hplus : (toString n).toList.head? ≠ some '+' := fun hhead =>
    absurd (isDigit_of_mem_toString (mem_of_mem_head? hhead)) (by decide)
  have hempty : (toString n).toList.isEmpty = false := by
    simp [Nat.toDigits_ne_nil]
  have hread : Nat.ofDigitChars 10 (toString n).toList 0 = n := by
    rw [Nat.toString_eq_ofList_toDigits, toList_ofList, Nat.ofDigitChars_toDigits (by decide) (by decide)]
  simp only [parseUnsigned, if_neg hplus, hdigits, hempty, hread]
  simp [h]

/-! ## Big-endian words -/

def beEncode64 (word : UInt64) : Bytes := (leEncode 8 word.toNat).reverse

@[simp] theorem beEncode64_length (word : UInt64) : (beEncode64 word).length = 8 := by
  simp [beEncode64]

theorem beEncode64_injective {a b : UInt64} (h : beEncode64 a = beEncode64 b) : a = b := by
  have hbytes : leEncode 8 a.toNat = leEncode 8 b.toNat := reverse_injective h
  have hnat := congrArg leDecode hbytes
  rw [leDecode_leEncode 8 _ (by have := a.toNat_lt; omega), leDecode_leEncode 8 _ (by have := b.toNat_lt; omega)] at hnat
  exact UInt64.toNat_inj.mp hnat

/-! ## Hexadecimal text -/

def hexDigit (n : ℕ) : Char := "0123456789abcdef".toList.getD n '0'

theorem hexDigit_injective : ∀ m < 16, ∀ n < 16, hexDigit m = hexDigit n → m = n := by
  decide

/-- Two digits a byte, the high one first. -/
def hexDigits (byte : UInt8) : List Char := [hexDigit (byte.toNat / 16), hexDigit (byte.toNat % 16)]

def hex (bytes : Bytes) : String := String.ofList (bytes.flatMap hexDigits)

theorem hexDigits_injective {a b : UInt8} (h : hexDigits a = hexDigits b) : a = b := by
  obtain ⟨hhigh, hlow⟩ := cons_eq_cons.mp h
  have ha := a.toNat_lt
  have hb := b.toNat_lt
  have hdiv := hexDigit_injective _ (by omega) _ (by omega) hhigh
  have hmod := hexDigit_injective _ (by omega) _ (by omega) (cons_eq_cons.mp hlow).1
  exact UInt8.toNat_inj.mp (by omega)

theorem hex_injective : Function.Injective hex := by
  intro a b h
  have hchars : a.flatMap hexDigits = b.flatMap hexDigits := ofList_injective h
  induction a generalizing b with
  | nil =>
    cases b with
    | nil => rfl
    | cons y b => simp [hexDigits] at hchars
  | cons x a ih =>
    cases b with
    | nil => simp [hexDigits] at hchars
    | cons y b =>
      obtain ⟨hhead, htail⟩ := append_inj hchars rfl
      rw [hexDigits_injective hhead, ih (congrArg ofList htail) htail]

/-! ## JSON strings -/

def isEscaped (c : Char) : Bool := c == '"' || c == '\\'

/-- The bytes a text without control characters takes inside a JSON string. -/
def escapedSize (s : String) : ℕ := s.utf8ByteSize + s.toList.countP isEscaped

/-- A writer of JSON strings: a text without control characters stands between quotation marks, with a
backslash before each quotation mark and each backslash of its own. -/
structure JsonWriter where
  write : String → String
  size : ∀ s, (∀ c ∈ s.toList, 0x20 ≤ c.toNat) → (write s).utf8ByteSize = escapedSize s + 2

def escaped (c : Char) : String := if isEscaped c then "\\" ++ singleton c else singleton c

theorem join_escaped_size (l : List Char) :
    (join (l.map escaped)).utf8ByteSize = (ofList l).utf8ByteSize + l.countP isEscaped := by
  induction l with
  | nil => rfl
  | cons c l ih =>
    have hone : (escaped c).utf8ByteSize = (singleton c).utf8ByteSize + if isEscaped c then 1 else 0 := by
      unfold escaped
      split_ifs
      · rw [utf8ByteSize_append, Nat.add_comm]
        rfl
      · rfl
    have hcons : ofList (c :: l) = singleton c ++ ofList l := by simp
    rw [map_cons, join_cons, utf8ByteSize_append, ih, hone, hcons, utf8ByteSize_append, countP_cons]
    omega

def JsonWriter.minimal : JsonWriter where
  write s := "\"" ++ join (s.toList.map escaped) ++ "\""
  size s _ := by
    rw [utf8ByteSize_append, utf8ByteSize_append, join_escaped_size, ofList_toList, escapedSize]
    change 1 + _ + 1 = _
    omega
end Mappf
