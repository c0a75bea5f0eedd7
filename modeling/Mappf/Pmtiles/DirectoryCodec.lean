import Mappf.Lib.Bytes
import Mappf.Pmtiles.Format

/-! # The directory codec

The PMTiles v3 column encoder, and what `parse_with_limit` does with its output and with any other
block it accepts. A block is a count and four columns of varints; each column is one instance of
`Column`, and the round trip is proved once for all of them. -/
namespace Mappf.Pmtiles
open List Nat

/-! ## Varints -/

/-- Minimal LEB128; ten bytes hold every `u64`. -/
def encodeVarint (v : ℕ) : Bytes := leb128 9 v

theorem payload_shiftLeft {payload value shift : ℕ} (hvalue : value < 2 ^ shift)
    (hfit : payload * 2 ^ shift < 2 ^ 64) : value ||| (payload <<< shift) % 2 ^ 64 = value + payload * 2 ^ shift := by
  rw [mod_eq_of_lt (by rw [shiftLeft_eq]; exact hfit), or_shiftLeft_eq_add payload hvalue]

theorem pow_shift_add_seven (shift : ℕ) : 2 ^ (shift + 7) = 128 * 2 ^ shift := by
  rw [pow_add]
  omega

theorem readVarintLoop_last {shift value v : ℕ} (rest : Bytes) (hshift : shift ≤ 63) (hvalue : value < 2 ^ shift)
    (hsmall : v < 128) (hv : value + v * 2 ^ shift < 2 ^ 64) :
    readVarintLoop shift value (UInt8.ofNat v :: rest) = .ok (value + v * 2 ^ shift, rest) := by
  have hbyte : (UInt8.ofNat v).toNat = v := UInt8.toNat_ofNat_of_lt (show v < 256 by omega)
  have hpayload : (UInt8.ofNat v &&& 0x7f).toNat = v := by rw [payload_toNat, hbyte]; omega
  have hlast : UInt8.ofNat v &&& 0x80 = 0 := (continuation_eq_zero_iff _).mpr (by omega)
  rw [readVarintLoop]
  simp only [hpayload]
  rw [if_neg (by rintro ⟨rfl, hlarge⟩; omega), if_pos hlast, payload_shiftLeft hvalue (by omega)]

theorem readVarintLoop_encode (k : ℕ) : ∀ (shift value v : ℕ) (rest : Bytes), shift + 7 * k = 63 → value < 2 ^ shift →
      value + v * 2 ^ shift < 2 ^ 64 →
      readVarintLoop shift value (leb128 k v ++ rest) = .ok (value + v * 2 ^ shift, rest) := by
  induction k with
  | zero =>
    intro shift value v rest hshift hvalue hv
    obtain rfl : shift = 63 := by omega
    exact readVarintLoop_last rest le_rfl hvalue (by omega) hv
  | succ k ih =>
    intro shift value v rest hshift hvalue hv
    rw [leb128]
    split_ifs with hsmall
    · exact readVarintLoop_last rest (by omega) hvalue hsmall hv
    · have hbyte : (UInt8.ofNat (v % 128 + 128)).toNat = v % 128 + 128 :=
        UInt8.toNat_ofNat_of_lt (show v % 128 + 128 < 256 by omega)
      have hpayload : (UInt8.ofNat (v % 128 + 128) &&& 0x7f).toNat = v % 128 := by
        rw [payload_toNat, hbyte]; omega
      have hmore : ¬ (UInt8.ofNat (v % 128 + 128) &&& 0x80 = 0) := by
        rw [continuation_eq_zero_iff]; omega
      -- `v` splits into its low seven bits, read here, and the rest, read by the recursion.
      have hsplit : v * 2 ^ shift = v % 128 * 2 ^ shift + v / 128 * (128 * 2 ^ shift) := by
        have hdm : v = v % 128 + 128 * (v / 128) := (mod_add_div v 128).symm
        calc v * 2 ^ shift = (v % 128 + 128 * (v / 128)) * 2 ^ shift := by rw [← hdm]
          _ = v % 128 * 2 ^ shift + v / 128 * (128 * 2 ^ shift) := by ring
      have hlow : v % 128 * 2 ^ shift ≤ 127 * 2 ^ shift := mul_le_mul_right _ (by omega)
      rw [cons_append, readVarintLoop]
      simp only [hpayload]
      rw [if_neg (by omega), if_neg hmore, if_neg (by omega), payload_shiftLeft hvalue (by omega)]
      have hrec := ih (shift + 7) (value + v % 128 * 2 ^ shift) (v / 128) rest (by omega)
        (by rw [pow_shift_add_seven]; omega) (by rw [pow_shift_add_seven]; omega)
      rw [hrec, pow_shift_add_seven, hsplit, add_assoc]

/-- Whatever bytes the reader accepts, they are at least as many as the minimal encoding has. -/
theorem readVarintLoop_ok (buf : Bytes) :
    ∀ (k shift value v : ℕ) (rest : Bytes), shift + 7 * k = 63 → value < 2 ^ shift →
      readVarintLoop shift value buf = .ok (v, rest) →
      ∃ w, v = value + w * 2 ^ shift ∧ v < 2 ^ 64 ∧ (leb128 k w).length + rest.length ≤ buf.length := by
  induction buf with
  | nil =>
    intro k shift value v rest _ _ h
    cases h
  | cons byte buf ih =>
    intro k shift value v rest hshift hvalue h
    rw [readVarintLoop] at h
    simp only [payload_toNat] at h
    have hpay : byte.toNat % 128 < 128 := mod_lt _ (by decide)
    set payload := byte.toNat % 128
    split_ifs at h with hbig hlast hend
    · cases h
    · -- The last byte: the value is complete.
      have hfit : (payload + 1) * 2 ^ shift ≤ 2 ^ 64 := by
        by_cases hs : shift = 63
        · subst hs; omega
        · have hpow : 2 ^ shift ≤ 2 ^ 56 := Nat.pow_le_pow_right (by decide) (by omega)
          calc (payload + 1) * 2 ^ shift ≤ 128 * 2 ^ 56 := Nat.mul_le_mul (by omega) hpow
            _ ≤ 2 ^ 64 := by decide
      rw [succ_mul] at hfit
      rw [payload_shiftLeft hvalue (by omega)] at h
      obtain ⟨rfl, rfl⟩ := h
      refine ⟨payload, rfl, by omega, ?_⟩
      rw [leb128_small k hpay, length_singleton, length_cons]
      omega
    · cases h
    · obtain ⟨k, rfl⟩ : ∃ k', k = k' + 1 := ⟨k - 1, by omega⟩
      have hpow : 2 ^ shift ≤ 2 ^ 56 := Nat.pow_le_pow_right (by decide) (by omega)
      have hlow : payload * 2 ^ shift ≤ 127 * 2 ^ shift := mul_le_mul_right _ (by omega)
      rw [payload_shiftLeft hvalue (by omega)] at h
      obtain ⟨w, hv, hlt, hlen⟩ := ih k (shift + 7) (value + payload * 2 ^ shift) v rest (by omega)
        (by rw [pow_shift_add_seven]; omega) h
      refine ⟨payload + 128 * w, ?_, hlt, ?_⟩
      · rw [hv, pow_shift_add_seven]
        ring
      · rw [length_cons]
        cases Nat.eq_zero_or_pos w with
        | inl h0 =>
          have hw : payload + 128 * w = payload := by omega
          rw [hw, leb128_small _ hpay, length_singleton]
          omega
        | inr hpos =>
          rw [leb128_length_mul k w payload hpay hpos]
          omega

variable {v : ℕ} {d : Directory} {prev : Option DirectoryEntry} {e : DirectoryEntry} {bytes : Bytes}

theorem readU64Varint_encode (h : v < 2 ^ 64) (rest : Bytes) :
    readU64Varint (encodeVarint v ++ rest) = .ok (v, rest) := by
  have hread := readVarintLoop_encode 9 0 0 v rest (by omega) (by decide) (by omega)
  rw [pow_zero, mul_one, zero_add] at hread
  exact hread

theorem readU64Varint_ok {buf rest : Bytes} (h : readU64Varint buf = .ok (v, rest)) :
    v < 2 ^ 64 ∧ (encodeVarint v).length + rest.length ≤ buf.length := by
  obtain ⟨w, hv, hlt, hlen⟩ := readVarintLoop_ok buf 9 0 0 v rest (by omega) (by decide) h
  have hw : v = w := by omega
  rw [hw] at hlt ⊢
  exact ⟨hlt, hlen⟩

/-! ## The encoder -/

def encodeColumn {σ : Type} (code : σ → DirectoryEntry → ℕ) (next : σ → DirectoryEntry → σ) :
    σ → List DirectoryEntry → Bytes
  | _, [] => []
  | s, e :: es => encodeVarint (code s e) ++ encodeColumn code next (next s e) es

def codeTileId (previous : ℕ) (e : DirectoryEntry) : ℕ := e.tileId.toNat - previous

/-- Zero for an entry that starts where the previous one ends, otherwise the offset plus one. -/
def codeOffset (previous : Option DirectoryEntry) (e : DirectoryEntry) : ℕ :=
  match previous with
  | some p => if p.offset.toNat + p.length.toNat = e.offset.toNat then 0 else e.offset.toNat + 1
  | none => e.offset.toNat + 1

def encodeColumns (entries : List DirectoryEntry) : Bytes :=
  encodeColumn codeTileId (fun _ e => e.tileId.toNat) 0 entries ++
    encodeColumn (fun _ e => e.runLength.toNat) (fun _ _ => ()) () entries ++
    encodeColumn (fun _ e => e.length.toNat) (fun _ _ => ()) () entries ++
    encodeColumn codeOffset (fun _ e => some e) none entries

def encodeDirectory (entries : List DirectoryEntry) : Bytes :=
  encodeVarint entries.length ++ encodeColumns entries

theorem length_le_encodeColumn {σ : Type} (code : σ → DirectoryEntry → ℕ) (next : σ → DirectoryEntry → σ)
    (s : σ) (entries : List DirectoryEntry) : entries.length ≤ (encodeColumn code next s entries).length := by
  induction entries generalizing s with
  | nil => exact zero_le _
  | cons e es ih =>
    have hone : 1 ≤ (encodeVarint (code s e)).length := leb128_length_pos 9 _
    have hrest := ih (next s e)
    rw [encodeColumn, length_append, length_cons]
    omega

variable (entries : List DirectoryEntry)

theorem four_mul_length_le : 4 * entries.length ≤ (encodeColumns entries).length := by
  have h1 := length_le_encodeColumn codeTileId (fun _ e => e.tileId.toNat) 0 entries
  have h2 := length_le_encodeColumn (fun _ e => e.runLength.toNat) (fun _ _ => ()) () entries
  have h3 := length_le_encodeColumn (fun _ e => e.length.toNat) (fun _ _ => ()) () entries
  have h4 := length_le_encodeColumn codeOffset (fun _ e => some e) none entries
  simp only [encodeColumns, length_append]
  omega

/-! ## One column -/

/-- A column: how it is read, how it is written, and which entries it can carry. `before` and `after`
forget the fields that are still unread before and after the column. -/
structure Column (σ : Type) where
  fill : σ → DirectoryEntry → ℕ → Fallible (DirectoryEntry × σ)
  code : σ → DirectoryEntry → ℕ
  next : σ → DirectoryEntry → σ
  good : σ → DirectoryEntry → Prop
  before : DirectoryEntry → DirectoryEntry
  after : DirectoryEntry → DirectoryEntry
  encodes : ∀ s e, good s e → code s e < 2 ^ 64 ∧ fill s (before e) (code s e) = .ok (after e, next s e)
  decodes : ∀ s e v e' s', v < 2 ^ 64 → before e = e → fill s e v = .ok (e', s') →
    before e' = e ∧ after e' = e' ∧ s' = next s e' ∧ good s e' ∧
      (encodeVarint (code s e')).length ≤ (encodeVarint v).length
  code_after : ∀ s e, code s (after e) = code s e := by intros; rfl
  next_after : ∀ s e, next s (after e) = next s e := by intros; rfl
  good_after : ∀ s e, good s (after e) ↔ good s e := by intros; rfl

namespace Column

variable {σ : Type} (c : Column σ)

def encode (s : σ) (entries : List DirectoryEntry) : Bytes := encodeColumn c.code c.next s entries

def Good : σ → List DirectoryEntry → Prop
  | _, [] => True
  | s, e :: es => c.good s e ∧ Good (c.next s e) es

theorem read_encode (s : σ) (entries : List DirectoryEntry) (rest : Bytes) (h : c.Good s entries) :
    readColumn c.fill s (entries.map c.before) (c.encode s entries ++ rest) = .ok (entries.map c.after, rest) := by
  induction entries generalizing s with
  | nil => rfl
  | cons e es ih =>
    obtain ⟨hgood, hrest⟩ := h
    obtain ⟨hcode, hfill⟩ := c.encodes s e hgood
    have htail := ih (c.next s e) hrest
    simp only [encode] at htail
    rw [map_cons, encode, encodeColumn, append_assoc, readColumn, readU64Varint_encode hcode]
    simp only [ok_bind, hfill, htail]
    rfl

theorem read_ok (s : σ) (entries entries' : List DirectoryEntry) (buf rest : Bytes)
    (hb : ∀ e ∈ entries, c.before e = e) (h : readColumn c.fill s entries buf = .ok (entries', rest)) :
    entries = entries'.map c.before ∧ (∀ e ∈ entries', c.after e = e) ∧ c.Good s entries' ∧
      (c.encode s entries').length + rest.length ≤ buf.length := by
  induction entries generalizing s buf entries' with
  | nil =>
    obtain ⟨rfl, rfl⟩ := h
    refine ⟨rfl, by simp, trivial, ?_⟩
    simp [encode, encodeColumn]
  | cons e es ih =>
    obtain ⟨⟨v, buf1⟩, hv, h⟩ := bind_eq_ok.mp h
    obtain ⟨⟨e', s'⟩, hfill, h⟩ := bind_eq_ok.mp h
    obtain ⟨⟨es', buf2⟩, hes, h⟩ := bind_eq_ok.mp h
    obtain ⟨rfl, rfl⟩ := h
    obtain ⟨hlt, hlen⟩ := readU64Varint_ok hv
    obtain ⟨hbef, hafter, hnext, hgood, hcode⟩ :=
      c.decodes s e v e' s' hlt (hb e (mem_cons_self ..)) hfill
    subst hnext
    obtain ⟨hmap, hafters, hgoods, hlens⟩ := ih (c.next s e') es' buf1 (fun x hx => hb x (mem_cons_of_mem _ hx)) hes
    refine ⟨by rw [map_cons, hbef, ← hmap], ?_, ⟨hgood, hgoods⟩, ?_⟩
    · intro x hx
      cases mem_cons.mp hx with
      | inl he => rw [he]; exact hafter
      | inr hmem => exact hafters x hmem
    · simp only [encode] at hlens ⊢
      rw [encodeColumn, length_append]
      omega

theorem encode_after (s : σ) (entries : List DirectoryEntry) :
    c.encode s (entries.map c.after) = c.encode s entries := by
  induction entries generalizing s with
  | nil => rfl
  | cons e es ih =>
    have htail := ih (c.next s e)
    simp only [encode] at htail
    rw [map_cons, encode, encode, encodeColumn, encodeColumn, c.code_after, c.next_after, htail]

theorem good_map_after (s : σ) (entries : List DirectoryEntry) : c.Good s (entries.map c.after) ↔ c.Good s entries := by
  induction entries generalizing s with
  | nil => exact Iff.rfl
  | cons e es ih => rw [map_cons, Good, Good, c.good_after, c.next_after, ih (c.next s e)]

end Column

/-! ## The four columns -/

theorem u32TryFrom_ok {n : UInt32} (h : u32TryFrom v = .ok n) : n.toNat = v := by
  unfold u32TryFrom at h
  split_ifs at h with hlt
  · cases h
    exact UInt32.toNat_ofNat_of_lt hlt
  · cases h

theorem u32TryFrom_toNat (n : UInt32) : u32TryFrom n.toNat = .ok n := by
  rw [u32TryFrom, if_pos n.toNat_lt, UInt32.ofNat_toNat]

def tileIdColumn : Column ℕ where
  fill := fillTileId
  code := codeTileId
  next := fun _ e => e.tileId.toNat
  good := fun previous e => previous ≤ e.tileId.toNat
  before := fun _ => {}
  after := fun e => { tileId := e.tileId }
  encodes := by
    intro previous e hle
    have hlt := e.tileId.toNat_lt
    have hsum : previous + (e.tileId.toNat - previous) = e.tileId.toNat := by omega
    refine ⟨by unfold codeTileId; omega, ?_⟩
    have hadd : checkedAdd previous (e.tileId.toNat - previous) = some e.tileId.toNat :=
      checkedAdd_eq_some.mpr ⟨by omega, hsum⟩
    simp [fillTileId, codeTileId, hadd]
  decodes := by
    intro previous e v e' s' _ hbefore h
    unfold fillTileId at h
    cases hadd : checkedAdd previous v with
    | none => simp [hadd, bail] at h
    | some tileId =>
      obtain ⟨hlt, rfl⟩ := checkedAdd_eq_some.mp hadd
      simp only [hadd, Except.ok.injEq, Prod.mk.injEq] at h
      obtain ⟨rfl, rfl⟩ := h
      have hid : (UInt64.ofNat (previous + v)).toNat = previous + v := UInt64.toNat_ofNat_of_lt hlt
      subst hbefore
      refine ⟨rfl, rfl, hid.symm, ?_, ?_⟩
      · rw [hid]
        exact Nat.le_add_right previous v
      · rw [codeTileId, hid, Nat.add_sub_cancel_left]

def runLengthColumn : Column Unit where
  fill := fillRunLength
  code := fun _ e => e.runLength.toNat
  next := fun _ _ => ()
  good := fun _ _ => True
  before := fun e => { tileId := e.tileId }
  after := fun e => { tileId := e.tileId, runLength := e.runLength }
  encodes := by
    intro s e _
    have hlt := e.runLength.toNat_lt
    refine ⟨by omega, ?_⟩
    rw [fillRunLength, u32TryFrom_toNat]
    rfl
  decodes := by
    intro s e v e' s' _ hbefore h
    obtain ⟨n, hn, h⟩ := bind_eq_ok.mp h
    cases h
    refine ⟨hbefore, ?_, rfl, trivial, by rw [u32TryFrom_ok hn]⟩
    rw [← hbefore]

def lengthColumn : Column Unit where
  fill := fillLength
  code := fun _ e => e.length.toNat
  next := fun _ _ => ()
  good := fun _ _ => True
  before := fun e => { tileId := e.tileId, runLength := e.runLength }
  after := fun e => { tileId := e.tileId, length := e.length, runLength := e.runLength }
  encodes := by
    intro s e _
    have hlt := e.length.toNat_lt
    refine ⟨by omega, ?_⟩
    rw [fillLength, u32TryFrom_toNat]
    rfl
  decodes := by
    intro s e v e' s' _ hbefore h
    obtain ⟨n, hn, h⟩ := bind_eq_ok.mp h
    cases h
    refine ⟨hbefore, ?_, rfl, trivial, by rw [u32TryFrom_ok hn]⟩
    rw [← hbefore]

def Continues (previous : Option DirectoryEntry) (e : DirectoryEntry) : Prop :=
  ∃ p, previous = some p ∧ p.offset.toNat + p.length.toNat = e.offset.toNat

theorem codeOffset_continues (h : Continues prev e) : codeOffset prev e = 0 := by
  obtain ⟨p, rfl, hp⟩ := h
  exact if_pos hp

theorem codeOffset_not_continues (h : ¬ Continues prev e) : codeOffset prev e = e.offset.toNat + 1 := by
  cases prev with
  | none => rfl
  | some p => exact if_neg (fun hp => h ⟨p, rfl, hp⟩)

def offsetColumn : Column (Option DirectoryEntry) where
  fill := fillOffset
  code := codeOffset
  next := fun _ e => some e
  good := fun previous e => Continues previous e ∨ e.offset.toNat + 1 < 2 ^ 64
  before := fun e => { e with offset := 0 }
  after := fun e => e
  encodes := by
    intro previous e hgood
    by_cases hcont : Continues previous e
    · rw [codeOffset_continues hcont]
      refine ⟨by decide, ?_⟩
      obtain ⟨p, rfl, hp⟩ := hcont
      have hlt := e.offset.toNat_lt
      have hadd : checkedAdd p.offset.toNat p.length.toNat = some e.offset.toNat :=
        checkedAdd_eq_some.mpr ⟨by omega, hp⟩
      simp [fillOffset, hadd]
    · rw [codeOffset_not_continues hcont]
      refine ⟨hgood.resolve_left hcont, ?_⟩
      simp [fillOffset]
  decodes := by
    intro previous e v e' s' hv hbefore h
    unfold fillOffset at h
    split_ifs at h with hzero
    · cases previous with
      | none => cases h
      | some p =>
        cases hadd : checkedAdd p.offset.toNat p.length.toNat with
        | none => simp [hadd, bail] at h
        | some offset =>
          obtain ⟨hlt, rfl⟩ := checkedAdd_eq_some.mp hadd
          simp only [hadd, Except.ok.injEq, Prod.mk.injEq] at h
          obtain ⟨rfl, rfl⟩ := h
          have hoff : (UInt64.ofNat (p.offset.toNat + p.length.toNat)).toNat =
              p.offset.toNat + p.length.toNat := UInt64.toNat_ofNat_of_lt hlt
          have hcont : Continues (some p)
              { e with offset := UInt64.ofNat (p.offset.toNat + p.length.toNat) } := ⟨p, rfl, hoff.symm⟩
          refine ⟨hbefore, rfl, rfl, .inl hcont, ?_⟩
          rw [codeOffset_continues hcont, hzero]
    · simp only [Except.ok.injEq, Prod.mk.injEq] at h
      obtain ⟨rfl, rfl⟩ := h
      have hoff : (UInt64.ofNat (v - 1)).toNat = v - 1 := UInt64.toNat_ofNat_of_lt (show v - 1 < 2 ^ 64 by omega)
      refine ⟨hbefore, rfl, rfl, .inr (by rw [hoff]; omega), ?_⟩
      -- A continuing entry may have been written out in full; the encoder then spends one byte.
      by_cases hcont : Continues previous { e with offset := UInt64.ofNat (v - 1) }
      · rw [codeOffset_continues hcont]
        exact leb128_length_pos 9 v
      · rw [codeOffset_not_continues hcont, hoff, Nat.sub_add_cancel (by omega)]

theorem encodeColumns_eq :
    encodeColumns entries = tileIdColumn.encode 0 entries ++ (runLengthColumn.encode () entries ++
      (lengthColumn.encode () entries ++ offsetColumn.encode none entries)) := by
  simp only [encodeColumns, append_assoc]
  rfl

theorem unitColumn_good (c : Column Unit) (h : ∀ s e, c.good s e) (entries : List DirectoryEntry) :
    c.Good () entries := by
  induction entries with
  | nil => exact trivial
  | cons e es ih => exact ⟨h () e, ih⟩

/-! ## The whole block -/

theorem readColumns_encode (hids : tileIdColumn.Good 0 entries) (hoffs : offsetColumn.Good none entries) :
    readColumns (List.replicate entries.length {}) (encodeColumns entries) = .ok ⟨entries⟩ := by
  have h1 := tileIdColumn.read_encode 0 entries (runLengthColumn.encode () entries ++
    (lengthColumn.encode () entries ++ offsetColumn.encode none entries)) hids
  have h2 := runLengthColumn.read_encode () entries (lengthColumn.encode () entries ++
    offsetColumn.encode none entries) (unitColumn_good _ (fun _ _ => trivial) entries)
  have h3 := lengthColumn.read_encode () entries (offsetColumn.encode none entries)
    (unitColumn_good _ (fun _ _ => trivial) entries)
  have h4 := offsetColumn.read_encode none entries [] hoffs
  have hdef : replicate entries.length ({} : DirectoryEntry) = entries.map tileIdColumn.before :=
    (map_const' ..).symm
  have hbefore3 : entries.map lengthColumn.after = entries.map offsetColumn.before := rfl
  have hafter4 : entries.map offsetColumn.after = entries := map_id entries
  rw [append_nil] at h4
  rw [readColumns, hdef, encodeColumns_eq]
  show (readColumn tileIdColumn.fill 0 _ _ >>= _) = _
  rw [h1, ok_bind]
  show (readColumn runLengthColumn.fill () _ _ >>= _) = _
  rw [show entries.map tileIdColumn.after = entries.map runLengthColumn.before from rfl, h2, ok_bind]
  show (readColumn lengthColumn.fill () _ _ >>= _) = _
  rw [show entries.map runLengthColumn.after = entries.map lengthColumn.before from rfl, h3, ok_bind]
  show (readColumn offsetColumn.fill none _ _ >>= _) = _
  rw [hbefore3, h4, ok_bind, hafter4]

theorem decode_encodeDirectory (hids : tileIdColumn.Good 0 entries)
    (hoffs : offsetColumn.Good none entries) (hlen : (encodeDirectory entries).length < 2 ^ 64) :
    Directory.decode (encodeDirectory entries) = .ok ⟨entries⟩ := by
  have hfour := four_mul_length_le entries
  rw [encodeDirectory, length_append] at hlen
  have hmul : checkedMul entries.length 4 = some (entries.length * 4) := checkedMul_eq_some.mpr ⟨by omega, rfl⟩
  rw [Directory.decode, encodeDirectory, readU64Varint_encode (by omega), ok_bind]
  simp only [hmul]
  rw [if_neg (by omega)]
  exact readColumns_encode entries hids hoffs

/-- Each column's reader leaves the entries its writer would have to write. -/
theorem readColumns_ok {n : ℕ} {buffer : Bytes} (h : readColumns (List.replicate n {}) buffer = .ok d) :
    d.entries.length = n ∧ tileIdColumn.Good 0 d.entries ∧ offsetColumn.Good none d.entries ∧
      (encodeColumns d.entries).length ≤ buffer.length := by
  obtain ⟨⟨es1, b1⟩, h1, h⟩ := bind_eq_ok.mp h
  obtain ⟨⟨es2, b2⟩, h2, h⟩ := bind_eq_ok.mp h
  obtain ⟨⟨es3, b3⟩, h3, h⟩ := bind_eq_ok.mp h
  obtain ⟨⟨entries, b4⟩, h4, h⟩ := bind_eq_ok.mp h
  cases h
  obtain ⟨hm1, ha1, hg1, hl1⟩ := tileIdColumn.read_ok 0 _ es1 buffer b1 (fun e he => (eq_of_mem_replicate he).symm) h1
  obtain ⟨hm2, ha2, _, hl2⟩ := runLengthColumn.read_ok () es1 es2 b1 b2 ha1 h2
  obtain ⟨hm3, ha3, _, hl3⟩ := lengthColumn.read_ok () es2 es3 b2 b3 ha2 h3
  obtain ⟨hm4, _, hg4, hl4⟩ := offsetColumn.read_ok none es3 entries b3 b4 ha3 h4
  -- The entries after each column are the final ones with the later columns forgotten.
  have e3 : es3 = entries.map lengthColumn.after := hm4
  have e2 : es2 = entries.map runLengthColumn.after := by rw [hm3, e3, map_map]; rfl
  have e1 : es1 = entries.map tileIdColumn.after := by rw [hm2, e2, map_map]; rfl
  rw [e1, tileIdColumn.encode_after] at hl1
  rw [e2, runLengthColumn.encode_after] at hl2
  rw [e3, lengthColumn.encode_after] at hl3
  have hlen := congrArg length hm1
  rw [length_replicate, length_map, e1, length_map] at hlen
  refine ⟨hlen.symm, (tileIdColumn.good_map_after 0 entries).mp (e1 ▸ hg1), hg4, ?_⟩
  simp only [encodeColumns_eq, length_append]
  omega

theorem decode_ok (h : Directory.decode bytes = .ok d) :
    tileIdColumn.Good 0 d.entries ∧ offsetColumn.Good none d.entries ∧
      (encodeDirectory d.entries).length ≤ bytes.length := by
  obtain ⟨⟨n, buffer⟩, hn, h⟩ := bind_eq_ok.mp h
  obtain ⟨_, hcount⟩ := readU64Varint_ok hn
  cases hmul : checkedMul n 4 with
  | none => simp [hmul, bail] at h
  | some minimum =>
    simp only [hmul] at h
    split_ifs at h with hshort
    · cases h
    · obtain ⟨hlen, hids, hoffs, hbytes⟩ := readColumns_ok h
      refine ⟨hids, hoffs, ?_⟩
      rw [encodeDirectory, length_append, hlen]
      omega

/-! ## The codec -/

theorem tileIdColumn_good_iff (prev : ℕ) (entries : List DirectoryEntry) :
    tileIdColumn.Good prev entries ↔ (∀ e ∈ entries, prev ≤ e.tileId.toNat) ∧ NonDecreasing entries := by
  induction entries generalizing prev with
  | nil => simp [Column.Good, NonDecreasing]
  | cons e es ih =>
    rw [Column.Good, ih]
    simp only [NonDecreasing, pairwise_cons]
    constructor
    · intro ⟨hle, hall, hpair⟩
      refine ⟨?_, hall, hpair⟩
      intro x hx
      cases mem_cons.mp hx with
      | inl he => rw [he]; exact hle
      | inr hmem => exact hle.trans (hall x hmem)
    · intro ⟨hall, hhead, hpair⟩
      exact ⟨hall e (mem_cons_self ..), hhead, hpair⟩

theorem offsetColumn_good {entries : List DirectoryEntry} (h : ∀ e ∈ entries, e.offset.toNat + 1 < 2 ^ 64)
    (prev : Option DirectoryEntry) : offsetColumn.Good prev entries := by
  induction entries generalizing prev with
  | nil => exact trivial
  | cons e es ih =>
    exact ⟨.inr (h e (mem_cons_self ..)), ih (fun x hx => h x (mem_cons_of_mem _ hx)) (some e)⟩

theorem parseWithLimit_none (decoder : StreamDecoder) (bytes : Bytes) (limit : UInt64) :
    Directory.parseWithLimit decoder .none bytes limit =
      if limit.toNat < bytes.length then bail s!"PMTiles payload exceeds {limit} decompressed bytes"
      else Directory.decode bytes := by
  unfold Directory.parseWithLimit decompressBytesWithLimit
  split_ifs <;> rfl

theorem parseWithLimit_ok {decoder : StreamDecoder} {compression : Compression} {limit : UInt64}
    (h : Directory.parseWithLimit decoder compression bytes limit = .ok d) : NonDecreasing d.entries := by
  obtain ⟨decompressed, _, hdec⟩ := bind_eq_ok.mp h
  exact ((tileIdColumn_good_iff 0 d.entries).mp (decode_ok hdec).1).2

/-- Parsing inverts the encoder on every block the limit admits; every accepted uncompressed block
has non-decreasing tile ids and re-encodes to a block that parses to the same entries; and after the
count of an encoded block at least four bytes per entry remain. -/
theorem directory_codec_roundtrip (decoder : StreamDecoder) (limit : UInt64) :
    (∀ entries : List DirectoryEntry, NonDecreasing entries →
        (∀ e ∈ entries, e.offset.toNat + 1 < 2 ^ 64 ∧ e.offset.toNat + e.length.toNat < 2 ^ 64) →
        (encodeDirectory entries).length ≤ limit.toNat →
        Directory.parseWithLimit decoder .none (encodeDirectory entries) limit = .ok ⟨entries⟩) ∧
      (∀ bytes d, Directory.parseWithLimit decoder .none bytes limit = .ok d →
        NonDecreasing d.entries ∧
          Directory.parseWithLimit decoder .none (encodeDirectory d.entries) limit = .ok d) ∧
      ∀ entries : List DirectoryEntry, entries.length < 2 ^ 64 →
        ∃ rest, readU64Varint (encodeDirectory entries) = .ok (entries.length, rest) ∧
          4 * entries.length ≤ rest.length := by
  have hlimit := limit.toNat_lt
  refine ⟨?_, ?_, ?_⟩
  · intro entries hids hoffsets hfits
    rw [parseWithLimit_none, if_neg (by omega)]
    apply decode_encodeDirectory entries
    · exact (tileIdColumn_good_iff 0 entries).mpr ⟨fun e _ => zero_le _, hids⟩
    · exact offsetColumn_good (fun e he => (hoffsets e he).1) none
    · omega
  · intro bytes d h
    rw [parseWithLimit_none] at h
    split_ifs at h with hbig
    · cases h
    · obtain ⟨hids, hoffsets, hlen⟩ := decode_ok h
      refine ⟨((tileIdColumn_good_iff 0 d.entries).mp hids).2, ?_⟩
      rw [parseWithLimit_none, if_neg (by omega)]
      exact decode_encodeDirectory d.entries hids hoffsets (by omega)
  · intro entries hcount
    exact ⟨encodeColumns entries, readU64Varint_encode hcount _, four_mul_length_le entries⟩

theorem directory_codec_roundtrip_two_entries :
    Directory.parseWithLimit (fun _ _ _ => .ok []) .none (encodeDirectory [⟨5, 0, 200, 1⟩, ⟨9, 200, 40, 2⟩]) 1024 =
      .ok ⟨[⟨5, 0, 200, 1⟩, ⟨9, 200, 40, 2⟩]⟩ :=
  (directory_codec_roundtrip (fun _ _ _ => .ok []) 1024).1 _ (by decide) (by decide) (by decide)

end Mappf.Pmtiles
