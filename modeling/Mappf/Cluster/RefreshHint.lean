import Mappf.Abashiri.Style
import Mappf.Lib.HashMap

/-! # Refresh hints

`refresh_hint.rs`: the envelope of an advisory refresh hint, the slot of the membership ring it is published in, and
the filter that recognises a repeated hint for a while. Instants are nanoseconds. -/
namespace Mappf.Cluster
open List String

def keyFront : String := "refresh-style-v1-"
def styleRefreshHintSlots : ℕ := 16
def maxStyleRefreshHintBytes : ℕ := 1024
def maxHintIdBytes : ℕ := 128
def hintDedupWindow : ℕ := 300 * 10 ^ 9
def hintDedupCapacity : ℕ := 1024

structure StyleRefreshHint where
  schemaVersion : ℕ
  hintId : String
  styleId : String
  deriving DecidableEq

inductive RefreshHintError
  | unsupportedVersion
  | invalidHintId
  | invalidStyleId
  | tooLarge

def isHintIdByte (byte : UInt8) : Bool :=
  isAsciiAlphanumeric byte || byte == 0x2e || byte == 0x5f || byte == 0x2d

abbrev DedupKey := String × String

namespace StyleRefreshHint

variable (hint : StyleRefreshHint)

def validate : Except RefreshHintError Unit :=
  if hint.schemaVersion ≠ 1 then .error .unsupportedVersion
  else if hint.hintId.isEmpty || maxHintIdBytes < hint.hintId.utf8ByteSize ||
      !(utf8 hint.hintId).all isHintIdByte then .error .invalidHintId
  else
    match Abashiri.parseStyleKey hint.styleId with
    | .ok _ => .ok ()
    | .error _ => .error .invalidStyleId

/-- `serde_json::to_string`: the fields in declaration order, without blanks. -/
def toJson (json : JsonWriter) : String :=
  "\x7b\"schema_version\":" ++ toString hint.schemaVersion ++ ",\"hint_id\":" ++ json.write hint.hintId ++
    ",\"style_id\":" ++ json.write hint.styleId ++ "\x7d"

def encode (json : JsonWriter) : Except RefreshHintError String :=
  match hint.validate with
  | .error err => .error err
  | .ok _ =>
    if maxStyleRefreshHintBytes < (hint.toJson json).utf8ByteSize then .error .tooLarge else .ok (hint.toJson json)

/-- FNV-1a. -/
def stableSlot (value : String) : ℕ :=
  ((utf8 value).foldl (fun (hash : UInt64) (byte : UInt8) => (hash ^^^ byte.toUInt64) * 0x100000001b3) 0xcbf29ce484222325).toNat %
    styleRefreshHintSlots

def gossipKey : String :=
  let slot := stableSlot hint.hintId
  keyFront ++ (if slot < 10 then "0" else "") ++ toString slot

def key : DedupKey := (hint.hintId, hint.styleId)

end StyleRefreshHint

/-! ## A valid hint fits the envelope -/

def isPlainByte (byte : UInt8) : Bool := 0x20 ≤ byte && byte != 0x22 && byte != 0x5c

theorem write_size (json : JsonWriter) {s : String} (h : ∀ byte ∈ utf8 s, isPlainByte byte = true) :
    (json.write s).utf8ByteSize = s.utf8ByteSize + 2 := by
  have hbyte : ∀ c ∈ s.toList, c.toNat ≤ 0x7f → isPlainByte (UInt8.ofNat c.toNat) = true := by
    intro c hc hascii
    apply h
    rw [← ofList_toList (s := s), utf8_ofList, mem_flatMap]
    refine ⟨c, hc, ?_⟩
    unfold utf8EncodeChar
    rw [if_pos (show c.val.toNat ≤ 0x7f from hascii)]
    exact mem_singleton.mpr rfl
  have hcontrol : ∀ c ∈ s.toList, 0x20 ≤ c.toNat := by
    intro c hc
    by_contra hlow
    have hall : ∀ n < 0x20, isPlainByte (UInt8.ofNat n) = false := by decide
    exact absurd (hbyte c hc (by omega)) (by rw [hall _ (by omega)]; decide)
  have hescaped : s.toList.countP isEscaped = 0 := by
    rw [countP_eq_zero]
    intro c hc hesc
    rw [isEscaped, Bool.or_eq_true, beq_iff_eq, beq_iff_eq] at hesc
    rcases hesc with rfl | rfl <;> exact absurd (hbyte _ hc (by decide)) (by decide)
  rw [json.size s hcontrol, escapedSize, hescaped, Nat.add_zero]

theorem isPlainByte_of_hintId {byte : UInt8} (h : isHintIdByte byte = true) : isPlainByte byte = true := by
  have hall : ∀ n : Fin 256, isHintIdByte (UInt8.ofFin n) = true → isPlainByte (UInt8.ofFin n) = true := by
    decide +kernel
  exact hall byte.toFin h

theorem isHintIdByte_of_pathId {byte : UInt8} (h : Abashiri.isPathIdByte byte = true) : isHintIdByte byte = true := by
  unfold Abashiri.isPathIdByte at h
  unfold isHintIdByte
  rw [Bool.or_eq_true, Bool.or_eq_true] at h ⊢
  rw [Bool.or_eq_true]
  obtain (halnum | hdash) | hunder := h
  · exact .inl (.inl (.inl halnum))
  · exact .inr hdash
  · exact .inl (.inr hunder)

/-- The bytes and the length of a canonical style key. -/
theorem parseStyleKey_spec {value : String} (h : Abashiri.parseStyleKey value = .ok ()) :
    value.utf8ByteSize ≤ 193 ∧ ∀ byte ∈ utf8 value, isPlainByte byte = true := by
  unfold Abashiri.parseStyleKey at h
  split at h
  · rename_i ns sid hsplit
    split_ifs at h with hslash hkey
    · cases h
    · unfold Abashiri.isStyleKey Abashiri.validateSegment at hkey
      simp only [Bool.and_eq_true, decide_eq_true_eq, all_eq_true] at hkey
      obtain ⟨⟨⟨-, hns⟩, hnsBytes⟩, ⟨-, hid⟩, hidBytes⟩ := hkey
      obtain ⟨rfl, -⟩ := splitOnce_eq_some hsplit
      constructor
      · rw [utf8ByteSize_append, utf8ByteSize_append]
        have hone : (singleton '/').utf8ByteSize = 1 := by decide
        unfold Abashiri.maxStyleNamespaceBytes at hns
        unfold Abashiri.maxLocalStyleIdBytes at hid
        omega
      · intro byte hbyte
        rw [utf8_append, utf8_append, mem_append, mem_append] at hbyte
        obtain (hbyte | hbyte) | hbyte := hbyte
        · exact isPlainByte_of_hintId (isHintIdByte_of_pathId (hnsBytes byte hbyte))
        · have hone : utf8 (singleton '/') = [0x2f] := by decide
          rw [hone, mem_singleton] at hbyte
          rw [hbyte]
          decide
        · exact isPlainByte_of_hintId (isHintIdByte_of_pathId (hidBytes byte hbyte))
    · cases h
  · cases h

/-- A valid hint is never too large to be published. -/
theorem StyleRefreshHint.encode_of_valid {hint : StyleRefreshHint} (json : JsonWriter) (h : hint.validate = .ok ()) :
    hint.encode json = .ok (hint.toJson json) := by
  have hvalid := h
  unfold StyleRefreshHint.validate at h
  split_ifs at h with hver hid
  simp only [Bool.or_eq_true, decide_eq_true_eq, Bool.not_eq_true', not_or, Bool.not_eq_false, Nat.not_lt,
    all_eq_true] at hid
  obtain ⟨⟨-, hidSize⟩, hidBytes⟩ := hid
  split at h
  · rename_i hkey
    obtain ⟨hkeySize, hkeyBytes⟩ := parseStyleKey_spec hkey
    have hver' : hint.schemaVersion = 1 := of_not_not hver
    have hsize : (hint.toJson json).utf8ByteSize ≤ maxStyleRefreshHintBytes := by
      unfold StyleRefreshHint.toJson
      rw [hver', utf8ByteSize_append, utf8ByteSize_append, utf8ByteSize_append,
        utf8ByteSize_append, utf8ByteSize_append, utf8ByteSize_append,
        write_size json (fun byte hbyte => isPlainByte_of_hintId (hidBytes byte hbyte)), write_size json hkeyBytes]
      unfold maxHintIdBytes at hidSize
      change 18 + 1 + 11 + (hint.hintId.utf8ByteSize + 2) + 12 + (hint.styleId.utf8ByteSize + 2) + 1 ≤ 1024
      omega
    unfold StyleRefreshHint.encode
    rw [hvalid]
    exact if_neg (Nat.not_lt.mpr hsize)
  · cases h

/-! ## The filter -/

inductive HintAdmission
  | accepted
  | duplicate
  deriving DecidableEq

structure DedupState where
  order : List (DedupKey × ℕ) := []
  present : HashMap DedupKey Unit := ∅

namespace DedupState

def popWhile (old : DedupKey × ℕ → List (DedupKey × ℕ) → Bool) :
    List (DedupKey × ℕ) → HashMap DedupKey Unit → DedupState
  | [], present => ⟨[], present⟩
  | front :: rest, present =>
    if old front rest then popWhile old rest (present.erase front.1) else ⟨front :: rest, present⟩

def expire (window now : ℕ) (state : DedupState) : DedupState :=
  popWhile (fun front _ => window ≤ now - front.2) state.order state.present

def evict (capacity : ℕ) (state : DedupState) : DedupState :=
  popWhile (fun _ rest => capacity < rest.length + 1) state.order state.present

def admitHint (window capacity now : ℕ) (key : DedupKey) (state : DedupState) : DedupState × HintAdmission :=
  let state := state.expire window now
  if state.present.contains key then (state, .duplicate)
  else
    (evict capacity { order := state.order ++ [(key, now)], present := state.present.insert key () }, .accepted)

variable {window cap now : ℕ} {key : DedupKey} {state : DedupState}

theorem popWhile_present (old : DedupKey × ℕ → List (DedupKey × ℕ) → Bool) (order : List (DedupKey × ℕ))
    (present : HashMap DedupKey Unit) (h : (popWhile old order present).present.contains key = true) :
    present.contains key = true := by
  induction order generalizing present with
  | nil => exact h
  | cons front rest ih =>
    unfold popWhile at h
    split_ifs at h
    · have hkept := ih (present.erase front.1) h
      unfold HashMap.contains at hkept ⊢
      rw [HashMap.lookup_erase_eq] at hkept
      split_ifs at hkept
      · cases hkept
      · exact hkept
    · exact h

/-- What the filter holds after an admission was there before, or is the hint that was accepted. -/
theorem admitHint_present {key' : DedupKey} (h : (state.admitHint window cap now key).1.present.contains key' = true) :
    state.present.contains key' = true ∨ ((state.admitHint window cap now key).2 = .accepted ∧ key' = key) := by
  unfold admitHint at h ⊢
  dsimp only at h ⊢
  split_ifs at h ⊢ with hcont
  · exact .inl (popWhile_present _ _ _ h)
  · have hins := popWhile_present _ _ _ h
    unfold HashMap.contains at hins
    rw [HashMap.lookup_insert_eq] at hins
    split_ifs at hins with hkey
    · exact .inr ⟨rfl, hkey⟩
    · exact .inl (popWhile_present _ _ _ hins)

theorem admitHint_duplicate (h : (state.admitHint window cap now key).2 = .duplicate) :
    state.present.contains key = true := by
  unfold admitHint at h
  dsimp only at h
  split_ifs at h with hcont
  exact popWhile_present _ _ _ hcont

end DedupState

end Mappf.Cluster
