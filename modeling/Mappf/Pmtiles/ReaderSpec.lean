import Mappf.Pmtiles.Reader

/-! # What the pieces of a lookup do

One specification per function of the lookup path: the sections of an accepted header, the offset
check, and the binary search in a directory with non-decreasing tile ids. -/
namespace Mappf.Pmtiles

/-! ## Sections -/

theorem sectionsEnd_ok {sections : List (String × UInt64 × UInt64)} {start stop : ℕ}
    (h : sectionsEnd sections start = .ok stop) : start ≤ stop ∧ (start < 2 ^ 64 → stop < 2 ^ 64) ∧
      ∀ x ∈ sections, x.2.1.toNat + x.2.2.toNat ≤ stop ∧ x.2.1.toNat + x.2.2.toNat < 2 ^ 64 := by
  induction sections generalizing start with
  | nil =>
    cases h
    exact ⟨le_rfl, id, by simp⟩
  | cons x rest ih =>
    obtain ⟨name, offset, length⟩ := x
    rw [sectionsEnd] at h
    cases hadd : checkedAdd offset.toNat length.toNat with
    | none => simp [hadd, bail] at h
    | some sectionEnd =>
      obtain ⟨hlt, rfl⟩ := checkedAdd_eq_some.mp hadd
      simp only [hadd] at h
      obtain ⟨hle, hbound, hrest⟩ := ih h
      refine ⟨by omega, fun hs => hbound (by omega), ?_⟩
      intro y hy
      cases List.mem_cons.mp hy with
      | inl he => rw [he]; dsimp only; exact ⟨by omega, hlt⟩
      | inr hmem => exact hrest y hmem

theorem sectionsEnd_safe (sections : List (String × UInt64 × UInt64)) (start : ℕ) :
    Safe (sectionsEnd sections start) := by
  induction sections generalizing start with
  | nil => exact safe_ok _
  | cons x rest ih =>
    obtain ⟨name, offset, length⟩ := x
    rw [sectionsEnd]
    cases checkedAdd offset.toNat length.toNat with
    | none => exact safe_bail _
    | some sectionEnd => exact ih _

theorem archiveLen_ok {header : Header} {len : ℕ} (h : archiveLen header = .ok len) :
    len < 2 ^ 64 ∧ header.leafOffset.toNat + header.leafLength.toNat ≤ len ∧
      header.dataOffset.toNat + header.dataLength.toNat ≤ len := by
  obtain ⟨_, hbound, hall⟩ := sectionsEnd_ok h
  refine ⟨hbound (by decide), ?_, ?_⟩
  · exact (hall ("leaf directory", header.leafOffset, header.leafLength) (by simp [Header.sections])).1
  · exact (hall ("tile data", header.dataOffset, header.dataLength) (by simp [Header.sections])).1

variable {relativeOffset sectionOffset sectionLength : UInt64} {length : UInt32}

theorem checkedSectionOffset_eq (name : String) (hin : relativeOffset.toNat + length.toNat ≤ sectionLength.toNat)
    (hsect : sectionOffset.toNat + sectionLength.toNat < 2 ^ 64) :
    checkedSectionOffset name sectionOffset sectionLength relativeOffset length =
      .ok (sectionOffset.toNat + relativeOffset.toNat) := by
  have hend : checkedAdd relativeOffset.toNat length.toNat = some (relativeOffset.toNat + length.toNat) :=
    checkedAdd_eq_some.mpr ⟨by omega, rfl⟩
  have hoff : checkedAdd sectionOffset.toNat relativeOffset.toNat =
      some (sectionOffset.toNat + relativeOffset.toNat) := checkedAdd_eq_some.mpr ⟨by omega, rfl⟩
  simp only [checkedSectionOffset, hend, hoff]
  rw [if_neg (by omega)]

theorem checkedSectionOffset_ok {name : String} {offset : ℕ}
    (h : checkedSectionOffset name sectionOffset sectionLength relativeOffset length = .ok offset) :
    sectionOffset.toNat ≤ offset ∧ offset + length.toNat ≤ sectionOffset.toNat + sectionLength.toNat := by
  unfold checkedSectionOffset at h
  cases hend : checkedAdd relativeOffset.toNat length.toNat with
  | none => simp [hend, bail] at h
  | some relativeEnd =>
    obtain ⟨_, rfl⟩ := checkedAdd_eq_some.mp hend
    simp only [hend] at h
    split_ifs at h with hbig
    · cases h
    · cases hoff : checkedAdd sectionOffset.toNat relativeOffset.toNat with
      | none => simp [hoff, bail] at h
      | some absolute =>
        obtain ⟨_, rfl⟩ := checkedAdd_eq_some.mp hoff
        simp only [hoff, Except.ok.injEq] at h
        omega

theorem checkedSectionOffset_safe (name : String) (sectionOffset sectionLength relativeOffset : UInt64)
    (length : UInt32) : Safe (checkedSectionOffset name sectionOffset sectionLength relativeOffset length) := by
  unfold checkedSectionOffset
  cases checkedAdd relativeOffset.toNat length.toNat with
  | none => exact safe_bail _
  | some relativeEnd =>
    dsimp only
    split_ifs
    · exact safe_bail _
    · cases checkedAdd sectionOffset.toNat relativeOffset.toNat with
      | none => exact safe_bail _
      | some absolute => exact safe_ok _

/-! ## Search in one directory -/

theorem orderedBy_tileId {entries : List DirectoryEntry} (h : NonDecreasing entries) (t : ℕ) :
    OrderedBy (fun entry : DirectoryEntry => compare entry.tileId.toNat t) entries := by
  apply h.imp
  intro a b hab
  simp only [Nat.compare_eq_gt, Nat.compare_eq_lt]
  omega

theorem containsTileId_of_le {e : DirectoryEntry} {t : TileId} (h : e.tileId.toNat ≤ t.value) :
    containsTileId e t = .ok (decide (e.isLeaf = true ∨ t.value < e.tileId.toNat + e.runLength.toNat)) := by
  unfold containsTileId
  cases hleaf : e.isLeaf with
  | true => simp
  | false =>
    rw [if_neg (by decide), if_neg (by omega)]
    congr 1
    simp only [Bool.false_eq_true, false_or, decide_eq_decide]
    omega

/-- On a directory with non-decreasing tile ids, the search finds an entry with the tile id, or
separates the smaller tile ids from the larger ones. -/
theorem findTileId_cases {d : Directory} (h : NonDecreasing d.entries) (t : TileId) :
    (∃ i e, d.entries[i]? = some e ∧ e.tileId.toNat = t.value ∧ d.findTileId t = .ok (some (i, e))) ∨
      ((∀ e ∈ d.entries, t.value < e.tileId.toNat) ∧ d.findTileId t = .ok none) ∨
      ∃ i e, d.entries[i]? = some e ∧ e.tileId.toNat < t.value ∧
        (∀ j x, i < j → d.entries[j]? = some x → t.value < x.tileId.toNat) ∧
        d.findTileId t = .ok (if e.isLeaf = true ∨ t.value < e.tileId.toNat + e.runLength.toNat
          then some (i, e) else none) := by
  unfold Directory.findTileId
  cases hb : binarySearchBy d.entries (fun entry => compare entry.tileId.toNat t.value) with
  | ok i =>
    left
    obtain ⟨e, he, heq⟩ := binarySearchBy_ok hb
    refine ⟨i, e, he, Nat.compare_eq_eq.mp heq, ?_⟩
    simp [he]
  | error next =>
    right
    have hsep := binarySearchBy_error (orderedBy_tileId h t.value) hb
    simp only [Nat.compare_eq_lt, Nat.compare_eq_gt] at hsep
    by_cases hpos : 0 < next
    · cases he : d.entries[next - 1]? with
      | none =>
        have hlen := List.getElem?_eq_none_iff.mp he
        have hle := binarySearchBy_error_le hb
        omega
      | some e =>
        right
        have hlt := (hsep (next - 1) e he).1 (by omega)
        refine ⟨next - 1, e, he, hlt, fun j x hj hx => (hsep j x hx).2 (by omega), ?_⟩
        simp only [if_pos hpos, he, containsTileId_of_le hlt.le, ok_bind, decide_eq_true_eq]
    · left
      refine ⟨?_, by simp only [if_neg hpos]⟩
      intro e hmem
      obtain ⟨j, hj⟩ := List.mem_iff_getElem?.mp hmem
      exact (hsep j e hj).2 (by omega)

end Mappf.Pmtiles
