import Mappf.Abashiri.Style

/-! # Where a style is kept

A place is written as a text and then read back by its endings. The reader takes a flat file named `style.json`
for the nested layout, so the flat place of a style named `style` is refused; every other place is read back as
it was asked for. -/
namespace Mappf.Abashiri
open List

/-! ## Endings -/

theorem stripFront_append (front value : String) : stripFront front (front ++ value) = some value := by
  simp [stripFront, isPrefixOf_iff_prefix]

theorem stripBack_append (value back : String) : stripBack back (value ++ back) = some value := by
  simp [stripBack, isSuffixOf_iff_suffix]

theorem stripBack_eq_none {back value : String} (h : ¬ back.toList <:+ value.toList) : stripBack back value = none := by
  simp [stripBack, isSuffixOf_iff_suffix, h]

/-! ## Segments -/

/-- A segment that neither separates nor is relative: what path ids are made of. -/
def PlainSegment (segment : List Char) : Prop :=
  segment ≠ [] ∧ ∀ c ∈ segment, 0x20 ≤ c.toNat ∧ c.toNat ≠ 0x7f ∧ c ≠ '.' ∧ c ≠ '/'

theorem pathIdByte_plain : ∀ n < 0x80, isPathIdByte (UInt8.ofNat n) = true →
    0x20 ≤ n ∧ n ≠ 0x7f ∧ n ≠ 0x2e ∧ n ≠ 0x2f := by
  decide

theorem validateSegment_plain {value : String} {maximum : ℕ} (h : validateSegment value maximum = true) :
    PlainSegment value.toList := by
  simp only [validateSegment, Bool.and_eq_true, Bool.not_eq_true', all_eq_true] at h
  obtain ⟨⟨hempty, -⟩, hbytes⟩ := h
  refine ⟨by simpa using hempty, ?_⟩
  intro c hc
  have hplain : 0x20 ≤ c.toNat ∧ c.toNat ≠ 0x7f ∧ c.toNat ≠ 0x2e ∧ c.toNat ≠ 0x2f := by
    by_cases hascii : c.toNat < 0x80
    · -- an ASCII character is its own single byte
      refine pathIdByte_plain _ hascii (hbytes _ ?_)
      rw [← String.ofList_toList (s := value), utf8_ofList, mem_flatMap]
      have henc : String.utf8EncodeChar c = [UInt8.ofNat c.toNat] := by
        simp only [String.utf8EncodeChar]
        rw [if_pos (by have : c.toNat = c.val.toNat := rfl; omega)]
        rfl
      exact ⟨c, hc, by simp [henc]⟩
    · omega
  refine ⟨hplain.1, hplain.2.1, ?_, ?_⟩ <;> rintro rfl <;> exact absurd hplain (by decide)

theorem slash_notMem {segment : List Char} (h : PlainSegment segment) : '/' ∉ segment :=
  fun hmem => (h.2 _ hmem).2.2.2 rfl

/-- What the object store's `Path::parse` takes as it stands: segments that are neither empty nor relative and
have no ASCII control character. -/
def ParsesClean (parsePath : String → Fallible String) : Prop :=
  ∀ segments ≠ [], (∀ segment ∈ segments, (segment ≠ [] ∧ segment ≠ ['.'] ∧ segment ≠ ['.', '.']) ∧
      ∀ c ∈ segment, (0x20 ≤ c.toNat ∧ c.toNat ≠ 0x7f) ∧ c ≠ '/') →
    parsePath (.ofList (['/'].intercalate segments)) = .ok (.ofList (['/'].intercalate segments))

/-- A plain segment is clean, also as the name of a file. -/
theorem plain_clean {segment : List Char} (h : PlainSegment segment) (file : List Char)
    (hfile : ∀ c ∈ file, (0x20 ≤ c.toNat ∧ c.toNat ≠ 0x7f) ∧ c ≠ '/') :
    (segment ++ file ≠ [] ∧ segment ++ file ≠ ['.'] ∧ segment ++ file ≠ ['.', '.']) ∧
      ∀ c ∈ segment ++ file, (0x20 ≤ c.toNat ∧ c.toNat ≠ 0x7f) ∧ c ≠ '/' := by
  obtain ⟨hne, hplain⟩ := h
  cases segment with
  | nil => exact absurd rfl hne
  | cons c rest =>
    have hdot := (hplain c mem_cons_self).2.2.1
    refine ⟨by simp [hdot], fun d hd => ?_⟩
    rcases mem_append.mp hd with hd | hd
    · exact ⟨⟨(hplain d hd).1, (hplain d hd).2.1⟩, (hplain d hd).2.2.2⟩
    · exact hfile d hd

section places

variable {acct : AccountId} {style : LocalResourceId}

def deliveryId (account : AccountId) (style : LocalResourceId) : String := account.value ++ "/" ++ style.value

def fileName : StyleObjectLayout → String
  | .nested => "/style.json"
  | .flat => ".json"

def placePath (account : AccountId) (style : LocalResourceId) (layout : StyleObjectLayout) : String :=
  "styles/" ++ (deliveryId account style ++ fileName layout)

theorem deliveryId_toList : (deliveryId acct style).toList = acct.value.toList ++ '/' :: style.value.toList := by
  simp [deliveryId]

variable (hkey : isStyleKey acct.value style.value = true)
include hkey

theorem isStyleKey_plain : PlainSegment acct.value.toList ∧ PlainSegment style.value.toList := by
  rw [isStyleKey, Bool.and_eq_true] at hkey
  exact ⟨validateSegment_plain hkey.1, validateSegment_plain hkey.2⟩

theorem parseStyleKey_deliveryId : parseStyleKey (deliveryId acct style) = .ok () := by
  obtain ⟨hacct, hstyle⟩ := isStyleKey_plain hkey
  have hsplit : splitOnce '/' (deliveryId acct style) = some (acct.value, style.value) :=
    splitOnce_append (slash_notMem hacct) _
  simp only [parseStyleKey, hsplit, if_neg (slash_notMem hstyle), if_pos hkey]

theorem parseStyleKey_account : parseStyleKey acct.value = bail invalidStyleKey := by
  have hnone : splitOnce '/' acct.value = none := by
    rw [Option.eq_none_iff_forall_ne_some]
    rintro ⟨front, back⟩ hsplit
    apply slash_notMem (isStyleKey_plain hkey).1
    rw [(splitOnce_eq_some hsplit).1]
    simp
  rw [parseStyleKey, hnone]

theorem parsePath_placePath {parsePath : String → Fallible String} (hparse : ParsesClean parsePath)
    (layout : StyleObjectLayout) : parsePath (placePath acct style layout) = .ok (placePath acct style layout) := by
  obtain ⟨hacct, hstyle⟩ := isStyleKey_plain hkey
  have hfolder := @plain_clean "styles".toList ⟨by decide, by simp⟩ [] (by simp)
  have hnamespace := plain_clean hacct [] (by simp)
  cases layout with
  | nested =>
    have hid := plain_clean hstyle [] (by simp)
    have hfile := @plain_clean "style".toList ⟨by decide, by simp⟩ ".json".toList (by simp)
    have hpath : placePath acct style .nested = .ofList (['/'].intercalate ["styles".toList ++ [],
        acct.value.toList ++ [], style.value.toList ++ [], "style".toList ++ ".json".toList]) :=
      String.toList_inj.mp (by simp [placePath, deliveryId, fileName, intercalate, intersperse])
    rw [hpath]
    exact hparse _ (cons_ne_nil _ _) (by simpa only [forall_mem_cons] using ⟨hfolder, hnamespace, hid, hfile, by simp⟩)
  | flat =>
    have hfile := plain_clean hstyle ".json".toList (by simp)
    have hpath : placePath acct style .flat = .ofList (['/'].intercalate ["styles".toList ++ [],
        acct.value.toList ++ [], style.value.toList ++ ".json".toList]) :=
      String.toList_inj.mp (by simp [placePath, deliveryId, fileName, intercalate, intersperse])
    rw [hpath]
    exact hparse _ (cons_ne_nil _ _) (by simpa only [forall_mem_cons] using ⟨hfolder, hnamespace, hfile, by simp⟩)

theorem stripBack_nested_flat (hstyle : style.value ≠ "style") :
    stripBack "/style.json" (deliveryId acct style ++ ".json") = none := by
  apply stripBack_eq_none
  rintro ⟨front, heq⟩
  have hcut : front ++ '/' :: "style".toList ++ ".json".toList =
      acct.value.toList ++ '/' :: style.value.toList ++ ".json".toList := by
    simpa [deliveryId_toList] using heq
  have hback := congrArg reverse (append_cancel_right hcut)
  simp only [reverse_append, reverse_cons, append_assoc, singleton_append] at hback
  have hfree : '/' ∉ style.value.toList.reverse := by
    simpa using slash_notMem (isStyleKey_plain hkey).2
  have hname := (append_cons_inj (by decide) hfree hback).1
  exact hstyle (String.toList_inj.mp (reverse_injective hname.symm))

theorem split_placePath (layout : StyleObjectLayout) : StyleObjectPath.split (placePath acct style layout) =
      if layout = .nested ∨ style.value ≠ "style" then .ok (deliveryId acct style, layout)
      else context "style object path must contain a canonical style key" (bail invalidStyleKey) := by
  rw [placePath, StyleObjectPath.split, stripFront_append]
  cases layout with
  | nested =>
    simp only [fileName, stripBack_append, pure_bind, parseStyleKey_deliveryId hkey]
    rfl
  | flat =>
    by_cases hstyle : style.value = "style"
    · have hnested : deliveryId acct style ++ fileName .flat = acct.value ++ "/style.json" := by
        rw [deliveryId, hstyle, String.append_assoc, String.append_assoc]
        rfl
      simp [hnested, stripBack_append, parseStyleKey_account hkey, hstyle, context, bail]
    · simp only [fileName, stripBack_nested_flat hkey hstyle, stripBack_append, pure_bind, parseStyleKey_deliveryId hkey]
      simp [context, hstyle]

end places

namespace StyleObjectPath

variable {parsePath : String → Fallible String}

theorem tryNew_eq_ok {relative : String} {place : StyleObjectPath} :
    tryNew parsePath relative = .ok place ↔ parsePath relative = .ok place.path := by
  rw [tryNew, bind_eq_ok]
  constructor
  · rintro ⟨path, hparse, hplace⟩
    rw [context_eq_ok] at hparse
    split at hplace
    · cases hplace
    · cases hplace
      exact hparse
  · intro hparse
    refine ⟨place.path, context_eq_ok.mpr hparse, ?_⟩
    have hvalid := place.valid
    split
    · rename_i hsplit
      simp [hsplit] at hvalid
    · rename_i hsplit
      rw [hsplit] at hvalid
      obtain ⟨path, deliveryStyleId, layout, valid⟩ := place
      cases hvalid
      rfl

variable {acct acct' : AccountId} {style style' : LocalResourceId} {layout layout' : StyleObjectLayout}
  {place place' : StyleObjectPath}

theorem forResource_eq_ok (hparse : ParsesClean parsePath) : forResource parsePath acct style layout = .ok place ↔
    isStyleKey acct.value style.value = true ∧ place.path = placePath acct style layout := by
  by_cases hkey : isStyleKey acct.value style.value = true
  · have hname : forResource parsePath acct style layout = tryNew parsePath (placePath acct style layout) := by
      cases layout <;> simp only [forResource, if_pos hkey, placePath, deliveryId, fileName, String.append_assoc]
    rw [hname, tryNew_eq_ok, parsePath_placePath hkey hparse]
    simp [hkey, eq_comm]
  · simp [forResource, hkey, context, bail]

/-- A place that is found is the one asked for. -/
theorem forResource_spec (hparse : ParsesClean parsePath) (h : forResource parsePath acct style layout = .ok place) :
    (layout = .nested ∨ style.value ≠ "style") ∧ place.deliveryStyleId = deliveryId acct style ∧ place.layout = layout := by
  obtain ⟨hkey, hpath⟩ := (forResource_eq_ok hparse).mp h
  have hvalid := place.valid
  rw [hpath, split_placePath hkey] at hvalid
  split at hvalid
  · rename_i hread
    rw [Except.ok.injEq, Prod.mk.injEq] at hvalid
    exact ⟨hread, hvalid.1.symm, hvalid.2.symm⟩
  · cases hvalid

theorem deliveryId_injective (hkey : isStyleKey acct.value style.value = true)
    (hkey' : isStyleKey acct'.value style'.value = true) (h : deliveryId acct style = deliveryId acct' style') :
    acct = acct' ∧ style = style' := by
  have hlist := congrArg String.toList h
  rw [deliveryId_toList, deliveryId_toList] at hlist
  obtain ⟨hacct, hstyle⟩ := append_cons_inj (slash_notMem (isStyleKey_plain hkey).1)
    (slash_notMem (isStyleKey_plain hkey').1) hlist
  cases acct
  cases style
  exact ⟨AccountId.mk.injEq .. ▸ String.toList_inj.mp hacct, LocalResourceId.mk.injEq .. ▸ String.toList_inj.mp hstyle⟩

/-- Every canonical key has a place of its own in either layout, but for the flat place of a style named `style`. -/
theorem forResource_reads_back (parsePath : String → Fallible String) (hparse : ParsesClean parsePath)
    (account : AccountId) (style : LocalResourceId) (layout : StyleObjectLayout)
    (hkey : isStyleKey account.value style.value = true) :
    ((∃ place, forResource parsePath account style layout = .ok place ∧ place.deliveryStyleId = deliveryId account style ∧
        place.layout = layout) ↔ (layout = .nested ∨ style.value ≠ "style")) ∧
      ∀ account' style' layout' place place', forResource parsePath account style layout = .ok place →
        forResource parsePath account' style' layout' = .ok place' → place.path = place'.path →
        account = account' ∧ style = style' ∧ layout = layout' := by
  refine ⟨⟨?_, ?_⟩, ?_⟩
  · rintro ⟨place, hplace, -⟩
    exact (forResource_spec hparse hplace).1
  · intro hread
    have hvalid := split_placePath hkey layout
    rw [if_pos hread] at hvalid
    exact ⟨⟨_, _, _, hvalid⟩, (forResource_eq_ok hparse).mpr ⟨hkey, rfl⟩, rfl, rfl⟩
  · intro account' style' layout' place place' hplace hplace' hpath
    obtain ⟨-, hid, hlayout⟩ := forResource_spec hparse hplace
    obtain ⟨-, hid', hlayout'⟩ := forResource_spec hparse hplace'
    -- the text of a path determines what was read from it
    have hsame := place.valid
    rw [hpath, place'.valid, Except.ok.injEq, Prod.mk.injEq] at hsame
    have hdelivery : deliveryId account style = deliveryId account' style' := by
      rw [← hid, ← hid', hsame.1]
    obtain ⟨haccount, hstyle⟩ := deliveryId_injective hkey ((forResource_eq_ok hparse).mp hplace').1 hdelivery
    exact ⟨haccount, hstyle, by rw [← hlayout, ← hlayout', hsame.2]⟩

/-- The flat place of the style `a/style` is read as the nested place of a key that is only `a`. -/
theorem forResource_flat_style_refused :
    isStyleKey "a" "style" = true ∧
      forResource .ok ⟨"a", by decide +kernel⟩ ⟨"style", by decide +kernel⟩ .flat =
        context "style object path must contain a canonical style key" (bail invalidStyleKey) := by
  decide +kernel

theorem forResource_reads_back_flat :
    (∃ place, forResource .ok ⟨"a", by decide +kernel⟩ ⟨"night", by decide +kernel⟩ .flat = .ok place ∧
        place.deliveryStyleId = "a/night" ∧ place.layout = .flat) := by
  have h := forResource_reads_back .ok (fun _ _ _ => rfl) ⟨"a", by decide +kernel⟩ ⟨"night", by decide +kernel⟩
    .flat (by decide +kernel)
  exact h.1.mpr (.inr (by decide +kernel))

end StyleObjectPath

end Mappf.Abashiri
