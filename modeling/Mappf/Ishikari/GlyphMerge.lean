import Mappf.Ishikari.GlyphComposite
import Mappf.Lib.Fallible
import Mathlib.Data.List.Dedup
import Mathlib.Data.List.DropRight

/-! # Font stacks and the merge of their glyphs

`glyph.rs`: names and glyphs are kept at their first occurrence, and a stack is cached under the text of its names. The
protobuf library is a parameter. -/
namespace Mappf.Ishikari
open Styles (trim)
open Upstream (HttpError)
open List

/-! ## First occurrences -/

section firsts

variable {α κ : Type} [DecidableEq κ] (key : α → κ)

/-- `if seen.insert(key)`, where `seen` holds the keys of what was kept. -/
def insertFirst (kept : List α) (a : α) : List α := if key a ∈ kept.map key then kept else kept ++ [a]

theorem keys_insertFirst (l : List α) : (l.foldl (insertFirst key) []).map key = (l.map key).reverse.dedup.reverse := by
  induction l using reverseRecOn with
  | nil => rfl
  | append_singleton l a ih =>
    rw [foldl_concat, insertFirst]
    split_ifs with hseen
    · have hmem : key a ∈ (l.map key).reverse := by simpa [ih] using hseen
      simpa [dedup_cons_of_mem hmem] using ih
    · have hmem : key a ∉ (l.map key).reverse := by simpa [ih] using hseen
      simpa [dedup_cons_of_notMem hmem] using ih

theorem first_of_mem {l : List α} {a : α} (h : a ∈ l.foldl (insertFirst key) []) :
    l.find? (fun b => decide (key b = key a)) = some a := by
  induction l using reverseRecOn with
  | nil => cases h
  | append_singleton l b ih =>
    rw [foldl_concat, insertFirst, keys_insertFirst] at h
    rw [find?_append]
    split_ifs at h with hseen
    · rw [ih h, Option.some_or]
    · obtain hold | hnew := mem_append.mp h
      · rw [ih hold, Option.some_or]
      · have hnone : l.find? (fun c => decide (key c = key b)) = none := by simpa using hseen
        rw [mem_singleton.mp hnew, hnone]
        simp

end firsts

/-! ## Font stacks -/

def maxFontstackLen : ℕ := 256
def maxFontsPerStack : ℕ := 8

structure ParsedFontstack where
  names : List String
  canonical : String
  displayName : String

def invalidName (name : String) : Bool :=
  name.isEmpty || name.toList.any isControl || name.toList.contains '/' || name.toList.contains '\\' ||
    name == "." || name == ".."

def fontParts (fontstack : String) : List String :=
  (fontstack.toList.splitOn ',').map fun part => trim (String.ofList part)

/-- An invalid part ends the loop with the same error wherever it stands. -/
def parseFontstack (fontstack : String) : Except HttpError ParsedFontstack :=
  let names := (fontParts fontstack).foldl (insertFirst id) []
  if fontstack.isEmpty || maxFontstackLen < fontstack.utf8ByteSize then .error ⟨400, "fontstack length invalid"⟩
  else if (fontParts fontstack).any invalidName then .error ⟨400, "fontstack invalid"⟩
  else if maxFontsPerStack < names.length then .error ⟨400, "fontstack exceeds 8 fonts"⟩
  else .ok ⟨names, ",".intercalate names, ", ".intercalate names⟩

def trimmed (l : List Char) : List Char := (l.dropWhile isWhitespace).rdropWhile isWhitespace

variable (l : List Char)

theorem trim_ofList : trim (String.ofList l) = String.ofList (trimmed l) := by
  simp [trim, trimmed, rdropWhile]

theorem trimmed_sublist : (trimmed l).Sublist l := by
  have hfront := rdropWhile_prefix isWhitespace (l.dropWhile isWhitespace)
  exact hfront.sublist.trans (dropWhile_sublist _)

theorem trimmed_trimmed : trimmed (trimmed l) = trimmed l := by
  have hdrop : (trimmed l).dropWhile isWhitespace = trimmed l := by
    obtain ⟨rest, hrest⟩ := rdropWhile_prefix isWhitespace (l.dropWhile isWhitespace)
    change trimmed l ++ rest = _ at hrest
    have hhead := dropWhile_idempotent isWhitespace l
    rw [← hrest, dropWhile_append] at hhead
    split_ifs at hhead
    · have hlen := (dropWhile_sublist isWhitespace (l := rest)).length_le
      rw [hhead, length_append] at hlen
      rw [eq_nil_of_length_eq_zero (by omega : (trimmed l).length = 0)]
      rfl
    · exact append_cancel_right hhead
  rw [trimmed, hdrop, trimmed, rdropWhile_idempotent]

theorem comma_notMem {l part : List Char} (h : part ∈ l.splitOn ',') : ',' ∉ part := by
  by_cases hcomma : ',' ∈ l
  · obtain ⟨before, after, rfl, hfree⟩ := eq_append_cons_of_mem hcomma
    rw [splitOn_append_cons_self, splitOn_eq_singleton hfree] at h
    obtain rfl | hafter := mem_cons.mp h
    · exact hfree
    · exact comma_notMem hafter
  · rw [splitOn_eq_singleton hcomma] at h
    rwa [mem_singleton.mp h]
termination_by l.length

variable {fontstack : String} {parsed : ParsedFontstack}

/-- The first occurrences, since `dedup` keeps the last ones. -/
theorem names_eq (parts : List String) : parts.foldl (insertFirst id) [] = parts.reverse.dedup.reverse := by
  simpa using keys_insertFirst id parts

theorem parse_ok_iff : parseFontstack fontstack = .ok parsed ↔ fontstack ≠ "" ∧
    fontstack.utf8ByteSize ≤ maxFontstackLen ∧ (∀ name ∈ fontParts fontstack, invalidName name = false) ∧
    parsed.names = (fontParts fontstack).reverse.dedup.reverse ∧ parsed.names.length ≤ maxFontsPerStack ∧
    parsed.canonical = ",".intercalate parsed.names ∧ parsed.displayName = ", ".intercalate parsed.names := by
  cases parsed with | mk names canonical displayName =>
  rw [parseFontstack, names_eq]
  split_ifs with hlen hname hcount
  · simp at hlen ⊢
    grind
  · simp at hname ⊢
    grind
  · simp at hcount ⊢
    grind
  · simp at hlen hname hcount ⊢
    grind

theorem cons_intercalate {parts : List (List Char)} (h : parts ≠ []) :
    ',' :: [','].intercalate parts = parts.flatMap (',' :: ·) := by
  induction parts with
  | nil => exact absurd rfl h
  | cons part parts ih =>
    cases parts with
    | nil => simp
    | cons next parts => simp [intercalate_cons_cons, ← ih]

/-- Every part is cut down to its name, or left out. -/
theorem canonical_sublist (h : parseFontstack fontstack = .ok parsed) :
    ∃ parts, parts ≠ [] ∧ (∀ part ∈ parts, ',' ∉ part ∧ trimmed part = part) ∧
      parsed.names = parts.map String.ofList ∧ ([','].intercalate parts).Sublist fontstack.toList := by
  obtain ⟨-, -, -, hnames, -⟩ := parse_ok_iff.mp h
  have hsub : parsed.names.Sublist (fontParts fontstack) := by
    rw [hnames, ← reverse_sublist, reverse_reverse]
    exact dedup_sublist _
  obtain ⟨kept, hkept, heq⟩ := sublist_map_iff.mp hsub
  have hne : kept ≠ [] := by
    rintro rfl
    simp [hnames, fontParts] at heq
  refine ⟨kept.map trimmed, by simpa, ?_, by simp [heq, trim_ofList], ?_⟩
  · intro part hpart
    obtain ⟨whole, hwhole, rfl⟩ := mem_map.mp hpart
    exact ⟨fun hcomma => comma_notMem (hkept.subset hwhole) ((trimmed_sublist whole).subset hcomma), trimmed_trimmed whole⟩
  · have hwhole : [','].intercalate (fontstack.toList.splitOn ',') = fontstack.toList := intercalate_splitOn _
    rw [← hwhole, ← cons_sublist_cons (a := ','), cons_intercalate (by simpa), flatMap_map,
      cons_intercalate (splitOn_ne_nil _ _)]
    exact (List.Sublist.flatMap_right kept fun part _ => (trimmed_sublist part).cons_cons _).trans (hkept.flatMap _)

theorem reparse (h : parseFontstack fontstack = .ok parsed) : parseFontstack parsed.canonical = .ok parsed := by
  obtain ⟨-, hlen, hvalid, hnames, hcount, hcanon, hdisplay⟩ := parse_ok_iff.mp h
  obtain ⟨parts, hne, hparts, heq, hsub⟩ := canonical_sublist h
  have hchars : parsed.canonical.toList = [','].intercalate parts := by
    simp [hcanon, heq, Function.comp_def]
  have hsplit : fontParts parsed.canonical = parsed.names := by
    rw [fontParts, hchars, splitOn_intercalate _ (fun part hpart => (hparts part hpart).1) hne, heq]
    exact map_congr_left fun part hpart => by rw [trim_ofList, (hparts part hpart).2]
  have hinner : ∀ name ∈ parsed.names, invalidName name = false := by
    intro name hname
    exact hvalid name (by simpa [hnames] using hname)
  have hnodup : parsed.names.Nodup := by simp [hnames, nodup_dedup]
  rw [parse_ok_iff, hsplit]
  refine ⟨?_, ?_, hinner, ?_, hcount, hcanon, hdisplay⟩
  · intro hempty
    rw [hempty] at hsplit
    have hbad := hinner "" (by rw [← hsplit]; decide)
    exact absurd hbad (by decide)
  · rw [← String.utf8Len_toList, hchars]
    exact (String.utf8Len_le_of_sublist hsub).trans (by rwa [String.utf8Len_toList])
  · rw [dedup_eq_self.mpr (nodup_reverse.mpr hnodup), reverse_reverse]

/-! ## The merge -/

def maxGlyphBytes : ℕ := 1024 * 1024

structure GlyphRange where
  start : ℕ
  stop : ℕ
  canonical : String

structure Fontstack (γ : Type) where
  name : String
  range : String
  glyphs : List γ

/-- `Glyphs::decode` and `encode_to_vec`, over any type of glyphs. -/
structure GlyphCodec (γ : Type) where
  id : γ → ℕ
  decode : Bytes → Except String (List (Fontstack γ))
  encode : List (Fontstack γ) → Bytes

variable {γ : Type} (codec : GlyphCodec γ) (range : GlyphRange)

def outside (glyph : γ) : Bool := codec.id glyph < range.start || range.stop < codec.id glyph

def outsideRange : HttpError := ⟨502, "glyph protobuf contains an id outside the requested range"⟩

def addGlyph (kept : List γ) (glyph : γ) : Except HttpError (List γ) :=
  if outside codec range glyph then .error outsideRange
  else .ok (insertFirst codec.id kept glyph)

def addBody (kept : List γ) (body : Bytes) : Except HttpError (List γ) :=
  match codec.decode body with
  | .error error => .error ⟨502, s!"invalid glyph protobuf: {error}"⟩
  | .ok source => (source.flatMap (·.glyphs)).foldlM (addGlyph codec range) kept

def sortById (glyphs : List γ) : List γ := glyphs.mergeSort fun a b => codec.id a ≤ codec.id b

def mergeGlyphPbf (displayName : String) (bodies : List Bytes) : Except HttpError Bytes :=
  match bodies.foldlM (addBody codec range) [] with
  | .error error => .error error
  | .ok glyphs =>
    let output := codec.encode [⟨displayName, range.canonical, sortById codec glyphs⟩]
    if maxGlyphBytes < output.length then .error ⟨502, "merged glyph protobuf exceeds response limit"⟩
    else .ok output

/-- The glyphs of the bodies that decode, in body order. -/
def glyphsOf (bodies : List Bytes) : List γ :=
  bodies.flatMap fun body => ((codec.decode body).toOption.getD []).flatMap (·.glyphs)

def Refused (bodies : List Bytes) : Prop :=
  (∃ body ∈ bodies, ∃ error, codec.decode body = .error error) ∨ (glyphsOf codec bodies).any (outside codec range)

structure Merged (bodies : List Bytes) (merged : List γ) : Prop where
  increasing : (merged.map codec.id).Pairwise (· < ·)
  ids : ∀ i, i ∈ merged.map codec.id ↔ i ∈ (glyphsOf codec bodies).map codec.id
  first : ∀ glyph ∈ merged,
    (glyphsOf codec bodies).find? (fun other => decide (codec.id other = codec.id glyph)) = some glyph

theorem addGlyphs_eq (glyphs kept : List γ) : glyphs.foldlM (addGlyph codec range) kept =
    if glyphs.any (outside codec range) then .error outsideRange
    else .ok (glyphs.foldl (insertFirst codec.id) kept) := by
  induction glyphs generalizing kept with
  | nil => rfl
  | cons glyph glyphs ih =>
    rw [foldlM_cons, addGlyph]
    cases hout : outside codec range glyph with
    | false => simpa [hout] using ih (insertFirst codec.id kept glyph)
    | true =>
      simp [hout]
      rfl

variable {bodies : List Bytes} {glyphs : List γ}

theorem refused_cons {body : Bytes} {source : List (Fontstack γ)} (h : codec.decode body = .ok source) :
    Refused codec range (body :: bodies) ↔
      (source.flatMap (·.glyphs)).any (outside codec range) = true ∨ Refused codec range bodies := by
  simp [Refused, glyphsOf, h, Except.toOption, or_left_comm]

theorem addBodies_spec (bodies : List Bytes) (kept : List γ) :
    match bodies.foldlM (addBody codec range) kept with
    | .error _ => Refused codec range bodies
    | .ok glyphs => ¬ Refused codec range bodies ∧
        glyphs = (glyphsOf codec bodies).foldl (insertFirst codec.id) kept := by
  induction bodies generalizing kept with
  | nil => exact ⟨by simp [Refused, glyphsOf], rfl⟩
  | cons body bodies ih =>
    rw [foldlM_cons, addBody]
    cases hdec : codec.decode body with
    | error error => exact .inl ⟨body, mem_cons_self, error, hdec⟩
    | ok source =>
      have hglyphs : glyphsOf codec (body :: bodies) = source.flatMap (·.glyphs) ++ glyphsOf codec bodies := by
        simp [glyphsOf, hdec, Except.toOption]
      rw [refused_cons codec range hdec, hglyphs, foldl_append]
      dsimp only
      rw [addGlyphs_eq]
      split_ifs with hout
      · exact .inl hout
      · rw [ok_bind, or_iff_right hout]
        exact ih _

theorem merged_sortById (h : bodies.foldlM (addBody codec range) [] = .ok glyphs) :
    Merged codec bodies (sortById codec glyphs) := by
  have hspec := addBodies_spec codec range bodies []
  rw [h] at hspec
  obtain ⟨-, hglyphs⟩ := hspec
  have hkeys := keys_insertFirst codec.id (glyphsOf codec bodies)
  rw [← hglyphs] at hkeys
  have hperm : (sortById codec glyphs).Perm glyphs := glyphs.mergeSort_perm _
  refine ⟨?_, ?_, ?_⟩
  · have hnodup : ((sortById codec glyphs).map codec.id).Nodup := by
      rw [(hperm.map _).nodup_iff, hkeys, nodup_reverse]
      exact nodup_dedup _
    have hsorted : (sortById codec glyphs).Pairwise (fun a b => decide (codec.id a ≤ codec.id b) = true) :=
      pairwise_mergeSort (by simpa using fun _ _ _ => le_trans) (by simpa using fun a b => le_total _ _) glyphs
    rw [pairwise_map]
    exact hsorted.imp₂ (fun _ _ hle hne => by simp at hle; omega) (pairwise_map.mp hnodup)
  · intro i
    rw [(hperm.map _).mem_iff, hkeys]
    simp
  · intro glyph hglyph
    exact first_of_mem codec.id (hglyphs ▸ hperm.mem_iff.mp hglyph)

theorem glyph_stacks :
    (∀ fontstack parsed, parseFontstack fontstack = .ok parsed →
      parsed.names = (fontParts fontstack).reverse.dedup.reverse ∧ parseFontstack parsed.canonical = .ok parsed) ∧
    (∀ fontstack fontstack' parsed parsed', parseFontstack fontstack = .ok parsed →
      parseFontstack fontstack' = .ok parsed' → (parsed.canonical = parsed'.canonical ↔ parsed.names = parsed'.names)) ∧
    ∀ displayName bodies, match mergeGlyphPbf codec range displayName bodies with
      | .error _ => Refused codec range bodies ∨ ∃ merged, Merged codec bodies merged ∧
          maxGlyphBytes < (codec.encode [⟨displayName, range.canonical, merged⟩]).length
      | .ok output => ¬ Refused codec range bodies ∧ output.length ≤ maxGlyphBytes ∧
          ∃ merged, Merged codec bodies merged ∧ output = codec.encode [⟨displayName, range.canonical, merged⟩] := by
  refine ⟨fun _ _ h => ⟨(parse_ok_iff.mp h).2.2.2.1, reparse h⟩, ?_, ?_⟩
  · intro fontstack fontstack' parsed parsed' h h'
    constructor
    · intro heq
      have hsame := reparse h
      rw [heq, reparse h'] at hsame
      rw [Except.ok.inj hsame]
    · intro heq
      rw [(parse_ok_iff.mp h).2.2.2.2.2.1, (parse_ok_iff.mp h').2.2.2.2.2.1, heq]
  · intro displayName bodies
    rw [mergeGlyphPbf]
    have hspec := addBodies_spec codec range bodies []
    cases hrun : bodies.foldlM (addBody codec range) [] with
    | error error =>
      rw [hrun] at hspec
      exact .inl hspec
    | ok glyphs =>
      rw [hrun] at hspec
      dsimp only
      split_ifs with hlarge
      · exact .inr ⟨_, merged_sortById codec range hrun, hlarge⟩
      · exact ⟨hspec.1, Nat.not_lt.mp hlarge, _, merged_sortById codec range hrun, rfl⟩

namespace MergeExample

def delimited (tag : UInt8) (body : Bytes) : Bytes := tag :: UInt8.ofNat body.length :: body

/-- A glyph of one pixel, by its id and that pixel. -/
def glyphMessage (glyph : UInt8 × UInt8) : Bytes :=
  [0x08, glyph.1] ++ delimited 0x12 [glyph.2] ++ [0x18, 1, 0x20, 1, 0x28, 0, 0x30, 0, 0x38, 1]

def stackMessage (stack : Fontstack (UInt8 × UInt8)) : Bytes :=
  delimited 0x0A (utf8 stack.name) ++ delimited 0x12 (utf8 stack.range) ++
    stack.glyphs.flatMap fun glyph => delimited 0x1A (glyphMessage glyph)

def message (source : List (Fontstack (UInt8 × UInt8))) : Bytes :=
  source.flatMap fun stack => delimited 0x0A (stackMessage stack)

def primary : Fontstack (UInt8 × UInt8) := ⟨"Primary", "0-255", [(1, 1), (3, 3)]⟩
def fallback : Fontstack (UInt8 × UInt8) := ⟨"Fallback", "0-255", [(2, 2), (3, 9)]⟩
def both : Fontstack (UInt8 × UInt8) := ⟨"Primary, Fallback", "0-255", [(1, 1), (2, 2), (3, 3)]⟩

/-- The wire format of messages whose numbers and lengths take one byte each, read back for three messages. -/
def wire : GlyphCodec (UInt8 × UInt8) where
  id glyph := glyph.1.toNat
  encode := message
  decode body := match [primary, fallback, both].find? fun stack => message [stack] == body with
    | some stack => .ok [stack]
    | none => .error "failed to decode Protobuf message"

def fonts : List Bytes := [message [primary], message [fallback]]

def latin : GlyphRange := ⟨0, 255, "0-255"⟩

end MergeExample

open MergeExample in
theorem primary_wins_over_fallback :
    mergeGlyphPbf wire latin "Primary, Fallback" fonts = .ok (message [both]) ∧
      wire.decode (message [both]) = .ok [both] ∧ ¬ Refused wire latin fonts ∧
      ∃ merged, Merged wire fonts merged ∧ message [both] = message [⟨"Primary, Fallback", "0-255", merged⟩] := by
  have hrun : mergeGlyphPbf wire latin "Primary, Fallback" fonts = .ok (message [both]) := by
    have hkept : fonts.foldlM (addBody wire latin) [] = .ok [(1, 1), (3, 3), (2, 2)] := rfl
    have hsort : sortById wire [(1, 1), (3, 3), (2, 2)] = [(1, 1), (2, 2), (3, 3)] := by
      simp [sortById, mergeSort, MergeSort.Internal.splitInTwo, wire]
    rw [mergeGlyphPbf, hkept]
    dsimp only
    rw [hsort]
    rfl
  have hmerge := (glyph_stacks wire latin).2.2 "Primary, Fallback" fonts
  rw [hrun] at hmerge
  exact ⟨hrun, by rfl, hmerge.1, hmerge.2.2⟩

end Mappf.Ishikari
