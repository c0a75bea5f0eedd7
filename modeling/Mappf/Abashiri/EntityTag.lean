import Mappf.Abashiri.StylePaths

/-! # Entity tags of version evidence

`mutation.rs`: a version is handed out as one strong entity tag, base64 of its JSON, and comes back as a precondition.
What is handed out bounds the two parts, what is taken back bounds the tag. Escapes double a part and base64 adds a
third, so a tag may be too long to be taken back. Base64 and JSON are parameters. -/
namespace Mappf.Abashiri
open String

def versionEtagPrefix : String := "abashiri-v1."

structure TagLibraries where
  json : JsonWriter
  /-- `serde_json::from_slice` -/
  fromSlice : Bytes → Option UpdateVersion
  /-- `URL_SAFE_NO_PAD` -/
  encode : Bytes → String
  decode : String → Option Bytes

/-- `serde_json::to_vec`: the fields in declaration order, without blanks. -/
def evidenceJson (json : JsonWriter) (evidence : UpdateVersion) : Bytes :=
  utf8 ("\x7b\"e_tag\":" ++ evidence.eTag.elim "null" json.write ++
    ",\"version\":" ++ evidence.version.elim "null" json.write ++ "\x7d")

namespace VersionEvidence

section
variable (libs : TagLibraries) (evidence : VersionEvidence)

def body : Bytes := evidenceJson libs.json evidence.asUpdateVersion

def toEntityTag : String := "\"" ++ (versionEtagPrefix ++ libs.encode (evidence.body libs) ++ "\"")

def fromEntityTag (value : String) : Fallible VersionEvidence :=
  if 4 * maxVersionPartLen < value.utf8ByteSize then bail "version ETag is too long"
  else
    match ((stripFront "\"" value).bind (stripBack "\"")).bind (stripFront versionEtagPrefix) with
    | none => bail "If-Match must contain one Abashiri version ETag"
    | some encoded =>
      match libs.decode encoded with
      | none => bail "decode Abashiri version ETag"
      | some body =>
        match libs.fromSlice body with
        | none => bail "parse Abashiri version ETag"
        | some evidence => tryNew evidence.eTag evidence.version

/-- For this version, base64 turns every three bytes into four characters, and the libraries read back what they
wrote. -/
structure Faithful : Prop where
  length : (libs.encode (evidence.body libs)).utf8ByteSize = (4 * (evidence.body libs).length + 2) / 3
  base64 : libs.decode (libs.encode (evidence.body libs)) = some (evidence.body libs)
  json : libs.fromSlice (evidence.body libs) = some evidence.asUpdateVersion

/-- Of two parts, the bytes and the characters JSON escapes come to at most 3036; one part alone always fits. -/
def PartsFit : Prop :=
  ∀ eTag, evidence.eTag = some eTag → ∀ version, evidence.version = some version →
    escapedSize eTag + escapedSize version ≤ 3036

end

variable {libs : TagLibraries} {evidence : VersionEvidence}

/-! ## Lengths -/

theorem length_le_utf8ByteSize (s : String) : s.toList.length ≤ s.utf8ByteSize := by
  rw [← utf8_length, ← ofList_toList (s := s), utf8_ofList, toList_ofList]
  induction s.toList with
  | nil => exact Nat.zero_le _
  | cons c chars ih =>
    have hpos := c.utf8Size_pos
    rw [List.flatMap_cons, List.length_append, List.length_cons, length_utf8EncodeChar]
    omega

/-- The length of a part in the JSON. -/
def partSize (part : Option String) : ℕ := part.elim 4 (fun s => escapedSize s + 2)

theorem write_size {part : Option String} (h : part.all (boundedLabel maxVersionPartLen) = true) :
    (part.elim "null" libs.json.write).utf8ByteSize = partSize part ∧ ∀ s, part = some s → escapedSize s ≤ 2048 := by
  cases part with
  | none => exact ⟨rfl, nofun⟩
  | some s =>
    simp only [Option.all_some, boundedLabel, Bool.not_eq_true', Bool.or_eq_false_iff, decide_eq_false_iff_not,
      Nat.not_lt, List.any_eq_false] at h
    obtain ⟨⟨-, hsize⟩, hcontrol⟩ := h
    refine ⟨libs.json.size s fun c hc => ?_, fun t ht => ?_⟩
    · have hplain := hcontrol c hc
      simp only [isControl, Bool.or_eq_true, decide_eq_true_eq, not_or, Nat.not_lt] at hplain
      exact hplain.1
    · obtain rfl := Option.some.inj ht
      have hescaped := List.countP_le_length (p := isEscaped) (l := s.toList)
      have hlength := length_le_utf8ByteSize s
      unfold maxVersionPartLen at hsize
      unfold escapedSize
      omega

theorem Faithful.tag_size (h : Faithful libs evidence) : (evidence.toEntityTag libs).utf8ByteSize =
    14 + (4 * (21 + partSize evidence.eTag + partSize evidence.version) + 2) / 3 := by
  have hbounded := evidence.bounded
  simp only [List.all_cons, List.all_nil, Bool.and_true, Bool.and_eq_true] at hbounded
  have hjson : (evidence.body libs).length = 21 + partSize evidence.eTag + partSize evidence.version := by
    rw [body, evidenceJson, utf8_length, utf8ByteSize_append, utf8ByteSize_append, utf8ByteSize_append,
      utf8ByteSize_append, asUpdateVersion, (write_size hbounded.1).1, (write_size hbounded.2).1]
    change 9 + _ + 11 + _ + 1 = _
    omega
  rw [toEntityTag, utf8ByteSize_append, utf8ByteSize_append, utf8ByteSize_append, h.length, hjson]
  change 1 + (12 + _ + 1) = _
  omega

theorem Faithful.tag_fits_iff (h : Faithful libs evidence) :
    (evidence.toEntityTag libs).utf8ByteSize ≤ 4 * maxVersionPartLen ↔ evidence.PartsFit := by
  have hbounded := evidence.bounded
  simp only [List.all_cons, List.all_nil, Bool.and_true, Bool.and_eq_true] at hbounded
  have hetag := (@write_size libs _ hbounded.1).2
  have hversion := (@write_size libs _ hbounded.2).2
  rw [h.tag_size, PartsFit, maxVersionPartLen]
  cases heq : evidence.eTag with
  | none =>
    have hsize : partSize evidence.version ≤ 2050 := by
      cases hver : evidence.version with
      | none => decide
      | some version => exact Nat.add_le_add_right (hversion version hver) 2
    refine iff_of_true ?_ nofun
    change 14 + (4 * (21 + 4 + partSize evidence.version) + 2) / 3 ≤ 4 * 1024
    omega
  | some eTag =>
    have hsize := hetag eTag heq
    cases hver : evidence.version with
    | none =>
      refine iff_of_true ?_ (fun _ _ => nofun)
      change 14 + (4 * (21 + (escapedSize eTag + 2) + 4) + 2) / 3 ≤ 4 * 1024
      omega
    | some version =>
      simp only [Option.some.injEq, forall_eq', partSize, Option.elim_some]
      omega

/-! ## The round trip -/

theorem tryNew_self (evidence : VersionEvidence) : tryNew evidence.eTag evidence.version = .ok evidence := by
  rw [tryNew, dif_pos evidence.present, dif_pos evidence.bounded]

theorem fromEntityTag_long {value : String} (h : 4 * maxVersionPartLen < value.utf8ByteSize) :
    fromEntityTag libs value = bail "version ETag is too long" :=
  if_pos h

theorem Faithful.encode_injective {evidence' : VersionEvidence} (h : Faithful libs evidence)
    (h' : Faithful libs evidence') (heq : libs.encode (evidence.body libs) = libs.encode (evidence'.body libs)) :
    evidence = evidence' := by
  have hbody := h.base64
  rw [heq, h'.base64, Option.some.injEq] at hbody
  have hver := h.json
  rw [← hbody, h'.json, Option.some.injEq] at hver
  exact asUpdateVersion_injective hver.symm

/-- A tag is taken back exactly when its parts fit, and no two versions have one tag. -/
theorem entityTag_taken_back_iff (libs : TagLibraries) (evidence : VersionEvidence)
    (hfaithful : Faithful libs evidence) :
    (fromEntityTag libs (evidence.toEntityTag libs) = .ok evidence ↔ evidence.PartsFit) ∧
      ∀ evidence', Faithful libs evidence' → evidence.toEntityTag libs = evidence'.toEntityTag libs →
        evidence = evidence' := by
  refine ⟨?_, ?_⟩
  · rw [← hfaithful.tag_fits_iff]
    by_cases hlong : 4 * maxVersionPartLen < (evidence.toEntityTag libs).utf8ByteSize
    · rw [fromEntityTag_long hlong]
      exact iff_of_false nofun (Nat.not_le.mpr hlong)
    · have hstripped : ((stripFront "\"" (evidence.toEntityTag libs)).bind (stripBack "\"")).bind
          (stripFront versionEtagPrefix) = some (libs.encode (evidence.body libs)) := by
        rw [toEntityTag, stripFront_append, Option.bind_some, stripBack_append, Option.bind_some, stripFront_append]
      simp only [fromEntityTag, if_neg hlong, hstripped, hfaithful.base64, hfaithful.json]
      exact iff_of_true evidence.tryNew_self (Nat.not_lt.mp hlong)
  · intro evidence' hfaithful' heq
    rw [toEntityTag, toEntityTag, append_right_inj, append_left_inj, append_right_inj] at heq
    exact hfaithful.encode_injective hfaithful' heq

/-- Libraries that know one version, and the base64 of its JSON. -/
def knowing (evidence : VersionEvidence) (text : String) : TagLibraries where
  json := .minimal
  fromSlice _ := some evidence.asUpdateVersion
  encode _ := text
  decode _ := some (evidenceJson .minimal evidence.asUpdateVersion)

def generationSeven : VersionEvidence := ⟨some "\"abc\"", some "7", rfl, by decide +kernel⟩

theorem generationSeven_taken_back :
    let libs := knowing generationSeven "eyJlX3RhZyI6IlwiYWJjXCIiLCJ2ZXJzaW9uIjoiNyJ9"
    fromEntityTag libs (generationSeven.toEntityTag libs) = .ok generationSeven :=
  (entityTag_taken_back_iff _ generationSeven ⟨by decide +kernel, rfl, rfl⟩).1.mpr (by
    rintro _ ⟨⟩ _ ⟨⟩
    decide +kernel)

def quotationMarks : String := ofList (List.replicate maxVersionPartLen '"')

theorem quotationMarks_bounded : boundedLabel maxVersionPartLen quotationMarks = true := by
  have hsize : quotationMarks.utf8ByteSize = maxVersionPartLen := by
    rw [← utf8_length, quotationMarks, utf8_ofList]
    simp [List.length_flatMap, show '"'.utf8Size = 1 from rfl]
  have hempty : quotationMarks.isEmpty = false := by
    rw [String.isEmpty, hsize]
    rfl
  have hcontrol : quotationMarks.toList.any isControl = false := by
    simp [quotationMarks, show isControl '"' = false from rfl]
  simp [boundedLabel, hempty, hsize, hcontrol]

def twice (part : String) (h : boundedLabel maxVersionPartLen part = true) : VersionEvidence :=
  ⟨some part, some part, rfl, by simp [h]⟩

/-- Both parts are as long as they may be and made of quotation marks. -/
def quoted : VersionEvidence := twice quotationMarks quotationMarks_bounded

/-- Base64 of `3 * n` escaped quotation marks. -/
def encodedMarks (n : ℕ) : String := ofList (List.replicate n "XCJcIlwi".toList).flatten

theorem encodedMarks_size (n : ℕ) : n * 8 ≤ (encodedMarks n).utf8ByteSize := by
  have hlength := length_le_utf8ByteSize (encodedMarks n)
  simpa [encodedMarks] using hlength

theorem knowing_refused (evidence : VersionEvidence) (front middle back : String) {n : ℕ} (h : 256 < n) :
    let libs := knowing evidence (front ++ encodedMarks n ++ middle ++ encodedMarks n ++ back)
    fromEntityTag libs (evidence.toEntityTag libs) = bail "version ETag is too long" := by
  intro libs
  have hsize := encodedMarks_size n
  apply fromEntityTag_long
  simp only [toEntityTag, libs, knowing, utf8ByteSize_append]
  unfold maxVersionPartLen
  omega

theorem quoted_refused :
    let libs := knowing quoted
      ("eyJlX3RhZyI6Ilwi" ++ encodedMarks 341 ++ "IiwidmVyc2lvbiI6Ilwi" ++ encodedMarks 341 ++ "In0")
    fromEntityTag libs (quoted.toEntityTag libs) = bail "version ETag is too long" :=
  knowing_refused quoted _ _ _ (by decide)

end VersionEvidence

end Mappf.Abashiri
