import Mappf.Abashiri.Mutation
import Mappf.Lib.HashMap
import Mathlib.Data.List.Destutter

/-! # The management registry

`auth.rs`: the credentials of the management API. A digest is sliced by bytes, and a slice that cuts a character is a
fault. The wire format is read by a library. -/
namespace Mappf.Abashiri
open List

def maxCredentials : ℕ := 10000
def maxNamespacesPerCredential : ℕ := 256
def maxPrincipalPartLen : ℕ := 256

inductive ManagementAction
  | operationsRead
  | styleRead
  | stylePublish
  | tilesetRead
  | tilesetPublish
  deriving DecidableEq

structure CredentialGrantWire where
  credentialSha256 : String
  enabled : Bool
  actor : Actor
  namespaces : List String
  actions : List ManagementAction

structure RegistrySnapshotWire where
  schemaVersion : ℕ
  revision : ℕ
  credentials : List CredentialGrantWire

structure CredentialGrant where
  enabled : Bool
  actor : Actor
  namespaces : List AccountId
  actions : List ManagementAction

structure RegistrySnapshot where
  revision : ℕ
  credentials : HashMap Bytes CredentialGrant

def hexValue (byte : UInt8) : Option ℕ :=
  if 0x30 ≤ byte ∧ byte ≤ 0x39 then some (byte.toNat - 0x30)
  else if 0x41 ≤ byte ∧ byte ≤ 0x46 then some (byte.toNat - 0x37)
  else if 0x61 ≤ byte ∧ byte ≤ 0x66 then some (byte.toNat - 0x57)
  else none

/-- `u8::from_str_radix` for two bytes: a plus sign may stand before the digits. -/
def fromStrRadix (high low : UInt8) : Option UInt8 := do
  let value ← if high = 0x2b then some 0 else hexValue high
  let digit ← hexValue low
  some (.ofNat (16 * value + digit))

def isContinuation (byte : UInt8) : Bool := 0x80 ≤ byte && byte < 0xc0

/-- The loop of `decode_sha256`. -/
def decodePairs : Bytes → Fallible Bytes
  | high :: low :: rest =>
    if isContinuation high || rest.head?.any isContinuation then .error .fault
    else
      match fromStrRadix high low with
      | none => context "decode management credential digest" (bail "invalid digit found in string")
      | some byte => decodePairs rest >>= fun digest => .ok (byte :: digest)
  | _ => .ok []

def decodeSha256 (value : String) : Fallible Bytes :=
  if (utf8 value).length = 64 then decodePairs (utf8 value)
  else bail "management credential digest must contain 64 hexadecimal characters"

def identified {α : Type} : Except IdentityError α → Fallible α
  | .ok value => .ok value
  | .error error => bail (error.field ++ " " ++ error.reason)

def Actor.tryNew (actor : Actor) : Except IdentityError Actor := do
  validateBoundedText "actor issuer" actor.issuer maxPrincipalPartLen
  validateBoundedText "actor subject" actor.subject maxPrincipalPartLen
  .ok actor

def AccountId.tryNew (value : String) : Except IdentityError AccountId :=
  match h : validatePathId "account_id" value maxAccountIdLen with
  | .ok () => .ok ⟨value, h⟩
  | .error error => .error error

/-- The checks of a grant that look at nothing else, and what they leave of it. -/
def CredentialGrantWire.check (grant : CredentialGrantWire) : Fallible CredentialGrant :=
  if grant.actions.isEmpty then bail "management credential actions must not be empty"
  else if maxNamespacesPerCredential < grant.namespaces.length then
    bail "management credential namespaces must be bounded"
  else if grant.actions.any (· ≠ .operationsRead) ∧ grant.namespaces.isEmpty then
    bail "namespace-scoped management actions require at least one namespace"
  else if grant.actor.kind ≠ .workload then bail "object-store management credentials must represent workloads"
  else
    context "validate management actor" (identified grant.actor.tryNew) >>= fun actor =>
      context "validate management namespace grant" (identified (grant.namespaces.mapM AccountId.tryNew)) >>=
        fun namespaces => .ok
          { enabled := grant.enabled, actor
            namespaces := (namespaces.mergeSort fun a b => a.value ≤ b.value).destutter (· ≠ ·)
            actions := (grant.actions.mergeSort fun a b => a.ctorIdx ≤ b.ctorIdx).destutter (· ≠ ·) }

def parseGrant (credentials : HashMap Bytes CredentialGrant) (grant : CredentialGrantWire) :
    Fallible (HashMap Bytes CredentialGrant) :=
  decodeSha256 grant.credentialSha256 >>= fun digest =>
    if credentials.contains digest then bail "management auth registry contains a duplicate credential digest"
    else grant.check >>= fun checked => .ok (credentials.insert digest checked)

def RegistrySnapshot.parse (fromSlice : Bytes → Fallible RegistrySnapshotWire) (body : Bytes) :
    Fallible RegistrySnapshot :=
  context "parse management auth registry JSON" (fromSlice body) >>= fun wire =>
    if wire.schemaVersion ≠ 1 then bail "unsupported management auth registry schema_version"
    else if wire.revision = 0 then bail "management auth revision must be positive"
    else if maxCredentials < wire.credentials.length then bail "management auth registry has too many credentials"
    else wire.credentials.foldlM parseGrant ∅ >>= fun credentials => .ok ⟨wire.revision, credentials⟩

/-! ## Which texts are digests -/

def lowercase (byte : UInt8) : Char := (Char.ofUInt8 byte).toLower

/-- What a text spells if a plus sign stands for a zero and letter case does not count. -/
def spelling (text : Bytes) : List Char := text.map fun byte => if byte = 0x2b then '0' else lowercase byte

/-- Each pair is two digits, or a plus sign and a digit. -/
def numerals : Bytes → Bool
  | [] => true
  | [_] => false
  | high :: low :: rest => (fromStrRadix high low).isSome && numerals rest

def cutsFirst : Bytes → Bool
  | high :: _ :: rest => isContinuation high || rest.head?.any isContinuation
  | _ => false

/-- After numerals only, the text has a pair that begins or ends inside a character. -/
def Cut (text : Bytes) : Prop := ∃ read rest, text = read ++ rest ∧ numerals read = true ∧ cutsFirst rest = true

theorem hexValue_iff {byte : UInt8} {value : ℕ} : hexValue byte = some value ↔
    value < 16 ∧ lowercase byte = hexDigit value := by
  have hall : ∀ b : Fin 256, (∀ v ∈ hexValue (.ofFin b), v < 16) ∧
      ∀ v : Fin 16, hexValue (.ofFin b) = some v.val ↔ lowercase (.ofFin b) = hexDigit v.val := by
    decide +kernel
  obtain ⟨hlt, hiff⟩ := hall byte.toFin
  exact ⟨fun h => ⟨hlt value h, (hiff ⟨value, hlt value h⟩).mp h⟩, fun h => (hiff ⟨value, h.1⟩).mpr h.2⟩

theorem hexValue_ascii {byte : UInt8} (h : (hexValue byte).isSome = true) :
    byte ≠ 0x2b ∧ isContinuation byte = false := by
  have hall : ∀ b : Fin 256, (hexValue (.ofFin b)).isSome = true →
      UInt8.ofFin b ≠ 0x2b ∧ isContinuation (.ofFin b) = false := by
    decide +kernel
  exact hall byte.toFin h

theorem hexDigits_ofNat {value digit : ℕ} (hvalue : value < 16) (hdigit : digit < 16) :
    hexDigits (.ofNat (16 * value + digit)) = [hexDigit value, hexDigit digit] := by
  have hnat : (UInt8.ofNat (16 * value + digit)).toNat = 16 * value + digit := by
    rw [UInt8.toNat_ofNat']
    omega
  rw [hexDigits, hnat, show (16 * value + digit) / 16 = value by omega, show (16 * value + digit) % 16 = digit by omega]

section pairs
variable {high low byte : UInt8} {rest digest : Bytes}

theorem fromStrRadix_spec (h : fromStrRadix high low = some byte) :
    isContinuation high = false ∧ spelling [high, low] = hexDigits byte := by
  unfold fromStrRadix at h
  split_ifs at h with hsign
  all_goals
    simp only [Option.bind_eq_bind, Option.bind_some, Option.bind_eq_some_iff, Option.some.injEq] at h
  · obtain ⟨digit, hlow, rfl⟩ := h
    have hplus := (hexValue_ascii (by rw [hlow]; rfl)).1
    obtain ⟨hdigit, hlow⟩ := hexValue_iff.mp hlow
    rw [hexDigits_ofNat (by decide) hdigit]
    simp [spelling, hsign, hplus, hlow, hexDigit, isContinuation]
  · obtain ⟨value, hhigh, digit, hlow, rfl⟩ := h
    have hstart := (hexValue_ascii (by rw [hhigh]; rfl)).2
    have hplus := (hexValue_ascii (by rw [hlow]; rfl)).1
    obtain ⟨hvalue, hhigh⟩ := hexValue_iff.mp hhigh
    obtain ⟨hdigit, hlow⟩ := hexValue_iff.mp hlow
    rw [hexDigits_ofNat hvalue hdigit]
    simp [spelling, hsign, hplus, hstart, hhigh, hlow]

theorem decodePairs_cons_ok : decodePairs (high :: low :: rest) = .ok digest ↔
    cutsFirst (high :: low :: rest) = false ∧
      ∃ byte digest', fromStrRadix high low = some byte ∧ decodePairs rest = .ok digest' ∧ byte :: digest' = digest := by
  rw [decodePairs, cutsFirst]
  split_ifs with hcut
  · simp [hcut]
  · cases fromStrRadix high low <;> simp [hcut, context, bail, bind_eq_ok]

theorem cut_cons : Cut (high :: low :: rest) ↔
    cutsFirst (high :: low :: rest) = true ∨ (fromStrRadix high low).isSome = true ∧ Cut rest := by
  constructor
  · rintro ⟨read, tail, htext, hread, hcut⟩
    match read with
    | [] => exact .inl (by rwa [htext])
    | [_] => cases hread
    | a :: b :: read =>
      obtain ⟨rfl, rfl, rfl⟩ : high = a ∧ low = b ∧ rest = read ++ tail := by simpa using htext
      rw [numerals, Bool.and_eq_true] at hread
      exact .inr ⟨hread.1, read, tail, rfl, hread.2, hcut⟩
  · rintro (hcut | ⟨hpair, read, tail, rfl, hread, hcut⟩)
    · exact ⟨[], _, rfl, rfl, hcut⟩
    · exact ⟨high :: low :: read, tail, rfl, by rw [numerals, hpair, hread]; rfl, hcut⟩

end pairs

theorem decodePairs_fault : ∀ text, decodePairs text = .error .fault ↔ Cut text
  | [] | [_] => by
    refine iff_of_false nofun ?_
    rintro ⟨read, rest, htext, -, hcut⟩
    rcases read with _ | ⟨_, _ | _⟩ <;> rcases rest with _ | ⟨_, _ | _⟩ <;> simp_all [cutsFirst]
  | high :: low :: rest => by
    rw [cut_cons, ← decodePairs_fault rest, decodePairs, cutsFirst]
    split_ifs with hcut
    · simp [hcut]
    · cases fromStrRadix high low with
      | none => simp [hcut, context, bail]
      | some byte => cases decodePairs rest <;> simp [hcut, bind, Except.bind]

/-- Numerals are read, and nothing else is. -/
theorem decodePairs_ok : ∀ {text : Bytes}, 2 ∣ text.length →
    ((∃ digest, decodePairs text = .ok digest) ↔ numerals text = true) ∧
      ∀ digest, decodePairs text = .ok digest → spelling text = digest.flatMap hexDigits
  | [], _ => by simp [decodePairs, numerals, spelling]
  | [_], hlen => by simp at hlen
  | high :: low :: rest, hlen => by
    obtain ⟨hrest, hspelt⟩ := @decodePairs_ok rest (by simpa [Nat.add_assoc] using hlen)
    rw [numerals, Bool.and_eq_true, ← hrest]
    refine ⟨⟨?_, ?_⟩, ?_⟩
    · rintro ⟨digest, h⟩
      obtain ⟨-, byte, digest', hpair, hdigest', -⟩ := decodePairs_cons_ok.mp h
      exact ⟨by rw [hpair]; rfl, digest', hdigest'⟩
    · rintro ⟨hpair, digest', hdigest'⟩
      obtain ⟨byte, hbyte⟩ := Option.isSome_iff_exists.mp hpair
      refine ⟨byte :: digest', decodePairs_cons_ok.mpr ⟨?_, byte, digest', hbyte, hdigest', rfl⟩⟩
      have hnext : rest.head?.any isContinuation = false := by
        match rest with
        | [] => rfl
        | [_] => simp at hlen
        | _ :: _ :: _ =>
          obtain ⟨-, byte', _, hpair', -⟩ := decodePairs_cons_ok.mp hdigest'
          exact (fromStrRadix_spec hpair').1
      rw [cutsFirst, (fromStrRadix_spec hbyte).1, hnext]
      rfl
    · intro digest h
      obtain ⟨-, byte, digest', hpair, hdigest', rfl⟩ := decodePairs_cons_ok.mp h
      rw [flatMap_cons, ← (fromStrRadix_spec hpair).2, ← hspelt digest' hdigest']
      rfl

theorem numerals_of_digits : ∀ {text : Bytes}, 2 ∣ text.length → (∀ byte ∈ text, (hexValue byte).isSome = true) →
    numerals text = true
  | [], _, _ => rfl
  | [_], hlen, _ => by simp at hlen
  | high :: low :: rest, hlen, h => by
    obtain ⟨hhigh, hlow, hrest⟩ : _ ∧ _ ∧ _ := by simpa only [forall_mem_cons] using h
    obtain ⟨value, hvalue⟩ := Option.isSome_iff_exists.mp hhigh
    obtain ⟨digit, hdigit⟩ := Option.isSome_iff_exists.mp hlow
    rw [numerals, numerals_of_digits (by simpa [Nat.add_assoc] using hlen) hrest, fromStrRadix,
      if_neg (hexValue_ascii hhigh).1, hvalue, hdigit]
    rfl

/-- The digits of a digest are the numerals without a plus sign. -/
theorem digits_iff {text digest : Bytes} (hlen : 2 ∣ text.length) :
    text.map lowercase = digest.flatMap hexDigits ↔ decodePairs text = .ok digest ∧ 0x2b ∉ text := by
  obtain ⟨hnumerals, hspelt⟩ := decodePairs_ok hlen
  have hlower : 0x2b ∉ text → spelling text = text.map lowercase := by
    intro hplus
    refine map_congr_left fun byte hbyte => if_neg ?_
    rintro rfl
    exact hplus hbyte
  constructor
  · intro h
    have hdigits : ∀ byte ∈ text, (hexValue byte).isSome = true := by
      intro byte hbyte
      obtain ⟨x, -, hx⟩ := mem_flatMap.mp (h ▸ mem_map_of_mem hbyte : lowercase byte ∈ digest.flatMap hexDigits)
      have hlt := x.toNat_lt
      rw [Option.isSome_iff_exists]
      rcases mem_pair.mp hx with hx | hx
      · exact ⟨_, hexValue_iff.mpr ⟨by omega, hx⟩⟩
      · exact ⟨_, hexValue_iff.mpr ⟨by omega, hx⟩⟩
    have hplus : 0x2b ∉ text := fun hmem => (hexValue_ascii (hdigits _ hmem)).1 rfl
    obtain ⟨read, hread⟩ := hnumerals.mpr (numerals_of_digits hlen hdigits)
    have hsame : read = digest :=
      hex_injective (congrArg String.ofList ((hspelt read hread).symm.trans ((hlower hplus).trans h)))
    exact ⟨hsame ▸ hread, hplus⟩
  · rintro ⟨hread, hplus⟩
    rw [← hlower hplus, hspelt digest hread]

theorem decodeSha256_eq_ok {value : String} {digest : Bytes} : decodeSha256 value = .ok digest ↔
    (utf8 value).length = 64 ∧ decodePairs (utf8 value) = .ok digest := by
  unfold decodeSha256
  split_ifs with hlen <;> simp [hlen, bail]

theorem decodeSha256_fault {value : String} :
    decodeSha256 value = .error .fault ↔ (utf8 value).length = 64 ∧ Cut (utf8 value) := by
  unfold decodeSha256
  split_ifs with hlen <;> simp [hlen, bail, decodePairs_fault]

theorem even_of_length {text : Bytes} (h : text.length = 64) : 2 ∣ text.length := by
  omega

/-! ## Which documents are read -/

/-- Some digest cuts a character, and nothing before it stops the parser: the credentials before it pass their checks
and spell digests that differ from each other and from those `seen`. -/
def CutsCharacter (seen : List (List Char)) : List CredentialGrantWire → Prop
  | [] => False
  | grant :: later =>
    (utf8 grant.credentialSha256).length = 64 ∧
      (Cut (utf8 grant.credentialSha256) ∨
        numerals (utf8 grant.credentialSha256) = true ∧ spelling (utf8 grant.credentialSha256) ∉ seen ∧
          (∃ checked, grant.check = .ok checked) ∧
            CutsCharacter (spelling (utf8 grant.credentialSha256) :: seen) later)

theorem safe_identified {α : Type} (result : Except IdentityError α) : Safe (identified result) := by
  cases result with
  | ok => exact safe_ok _
  | error => exact safe_bail _

theorem safe_check (grant : CredentialGrantWire) : Safe grant.check := by
  unfold CredentialGrantWire.check
  split_ifs
  any_goals exact safe_bail _
  exact ((safe_identified _).context _).bind fun _ _ => ((safe_identified _).context _).bind fun _ _ => safe_ok _

theorem parseGrants_fault {grants : List CredentialGrantWire} {seen : List (List Char)}
    {credentials : HashMap Bytes CredentialGrant}
    (hseen : ∀ digest, credentials.contains digest = true ↔ digest.flatMap hexDigits ∈ seen) :
    grants.foldlM parseGrant credentials = .error .fault ↔ CutsCharacter seen grants := by
  induction grants generalizing credentials seen with
  | nil => exact iff_of_false nofun id
  | cons grant grants ih =>
    rw [foldlM_cons, parseGrant, CutsCharacter]
    generalize hvalue : grant.credentialSha256 = value
    have hfault := @decodeSha256_fault value
    cases hdigest : decodeSha256 value with
    | error failure =>
      have hunread : ¬ ((utf8 value).length = 64 ∧ numerals (utf8 value) = true) := by
        rintro ⟨hlen, hnumerals⟩
        obtain ⟨digest, hread⟩ := (decodePairs_ok (even_of_length hlen)).1.mpr hnumerals
        cases hdigest.symm.trans (decodeSha256_eq_ok.mpr ⟨hlen, hread⟩)
      rw [hdigest] at hfault
      simp only [bind, Except.bind, Except.error.injEq] at hfault ⊢
      rw [hfault]
      tauto
    | ok digest =>
      obtain ⟨hlen, hread⟩ := decodeSha256_eq_ok.mp hdigest
      obtain ⟨hnumerals, hspelt⟩ := decodePairs_ok (even_of_length hlen)
      rw [and_iff_right hlen, or_iff_right (fun hcut => by cases hdigest.symm.trans (hfault.mpr ⟨hlen, hcut⟩)),
        and_iff_right (hnumerals.mp ⟨digest, hread⟩), hspelt digest hread, ← hseen, ok_bind]
      split_ifs with hheld
      · exact iff_of_false nofun (fun h => h.1 hheld)
      rw [and_iff_right hheld]
      cases hcheck : grant.check with
      | error failure =>
        have hsafe := safe_check grant
        rw [hcheck] at hsafe
        exact iff_of_false (fun h => hsafe (by cases h; rfl)) (by simp)
      | ok checked =>
        simp only [ok_bind, Except.ok.injEq, exists_eq', true_and]
        refine ih fun digest' => ?_
        rw [HashMap.contains, HashMap.lookup_insert_eq, mem_cons, ← hseen]
        by_cases hsame : digest' = digest
        · simp [hsame]
        · rw [if_neg hsame, or_iff_right fun heq => hsame (hex_injective (congrArg String.ofList heq))]
          rfl

/-- A document makes the parser panic exactly if it reaches a digest that cuts a character. A text of 64 bytes is
misread exactly if it cuts a character after numerals only, or is made of numerals and has a plus sign. -/
theorem digests_read_iff (fromSlice : Bytes → Fallible RegistrySnapshotWire) (hjson : ∀ body, Safe (fromSlice body)) :
    (∀ body, Safe (RegistrySnapshot.parse fromSlice body) ↔
      ∀ wire, fromSlice body = .ok wire → wire.schemaVersion = 1 → wire.revision ≠ 0 →
        wire.credentials.length ≤ maxCredentials → ¬ CutsCharacter [] wire.credentials) ∧
    (∀ value, (Safe (decodeSha256 value) ∧ ∀ digest, decodeSha256 value = .ok digest ↔
        (utf8 value).length = 64 ∧ (utf8 value).map lowercase = digest.flatMap hexDigits) ↔
      ¬ ((utf8 value).length = 64 ∧ (Cut (utf8 value) ∨ numerals (utf8 value) = true ∧ 0x2b ∈ utf8 value))) ∧
    ∀ value value' digest, 0x2b ∉ utf8 value → 0x2b ∉ utf8 value' → decodeSha256 value = .ok digest →
      decodeSha256 value' = .ok digest → (utf8 value).map lowercase = (utf8 value').map lowercase := by
  refine ⟨fun body => ?_, fun value => ?_, fun value value' digest hplus hplus' h h' => ?_⟩
  · unfold RegistrySnapshot.parse
    have hsafe := hjson body
    generalize fromSlice body = read at hsafe ⊢
    cases read with
    | error failure =>
      refine iff_of_true ?_ nofun
      cases failure with
      | bail chain => nofun
      | fault => exact absurd rfl hsafe
    | ok wire =>
      have hfault := @parseGrants_fault wire.credentials [] ∅ (by simp [HashMap.contains])
      simp only [Except.ok.injEq, forall_eq', ← hfault, context, ok_bind]
      split_ifs with hschema hrevision hbounded
      · exact iff_of_true (safe_bail _) (fun h => absurd h hschema)
      · exact iff_of_true (safe_bail _) (fun _ h => absurd hrevision h)
      · exact iff_of_true (safe_bail _) (fun _ _ h => absurd hbounded (Nat.not_lt.mpr h))
      · cases hgrants : wire.credentials.foldlM parseGrant ∅ <;>
          simp_all [Safe, bind, Except.bind]
  · by_cases hlen : (utf8 value).length = 64
    · have heven := even_of_length hlen
      simp only [Safe, ne_eq, decodeSha256_fault, decodeSha256_eq_ok, hlen, true_and, digits_iff heven,
        ← (decodePairs_ok heven).1, not_or]
      refine and_congr_right fun _ => ?_
      constructor
      · rintro hiff ⟨⟨digest, hdigest⟩, hplus⟩
        exact ((hiff digest).mp hdigest).2 hplus
      · intro hnone digest
        exact ⟨fun hdigest => ⟨hdigest, fun hplus => hnone ⟨⟨digest, hdigest⟩, hplus⟩⟩, And.left⟩
    · simp [Safe, decodeSha256_fault, decodeSha256_eq_ok, hlen]
  · obtain ⟨hlen, hread⟩ := decodeSha256_eq_ok.mp h
    obtain ⟨hlen', hread'⟩ := decodeSha256_eq_ok.mp h'
    rw [(digits_iff (even_of_length hlen)).mpr ⟨hread, hplus⟩, (digits_iff (even_of_length hlen')).mpr ⟨hread', hplus'⟩]

def oneCredential (credentialSha256 : String) : RegistrySnapshotWire where
  schemaVersion := 1
  revision := 1
  credentials := [⟨credentialSha256, true, ⟨.workload, "issuer", "subject"⟩, [], [.operationsRead]⟩]

/-- Two letters in one pair: no pair cuts them, and none is a number. -/
def accentedDigest : String := String.join (replicate 32 "é")

theorem accented_registry_refused :
    Safe (RegistrySnapshot.parse (fun _ => .ok (oneCredential accentedDigest)) []) := by
  refine ((digests_read_iff _ fun _ => safe_ok _).1 []).mpr ?_
  rintro wire ⟨⟩ - - - ⟨-, hcut | ⟨hnumerals, -⟩⟩
  · exact absurd ((decodePairs_fault _).mpr hcut) (by decide +kernel)
  · exact absurd hnumerals (by decide +kernel)

def cutDigest : String := "€" ++ String.join (replicate 61 "0")

theorem signs_and_cut_characters :
    decodeSha256 (String.join (replicate 32 "+f")) = .ok (replicate 32 0x0f) ∧
    RegistrySnapshot.parse (fun _ => .ok (oneCredential cutDigest)) [] = .error .fault := by
  have hcut : decodeSha256 cutDigest = .error .fault := by decide +kernel
  refine ⟨by decide +kernel, ?_⟩
  simp [RegistrySnapshot.parse, oneCredential, context, maxCredentials, parseGrant, hcut, bind, Except.bind]

end Mappf.Abashiri
