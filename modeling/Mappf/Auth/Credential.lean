import Mappf.Lib.Fallible
import Mappf.Lib.Text

/-! # Delivery credentials

`credential.rs`: where a request presents its token, what a token looks like, and the digests made of it.
SHA-256 and the form decoder are parameters. -/
namespace Mappf.Auth
open List

def maxRegistryIdBytes : ℕ := 64
def maxCredentialBytes : ℕ := 4096
def digestDomain : Bytes := utf8 "mmpf-object-store-auth-v1\x00"
def cachePartitionDomain : Bytes := utf8 "mmpf-delivery-cache-partition-v1\x00"
def anonymousCachePartitionDomain : Bytes := utf8 "mmpf-delivery-anonymous-cache-partition-v1\x00"

inductive AuthFailure
  | invalidCredential
  | forbidden
  | unavailable
  deriving DecidableEq

inductive HeaderName
  | authorization
  | origin
  | referer
  deriving DecidableEq

/-- The values `get_all` returns for a name, each as the text `to_str` reads in it. -/
abbrev HeaderMap := HeaderName → List (Option String)

structure PresentedCredential where
  value : String
  fromQuery : Bool

def bearerToken (headers : HeaderMap) : Except AuthFailure (Option String) :=
  match headers .authorization with
  | [] => .ok none
  | [value] =>
    match value.bind (splitOnce ' ') with
    | none => .error .invalidCredential
    | some (scheme, token) =>
      if !eqIgnoreAsciiCase scheme "bearer" || token.isEmpty || token.toList.any isWhitespace then
        .error .invalidCredential
      else .ok (some token)
  | _ :: _ :: _ => .error .invalidCredential

def accessTokenLoop : Option String → List (String × String) → Except AuthFailure (Option String)
  | token, [] => .ok token
  | token, (key, value) :: pairs =>
    if key ≠ "access_token" then accessTokenLoop token pairs
    else if token.isSome then .error .invalidCredential
    else accessTokenLoop (some value) pairs

def accessTokenFromQuery (parseForm : Bytes → List (String × String)) (query : Option String) :
    Except AuthFailure (Option String) :=
  match query with
  | none => .ok none
  | some query => accessTokenLoop none (parseForm (utf8 query))

def deliveryToken (parseForm : Bytes → List (String × String)) (headers : HeaderMap) (query : Option String) :
    Except AuthFailure (Option PresentedCredential) := do
  let bearer ← bearerToken headers
  let query ← accessTokenFromQuery parseForm query
  match bearer, query with
  | some _, some _ => .error .invalidCredential
  | some token, none => .ok (some { value := token, fromQuery := false })
  | none, some token => .ok (some { value := token, fromQuery := true })
  | none, none => .ok none

/-- `catalog.rs` -/
def validateRegistryId (registryId : String) : Fallible Unit :=
  if registryId.isEmpty || maxRegistryIdBytes < registryId.utf8ByteSize then
    bail "auth registry id must contain 1..=64 bytes"
  else if !(utf8 registryId).all (fun byte =>
      (97 ≤ byte && byte ≤ 122) || (48 ≤ byte && byte ≤ 57) || byte == 45 || byte == 95) then
    bail "auth registry id must use lowercase ASCII letters, digits, `-`, or `_`"
  else .ok ()

def wellFormedCredential (credential : String) : Bool :=
  !(credential.isEmpty || maxCredentialBytes < credential.utf8ByteSize ||
    (utf8 credential).any (fun byte => isAsciiControl byte || isAsciiWhitespace byte))

def parseTokenEnvelope (token : String) : Except AuthFailure (String × String) :=
  match splitOnce '.' token with
  | none => .error .invalidCredential
  | some (registryId, credential) =>
    match validateRegistryId registryId with
    | .error _ => .error .invalidCredential
    | .ok () => if wellFormedCredential credential then .ok (registryId, credential) else .error .invalidCredential

/-! ## Digests -/

/-- A text behind its length, as every digest frames it. -/
def framed (text : String) : Bytes := beEncode64 (UInt64.ofNat text.utf8ByteSize) ++ utf8 text

variable (sha256 : Bytes → Bytes)

def namespacedDigest (domain : Bytes) (registryId credential : String) : Bytes :=
  sha256 (domain ++ framed registryId ++ framed credential)

def credentialDigest (registryId credential : String) : Bytes :=
  namespacedDigest sha256 digestDomain registryId credential

def credentialCachePartition (registryId credential : String) (registryRevision : UInt64) : Bytes :=
  sha256 (cachePartitionDomain ++ beEncode64 registryRevision ++ framed registryId ++ framed credential)

def anonymousCachePartition (registryId : String) (registryRevision : UInt64) : Bytes :=
  sha256 (anonymousCachePartitionDomain ++ beEncode64 registryRevision ++ framed registryId)

def decodeLowerHex (byte : UInt8) : Fallible UInt8 :=
  if 48 ≤ byte && byte ≤ 57 then .ok (byte - 48)
  else if 97 ≤ byte && byte ≤ 102 then .ok (byte - 97 + 10)
  else bail "credential_sha256 must use lowercase hexadecimal"

def decodeHexPairs : Bytes → Fallible Bytes
  | high :: low :: rest => do
    let high ← decodeLowerHex high
    let low ← decodeLowerHex low
    let rest ← decodeHexPairs rest
    .ok ((high <<< 4 ||| low) :: rest)
  | _ => .ok []

def decodeSha256 (value : String) : Fallible Bytes :=
  if value.utf8ByteSize ≠ 64 then bail "credential_sha256 must be 64 lowercase hexadecimal characters"
  else decodeHexPairs (utf8 value)

/-! ## What a request presents -/

def accessTokens (parseForm : Bytes → List (String × String)) (query : Option String) : List String :=
  match query with
  | none => []
  | some query => ((parseForm (utf8 query)).filter (fun pair => pair.1 = "access_token")).map Prod.snd

def IsBearer (value : Option String) (token : String) : Prop :=
  ∃ scheme, value = some (scheme ++ " " ++ token) ∧ ' ' ∉ scheme.toList ∧
    eqIgnoreAsciiCase scheme "bearer" = true ∧ token ≠ "" ∧ ∀ c ∈ token.toList, isWhitespace c = false

/-- Exactly one credential is presented, and it is `token`: as the only authorization header with no
`access_token`, or as the only `access_token` with no authorization header. -/
def PresentsOnly (parseForm : Bytes → List (String × String)) (headers : HeaderMap) (query : Option String)
    (token : String) (fromQuery : Bool) : Prop :=
  if fromQuery = true then headers .authorization = [] ∧ accessTokens parseForm query = [token]
  else (∃ value, headers .authorization = [value] ∧ IsBearer value token) ∧ accessTokens parseForm query = []

theorem accessTokenLoop_eq (token : Option String) (pairs : List (String × String)) : accessTokenLoop token pairs =
      match token.toList ++ (pairs.filter (fun pair => pair.1 = "access_token")).map Prod.snd with
      | [] => .ok none
      | [value] => .ok (some value)
      | _ :: _ :: _ => .error .invalidCredential := by
  induction pairs generalizing token with
  | nil => cases token <;> rfl
  | cons pair pairs ih =>
    obtain ⟨key, value⟩ := pair
    rw [accessTokenLoop]
    by_cases hkey : key = "access_token"
    · rw [if_neg (by simpa using hkey), filter_cons_of_pos (by simpa using hkey), map_cons]
      cases token with
      | none => simpa using ih (some value)
      | some token => simp
    · rw [if_pos hkey, filter_cons_of_neg (by simpa using hkey)]
      exact ih token

variable {parseForm : Bytes → List (String × String)} {query : Option String} {token : String} {headers : HeaderMap}
  {reg cred : String}

theorem accessTokenFromQuery_eq_ok {token : Option String} (h : accessTokenFromQuery parseForm query = .ok token) :
    accessTokens parseForm query = token.toList := by
  cases query with
  | none =>
    cases h
    rfl
  | some query =>
    rw [accessTokenFromQuery, accessTokenLoop_eq] at h
    split at h <;> cases h
    · assumption
    · assumption

theorem bearerToken_eq_none (h : bearerToken headers = .ok none) : headers .authorization = [] := by
  unfold bearerToken at h
  split at h
  · assumption
  · split at h
    · cases h
    · split_ifs at h
      cases h
  · cases h

theorem bearerToken_eq_some (h : bearerToken headers = .ok (some token)) :
    ∃ value, headers .authorization = [value] ∧ IsBearer value token := by
  unfold bearerToken at h
  split at h
  case h_1 | h_3 => cases h
  case h_2 value hhdr =>
    split at h
    case h_1 => cases h
    case h_2 scheme token' hsplit =>
      split_ifs at h with hshape
      cases h
      obtain ⟨text, htext, hcut⟩ := Option.bind_eq_some_iff.mp hsplit
      obtain ⟨rfl, hfree⟩ := splitOnce_eq_some hcut
      simp only [Bool.or_eq_true, Bool.not_eq_true', not_or, Bool.not_eq_false, any_eq_true, not_exists,
        not_and, Bool.not_eq_true, String.isEmpty_iff] at hshape
      exact ⟨value, hhdr, scheme, htext, hfree, hshape.1.1, hshape.1.2, hshape.2⟩

theorem deliveryToken_eq_ok {token : Option PresentedCredential} (h : deliveryToken parseForm headers query = .ok token) :
    token.elim (headers .authorization = [] ∧ accessTokens parseForm query = [])
      (fun presented => PresentsOnly parseForm headers query presented.value presented.fromQuery) := by
  obtain ⟨bearer, hbearer, h⟩ := bind_eq_ok.mp h
  obtain ⟨parameter, hparam, h⟩ := bind_eq_ok.mp h
  have htokens := accessTokenFromQuery_eq_ok hparam
  cases bearer with
  | some bearer =>
    cases parameter with
    | some _ => cases h
    | none =>
      cases h
      exact ⟨bearerToken_eq_some hbearer, htokens⟩
  | none =>
    cases parameter with
    | some _ | none =>
      cases h
      exact ⟨bearerToken_eq_none hbearer, htokens⟩

theorem parseTokenEnvelope_eq_ok (h : parseTokenEnvelope token = .ok (reg, cred)) :
    token = reg ++ "." ++ cred ∧ '.' ∉ reg.toList ∧ validateRegistryId reg = .ok () ∧
      wellFormedCredential cred = true := by
  unfold parseTokenEnvelope at h
  split at h
  case h_1 => cases h
  case h_2 reg' cred' hsplit =>
    obtain ⟨htoken, hfree⟩ := splitOnce_eq_some hsplit
    split at h
    case h_1 => cases h
    case h_2 hvalid =>
      split_ifs at h with hwell
      cases h
      exact ⟨htoken, hfree, hvalid, hwell⟩

/-! ## Digests determine what they frame -/

theorem registryId_size (h : validateRegistryId reg = .ok ()) : reg.utf8ByteSize < 2 ^ 64 := by
  by_contra hlarge
  have hlong : maxRegistryIdBytes < reg.utf8ByteSize := by unfold maxRegistryIdBytes; omega
  rw [validateRegistryId, if_pos (by rw [decide_eq_true hlong, Bool.or_true])] at h
  cases h

theorem credential_size (h : wellFormedCredential cred = true) : cred.utf8ByteSize < 2 ^ 64 := by
  by_contra hlarge
  have hlong : maxCredentialBytes < cred.utf8ByteSize := by unfold maxCredentialBytes; omega
  simp [wellFormedCredential, decide_eq_true hlong, Bool.or_true, Bool.true_or] at h

/-- Framed texts can be told apart whatever follows them. -/
theorem framed_append_injective {a b : String} {x y : Bytes} (ha : a.utf8ByteSize < 2 ^ 64)
    (hb : b.utf8ByteSize < 2 ^ 64) (h : framed a ++ x = framed b ++ y) : a = b ∧ x = y := by
  unfold framed at h
  rw [append_assoc, append_assoc] at h
  obtain ⟨hlen, hrest⟩ := append_inj h (by simp)
  have hsize : a.utf8ByteSize = b.utf8ByteSize := by
    have hnat := congrArg UInt64.toNat (beEncode64_injective hlen)
    rwa [UInt64.toNat_ofNat_of_lt' ha, UInt64.toNat_ofNat_of_lt' hb] at hnat
  obtain ⟨htext, htail⟩ := append_inj hrest (by rw [utf8_length, utf8_length, hsize])
  exact ⟨utf8_injective htext, htail⟩

section Partitions

variable {sha256 : Bytes → Bytes} (hsha : Function.Injective sha256) {reg' : String}
  {revision revision' : UInt64} (hid : reg.utf8ByteSize < 2 ^ 64) (hid' : reg'.utf8ByteSize < 2 ^ 64)

include hsha hid hid'

theorem credentialCachePartition_injective {cred' : String}
    (hcred : cred.utf8ByteSize < 2 ^ 64) (hcred' : cred'.utf8ByteSize < 2 ^ 64)
    (h : credentialCachePartition sha256 reg cred revision = credentialCachePartition sha256 reg' cred' revision') :
    reg = reg' ∧ revision = revision' ∧ cred = cred' := by
  have hmsg := hsha h
  rw [append_assoc, append_assoc, append_assoc, append_assoc] at hmsg
  obtain ⟨hrev, hrest⟩ := append_inj (append_cancel_left hmsg) (by simp)
  obtain ⟨hreg, hrest⟩ := framed_append_injective hid hid' hrest
  have hlast : framed cred ++ [] = framed cred' ++ [] := by rw [hrest]
  exact ⟨hreg, beEncode64_injective hrev, (framed_append_injective hcred hcred' hlast).1⟩

theorem anonymousCachePartition_injective
    (h : anonymousCachePartition sha256 reg revision = anonymousCachePartition sha256 reg' revision') :
    reg = reg' ∧ revision = revision' := by
  have hmsg := hsha h
  rw [append_assoc, append_assoc] at hmsg
  obtain ⟨hrev, hrest⟩ := append_inj (append_cancel_left hmsg) (by simp)
  have hlast : framed reg ++ [] = framed reg' ++ [] := by rw [hrest]
  exact ⟨(framed_append_injective hid hid' hlast).1, beEncode64_injective hrev⟩

end Partitions

/-- The two domains differ in their fifteenth byte. -/
theorem partition_domains_differ {sha256 : Bytes → Bytes} (hsha : Function.Injective sha256)
    (reg reg' cred : String) (revision revision' : UInt64) :
    credentialCachePartition sha256 reg cred revision ≠
      anonymousCachePartition sha256 reg' revision' := by
  intro h
  have hbyte := congrArg (fun message : Bytes => message[14]?) (hsha h)
  have hleft : cachePartitionDomain[14]? = some 99 := by decide +kernel
  have hright : anonymousCachePartitionDomain[14]? = some 97 := by decide +kernel
  have hlen : 14 < cachePartitionDomain.length := by decide +kernel
  have hlen' : 14 < anonymousCachePartitionDomain.length := by decide +kernel
  simp only [append_assoc] at hbyte
  rw [getElem?_append_left hlen, getElem?_append_left hlen', hleft, hright] at hbyte
  exact absurd hbyte (by decide)

end Mappf.Auth
