import Mappf.Abashiri.Mutation

/-! # Style documents and their identities

`style.rs`: where a style document is kept, what a publication asks for, what identifies its input, and what
is reported of a committed document. JSON decoding is a parameter that says whether a document is an object
and which version it declares, and so is the parser of object paths. -/
namespace Mappf.Abashiri
open List

def maxStyleBytes : ℕ := 2 * 1024 * 1024
def styleDigestDomain : Bytes := utf8 "abashiri-style-content-v1\x00"
def styleCacheControl : String := "public, max-age=300, s-maxage=3600, stale-while-revalidate=86400"
def maxStyleNamespaceBytes : ℕ := 64
def maxLocalStyleIdBytes : ℕ := 128

/-! ## Object paths -/

def stripFront (front value : String) : Option String :=
  if front.toList.isPrefixOf value.toList then some (String.ofList (value.toList.drop front.toList.length)) else none

def stripBack (back value : String) : Option String :=
  if back.toList.isSuffixOf value.toList then
    some (String.ofList (value.toList.take (value.toList.length - back.toList.length)))
  else none

def validateSegment (value : String) (maximum : ℕ) : Bool :=
  !value.isEmpty && value.utf8ByteSize ≤ maximum && (utf8 value).all isPathIdByte

/-- `StyleKey::from_segments` -/
def isStyleKey (ns styleId : String) : Bool :=
  validateSegment ns maxStyleNamespaceBytes && validateSegment styleId maxLocalStyleIdBytes

def invalidStyleKey : String := "style key must be namespace/style_id using bounded ASCII letters, digits, '-' or '_'"

def parseStyleKey (value : String) : Fallible Unit :=
  match splitOnce '/' value with
  | some (ns, styleId) =>
    if '/' ∈ styleId.toList then bail invalidStyleKey
    else if isStyleKey ns styleId then .ok () else bail invalidStyleKey
  | none => bail invalidStyleKey

inductive StyleObjectLayout
  | nested
  | flat
  deriving DecidableEq

namespace StyleObjectPath

def split (path : String) : Fallible (String × StyleObjectLayout) := do
  match stripFront "styles/" path with
  | none => bail "style object path must be under styles/"
  | some stylePath =>
    let (deliveryStyleId, layout) ←
      match stripBack "/style.json" stylePath, stripBack ".json" stylePath with
      | some styleId, _ => pure (styleId, StyleObjectLayout.nested)
      | none, some styleId => pure (styleId, StyleObjectLayout.flat)
      | none, none =>
        bail "style object path must match styles/\x7bnamespace\x7d/\x7bstyle_id\x7d/style.json or styles/\x7bnamespace\x7d/\x7bstyle_id\x7d.json"
    context "style object path must contain a canonical style key" (parseStyleKey deliveryStyleId)
    return (deliveryStyleId, layout)

end StyleObjectPath

structure StyleObjectPath where
  path : String
  deliveryStyleId : String
  layout : StyleObjectLayout
  valid : StyleObjectPath.split path = .ok (deliveryStyleId, layout)
  deriving DecidableEq

namespace StyleObjectPath

def tryNew (parsePath : String → Fallible String) (relative : String) : Fallible StyleObjectPath := do
  let path ← context "parse style object path" (parsePath relative)
  match h : split path with
  | .error failure => .error failure
  | .ok (deliveryStyleId, layout) => return { path, deliveryStyleId, layout, valid := h }

def forResource (parsePath : String → Fallible String) (account : AccountId) (style : LocalResourceId)
    (layout : StyleObjectLayout) : Fallible StyleObjectPath :=
  if isStyleKey account.value style.value then
    tryNew parsePath (match layout with
      | .nested => "styles/" ++ account.value ++ "/" ++ style.value ++ "/style.json"
      | .flat => "styles/" ++ account.value ++ "/" ++ style.value ++ ".json")
  else
    context "management account and style must form a canonical style key" (bail invalidStyleKey)

end StyleObjectPath

/-! ## Documents -/

structure JsonSummary where
  isObject : Bool
  /-- `get("version").and_then(as_u64)` -/
  version : Option UInt64

def validateStyle (decodeJson : Bytes → Option JsonSummary) (body : Bytes) : Fallible Unit :=
  if body.isEmpty then bail "style document must not be empty"
  else if maxStyleBytes < body.length then bail "style document exceeds 2097152 bytes"
  else
    match decodeJson body with
    | none => bail "decode style JSON"
    | some style =>
      if style.isObject = false then bail "style document must be a JSON object"
      else if style.version ≠ some 8 then bail "style document must declare version 8"
      else .ok ()

/-! ## Publications -/

inductive StylePrecondition
  | mustNotExist
  | mustMatch (version : VersionEvidence)

/-- Built by `PublishStyleRequest::try_new` only. -/
structure PublishStyleRequest (sha256 : Bytes → Bytes) where
  idempotencyKey : String
  actor : Actor
  target : ResourceTarget
  location : StyleObjectPath
  precondition : StylePrecondition
  body : Bytes
  contentSha256 : String
  requestId : String
  isStyle : target.kind = .style
  isContent : contentSha256 = digestHex sha256 styleDigestDomain body

def PublishStyleRequest.tryNew (sha256 : Bytes → Bytes) (decodeJson : Bytes → Option JsonSummary)
    (idempotencyKey : String) (actor : Actor) (accountId : AccountId) (styleId : LocalResourceId)
    (location : StyleObjectPath) (precondition : StylePrecondition) (body : Bytes) (requestId : String) :
    Fallible (PublishStyleRequest sha256) := do
  validateStyle decodeJson body
  return { idempotencyKey, actor, location, precondition, body, requestId
           target := { accountId, kind := .style, localId := styleId }
           contentSha256 := digestHex sha256 styleDigestDomain body
           isStyle := rfl
           isContent := rfl }

inductive StylePublishConflict
  | alreadyExists
  | preconditionFailed
  | notFound

def versionIdentity (version : VersionEvidence) : String :=
  version.eTag.getD "" ++ "\x00" ++ version.version.getD ""

def preconditionIdentity : StylePrecondition → String
  | .mustNotExist => "create"
  | .mustMatch version => "replace\x00" ++ versionIdentity version

def styleInputIdentity (location : StyleObjectPath) (precondition : StylePrecondition) (body : Bytes) : Bytes :=
  utf8 location.path ++ 0 :: (utf8 (preconditionIdentity precondition) ++ 0 :: body)

/-- The start of `publish`: the mutation that the journal is asked to execute. -/
def PublishStyleRequest.mutation {sha256 : Bytes → Bytes} (request : PublishStyleRequest sha256) :
    Except IdentityError MutationRequest := do
  let mutation ← MutationRequest.tryNew sha256 request.idempotencyKey request.actor .publish request.target
    (styleInputIdentity request.location request.precondition request.body) request.requestId
  mutation.withStateLocator request.location.path

/-! ## Committed documents -/

structure PublishedStyle where
  location : StyleObjectPath
  contentSha256 : String
  version : VersionEvidence

structure StateCommit where
  version : VersionEvidence
  response : PublishedStyle
  stateSha256 : String

structure StyleObject where
  body : Bytes
  contentType : Option String
  cacheControl : Option String
  /-- `mmpf-mutation-reference` -/
  mutation : Option String
  version : UpdateVersion

def StyleObject.written (mutationReference : String) (body : Bytes) (version : UpdateVersion) : StyleObject where
  body := body
  contentType := some "application/json"
  cacheControl := some styleCacheControl
  mutation := some mutationReference
  version := version

section commits

variable (sha256 : Bytes → Bytes) (decodeJson : Bytes → Option JsonSummary)

def styleCommit (location : StyleObjectPath) (contentSha256 : String) (version : VersionEvidence) : StateCommit where
  version := version
  response := { location, contentSha256, version }
  stateSha256 := digestHex sha256 (utf8 "abashiri-committed-state-v1\x00")
    (utf8 (location.path ++ "\x00" ++ contentSha256 ++ "\x00" ++ versionIdentity version))

def styleCommitFromPut (location : StyleObjectPath) (contentSha256 : String) (result : UpdateVersion) :
    Fallible StateCommit := do
  let version ← VersionEvidence.tryFromPut result
  return styleCommit sha256 location contentSha256 version

def styleCommitFromCurrent (current : StyleObject) (location : StyleObjectPath) (version : VersionEvidence) :
    Fallible (StateCommit × String) :=
  if current.contentType ≠ some "application/json" ∨ current.cacheControl ≠ some styleCacheControl then
    bail "style object for this mutation has invalid response attributes"
  else if maxStyleBytes < current.body.length then bail "style object for this mutation is too large"
  else do
    context "style object for this mutation is invalid" (validateStyle decodeJson current.body)
    let contentSha256 := digestHex sha256 styleDigestDomain current.body
    return (styleCommit sha256 location contentSha256 version, contentSha256)

def existingStyleCommit (current : StyleObject) (location : StyleObjectPath) (contentSha256 : String)
    (version : VersionEvidence) : Fallible StateCommit := do
  let (committed, observedSha256) ← styleCommitFromCurrent sha256 decodeJson current location version
  if observedSha256 = contentSha256 then return committed
  else bail "style object for this mutation contains different content"

end commits

/-! ## Specifications -/

theorem boundedLabel_spec {maxBytes : ℕ} {value : String} (h : boundedLabel maxBytes value = true) :
    value ≠ "" ∧ (0 : UInt8) ∉ utf8 value := by
  unfold boundedLabel at h
  simp only [Bool.not_eq_true', Bool.or_eq_false_iff, any_eq_false] at h
  obtain ⟨⟨hempty, -⟩, hctrl⟩ := h
  refine ⟨?_, zero_notMem_utf8 ?_⟩
  · rintro rfl
    exact absurd hempty (by decide)
  · intro hnul
    exact hctrl _ hnul (by decide)

theorem versionPart_spec {part : Option String} (h : part.all (boundedLabel maxVersionPartLen) = true) :
    (0 : UInt8) ∉ utf8 (part.getD "") ∧ ∀ part', Option.all (boundedLabel maxVersionPartLen) part' = true →
      part.getD "" = part'.getD "" → part = part' := by
  cases part with
  | none =>
    refine ⟨by decide +kernel, ?_⟩
    intro part' h' heq
    cases part' with
    | none => rfl
    | some value' => exact absurd heq.symm (boundedLabel_spec h').1
  | some value =>
    refine ⟨(boundedLabel_spec h).2, ?_⟩
    intro part' h' heq
    cases part' with
    | none => exact absurd heq (boundedLabel_spec h).1
    | some value' => exact congrArg some heq

theorem VersionEvidence.parts_bounded (ver : VersionEvidence) :
    ver.eTag.all (boundedLabel maxVersionPartLen) = true ∧
      ver.version.all (boundedLabel maxVersionPartLen) = true := by
  have h := ver.bounded
  simpa only [all_cons, all_nil, Bool.and_true, Bool.and_eq_true] using h

/-- For one place, the identity of an input determines the precondition and the document. -/
theorem styleInputIdentity_injective {loc loc' : StyleObjectPath} {precondition precondition' : StylePrecondition}
    {body body' : Bytes} (hpath : loc.path = loc'.path)
    (h : styleInputIdentity loc precondition body = styleInputIdentity loc' precondition' body') :
    precondition = precondition' ∧ body = body' := by
  unfold styleInputIdentity at h
  rw [hpath] at h
  have hrest := (cons_eq_cons.mp (append_cancel_left h)).2
  cases precondition with
  | mustNotExist =>
    cases precondition' with
    | mustNotExist => exact ⟨rfl, (cons_eq_cons.mp (append_cancel_left hrest)).2⟩
    | mustMatch ver' =>
      exact absurd (cons_eq_cons.mp hrest).1 (by decide)
  | mustMatch ver =>
    cases precondition' with
    | mustNotExist =>
      exact absurd (cons_eq_cons.mp hrest).1 (by decide)
    | mustMatch ver' =>
      have hnul : utf8 "\x00" = [0] := by decide +kernel
      simp only [preconditionIdentity, versionIdentity, utf8_append, hnul, append_assoc, singleton_append] at hrest
      obtain ⟨heTag, hversion⟩ := ver.parts_bounded
      obtain ⟨heTag', hversion'⟩ := ver'.parts_bounded
      obtain ⟨htag, hafter⟩ := append_cons_inj (versionPart_spec heTag).1 (versionPart_spec heTag').1
        (append_cancel_left hrest)
      obtain ⟨hver, hbody⟩ := append_cons_inj (versionPart_spec hversion).1 (versionPart_spec hversion').1 hafter
      refine ⟨congrArg StylePrecondition.mustMatch (VersionEvidence.asUpdateVersion_injective ?_), hbody⟩
      have hsameTag := (versionPart_spec heTag).2 _ heTag' (utf8_injective htag)
      have hsameVersion := (versionPart_spec hversion).2 _ hversion' (utf8_injective hver)
      rw [VersionEvidence.asUpdateVersion, VersionEvidence.asUpdateVersion, hsameTag, hsameVersion]

end Mappf.Abashiri
