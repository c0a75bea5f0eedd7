import Mappf.Lib.HashMap
import Mappf.Lib.Word
import Mappf.Lib.Text

/-! # The style catalog

`style_catalog.rs`: which revision of a style is current, which ones are accepted, and when a style
is fetched again. Every method holds the lock for its whole body and ignores poisoning, so a method
is a function of the state, and a panic keeps what was written before it. The clock is passed in.
Instants and durations are nanoseconds; `u64` versions are machine words, counters are naturals
below `2 ^ 64`. -/
namespace Mappf.Styles

structure StyleId where
  value : String
  deriving DecidableEq

structure StyleRevision where
  id : StyleId
  version : UInt64
  deriving DecidableEq

abbrev Instant := ℕ
abbrev Duration := ℕ

/-- `Instant + Duration`, which panics when the seconds leave an `i64`. -/
def Instant.add (instant : Instant) (duration : Duration) : Option Instant :=
  if instant + duration < 2 ^ 63 * 10 ^ 9 then some (instant + duration) else none

def minStyleRevalidateInterval : Duration := 10 * 10 ^ 9
def maxRevalidationGenerations : ℕ := 4096
def maxPendingStyleHints : ℕ := 4096
def styleRevisionGossipSlots : ℕ := 16
def maxStyleRevisionGossipBytes : ℕ := 1024
def reservedVersionBit : UInt64 := (1 : UInt64) <<< 63
def initialStyleVersion : UInt64 := 1

inductive Panic
  /-- "overflow when adding duration to instant" -/
  | instantOverflow
  /-- "validated style and hint ids fit the gossip envelope" -/
  | gossipEnvelope
  deriving DecidableEq

/-! ## Observations on the wire -/

structure StyleRevisionObservation where
  schemaVersion : ℕ
  hintId : String
  styleId : String
  version : UInt64

/-- What the catalog takes from libraries: the first two bytes of SHA-256 and the JSON text of a string. -/
structure Wire where
  digest : String → ℕ
  json : JsonWriter

def stableRevisionSlot (digest : String → ℕ) (hintId : String) : ℕ := digest hintId % styleRevisionGossipSlots

def styleRevisionGossipKey (slot : ℕ) : String :=
  "observed-style-revision-v1-" ++ (if slot < 10 then "0" else "") ++ toString slot

namespace StyleRevisionObservation

def new (hintId : String) (styleId : StyleId) (version : UInt64) : StyleRevisionObservation :=
  ⟨1, hintId, styleId.value, version⟩

/-- `serde_json::to_string`: the fields in declaration order, without blanks. -/
def toJson (json : JsonWriter) (observation : StyleRevisionObservation) : String :=
  "\x7b\"schema_version\":" ++ toString observation.schemaVersion ++ ",\"hint_id\":" ++ json.write observation.hintId ++
    ",\"style_id\":" ++ json.write observation.styleId ++
    ",\"version\":" ++ toString observation.version.toNat ++ "\x7d"

def encode (json : JsonWriter) (observation : StyleRevisionObservation) : Option String :=
  if observation.schemaVersion ≠ 1 ∨ observation.hintId.isEmpty ∨ observation.styleId.isEmpty ∨
      observation.version &&& reservedVersionBit = 0 then none
  else if (observation.toJson json).utf8ByteSize ≤ maxStyleRevisionGossipBytes then some (observation.toJson json)
  else none

def gossipKey (digest : String → ℕ) (observation : StyleRevisionObservation) : String :=
  styleRevisionGossipKey (stableRevisionSlot digest observation.hintId)

end StyleRevisionObservation

/-! ## State -/

structure ObservedStyle where
  version : UInt64
  previous : Option UInt64
  bootstrap : Option UInt64
  lastObservedAt : Instant
  revalidateAfter : Instant
  pendingRevalidation : Bool

structure ClusterObservedStyle where
  version : UInt64
  previous : Option UInt64

structure StyleDefinition where
  styleUrl : String
  version : UInt64

structure RevalidationFence where
  generation : Option ℕ
  requests : ℕ
  deriving DecidableEq

inductive RevalidationRequest
  | accepted
  | acceptedWithoutFence
  | alreadyDue

structure StyleCatalogInner where
  byId : HashMap StyleId StyleDefinition := ∅
  observed : HashMap StyleId ObservedStyle := ∅
  clusterObserved : HashMap StyleId ClusterObservedStyle := ∅
  pendingHints : HashMap StyleId String := ∅
  revisionAnnouncements : HashMap ℕ (String × String) := ∅
  revalidationGenerations : HashMap StyleId ℕ := ∅
  revalidationRequests : ℕ := 0
  namespaceTemplates : HashMap String String := ∅
  defaultTemplate : Option String := none

structure StyleCatalog where
  inner : StyleCatalogInner := {}
  minimumRevalidationInterval : Duration := minStyleRevalidateInterval

def splitOnce (s : String) (separator : Char) : Option (String × String) :=
  match s.toList.dropWhile (· ≠ separator) with
  | [] => none
  | _ :: rest => some (String.ofList (s.toList.takeWhile (· ≠ separator)), String.ofList rest)

/-! ## Queries -/

namespace StyleCatalogInner

variable (inner : StyleCatalogInner) (styleId : StyleId)

def templateFor : Option (String × String) :=
  match splitOnce styleId.value '/' with
  | some (styleNamespace, rest) =>
    match inner.namespaceTemplates.lookup styleNamespace with
    | some template => some (template, rest)
    | none => inner.defaultTemplate.map (fun template => (template, styleId.value))
  | none => inner.defaultTemplate.map (fun template => (template, styleId.value))

/-- The version before any content was observed; both readers of it spell it out. -/
def configuredVersion : Option UInt64 :=
  ((inner.byId.lookup styleId).map StyleDefinition.version).or
    ((inner.templateFor styleId).map (fun _ => initialStyleVersion))

def latestVersion : Option UInt64 :=
  ((inner.clusterObserved.lookup styleId).map ClusterObservedStyle.version).or
    (((inner.observed.lookup styleId).map ObservedStyle.version).or (inner.configuredVersion styleId))

def acceptsVersion (version : UInt64) : Bool :=
  (inner.clusterObserved.lookup styleId).any
      (fun observed => observed.version = version || observed.previous = some version) ||
    (inner.observed.lookup styleId).any
      (fun observed => observed.version = version || observed.previous = some version ||
        observed.bootstrap = some version) ||
    (!inner.clusterObserved.contains styleId && !inner.observed.contains styleId &&
      inner.latestVersion styleId = some version)

def needsRevalidation (now : Instant) : Bool :=
  (inner.clusterObserved.lookup styleId).any
      (fun cluster => (inner.observed.lookup styleId).all (fun observed => observed.version ≠ cluster.version)) ||
    (inner.observed.lookup styleId).all (fun observed => observed.revalidateAfter ≤ now)

def hasPendingRevalidation : Bool :=
  inner.pendingHints.contains styleId ||
    (inner.observed.lookup styleId).any ObservedStyle.pendingRevalidation

def isCurrentClusterRevision (revision : StyleRevision) : Bool :=
  (inner.clusterObserved.lookup revision.id).any (fun observed => observed.version = revision.version)

def hintIsImpossibleSince (fence : RevalidationFence) : Bool :=
  inner.revalidationRequests = fence.requests

/-! ## Parts of the transitions -/

/-- `fetch_is_current`: no hint at all since the fence, or the style's own entry is unchanged. -/
def fetchIsCurrent (fence : RevalidationFence) : Bool :=
  if inner.hintIsImpossibleSince fence then true
  else
    match inner.revalidationGenerations.lookup styleId with
    | some current => some current = fence.generation
    | none => false

/-- The local entry after a fetch of `version`, and whether the version changed. -/
def observe (version : UInt64) (observedAt revalidateAfter : Instant) (current : Bool) : ObservedStyle × Bool :=
  match inner.observed.lookup styleId with
  | some observed =>
    if observed.version = version then
      ({ observed with
          lastObservedAt := observedAt, revalidateAfter := revalidateAfter, pendingRevalidation := !current }, false)
    else
      ({ version := version, previous := some observed.version, bootstrap := none,
         lastObservedAt := observedAt, revalidateAfter := revalidateAfter, pendingRevalidation := !current }, true)
  | none =>
    ({ version := version, previous := none, bootstrap := (inner.configuredVersion styleId).filter (· ≠ version),
       lastObservedAt := observedAt, revalidateAfter := revalidateAfter, pendingRevalidation := !current }, true)

/-- What a current fetch does to the peer entry: it answers the pending hint, or drops an entry that
names another version. -/
def settleHint (wire : Wire) (version : UInt64) : StyleCatalogInner × Except Panic Unit :=
  match inner.pendingHints.lookup styleId with
  | some hintId =>
    let inner := { inner with pendingHints := inner.pendingHints.erase styleId }
    let observation := StyleRevisionObservation.new hintId styleId version
    let slot := stableRevisionSlot wire.digest observation.hintId
    match observation.encode wire.json with
    | none => (inner, .error .gossipEnvelope)
    | some encoded =>
      ({ inner with
          revisionAnnouncements := inner.revisionAnnouncements.insert slot (observation.gossipKey wire.digest, encoded)
          clusterObserved := inner.clusterObserved.insert styleId ⟨version, none⟩ }, .ok ())
  | none =>
    if (inner.clusterObserved.lookup styleId).any (fun cluster => cluster.version ≠ version) then
      ({ inner with clusterObserved := inner.clusterObserved.erase styleId }, .ok ())
    else (inner, .ok ())

/-- Remembers the hint id while there is room; a plain request has none to remember. -/
def storeHint (hintId : Option String) : StyleCatalogInner × Bool :=
  match hintId with
  | none => (inner, true)
  | some hintId =>
    if inner.pendingHints.contains styleId || inner.pendingHints.len < maxPendingStyleHints then
      ({ inner with pendingHints := inner.pendingHints.insert styleId hintId }, true)
    else (inner, false)

def advanceGeneration : StyleCatalogInner × RevalidationRequest :=
  match inner.revalidationGenerations.lookup styleId with
  | some generation =>
    ({ inner with
        revalidationGenerations := inner.revalidationGenerations.insert styleId (wrappingAdd generation 1) }, .accepted)
  | none =>
    if inner.revalidationGenerations.len < maxRevalidationGenerations then
      ({ inner with revalidationGenerations := inner.revalidationGenerations.insert styleId 1 }, .accepted)
    else (inner, .acceptedWithoutFence)

end StyleCatalogInner

/-! ## Methods -/

namespace StyleCatalog

variable (catalog : StyleCatalog)

def withMinimumRevalidationInterval (interval : Duration) : StyleCatalog :=
  { minimumRevalidationInterval := interval }

def upsertDefinition (styleId : StyleId) (definition : StyleDefinition) : StyleCatalog :=
  { catalog with inner := { catalog.inner with byId := catalog.inner.byId.insert styleId definition } }

def setUrlTemplate (template : String) : StyleCatalog :=
  { catalog with inner := { catalog.inner with defaultTemplate := some template } }

def addNamespaceTemplate (styleNamespace template : String) : StyleCatalog :=
  { catalog with
    inner := { catalog.inner with
      namespaceTemplates := catalog.inner.namespaceTemplates.insert styleNamespace template } }

/-- The setters that registration and start-up use. -/
inductive Configuration
  | upsertDefinition (styleId : StyleId) (definition : StyleDefinition)
  | setUrlTemplate (template : String)
  | addNamespaceTemplate (styleNamespace template : String)

def configure : Configuration → StyleCatalog
  | .upsertDefinition styleId definition => catalog.upsertDefinition styleId definition
  | .setUrlTemplate template => catalog.setUrlTemplate template
  | .addNamespaceTemplate styleNamespace template => catalog.addNamespaceTemplate styleNamespace template

def resolveLatest (styleId : StyleId) : Option UInt64 := catalog.inner.latestVersion styleId

def observedVersion (styleId : StyleId) : Option UInt64 :=
  (catalog.inner.observed.lookup styleId).map ObservedStyle.version

def needsRevalidation (now : Instant) (styleId : StyleId) : Bool := catalog.inner.needsRevalidation styleId now

def acceptsRevision (revision : StyleRevision) : Bool :=
  catalog.inner.acceptsVersion revision.id revision.version

def isBootstrapRevision (revision : StyleRevision) : Bool :=
  (catalog.inner.observed.lookup revision.id).any (fun observed => observed.bootstrap = some revision.version)

def definitionForRevision (revision : StyleRevision) : Option StyleDefinition :=
  if !catalog.inner.acceptsVersion revision.id revision.version then none
  else
    match catalog.inner.byId.lookup revision.id with
    | some definition => some ⟨definition.styleUrl, revision.version⟩
    | none =>
      (catalog.inner.templateFor revision.id).map (fun (template, subst) =>
        ⟨template.replace "\x7bstyle_id\x7d" subst, revision.version⟩)

def revalidationFence (styleId : StyleId) : RevalidationFence where
  generation := catalog.inner.revalidationGenerations.lookup styleId
  requests := catalog.inner.revalidationRequests

def revalidationBlocksOutputCache (now : Instant) (revision : StyleRevision) : Bool :=
  !catalog.inner.isCurrentClusterRevision revision &&
    (catalog.inner.hasPendingRevalidation revision.id || catalog.inner.needsRevalidation revision.id now)

def recordObservedForGeneration (wire : Wire) (now : Instant) (styleId : StyleId) (version : UInt64)
    (servedFreshness : Duration) (fence : RevalidationFence) : StyleCatalog × Except Panic Bool :=
  match Instant.add now (max servedFreshness catalog.minimumRevalidationInterval),
      Instant.add now catalog.minimumRevalidationInterval with
  | some fullFreshness, some stayDue =>
    let current := catalog.inner.fetchIsCurrent styleId fence
    let revalidateAfter := if current then fullFreshness else stayDue
    let (observed, changed) := catalog.inner.observe styleId version now revalidateAfter current
    let inner := { catalog.inner with observed := catalog.inner.observed.insert styleId observed }
    if current then
      let (inner, settled) := inner.settleHint styleId wire version
      ({ catalog with inner := inner }, settled.map (fun _ => changed))
    else ({ catalog with inner := inner }, .ok changed)
  | _, _ => (catalog, .error .instantOverflow)

def requestRevalidationInner (styleId : StyleId) (hintId : Option String) :
    StyleCatalog × Except Panic RevalidationRequest :=
  let inner := { catalog.inner with revalidationRequests := wrappingAdd catalog.inner.revalidationRequests 1 }
  let (inner, hintStored) := inner.storeHint styleId hintId
  match inner.observed.lookup styleId with
  | none =>
    ({ catalog with inner := inner }, .ok (if hintStored then .alreadyDue else .acceptedWithoutFence))
  | some observed =>
    match Instant.add observed.lastObservedAt catalog.minimumRevalidationInterval with
    | none => ({ catalog with inner := inner }, .error .instantOverflow)
    | some earliest =>
      let (inner, outcome) := inner.advanceGeneration styleId
      let observed := { observed with
        revalidateAfter := min observed.revalidateAfter earliest, pendingRevalidation := true }
      ({ catalog with inner := { inner with observed := inner.observed.insert styleId observed } },
        .ok (if hintStored then outcome else .acceptedWithoutFence))

def requestRevalidationForHint (styleId : StyleId) (hintId : String) :
    StyleCatalog × Except Panic RevalidationRequest :=
  catalog.requestRevalidationInner styleId (some hintId)

def applyClusterObservation (json : JsonWriter) (observation : StyleRevisionObservation) : StyleCatalog × Bool :=
  let styleId : StyleId := ⟨observation.styleId⟩
  if (observation.encode json).isNone then (catalog, false)
  else if catalog.inner.pendingHints.lookup styleId ≠ some observation.hintId then (catalog, false)
  else
    let previous := (catalog.inner.latestVersion styleId).filter (· ≠ observation.version)
    ({ catalog with
        inner := { catalog.inner with
          clusterObserved := catalog.inner.clusterObserved.insert styleId ⟨observation.version, previous⟩
          pendingHints := catalog.inner.pendingHints.erase styleId } }, previous.isSome)

end StyleCatalog

def demoStyle : StyleId := ⟨"demo/basic"⟩

def demoWire : Wire := ⟨fun _ => 0, .minimal⟩

/-- Content versions have the reserved bit set. -/
def contentVersion (n : UInt64) : UInt64 := reservedVersionBit ||| n

/-! ## Versions of style content

`style_content_version`: a digest of the style document, with the caller's access token taken out of its URLs. JSON,
URLs and SHA-256 are libraries. -/

/-- `serde_json::Value`; a number is kept as its text. -/
inductive JsonValue
  | null
  | bool (value : Bool)
  | number (text : String)
  | string (value : String)
  | array (values : List JsonValue)
  | object (values : List (String × JsonValue))

structure ContentLibraries where
  /-- `serde_json::from_str`, or the text of its error. -/
  fromStr : String → Except String JsonValue
  /-- `serde_json::to_vec`. -/
  toVec : JsonValue → Option Bytes
  /-- The query pairs of a text that `Url::parse` reads. -/
  queryPairs : String → Option (List (String × String))
  /-- A URL with other query pairs. -/
  extendPairs : String → List (String × String) → String
  sha256 : Bytes → Bytes

namespace ContentLibraries

variable (libraries : ContentLibraries)

def normalizeCredentialUrl (value : String) : String :=
  if "access_token".toList <:+: value.toList then
    match libraries.queryPairs value with
    | none => value
    | some pairs =>
      let retained := pairs.filter (fun pair => pair.1 ≠ "access_token")
      if retained.length = pairs.length then value else libraries.extendPairs value retained
  else value

mutual

def normalizeCredentialUrls : JsonValue → JsonValue
  | .array values => .array (normalizeValues values)
  | .object values => .object (normalizeFields values)
  | .string value => .string (libraries.normalizeCredentialUrl value)
  | .null => .null
  | .bool value => .bool value
  | .number text => .number text

def normalizeValues : List JsonValue → List JsonValue
  | [] => []
  | value :: values => normalizeCredentialUrls value :: normalizeValues values

def normalizeFields : List (String × JsonValue) → List (String × JsonValue)
  | [] => []
  | (name, value) :: values => (name, normalizeCredentialUrls value) :: normalizeFields values

end

/-- What is hashed; a text that is not JSON is hashed as it is. -/
def canonical (styleJson : String) : Bytes :=
  match libraries.fromStr styleJson with
  | .ok style => (libraries.toVec (libraries.normalizeCredentialUrls style)).getD (utf8 styleJson)
  | .error _ => utf8 styleJson

def styleContentVersion (styleJson : String) : UInt64 :=
  UInt64.ofNat (leDecode ((libraries.sha256 (libraries.canonical styleJson)).take 8).reverse) ||| reservedVersionBit

end ContentLibraries

end Mappf.Styles
