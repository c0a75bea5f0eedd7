import Mappf.ChunkedStore.GenerationStore
import Mappf.Common.SingleFlight
import Mappf.Ishikari.ArchiveCache

/-! # The distributed archive reader

`reader.rs`, cut at every cache access, every election and every await: loads of a bootstrap, of a leaf directory
and of the metadata, the traversal of `get_tile`, and the retry after a generation change. Ranges are read through
the chunked store of their generation. A peer answers with bytes of whatever generation it has; a response that
fails counts as none. A call can be dropped where it awaits. -/
namespace Mappf.Ishikari

open ChunkedStore (ArchiveStore ChunkFetchError GenerationStep ObjectResponse beginRead observedRead)
open Common (SingleFlight Flight)
open Pmtiles (ArchiveBootstrap ArchiveKey ArchiveRange BootstrapTransfer Directory DirectoryWalker Header ReaderLimits
  StreamDecoder TileData TileId TileLocation minBootstrapBytes)

/-! ## Errors -/

inductive StorageError
  | notFound
  | overloaded (message : String)
  | timeout (message : String)
  | backend (message : String)
  | generationChanged
  | message (message : String)
  deriving DecidableEq

def StorageError.display : StorageError → String
  | .notFound => "archive not found"
  | .generationChanged => "archive generation changed while reading"
  | .overloaded text | .timeout text | .backend text | .message text => text

def storageError : ChunkFetchError → StorageError
  | .notFound => .notFound
  | .overloaded message => .overloaded message
  | .timeout message => .timeout message
  | .backend message => .backend message
  | .generationChanged => .generationChanged
  | .message message => .message message

/-- An error of the reader: contexts, outermost first, around a storage error, or any other failure. -/
inductive ReaderError
  | storage (contexts : List String) (error : StorageError)
  | other (failure : Failure)

def isGenerationChanged : ReaderError → Bool
  | .storage _ .generationChanged => true
  | _ => false

structure ReaderFlightError where
  message : String
  storage : Option StorageError

def ReaderFlightError.capture : ReaderError → ReaderFlightError
  | .storage contexts error => ⟨contexts.head?.getD error.display, some error⟩
  | .other (.bail chain) => ⟨String.intercalate ": " chain, none⟩
  | .other .fault => ⟨"", none⟩

def ReaderFlightError.intoError (error : ReaderFlightError) : ReaderError :=
  match error.storage with
  | none => .other (.bail [error.message])
  | some storage => if error.message = storage.display then .storage [] storage else .storage [error.message] storage

/-! ## The deployment -/

/-- The archives that exist under each generation, the libraries, and the tuning, whose chunks are not empty. -/
structure Deployment (γ μ : Type) where
  contents : String → γ → Bytes
  decoder : StreamDecoder
  /-- `serde_json::from_slice` -/
  parseMetadata : Bytes → Option μ
  defaultMetadata : μ
  chunkSize : ℕ
  chunkSize_pos : 0 < chunkSize
  maxFetchChunks : ℕ
  archiveRevalidationInterval : ℕ

def maxDecompressedBytes : UInt64 := 64 * 1024 * 1024

def readerLimits : ReaderLimits where
  bootstrapBytes := 16384
  maxRangeBytes := 64 * 1024 * 1024
  maxDirectoryDepth := 64
  maxDecompressedDirectoryBytes := maxDecompressedBytes
  maxDecompressedMetadataBytes := maxDecompressedBytes

def readChunkLimit : ℕ := 8

def enforceChunkLimit (kind : String) (start length chunkSizeBytes : ℕ) : Except String Unit :=
  match checkedAdd start length with
  | none => .error s!"invalid {kind} byte range"
  | some stop =>
    let chunkCount := ((stop - 1) / chunkSizeBytes - start / chunkSizeBytes) + 1
    if readChunkLimit < chunkCount then
      .error s!"{kind} spans too many chunks: start={start} length={length} chunks={chunkCount} limit={readChunkLimit}"
    else .ok ()

namespace Deployment

variable {γ μ : Type} (d : Deployment γ μ)

def content (key : ArchiveKey γ) : Bytes := d.contents key.tilesetId key.generation

def decodeBootstrap (bytes : Bytes) : Fallible ArchiveBootstrap :=
  Pmtiles.decodeBootstrapBytes d.decoder bytes maxDecompressedBytes

def parseDirectory (compression : Pmtiles.Compression) (bytes : Bytes) : Fallible Directory :=
  Directory.parseWithLimit d.decoder compression bytes maxDecompressedBytes

def decodeMetadata (header : Header) (bytes : Bytes) : Fallible μ := do
  let bytes ← context "failed to decompress PMTiles metadata"
    (Pmtiles.decompressBytesWithLimit d.decoder header.internalCompression bytes maxDecompressedBytes)
  match d.parseMetadata bytes with
  | some metadata => return metadata
  | none => bail "failed to parse PMTiles metadata JSON"

def metadataBytes (key : ArchiveKey γ) (header : Header) : Bytes :=
  slice (d.content key) header.metadataOffset.toNat (header.metadataOffset.toNat + header.metadataLength.toNat)

/-- `DistributedPmtilesStorage::observe_range` for a bootstrap. -/
def observeRange (tilesetId : String) (response : ObjectResponse γ) : Except StorageError (γ × Bytes) :=
  match enforceChunkLimit "observed range" 0 minBootstrapBytes d.chunkSize with
  | .error message => .error (.message message)
  | .ok () =>
    match observedRead (d.contents tilesetId) response 0 minBootstrapBytes with
    | .error error => .error (storageError error)
    | .ok observed => .ok observed

/-- A peer's bootstrap: how many bytes of which generation, and whether it sends the metadata section too. -/
structure PeerBootstrap (γ : Type) where
  generation : γ
  length : ℕ
  withMetadata : Bool

/-- `fetch_bootstrap_bytes`; a peer sends metadata only on request and only where there is some. -/
def transfer (tilesetId : String) (includeMetadata : Bool) (peer : PeerBootstrap γ) : BootstrapTransfer γ where
  generation := peer.generation
  bootstrap := (d.contents tilesetId peer.generation).take peer.length
  metadata :=
    match d.decodeBootstrap (d.contents tilesetId peer.generation) with
    | .ok archive =>
      if includeMetadata && peer.withMetadata && decide (0 < archive.header.metadataLength) then
        some (d.metadataBytes ⟨tilesetId, peer.generation⟩ archive.header)
      else none
    | .error _ => none

variable [DecidableEq γ]

/-- `route_leaf`: the response counts only under the generation asked for. -/
def fetchLeafBytes (archive : ArchiveKey γ) (offset length : ℕ) (peer : Option γ) : Option Bytes :=
  peer.bind (fun generation =>
    if generation = archive.generation then
      some (slice (d.contents archive.tilesetId generation) offset (offset + length))
    else none)

end Deployment

/-! ## Shared state and inputs -/

variable {γ μ : Type} [DecidableEq γ]

structure Reader (γ μ : Type) [DecidableEq γ] where
  cache : ArchiveCache γ μ := {}
  bootstrapInflight : SingleFlight String ReaderFlightError := {}
  metadataInflight : SingleFlight (ArchiveKey γ) ReaderFlightError := {}
  leafInflight : SingleFlight (LeafCacheKey γ) ReaderFlightError := {}
  stores : ArchiveKey γ → ArchiveStore := fun _ => {}
  now : ℕ := 0

def Reader.setStore (reader : Reader γ μ) (key : ArchiveKey γ) (store : ArchiveStore) : Reader γ μ :=
  { reader with stores := Function.update reader.stores key store }

structure Answer (γ : Type) where
  object : ObjectResponse γ := .unavailable (.timeout "")
  bootstrap : Option (Deployment.PeerBootstrap γ) := none
  leaf : Option γ := none

/-! ## Flights -/

/-- One coalesced load: `looking` is the head of its loop, `missed` the second check before the election. A guard
is dropped in two steps; without a result the leader was cancelled. -/
inductive Flying (ω α : Type)
  | looking
  | missed
  | electing
  | following (receiver : Watch.Receiver)
  | working (phase : ω)
  | releasing (result : Option (Except ReaderError α))
  | sending (sender : Option ℕ) (result : Option (Except ReaderError α))

inductive Progress (ω α : Type)
  | on (phase : Flying ω α)
  | done (result : Except ReaderError α)
  | dropped

namespace Flying

variable {κ ω α : Type} [DecidableEq κ]

/-- `complete_reader_flight` -/
def outcome (result : Option (Except ReaderError α)) : Option ReaderFlightError :=
  match result with
  | some (.error error) => some (.capture error)
  | _ => none

/-- The steps every load has in common; `start` is where a leader begins. -/
def next (flights : SingleFlight κ ReaderFlightError) (key : κ) (start : ω) :
    Flying ω α → Option (SingleFlight κ ReaderFlightError × Progress ω α)
  | .electing =>
    match flights.begin key with
    | (flights, .leader) => some (flights, .on (.working start))
    | (flights, .follower receiver) => some (flights, .on (.following receiver))
  | .following receiver =>
    match flights.wait receiver with
    | none => none
    | some (some error) => some (flights, .done (.error error.intoError))
    | some none => some (flights, .on .looking)
  | .releasing result =>
    let (flights, sender) := flights.remove key
    some (flights, .on (.sending sender result))
  | .sending sender result =>
    some (flights.finish sender (outcome result),
      match result with
      | some result => .done result
      | none => .dropped)
  | .looking | .missed | .working _ => none

def cancel (awaits : ω → Bool) : Flying ω α → Option (Progress ω α)
  | .following _ => some .dropped
  | .working phase => if awaits phase then some (.on (.releasing none)) else none
  | _ => none

end Flying

/-! ## Ranges -/

inductive RangePhase
  | opening
  | reading (read : ℕ)

inductive RangeProgress
  | on (phase : RangePhase)
  | done (result : Except StorageError Bytes)

/-- `DistributedPmtilesStorage::read_range` -/
def RangePhase.next (d : Deployment γ μ) (reader : Reader γ μ) (key : ArchiveKey γ) (start length archiveLen : ℕ) :
    RangePhase → Option (Reader γ μ × RangeProgress)
  | .opening =>
    if length = 0 then some (reader, .done (.ok []))
    else
      match enforceChunkLimit "range" start length d.chunkSize with
      | .error message => some (reader, .done (.error (.message message)))
      | .ok () =>
        let store := reader.stores key
        let read : ChunkedStore.ReadTask := ⟨start, length, beginRead archiveLen d.chunkSize start length⟩
        some (reader.setStore key { store with reads := store.reads ++ [read] }, .on (.reading store.reads.length))
  | .reading read =>
    match (reader.stores key).reads[read]? with
    | some ⟨_, _, .done (.ok out)⟩ => some (reader, .done (.ok out.bytes))
    | some ⟨_, _, .done (.error error)⟩ => some (reader, .done (.error (storageError error)))
    | _ => none

/-! ## Bootstraps -/

/-- `load_bootstrap_with_metadata`, or `load_bootstrap_local`. -/
inductive LoadMode
  | routed (includeMetadata : Bool)
  | here
  deriving DecidableEq

inductive LoadWork (γ μ : Type)
  | rechecking
  | recheckingAbsence
  | routing
  /-- `fetch_bootstrap_bytes` -/
  | asking (includeMetadata : Bool)
  /-- `load_bootstrap_local_uncached` -/
  | observing (revalidating : Bool)
  | markingAbsent
  | clearingAbsence (archive : VersionedArchive γ μ) (bootstrap : Bytes)
  | installing (archive : VersionedArchive γ μ) (bootstrap : Bytes)
  /-- `revalidate_bootstrap` after an error. -/
  | deferring (error : ReaderError)
  | readingStale (error : ReaderError)

abbrev Load (γ μ : Type) := Flying (LoadWork γ μ) (Option (VersionedArchive γ μ))

namespace Load

def start : LoadMode → LoadWork γ μ
  | .routed _ => .rechecking
  | .here => .observing false

def awaits : LoadWork γ μ → Bool
  | .asking _ | .observing _ => true
  | _ => false

def failed (revalidating : Bool) (error : ReaderError) : Load γ μ :=
  if revalidating then .working (.deferring error) else .releasing (some (.error error))

/-- `load_bootstrap_uncached` with the bytes of a peer. -/
def received (d : Deployment γ μ) (tilesetId : String) (transfer : BootstrapTransfer γ) : Load γ μ :=
  match context "failed to decode bootstrap from peer" (d.decodeBootstrap transfer.bootstrap) with
  | .error failure => .releasing (some (.error (.other failure)))
  | .ok archive =>
    match transfer.metadata with
    | none => .working (.clearingAbsence ⟨⟨tilesetId, transfer.generation⟩, archive, none⟩ transfer.bootstrap)
    | some bytes =>
      match context "failed to decode metadata from peer" (d.decodeMetadata archive.header bytes) with
      | .error failure => .releasing (some (.error (.other failure)))
      | .ok metadata =>
        .working (.clearingAbsence ⟨⟨tilesetId, transfer.generation⟩, archive, some metadata⟩ transfer.bootstrap)

def observed (d : Deployment γ μ) (tilesetId : String) (revalidating : Bool) :
    Except StorageError (γ × Bytes) → Load γ μ
  | .error .notFound => .working .markingAbsent
  | .error error => failed revalidating (.storage ["failed to read PMTiles header"] error)
  | .ok (generation, bytes) =>
    match d.decodeBootstrap bytes with
    | .error failure => failed revalidating (.other failure)
    | .ok archive => .working (.clearingAbsence ⟨⟨tilesetId, generation⟩, archive, none⟩ bytes)

def work (d : Deployment γ μ) (reader : Reader γ μ) (tilesetId : String) (mode : LoadMode) (answer : Answer γ) :
    LoadWork γ μ → Reader γ μ × Load γ μ
  | .rechecking =>
    (reader,
      match reader.cache.get reader.now tilesetId with
      | some archive => .releasing (some (.ok (some archive)))
      | none => .working .recheckingAbsence)
  | .recheckingAbsence =>
    (reader,
      if reader.cache.isKnownAbsent reader.now tilesetId then .releasing (some (.ok none)) else .working .routing)
  | .routing =>
    (reader,
      if reader.cache.requiresRevalidation reader.now tilesetId then .working (.observing true)
      else .working (.asking (mode = .routed true)))
  | .asking includeMetadata =>
    (reader,
      match answer.bootstrap with
      | some peer => received d tilesetId (d.transfer tilesetId includeMetadata peer)
      | none => .working (.observing false))
  | .observing revalidating => (reader, observed d tilesetId revalidating (d.observeRange tilesetId answer.object))
  | .markingAbsent =>
    ({ reader with cache := reader.cache.markAbsent reader.now tilesetId }, .releasing (some (.ok none)))
  | .clearingAbsence archive bootstrap =>
    ({ reader with cache := reader.cache.clearAbsence tilesetId }, .working (.installing archive bootstrap))
  | .installing archive bootstrap =>
    ({ reader with cache := reader.cache.install reader.now d.archiveRevalidationInterval archive bootstrap },
      .releasing (some (.ok (some archive))))
  | .deferring error =>
    ({ reader with cache := reader.cache.deferExpiredRevalidation reader.now tilesetId }, .working (.readingStale error))
  | .readingStale error =>
    (reader,
      match reader.cache.get reader.now tilesetId with
      | some stale => .releasing (some (.ok (some stale)))
      | none => .releasing (some (.error error)))

def next (d : Deployment γ μ) (reader : Reader γ μ) (tilesetId : String) (mode : LoadMode) (answer : Answer γ) :
    Load γ μ → Option (Reader γ μ × Progress (LoadWork γ μ) (Option (VersionedArchive γ μ)))
  | .looking =>
    some (reader,
      match reader.cache.get reader.now tilesetId with
      | some archive => .done (.ok (some archive))
      | none => .on .missed)
  | .missed =>
    some (reader, if reader.cache.isKnownAbsent reader.now tilesetId then .done (.ok none) else .on .electing)
  | .working phase =>
    let (reader, phase) := work d reader tilesetId mode answer phase
    some (reader, .on phase)
  | phase =>
    (Flying.next reader.bootstrapInflight tilesetId (start mode) phase).map (fun (flights, progress) =>
      ({ reader with bootstrapInflight := flights }, progress))

end Load

/-! ## Leaf directories -/

inductive LeafWork
  | asking
  | fetching (range : RangePhase)
  | installing (directory : Directory)

abbrev LeafLoad := Flying LeafWork Directory

namespace LeafLoad

def awaits : LeafWork → Bool
  | .asking | .fetching (.reading _) => true
  | _ => false

def decoded (result : Fallible Directory) : LeafLoad :=
  match result with
  | .ok directory => .working (.installing directory)
  | .error failure => .releasing (some (.error (.other failure)))

variable (d : Deployment γ μ) (reader : Reader γ μ) (archive : VersionedArchive γ μ) (range : ArchiveRange)

def leafKey : LeafCacheKey γ := ⟨archive.key, range.offset, range.length.toNat⟩

def work (answer : Answer γ) : LeafWork → Option (Reader γ μ × LeafLoad)
  | .asking =>
    some (reader,
      match d.fetchLeafBytes archive.key range.offset range.length.toNat answer.leaf with
      | some body =>
        decoded (context "failed to decode leaf directory from peer"
          (d.parseDirectory archive.archive.header.internalCompression body))
      | none => .working (.fetching .opening))
  | .fetching phase =>
    match phase.next d reader archive.key range.offset range.length.toNat archive.archive.archiveLen with
    | none => none
    | some (reader, .on phase) => some (reader, .working (.fetching phase))
    | some (reader, .done (.error error)) =>
      some (reader, .releasing (some (.error (.storage ["failed to read directory"] error))))
    | some (reader, .done (.ok bytes)) =>
      some (reader, decoded (d.parseDirectory archive.archive.header.internalCompression bytes))
  | .installing directory =>
    some ({ reader with cache := reader.cache.putLeaf (leafKey archive range) directory },
      .releasing (some (.ok directory)))

def next (answer : Answer γ) : LeafLoad → Option (Reader γ μ × Progress LeafWork Directory)
  | .looking =>
    some (reader,
      match reader.cache.getLeaf (leafKey archive range) with
      | some directory => .done (.ok directory)
      | none => .on .electing)
  | .working phase => (work d reader archive range answer phase).map (fun (reader, phase) => (reader, .on phase))
  | phase =>
    (Flying.next reader.leafInflight (leafKey archive range) .asking phase).map (fun (flights, progress) =>
      ({ reader with leafInflight := flights }, progress))

end LeafLoad

/-! ## Metadata -/

inductive MetadataWork (μ : Type)
  | leading
  | fetching (range : RangePhase)
  | installing (metadata : μ)

abbrev MetadataLoad (μ : Type) := Flying (MetadataWork μ) μ

namespace MetadataLoad

def awaits : MetadataWork μ → Bool
  | .fetching (.reading _) => true
  | _ => false

variable (d : Deployment γ μ) (reader : Reader γ μ) (archive : VersionedArchive γ μ)

def work : MetadataWork μ → Option (Reader γ μ × MetadataLoad μ)
  | .leading =>
    some (reader,
      match archive.metadata with
      | some metadata => .releasing (some (.ok metadata))
      | none =>
        if archive.archive.header.metadataLength = 0 then .working (.installing d.defaultMetadata)
        else .working (.fetching .opening))
  | .fetching phase =>
    match phase.next d reader archive.key archive.archive.header.metadataOffset.toNat
        archive.archive.header.metadataLength.toNat archive.archive.archiveLen with
    | none => none
    | some (reader, .on phase) => some (reader, .working (.fetching phase))
    | some (reader, .done (.error error)) =>
      some (reader, .releasing (some (.error (.storage ["failed to read PMTiles metadata"] error))))
    | some (reader, .done (.ok bytes)) =>
      some (reader,
        match d.decodeMetadata archive.archive.header bytes with
        | .ok metadata => .working (.installing metadata)
        | .error failure => .releasing (some (.error (.other failure))))
  | .installing metadata =>
    some ({ reader with cache := reader.cache.putMetadata archive.key metadata }, .releasing (some (.ok metadata)))

def cached : Option μ :=
  ((reader.cache.get reader.now archive.key.tilesetId).filter
    (fun current => current.key.generation = archive.key.generation)).bind VersionedArchive.metadata

def next : MetadataLoad μ → Option (Reader γ μ × Progress (MetadataWork μ) μ)
  | .looking =>
    some (reader,
      match cached reader archive with
      | some metadata => .done (.ok metadata)
      | none => .on .electing)
  | .working phase => (work d reader archive phase).map (fun (reader, phase) => (reader, .on phase))
  | phase =>
    (Flying.next reader.metadataInflight archive.key .leading phase).map (fun (flights, progress) =>
      ({ reader with metadataInflight := flights }, progress))

end MetadataLoad

/-! ## Calls -/

inductive Request
  | getTile (tilesetId : String) (tileId : UInt64)
  | info (tilesetId : String)
  /-- `load_bootstrap`, of which `header` and `archive_key` return a part. -/
  | loadBootstrap (tilesetId : String)
  | loadBootstrapLocal (tilesetId : String)
  | loadBootstrapBytesLocal (tilesetId : String) (includeMetadata : Bool)
  | loadLeafBytesLocal (tilesetId : String) (offset length : UInt64)
  deriving DecidableEq

namespace Request

def tilesetId : Request → String
  | .getTile tilesetId _ | .info tilesetId | .loadBootstrap tilesetId | .loadBootstrapLocal tilesetId
  | .loadBootstrapBytesLocal tilesetId _ | .loadLeafBytesLocal tilesetId _ _ => tilesetId

def mode : Request → LoadMode
  | .getTile _ _ | .loadBootstrap _ => .routed false
  | .info _ => .routed true
  | .loadBootstrapLocal _ | .loadBootstrapBytesLocal _ _ | .loadLeafBytesLocal _ _ _ => .here

end Request

inductive Value (γ μ : Type)
  | tile (tile : Option TileData)
  | info (header : Header) (metadata : μ)
  | archive (archive : VersionedArchive γ μ)
  | transfer (transfer : BootstrapTransfer γ)
  | leaf (bytes : Bytes)

structure ArchiveResource (γ μ : Type) where
  value : Value γ μ
  generation : γ

inductive Phase (γ μ : Type)
  | loading (load : Load γ μ)
  /-- `get_tile`: a leaf directory is wanted. -/
  | leaf (archive : VersionedArchive γ μ) (walker : DirectoryWalker) (range : ArchiveRange) (load : LeafLoad)
  | tile (archive : VersionedArchive γ μ) (location : TileLocation) (range : RangePhase)
  | metadata (archive : VersionedArchive γ μ) (load : MetadataLoad μ)
  /-- The generation has changed under the first attempt. -/
  | invalidating (archive : ArchiveKey γ)
  | reloading (load : Load γ μ)
  | bootstrapBytes (archive : VersionedArchive γ μ)
  | bootstrapRange (archive : VersionedArchive γ μ) (range : RangePhase)
  | metadataRange (archive : VersionedArchive γ μ) (bootstrap : Bytes) (range : RangePhase)
  | leafRange (archive : VersionedArchive γ μ) (offset length : ℕ) (range : RangePhase)
  | returned (result : Except ReaderError (Option (ArchiveResource γ μ)))
  /-- The end of the retry loop, marked `unreachable!`. -/
  | unreachable
  | gone

structure Call (γ μ : Type) where
  request : Request
  attempt : ℕ := 0
  phase : Phase γ μ := .loading .looking

namespace Phase

def fail (error : ReaderError) : Phase γ μ := .returned (.error error)

def resource (archive : VersionedArchive γ μ) (value : Value γ μ) : Phase γ μ :=
  .returned (.ok (some ⟨value, archive.key.generation⟩))

/-- An error of an attempt: `get_tile` and `info` start over once when the generation has changed. -/
def retry (request : Request) (attempt : ℕ) (archive : VersionedArchive γ μ) (error : ReaderError) : Phase γ μ :=
  match request with
  | .getTile _ _ | .info _ =>
    if attempt = 0 ∧ isGenerationChanged error = true then .invalidating archive.key else .fail error
  | _ => .fail error

end Phase

/-! ### The traversal -/

def checkRange (offset : ℕ) (length : UInt32) : Fallible Unit :=
  let maxRangeBytes := readerLimits.maxRangeBytes
  if maxRangeBytes.toNat < length.toNat then
    bail s!"archive range length {length} exceeds max_range_bytes {maxRangeBytes}"
  else
    match checkedAdd offset length.toNat with
    | none => bail s!"archive range at offset {offset} length {length} overflows the archive address space"
    | some _ => .ok ()

/-- One turn of the loop of `resolve_tile_location` and what follows it up to the next await. -/
def resolve (request : Request) (attempt : ℕ) (archive : VersionedArchive γ μ) (walker : DirectoryWalker)
    (directory : Directory) : Phase γ μ :=
  match walker.step directory with
  | .error failure => .retry request attempt archive (.other failure)
  | .ok (.missing, _) => .resource archive (.tile none)
  | .ok (.tile location, _) =>
    match checkRange location.offset location.length with
    | .error failure => .retry request attempt archive (.other failure)
    | .ok () => .tile archive location .opening
  | .ok (.leaf range, walker) =>
    match checkRange range.offset range.length with
    | .error failure => .retry request attempt archive (.other failure)
    | .ok () => .leaf archive walker range .looking

def beginTile (request : Request) (attempt : ℕ) (archive : VersionedArchive γ μ) (tileId : UInt64) : Phase γ μ :=
  match TileId.new tileId with
  | .error failure => .retry request attempt archive (.other failure)
  | .ok tileId =>
    match DirectoryWalker.new archive.archive.header tileId readerLimits.maxDirectoryDepth with
    | .error failure => .retry request attempt archive (.other failure)
    | .ok walker => resolve request attempt archive walker archive.archive.root

/-! ### Ranges for peers -/

/-- `ValidatedLeafRange::from_archive` -/
def validLeafRange (archive : ArchiveBootstrap) (offset length : ℕ) : Bool :=
  match checkedAdd offset length, checkedAdd archive.header.leafOffset.toNat archive.header.leafLength.toNat with
  | some stop, some leafEnd =>
    !(length = 0 ∨ readerLimits.maxRangeBytes.toNat < length ∨ offset < archive.header.leafOffset.toNat ∨
      leafEnd < stop ∨ archive.archiveLen ≤ offset ∨ archive.archiveLen < stop)
  | _, _ => false

/-- `load_bootstrap_bytes_local` with the bootstrap at hand. -/
def withBootstrap (archive : VersionedArchive γ μ) (includeMetadata : Bool) (bootstrap : Bytes) : Phase γ μ :=
  if includeMetadata = true ∧ 0 < archive.archive.header.metadataLength then .metadataRange archive bootstrap .opening
  else .resource archive (.transfer ⟨archive.key.generation, bootstrap, none⟩)

def loaded (request : Request) (attempt : ℕ) (archive : VersionedArchive γ μ) : Phase γ μ :=
  match request with
  | .getTile _ tileId => beginTile request attempt archive tileId
  | .info _ => .metadata archive .looking
  | .loadBootstrap _ | .loadBootstrapLocal _ => .resource archive (.archive archive)
  | .loadBootstrapBytesLocal _ _ => .bootstrapBytes archive
  | .loadLeafBytesLocal _ offset length =>
    if validLeafRange archive.archive offset.toNat length.toNat then
      .leafRange archive offset.toNat length.toNat .opening
    else .fail (.other (.bail ["invalid leaf range"]))

namespace Call

def includeMetadata : Request → Bool
  | .loadBootstrapBytesLocal _ includeMetadata => includeMetadata
  | _ => false

def ranged (progress : RangeProgress) (message : String) (on : RangePhase → Phase γ μ)
    (failed : ReaderError → Phase γ μ) (ok : Bytes → Phase γ μ) : Phase γ μ :=
  match progress with
  | .on range => on range
  | .done (.error error) => failed (.storage [message] error)
  | .done (.ok bytes) => ok bytes

variable (call : Call γ μ)

def afterLoad : Progress (LoadWork γ μ) (Option (VersionedArchive γ μ)) → Phase γ μ
  | .on load => .loading load
  | .dropped => .gone
  | .done (.error error) => .fail error
  | .done (.ok none) => .returned (.ok none)
  | .done (.ok (some archive)) => loaded call.request call.attempt archive

/-- After `load_bootstrap_local` of a retry the next attempt begins. -/
def afterReload : Progress (LoadWork γ μ) (Option (VersionedArchive γ μ)) → Call γ μ
  | .on load => { call with phase := .reloading load }
  | .dropped => { call with phase := .gone }
  | .done (.error error) => { call with phase := .fail error }
  | .done (.ok _) =>
    { call with attempt := call.attempt + 1
                phase := if call.attempt + 1 < 2 then .loading .looking else .unreachable }

def afterLeaf (archive : VersionedArchive γ μ) (walker : DirectoryWalker) (range : ArchiveRange) :
    Progress LeafWork Directory → Phase γ μ
  | .on load => .leaf archive walker range load
  | .dropped => .gone
  | .done (.error error) => .retry call.request call.attempt archive error
  | .done (.ok directory) => resolve call.request call.attempt archive walker directory

def afterMetadata (archive : VersionedArchive γ μ) : Progress (MetadataWork μ) μ → Phase γ μ
  | .on load => .metadata archive load
  | .dropped => .gone
  | .done (.error error) => .retry call.request call.attempt archive error
  | .done (.ok metadata) => .resource archive (.info archive.archive.header metadata)

def tileData (header : Header) (bytes : Bytes) : TileData :=
  ⟨bytes, header.tileType.contentType, header.tileCompression.contentEncoding⟩

def goto (phase : Phase γ μ) : Call γ μ := { call with phase := phase }

variable (d : Deployment γ μ) (reader : Reader γ μ) (call : Call γ μ)

def next (answer : Answer γ) : Option (Reader γ μ × Call γ μ) :=
  match call.phase with
  | .loading load =>
    (load.next d reader call.request.tilesetId call.request.mode answer).map (fun (reader, progress) =>
      (reader, call.goto (call.afterLoad progress)))
  | .leaf archive walker range load =>
    (load.next d reader archive range answer).map (fun (reader, progress) =>
      (reader, call.goto (call.afterLeaf archive walker range progress)))
  | .tile archive location range =>
    (range.next d reader archive.key location.offset location.length.toNat location.archiveLen).map
      (fun (reader, progress) => (reader, call.goto (ranged progress "failed to read PMTiles tile bytes"
        (.tile archive location) (.retry call.request call.attempt archive)
        (fun bytes => .resource archive (.tile (some (tileData archive.archive.header bytes)))))))
  | .metadata archive load =>
    (load.next d reader archive).map (fun (reader, progress) =>
      (reader, call.goto (call.afterMetadata archive progress)))
  | .invalidating archive =>
    some ({ reader with cache := reader.cache.invalidateGeneration archive }, call.goto (.reloading .looking))
  | .reloading load =>
    (load.next d reader call.request.tilesetId .here answer).map (fun (reader, progress) =>
      (reader, call.afterReload progress))
  | .bootstrapBytes archive =>
    some (reader, call.goto
      (match reader.cache.getBootstrapBytes archive.key with
      | some bytes => withBootstrap archive (includeMetadata call.request) bytes
      | none => .bootstrapRange archive .opening))
  | .bootstrapRange archive range =>
    (range.next d reader archive.key 0 (min archive.archive.archiveLen minBootstrapBytes)
        archive.archive.archiveLen).map
      (fun (reader, progress) => (reader, call.goto (ranged progress "failed to read archive bootstrap bytes"
        (.bootstrapRange archive) .fail (withBootstrap archive (includeMetadata call.request)))))
  | .metadataRange archive bootstrap range =>
    (range.next d reader archive.key archive.archive.header.metadataOffset.toNat
        archive.archive.header.metadataLength.toNat archive.archive.archiveLen).map
      (fun (reader, progress) => (reader, call.goto (ranged progress "failed to read PMTiles metadata"
        (.metadataRange archive bootstrap) .fail
        (fun metadata => .resource archive (.transfer ⟨archive.key.generation, bootstrap, some metadata⟩)))))
  | .leafRange archive offset length range =>
    (range.next d reader archive.key offset length archive.archive.archiveLen).map
      (fun (reader, progress) => (reader, call.goto (ranged progress "failed to read leaf bytes"
        (.leafRange archive offset length) .fail (fun bytes => .resource archive (.leaf bytes)))))
  | .returned _ | .unreachable | .gone => none

/-- The call is dropped where it awaits; a leader still has to drop its guard. -/
def cancel : Option (Call γ μ) :=
  match call.phase with
  | .loading load => (load.cancel Load.awaits).map (fun progress => call.goto (call.afterLoad progress))
  | .leaf archive walker range load =>
    (load.cancel LeafLoad.awaits).map (fun progress => call.goto (call.afterLeaf archive walker range progress))
  | .metadata archive load =>
    (load.cancel MetadataLoad.awaits).map (fun progress => call.goto (call.afterMetadata archive progress))
  | .reloading load => (load.cancel Load.awaits).map call.afterReload
  | .tile _ _ (.reading _) | .bootstrapRange _ (.reading _) | .metadataRange _ _ (.reading _)
  | .leafRange _ _ _ (.reading _) => some (call.goto .gone)
  | _ => none

end Call

/-- A step that hands the shared state on and says what becomes of its caller. -/
theorem handed_on {σ α β : Type} {step : Option (σ × α)} {f : σ × α → σ × β} {s : σ} {b : β}
    (h : step.map f = some (s, b)) (hf : ∀ s a, (f (s, a)).1 = s := by intros; rfl) :
    ∃ a, step = some (s, a) ∧ (f (s, a)).2 = b := by
  obtain ⟨⟨s', a⟩, hstep, heq⟩ := Option.map_eq_some_iff.mp h
  obtain rfl : s' = s := (hf s' a).symm.trans (congrArg Prod.fst heq)
  exact ⟨a, hstep, congrArg Prod.snd heq⟩

/-! ## Runs of the archive reader

The calls of one process share its caches, its flights and the chunked stores of all generations, and interleave
at every step. Cache entries vanish and time passes in between. -/

variable {γ μ : Type} [DecidableEq γ]

def Deployment.archiveLen (d : Deployment γ μ) (key : ArchiveKey γ) : ℕ :=
  match d.decodeBootstrap (d.content key) with
  | .ok archive => archive.archiveLen
  | .error _ => 0

structure System (γ μ : Type) [DecidableEq γ] where
  reader : Reader γ μ := {}
  calls : List (Call γ μ) := []

inductive Action (γ : Type)
  | begin (request : Request)
  | move (call : ℕ) (answer : Answer γ)
  | cancel (call : ℕ)
  | evict (kept : ArchiveCache.Kept γ)
  | tick (duration : ℕ)

namespace System

variable (d : Deployment γ μ) (s : System γ μ)

def moved (call : ℕ) : Option (Reader γ μ × Call γ μ) → System γ μ
  | none => s
  | some (reader, after) => ⟨reader, s.calls.set call after⟩

/-- One action; it does nothing where the call does not exist or has to wait. -/
def act : Action γ → System γ μ
  | .begin request => { s with calls := s.calls ++ [{ request := request }] }
  | .move call answer => s.moved call (s.calls[call]?.bind (Call.next d s.reader · answer))
  | .cancel call => s.moved call ((s.calls[call]?.bind Call.cancel).map (Prod.mk s.reader))
  | .evict kept => { s with reader := { s.reader with cache := s.reader.cache.evict kept } }
  | .tick duration => { s with reader := { s.reader with now := s.reader.now + duration } }

variable {d s}

theorem act_move_cases (i : ℕ) (ans : Answer γ) :
    (s.act d (.move i ans) = s ∧ ∀ call, s.calls[i]? = some call → call.next d s.reader ans = none) ∨
      ∃ call reader after, s.calls[i]? = some call ∧
      call.next d s.reader ans = some (reader, after) ∧
      s.act d (.move i ans) = ⟨reader, s.calls.set i after⟩ := by
  unfold act
  dsimp only
  cases hmove : s.calls[i]?.bind (Call.next d s.reader · ans) with
  | none => exact .inl ⟨rfl, Option.bind_eq_none_iff.mp hmove⟩
  | some moved =>
    obtain ⟨call, hcall, hnext⟩ := Option.bind_eq_some_iff.mp hmove
    exact .inr ⟨call, moved.1, moved.2, hcall, hnext, rfl⟩

theorem act_cancel_cases (d : Deployment γ μ) (i : ℕ) :
    s.act d (.cancel i) = s ∨ ∃ call after, s.calls[i]? = some call ∧ call.cancel = some after ∧
      s.act d (.cancel i) = { s with calls := s.calls.set i after } := by
  unfold act
  dsimp only
  cases hcanc : s.calls[i]?.bind Call.cancel with
  | none => exact .inl rfl
  | some after =>
    obtain ⟨call, hcall, hafter⟩ := Option.bind_eq_some_iff.mp hcanc
    exact .inr ⟨call, after, hcall, hafter, rfl⟩

variable (d)

inductive Step : System γ μ → System γ μ → Prop
  | act (s : System γ μ) (action : Action γ) : Step s (s.act d action)
  | store (s : System γ μ) (key : ArchiveKey γ) (store : ArchiveStore)
      (h : GenerationStep (d.contents key.tilesetId) key.generation (d.archiveLen key) d.chunkSize d.maxFetchChunks
        (s.reader.stores key) store) :
      Step s { s with reader := s.reader.setStore key store }

def machine : Machine (System γ μ) where
  init := {}
  step := Step d

theorem reachable_actions (actions : List (Action γ)) : Reachable (machine d) (actions.foldl (act d) {}) := by
  induction actions using List.reverseRecOn with
  | nil => exact Reachable.init
  | append_singleton actions action ih =>
    rw [List.foldl_append]
    exact ih.step (.act _ action)

end System

def Call.label : Call γ μ → Option γ
  | ⟨_, _, .returned (.ok (some resource))⟩ => some resource.generation
  | _ => none

namespace Example

def deployment : Deployment ℕ Bytes where
  contents := fun _ generation => Pmtiles.oneTileArchive [123, UInt8.ofNat generation, 125]
  decoder := fun _ _ _ => .error "no decoder"
  parseMetadata := some
  defaultMetadata := []
  chunkSize := 4096
  chunkSize_pos := by decide
  maxFetchChunks := 4
  archiveRevalidationInterval := 60 * 10 ^ 9

end Example

end Mappf.Ishikari
