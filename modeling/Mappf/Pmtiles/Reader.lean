import Mappf.Pmtiles.Format

/-! # The archive reader

`reader.rs`: limits, the depth-counted directory walker, the reader generic in its backend, and the
ordinary backend over raw byte ranges. A backend operation is a function of the backend's own state;
the cached metadata of a bootstrap is left out, no lookup reads it. -/
namespace Mappf.Pmtiles

def minBootstrapBytes : ℕ := 16384

inductive ReadKind
  | bootstrap
  | metadata
  | leafDirectory
  | tile
  deriving DecidableEq

def ReadKind.debug : ReadKind → String
  | bootstrap => "Bootstrap"
  | metadata => "Metadata"
  | leafDirectory => "LeafDirectory"
  | tile => "Tile"

structure ReadRequest where
  offset : ℕ
  length : ℕ
  archiveLen : Option ℕ
  kind : ReadKind

structure LeafDirectoryRequest where
  offset : ℕ
  length : UInt32
  compression : Compression
  archiveLen : ℕ
  deriving DecidableEq

structure TileLocation where
  offset : ℕ
  length : UInt32
  archiveLen : ℕ

structure ArchiveRange where
  offset : ℕ
  length : UInt32

structure TileData where
  bytes : Bytes
  contentType : String
  contentEncoding : Option String

/-! ## Limits and sections -/

structure ReaderLimits where
  bootstrapBytes : UInt64
  maxRangeBytes : UInt64
  maxDirectoryDepth : UInt8
  maxDecompressedDirectoryBytes : UInt64
  maxDecompressedMetadataBytes : UInt64

def validateLimits (limits : ReaderLimits) : Except String Unit :=
  if limits.bootstrapBytes.toNat < minBootstrapBytes then
    .error s!"bootstrap_bytes must be at least {minBootstrapBytes}"
  else if limits.maxDirectoryDepth = 0 then .error "max_directory_depth must be greater than zero"
  else if limits.maxRangeBytes < limits.bootstrapBytes then
    .error "max_range_bytes must be at least bootstrap_bytes"
  else if limits.maxDecompressedDirectoryBytes = 0 ∨ limits.maxDecompressedMetadataBytes = 0 then
    .error "decompressed-size limits must be greater than zero"
  else .ok ()

def archiveLen (header : Header) : Fallible ℕ := sectionsEnd header.sections 0

def checkedSectionOffset (name : String) (sectionOffset sectionLength relativeOffset : UInt64)
    (length : UInt32) : Fallible ℕ :=
  match checkedAdd relativeOffset.toNat length.toNat with
  | none => bail s!"PMTiles {name} entry range overflows u64"
  | some relativeEnd =>
    if sectionLength.toNat < relativeEnd then
      bail s!"PMTiles {name} entry range {relativeOffset}..{relativeEnd} exceeds section length {sectionLength}"
    else
      match checkedAdd sectionOffset.toNat relativeOffset.toNat with
      | none => bail s!"PMTiles {name} absolute offset overflows u64"
      | some offset => .ok offset

/-- Header and root directory of one archive generation. The length is private in the source and
always the one of the header. -/
structure ArchiveBootstrap where
  header : Header
  root : Directory
  archiveLen : ℕ
  valid : Pmtiles.archiveLen header = .ok archiveLen

def ArchiveBootstrap.new (header : Header) (root : Directory) : Fallible ArchiveBootstrap :=
  match valid : Pmtiles.archiveLen header with
  | .error e => .error e
  | .ok archiveLen => .ok ⟨header, root, archiveLen, valid⟩

def decodeBootstrapBytes (decoder : StreamDecoder) (body : Bytes) (maxDecompressedDirectoryBytes : UInt64) :
    Fallible ArchiveBootstrap := do
  if body.length < headerSize then bail "PMTiles archive header is truncated"
  let header ← context "failed to parse PMTiles header" (Header.parse (body.take headerSize))
  match checkedAdd header.rootOffset.toNat header.rootLength.toNat with
  | none => bail "invalid PMTiles root directory range"
  | some rootEnd =>
    if body.length < rootEnd then bail "PMTiles root directory must fit in the bootstrap read"
    else
      let root ← context "failed to parse PMTiles root directory"
        (Directory.parseWithLimit decoder header.internalCompression
          (slice body header.rootOffset.toNat rootEnd) maxDecompressedDirectoryBytes)
      ArchiveBootstrap.new header root

/-! ## The walker -/

inductive DirectoryStep
  | missing
  | leaf (range : ArchiveRange)
  | tile (location : TileLocation)

structure DirectoryWalker where
  header : Header
  archiveLen : ℕ
  tileId : TileId
  depth : ℕ
  maxDepth : UInt8

def DirectoryWalker.new (header : Header) (tileId : TileId) (maxDepth : UInt8) : Fallible DirectoryWalker := do
  if maxDepth = 0 then bail "PMTiles directory depth limit must be greater than zero"
  let archiveLen ← Pmtiles.archiveLen header
  return { header, archiveLen, tileId, depth := 0, maxDepth }

variable (w : DirectoryWalker)

/-- `self.depth += 1` on a `u8`. -/
def DirectoryWalker.descend : Fallible DirectoryWalker :=
  if 255 ≤ w.depth then .error .fault else .ok { w with depth := w.depth + 1 }

def DirectoryWalker.stepLeaf (entry : DirectoryEntry) : Fallible (DirectoryStep × DirectoryWalker) := do
  let maxDepth := w.maxDepth
  if maxDepth.toNat ≤ w.depth then bail s!"PMTiles directory depth exceeds {maxDepth}"
  let w ← w.descend
  let offset ← checkedSectionOffset "leaf directory" w.header.leafOffset w.header.leafLength entry.offset entry.length
  return (.leaf ⟨offset, entry.length⟩, w)

def DirectoryWalker.stepTile (entry : DirectoryEntry) : Fallible (DirectoryStep × DirectoryWalker) := do
  let offset ← checkedSectionOffset "tile data" w.header.dataOffset w.header.dataLength entry.offset entry.length
  return (.tile ⟨offset, entry.length, w.archiveLen⟩, w)

def DirectoryWalker.stepFound : Option (ℕ × DirectoryEntry) → Fallible (DirectoryStep × DirectoryWalker)
  | none => .ok (.missing, w)
  | some (_, entry) => if entry.isLeaf then w.stepLeaf entry else w.stepTile entry

def DirectoryWalker.step (directory : Directory) : Fallible (DirectoryStep × DirectoryWalker) := do
  let found ← directory.findTileId w.tileId
  w.stepFound found

/-! ## The reader over a backend -/

structure ArchiveBackend (σ ε : Type) where
  loadBootstrap : σ → Except ε ArchiveBootstrap × σ
  loadLeaf : LeafDirectoryRequest → σ → Except ε Directory × σ
  readRange : ReadRequest → σ → Except ε Bytes × σ
  invalidTileId : Failure → ε
  invalidArchive : Failure → ε

/-- A reader exists only with limits its constructors accept. -/
structure ArchiveReader (σ ε : Type) where
  backend : ArchiveBackend σ ε
  limits : ReaderLimits
  valid : validateLimits limits = .ok ()

namespace ArchiveReader

variable {σ ε : Type} (r : ArchiveReader σ ε)

def checkRange (offset : ℕ) (length : UInt32) : Except ε Unit :=
  let maxRangeBytes := r.limits.maxRangeBytes
  if maxRangeBytes.toNat < length.toNat then
    .error (r.backend.invalidArchive
      (.bail [s!"archive range length {length} exceeds max_range_bytes {maxRangeBytes}"]))
  else
    match checkedAdd offset length.toNat with
    | none => .error (r.backend.invalidArchive
        (.bail [s!"archive range at offset {offset} length {length} overflows the archive address space"]))
    | some _ => .ok ()

def leafRequest (bootstrap : ArchiveBootstrap) (range : ArchiveRange) : LeafDirectoryRequest :=
  ⟨range.offset, range.length, bootstrap.header.internalCompression, bootstrap.archiveLen⟩

/-- The loop of `resolve_tile_location`, together with the leaf ranges it consulted; no result while
the loop still runs when the fuel is spent. -/
def resolveLoop (bootstrap : ArchiveBootstrap) :
    ℕ → DirectoryWalker → Directory → List ArchiveRange → σ →
      Option (Except ε (Option TileLocation) × List ArchiveRange × σ)
  | 0, _, _, _, _ => none
  | fuel + 1, walker, directory, leaves, s =>
    match walker.step directory with
    | .error e => some (.error (r.backend.invalidArchive e), leaves, s)
    | .ok (.missing, _) => some (.ok none, leaves, s)
    | .ok (.tile location, _) => some (.ok (some location), leaves, s)
    | .ok (.leaf range, walker) =>
      match r.checkRange range.offset range.length with
      | .error e => some (.error e, leaves, s)
      | .ok () =>
        match r.backend.loadLeaf (leafRequest bootstrap range) s with
        | (.error e, s) => some (.error e, leaves ++ [range], s)
        | (.ok directory, s) => resolveLoop bootstrap fuel walker directory (leaves ++ [range]) s

def resolveTileLocation (fuel : ℕ) (tileId : UInt64) (s : σ) :
    Option (Except ε (Option TileLocation × Header × ℕ) × List ArchiveRange × σ) :=
  match TileId.new tileId with
  | .error e => some (.error (r.backend.invalidTileId e), [], s)
  | .ok tileId =>
    match r.backend.loadBootstrap s with
    | (.error e, s) => some (.error e, [], s)
    | (.ok bootstrap, s) =>
      match DirectoryWalker.new bootstrap.header tileId r.limits.maxDirectoryDepth with
      | .error e => some (.error (r.backend.invalidArchive e), [], s)
      | .ok walker =>
        (r.resolveLoop bootstrap fuel walker bootstrap.root [] s).map (fun out =>
          (out.1.map (fun location => (location, bootstrap.header, bootstrap.archiveLen)), out.2))

def getTile (fuel : ℕ) (tileId : UInt64) (s : σ) : Option (Except ε (Option TileData) × σ) :=
  (r.resolveTileLocation fuel tileId s).map (fun out =>
    match out with
    | (.error e, _, s) => (.error e, s)
    | (.ok (none, _, _), _, s) => (.ok none, s)
    | (.ok (some location, header, _), _, s) =>
      match r.checkRange location.offset location.length with
      | .error e => (.error e, s)
      | .ok () =>
        match r.backend.readRange ⟨location.offset, location.length.toNat, some location.archiveLen, .tile⟩ s with
        | (.error e, s) => (.error e, s)
        | (.ok bytes, s) =>
          (.ok (some ⟨bytes, header.tileType.contentType, header.tileCompression.contentEncoding⟩), s))

end ArchiveReader

/-! ## The backend over raw ranges -/

inductive ReaderError (ε : Type)
  | source (error : ε)
  | invalidTileId (failure : Failure)
  | invalidArchive (failure : Failure)

/-- Decoded directories of one archive identity, with whatever policy the implementation has. -/
structure DirectoryStore (τ : Type) where
  getBootstrap : τ → Option ArchiveBootstrap
  putBootstrap : ArchiveBootstrap → τ → τ
  getLeaf : ℕ × UInt32 → τ → Option Directory
  putLeaf : ℕ × UInt32 → Directory → τ → τ

/-- A raw range source, a directory store, and the limits of the reader above. -/
structure RangeArchiveBackend (σ τ ε : Type) where
  source : ReadRequest → σ → Except ε Bytes × σ
  directories : DirectoryStore τ
  decoder : StreamDecoder
  limits : ReaderLimits

namespace RangeArchiveBackend

variable {σ τ ε : Type} (b : RangeArchiveBackend σ τ ε)

def readRange (request : ReadRequest) (s : σ × τ) : Except (ReaderError ε) Bytes × (σ × τ) :=
  let kind := request.kind.debug
  let length := request.length
  let offset := request.offset
  let limit := b.limits.maxRangeBytes
  if limit.toNat < length then
    (.error (.invalidArchive (.bail [s!"{kind} read requests {length} bytes, exceeding configured limit {limit}"])), s)
  else
    match b.source request s.1 with
    | (.error e, src) => (.error (.source e), src, s.2)
    | (.ok bytes, src) =>
      let actual := bytes.length
      if request.kind ≠ .bootstrap ∧ actual ≠ length then
        (.error (.invalidArchive
          (.bail [s!"short {kind} read at offset {offset}: expected {length} bytes, got {actual}"])), src, s.2)
      else (.ok bytes, src, s.2)

def loadBootstrap (s : σ × τ) : Except (ReaderError ε) ArchiveBootstrap × (σ × τ) :=
  match b.directories.getBootstrap s.2 with
  | some bootstrap => (.ok bootstrap, s)
  | none =>
    match b.readRange ⟨0, b.limits.bootstrapBytes.toNat, none, .bootstrap⟩ s with
    | (.error e, s) => (.error e, s)
    | (.ok bytes, s) =>
      match decodeBootstrapBytes b.decoder bytes b.limits.maxDecompressedDirectoryBytes with
      | .error e => (.error (.invalidArchive e), s)
      | .ok bootstrap => (.ok bootstrap, s.1, b.directories.putBootstrap bootstrap s.2)

def loadLeaf (request : LeafDirectoryRequest) (s : σ × τ) : Except (ReaderError ε) Directory × (σ × τ) :=
  let key := (request.offset, request.length)
  match b.directories.getLeaf key s.2 with
  | some directory => (.ok directory, s)
  | none =>
    match b.readRange ⟨request.offset, request.length.toNat, some request.archiveLen, .leafDirectory⟩ s with
    | (.error e, s) => (.error e, s)
    | (.ok bytes, s) =>
      match context "failed to parse PMTiles leaf directory"
          (Directory.parseWithLimit b.decoder request.compression bytes b.limits.maxDecompressedDirectoryBytes) with
      | .error e => (.error (.invalidArchive e), s)
      | .ok directory => (.ok directory, s.1, b.directories.putLeaf key directory s.2)

def backend : ArchiveBackend (σ × τ) (ReaderError ε) where
  loadBootstrap := b.loadBootstrap
  loadLeaf := b.loadLeaf
  readRange := b.readRange
  invalidTileId := .invalidTileId
  invalidArchive := .invalidArchive

end RangeArchiveBackend

end Mappf.Pmtiles
