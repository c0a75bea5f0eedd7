import Mappf.Lib.BinarySearch
import Mappf.Lib.Fallible
import Mappf.Lib.Bytes
import Mappf.Lib.Word

/-! # PMTiles header and directories

`format.rs`: the fixed-size header, the column-coded directory block and the lookup inside one
directory. `usize` is 64 bits wide. The stream decoders (gzip, brotli, zstd) are a parameter: what
reading at most so many bytes from one yields. Allocation is taken to succeed. -/
namespace Mappf.Pmtiles

def maxTileId : ℕ := 6148914691236517204
def headerSize : ℕ := 127
def pmtilesVersion : UInt8 := 3

structure TileId where
  value : ℕ
  valid : value ≤ maxTileId

def TileId.new (value : UInt64) : Fallible TileId :=
  if valid : value.toNat ≤ maxTileId then .ok ⟨value.toNat, valid⟩ else bail s!"invalid tile id {value}"

inductive Compression
  | unknown
  | none
  | gzip
  | brotli
  | zstd
  deriving DecidableEq

def Compression.contentEncoding : Compression → Option String
  | gzip => some "gzip"
  | brotli => some "br"
  | zstd => some "zstd"
  | unknown => Option.none
  | none => Option.none

def Compression.tryFrom (value : UInt8) : Fallible Compression :=
  match value.toNat with
  | 0 => .ok .unknown
  | 1 => .ok .none
  | 2 => .ok .gzip
  | 3 => .ok .brotli
  | 4 => .ok .zstd
  | _ => bail s!"invalid PMTiles compression {value}"

inductive TileType
  | unknown
  | mvt
  | png
  | jpeg
  | webp
  | avif
  | mlt

def TileType.contentType : TileType → String
  | mvt => "application/vnd.mapbox-vector-tile"
  | png => "image/png"
  | jpeg => "image/jpeg"
  | webp => "image/webp"
  | avif => "image/avif"
  | mlt => "application/vnd.maplibre-tile"
  | unknown => "application/octet-stream"

def TileType.tryFrom (value : UInt8) : Fallible TileType :=
  match value.toNat with
  | 0 => .ok .unknown
  | 1 => .ok .mvt
  | 2 => .ok .png
  | 3 => .ok .jpeg
  | 4 => .ok .webp
  | 5 => .ok .avif
  | 6 => .ok .mlt
  | _ => bail s!"invalid PMTiles tile type {value}"

/-! ## The header -/

structure Header where
  version : UInt8
  rootOffset : UInt64
  rootLength : UInt64
  metadataOffset : UInt64
  metadataLength : UInt64
  leafOffset : UInt64
  leafLength : UInt64
  dataOffset : UInt64
  dataLength : UInt64
  nAddressedTiles : UInt64
  nTileEntries : UInt64
  nTileContents : UInt64
  clustered : Bool
  internalCompression : Compression
  tileCompression : Compression
  tileType : TileType
  minZoom : UInt8
  maxZoom : UInt8
  centerZoom : UInt8

/-- The sections whose ends must fit `u64`, with the names the errors use. -/
def Header.sections (h : Header) : List (String × UInt64 × UInt64) :=
  [("root directory", h.rootOffset, h.rootLength), ("metadata", h.metadataOffset, h.metadataLength),
    ("leaf directory", h.leafOffset, h.leafLength), ("tile data", h.dataOffset, h.dataLength)]

/-- The loop over the sections, accumulating the largest section end. -/
def sectionsEnd : List (String × UInt64 × UInt64) → ℕ → Fallible ℕ
  | [], stop => .ok stop
  | (name, offset, length) :: rest, stop =>
    match checkedAdd offset.toNat length.toNat with
    | none => bail s!"PMTiles {name} range overflows u64"
    | some sectionEnd => sectionsEnd rest (max stop sectionEnd)

def getU8 : Cursor UInt8 := do
  let bytes ← getBytes 1
  return bytes.headD 0

def getU64Le : Cursor UInt64 := do
  let bytes ← getBytes 8
  return UInt64.ofNat (leDecode bytes)

def magic : Bytes := [80, 77, 84, 105, 108, 101, 115]

/-- The fields in file order. The six fixed-point coordinates are read past: nothing modelled here
looks at them. -/
def Header.fields : Cursor Header := do
  let found ← getBytes magic.length
  ensure (found = magic) "invalid PMTiles magic"
  let version ← getU8
  ensure (version = pmtilesVersion) s!"unsupported PMTiles version {version}; expected {pmtilesVersion}"
  let rootOffset ← getU64Le
  let rootLength ← getU64Le
  let metadataOffset ← getU64Le
  let metadataLength ← getU64Le
  let leafOffset ← getU64Le
  let leafLength ← getU64Le
  let dataOffset ← getU64Le
  let dataLength ← getU64Le
  let nAddressedTiles ← getU64Le
  let nTileEntries ← getU64Le
  let nTileContents ← getU64Le
  let clustered ← getU8
  let internalCompression ← getU8
  let internalCompression ← StateT.lift (Compression.tryFrom internalCompression)
  let tileCompression ← getU8
  let tileCompression ← StateT.lift (Compression.tryFrom tileCompression)
  let tileType ← getU8
  let tileType ← StateT.lift (TileType.tryFrom tileType)
  let minZoom ← getU8
  let maxZoom ← getU8
  let _ ← getBytes 16
  let centerZoom ← getU8
  let _ ← getBytes 8
  return { version, rootOffset, rootLength, metadataOffset, metadataLength, leafOffset, leafLength,
           dataOffset, dataLength, nAddressedTiles, nTileEntries, nTileContents,
           clustered := clustered ≠ 0, internalCompression, tileCompression, tileType,
           minZoom, maxZoom, centerZoom }

def Header.parse (bytes : Bytes) : Fallible Header := do
  let actual := bytes.length
  if actual < headerSize then
    bail s!"PMTiles header is truncated: expected {headerSize} bytes, got {actual}"
  let (header, _) ← Header.fields bytes
  let _ ← sectionsEnd header.sections 0
  return header

/-! ## Decompression -/

/-- What a stream decoder yields when at most the given number of bytes is read from it. -/
abbrev StreamDecoder := Compression → Bytes → ℕ → Except String Bytes

def readDecompressedLimited (read : ℕ → Except String Bytes) (maxBytes : UInt64) : Fallible Bytes :=
  match checkedAdd maxBytes.toNat 1 with
  | none => bail "decompression limit overflow"
  | some readLimit =>
    match read readLimit with
    | .error e => bail e
    | .ok decompressed =>
      if maxBytes.toNat < decompressed.length then bail s!"PMTiles payload exceeds {maxBytes} decompressed bytes"
      else .ok decompressed

def decompressBytesWithLimit (decoder : StreamDecoder) (compression : Compression) (bytes : Bytes)
    (maxBytes : UInt64) : Fallible Bytes :=
  match compression with
  | .none =>
    if maxBytes.toNat < bytes.length then bail s!"PMTiles payload exceeds {maxBytes} decompressed bytes"
    else .ok bytes
  | .gzip => readDecompressedLimited (decoder .gzip bytes) maxBytes
  | .brotli => readDecompressedLimited (decoder .brotli bytes) maxBytes
  | .zstd => readDecompressedLimited (decoder .zstd bytes) maxBytes
  | .unknown => bail "unsupported PMTiles compression"

/-! ## Directories -/

structure DirectoryEntry where
  tileId : UInt64 := 0
  offset : UInt64 := 0
  length : UInt32 := 0
  runLength : UInt32 := 0
  deriving DecidableEq

def DirectoryEntry.isLeaf (e : DirectoryEntry) : Bool := e.runLength == 0

structure Directory where
  entries : List DirectoryEntry

def NonDecreasing (entries : List DirectoryEntry) : Prop :=
  entries.Pairwise (fun a b => a.tileId.toNat ≤ b.tileId.toNat)

instance (entries : List DirectoryEntry) : Decidable (NonDecreasing entries) :=
  inferInstanceAs (Decidable (entries.Pairwise _))

def varintExceedsU64 : Fallible (ℕ × Bytes) := bail "invalid PMTiles varint: value exceeds u64"

/-- The loop of `read_u64_varint`. At shift 63 a single value bit still fits. -/
def readVarintLoop : ℕ → ℕ → Bytes → Fallible (ℕ × Bytes)
  | _, _, [] => bail "unexpected EOF while reading PMTiles varint"
  | shift, value, byte :: buf =>
    let payload := (byte &&& 0x7f).toNat
    if shift = 63 ∧ 1 < payload then varintExceedsU64
    else
      let value := value ||| (payload <<< shift) % 2 ^ 64
      if byte &&& 0x80 = 0 then .ok (value, buf)
      else if 64 ≤ shift + 7 then varintExceedsU64
      else readVarintLoop (shift + 7) value buf

def readU64Varint (buf : Bytes) : Fallible (ℕ × Bytes) := readVarintLoop 0 0 buf

/-- One column of the directory block: a varint per entry, stored into the entry by `fill`, which
may carry a value from one entry to the next. -/
def readColumn {σ : Type} (fill : σ → DirectoryEntry → ℕ → Fallible (DirectoryEntry × σ)) :
    σ → List DirectoryEntry → Bytes → Fallible (List DirectoryEntry × Bytes)
  | _, [], buf => .ok ([], buf)
  | s, e :: es, buf => do
    let (value, buf) ← readU64Varint buf
    let (e, s) ← fill s e value
    let (es, buf) ← readColumn fill s es buf
    .ok (e :: es, buf)

def fillTileId (nextTileId : ℕ) (e : DirectoryEntry) (delta : ℕ) : Fallible (DirectoryEntry × ℕ) :=
  match checkedAdd nextTileId delta with
  | none => bail "PMTiles directory tile id overflow"
  | some tileId => .ok ({ e with tileId := UInt64.ofNat tileId }, tileId)

def u32TryFrom (value : ℕ) : Fallible UInt32 :=
  if value < 2 ^ 32 then .ok (UInt32.ofNat value)
  else context "varint does not fit into u32" (bail "out of range integral type conversion attempted")

def fillRunLength (_ : Unit) (e : DirectoryEntry) (value : ℕ) : Fallible (DirectoryEntry × Unit) := do
  let runLength ← u32TryFrom value
  .ok ({ e with runLength }, ())

def fillLength (_ : Unit) (e : DirectoryEntry) (value : ℕ) : Fallible (DirectoryEntry × Unit) := do
  let length ← u32TryFrom value
  .ok ({ e with length }, ())

/-- Zero elides an offset that continues the previous entry; other values are off by one. -/
def fillOffset (previous : Option DirectoryEntry) (e : DirectoryEntry) (offset : ℕ) :
    Fallible (DirectoryEntry × Option DirectoryEntry) :=
  if offset = 0 then
    match previous with
    | none => bail "invalid PMTiles directory entry"
    | some p =>
      match checkedAdd p.offset.toNat p.length.toNat with
      | none => bail "PMTiles directory offset overflow"
      | some offset =>
        let e := { e with offset := UInt64.ofNat offset }
        .ok (e, some e)
  else
    let e := { e with offset := UInt64.ofNat (offset - 1) }
    .ok (e, some e)

/-- The four columns, over entries that start out as defaults. -/
def readColumns (entries : List DirectoryEntry) (buffer : Bytes) : Fallible Directory := do
  let (entries, buffer) ← readColumn fillTileId 0 entries buffer
  let (entries, buffer) ← readColumn fillRunLength () entries buffer
  let (entries, buffer) ← readColumn fillLength () entries buffer
  let (entries, _) ← readColumn fillOffset none entries buffer
  .ok ⟨entries⟩

def Directory.decode (decompressed : Bytes) : Fallible Directory := do
  let (nEntries, buffer) ← readU64Varint decompressed
  match checkedMul nEntries 4 with
  | none => bail "PMTiles directory entry count overflow"
  | some minimumEncodedLen =>
    let remaining := buffer.length
    if remaining < minimumEncodedLen then
      bail s!"PMTiles directory declares {nEntries} entries but only {remaining} encoded bytes remain"
    else readColumns (List.replicate nEntries {}) buffer

def Directory.parseWithLimit (decoder : StreamDecoder) (compression : Compression) (bytes : Bytes)
    (maxDecompressedBytes : UInt64) : Fallible Directory := do
  let decompressed ← decompressBytesWithLimit decoder compression bytes maxDecompressedBytes
  Directory.decode decompressed

/-! ## Lookup in one directory -/

/-- The subtraction is unchecked in the source, so a tile id below its predecessor's is a fault. -/
def containsTileId (previous : DirectoryEntry) (tileId : TileId) : Fallible Bool :=
  if previous.isLeaf then .ok true
  else if tileId.value < previous.tileId.toNat then .error .fault
  else .ok (tileId.value - previous.tileId.toNat < previous.runLength.toNat)

def Directory.findTileId (d : Directory) (tileId : TileId) : Fallible (Option (ℕ × DirectoryEntry)) :=
  match binarySearchBy d.entries (fun entry => compare entry.tileId.toNat tileId.value) with
  | .ok index => .ok (d.entries[index]?.map (fun entry => (index, entry)))
  | .error nextId =>
    if 0 < nextId then
      match d.entries[nextId - 1]? with
      | none => .ok none
      | some previous => do
        let contains ← containsTileId previous tileId
        .ok (if contains then some (nextId - 1, previous) else none)
    else .ok none

end Mappf.Pmtiles
