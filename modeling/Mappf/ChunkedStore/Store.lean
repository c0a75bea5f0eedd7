import Mappf.ChunkedStore.Coordinator

/-! # Byte ranges, chunk slices and reassembly

The pure functions of `store.rs` and the range arithmetic of `fetcher.rs`. `usize` is 64 bits
wide, so the conversions between `usize` and `u64` never fail and are left out. -/
namespace Mappf.ChunkedStore

inductive ChunkRangeError
  | byteRangeOverflow (start length : ℕ)
  | outsideArchive (start stop archiveLen : ℕ)
  | invalidChunkGroup (startChunk endChunk : ℕ)
  | chunkArithmeticOverflow (chunkIndex chunkSize : ℕ)
  | chunkOutsideArchive (chunkIndex archiveLen : ℕ)
  | sliceOutsideFetchedBytes (chunkIndex relativeStart relativeEnd bytesLen : ℕ)

def ChunkRangeError.display : ChunkRangeError → String
  | byteRangeOverflow start length => s!"byte range overflow: start={start} length={length}"
  | outsideArchive start stop archiveLen =>
    s!"byte range exceeds archive: start={start} end={stop} archive_len={archiveLen}"
  | invalidChunkGroup startChunk endChunk =>
    s!"invalid chunk group: start_chunk={startChunk} end_chunk={endChunk}"
  | chunkArithmeticOverflow chunkIndex chunkSize =>
    s!"chunk range arithmetic overflow: chunk_index={chunkIndex} chunk_size={chunkSize}"
  | chunkOutsideArchive chunkIndex archiveLen =>
    s!"chunk {chunkIndex} does not intersect archive length {archiveLen}"
  | sliceOutsideFetchedBytes chunkIndex relativeStart relativeEnd bytesLen =>
    s!"fetched bytes omit chunk {chunkIndex}: slice={relativeStart}..{relativeEnd} bytes={bytesLen}"

inductive ChunkReadSource
  | cache
  | backend

structure ChunkRead where
  bytes : Bytes
  source : ChunkReadSource

def validateByteRange (start length : ℕ) (archiveLen : Option ℕ) : Except ChunkRangeError ℕ :=
  match checkedAdd start length with
  | none => .error (.byteRangeOverflow start length)
  | some stop =>
    match archiveLen with
    | some archiveLen =>
      if archiveLen < start ∨ archiveLen < stop then .error (.outsideArchive start stop archiveLen) else .ok stop
    | none => .ok stop

def chunkIndex (offset chunkSize : ℕ) : ℕ := offset / chunkSize

def byteRangeToChunkRange (start stop chunkSize : ℕ) : ℕ × ℕ :=
  (chunkIndex start chunkSize, chunkIndex (stop - 1) chunkSize)

def chunksOf (chunkRange : ℕ × ℕ) : List ℕ := List.range' chunkRange.1 (chunkRange.2 + 1 - chunkRange.1)

/-! ## Slicing a fetched group -/

def chunkSlice (chunkSize archiveLen bytesLen rangeStart chunk : ℕ) : Except ChunkRangeError (ℕ × ℕ) :=
  match checkedMul chunk chunkSize, checkedAdd chunk 1 with
  | none, _ => .error (.chunkArithmeticOverflow chunk chunkSize)
  | some _, none => .error (.chunkArithmeticOverflow chunk chunkSize)
  | some absoluteStart, some nextChunk =>
    match checkedMul nextChunk chunkSize with
    | none => .error (.chunkArithmeticOverflow nextChunk chunkSize)
    | some absoluteEnd =>
      let absoluteEnd := min absoluteEnd archiveLen
      if absoluteEnd ≤ absoluteStart then .error (.chunkOutsideArchive chunk archiveLen)
      else
        let relativeStart := absoluteStart - rangeStart
        let relativeEnd := absoluteEnd - rangeStart
        if relativeEnd < relativeStart ∨ bytesLen < relativeEnd then
          .error (.sliceOutsideFetchedBytes chunk relativeStart relativeEnd bytesLen)
        else .ok (relativeStart, relativeEnd)

def chunkSlicesLoop (chunkSize archiveLen bytesLen rangeStart : ℕ) :
    List ℕ → Except ChunkRangeError (List (ℕ × ℕ × ℕ))
  | [] => .ok []
  | chunk :: rest =>
    match chunkSlice chunkSize archiveLen bytesLen rangeStart chunk with
    | .error e => .error e
    | .ok slice =>
      match chunkSlicesLoop chunkSize archiveLen bytesLen rangeStart rest with
      | .error e => .error e
      | .ok slices => .ok ((chunk, slice) :: slices)

def chunkSlices (chunkRange : ChunkRange) (chunkSize archiveLen bytesLen : ℕ) :
    Except ChunkRangeError (List (ℕ × ℕ × ℕ)) :=
  if chunkRange.stop ≤ chunkRange.start then .error (.invalidChunkGroup chunkRange.start chunkRange.stop)
  else
    match checkedMul chunkRange.start chunkSize with
    | none => .error (.chunkArithmeticOverflow chunkRange.start chunkSize)
    | some rangeStart => chunkSlicesLoop chunkSize archiveLen bytesLen rangeStart chunkRange.chunks

/-- The chunks `cache_chunk_group` cuts out of a fetched group, in the order it caches them. -/
def cutChunkGroup (chunkRange : ChunkRange) (chunkSize archiveLen : ℕ) (bytes : Bytes) :
    Except ChunkRangeError (List (ℕ × Bytes)) :=
  match chunkSlices chunkRange chunkSize archiveLen bytes.length with
  | .error e => .error e
  | .ok slices => .ok (slices.map (fun s => (s.1, slice bytes s.2.1 s.2.2)))

/-! ## Fetching a group -/

/-- `fetch_range` with the exact length policy, over what the object store answers. -/
def fetchRange (objectStore : ℕ → ℕ → Except ChunkFetchError Bytes) (rangeStart rangeEnd : ℕ) :
    Except ChunkFetchError Bytes :=
  match objectStore rangeStart rangeEnd with
  | .error e => .error e
  | .ok bytes =>
    let expected := rangeEnd - rangeStart
    let actual := bytes.length
    if actual ≠ expected then
      .error (.message s!"unexpected object-store range length: range={rangeStart}..{rangeEnd} expected_bytes={expected} actual_bytes={actual} policy=Exact")
    else .ok bytes

def fetchChunkGroup (chunkSize : ℕ) (objectStore : ℕ → ℕ → Except ChunkFetchError Bytes)
    (chunkRange : ChunkRange) (archiveLen : ℕ) : Except ChunkFetchError Bytes :=
  let startChunk := chunkRange.start
  let endChunk := chunkRange.stop
  if endChunk ≤ startChunk then .ok []
  else
    match checkedMul startChunk chunkSize, checkedMul endChunk chunkSize with
    | some rangeStart, some rangeEnd =>
      let rangeEnd := min rangeEnd archiveLen
      if rangeEnd ≤ rangeStart then
        .error (.message s!"chunk range start {rangeStart} does not precede end {rangeEnd} (archive_len={archiveLen})")
      else fetchRange objectStore rangeStart rangeEnd
    | _, _ =>
      .error (.message s!"chunk range overflow: start_chunk={startChunk} end_chunk={endChunk} chunk_size={chunkSize}")

/-! ## Answering a read from its chunks -/

def resolvedChunkMissing : ChunkFetchError := .message "resolved chunk missing after fetch"

def sliceSingleChunk (chunkSize chunk start length : ℕ) (bytes : Bytes) : Except ChunkFetchError Bytes :=
  let chunkOffset := start % chunkSize
  let chunkLen := bytes.length
  match checkedAdd chunkOffset length with
  | none => .error (.message "byte range overflow computing chunk slice")
  | some chunkEnd =>
    if chunkLen < chunkEnd then
      .error (.message s!"cached chunk is shorter than requested range: chunk_index={chunk} chunk_len={chunkLen} chunk_offset={chunkOffset} length={length}")
    else .ok (slice bytes chunkOffset chunkEnd)

/-- The loop of `read_resolved_bytes`; returns what is still missing and the bytes so far. -/
def reassemble (chunks : ℕ → Option Bytes) :
    List ℕ → ℕ → ℕ → Bytes → Except ChunkFetchError (ℕ × Bytes)
  | [], remaining, _, bytes => .ok (remaining, bytes)
  | chunk :: rest, remaining, currentOffset, bytes =>
    match chunks chunk with
    | none => .error resolvedChunkMissing
    | some data =>
      let chunkLen := data.length
      if chunkLen < currentOffset then
        .error (.message s!"cached chunk offset exceeds chunk length: chunk_index={chunk} chunk_len={chunkLen} chunk_offset={currentOffset}")
      else
        let take := min remaining (chunkLen - currentOffset)
        match checkedAdd currentOffset take with
        | none => .error (.message "byte range overflow computing reconstructed chunk slice")
        | some currentEnd =>
          reassemble chunks rest (remaining - take) 0 (bytes ++ slice data currentOffset currentEnd)

def readResolvedBytes (chunkSize start length : ℕ) (chunks : ℕ → Option Bytes) : Except ChunkFetchError Bytes :=
  match checkedAdd start length with
  | none => .error (.message "byte range overflow computing cached read")
  | some stop =>
    let chunkRange := byteRangeToChunkRange start stop chunkSize
    if chunkRange.1 = chunkRange.2 then
      match chunks chunkRange.1 with
      | none => .error resolvedChunkMissing
      | some chunk => sliceSingleChunk chunkSize chunkRange.1 start length chunk
    else
      match reassemble chunks (chunksOf chunkRange) length (start % chunkSize) [] with
      | .error e => .error e
      | .ok (remaining, bytes) =>
        if remaining ≠ 0 then .error (.message "failed to reconstruct tileset bytes from chunk cache")
        else .ok bytes

end Mappf.ChunkedStore
