import Mappf.Lib.OrderedSet
import Mappf.Lib.Bytes
import Mappf.Lib.Word

/-! # Chunk fetch coordination for one archive

`coordinator.rs`: the lock-protected state of one archive, and what each locked section does to
it. Chunk indices are `u64` values as naturals. A waiter list per chunk is kept flat, as
`(chunk, channel)` pairs in registration order: the source never stores an empty list, so a key
is present exactly when some pair names it. -/
namespace Mappf.ChunkedStore

inductive ChunkFetchError
  | notFound
  | overloaded (message : String)
  | timeout (message : String)
  | backend (message : String)
  | generationChanged
  | message (message : String)
  deriving DecidableEq

def maxChunkGap : ℕ := 1
def maxConcurrentFetchesPerTileset : ℕ := 32

/-! ## Ranges of chunks -/

/-- The half-open range `start..stop`, empty when `stop ≤ start`. -/
structure ChunkRange where
  start : ℕ
  stop : ℕ
  deriving DecidableEq

namespace ChunkRange

def chunks (r : ChunkRange) : List ℕ := List.range' r.start (r.stop - r.start)

instance : Membership ℕ ChunkRange := ⟨fun r c => r.start ≤ c ∧ c < r.stop⟩

instance (c : ℕ) (r : ChunkRange) : Decidable (c ∈ r) :=
  inferInstanceAs (Decidable (r.start ≤ c ∧ c < r.stop))

theorem mem_iff {c : ℕ} {r : ChunkRange} : c ∈ r ↔ r.start ≤ c ∧ c < r.stop := Iff.rfl

@[simp] theorem mem_chunks {c : ℕ} {r : ChunkRange} : c ∈ r.chunks ↔ c ∈ r := by
  rw [chunks, List.mem_range'_1, mem_iff]
  omega

end ChunkRange

/-- The loop of `contiguous_chunk_ranges`: `start..stop` is the range being grown. -/
def growRanges (maxFetchChunks maxGap start stop : ℕ) : List ℕ → List ChunkRange
  | [] => [⟨start, stop⟩]
  | chunk :: rest =>
    if chunk ≤ wrappingAdd stop maxGap ∧ wrappingSub (wrappingAdd chunk 1) start ≤ maxFetchChunks then
      growRanges maxFetchChunks maxGap start (wrappingAdd chunk 1) rest
    else ⟨start, stop⟩ :: growRanges maxFetchChunks maxGap chunk (wrappingAdd chunk 1) rest

def contiguousChunkRanges (chunks : OrderedSet ℕ) (maxFetchChunks maxGap : ℕ) : List ChunkRange :=
  match chunks.toList with
  | [] => []
  | start :: rest => growRanges (max maxFetchChunks 1) maxGap start (wrappingAdd start 1) rest

/-! ## Waiter channels -/

inductive ChannelStatus
  | waiting
  | closed
  | sent (result : Except ChunkFetchError Bytes)
  | abandoned
  deriving DecidableEq

structure Channel where
  chunkIndex : ℕ
  status : ChannelStatus

abbrev Channels := ℕ → Channel

namespace Channels

variable (channels : Channels)

def isClosed (id : ℕ) : Bool := (channels id).status = .closed

def setStatus (id : ℕ) (status : ChannelStatus) : Channels :=
  fun i => if i = id then ⟨(channels id).chunkIndex, status⟩ else channels i

/-- `waiter.send(result)`, which fails when the receiver is gone. -/
def send (id : ℕ) (result : Except ChunkFetchError Bytes) : Channels × Bool :=
  if channels.isClosed id then (channels, false) else (channels.setStatus id (.sent result), true)

def dropReceiver (id : ℕ) : Channels :=
  if (channels id).status = .waiting then channels.setStatus id .closed else channels

def dropSender (id : ℕ) : Channels :=
  if (channels id).status = .waiting then channels.setStatus id .abandoned else channels

end Channels

/-! ## The state of one archive -/

structure TilesetFetchState where
  pendingChunks : OrderedSet ℕ := ∅
  firstPendingAt : Option ℕ := none
  inflightChunks : OrderedSet ℕ := ∅
  waiters : List (ℕ × ℕ) := []
  schedulerRunning : Bool := false
  inflightFetchCount : ℕ := 0
  /-- Whether the `Notify` holds a permit. -/
  capacityAvailable : Bool := false
  archiveLen : ℕ := 0

inductive EnqueueOutcome
  | joinedInflight
  | queued
  | joinedPending

structure EnqueuedChunk where
  chunkIndex : ℕ
  receiver : ℕ
  outcome : EnqueueOutcome

structure GroupWaiterOutcome where
  delivered : ℕ := 0
  cancelled : ℕ := 0

inductive DispatchDecision
  | idle
  | throttled
  | dispatch (groups : List ChunkRange) (archiveLen queueDelay pendingAtDispatch : ℕ)
  deriving DecidableEq

namespace TilesetFetchState

variable (s : TilesetFetchState)

def isDrainable : Bool :=
  !s.schedulerRunning && s.pendingChunks.isEmpty && s.inflightFetchCount == 0

/-- One iteration of `enqueue_chunks`: register the waiter, then queue the chunk unless it is
already inflight or pending. -/
def enqueueChunk (queuedAt chunkIndex id : ℕ) : TilesetFetchState × EnqueueOutcome :=
  let s := { s with waiters := s.waiters ++ [(chunkIndex, id)] }
  if chunkIndex ∈ s.inflightChunks then (s, .joinedInflight)
  else if chunkIndex ∈ s.pendingChunks then (s, .joinedPending)
  else
    ({ s with pendingChunks := s.pendingChunks.insert chunkIndex
              firstPendingAt := s.firstPendingAt.or (some queuedAt) }, .queued)

/-- Channels are numbered from `id` in the order of the requested chunks. -/
def enqueueChunks (s : TilesetFetchState) (queuedAt : ℕ) : List ℕ → ℕ → TilesetFetchState × List EnqueuedChunk
  | [], _ => (s, [])
  | chunkIndex :: rest, id =>
    let (s, outcome) := s.enqueueChunk queuedAt chunkIndex id
    let (s, joined) := s.enqueueChunks queuedAt rest (id + 1)
    (s, ⟨chunkIndex, id, outcome⟩ :: joined)

def pruneCancelledWaiters (channels : Channels) : TilesetFetchState × ℕ :=
  let waiters := s.waiters.filter (fun w => !channels.isClosed w.2)
  let pendingChunks := s.pendingChunks.retain (fun c => waiters.any (fun w => w.1 == c))
  ({ s with waiters
            pendingChunks
            firstPendingAt := if pendingChunks.isEmpty then none else s.firstPendingAt },
    s.waiters.length - waiters.length)

/-- A selected range leaves the pending set and becomes inflight, gap chunks included. -/
def markInflight (r : ChunkRange) : TilesetFetchState :=
  { s with inflightChunks := s.inflightChunks.extend r.chunks
           pendingChunks := s.pendingChunks.removeAll r.chunks }

/-- Moves the selected groups to inflight and takes one fetch slot for each. -/
def reserve (groups : List ChunkRange) : TilesetFetchState :=
  let s := groups.foldl markInflight s
  { s with firstPendingAt := if s.pendingChunks.isEmpty then none else s.firstPendingAt
           inflightFetchCount := s.inflightFetchCount + groups.length }

def selectDispatchGroups (maxFetchChunks now : ℕ) : TilesetFetchState × DispatchDecision :=
  if s.pendingChunks.isEmpty then ({ s with schedulerRunning := false }, .idle)
  else if maxConcurrentFetchesPerTileset ≤ s.inflightFetchCount then (s, .throttled)
  else
    let availableSlots := maxConcurrentFetchesPerTileset - s.inflightFetchCount
    let groups := (contiguousChunkRanges s.pendingChunks maxFetchChunks maxChunkGap).take availableSlots
    if groups.isEmpty then (s, .throttled)
    else
      let pendingAtDispatch := s.pendingChunks.length
      let queueDelay := (s.firstPendingAt.map (fun at_ => now - at_)).getD 0
      (s.reserve groups, .dispatch groups s.archiveLen queueDelay pendingAtDispatch)

def chunkResult (result : Except ChunkFetchError (ℕ → Option Bytes)) (chunkIndex : ℕ) : Except ChunkFetchError Bytes :=
  match result with
  | .ok chunks =>
    match chunks chunkIndex with
    | some bytes => .ok bytes
    | none => .error (.message s!"fetched group omitted chunk {chunkIndex}")
  | .error error => .error error

/-- Sends one result to the waiters of one chunk, counting closed receivers apart. -/
def release (result : Except ChunkFetchError Bytes) (channels : Channels) (outcome : GroupWaiterOutcome) :
    List ℕ → Channels × GroupWaiterOutcome
  | [] => (channels, outcome)
  | id :: rest =>
    let (channels, ok) := channels.send id result
    release result channels
      (if ok then { outcome with delivered := outcome.delivered + 1 }
        else { outcome with cancelled := outcome.cancelled + 1 }) rest

def completeChunks (result : Except ChunkFetchError (ℕ → Option Bytes)) :
    List ℕ → TilesetFetchState → Channels → GroupWaiterOutcome →
      TilesetFetchState × Channels × GroupWaiterOutcome
  | [], s, channels, outcome => (s, channels, outcome)
  | chunkIndex :: rest, s, channels, outcome =>
    let removed := (s.waiters.filter (fun w => w.1 == chunkIndex)).map Prod.snd
    let s := { s with inflightChunks := s.inflightChunks.remove chunkIndex
                      waiters := s.waiters.filter (fun w => !(w.1 == chunkIndex)) }
    let (channels, outcome) := release (chunkResult result chunkIndex) channels outcome removed
    completeChunks result rest s channels outcome

def completeGroup (s : TilesetFetchState) (channels : Channels) (chunkRange : ChunkRange)
    (result : Except ChunkFetchError (ℕ → Option Bytes)) : TilesetFetchState × Channels × GroupWaiterOutcome :=
  let schedulerNeedsCapacity :=
    decide (maxConcurrentFetchesPerTileset ≤ s.inflightFetchCount) && !s.pendingChunks.isEmpty
  let s := { s with inflightFetchCount := s.inflightFetchCount - 1
                    capacityAvailable := s.capacityAvailable || schedulerNeedsCapacity }
  completeChunks result chunkRange.chunks s channels {}

end TilesetFetchState
end Mappf.ChunkedStore
