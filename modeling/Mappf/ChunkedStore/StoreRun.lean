import Mappf.ChunkedStore.CoordinatorInvariant
import Mappf.ChunkedStore.StoreBytes

/-! # Runs of the chunked store for one archive

Reads, group tasks, the scheduler and the cache interleave at every await point and every cache
access of the source. The cache is a map from which entries may vanish at any time. The object
store is the environment: each fetch is answered by some function that serves the archive. -/
namespace Mappf.ChunkedStore

inductive GroupPhase
  | fetching
  /-- Inside `cache_chunk_group`: the chunks still to be cached, and those collected so far. -/
  | caching (rest : List (ℕ × Bytes)) (chunks : ℕ → Option Bytes)
  | finished (result : Except ChunkFetchError (ℕ → Option Bytes))

structure GroupTask where
  group : DispatchedGroup
  phase : GroupPhase

inductive ReadPhase
  | probing (rest : List ℕ) (resolved : ℕ → Option Bytes) (missing : List ℕ)
  /-- Inside `fetch_chunks`: the receivers not awaited yet, in order. -/
  | awaiting (receivers : List (ℕ × ℕ)) (fetched resolved : ℕ → Option Bytes)
  | done (result : Except ChunkFetchError ChunkRead)
  | cancelled

structure ReadTask where
  start : ℕ
  length : ℕ
  phase : ReadPhase

structure ArchiveStore where
  coordinator : ArchiveCoordinator := {}
  cache : ℕ → Option Bytes := fun _ => none
  tasks : List GroupTask := []
  reads : List ReadTask := []

/-! ## A read -/

/-- `read_bytes` up to its first cache access. A range within one chunk takes the separate path
`read_single_chunk`, which does what the general path does for a single chunk. -/
def beginRead (archiveLen chunkSize start length : ℕ) : ReadPhase :=
  match validateByteRange start length (some archiveLen) with
  | .error e => .done (.error (.message e.display))
  | .ok stop =>
    if length = 0 then .done (.ok ⟨[], .cache⟩)
    else .probing (chunksOf (byteRangeToChunkRange start stop chunkSize)) (fun _ => none) []

def probeChunk (cache : ℕ → Option Bytes) (chunk : ℕ) (rest : List ℕ) (resolved : ℕ → Option Bytes)
    (missing : List ℕ) : ReadPhase :=
  match cache chunk with
  | some bytes => .probing rest (Function.update resolved chunk (some bytes)) missing
  | none => .probing rest resolved (missing ++ [chunk])

def answer (chunkSize start length : ℕ) (chunks : ℕ → Option Bytes) (source : ChunkReadSource) : ReadPhase :=
  match readResolvedBytes chunkSize start length chunks with
  | .error e => .done (.error e)
  | .ok bytes => .done (.ok ⟨bytes, source⟩)

def extendChunks (resolved fetched : ℕ → Option Bytes) : ℕ → Option Bytes :=
  fun c => (fetched c).or (resolved c)

def waiterDropped : ChunkFetchError := .message "chunk fetch waiter dropped"

def received : ChannelStatus → Option (Except ChunkFetchError Bytes)
  | .sent result => some result
  | .abandoned => some (.error waiterDropped)
  | .waiting => none
  | .closed => none

/-! ## A group task -/

/-- `run_fetch_chunk_group` once the object store has answered. -/
def fetchAnswered (chunkSize : ℕ) (objectStore : ℕ → ℕ → Except ChunkFetchError Bytes)
    (g : DispatchedGroup) : GroupPhase :=
  match fetchChunkGroup chunkSize objectStore g.chunkRange g.archiveLen with
  | .error e => .finished (.error e)
  | .ok bytes =>
    match cutChunkGroup g.chunkRange chunkSize g.archiveLen bytes with
    | .error e => .finished (.error (.message e.display))
    | .ok cut => .caching cut (fun _ => none)

namespace ArchiveStore

variable (s : ArchiveStore)

def setRead (i : ℕ) (r : ReadTask) (phase : ReadPhase) : ArchiveStore :=
  { s with reads := s.reads.set i { r with phase } }

def setTask (i : ℕ) (t : GroupTask) (phase : GroupPhase) : ArchiveStore :=
  { s with tasks := s.tasks.set i { t with phase } }

def dropReceivers (receivers : List (ℕ × ℕ)) : ArchiveStore :=
  { s with coordinator := receivers.foldl (fun c w => c.dropReceiver w.2) s.coordinator }

/-- The end of the probing loop: answer from the cache, or enqueue the missing chunks. -/
def probed (chunkSize archiveLen queuedAt i : ℕ) (r : ReadTask)
    (resolved : ℕ → Option Bytes) (missing : List ℕ) : ArchiveStore :=
  if missing.isEmpty then s.setRead i r (answer chunkSize r.start r.length resolved .cache)
  else
    let (coordinator, joined) := s.coordinator.fetchChunks missing queuedAt archiveLen
    { s with coordinator }.setRead i r
      (.awaiting (joined.map (fun e : EnqueuedChunk => (e.chunkIndex, e.receiver))) (fun _ => none) resolved)

/-- A chunk result is collected; an error ends the read and drops the receivers left. -/
def receive (i : ℕ) (r : ReadTask) (chunk : ℕ) (receivers : List (ℕ × ℕ))
    (fetched resolved : ℕ → Option Bytes) (result : Except ChunkFetchError Bytes) : ArchiveStore :=
  match result with
  | .ok bytes => s.setRead i r (.awaiting receivers (Function.update fetched chunk (some bytes)) resolved)
  | .error e => (s.dropReceivers receivers).setRead i r (.done (.error e))

def schedulerPass (s : ArchiveStore) (task maxFetchChunks now : ℕ) : ArchiveStore :=
  let coordinator := s.coordinator.schedulerPass task maxFetchChunks now
  let dispatched := coordinator.groups.drop s.coordinator.groups.length
  { s with coordinator, tasks := s.tasks ++ dispatched.map (fun g => ⟨g, .fetching⟩) }

def complete (i : ℕ) (t : GroupTask) (result : Except ChunkFetchError (ℕ → Option Bytes)) : ArchiveStore :=
  { s with coordinator := s.coordinator.completeDispatchedGroup i t.group.chunkRange result
           tasks := s.tasks.eraseIdx i }

inductive Step (A : Bytes) (chunkSize maxFetchChunks : ℕ) : ArchiveStore → ArchiveStore → Prop
  | readBytes (s : ArchiveStore) (start length : ℕ) (hstart : start < 2 ^ 64) (hlength : length < 2 ^ 64) :
      Step A chunkSize maxFetchChunks s
        { s with reads := s.reads ++ [⟨start, length, beginRead A.length chunkSize start length⟩] }
  | probe (s : ArchiveStore) (i : ℕ) (r : ReadTask) (chunk : ℕ) (rest : List ℕ)
      (resolved : ℕ → Option Bytes) (missing : List ℕ) (hr : s.reads[i]? = some r)
      (hphase : r.phase = .probing (chunk :: rest) resolved missing) :
      Step A chunkSize maxFetchChunks s (s.setRead i r (probeChunk s.cache chunk rest resolved missing))
  | probed (s : ArchiveStore) (i queuedAt : ℕ) (r : ReadTask) (resolved : ℕ → Option Bytes)
      (missing : List ℕ) (hr : s.reads[i]? = some r) (hphase : r.phase = .probing [] resolved missing) :
      Step A chunkSize maxFetchChunks s (s.probed chunkSize A.length queuedAt i r resolved missing)
  | receive (s : ArchiveStore) (i : ℕ) (r : ReadTask) (w : ℕ × ℕ) (receivers : List (ℕ × ℕ))
      (fetched resolved : ℕ → Option Bytes) (result : Except ChunkFetchError Bytes)
      (hr : s.reads[i]? = some r) (hphase : r.phase = .awaiting (w :: receivers) fetched resolved)
      (hresult : received (s.coordinator.channels w.2).status = some result) :
      Step A chunkSize maxFetchChunks s (s.receive i r w.1 receivers fetched resolved result)
  | fetched (s : ArchiveStore) (i : ℕ) (r : ReadTask) (fetched resolved : ℕ → Option Bytes)
      (hr : s.reads[i]? = some r) (hphase : r.phase = .awaiting [] fetched resolved) :
      Step A chunkSize maxFetchChunks s
        (s.setRead i r (answer chunkSize r.start r.length (extendChunks resolved fetched) .backend))
  /-- The caller drops the future while it probes. -/
  | cancelProbing (s : ArchiveStore) (i : ℕ) (r : ReadTask) (rest : List ℕ) (resolved : ℕ → Option Bytes)
      (missing : List ℕ) (hr : s.reads[i]? = some r) (hphase : r.phase = .probing rest resolved missing) :
      Step A chunkSize maxFetchChunks s (s.setRead i r .cancelled)
  /-- The caller drops the future while it awaits chunks. -/
  | cancelAwaiting (s : ArchiveStore) (i : ℕ) (r : ReadTask) (receivers : List (ℕ × ℕ))
      (fetched resolved : ℕ → Option Bytes) (hr : s.reads[i]? = some r)
      (hphase : r.phase = .awaiting receivers fetched resolved) :
      Step A chunkSize maxFetchChunks s ((s.dropReceivers receivers).setRead i r .cancelled)
  | schedulerPass (s : ArchiveStore) (task now : ℕ) (h : s.coordinator.schedulers[task]? = some .ready) :
      Step A chunkSize maxFetchChunks s (s.schedulerPass task maxFetchChunks now)
  | wakeScheduler (s : ArchiveStore) (task : ℕ) (h : s.coordinator.schedulers[task]? = some .waitingCapacity)
      (hcap : s.coordinator.current.capacityAvailable = true) :
      Step A chunkSize maxFetchChunks s { s with coordinator := s.coordinator.wakeScheduler task }
  | answered (s : ArchiveStore) (i : ℕ) (t : GroupTask) (objectStore : ℕ → ℕ → Except ChunkFetchError Bytes)
      (ht : s.tasks[i]? = some t) (hphase : t.phase = .fetching) (hserves : Serves A objectStore) :
      Step A chunkSize maxFetchChunks s (s.setTask i t (fetchAnswered chunkSize objectStore t.group))
  | cacheChunk (s : ArchiveStore) (i : ℕ) (t : GroupTask) (chunk : ℕ × Bytes) (rest : List (ℕ × Bytes))
      (chunks : ℕ → Option Bytes) (ht : s.tasks[i]? = some t)
      (hphase : t.phase = .caching (chunk :: rest) chunks) :
      Step A chunkSize maxFetchChunks s
        ({ s with cache := Function.update s.cache chunk.1 (some chunk.2) }.setTask i t
          (.caching rest (Function.update chunks chunk.1 (some chunk.2))))
  | cached (s : ArchiveStore) (i : ℕ) (t : GroupTask) (chunks : ℕ → Option Bytes)
      (ht : s.tasks[i]? = some t) (hphase : t.phase = .caching [] chunks) :
      Step A chunkSize maxFetchChunks s (s.setTask i t (.finished (.ok chunks)))
  | complete (s : ArchiveStore) (i : ℕ) (t : GroupTask)
      (result : Except ChunkFetchError (ℕ → Option Bytes)) (ht : s.tasks[i]? = some t)
      (hphase : t.phase = .finished result) :
      Step A chunkSize maxFetchChunks s (s.complete i t result)
  /-- The group was shed at dispatch, or its task was dropped or panicked at any point. -/
  | abort (s : ArchiveStore) (i : ℕ) (t : GroupTask) (e : ChunkFetchError) (ht : s.tasks[i]? = some t) :
      Step A chunkSize maxFetchChunks s (s.complete i t (.error e))
  | evict (s : ArchiveStore) (keep : ℕ → Bool) :
      Step A chunkSize maxFetchChunks s { s with cache := fun c => if keep c then s.cache c else none }

end ArchiveStore

def archiveStoreMachine (chunkSize maxFetchChunks : ℕ) (A : Bytes) : Machine ArchiveStore where
  init := {}
  step := ArchiveStore.Step A chunkSize maxFetchChunks

/-- `ChunkedStore` over all archive generations. Cache entries are keyed by archive, and an
insertion for one archive may evict entries of another, which is an `evict` step there. -/
def chunkedStore {κ : Type} [DecidableEq κ] (archives : κ → Bytes) (chunkSize maxFetchChunks : ℕ) :
    Machine (κ → ArchiveStore) :=
  keyed (fun archive => archiveStoreMachine chunkSize maxFetchChunks (archives archive))

end Mappf.ChunkedStore
