import Mappf.Ishikari.Reader
import Mappf.Pmtiles.ReaderSpec

/-! # Loads keep the caches coherent

What is filed under a generation was decoded from the bytes of that generation: bootstraps, metadata, leaf
directories, chunks, and what the loads in flight are about to install or return. A range is read from the store of
its generation, and its read keeps its place there (`Grows`). -/
namespace Mappf.Ishikari
open RangePhase Option

open ChunkedStore (ArchiveStore GenerationInv KeepsReads ObjectResponse ReadTask beginRead observedRead)
open Common (SingleFlight)
open Pmtiles (ArchiveBootstrap ArchiveKey ArchiveRange Directory Header StreamDecoder minBootstrapBytes)

/-! ## Bootstraps of a beginning of the archive -/

variable {start : ℕ}

theorem slice_of_isPrefix {bytes content : Bytes} (h : bytes <+: content) {stop : ℕ}
    (hstop : stop ≤ bytes.length) : slice bytes start stop = slice content start stop := by
  obtain ⟨rest, rfl⟩ := h
  rw [ChunkedStore.slice_eq_drop_take, ChunkedStore.slice_eq_drop_take, List.take_append_of_le_length hstop]

theorem decodeBootstrapBytes_of_isPrefix {decoder : StreamDecoder} {bytes content : Bytes} {limit : UInt64}
    {archive : ArchiveBootstrap} (h : bytes <+: content)
    (hdec : Pmtiles.decodeBootstrapBytes decoder bytes limit = .ok archive) :
    Pmtiles.decodeBootstrapBytes decoder content limit = .ok archive := by
  have hlen := h.length_le
  unfold Pmtiles.decodeBootstrapBytes at hdec ⊢
  by_cases hshort : bytes.length < Pmtiles.headerSize
  · rw [if_pos hshort] at hdec
    cases hdec
  · have htake : bytes.take Pmtiles.headerSize = content.take Pmtiles.headerSize := by
      obtain ⟨rest, rfl⟩ := h
      rw [List.take_append_of_le_length (by omega)]
    rw [if_neg hshort] at hdec
    rw [if_neg (by omega), ← htake]
    obtain ⟨header, hhdr, hdec⟩ := bind_eq_ok.mp hdec
    refine bind_eq_ok.mpr ⟨header, hhdr, ?_⟩
    cases hend : checkedAdd header.rootOffset.toNat header.rootLength.toNat with
    | none =>
      rw [hend] at hdec
      cases hdec
    | some rootEnd =>
      rw [hend] at hdec
      dsimp only at hdec ⊢
      split_ifs at hdec with hroot
      · cases hdec
      · rw [if_neg (by omega), ← slice_of_isPrefix h (by omega)]
        exact hdec

variable {γ μ : Type}

/-! ## What belongs to a generation -/

namespace Deployment

variable (d : Deployment γ μ)

def HasMetadata (key : ArchiveKey γ) (header : Header) (metadata : μ) : Prop :=
  (header.metadataLength = 0 ∧ metadata = d.defaultMetadata) ∨
    d.decodeMetadata header (d.metadataBytes key header) = .ok metadata

structure Holds (archive : VersionedArchive γ μ) : Prop where
  decoded : d.decodeBootstrap (d.content archive.key) = .ok archive.archive
  metadata : ∀ metadata, archive.metadata = some metadata →
    d.HasMetadata archive.key archive.archive.header metadata

def HoldsLeaf (key : LeafCacheKey γ) (directory : Directory) : Prop :=
  ∃ archive, d.decodeBootstrap (d.content key.archive) = .ok archive ∧
    d.parseDirectory archive.header.internalCompression
      (slice (d.content key.archive) key.offset (key.offset + key.length)) = .ok directory

variable {d} {archive : VersionedArchive γ μ}

theorem Holds.archiveLen (h : d.Holds archive) : d.archiveLen archive.key = archive.archive.archiveLen := by
  unfold Deployment.archiveLen
  rw [h.decoded]

theorem archiveLen_lt (key : ArchiveKey γ) : d.archiveLen key < 2 ^ 64 := by
  unfold Deployment.archiveLen
  split
  case h_1 archive _ => exact (Pmtiles.archiveLen_ok archive.valid).1
  case h_2 => decide

theorem Holds.of_isPrefix {bytes : Bytes} (h : bytes <+: d.content archive.key)
    (hdec : d.decodeBootstrap bytes = .ok archive.archive)
    (hmeta : ∀ metadata, archive.metadata = some metadata →
      d.HasMetadata archive.key archive.archive.header metadata) : d.Holds archive :=
  ⟨decodeBootstrapBytes_of_isPrefix h hdec, hmeta⟩

/-- A generation has one header, hence one metadata. -/
theorem Holds.metadata_iff (h : d.Holds archive) {other : VersionedArchive γ μ} (hother : d.Holds other)
    (hkey : other.key = archive.key) {metadata : μ} : d.HasMetadata other.key other.archive.header metadata ↔
      d.HasMetadata archive.key archive.archive.header metadata := by
  have hdec := hother.decoded
  rw [hkey, h.decoded] at hdec
  rw [hkey, Except.ok.inj hdec]

end Deployment

variable [DecidableEq γ] {d : Deployment γ μ}
  {reader' reader : Reader γ μ} {key : ArchiveKey γ} {phase : RangePhase} {length : ℕ}

/-! ## Caches -/

structure ArchiveCache.Coherent (d : Deployment γ μ) (cache : ArchiveCache γ μ) : Prop where
  archives : ∀ tilesetId cached, cache.archives.lookup tilesetId = some cached →
    d.Holds (cached.versioned tilesetId) ∧ cached.bootstrap <+: d.contents tilesetId cached.generation
  leafs : ∀ key directory, cache.leafs.lookup key = some directory → d.HoldsLeaf key directory

namespace ArchiveCache.Coherent

variable {cache : ArchiveCache γ μ} (h : cache.Coherent d)

include h

variable {archive : VersionedArchive γ μ}

theorem get {now : ℕ} {tid : String} (hget : cache.get now tid = some archive) :
    archive.key.tilesetId = tid ∧ d.Holds archive := by
  obtain ⟨cached, hlook, -, rfl⟩ := get_eq_some hget
  exact ⟨rfl, (h.archives tid cached hlook).1⟩

theorem getBootstrapBytes {archive : ArchiveKey γ} {bytes : Bytes}
    (hget : cache.getBootstrapBytes archive = some bytes) : bytes <+: d.content archive := by
  obtain ⟨cached, hcached, rfl⟩ := map_eq_some_iff.mp hget
  obtain ⟨hlook, hgen⟩ := filter_eq_some_iff.mp hcached
  have hbytes := (h.archives archive.tilesetId cached hlook).2
  rw [of_decide_eq_true hgen] at hbytes
  exact hbytes

theorem clearAbsence (tid : String) : (cache.clearAbsence tid).Coherent d := ⟨h.archives, h.leafs⟩

theorem markAbsent (now : ℕ) (tid : String) : (cache.markAbsent now tid).Coherent d :=
  ⟨h.archives, h.leafs⟩

theorem install (now interval : ℕ) {boot : Bytes} (harch : d.Holds archive) (hboot : boot <+: d.content archive.key) :
    (cache.install now interval archive boot).Coherent d := by
  refine ⟨?_, h.leafs⟩
  intro t cached hlook
  obtain ⟨rfl, rfl⟩ | ⟨-, hold⟩ := lookup_install hlook
  · refine ⟨⟨harch.decoded, ?_⟩, hboot⟩
    intro metadata hmeta
    obtain hown | ⟨old, hold, hgen, hkept⟩ := keptMetadata_eq_some hmeta
    · exact harch.metadata metadata hown
    · have holds := (h.archives _ old hold).1
      have hkey : (old.versioned archive.key.tilesetId).key = archive.key := by
        rw [CachedArchive.versioned, hgen]
      exact (harch.metadata_iff holds hkey).mp (holds.metadata metadata hkept)
  · exact h.archives t cached hold

theorem deferExpiredRevalidation (now : ℕ) (tid : String) : (cache.deferExpiredRevalidation now tid).Coherent d := by
  refine ⟨?_, ?_⟩
  · intro t cached hlook
    obtain hold | ⟨-, old, time, hold, rfl⟩ := lookup_defer hlook
    · exact h.archives t cached hold
    · obtain ⟨holds, hbytes⟩ := h.archives t old hold
      exact ⟨⟨holds.decoded, holds.metadata⟩, hbytes⟩
  · intro key dir hleaf
    rw [ArchiveCache.deferExpiredRevalidation, leafs_modify] at hleaf
    exact h.leafs key dir hleaf

theorem putMetadata {metadata : μ} (harch : d.Holds archive)
    (hmeta : d.HasMetadata archive.key archive.archive.header metadata) :
    (cache.putMetadata archive.key metadata).Coherent d := by
  refine ⟨?_, ?_⟩
  · intro t cached hlook
    obtain hold | ⟨rfl, old, hold, hgen, rfl⟩ := lookup_putMetadata hlook
    · exact h.archives t cached hold
    · obtain ⟨holds, hbytes⟩ := h.archives _ old hold
      refine ⟨⟨holds.decoded, ?_⟩, hbytes⟩
      intro metadata' hsome
      cases hsome
      have hkey : (old.versioned archive.key.tilesetId).key = archive.key := by
        rw [CachedArchive.versioned, hgen]
      exact (harch.metadata_iff holds hkey).mpr hmeta
  · intro key dir hleaf
    rw [ArchiveCache.putMetadata, leafs_modify] at hleaf
    exact h.leafs key dir hleaf

theorem putLeaf {key : LeafCacheKey γ} {dir : Directory} (hleaf : d.HoldsLeaf key dir) :
    (cache.putLeaf key dir).Coherent d := by
  refine ⟨h.archives, ?_⟩
  intro key' dir' hlook
  rw [ArchiveCache.putLeaf, HashMap.lookup_insert_eq] at hlook
  split_ifs at hlook with hkey
  · cases hlook
    rw [hkey]
    exact hleaf
  · exact h.leafs key' dir' hlook

theorem invalidateGeneration (archive : ArchiveKey γ) : (cache.invalidateGeneration archive).Coherent d := by
  refine ⟨fun t cached hlook => h.archives t cached (lookup_invalidate hlook), ?_⟩
  rw [leafs_invalidate]
  exact h.leafs

theorem evict (kept : Kept γ) : (cache.evict kept).Coherent d :=
  ⟨fun t cached hlook => h.archives t cached (lookup_evict hlook), fun key dir hlook => h.leafs key dir (leafs_evict hlook)⟩

end ArchiveCache.Coherent

/-! ## The reader -/

structure Reader.Coherent (d : Deployment γ μ) (reader : Reader γ μ) : Prop where
  cache : reader.cache.Coherent d
  stores : ∀ key, GenerationInv (d.content key) (d.archiveLen key) d.chunkSize (reader.stores key)

def Reader.Grows (reader reader' : Reader γ μ) : Prop :=
  ∀ key, KeepsReads (reader.stores key) (reader'.stores key)

structure Reader.Moved (d : Deployment γ μ) (reader reader' : Reader γ μ) : Prop where
  coherent : reader'.Coherent d
  grows : reader.Grows reader'

namespace Reader

theorem Moved.of_cache (h : reader.Coherent d) (hcache : reader'.cache.Coherent d)
    (hstores : reader'.stores = reader.stores) : reader.Moved d reader' := by
  refine ⟨⟨hcache, ?_⟩, fun key => .of_eq (by rw [hstores])⟩
  rw [hstores]
  exact h.stores

theorem Moved.refl (h : reader.Coherent d) : reader.Moved d reader := .of_cache h h.cache rfl

theorem Moved.setStore (h : reader.Coherent d) {store : ArchiveStore}
    (hstore : GenerationInv (d.content key) (d.archiveLen key) d.chunkSize store)
    (hkeeps : KeepsReads (reader.stores key) store) : reader.Moved d (reader.setStore key store) := by
  refine ⟨⟨h.cache, ?_⟩, ?_⟩
  · intro key'
    unfold Reader.setStore
    dsimp only
    rw [Function.update_apply]
    split_ifs with hkey
    · rw [hkey]
      exact hstore
    · exact h.stores key'
  · intro key'
    unfold Reader.setStore
    dsimp only
    rw [Function.update_apply]
    split_ifs with hkey
    · rw [hkey]
      exact hkeeps
    · exact .of_eq rfl

end Reader

/-! ## Ranges -/

def RangePhase.Ok (reader : Reader γ μ) (key : ArchiveKey γ) (start length : ℕ) : RangePhase → Prop
  | .opening => True
  | .reading read => ∃ task, (reader.stores key).reads[read]? = some task ∧ task.start = start ∧ task.length = length

def RangeProgress.Ok (d : Deployment γ μ) (reader : Reader γ μ) (key : ArchiveKey γ) (start length : ℕ) :
    RangeProgress → Prop
  | .on phase => phase.Ok reader key start length
  | .done (.ok bytes) => bytes = slice (d.content key) start (start + length)
  | .done (.error _) => True

theorem RangePhase.Ok.mono (hgrows : reader.Grows reader') (h : phase.Ok reader key start length) :
    phase.Ok reader' key start length := by
  cases phase with
  | opening => trivial
  | reading read =>
    obtain ⟨task, htask, rfl, rfl⟩ := h
    obtain ⟨task', htask', hstart, hlength⟩ := hgrows key read task htask
    exact ⟨task', htask', hstart, hlength⟩

theorem RangePhase.next_ok {len : ℕ} {prog : RangeProgress} (hread : reader.Coherent d)
    (hlen : d.archiveLen key = len) (hstart : start < 2 ^ 64) (hlength : length < 2 ^ 64)
    (hphase : phase.Ok reader key start length) (h : phase.next d reader key start length len = some (reader', prog)) :
    reader.Moved d reader' ∧ prog.Ok d reader' key start length := by
  cases phase with
  | opening =>
    unfold next at h
    dsimp only at h
    split_ifs at h with hzero
    · cases h
      refine ⟨.refl hread, ?_⟩
      rw [hzero]
      exact (slice_self _ _).symm
    · split at h
      · cases h
        exact ⟨.refl hread, trivial⟩
      · cases h
        subst hlen
        refine ⟨.setStore hread ?_ (.append _), ?_⟩
        · exact (hread.stores key).readBytes d.chunkSize_pos (Deployment.archiveLen_lt key) hstart hlength
        · refine ⟨⟨start, length, beginRead (d.archiveLen key) d.chunkSize start length⟩, ?_, rfl, rfl⟩
          unfold Reader.setStore
          dsimp only
          rw [Function.update_self, List.getElem?_concat_length]
  | reading read =>
    obtain ⟨task, htask, rfl, rfl⟩ := hphase
    unfold next at h
    dsimp only at h
    rw [htask] at h
    obtain ⟨start, length, phase⟩ := task
    cases phase with
    | done res =>
      cases res with
      | ok out =>
        cases h
        exact ⟨.refl hread, (hread.stores key).read_eq (List.mem_of_getElem? htask) rfl⟩
      | error error =>
        cases h
        exact ⟨.refl hread, trivial⟩
    | probing | awaiting | cancelled => cases h

/-! ## Flights -/

section Flights

variable {κ ω α : Type} [DecidableEq κ] (WorkOk : ω → Prop) (ValueOk : α → Prop)

def resultOk : Except ReaderError α → Prop
  | .ok value => ValueOk value
  | .error _ => True

def Flying.Ok : Flying ω α → Prop
  | .working phase => WorkOk phase
  | .releasing result | .sending _ result => result.elim True (resultOk ValueOk)
  | .looking | .missed | .electing | .following _ => True

def Progress.Ok : Progress ω α → Prop
  | .on phase => phase.Ok WorkOk ValueOk
  | .done result => resultOk ValueOk result
  | .dropped => True

variable {WorkOk ValueOk} {phase : Flying ω α} {prog : Progress ω α}

theorem Flying.Ok.mono {WorkOk' : ω → Prop} (hwork : ∀ phase, WorkOk phase → WorkOk' phase)
    (h : phase.Ok WorkOk ValueOk) : phase.Ok WorkOk' ValueOk := by
  cases phase with
  | working phase => exact hwork phase h
  | looking | missed | electing | following => trivial
  | releasing | sending => exact h

theorem Flying.next_ok {flights flights' : SingleFlight κ ReaderFlightError} {key : κ} {start : ω}
    (hstart : WorkOk start) (hphase : phase.Ok WorkOk ValueOk)
    (h : phase.next flights key start = some (flights', prog)) : prog.Ok WorkOk ValueOk := by
  cases phase with
  | electing =>
    unfold Flying.next at h
    dsimp only at h
    split at h
    · cases h
      exact hstart
    · cases h
      trivial
  | following recv =>
    unfold Flying.next at h
    dsimp only at h
    split at h
    · cases h
    · cases h
      trivial
    · cases h
      trivial
  | releasing res =>
    cases h
    exact hphase
  | sending sender res =>
    cases h
    cases res with
    | none => trivial
    | some res => exact hphase
  | looking | missed | working => cases h

theorem Flying.cancel_ok {awaits : ω → Bool} (h : phase.cancel awaits = some prog) : prog.Ok WorkOk ValueOk := by
  cases phase with
  | following recv =>
    cases h
    trivial
  | working phase =>
    unfold Flying.cancel at h
    dsimp only at h
    split_ifs at h
    cases h
    trivial
  | _ => cases h

end Flights

/-! ## Bootstraps -/

section Load

variable {tid : String} {bytes : Bytes}

def Loaded (d : Deployment γ μ) (tilesetId : String) (archive : VersionedArchive γ μ) : Prop :=
  archive.key.tilesetId = tilesetId ∧ d.Holds archive

def LoadedIfAny (d : Deployment γ μ) (tilesetId : String) (archive : Option (VersionedArchive γ μ)) : Prop :=
  ∀ a, archive = some a → Loaded d tilesetId a

def LoadWork.Ok (d : Deployment γ μ) (tilesetId : String) : LoadWork γ μ → Prop
  | .clearingAbsence archive bootstrap | .installing archive bootstrap =>
    Loaded d tilesetId archive ∧ bootstrap <+: d.content archive.key
  | _ => True

abbrev Load.Ok (d : Deployment γ μ) (tilesetId : String) (load : Load γ μ) : Prop :=
  Flying.Ok (LoadWork.Ok d tilesetId) (LoadedIfAny d tilesetId) load

omit [DecidableEq γ] in
theorem LoadedIfAny.some {archive : VersionedArchive γ μ} (h : Loaded d tid archive) :
    LoadedIfAny d tid (some archive) := by
  intro a ha
  cases ha
  exact h

omit [DecidableEq γ] in
theorem LoadedIfAny.none : LoadedIfAny d tid none := by
  intro a ha
  cases ha

omit [DecidableEq γ] in
theorem Load.failed_ok (reval : Bool) (error : ReaderError) : Load.Ok d tid (Load.failed reval error) := by
  unfold Load.failed
  split_ifs <;> trivial

omit [DecidableEq γ] in
theorem Deployment.transfer_metadata {incl : Bool} {peer : Deployment.PeerBootstrap γ}
    (h : (d.transfer tid incl peer).metadata = some bytes) :
    ∃ archive, d.decodeBootstrap (d.contents tid peer.generation) = .ok archive ∧
      bytes = d.metadataBytes ⟨tid, peer.generation⟩ archive.header := by
  unfold Deployment.transfer at h
  split at h
  case h_1 archive harch =>
    split_ifs at h
    cases h
    exact ⟨archive, harch, rfl⟩
  case h_2 => cases h

omit [DecidableEq γ] in
theorem Load.received_ok (incl : Bool) (peer : Deployment.PeerBootstrap γ) :
    Load.Ok d tid (Load.received d tid (d.transfer tid incl peer)) := by
  have hbytes : (d.transfer tid incl peer).bootstrap <+: d.contents tid peer.generation :=
    List.take_prefix _ _
  unfold Load.received
  split
  case h_1 => trivial
  case h_2 archive harch =>
    have hdec := context_eq_ok.mp harch
    split
    case h_1 =>
      refine ⟨⟨rfl, .of_isPrefix hbytes hdec ?_⟩, hbytes⟩
      nofun
    case h_2 bytes hsent =>
      split
      case h_1 => trivial
      case h_2 metadata hmeta =>
        refine ⟨⟨rfl, .of_isPrefix hbytes hdec ?_⟩, hbytes⟩
        intro metadata' heq
        cases heq
        obtain ⟨whole, hwhole, rfl⟩ := Deployment.transfer_metadata hsent
        have hsame := decodeBootstrapBytes_of_isPrefix hbytes hdec
        rw [show Pmtiles.decodeBootstrapBytes d.decoder _ _ = _ from hwhole] at hsame
        cases hsame
        exact .inr (context_eq_ok.mp hmeta)

omit [DecidableEq γ] in
theorem Deployment.observeRange_ok {resp : ObjectResponse γ} {gen : γ}
    (h : d.observeRange tid resp = .ok (gen, bytes)) : bytes <+: d.contents tid gen := by
  unfold Deployment.observeRange at h
  split at h
  · cases h
  · split at h
    · cases h
    case h_2 observed hobs =>
      cases h
      unfold observedRead at hobs
      split at hobs
      · cases hobs
        exact List.take_prefix _ _
      · cases hobs
      · cases hobs

omit [DecidableEq γ] in
theorem Load.observed_ok (reval : Bool) (resp : ObjectResponse γ) :
    Load.Ok d tid (Load.observed d tid reval (d.observeRange tid resp)) := by
  unfold Load.observed
  split
  · trivial
  · exact failed_ok reval _
  case h_3 gen bytes hobs =>
    have hbytes := Deployment.observeRange_ok hobs
    split
    · exact failed_ok reval _
    case h_2 archive harch =>
      refine ⟨⟨rfl, .of_isPrefix hbytes harch ?_⟩, hbytes⟩
      nofun

theorem Load.work_ok (hread : reader.Coherent d) (mode : LoadMode) (ans : Answer γ) {phase : LoadWork γ μ}
    (hphase : phase.Ok d tid) : reader.Moved d (Load.work d reader tid mode ans phase).1 ∧
      Load.Ok d tid (Load.work d reader tid mode ans phase).2 := by
  cases phase with
  | rechecking =>
    refine ⟨.refl hread, ?_⟩
    unfold Load.work
    dsimp only
    split
    case h_1 archive harch => exact LoadedIfAny.some (hread.cache.get harch)
    case h_2 => trivial
  | recheckingAbsence =>
    refine ⟨.refl hread, ?_⟩
    unfold Load.work
    dsimp only
    split_ifs
    · exact LoadedIfAny.none
    · trivial
  | routing =>
    refine ⟨.refl hread, ?_⟩
    unfold Load.work
    dsimp only
    split_ifs <;> trivial
  | asking incl =>
    refine ⟨.refl hread, ?_⟩
    unfold Load.work
    dsimp only
    split
    case h_1 peer _ => exact received_ok incl peer
    case h_2 => trivial
  | observing reval => exact ⟨.refl hread, observed_ok reval ans.object⟩
  | markingAbsent =>
    exact ⟨.of_cache hread (hread.cache.markAbsent reader.now tid) rfl, LoadedIfAny.none⟩
  | clearingAbsence archive boot =>
    exact ⟨.of_cache hread (hread.cache.clearAbsence tid) rfl, hphase⟩
  | installing archive boot =>
    obtain ⟨hloaded, hboot⟩ := hphase
    exact ⟨.of_cache hread (hread.cache.install reader.now _ hloaded.2 hboot) rfl, LoadedIfAny.some hloaded⟩
  | deferring error =>
    exact ⟨.of_cache hread (hread.cache.deferExpiredRevalidation reader.now tid) rfl, trivial⟩
  | readingStale error =>
    refine ⟨.refl hread, ?_⟩
    unfold Load.work
    dsimp only
    split
    case h_1 stale hstale => exact LoadedIfAny.some (hread.cache.get hstale)
    case h_2 => trivial

omit [DecidableEq γ] in
theorem Load.start_ok (mode : LoadMode) : LoadWork.Ok d tid (Load.start mode) := by
  cases mode with
  | routed incl | here => trivial

theorem Load.next_ok (hread : reader.Coherent d) {mode : LoadMode} {ans : Answer γ} {load : Load γ μ}
    {prog : Progress (LoadWork γ μ) (Option (VersionedArchive γ μ))} (hload : Load.Ok d tid load)
    (h : load.next d reader tid mode ans = some (reader', prog)) :
    reader.Moved d reader' ∧ prog.Ok (LoadWork.Ok d tid) (LoadedIfAny d tid) := by
  cases load with
  | looking =>
    cases h
    refine ⟨.refl hread, ?_⟩
    split
    case h_1 archive harch => exact LoadedIfAny.some (hread.cache.get harch)
    case h_2 => trivial
  | missed =>
    cases h
    refine ⟨.refl hread, ?_⟩
    split_ifs
    · exact LoadedIfAny.none
    · trivial
  | working phase =>
    cases h
    exact work_ok hread mode ans hload
  | _ =>
    unfold Load.next at h
    obtain ⟨⟨flights, prog⟩, hnext, heq⟩ := map_eq_some_iff.mp h
    cases heq
    exact ⟨.of_cache hread hread.cache rfl, Flying.next_ok (start_ok mode) hload hnext⟩

end Load

/-! ## Leaf directories -/

section LeafLoad

variable {archive : VersionedArchive γ μ} {range : ArchiveRange} {load : LeafLoad} {ans : Answer γ}

def LeafWork.Ok (d : Deployment γ μ) (reader : Reader γ μ) (archive : VersionedArchive γ μ) (range : ArchiveRange) :
    LeafWork → Prop
  | .asking => True
  | .fetching phase => phase.Ok reader archive.key range.offset range.length.toNat
  | .installing directory => d.HoldsLeaf (LeafLoad.leafKey archive range) directory

abbrev LeafLoad.Ok (d : Deployment γ μ) (reader : Reader γ μ) (archive : VersionedArchive γ μ) (range : ArchiveRange)
    (load : LeafLoad) : Prop :=
  Flying.Ok (LeafWork.Ok d reader archive range) (d.HoldsLeaf (LeafLoad.leafKey archive range)) load

theorem LeafLoad.Ok.mono (hgrows : reader.Grows reader') (h : load.Ok d reader archive range) :
    load.Ok d reader' archive range := by
  refine Flying.Ok.mono ?_ h
  intro phase hphase
  cases phase with
  | asking => trivial
  | fetching phase => exact RangePhase.Ok.mono hgrows hphase
  | installing dir => exact hphase

theorem LeafLoad.decoded_ok (harch : d.Holds archive) {res : Fallible Directory}
    (h : ∀ dir, res = .ok dir → d.parseDirectory archive.archive.header.internalCompression
      (slice (d.content archive.key) range.offset (range.offset + range.length.toNat)) = .ok dir) :
    (LeafLoad.decoded res).Ok d reader archive range := by
  cases res with
  | ok dir => exact ⟨archive.archive, harch.decoded, h dir rfl⟩
  | error failure => trivial

theorem Deployment.fetchLeafBytes_ok {offset : ℕ} {peer : Option γ} {body : Bytes}
    (h : d.fetchLeafBytes key offset length peer = some body) :
    body = slice (d.content key) offset (offset + length) := by
  obtain ⟨gen, -, hbody⟩ := bind_eq_some_iff.mp h
  split_ifs at hbody with hgen
  cases hbody
  rw [hgen]
  rfl

variable (hread : reader.Coherent d) (harch : d.Holds archive) (hoff : range.offset < 2 ^ 64)
include hread harch hoff

theorem LeafLoad.work_ok
    {phase : LeafWork} (hphase : phase.Ok d reader archive range)
    (h : LeafLoad.work d reader archive range ans phase = some (reader', load)) :
    reader.Moved d reader' ∧ load.Ok d reader' archive range := by
  cases phase with
  | asking =>
    cases h
    refine ⟨.refl hread, ?_⟩
    split
    case h_1 body hbody =>
      refine decoded_ok harch ?_
      intro dir hdir
      rw [← Deployment.fetchLeafBytes_ok hbody]
      exact context_eq_ok.mp hdir
    case h_2 => trivial
  | fetching phase =>
    have hlength : range.length.toNat < 2 ^ 64 := by have := range.length.toNat_lt; omega
    unfold LeafLoad.work at h
    dsimp only at h
    split at h
    · cases h
    case h_2 reader₁ phase₁ hnext =>
      cases h
      exact next_ok hread harch.archiveLen hoff hlength hphase hnext
    case h_3 reader₁ error hnext =>
      cases h
      exact ⟨(next_ok hread harch.archiveLen hoff hlength hphase hnext).1, trivial⟩
    case h_4 reader₁ bytes hnext =>
      cases h
      obtain ⟨hmoved, hbytes⟩ := next_ok hread harch.archiveLen hoff hlength hphase hnext
      refine ⟨hmoved, decoded_ok harch ?_⟩
      intro dir hdir
      rw [← show bytes = _ from hbytes]
      exact hdir
  | installing dir =>
    cases h
    exact ⟨.of_cache hread (hread.cache.putLeaf hphase) rfl, hphase⟩

theorem LeafLoad.next_ok
    {prog : Progress LeafWork Directory} (hload : load.Ok d reader archive range)
    (h : load.next d reader archive range ans = some (reader', prog)) : reader.Moved d reader' ∧
      prog.Ok (LeafWork.Ok d reader' archive range) (d.HoldsLeaf (leafKey archive range)) := by
  cases load with
  | looking =>
    cases h
    refine ⟨.refl hread, ?_⟩
    split
    case h_1 dir hdir => exact hread.cache.leafs _ dir hdir
    case h_2 => trivial
  | working phase =>
    obtain ⟨load, hwork, rfl⟩ := handed_on h
    exact work_ok hread harch hoff hload hwork
  | _ =>
    unfold LeafLoad.next at h
    obtain ⟨⟨flights, prog⟩, hnext, heq⟩ := map_eq_some_iff.mp h
    cases heq
    have hmoved : reader.Moved d { reader with leafInflight := flights } := .of_cache hread hread.cache rfl
    refine ⟨hmoved, Flying.next_ok ?_ (LeafLoad.Ok.mono hmoved.grows hload) hnext⟩
    trivial

end LeafLoad

/-! ## Metadata -/

section MetadataLoad

variable {archive : VersionedArchive γ μ} {load : MetadataLoad μ}

def MetadataWork.Ok (d : Deployment γ μ) (reader : Reader γ μ) (archive : VersionedArchive γ μ) :
    MetadataWork μ → Prop
  | .leading => True
  | .fetching phase => phase.Ok reader archive.key archive.archive.header.metadataOffset.toNat
      archive.archive.header.metadataLength.toNat
  | .installing metadata => d.HasMetadata archive.key archive.archive.header metadata

abbrev MetadataLoad.Ok (d : Deployment γ μ) (reader : Reader γ μ) (archive : VersionedArchive γ μ)
    (load : MetadataLoad μ) : Prop :=
  Flying.Ok (MetadataWork.Ok d reader archive) (d.HasMetadata archive.key archive.archive.header) load

theorem MetadataLoad.Ok.mono (hgrows : reader.Grows reader') (h : load.Ok d reader archive) :
    load.Ok d reader' archive := by
  refine Flying.Ok.mono ?_ h
  intro phase hphase
  cases phase with
  | leading => trivial
  | fetching phase => exact RangePhase.Ok.mono hgrows hphase
  | installing metadata => exact hphase

variable (hread : reader.Coherent d) (harch : d.Holds archive)
include hread harch

theorem MetadataLoad.work_ok {phase : MetadataWork μ}
    (hphase : phase.Ok d reader archive) (h : MetadataLoad.work d reader archive phase = some (reader', load)) :
    reader.Moved d reader' ∧ load.Ok d reader' archive := by
  have hoff := archive.archive.header.metadataOffset.toNat_lt
  have hlength := archive.archive.header.metadataLength.toNat_lt
  cases phase with
  | leading =>
    cases h
    refine ⟨.refl hread, ?_⟩
    split
    case h_1 metadata hmeta => exact harch.metadata metadata hmeta
    case h_2 =>
      split_ifs with hzero
      · exact .inl ⟨hzero, rfl⟩
      · trivial
  | fetching phase =>
    unfold MetadataLoad.work at h
    dsimp only at h
    split at h
    · cases h
    case h_2 reader₁ phase₁ hnext =>
      cases h
      exact next_ok hread harch.archiveLen hoff hlength hphase hnext
    case h_3 reader₁ error hnext =>
      cases h
      exact ⟨(next_ok hread harch.archiveLen hoff hlength hphase hnext).1, trivial⟩
    case h_4 reader₁ bytes hnext =>
      cases h
      obtain ⟨hmoved, hbytes⟩ := next_ok hread harch.archiveLen hoff hlength hphase hnext
      refine ⟨hmoved, ?_⟩
      split
      case h_1 metadata hmeta =>
        rw [show bytes = _ from hbytes] at hmeta
        exact .inr hmeta
      case h_2 => trivial
  | installing metadata =>
    cases h
    exact ⟨.of_cache hread (hread.cache.putMetadata harch hphase) rfl, hphase⟩

theorem MetadataLoad.cached_ok {metadata : μ}
    (h : MetadataLoad.cached reader archive = some metadata) :
    d.HasMetadata archive.key archive.archive.header metadata := by
  obtain ⟨cur, hcur, hmeta⟩ := bind_eq_some_iff.mp h
  obtain ⟨hget, hgen⟩ := filter_eq_some_iff.mp hcur
  obtain ⟨htileset, hholds⟩ := hread.cache.get hget
  have hkey : cur.key = archive.key := by
    obtain ⟨⟨tid, gen⟩, _, _⟩ := cur
    obtain ⟨⟨tid', gen'⟩, _, _⟩ := archive
    dsimp only at htileset hgen ⊢
    rw [htileset, of_decide_eq_true hgen]
  exact (harch.metadata_iff hholds hkey).mp (hholds.metadata metadata hmeta)

theorem MetadataLoad.next_ok
    {prog : Progress (MetadataWork μ) μ} (hload : load.Ok d reader archive)
    (h : load.next d reader archive = some (reader', prog)) : reader.Moved d reader' ∧
      prog.Ok (MetadataWork.Ok d reader' archive) (d.HasMetadata archive.key archive.archive.header) := by
  cases load with
  | looking =>
    cases h
    refine ⟨.refl hread, ?_⟩
    split
    case h_1 metadata hmeta => exact cached_ok hread harch hmeta
    case h_2 => trivial
  | working phase =>
    obtain ⟨load, hwork, rfl⟩ := handed_on h
    exact work_ok hread harch hload hwork
  | _ =>
    unfold MetadataLoad.next at h
    obtain ⟨⟨flights, prog⟩, hnext, heq⟩ := map_eq_some_iff.mp h
    cases heq
    have hmoved : reader.Moved d { reader with metadataInflight := flights } := .of_cache hread hread.cache rfl
    refine ⟨hmoved, Flying.next_ok ?_ (MetadataLoad.Ok.mono hmoved.grows hload) hnext⟩
    trivial

end MetadataLoad
end Mappf.Ishikari
