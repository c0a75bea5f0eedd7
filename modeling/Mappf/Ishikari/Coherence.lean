import Mappf.Ishikari.CoherentLoads

/-! # Generation coherence

Whatever a call returns under a generation is what a reader of that generation alone would return, in every
interleaving of calls, evictions, replaced objects and peers that hold other generations. A traversal keeps the
place it has in the traversal of that reader (`Walks`). -/
namespace Mappf.Ishikari
open Option

open ChunkedStore (ArchiveStore GenerationStep beginRead slice_eq_drop_take)
open Pmtiles (ArchiveBackend ArchiveKey ArchiveRange ArchiveReader Directory DirectoryWalker Header TileData TileId
  TileLocation minBootstrapBytes)

variable {γ μ : Type}

/-! ## One generation on its own -/

section Generation

variable (d : Deployment γ μ) (key : ArchiveKey γ)

def Deployment.generationBackend : ArchiveBackend Unit Failure where
  loadBootstrap := fun s => (d.decodeBootstrap (d.content key), s)
  loadLeaf := fun request s => (d.parseDirectory request.compression
    (slice (d.content key) request.offset (request.offset + request.length.toNat)), s)
  readRange := fun request s => (.ok (slice (d.content key) request.offset (request.offset + request.length)), s)
  invalidTileId := id
  invalidArchive := id

def Deployment.generationReader : ArchiveReader Unit Failure where
  backend := d.generationBackend key
  limits := readerLimits
  valid := by decide

theorem Deployment.generationReader_checkRange (offset : ℕ) (length : UInt32) :
    (d.generationReader key).checkRange offset length = checkRange offset length := rfl

end Generation

variable {d : Deployment γ μ} {archive : VersionedArchive γ μ} {tileId : UInt64}
  {walker : DirectoryWalker} {tilesetId : String} {directory : Directory}

theorem checkRange_ok {offset : ℕ} {length : UInt32} (h : checkRange offset length = .ok ()) : offset < 2 ^ 64 := by
  unfold checkRange at h
  dsimp only at h
  split_ifs at h
  · cases h
  · split at h
    · cases h
    case h_2 hadd =>
      have hlt := (checkedAdd_eq_some.mp hadd).1
      omega

/-! ## The traversal -/

def Walks (d : Deployment γ μ) (archive : VersionedArchive γ μ) (tileId : UInt64) (walker : DirectoryWalker)
    (directory : Directory) : Prop :=
  walker.archiveLen = archive.archive.archiveLen ∧
    ∃ id first turns leaves, TileId.new tileId = .ok id ∧
      DirectoryWalker.new archive.archive.header id readerLimits.maxDirectoryDepth = .ok first ∧
      ∀ fuel, (d.generationReader archive.key).resolveLoop archive.archive (turns + fuel) first
        archive.archive.root [] () =
          (d.generationReader archive.key).resolveLoop archive.archive fuel walker directory leaves ()

def WantsLeaf (d : Deployment γ μ) (archive : VersionedArchive γ μ) (tileId : UInt64) (walker : DirectoryWalker)
    (range : ArchiveRange) : Prop :=
  ∃ before directory, Walks d archive tileId before directory ∧ before.step directory = .ok (.leaf range, walker) ∧
    checkRange range.offset range.length = .ok ()

def Locates (d : Deployment γ μ) (archive : VersionedArchive γ μ) (tileId : UInt64) (location : TileLocation) : Prop :=
  location.archiveLen = archive.archive.archiveLen ∧ checkRange location.offset location.length = .ok () ∧
    ∃ fuel leaves, (d.generationReader archive.key).resolveTileLocation fuel tileId () =
      some (.ok (some location, archive.archive.header, archive.archive.archiveLen), leaves, ())

theorem DirectoryWalker.new_archiveLen {id : TileId} {depth : UInt8}
    (h : DirectoryWalker.new archive.archive.header id depth = .ok walker) :
    walker.archiveLen = archive.archive.archiveLen := by
  unfold DirectoryWalker.new at h
  rw [archive.archive.valid] at h
  split_ifs at h
  · cases h
  · cases h
    rfl

theorem DirectoryWalker.step_archiveLen {walker' : DirectoryWalker}
    {step : Pmtiles.DirectoryStep} (h : walker.step directory = .ok (step, walker')) :
    walker'.archiveLen = walker.archiveLen ∧ ∀ location, step = .tile location → location.archiveLen = walker.archiveLen := by
  obtain ⟨found, -, h⟩ := bind_eq_ok.mp h
  unfold DirectoryWalker.stepFound at h
  split at h
  · cases h
    exact ⟨rfl, nofun⟩
  · split_ifs at h
    · unfold DirectoryWalker.stepLeaf at h
      dsimp only at h
      split_ifs at h
      · cases h
      · obtain ⟨descended, hdescended, h⟩ := bind_eq_ok.mp h
        obtain ⟨_, -, h⟩ := bind_eq_ok.mp h
        cases h
        unfold DirectoryWalker.descend at hdescended
        split_ifs at hdescended
        cases hdescended
        exact ⟨rfl, nofun⟩
    · obtain ⟨_, -, h⟩ := bind_eq_ok.mp h
      cases h
      exact ⟨rfl, fun _ hstep => by cases hstep; rfl⟩

namespace Walks

variable {walker' : DirectoryWalker}

theorem start {id : TileId} (hid : TileId.new tileId = .ok id)
    (h : DirectoryWalker.new archive.archive.header id readerLimits.maxDirectoryDepth = .ok walker) :
    Walks d archive tileId walker archive.archive.root :=
  ⟨DirectoryWalker.new_archiveLen h, id, walker, 0, [], hid, h, fun fuel => by rw [Nat.zero_add]⟩

theorem leaf {range : ArchiveRange} (harch : d.Holds archive) (h : WantsLeaf d archive tileId walker range)
    (hleaf : d.HoldsLeaf (LeafLoad.leafKey archive range) directory) : Walks d archive tileId walker directory := by
  obtain ⟨before, above, ⟨hlen, id, first, turns, leaves, hid, hfirst, hloop⟩, hstep, hrange⟩ := h
  obtain ⟨decoded, hdec, hparse⟩ := hleaf
  have hsame : decoded = archive.archive :=
    Except.ok.inj (hdec.symm.trans harch.decoded)
  subst hsame
  refine ⟨(DirectoryWalker.step_archiveLen hstep).1.trans hlen, id, first, turns + 1, leaves ++ [range], hid, hfirst, ?_⟩
  intro fuel
  rw [Nat.add_assoc, Nat.add_comm 1 fuel, hloop]
  conv_lhs => unfold ArchiveReader.resolveLoop
  rw [hstep]
  dsimp only
  rw [Deployment.generationReader_checkRange, hrange]
  have hload : (d.generationReader archive.key).backend.loadLeaf (ArchiveReader.leafRequest archive.archive range) () =
      (.ok directory, ()) := by
    rw [← hparse]
    rfl
  rw [hload]

theorem resolves (harch : d.Holds archive) (h : Walks d archive tileId walker directory) {result : Option TileLocation}
    (hres : ∀ leaves, (d.generationReader archive.key).resolveLoop archive.archive 1 walker directory leaves () =
      some (.ok result, leaves, ())) :
    ∃ fuel leaves, (d.generationReader archive.key).resolveTileLocation fuel tileId () =
      some (.ok (result, archive.archive.header, archive.archive.archiveLen), leaves, ()) := by
  obtain ⟨-, id, first, turns, leaves, hid, hfirst, hloop⟩ := h
  refine ⟨turns + 1, leaves, ?_⟩
  have hboot : (d.generationReader archive.key).backend.loadBootstrap () = (.ok archive.archive, ()) := by
    rw [← harch.decoded]
    rfl
  have hwalker : DirectoryWalker.new archive.archive.header id
      (d.generationReader archive.key).limits.maxDirectoryDepth = .ok first := hfirst
  unfold ArchiveReader.resolveTileLocation
  rw [hid]
  rw [hboot]
  dsimp only
  rw [hwalker]
  dsimp only
  rw [hloop, hres]
  rfl

theorem missing (harch : d.Holds archive) (h : Walks d archive tileId walker directory)
    (hstep : walker.step directory = .ok (.missing, walker')) :
    ∃ fuel, (d.generationReader archive.key).getTile fuel tileId () = some (.ok none, ()) := by
  obtain ⟨fuel, leaves, hresolve⟩ := h.resolves harch (fun leaves => by
    unfold ArchiveReader.resolveLoop
    rw [hstep])
  refine ⟨fuel, ?_⟩
  unfold ArchiveReader.getTile
  rw [hresolve]
  rfl

theorem tile {location : TileLocation} (harch : d.Holds archive) (h : Walks d archive tileId walker directory)
    (hstep : walker.step directory = .ok (.tile location, walker'))
    (hrange : checkRange location.offset location.length = .ok ()) : Locates d archive tileId location := by
  refine ⟨((DirectoryWalker.step_archiveLen hstep).2 location rfl).trans h.1, hrange, ?_⟩
  refine h.resolves harch (fun leaves => ?_)
  unfold ArchiveReader.resolveLoop
  rw [hstep]

end Walks

theorem Locates.getTile {location : TileLocation} {bytes : Bytes} (h : Locates d archive tileId location)
    (hbytes : bytes = slice (d.content archive.key) location.offset (location.offset + location.length.toNat)) :
    ∃ fuel, (d.generationReader archive.key).getTile fuel tileId () =
      some (.ok (some (Call.tileData archive.archive.header bytes)), ()) := by
  obtain ⟨-, hrange, fuel, leaves, hresolve⟩ := h
  refine ⟨fuel, ?_⟩
  unfold ArchiveReader.getTile
  rw [hresolve, hbytes]
  dsimp only [map_some]
  rw [Deployment.generationReader_checkRange, hrange]
  rfl

/-! ## What a call may hold -/

def Supplies (d : Deployment γ μ) (generation : γ) : Request → Value γ μ → Prop
  | .getTile tilesetId tileId, .tile tile =>
    ∃ fuel, (d.generationReader ⟨tilesetId, generation⟩).getTile fuel tileId () = some (.ok tile, ())
  | .info tilesetId, .info header metadata =>
    ∃ archive, d.decodeBootstrap (d.contents tilesetId generation) = .ok archive ∧ header = archive.header ∧
      d.HasMetadata ⟨tilesetId, generation⟩ header metadata
  | .loadBootstrap tilesetId, .archive archive | .loadBootstrapLocal tilesetId, .archive archive =>
    archive.key = ⟨tilesetId, generation⟩ ∧ d.Holds archive
  | .loadBootstrapBytesLocal tilesetId _, .transfer transfer =>
    transfer.generation = generation ∧ transfer.bootstrap <+: d.contents tilesetId generation ∧
      ∀ metadata, transfer.metadata = some metadata →
        ∃ archive, d.decodeBootstrap (d.contents tilesetId generation) = .ok archive ∧
          metadata = d.metadataBytes ⟨tilesetId, generation⟩ archive.header
  | .loadLeafBytesLocal tilesetId offset length, .leaf bytes =>
    bytes = slice (d.contents tilesetId generation) offset.toNat (offset.toNat + length.toNat)
  | _, _ => False

def ReturnOk (d : Deployment γ μ) (request : Request) : Except ReaderError (Option (ArchiveResource γ μ)) → Prop
  | .ok (some resource) => Supplies d resource.generation request resource.value
  | .ok none | .error _ => True

variable [DecidableEq γ]

def Phase.Ok (d : Deployment γ μ) (reader : Reader γ μ) (request : Request) (attempt : ℕ) : Phase γ μ → Prop
  | .loading load => load.Ok d request.tilesetId
  | .leaf archive walker range load =>
    Loaded d request.tilesetId archive ∧ load.Ok d reader archive range ∧
      ∃ tilesetId tileId, request = .getTile tilesetId tileId ∧ WantsLeaf d archive tileId walker range
  | .tile archive location range =>
    Loaded d request.tilesetId archive ∧ range.Ok reader archive.key location.offset location.length.toNat ∧
      ∃ tilesetId tileId, request = .getTile tilesetId tileId ∧ Locates d archive tileId location
  | .metadata archive load =>
    Loaded d request.tilesetId archive ∧ load.Ok d reader archive ∧ ∃ tilesetId, request = .info tilesetId
  | .invalidating _ => attempt = 0
  | .reloading load => attempt = 0 ∧ load.Ok d request.tilesetId
  | .bootstrapBytes archive =>
    Loaded d request.tilesetId archive ∧ ∃ tilesetId includeMetadata,
      request = .loadBootstrapBytesLocal tilesetId includeMetadata
  | .bootstrapRange archive range =>
    Loaded d request.tilesetId archive ∧
      range.Ok reader archive.key 0 (min archive.archive.archiveLen minBootstrapBytes) ∧
      ∃ tilesetId includeMetadata, request = .loadBootstrapBytesLocal tilesetId includeMetadata
  | .metadataRange archive bootstrap range =>
    Loaded d request.tilesetId archive ∧ bootstrap <+: d.content archive.key ∧
      range.Ok reader archive.key archive.archive.header.metadataOffset.toNat
        archive.archive.header.metadataLength.toNat ∧
      ∃ tilesetId includeMetadata, request = .loadBootstrapBytesLocal tilesetId includeMetadata
  | .leafRange archive offset length range =>
    Loaded d request.tilesetId archive ∧ range.Ok reader archive.key offset length ∧
      ∃ tilesetId first count, request = .loadLeafBytesLocal tilesetId first count ∧ offset = first.toNat ∧
        length = count.toNat
  | .returned result => ReturnOk d request result
  | .unreachable => False
  | .gone => True

structure Call.Ok (d : Deployment γ μ) (reader : Reader γ μ) (call : Call γ μ) : Prop where
  attempt : call.attempt < 2
  phase : call.phase.Ok d reader call.request call.attempt

variable {reader reader' : Reader γ μ} {req : Request} {attempt : ℕ}

theorem Phase.Ok.mono (hgrows : reader.Grows reader') {phase : Phase γ μ} (h : phase.Ok d reader req attempt) :
    phase.Ok d reader' req attempt := by
  cases phase with
  | leaf archive walker range load => exact ⟨h.1, LeafLoad.Ok.mono hgrows h.2.1, h.2.2⟩
  | tile archive location range => exact ⟨h.1, RangePhase.Ok.mono hgrows h.2.1, h.2.2⟩
  | metadata archive load => exact ⟨h.1, MetadataLoad.Ok.mono hgrows h.2.1, h.2.2⟩
  | bootstrapRange archive range => exact ⟨h.1, RangePhase.Ok.mono hgrows h.2.1, h.2.2⟩
  | metadataRange archive boot range => exact ⟨h.1, h.2.1, RangePhase.Ok.mono hgrows h.2.2.1, h.2.2.2⟩
  | leafRange archive offset length range => exact ⟨h.1, RangePhase.Ok.mono hgrows h.2.1, h.2.2⟩
  | _ => exact h

/-! ## Parts of a call -/

omit [DecidableEq γ] in
theorem Loaded.key_eq (h : Loaded d tilesetId archive) :
    (⟨tilesetId, archive.key.generation⟩ : ArchiveKey γ) = archive.key := by
  obtain ⟨⟨_, _⟩, _, _⟩ := archive
  obtain ⟨rfl, -⟩ := h
  rfl

theorem Phase.retry_ok (error : ReaderError) : (Phase.retry req attempt archive error).Ok d reader req attempt := by
  unfold Phase.retry
  split
  · split_ifs with hretry
    · exact hretry.1
    · trivial
  · split_ifs with hretry
    · exact hretry.1
    · trivial
  · trivial

theorem resolve_ok (harch : Loaded d tilesetId archive) (h : Walks d archive tileId walker directory) :
    (resolve (.getTile tilesetId tileId) attempt archive walker directory).Ok d reader (.getTile tilesetId tileId)
      attempt := by
  unfold resolve
  split
  case h_1 => exact Phase.retry_ok _
  case h_2 hstep =>
    show ∃ fuel, (d.generationReader ⟨tilesetId, archive.key.generation⟩).getTile fuel tileId () = _
    rw [harch.key_eq]
    exact h.missing harch.2 hstep
  case h_3 location _ hstep =>
    split
    case h_1 => exact Phase.retry_ok _
    case h_2 hrange => exact ⟨harch, trivial, tilesetId, tileId, rfl, h.tile harch.2 hstep hrange⟩
  case h_4 range walker hstep =>
    split
    case h_1 => exact Phase.retry_ok _
    case h_2 hrange => exact ⟨harch, trivial, tilesetId, tileId, rfl, _, directory, h, hstep, hrange⟩

theorem beginTile_ok (harch : Loaded d tilesetId archive) :
    (beginTile (.getTile tilesetId tileId) attempt archive tileId).Ok d reader (.getTile tilesetId tileId) attempt := by
  unfold beginTile
  split
  case h_1 => exact Phase.retry_ok _
  case h_2 id hid =>
    split
    case h_1 => exact Phase.retry_ok _
    case h_2 walker hwalker => exact resolve_ok harch (.start hid hwalker)

theorem loaded_ok (harch : Loaded d req.tilesetId archive) : (loaded req attempt archive).Ok d reader req attempt := by
  cases req with
  | getTile tilesetId tileId => exact beginTile_ok harch
  | info tilesetId => exact ⟨harch, trivial, tilesetId, rfl⟩
  | loadBootstrap tilesetId | loadBootstrapLocal tilesetId => exact ⟨harch.key_eq.symm, harch.2⟩
  | loadBootstrapBytesLocal tilesetId includeMetadata => exact ⟨harch, tilesetId, includeMetadata, rfl⟩
  | loadLeafBytesLocal tilesetId offset length =>
    unfold loaded
    dsimp only
    split_ifs
    · exact ⟨harch, trivial, tilesetId, offset, length, rfl, rfl, rfl⟩
    · trivial

theorem withBootstrap_ok {includeMetadata : Bool} (harch : Loaded d tilesetId archive)
    (withMetadata : Bool) {boot : Bytes} (hboot : boot <+: d.content archive.key) :
    (withBootstrap archive withMetadata boot).Ok d reader (.loadBootstrapBytesLocal tilesetId includeMetadata)
      attempt := by
  unfold withBootstrap
  split_ifs
  · exact ⟨harch, hboot, trivial, tilesetId, includeMetadata, rfl⟩
  · refine ⟨rfl, ?_, nofun⟩
    rw [← harch.key_eq] at hboot
    exact hboot

theorem Call.ranged_ok {key : ArchiveKey γ} {start length : ℕ} {progress : RangeProgress} (message : String)
    {on : RangePhase → Phase γ μ} {failed : ReaderError → Phase γ μ} {ok : Bytes → Phase γ μ}
    (hprog : progress.Ok d reader key start length)
    (hon : ∀ range : RangePhase, range.Ok reader key start length → (on range).Ok d reader req attempt)
    (hfail : ∀ error, (failed error).Ok d reader req attempt)
    (hok : ∀ bytes, bytes = slice (d.content key) start (start + length) → (ok bytes).Ok d reader req attempt) :
    (Call.ranged progress message on failed ok).Ok d reader req attempt := by
  cases progress with
  | on range => exact hon range hprog
  | done result =>
    cases result with
    | ok bytes => exact hok bytes hprog
    | error error => exact hfail _

/-! ## One step of a call -/

namespace Call

variable {call : Call γ μ} {progress : Progress (LoadWork γ μ) (Option (VersionedArchive γ μ))} {after : Call γ μ}

theorem afterLoad_ok (h : progress.Ok (LoadWork.Ok d call.request.tilesetId) (LoadedIfAny d call.request.tilesetId)) :
    (call.afterLoad progress).Ok d reader call.request call.attempt := by
  cases progress with
  | on load => exact h
  | dropped => trivial
  | done result =>
    cases result with
    | error error => trivial
    | ok found =>
      cases found with
      | none => trivial
      | some archive => exact loaded_ok (h archive rfl)

/-- Only the first attempt reloads, so a second one is left. -/
theorem afterReload_ok (hatt : call.attempt = 0)
    (h : progress.Ok (LoadWork.Ok d call.request.tilesetId) (LoadedIfAny d call.request.tilesetId)) :
    (call.afterReload progress).Ok d reader := by
  have hlt : call.attempt < 2 := by omega
  cases progress with
  | on load => exact ⟨hlt, hatt, h⟩
  | dropped => exact ⟨hlt, trivial⟩
  | done result =>
    cases result with
    | error error => exact ⟨hlt, trivial⟩
    | ok found =>
      unfold afterReload
      rw [hatt, if_pos (by decide)]
      exact ⟨Nat.one_lt_two, trivial⟩

theorem afterLeaf_ok {range : ArchiveRange}
    {progress : Progress LeafWork Directory} (hreq : call.request = .getTile tilesetId tileId)
    (harch : Loaded d tilesetId archive) (hwants : WantsLeaf d archive tileId walker range)
    (h : progress.Ok (LeafWork.Ok d reader archive range) (d.HoldsLeaf (LeafLoad.leafKey archive range))) :
    (call.afterLeaf archive walker range progress).Ok d reader call.request call.attempt := by
  cases progress with
  | on load =>
    rw [hreq]
    exact ⟨harch, h, tilesetId, tileId, rfl, hwants⟩
  | dropped => trivial
  | done result =>
    cases result with
    | error error => exact Phase.retry_ok error
    | ok directory =>
      unfold afterLeaf
      rw [hreq]
      exact resolve_ok harch (.leaf harch.2 hwants h)

theorem afterMetadata_ok {progress : Progress (MetadataWork μ) μ}
    (hreq : call.request = .info tilesetId) (harch : Loaded d tilesetId archive)
    (h : progress.Ok (MetadataWork.Ok d reader archive) (d.HasMetadata archive.key archive.archive.header)) :
    (call.afterMetadata archive progress).Ok d reader call.request call.attempt := by
  cases progress with
  | on load =>
    rw [hreq]
    exact ⟨harch, h, tilesetId, rfl⟩
  | dropped => trivial
  | done result =>
    cases result with
    | error error => exact Phase.retry_ok error
    | ok metadata =>
      rw [hreq]
      have hdec := harch.2.decoded
      have hmeta : d.HasMetadata archive.key archive.archive.header metadata := h
      rw [← harch.key_eq] at hdec hmeta
      exact ⟨archive.archive, hdec, rfl, hmeta⟩

theorem next_ok (hread : reader.Coherent d) {answer : Answer γ} (hcall : call.Ok d reader)
    (h : call.next d reader answer = some (reader', after)) : reader.Moved d reader' ∧ after.Ok d reader' := by
  obtain ⟨req, attempt, phase⟩ := call
  obtain ⟨hatt, hphase⟩ := hcall
  cases phase with
  | loading load =>
    obtain ⟨progress, hnext, rfl⟩ := handed_on h
    obtain ⟨hmoved, hprog⟩ := Load.next_ok hread hphase hnext
    exact ⟨hmoved, hatt, afterLoad_ok hprog⟩
  | leaf archive walker range load =>
    obtain ⟨progress, hnext, rfl⟩ := handed_on h
    obtain ⟨harch, hload, tilesetId, tileId, rfl, hwants⟩ := hphase
    have hoff : range.offset < 2 ^ 64 := by
      obtain ⟨_, _, _, _, hrange⟩ := hwants
      exact checkRange_ok hrange
    obtain ⟨hmoved, hprog⟩ := LeafLoad.next_ok hread harch.2 hoff hload hnext
    exact ⟨hmoved, hatt, afterLeaf_ok rfl harch hwants hprog⟩
  | tile archive location range =>
    obtain ⟨progress, hnext, rfl⟩ := handed_on h
    obtain ⟨harch, hrange, tilesetId, tileId, rfl, hlocates⟩ := hphase
    have hlen : location.length.toNat < 2 ^ 64 := by have := location.length.toNat_lt; omega
    obtain ⟨hmoved, hprog⟩ := RangePhase.next_ok hread (harch.2.archiveLen.trans hlocates.1.symm)
      (checkRange_ok hlocates.2.1) hlen hrange hnext
    refine ⟨hmoved, hatt, ranged_ok _ hprog ?_ (fun error => Phase.retry_ok error) ?_⟩
    · intro range' hrange'
      exact ⟨harch, hrange', tilesetId, tileId, rfl, hlocates⟩
    · intro bytes hbytes
      have hkey : (⟨tilesetId, archive.key.generation⟩ : ArchiveKey γ) = archive.key := harch.key_eq
      show ∃ fuel, (d.generationReader ⟨tilesetId, archive.key.generation⟩).getTile fuel tileId () = _
      rw [hkey]
      exact hlocates.getTile hbytes
  | metadata archive load =>
    obtain ⟨progress, hnext, rfl⟩ := handed_on h
    obtain ⟨harch, hload, tilesetId, rfl⟩ := hphase
    obtain ⟨hmoved, hprog⟩ := MetadataLoad.next_ok hread harch.2 hload hnext
    exact ⟨hmoved, hatt, afterMetadata_ok rfl harch hprog⟩
  | invalidating key =>
    cases h
    exact ⟨.of_cache hread (hread.cache.invalidateGeneration key) rfl, hatt, hphase, trivial⟩
  | reloading load =>
    obtain ⟨progress, hnext, rfl⟩ := handed_on h
    obtain ⟨hmoved, hprog⟩ := Load.next_ok hread hphase.2 hnext
    exact ⟨hmoved, afterReload_ok hphase.1 hprog⟩
  | bootstrapBytes archive =>
    cases h
    obtain ⟨harch, tilesetId, includeMetadata, rfl⟩ := hphase
    refine ⟨.refl hread, hatt, ?_⟩
    split
    case h_1 bytes hbytes => exact withBootstrap_ok harch _ (hread.cache.getBootstrapBytes hbytes)
    case h_2 => exact ⟨harch, trivial, tilesetId, includeMetadata, rfl⟩
  | bootstrapRange archive range =>
    obtain ⟨progress, hnext, rfl⟩ := handed_on h
    obtain ⟨harch, hrange, tilesetId, includeMetadata, rfl⟩ := hphase
    have hlen : min archive.archive.archiveLen minBootstrapBytes < 2 ^ 64 :=
      lt_of_le_of_lt (min_le_right _ _) (by decide)
    obtain ⟨hmoved, hprog⟩ := RangePhase.next_ok hread harch.2.archiveLen (by decide) hlen hrange hnext
    refine ⟨hmoved, hatt, ranged_ok _ hprog ?_ (fun _ => trivial) ?_⟩
    · intro range' hrange'
      exact ⟨harch, hrange', tilesetId, includeMetadata, rfl⟩
    · intro bytes hbytes
      refine withBootstrap_ok harch _ ?_
      rw [hbytes]
      exact List.take_prefix _ _
  | metadataRange archive boot range =>
    obtain ⟨progress, hnext, rfl⟩ := handed_on h
    obtain ⟨harch, hboot, hrange, tilesetId, includeMetadata, rfl⟩ := hphase
    obtain ⟨hmoved, hprog⟩ := RangePhase.next_ok hread harch.2.archiveLen
      archive.archive.header.metadataOffset.toNat_lt archive.archive.header.metadataLength.toNat_lt hrange hnext
    refine ⟨hmoved, hatt, ranged_ok _ hprog ?_ (fun _ => trivial) ?_⟩
    · intro range' hrange'
      exact ⟨harch, hboot, hrange', tilesetId, includeMetadata, rfl⟩
    · intro bytes hbytes
      have hdec := harch.2.decoded
      have hmeta : bytes = d.metadataBytes archive.key archive.archive.header := hbytes
      rw [← harch.key_eq] at hdec hboot hmeta
      refine ⟨rfl, hboot, ?_⟩
      intro metadata heq
      cases heq
      exact ⟨archive.archive, hdec, hmeta⟩
  | leafRange archive offset length range =>
    obtain ⟨progress, hnext, rfl⟩ := handed_on h
    obtain ⟨harch, hrange, tilesetId, first, count, rfl, rfl, rfl⟩ := hphase
    obtain ⟨hmoved, hprog⟩ := RangePhase.next_ok hread harch.2.archiveLen first.toNat_lt count.toNat_lt
      hrange hnext
    refine ⟨hmoved, hatt, ranged_ok _ hprog ?_ (fun _ => trivial) ?_⟩
    · intro range' hrange'
      exact ⟨harch, hrange', tilesetId, first, count, rfl, rfl, rfl⟩
    · intro bytes hbytes
      rw [← harch.key_eq] at hbytes
      exact hbytes
  | returned | unreachable | gone => cases h

theorem cancel_ok (hcall : call.Ok d reader) (h : call.cancel = some after) : after.Ok d reader := by
  obtain ⟨req, attempt, phase⟩ := call
  obtain ⟨hatt, hphase⟩ := hcall
  cases phase with
  | loading load =>
    obtain ⟨progress, hcanc, rfl⟩ := map_eq_some_iff.mp h
    exact ⟨hatt, afterLoad_ok (Flying.cancel_ok hcanc)⟩
  | leaf archive walker range load =>
    obtain ⟨progress, hcanc, rfl⟩ := map_eq_some_iff.mp h
    obtain ⟨harch, -, tilesetId, tileId, rfl, hwants⟩ := hphase
    exact ⟨hatt, afterLeaf_ok rfl harch hwants (Flying.cancel_ok hcanc)⟩
  | metadata archive load =>
    obtain ⟨progress, hcanc, rfl⟩ := map_eq_some_iff.mp h
    obtain ⟨harch, -, tilesetId, rfl⟩ := hphase
    exact ⟨hatt, afterMetadata_ok rfl harch (Flying.cancel_ok hcanc)⟩
  | reloading load =>
    obtain ⟨progress, hcanc, rfl⟩ := map_eq_some_iff.mp h
    exact afterReload_ok hphase.1 (Flying.cancel_ok hcanc)
  | tile _ _ range | bootstrapRange _ range | metadataRange _ _ range | leafRange _ _ _ range =>
    cases range with
    | opening => cases h
    | reading read =>
      cases h
      exact ⟨hatt, trivial⟩
  | _ => cases h

end Call

/-! ## Runs -/

namespace System

structure Inv (d : Deployment γ μ) (s : System γ μ) : Prop where
  reader : s.reader.Coherent d
  calls : ∀ call ∈ s.calls, call.Ok d s.reader

variable {s t : System γ μ}

theorem Inv.move (h : s.Inv d) (hmoved : s.reader.Moved d reader') : Inv d { s with reader := reader' } := by
  refine ⟨hmoved.coherent, fun call hcall => ?_⟩
  obtain ⟨hatt, hphase⟩ := h.calls call hcall
  exact ⟨hatt, hphase.mono hmoved.grows⟩

theorem Inv.set (h : s.Inv d) {call : ℕ} {after : Call γ μ} (hafter : after.Ok d s.reader) :
    Inv d { s with calls := s.calls.set call after } := by
  refine ⟨h.reader, fun other hother => ?_⟩
  obtain hold | rfl := List.mem_or_eq_of_mem_set hother
  · exact h.calls other hold
  · exact hafter

theorem inv_act (h : s.Inv d) (action : Action γ) : (s.act d action).Inv d := by
  cases action with
  | begin req =>
    refine ⟨h.reader, fun call hcall => ?_⟩
    obtain hold | hnew := List.mem_append.mp hcall
    · exact h.calls call hold
    · obtain rfl := List.mem_singleton.mp hnew
      exact ⟨Nat.two_pos, trivial⟩
  | move i answer =>
    obtain ⟨hstays, -⟩ | ⟨call, reader', after, hcall, hnext, hmove⟩ := act_move_cases i answer
    · rw [hstays]
      exact h
    · obtain ⟨hmoved, hafter⟩ := Call.next_ok h.reader (h.calls call (List.mem_of_getElem? hcall)) hnext
      rw [hmove]
      exact (h.move hmoved).set hafter
  | cancel i =>
    obtain hstays | ⟨call, after, hcall, hafter, hcanc⟩ := act_cancel_cases d i
    · rw [hstays]
      exact h
    · rw [hcanc]
      exact h.set (Call.cancel_ok (h.calls call (List.mem_of_getElem? hcall)) hafter)
  | evict kept => exact h.move (.of_cache h.reader (h.reader.cache.evict kept) rfl)
  | tick duration => exact h.move (.of_cache h.reader h.reader.cache rfl)

theorem inv_step (h : s.Inv d) (hstep : Step d s t) : t.Inv d := by
  cases hstep with
  | act action => exact inv_act h action
  | store key store hstore =>
    refine h.move (.setStore h.reader ?_ (.generationStep hstore))
    have hinv : ChunkedStore.GenerationInv (d.contents key.tilesetId key.generation) (d.archiveLen key) d.chunkSize
        (s.reader.stores key) := h.reader.stores key
    have hkept := hinv.step d.chunkSize_pos (Deployment.archiveLen_lt key) hstore
    exact hkept

theorem inv_init : Inv d {} := by
  refine ⟨⟨⟨?_, ?_⟩, fun key => .init⟩, ?_⟩
  · intro tilesetId cached h
    cases h
  · nofun
  · intro call h
    cases h

theorem inv_reachable (h : Reachable (machine d) s) : s.Inv d :=
  h.invariant inv_init (fun _ _ => inv_step)

end System

/-- What is returned and what is cached belongs to the generation it is labelled with, and nobody tries three times. -/
structure System.Coherent (d : Deployment γ μ) (s : System γ μ) : Prop where
  returned : ∀ call ∈ s.calls, ∀ value generation,
    call.phase = .returned (.ok (some ⟨value, generation⟩)) → Supplies d generation call.request value
  attempts : ∀ call ∈ s.calls, call.attempt < 2 ∧ call.phase ≠ .unreachable
  bootstraps : ∀ tilesetId cached, s.reader.cache.archives.lookup tilesetId = some cached →
    d.decodeBootstrap (d.contents tilesetId cached.generation) = .ok cached.archive ∧
      cached.bootstrap <+: d.contents tilesetId cached.generation ∧
      ∀ metadata, cached.metadata = some metadata →
        d.HasMetadata ⟨tilesetId, cached.generation⟩ cached.archive.header metadata
  leafs : ∀ key directory, s.reader.cache.leafs.lookup key = some directory → d.HoldsLeaf key directory
  chunks : ∀ key chunk bytes, (s.reader.stores key).cache chunk = some bytes →
    bytes = slice (d.content key) (chunk * d.chunkSize) (min ((chunk + 1) * d.chunkSize) (d.archiveLen key))

theorem reads_generation_coherent {s : System γ μ} (h : Reachable (System.machine d) s) : s.Coherent d := by
  have hinv := System.inv_reachable h
  refine ⟨?_, ?_, ?_, hinv.reader.cache.leafs, fun key _ _ hchunk => (hinv.reader.stores key).chunk_eq hchunk⟩
  · intro call hcall value generation hreturned
    have hphase := (hinv.calls call hcall).phase
    rw [hreturned] at hphase
    exact hphase
  · intro call hcall
    refine ⟨(hinv.calls call hcall).attempt, fun hunreachable => ?_⟩
    have hphase := (hinv.calls call hcall).phase
    rw [hunreachable] at hphase
    exact hphase
  · intro tilesetId cached hlookup
    obtain ⟨hholds, hbytes⟩ := hinv.reader.cache.archives tilesetId cached hlookup
    exact ⟨hholds.decoded, hbytes, hholds.metadata⟩

/-- One generation's store runs between two actions of the calls. -/
theorem System.reachable_store (key : ArchiveKey γ) {store : ArchiveStore} (h : Reachable (machine d) s)
    (hrun : Reachable ⟨s.reader.stores key, GenerationStep (d.contents key.tilesetId) key.generation (d.archiveLen key)
      d.chunkSize d.maxFetchChunks⟩ store) :
    Reachable (machine d) { s with reader := s.reader.setStore key store } := by
  induction hrun with
  | init => simpa [Reader.setStore] using h
  | step _ hstep ih =>
    have hnext := ih.step (.store _ key _ (by simpa [Reader.setStore] using hstep))
    simpa [Reader.setStore] using hnext

namespace Example

/-- `info` is answered by a peer that holds generation 0, a later `get_tile` by an object store that holds 1. -/
def replacedActions : List (Action ℕ) :=
  [.begin (.info "tiles")] ++ List.replicate 14 (.move 0 { bootstrap := some ⟨0, 16384, true⟩ }) ++
    [.tick (60 * 10 ^ 9), .begin (.getTile "tiles" 0)] ++ List.replicate 12 (.move 1 { object := .object 1 })

/-- The store of generation 1 from where these actions leave it. -/
def replacedStore : Machine ArchiveStore where
  init := { reads := [⟨135, 1, beginRead 136 4096 135 1⟩] }
  step := GenerationStep (deployment.contents "tiles") 1 136 4096 4

set_option maxRecDepth 4000

theorem tile_read : ∃ store, Reachable replacedStore store ∧
    store.reads = [⟨135, 1, .done (.ok ⟨[0], .backend⟩)⟩] := by
  have hprobed : ∀ (s : ArchiveStore) r resolved missing, s.reads[0]? = some r →
      r.phase = .probing [] resolved missing → replacedStore.step s (s.probed 4096 136 0 0 r resolved missing) :=
    fun _ _ _ _ hr hphase => .blind _ _ fun _ hlen => hlen ▸ .probed _ 0 0 _ _ _ hr hphase
  have h1 := (@Reachable.init _ replacedStore).step (.blind _ _ fun _ _ => .probe _ 0 _ 0 [] _ _ rfl rfl)
  have h2 := h1.step (hprobed _ _ _ _ rfl rfl)
  have h3 := h2.step (.blind _ _ fun _ _ => .schedulerPass _ 0 0 rfl)
  have h4 := h3.step (.answered _ 0 _ (.object 1) rfl rfl)
  have h5 := h4.step (.blind _ _ fun _ _ => .cacheChunk _ 0 _ (0, deployment.contents "tiles" 1) _ _ rfl rfl)
  have h6 := h5.step (.blind _ _ fun _ _ => .cached _ 0 _ _ rfl rfl)
  have h7 := h6.step (.blind _ _ fun _ _ => .complete _ 0 _ _ rfl rfl)
  have h8 := h7.step (.blind _ _ fun _ _ =>
    .receive _ 0 _ (0, 0) _ _ _ (.ok (deployment.contents "tiles" 1)) rfl rfl rfl)
  exact ⟨_, h8.step (.blind _ _ fun _ _ => .fetched _ 0 _ _ _ rfl rfl), rfl⟩

theorem afterReplacement_coherent : ∃ s, Reachable (System.machine deployment) s ∧
    s.calls.map Call.label = [some 0, some 1] ∧
    s.calls[1]?.map Call.phase =
      some (.returned (.ok (some ⟨.tile (some ⟨[0], "application/vnd.mapbox-vector-tile", none⟩), 1⟩))) ∧
    s.Coherent deployment := by
  obtain ⟨⟨coordinator, cache, tasks, reads⟩, hrun, hreads⟩ := tile_read
  subst hreads
  have hread := System.reachable_store ⟨"tiles", 1⟩ (System.reachable_actions deployment replacedActions) hrun
  have hreturned := hread.step (.act _ (.move 1 {}))
  exact ⟨_, hreturned, rfl, rfl, reads_generation_coherent hreturned⟩

end Example
end Mappf.Ishikari
