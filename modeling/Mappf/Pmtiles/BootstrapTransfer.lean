import Mappf.Pmtiles.Reader

/-! # The internal bootstrap transfer

The owner of an archive sends its raw bootstrap, optionally with the raw metadata, to a peer. The owner
frames the body by whether it has metadata bytes, the peer unframes it by the flag of its own request.
A `usize` has 64 bits. -/
namespace Mappf.Pmtiles

def defaultMaxDecompressedBytes : ℕ := 64 * 1024 * 1024

structure ArchiveKey (γ : Type) where
  tilesetId : String
  generation : γ
  deriving DecidableEq

structure VersionedArchive (γ : Type) where
  key : ArchiveKey γ
  archive : ArchiveBootstrap

structure BootstrapTransfer (γ : Type) where
  generation : γ
  bootstrap : Bytes
  metadata : Option Bytes
  deriving DecidableEq

/-- What the owner reads: its decoded bootstrap, the raw bytes its archive cache may have kept with
it, and storage ranges `key, offset, length, archive_len`. -/
structure BootstrapOwner (γ : Type) where
  loadBootstrapLocal : String → Fallible (Option (VersionedArchive γ))
  getBootstrapBytes : ArchiveKey γ → Option Bytes
  readRange : ArchiveKey γ → ℕ → ℕ → ℕ → Fallible Bytes

variable {γ : Type} {archive : VersionedArchive γ} {incl : Bool} {o : BootstrapOwner γ}

/-! ## The owner -/

def BootstrapOwner.bootstrapBytes (o : BootstrapOwner γ) (archive : VersionedArchive γ) : Fallible Bytes :=
  let archiveEnd := archive.archive.archiveLen
  match o.getBootstrapBytes archive.key with
  | some bytes => .ok bytes
  | none => context "failed to read archive bootstrap bytes"
      (o.readRange archive.key 0 (min archiveEnd minBootstrapBytes) archiveEnd)

def BootstrapOwner.metadataBytes (o : BootstrapOwner γ) (archive : VersionedArchive γ) (includeMetadata : Bool) :
    Fallible (Option Bytes) :=
  let header := archive.archive.header
  if includeMetadata = true ∧ 0 < header.metadataLength then
    (context "failed to read PMTiles metadata"
      (o.readRange archive.key header.metadataOffset.toNat header.metadataLength.toNat
        archive.archive.archiveLen)).map some
  else .ok none

def BootstrapOwner.loadBootstrapBytesLocal (o : BootstrapOwner γ) (tilesetId : String) (includeMetadata : Bool) :
    Fallible (Option (BootstrapTransfer γ)) := do
  match ← o.loadBootstrapLocal tilesetId with
  | none => return none
  | some archive =>
    let bootstrap ← o.bootstrapBytes archive
    let metadata ← o.metadataBytes archive includeMetadata
    return some ⟨archive.key.generation, bootstrap, metadata⟩

/-- The body of `internal_bootstrap_handler`. -/
def internalBootstrapBody (transfer : BootstrapTransfer γ) : Bytes :=
  match transfer.metadata with
  | some metadata => leEncode 8 transfer.bootstrap.length ++ transfer.bootstrap ++ metadata
  | none => transfer.bootstrap

/-! ## The peer -/

def prefixBytes : ℕ := 8

def maxTransferBytes : ℕ := prefixBytes + minBootstrapBytes + defaultMaxDecompressedBytes

def decodeBootstrapWire (body : Bytes) (generation : γ) (includeMetadata : Bool) : Fallible (BootstrapTransfer γ) :=
  if includeMetadata = false then
    if minBootstrapBytes < body.length then bail "bootstrap transfer exceeds the accepted bootstrap size"
    else .ok ⟨generation, body, none⟩
  else if maxTransferBytes < body.length then
    bail "bootstrap transfer exceeds the accepted metadata envelope"
  else if body.length < prefixBytes then bail "bootstrap transfer too short"
  else
    let bootstrapLen := leDecode (body.take prefixBytes)
    if minBootstrapBytes < bootstrapLen then bail "bootstrap length exceeds the accepted bootstrap size"
    else
      match checkedAdd prefixBytes bootstrapLen with
      | none => bail "bootstrap transfer length overflows usize"
      | some bootstrapEnd =>
        if body.length < bootstrapEnd then bail "bootstrap transfer truncated"
        else
          .ok ⟨generation, slice body prefixBytes bootstrapEnd,
            if bootstrapEnd < body.length then some (body.drop bootstrapEnd) else none⟩

/-! ## Framed and unframed bodies -/

/-- An empty metadata section counts as none. -/
def nonEmpty : Option Bytes → Option Bytes
  | some [] => none
  | metadata => metadata

theorem decodeBootstrapWire_unframed (body : Bytes) (gen : γ) (h : body.length ≤ minBootstrapBytes) :
    decodeBootstrapWire body gen false = .ok ⟨gen, body, none⟩ := by
  rw [decodeBootstrapWire, if_pos rfl, if_neg (Nat.not_lt.mpr h)]

theorem decodeBootstrapWire_framed (boot metadata : Bytes) (gen : γ) (hboot : boot.length ≤ minBootstrapBytes)
    (hmax : prefixBytes + boot.length + metadata.length ≤ maxTransferBytes) :
    decodeBootstrapWire (leEncode 8 boot.length ++ boot ++ metadata) gen true =
      .ok ⟨gen, boot, nonEmpty (some metadata)⟩ := by
  have hmin : minBootstrapBytes = 16384 := rfl
  have hsize : boot.length < 256 ^ 8 := by omega
  have hlen : (leEncode 8 boot.length ++ boot ++ metadata).length = prefixBytes + boot.length + metadata.length := by
    simp only [List.length_append, leEncode_length, prefixBytes]
  have htake : (leEncode 8 boot.length ++ boot ++ metadata).take prefixBytes = leEncode 8 boot.length := by
    exact List.take_left' (leEncode_length 8 boot.length)
  have hadd : checkedAdd prefixBytes boot.length = some (prefixBytes + boot.length) := by
    rw [checkedAdd_eq_some, prefixBytes]
    omega
  have hslice := slice_middle (leEncode 8 boot.length) boot metadata
    (leEncode_length 8 boot.length) (b := prefixBytes + boot.length) rfl
  have hdrop : (leEncode 8 boot.length ++ boot ++ metadata).drop (prefixBytes + boot.length) =
      metadata := by
    apply List.drop_left'
    rw [List.length_append, leEncode_length, prefixBytes]
  have hmeta : (if prefixBytes + boot.length < prefixBytes + boot.length + metadata.length
      then some metadata else none) = nonEmpty (some metadata) := by
    cases metadata with
    | nil => exact if_neg (Nat.lt_irrefl _)
    | cons b metadata => exact if_pos (Nat.lt_add_of_pos_right (Nat.succ_pos _))
  rw [decodeBootstrapWire, if_neg (by decide), hlen, if_neg (by omega), if_neg (by omega), htake,
    leDecode_leEncode 8 _ hsize]
  rw [if_neg (by omega), hadd]
  dsimp only
  rw [if_neg (by omega), hdrop, hmeta]
  rw [show slice _ prefixBytes _ = boot from hslice]

/-- What an accepted framed body carries is shorter than the body by the length field at least. -/
theorem decodeBootstrapWire_shorter (body : Bytes) (gen : γ) (transfer : BootstrapTransfer γ)
    (h : decodeBootstrapWire body gen true = .ok transfer) : transfer.bootstrap.length < body.length := by
  rw [decodeBootstrapWire, if_neg (by decide)] at h
  dsimp only at h
  split_ifs at h with hmax hshort hlong
  · cases h
  · cases h
  · cases h
  · split at h
    · cases h
    · split at h
      · cases h
      · cases h
        rw [slice_length]
        rw [prefixBytes] at hshort ⊢
        omega

/-! ## The round trip -/

theorem metadataBytes_eq_none {metadata : Option Bytes} (h : o.metadataBytes archive incl = .ok metadata) :
    metadata = none ↔ ¬(incl = true ∧ 0 < archive.archive.header.metadataLength) := by
  rw [BootstrapOwner.metadataBytes] at h
  split_ifs at h with hc
  · cases hr : context "failed to read PMTiles metadata"
        (o.readRange archive.key archive.archive.header.metadataOffset.toNat
          archive.archive.header.metadataLength.toNat archive.archive.archiveLen) with
    | error e => rw [hr] at h; cases h
    | ok bytes =>
      rw [hr] at h
      cases h
      exact ⟨fun hn => (nomatch hn), fun hn => absurd hc hn⟩
  · cases h
    exact ⟨fun _ => hc, fun _ => rfl⟩

theorem loadBootstrapBytesLocal_ok {tid : String} {transfer : BootstrapTransfer γ}
    (harch : o.loadBootstrapLocal tid = .ok (some archive))
    (h : o.loadBootstrapBytesLocal tid incl = .ok (some transfer)) :
    o.metadataBytes archive incl = .ok transfer.metadata := by
  rw [BootstrapOwner.loadBootstrapBytesLocal, harch, ok_bind] at h
  obtain ⟨boot, _, h⟩ := bind_eq_ok.mp h
  obtain ⟨metadata, hmeta, h⟩ := bind_eq_ok.mp h
  cases h
  exact hmeta

/-- The peer decodes what the owner sent, except when it asks for the metadata of an archive that has
none: the owner then sends the bare bootstrap, and the peer takes its first bytes for a length. -/
theorem bootstrap_transfer_roundtrip_iff (o : BootstrapOwner γ) (tilesetId : String) (includeMetadata : Bool)
    (archive : VersionedArchive γ) (transfer : BootstrapTransfer γ) (generation : γ)
    (harchive : o.loadBootstrapLocal tilesetId = .ok (some archive))
    (hload : o.loadBootstrapBytesLocal tilesetId includeMetadata = .ok (some transfer))
    (hboot : transfer.bootstrap.length ≤ minBootstrapBytes)
    (hmax : prefixBytes + transfer.bootstrap.length + (transfer.metadata.getD []).length ≤ maxTransferBytes) :
    decodeBootstrapWire (internalBootstrapBody transfer) generation includeMetadata =
        .ok ⟨generation, transfer.bootstrap, nonEmpty transfer.metadata⟩ ↔
      ¬(includeMetadata = true ∧ archive.archive.header.metadataLength = 0) := by
  have hnone := metadataBytes_eq_none (loadBootstrapBytesLocal_ok harchive hload)
  obtain ⟨sent, bootstrap, metadata⟩ := transfer
  cases metadata with
  | some metadata =>
    have hsome : includeMetadata = true ∧ 0 < archive.archive.header.metadataLength :=
      not_not.mp (fun hc => by cases hnone.mpr hc)
    rw [hsome.1]
    simp only [true_and]
    refine ⟨fun _ => UInt64.pos_iff_ne_zero.mp hsome.2, fun _ => ?_⟩
    exact decodeBootstrapWire_framed bootstrap metadata generation hboot hmax
  | none =>
    cases includeMetadata with
    | false =>
      simp only [Bool.false_eq_true, false_and, not_false_eq_true, iff_true]
      exact decodeBootstrapWire_unframed bootstrap generation hboot
    | true =>
      have hzero : archive.archive.header.metadataLength = 0 := by
        have hz := hnone.mp rfl
        simp only [true_and, UInt64.not_lt] at hz
        exact UInt64.le_zero_iff.mp hz
      simp only [hzero, and_self, not_true_eq_false, iff_false]
      intro h
      exact absurd (decodeBootstrapWire_shorter bootstrap generation _ h) (Nat.lt_irrefl _)

/-- One tile of one byte, with the given metadata section before it. -/
def oneTileArchive (metadata : Bytes) : Bytes :=
  magic ++ [3] ++ [127, 5, 132, metadata.length, 132, 0, 132 + metadata.length, 1, 1, 1, 1].flatMap (leEncode 8) ++
    [1, 1, 1, 1, 0, 0] ++ List.replicate 25 0 ++ [1, 0, 1, 1, 1] ++ metadata ++ [0]

def oneTileOwner (metadata : Bytes) : BootstrapOwner Unit where
  loadBootstrapLocal := fun tilesetId => do
    let archive ← decodeBootstrapBytes (fun _ _ _ => .error "no decoder") (oneTileArchive metadata) 1024
    return some ⟨⟨tilesetId, ()⟩, archive⟩
  getBootstrapBytes := fun _ => none
  readRange := fun _ offset length _ => .ok (slice (oneTileArchive metadata) offset (offset + length))

theorem oneTile_without_metadata_rejected :
    (oneTileOwner []).loadBootstrapBytesLocal "tiles" true = .ok (some ⟨(), oneTileArchive [], none⟩) ∧
      decodeBootstrapWire (internalBootstrapBody ⟨(), oneTileArchive [], none⟩) () true =
        bail "bootstrap length exceeds the accepted bootstrap size" := by
  decide +kernel

theorem oneTile_metadata_roundtrip :
    decodeBootstrapWire (internalBootstrapBody ⟨(), oneTileArchive [123, 125], some [123, 125]⟩) () true =
      .ok ⟨(), oneTileArchive [123, 125], some [123, 125]⟩ := by
  have hload : (oneTileOwner [123, 125]).loadBootstrapBytesLocal "tiles" true =
      .ok (some ⟨(), oneTileArchive [123, 125], some [123, 125]⟩) := by
    decide +kernel
  have hheader : ((oneTileOwner [123, 125]).loadBootstrapLocal "tiles").map
      (Option.map (fun archive => archive.archive.header.metadataLength)) = .ok (some 2) := by
    decide +kernel
  cases harchive : (oneTileOwner [123, 125]).loadBootstrapLocal "tiles" with
  | error e => rw [harchive] at hheader; cases hheader
  | ok found =>
    rw [harchive] at hheader
    cases found with
    | none => cases hheader
    | some archive =>
      have hlength : archive.archive.header.metadataLength = 2 :=
        Option.some.inj (Except.ok.inj hheader)
      apply (bootstrap_transfer_roundtrip_iff (oneTileOwner [123, 125]) "tiles" true archive _ ()
        harchive hload (by decide +kernel) (by decide +kernel)).mpr
      rw [hlength]
      decide

end Mappf.Pmtiles
