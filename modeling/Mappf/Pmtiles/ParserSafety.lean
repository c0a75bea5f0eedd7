import Mappf.Pmtiles.DirectoryCodec
import Mappf.Pmtiles.ReaderSpec

/-! # Parsing hostile bytes

No byte string makes the header parser, the directory parser or the bootstrap decoder fault, and a
directory they accept is one the binary search can be trusted with. -/
namespace Mappf.Pmtiles

/-! ## Directories -/

theorem readVarintLoop_safe (buf : Bytes) (shift value : ℕ) : Safe (readVarintLoop shift value buf) := by
  induction buf generalizing shift value with
  | nil => exact safe_bail _
  | cons byte buf ih =>
    rw [readVarintLoop]
    split_ifs
    · exact safe_bail _
    · exact safe_ok _
    · exact safe_bail _
    · exact ih _ _

theorem readColumn_safe {σ : Type} {fill : σ → DirectoryEntry → ℕ → Fallible (DirectoryEntry × σ)}
    (hfill : ∀ s e v, Safe (fill s e v)) (entries : List DirectoryEntry) (s : σ) (buf : Bytes) :
    Safe (readColumn fill s entries buf) := by
  induction entries generalizing s buf with
  | nil => exact safe_ok _
  | cons e es ih =>
    apply (readVarintLoop_safe buf 0 0).bind
    intro out _
    apply (hfill s e out.1).bind
    intro out' _
    apply (ih out'.2 out.2).bind
    intro out'' _
    exact safe_ok _

theorem u32TryFrom_safe (v : ℕ) : Safe (u32TryFrom v) := by
  unfold u32TryFrom
  split_ifs
  · exact safe_ok _
  · exact (safe_bail _).context _

theorem fillTileId_safe (next : ℕ) (e : DirectoryEntry) (v : ℕ) : Safe (fillTileId next e v) := by
  unfold fillTileId
  cases checkedAdd next v with
  | none => exact safe_bail _
  | some tileId => exact safe_ok _

theorem fillOffset_safe (prev : Option DirectoryEntry) (e : DirectoryEntry) (v : ℕ) : Safe (fillOffset prev e v) := by
  unfold fillOffset
  split_ifs
  · cases prev with
    | none => exact safe_bail _
    | some p =>
      dsimp only
      cases checkedAdd p.offset.toNat p.length.toNat with
      | none => exact safe_bail _
      | some offset => exact safe_ok _
  · exact safe_ok _

theorem decode_safe (bytes : Bytes) : Safe (Directory.decode bytes) := by
  apply (readVarintLoop_safe bytes 0 0).bind
  intro count _
  dsimp only
  cases checkedMul count.1 4 with
  | none => exact safe_bail _
  | some minimum =>
    dsimp only
    split_ifs
    · exact safe_bail _
    · apply (readColumn_safe fillTileId_safe _ _ _).bind
      intro out _
      apply (readColumn_safe (fun _ _ v => (u32TryFrom_safe v).bind (fun _ _ => safe_ok _)) _ _ _).bind
      intro out' _
      apply (readColumn_safe (fun _ _ v => (u32TryFrom_safe v).bind (fun _ _ => safe_ok _)) _ _ _).bind
      intro out'' _
      apply (readColumn_safe fillOffset_safe _ _ _).bind
      intro out''' _
      exact safe_ok _

theorem readDecompressedLimited_safe (read : ℕ → Except String Bytes) (maxBytes : UInt64) :
    Safe (readDecompressedLimited read maxBytes) := by
  unfold readDecompressedLimited
  cases checkedAdd maxBytes.toNat 1 with
  | none => exact safe_bail _
  | some limit =>
    dsimp only
    cases read limit with
    | error e => exact safe_bail _
    | ok decompressed =>
      dsimp only
      split_ifs
      · exact safe_bail _
      · exact safe_ok _

theorem parseWithLimit_safe (decoder : StreamDecoder) (compression : Compression) (bytes : Bytes)
    (limit : UInt64) : Safe (Directory.parseWithLimit decoder compression bytes limit) := by
  have hdecomp : Safe (decompressBytesWithLimit decoder compression bytes limit) := by
    cases compression with
    | unknown => exact safe_bail _
    | none =>
      rw [decompressBytesWithLimit]
      split_ifs
      · exact safe_bail _
      · exact safe_ok _
    | gzip | brotli | zstd => exact readDecompressedLimited_safe _ _
  exact hdecomp.bind (fun decompressed _ => decode_safe decompressed)

/-- The unchecked subtraction is reached only with a tile id at or above the entry's. -/
theorem findTileId_safe {d : Directory} (h : NonDecreasing d.entries) (t : TileId) : Safe (d.findTileId t) := by
  obtain ⟨_, _, _, _, hfind⟩ | ⟨_, hfind⟩ | ⟨_, _, _, _, _, hfind⟩ := findTileId_cases h t
  · rw [hfind]; exact safe_ok _
  · rw [hfind]; exact safe_ok _
  · rw [hfind]; exact safe_ok _

/-! ## The header -/

theorem reads_getU8 : Reads 1 getU8 :=
  (reads_getBytes 1).bind le_rfl (fun _ => reads_pure _)

theorem reads_getU64Le : Reads 8 getU64Le :=
  (reads_getBytes 8).bind le_rfl (fun _ => reads_pure _)

theorem compression_safe (value : UInt8) : Safe (Compression.tryFrom value) := by
  unfold Compression.tryFrom
  split
  all_goals first | exact safe_ok _ | exact safe_bail _

theorem tileType_safe (value : UInt8) : Safe (TileType.tryFrom value) := by
  unfold TileType.tryFrom
  split
  all_goals first | exact safe_ok _ | exact safe_bail _

/-- The fields take up exactly the 127 bytes of a header. -/
theorem reads_fields : Reads headerSize Header.fields := by
  apply (reads_getBytes 7).bind (by decide)
  intro found
  apply (reads_ensure _ _).bind (by decide)
  intro _
  apply reads_getU8.bind (by decide)
  intro ver
  apply (reads_ensure _ _).bind (by decide)
  intro _
  iterate 11
    apply reads_getU64Le.bind (by decide)
    intro _
  apply reads_getU8.bind (by decide)
  intro clustered
  apply reads_getU8.bind (by decide)
  intro internalCompression
  apply (reads_lift (compression_safe _)).bind (by decide)
  intro _
  apply reads_getU8.bind (by decide)
  intro tileCompression
  apply (reads_lift (compression_safe _)).bind (by decide)
  intro _
  apply reads_getU8.bind (by decide)
  intro tileType
  apply (reads_lift (tileType_safe _)).bind (by decide)
  intro _
  apply reads_getU8.bind (by decide)
  intro minZoom
  apply reads_getU8.bind (by decide)
  intro maxZoom
  apply (reads_getBytes 16).bind (by decide)
  intro _
  apply reads_getU8.bind (by decide)
  intro centerZoom
  apply (reads_getBytes 8).bind (by decide)
  intro _
  exact reads_pure _

theorem headerParse_safe (bytes : Bytes) : Safe (Header.parse bytes) := by
  unfold Header.parse
  dsimp only
  split_ifs with hshort
  · exact safe_bail _
  · apply (reads_fields bytes (Nat.not_lt.mp hshort)).1.bind
    intro out _
    exact (sectionsEnd_safe _ _).bind (fun _ _ => safe_ok _)

/-! ## The bootstrap -/

theorem bootstrapNew_safe (header : Header) (root : Directory) : Safe (ArchiveBootstrap.new header root) := by
  unfold ArchiveBootstrap.new
  split
  · rename_i e he
    intro h
    cases h
    exact sectionsEnd_safe _ _ he
  · exact safe_ok _

theorem decodeBootstrapBytes_safe (decoder : StreamDecoder) (body : Bytes) (limit : UInt64) :
    Safe (decodeBootstrapBytes decoder body limit) := by
  unfold decodeBootstrapBytes
  split_ifs with hshort
  · exact safe_bail _
  · apply ((headerParse_safe _).context _).bind
    intro header _
    cases checkedAdd header.rootOffset.toNat header.rootLength.toNat with
    | none => exact safe_bail _
    | some rootEnd =>
      dsimp only
      split_ifs
      · exact safe_bail _
      · apply ((parseWithLimit_safe _ _ _ _).context _).bind
        intro root _
        exact bootstrapNew_safe header root

theorem context_eq_ok {α : Type} {x : Fallible α} {message : String} {a : α} (h : context message x = .ok a) :
    x = .ok a := by
  cases x with
  | ok b => exact h
  | error e => cases e <;> cases h

theorem decodeBootstrapBytes_ok {decoder : StreamDecoder} {body : Bytes} {limit : UInt64}
    {boot : ArchiveBootstrap} (h : decodeBootstrapBytes decoder body limit = .ok boot) :
    NonDecreasing boot.root.entries := by
  unfold decodeBootstrapBytes at h
  split_ifs at h with hshort
  · cases h
  · obtain ⟨header, _, h⟩ := bind_eq_ok.mp h
    cases hadd : checkedAdd header.rootOffset.toNat header.rootLength.toNat with
    | none => simp [hadd, bail] at h
    | some rootEnd =>
      simp only [hadd] at h
      split_ifs at h with hbig
      · cases h
      · obtain ⟨root, hroot, h⟩ := bind_eq_ok.mp h
        unfold ArchiveBootstrap.new at h
        split at h
        · cases h
        · cases h
          exact parseWithLimit_ok (context_eq_ok hroot)

end Mappf.Pmtiles
