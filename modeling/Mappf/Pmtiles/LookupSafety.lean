import Mappf.Pmtiles.Lookup
import Mappf.Pmtiles.ParserSafety

/-! # Lookup in a hostile archive

Nothing is assumed about the bytes: tile ids may repeat, leaf pointers may form cycles, ranges may lie
anywhere. The depth counter bounds the walk, the section check confines every range, and no step
faults. The calls a reader makes are observed by a backend that records them. -/
namespace Mappf.Pmtiles
open ArchiveReader List

/-! ## Recording the calls -/

inductive BackendCall
  | loadBootstrap
  | loadLeaf (request : LeafDirectoryRequest)
  | readRange (request : ReadRequest)

def leafRequests : List BackendCall → List LeafDirectoryRequest :=
  List.filterMap (fun call => match call with | .loadLeaf request => some request | _ => none)

def rangeRequests : List BackendCall → List ReadRequest :=
  List.filterMap (fun call => match call with | .readRange request => some request | _ => none)

theorem leafRequests_walk (requests : List LeafDirectoryRequest) :
    leafRequests (.loadBootstrap :: requests.map BackendCall.loadLeaf) = requests := by
  rw [leafRequests, filterMap_cons_none rfl, filterMap_map]
  exact filterMap_some

theorem rangeRequests_walk (requests : List LeafDirectoryRequest) :
    rangeRequests (.loadBootstrap :: requests.map BackendCall.loadLeaf) = [] := by
  rw [rangeRequests, filterMap_cons_none rfl, filterMap_map, filterMap_eq_nil_iff]
  intro req _
  rfl

/-- `B` with a log of the calls made to it. -/
def logged {σ ε : Type} (B : ArchiveBackend σ ε) : ArchiveBackend (σ × List BackendCall) ε where
  loadBootstrap := fun s => let (result, s') := B.loadBootstrap s.1; (result, s', s.2 ++ [.loadBootstrap])
  loadLeaf := fun request s => let (result, s') := B.loadLeaf request s.1; (result, s', s.2 ++ [.loadLeaf request])
  readRange := fun request s => let (result, s') := B.readRange request s.1; (result, s', s.2 ++ [.readRange request])
  invalidTileId := B.invalidTileId
  invalidArchive := B.invalidArchive

section
variable {σ ε : Type} (B : ArchiveBackend σ ε) (s : σ) (log : List BackendCall)

theorem logged_loadBootstrap : ∃ result s', B.loadBootstrap s = (result, s') ∧
    (logged B).loadBootstrap (s, log) = (result, s', log ++ [.loadBootstrap]) := ⟨_, _, rfl, rfl⟩

theorem logged_loadLeaf (req : LeafDirectoryRequest) : ∃ result s', B.loadLeaf req s = (result, s') ∧
    (logged B).loadLeaf req (s, log) = (result, s', log ++ [.loadLeaf req]) := ⟨_, _, rfl, rfl⟩

theorem logged_readRange (req : ReadRequest) : ∃ result s', B.readRange req s = (result, s') ∧
    (logged B).readRange req (s, log) = (result, s', log ++ [.readRange req]) := ⟨_, _, rfl, rfl⟩

end

/-- Inside a section of the archive, and no longer than the limit. -/
def Inside (sectionOffset sectionLength : UInt64) (bootstrap : ArchiveBootstrap) (limits : ReaderLimits)
    (offset length : ℕ) : Prop :=
  sectionOffset.toNat ≤ offset ∧ offset + length ≤ sectionOffset.toNat + sectionLength.toNat ∧
    offset + length ≤ bootstrap.archiveLen ∧ bootstrap.archiveLen < 2 ^ 64 ∧
    length ≤ limits.maxRangeBytes.toNat

def InsideLeaf (bootstrap : ArchiveBootstrap) (limits : ReaderLimits) (request : LeafDirectoryRequest) : Prop :=
  Inside bootstrap.header.leafOffset bootstrap.header.leafLength bootstrap limits request.offset request.length.toNat

def InsideData (bootstrap : ArchiveBootstrap) (limits : ReaderLimits) (request : ReadRequest) : Prop :=
  request.kind = .tile ∧
    Inside bootstrap.header.dataOffset bootstrap.header.dataLength bootstrap limits request.offset request.length

/-- Every directory the backend hands out has non-decreasing tile ids, and no error it raises stands
for a fault unless it was given one. `I` holds of its states. -/
structure Sound {σ ε : Type} (B : ArchiveBackend σ ε) (I : σ → Prop) (IsFault : ε → Prop) : Prop where
  bootstrap : ∀ s, I s → I (B.loadBootstrap s).2 ∧
    (∀ b, (B.loadBootstrap s).1 = .ok b → NonDecreasing b.root.entries) ∧
    ∀ e, (B.loadBootstrap s).1 = .error e → ¬ IsFault e
  leaf : ∀ request s, I s → I (B.loadLeaf request s).2 ∧
    (∀ d, (B.loadLeaf request s).1 = .ok d → NonDecreasing d.entries) ∧
    ∀ e, (B.loadLeaf request s).1 = .error e → ¬ IsFault e
  range : ∀ request s, I s → I (B.readRange request s).2 ∧ ∀ e, (B.readRange request s).1 = .error e → ¬ IsFault e
  invalidTileId : ∀ failure, IsFault (B.invalidTileId failure) → failure = .fault
  invalidArchive : ∀ failure, IsFault (B.invalidArchive failure) → failure = .fault

section
variable {σ ε : Type} {B : ArchiveBackend σ ε} {I : σ → Prop} {IsFault : ε → Prop}
  {bootstrap : ArchiveBootstrap} {log : List BackendCall} {limits : ReaderLimits}

theorem Sound.invalidArchive_safe (h : Sound B I IsFault) {α : Type} {x : Fallible α} (hx : Safe x)
    {e : Failure} (he : x = .error e) : ¬ IsFault (B.invalidArchive e) := by
  intro hf
  rw [h.invalidArchive e hf] at he
  exact hx he

/-! ## One step -/

def LeafStep (bootstrap : ArchiveBootstrap) (limits : ReaderLimits) (t : TileId) (depth : ℕ)
    (step : DirectoryStep) (w : DirectoryWalker) : Prop :=
  ∃ range, step = .leaf range ∧ w = walkerAt bootstrap limits t (depth + 1) ∧
    depth < limits.maxDirectoryDepth.toNat ∧ bootstrap.header.leafOffset.toNat ≤ range.offset ∧
    range.offset + range.length.toNat ≤ bootstrap.header.leafOffset.toNat + bootstrap.header.leafLength.toNat

def TileStep (bootstrap : ArchiveBootstrap) (step : DirectoryStep) : Prop :=
  ∃ location, step = .tile location ∧ location.archiveLen = bootstrap.archiveLen ∧
    bootstrap.header.dataOffset.toNat ≤ location.offset ∧
    location.offset + location.length.toNat ≤ bootstrap.header.dataOffset.toNat + bootstrap.header.dataLength.toNat

section

variable (bootstrap : ArchiveBootstrap) (limits : ReaderLimits) (t : TileId) (depth : ℕ)

theorem stepLeaf_safe (entry : DirectoryEntry) : Safe ((walkerAt bootstrap limits t depth).stepLeaf entry) ∧
      ∀ step w, (walkerAt bootstrap limits t depth).stepLeaf entry = .ok (step, w) →
        LeafStep bootstrap limits t depth step w := by
  have hmax := limits.maxDirectoryDepth.toNat_lt
  by_cases hdeep : limits.maxDirectoryDepth.toNat ≤ depth
  · have hbail : (walkerAt bootstrap limits t depth).stepLeaf entry =
        bail s!"PMTiles directory depth exceeds {limits.maxDirectoryDepth}" := if_pos hdeep
    rw [hbail]
    exact ⟨safe_bail _, fun step w hstep => by cases hstep⟩
  · have hdescend : (walkerAt bootstrap limits t depth).descend = .ok (walkerAt bootstrap limits t (depth + 1)) :=
      if_neg (show ¬ 255 ≤ depth by omega)
    have heq : (walkerAt bootstrap limits t depth).stepLeaf entry =
        (checkedSectionOffset "leaf directory" bootstrap.header.leafOffset bootstrap.header.leafLength
          entry.offset entry.length >>= fun offset =>
            .ok (.leaf ⟨offset, entry.length⟩, walkerAt bootstrap limits t (depth + 1))) := by
      simp only [DirectoryWalker.stepLeaf]
      rw [if_neg (show ¬ (walkerAt bootstrap limits t depth).maxDepth.toNat ≤
        (walkerAt bootstrap limits t depth).depth from hdeep), hdescend]
      rfl
    rw [heq]
    refine ⟨Safe.bind (checkedSectionOffset_safe _ _ _ _ _) (fun _ _ => safe_ok _), ?_⟩
    intro step w hstep
    obtain ⟨offset, hoff, hstep⟩ := bind_eq_ok.mp hstep
    cases hstep
    obtain ⟨hlo, hhi⟩ := checkedSectionOffset_ok hoff
    exact ⟨_, rfl, rfl, by omega, hlo, hhi⟩

theorem stepTile_safe (entry : DirectoryEntry) : Safe ((walkerAt bootstrap limits t depth).stepTile entry) ∧
      ∀ step w, (walkerAt bootstrap limits t depth).stepTile entry = .ok (step, w) → TileStep bootstrap step := by
  refine ⟨Safe.bind (checkedSectionOffset_safe _ _ _ _ _) (fun _ _ => safe_ok _), ?_⟩
  intro step w hstep
  obtain ⟨offset, hoff, hstep⟩ := bind_eq_ok.mp hstep
  cases hstep
  obtain ⟨hlo, hhi⟩ := checkedSectionOffset_ok hoff
  exact ⟨_, rfl, rfl, hlo, hhi⟩

/-- What a step can answer on a directory with non-decreasing tile ids. -/
theorem step_safe {directory : Directory} (h : NonDecreasing directory.entries) :
    Safe ((walkerAt bootstrap limits t depth).step directory) ∧
      ∀ step w, (walkerAt bootstrap limits t depth).step directory = .ok (step, w) →
        step = .missing ∨ TileStep bootstrap step ∨ LeafStep bootstrap limits t depth step w := by
  have hfound : ∀ found, Safe ((walkerAt bootstrap limits t depth).stepFound found) := by
    intro found
    cases found with
    | none => exact safe_ok _
    | some hit =>
      rw [DirectoryWalker.stepFound]
      split_ifs
      · exact (stepLeaf_safe bootstrap limits t depth hit.2).1
      · exact (stepTile_safe bootstrap limits t depth hit.2).1
  refine ⟨(findTileId_safe h _).bind (fun found _ => hfound found), ?_⟩
  intro step w hstep
  obtain ⟨found, _, hstep⟩ := bind_eq_ok.mp hstep
  cases found with
  | none => cases hstep; exact .inl rfl
  | some hit =>
    rw [DirectoryWalker.stepFound] at hstep
    split_ifs at hstep
    · exact .inr (.inr ((stepLeaf_safe bootstrap limits t depth hit.2).2 step w hstep))
    · exact .inr (.inl ((stepTile_safe bootstrap limits t depth hit.2).2 step w hstep))

end

theorem checkRange_cases (r : ArchiveReader σ ε) (offset : ℕ) (length : UInt32) :
    (r.checkRange offset length = .ok () ∧ length.toNat ≤ r.limits.maxRangeBytes.toNat) ∨
      ∃ message, r.checkRange offset length = .error (r.backend.invalidArchive (.bail [message])) := by
  unfold checkRange
  dsimp only
  split_ifs with hbig
  · exact .inr ⟨_, rfl⟩
  · cases checkedAdd offset length.toNat with
    | none => exact .inr ⟨_, rfl⟩
    | some stop => exact .inl ⟨rfl, Nat.not_lt.mp hbig⟩

/-! ## The walk -/

/-- How a walk with `n` levels left may end: at most `n` leaf calls, all inside the leaf section, no
fault, and a tile inside the data section if one is found. -/
def WalkEnds (I : σ → Prop) (IsFault : ε → Prop) (bootstrap : ArchiveBootstrap) (limits : ReaderLimits) (n : ℕ)
    (log : List BackendCall)
    (out : Option (Except ε (Option TileLocation) × List ArchiveRange × σ × List BackendCall)) : Prop :=
  ∃ (result : Except ε (Option TileLocation)) (leaves : List ArchiveRange) (s : σ)
      (requests : List LeafDirectoryRequest),
    out = some (result, leaves, s, log ++ requests.map BackendCall.loadLeaf) ∧ I s ∧ requests.length ≤ n ∧
      (∀ request ∈ requests, InsideLeaf bootstrap limits request) ∧ (∀ e, result = .error e → ¬ IsFault e) ∧
      ∀ location, result = .ok (some location) → TileStep bootstrap (.tile location)

theorem walkEnds_here {result : Except ε (Option TileLocation)} {leaves : List ArchiveRange} {s : σ} (n : ℕ) (hs : I s)
    (herror : ∀ e, result = .error e → ¬ IsFault e)
    (htile : ∀ location, result = .ok (some location) → TileStep bootstrap (.tile location)) :
    WalkEnds I IsFault bootstrap limits n log (some (result, leaves, s, log)) :=
  ⟨result, leaves, s, [], by simp, hs, Nat.zero_le n, by simp, herror, htile⟩

theorem WalkEnds.cons {n : ℕ} {req : LeafDirectoryRequest} (hreq : InsideLeaf bootstrap limits req)
    {out : Option (Except ε (Option TileLocation) × List ArchiveRange × σ × List BackendCall)}
    (h : WalkEnds I IsFault bootstrap limits n (log ++ [.loadLeaf req]) out) :
    WalkEnds I IsFault bootstrap limits (n + 1) log out := by
  obtain ⟨result, leaves, s, requests, hout, hs, hlen, hall, herror, htile⟩ := h
  refine ⟨result, leaves, s, req :: requests, ?_, hs, by simpa using hlen, ?_, herror, htile⟩
  · rw [hout, append_assoc, singleton_append, map_cons]
  · intro q hq
    cases mem_cons.mp hq with
    | inl he => rw [he]; exact hreq
    | inr hmem => exact hall q hmem

theorem resolveLoop_safe (hB : Sound B I IsFault) (limits : ReaderLimits) (hvalid : validateLimits limits = .ok ())
    (bootstrap : ArchiveBootstrap) (t : TileId) (n depth : ℕ) (directory : Directory) (leaves : List ArchiveRange)
    (s : σ) (log : List BackendCall) (fuel : ℕ) (hdepth : depth + n = limits.maxDirectoryDepth.toNat)
    (hfuel : n < fuel) (hdir : NonDecreasing directory.entries) (hs : I s) : WalkEnds I IsFault bootstrap limits n log
      (ArchiveReader.resolveLoop ⟨logged B, limits, hvalid⟩ bootstrap fuel (walkerAt bootstrap limits t depth)
        directory leaves (s, log)) := by
  -- Induction on the levels left; a leaf step uses one of them.
  induction n using Nat.strong_induction_on generalizing depth directory leaves s log fuel with
  | _ n ih =>
    obtain ⟨fuel, rfl⟩ : ∃ f, fuel = f + 1 := ⟨fuel - 1, by omega⟩
    obtain ⟨hsafe, hcases⟩ := step_safe bootstrap limits t depth hdir
    rw [resolveLoop]
    cases hstep : (walkerAt bootstrap limits t depth).step directory with
    | error e =>
      apply walkEnds_here n hs
      · intro e' he'
        cases he'
        exact hB.invalidArchive_safe hsafe hstep
      · intro location hl
        cases hl
    | ok out =>
      obtain ⟨step, w⟩ := out
      obtain rfl | ⟨location, rfl, hloc⟩ | ⟨range, rfl, rfl, hlt, hlo, hhi⟩ := hcases step w hstep
      · exact walkEnds_here n hs (fun e he => by cases he) (fun location hl => by cases hl)
      · apply walkEnds_here n hs (fun e he => by cases he)
        intro location' hl
        cases hl
        exact ⟨location, rfl, hloc⟩
      · obtain ⟨hlen, hleafEnd, _⟩ := archiveLen_ok bootstrap.valid
        dsimp only
        obtain ⟨hcheck, hmax⟩ | ⟨message, hcheck⟩ :=
          checkRange_cases (⟨logged B, limits, hvalid⟩ : ArchiveReader _ ε) range.offset range.length
        · obtain ⟨n, rfl⟩ : ∃ m, n = m + 1 := ⟨n - 1, by omega⟩
          obtain ⟨hs', hdir', herror'⟩ := hB.leaf (leafRequest bootstrap range) s hs
          have hin : InsideLeaf bootstrap limits (leafRequest bootstrap range) :=
            ⟨hlo, hhi, hhi.trans hleafEnd, hlen, hmax⟩
          obtain ⟨result, s', hload, hlog⟩ := logged_loadLeaf B s log (leafRequest bootstrap range)
          rw [hload] at hs' hdir' herror'
          simp only [hcheck, hlog]
          cases result with
          | error e =>
            apply WalkEnds.cons hin
            apply walkEnds_here n hs'
            · intro e' he'
              cases he'
              exact herror' e rfl
            · intro location hl
              cases hl
          | ok directory' =>
            apply WalkEnds.cons hin
            exact ih n (by omega) (depth + 1) directory' _ s' _ fuel (by omega) (by omega) (hdir' directory' rfl) hs'
        · rw [hcheck]
          apply walkEnds_here n hs
          · intro e he hfault
            cases he
            cases hB.invalidArchive _ hfault
          · intro location hl
            cases hl

/-! ## The lookup -/

/-- At most `max_directory_depth` leaf calls; leaf reads inside the leaf section and tile reads inside
the data section of the header the bootstrap call returned. -/
def LookupBounded (B : ArchiveBackend σ ε) (s : σ) (limits : ReaderLimits) (calls : List BackendCall) : Prop :=
  (leafRequests calls).length ≤ limits.maxDirectoryDepth.toNat ∧
    (∀ request ∈ leafRequests calls, ∃ bootstrap s1, B.loadBootstrap s = (.ok bootstrap, s1) ∧
      InsideLeaf bootstrap limits request) ∧
    ∀ request ∈ rangeRequests calls, ∃ bootstrap s1, B.loadBootstrap s = (.ok bootstrap, s1) ∧
      InsideData bootstrap limits request

theorem lookupBounded_idle (B : ArchiveBackend σ ε) (s : σ) (limits : ReaderLimits) {calls : List BackendCall}
    (hleaf : leafRequests calls = []) (hrange : rangeRequests calls = []) : LookupBounded B s limits calls := by
  refine ⟨by rw [hleaf]; exact Nat.zero_le _, ?_, ?_⟩
  · rw [hleaf]
    intro req hr
    cases hr
  · rw [hrange]
    intro req hr
    cases hr

variable (hB : Sound B I IsFault) (limits : ReaderLimits)
  (hvalid : validateLimits limits = .ok ()) (tileId : UInt64) (s : σ) (hs : I s) (fuel : ℕ)
  (hfuel : limits.maxDirectoryDepth.toNat < fuel)
include hB hs hfuel

theorem resolveTileLocation_safe : ∃ result leaves s' calls,
      ArchiveReader.resolveTileLocation ⟨logged B, limits, hvalid⟩ fuel tileId (s, []) =
          some (result, leaves, s', calls) ∧ I s' ∧
        (∀ e, result = .error e → ¬ IsFault e) ∧ LookupBounded B s limits calls ∧ rangeRequests calls = [] ∧
        ∀ location header len, result = .ok (some location, header, len) →
          ∃ bootstrap s1, B.loadBootstrap s = (.ok bootstrap, s1) ∧ TileStep bootstrap (.tile location) := by
  unfold resolveTileLocation
  cases hid : TileId.new tileId with
  | error e =>
    refine ⟨_, _, _, _, rfl, hs, ?_, lookupBounded_idle B s limits rfl rfl, rfl, fun _ _ _ h => by cases h⟩
    intro e' he' hfault
    cases he'
    have hfail := hB.invalidTileId e hfault
    subst hfail
    unfold TileId.new at hid
    split_ifs at hid
    cases hid
  | ok t =>
    obtain ⟨answer, s1, hload, hlog⟩ := logged_loadBootstrap B s []
    obtain ⟨hs1, hroot, herror⟩ := hB.bootstrap s hs
    rw [hload] at hs1 hroot herror
    simp only [hlog]
    cases answer with
    | error e =>
      refine ⟨_, _, _, _, rfl, hs1, ?_, lookupBounded_idle B s limits rfl rfl, rfl, fun _ _ _ h => by cases h⟩
      intro e' he'
      cases he'
      exact herror e rfl
    | ok bootstrap =>
      have hnew := walker_new bootstrap limits t (validateLimits_ok hvalid)
      obtain ⟨result, leaves, s', requests, hrun, hs', hlen, hin, hres, htile⟩ :=
        resolveLoop_safe hB limits hvalid bootstrap t limits.maxDirectoryDepth.toNat 0 bootstrap.root [] s1
          [.loadBootstrap] fuel (by omega) hfuel (hroot bootstrap rfl) hs1
      rw [singleton_append] at hrun
      have hleaves := leafRequests_walk requests
      have hranges := rangeRequests_walk requests
      simp only [hnew, nil_append, hrun]
      refine ⟨_, leaves, s', _, rfl, hs', ?_, ⟨?_, ?_, ?_⟩, hranges, ?_⟩
      · intro e he
        cases result with
        | error e' => cases he; exact hres e rfl
        | ok location => cases he
      · exact hleaves.symm ▸ hlen
      · rw [hleaves]
        intro req hr
        exact ⟨bootstrap, s1, hload, hin req hr⟩
      · rw [hranges]
        intro req hr
        cases hr
      · intro location header len he
        cases result with
        | error e' => cases he
        | ok location' => cases he; exact ⟨bootstrap, s1, hload, htile location rfl⟩

theorem getTile_safe :
    ∃ result s' calls, ArchiveReader.getTile ⟨logged B, limits, hvalid⟩ fuel tileId (s, []) =
        some (result, s', calls) ∧ I s' ∧ (∀ e, result = .error e → ¬ IsFault e) ∧
      LookupBounded B s limits calls := by
  obtain ⟨located, leaves, s1, calls, hresolve, hs1, herror, hbdd, hranges, htile⟩ :=
    resolveTileLocation_safe hB limits hvalid tileId s hs fuel hfuel
  unfold getTile
  rw [hresolve, Option.map_some]
  cases located with
  | error e => exact ⟨_, s1, calls, rfl, hs1, (fun e' he' => by cases he'; exact herror e rfl), hbdd⟩
  | ok out =>
    obtain ⟨location, header, len⟩ := out
    cases location with
    | none => exact ⟨_, s1, calls, rfl, hs1, (fun e he => by cases he), hbdd⟩
    | some location =>
      obtain ⟨bootstrap, s2, hload, location', hloc, hlen', hlo, hhi⟩ := htile location header len rfl
      cases hloc
      obtain ⟨hlen, _, hdataEnd⟩ := archiveLen_ok bootstrap.valid
      dsimp only
      obtain ⟨hcheck, hmax⟩ | ⟨message, hcheck⟩ :=
        checkRange_cases (⟨logged B, limits, hvalid⟩ : ArchiveReader _ ε) location.offset location.length
      · obtain ⟨answer, s3, hread, hlog⟩ := logged_readRange B s1 calls
          ⟨location.offset, location.length.toNat, some location.archiveLen, .tile⟩
        obtain ⟨hs3, hfault⟩ := hB.range ⟨location.offset, location.length.toNat, some location.archiveLen, .tile⟩ s1 hs1
        rw [hread] at hs3 hfault
        have hbdd' : LookupBounded B s limits
            (calls ++ [.readRange ⟨location.offset, location.length.toNat, some location.archiveLen, .tile⟩]) := by
          obtain ⟨hcount, hleaf, _⟩ := hbdd
          have hsame : leafRequests (calls ++ [.readRange
              ⟨location.offset, location.length.toNat, some location.archiveLen, .tile⟩]) = leafRequests calls := by
            rw [leafRequests, filterMap_append]
            exact append_nil _
          refine ⟨hsame.symm ▸ hcount, hsame.symm ▸ hleaf, ?_⟩
          rw [rangeRequests, filterMap_append, show filterMap _ calls = [] from hranges]
          intro req hr
          rw [mem_singleton.mp hr]
          exact ⟨bootstrap, s2, hload, rfl, hlo, hhi, hhi.trans hdataEnd, hlen, hmax⟩
        rw [hcheck]
        rw [hlog]
        cases answer with
        | error e => exact ⟨_, s3, _, rfl, hs3, (fun e' he' => by cases he'; exact hfault e rfl), hbdd'⟩
        | ok bytes => exact ⟨_, s3, _, rfl, hs3, (fun e he => by cases he), hbdd'⟩
      · rw [hcheck]
        refine ⟨_, s1, calls, rfl, hs1, ?_, hbdd⟩
        intro e he hfault
        cases he
        cases hB.invalidArchive _ hfault

end

/-! ## The backend over raw bytes -/

def ReaderError.IsFault {ε : Type} : ReaderError ε → Prop
  | .source _ => False
  | .invalidTileId failure => failure = .fault
  | .invalidArchive failure => failure = .fault

/-- A directory store returns only what was put into it, and only decoded blocks are put. -/
structure DirectoryStore.Keeps {τ : Type} (D : DirectoryStore τ) (decoder : StreamDecoder) (I : τ → Prop) : Prop where
  getBootstrap : ∀ t b, I t → D.getBootstrap t = some b →
    ∃ body limit, decodeBootstrapBytes decoder body limit = .ok b
  putBootstrap : ∀ t b, I t → (∃ body limit, decodeBootstrapBytes decoder body limit = .ok b) → I (D.putBootstrap b t)
  getLeaf : ∀ key t d, I t → D.getLeaf key t = some d →
    ∃ compression bytes limit, Directory.parseWithLimit decoder compression bytes limit = .ok d
  putLeaf : ∀ key t d, I t → (∃ compression bytes limit,
    Directory.parseWithLimit decoder compression bytes limit = .ok d) → I (D.putLeaf key d t)

namespace RangeArchiveBackend

variable {σ τ ε : Type} (b : RangeArchiveBackend σ τ ε)

theorem readRange_keeps (req : ReadRequest) (s : σ × τ) :
    (b.readRange req s).2.2 = s.2 ∧ ∀ e, (b.readRange req s).1 = .error e → ¬ e.IsFault := by
  unfold readRange
  dsimp only
  split_ifs with hbig
  · refine ⟨rfl, ?_⟩
    intro e he hfault
    cases he
    cases hfault
  · cases b.source req s.1 with
    | mk answer src =>
      cases answer with
      | error e =>
        refine ⟨rfl, ?_⟩
        intro e' he' hfault
        cases he'
        exact hfault
      | ok bytes =>
        dsimp only
        split_ifs
        · refine ⟨rfl, ?_⟩
          intro e he hfault
          cases he
          cases hfault
        · exact ⟨rfl, fun e he => by cases he⟩

theorem sound {I : τ → Prop} (hkeeps : b.directories.Keeps b.decoder I) :
    Sound b.backend (fun s => I s.2) ReaderError.IsFault where
  bootstrap := by
    intro s hs
    simp only [backend, loadBootstrap]
    cases hget : b.directories.getBootstrap s.2 with
    | some cached =>
      obtain ⟨body, limit, hdec⟩ := hkeeps.getBootstrap s.2 cached hs hget
      exact ⟨hs, fun b' hb' => by cases hb'; exact decodeBootstrapBytes_ok hdec, fun e he => by cases he⟩
    | none =>
      obtain ⟨hstore, hfault⟩ := b.readRange_keeps ⟨0, b.limits.bootstrapBytes.toNat, none, .bootstrap⟩ s
      generalize b.readRange ⟨0, b.limits.bootstrapBytes.toNat, none, .bootstrap⟩ s = answer at hstore hfault ⊢
      obtain ⟨result, src, store⟩ := answer
      subst hstore
      cases result with
      | error e => exact ⟨hs, fun b' hb' => (by cases hb'), fun e' he' => by cases he'; exact hfault e rfl⟩
      | ok bytes =>
        dsimp only
        cases hdecode : decodeBootstrapBytes b.decoder bytes b.limits.maxDecompressedDirectoryBytes with
        | error e =>
          refine ⟨hs, fun b' hb' => (by cases hb'), ?_⟩
          intro e' he' hf
          cases he'
          change e = .fault at hf
          subst hf
          exact decodeBootstrapBytes_safe _ _ _ hdecode
        | ok decoded =>
          refine ⟨hkeeps.putBootstrap _ _ hs ⟨_, _, hdecode⟩, ?_, fun e he => by cases he⟩
          intro b' hb'
          cases hb'
          exact decodeBootstrapBytes_ok hdecode
  leaf := by
    intro req s hs
    simp only [backend, loadLeaf]
    cases hget : b.directories.getLeaf (req.offset, req.length) s.2 with
    | some cached =>
      obtain ⟨compression, bytes, limit, hpars⟩ := hkeeps.getLeaf _ s.2 cached hs hget
      exact ⟨hs, fun d hd => by cases hd; exact parseWithLimit_ok hpars, fun e he => by cases he⟩
    | none =>
      obtain ⟨hstore, hfault⟩ := b.readRange_keeps ⟨req.offset, req.length.toNat, some req.archiveLen, .leafDirectory⟩ s
      generalize b.readRange ⟨req.offset, req.length.toNat, some req.archiveLen, .leafDirectory⟩ s =
        answer at hstore hfault ⊢
      obtain ⟨result, src, store⟩ := answer
      subst hstore
      cases result with
      | error e => exact ⟨hs, fun d hd => (by cases hd), fun e' he' => by cases he'; exact hfault e rfl⟩
      | ok bytes =>
        dsimp only
        cases hparse : context "failed to parse PMTiles leaf directory"
            (Directory.parseWithLimit b.decoder req.compression bytes b.limits.maxDecompressedDirectoryBytes) with
        | error e =>
          refine ⟨hs, fun d hd => (by cases hd), ?_⟩
          intro e' he' hf
          cases he'
          change e = .fault at hf
          subst hf
          exact (parseWithLimit_safe _ _ _ _).context _ hparse
        | ok directory =>
          refine ⟨hkeeps.putLeaf _ _ _ hs ⟨_, _, _, context_eq_ok hparse⟩, ?_, fun e he => by cases he⟩
          intro d hd
          cases hd
          exact parseWithLimit_ok (context_eq_ok hparse)
  range := by
    intro req s hs
    obtain ⟨hstore, hfault⟩ := b.readRange_keeps req s
    exact ⟨by show I (b.readRange req s).2.2; rw [hstore]; exact hs, hfault⟩
  invalidTileId := fun _ h => h
  invalidArchive := fun _ h => h

end RangeArchiveBackend

/-- For any bytes the source may answer with: both lookups end within `max_directory_depth` leaf calls
and keep the directory store clean, every range they read lies in its section, inside the archive
and within the limit, and nothing faults; in particular the search faults on no parsed directory. -/
theorem hostile_lookup_confined {σ τ ε : Type} (b : RangeArchiveBackend σ τ ε) (I : τ → Prop)
    (hkeeps : b.directories.Keeps b.decoder I) (hvalid : validateLimits b.limits = .ok ()) (tileId : UInt64)
    (s : σ × τ) (hs : I s.2) (fuel : ℕ) (hfuel : b.limits.maxDirectoryDepth.toNat < fuel) :
    (∃ result leaves s' calls,
        ArchiveReader.resolveTileLocation ⟨logged b.backend, b.limits, hvalid⟩ fuel tileId (s, []) =
          some (result, leaves, s', calls) ∧ I s'.2 ∧ (∀ e, result = .error e → ¬ e.IsFault) ∧
        LookupBounded b.backend s b.limits calls) ∧
      (∃ result s' calls, ArchiveReader.getTile ⟨logged b.backend, b.limits, hvalid⟩ fuel tileId (s, []) =
          some (result, s', calls) ∧ I s'.2 ∧ (∀ e, result = .error e → ¬ e.IsFault) ∧
        LookupBounded b.backend s b.limits calls) ∧
      ∀ compression bytes limit d t, Directory.parseWithLimit b.decoder compression bytes limit = .ok d →
        Safe (d.findTileId t) := by
  refine ⟨?_, getTile_safe (b.sound hkeeps) b.limits hvalid tileId s hs fuel hfuel, ?_⟩
  · obtain ⟨result, leaves, s', calls, hrun, hs', herror, hbounded, _⟩ :=
      resolveTileLocation_safe (b.sound hkeeps) b.limits hvalid tileId s hs fuel hfuel
    exact ⟨result, leaves, s', calls, hrun, hs', herror, hbounded⟩
  · intro compression bytes limit d t hparse
    exact findTileId_safe (parseWithLimit_ok hparse) t

/-! ## A leaf pointer that points to its own directory -/

def noDirectoryStore : DirectoryStore Unit where
  getBootstrap := fun _ => none
  putBootstrap := fun _ t => t
  getLeaf := fun _ _ => none
  putLeaf := fun _ _ t => t

/-- The root directory doubles as the only leaf directory. -/
def cyclicArchive : Bytes :=
  magic ++ [3] ++ [127, 5, 0, 0, 127, 5, 132, 0, 1, 1, 1].flatMap (leEncode 8) ++
    [1, 1, 1, 1, 0, 0] ++ List.replicate 25 0 ++ [1, 0, 0, 5, 1]

def cyclicBackend : RangeArchiveBackend Unit Unit String where
  source := fun request s => (.ok (slice cyclicArchive request.offset (request.offset + request.length)), s)
  directories := noDirectoryStore
  decoder := fun _ _ _ => .error "no decoder"
  limits := ⟨16384, 16384, 2, 1024, 1024⟩

theorem cyclic_lookup_stops :
    ∃ result s' calls,
      ArchiveReader.getTile ⟨logged cyclicBackend.backend, cyclicBackend.limits, by decide⟩ 3 7 (((), ()), []) =
        some (result, s', calls) ∧ (leafRequests calls).length ≤ 2 := by
  have hkeeps : noDirectoryStore.Keeps cyclicBackend.decoder (fun _ => True) :=
    ⟨fun _ _ _ h => (nomatch h), fun _ _ _ _ => trivial, fun _ _ _ _ h => (nomatch h), fun _ _ _ _ _ => trivial⟩
  obtain ⟨_, ⟨result, s', calls, hrun, _, _, hcount, _⟩, _⟩ :=
    hostile_lookup_confined cyclicBackend (fun _ => True) hkeeps (by decide) 7 ((), ()) trivial 3 (by decide)
  exact ⟨result, s', calls, hrun, hcount⟩

end Mappf.Pmtiles
