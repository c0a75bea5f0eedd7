import Mappf.Pmtiles.ReaderSpec

/-! # Lookup in a well-formed directory tree

A directory tree stands for the map its tile entries describe. The reader's walk (binary search,
run lengths, leaf pointers, depth counter) computes that map: at every level the predecessor entry is
the only one whose tiles can include the requested id. -/
namespace Mappf.Pmtiles
open List Option

/-! ## Directory trees -/

/-- A directory in entry order, each leaf pointer with the directory it points to. -/
inductive DirectoryTree
  | nil
  | tile (e : DirectoryEntry) (rest : DirectoryTree)
  | leaf (e : DirectoryEntry) (child rest : DirectoryTree)

def DirectoryEntry.Covers (e : DirectoryEntry) (t : ℕ) : Prop :=
  e.tileId.toNat ≤ t ∧ t < e.tileId.toNat + e.runLength.toNat

instance (e : DirectoryEntry) (t : ℕ) : Decidable (e.Covers t) :=
  inferInstanceAs (Decidable (_ ∧ _))

namespace DirectoryTree

def entries : DirectoryTree → List DirectoryEntry
  | nil => []
  | tile e rest => e :: rest.entries
  | leaf e _ rest => e :: rest.entries

def directory (T : DirectoryTree) : Directory := ⟨T.entries⟩

def flatten : DirectoryTree → List DirectoryEntry
  | nil => []
  | tile e rest => e :: rest.flatten
  | leaf _ child rest => child.flatten ++ rest.flatten

def leaves : DirectoryTree → List (DirectoryEntry × DirectoryTree)
  | nil => []
  | tile _ rest => rest.leaves
  | leaf e child rest => (e, child) :: (child.leaves ++ rest.leaves)

def depth : DirectoryTree → ℕ
  | nil => 0
  | tile _ rest => rest.depth
  | leaf _ child rest => max (child.depth + 1) rest.depth

/-- Tile ids ascend strictly, the run of a tile entry ends before the entries after it, and the tiles
below a leaf pointer lie between its tile id and those of the entries after it. -/
def WellFormed : DirectoryTree → Prop
  | nil => True
  | tile e rest =>
    e.isLeaf = false ∧ (∀ n ∈ rest.entries, e.tileId.toNat + e.runLength.toNat ≤ n.tileId.toNat) ∧
      rest.WellFormed
  | leaf e child rest =>
    e.isLeaf = true ∧ (∀ n ∈ rest.entries, e.tileId.toNat < n.tileId.toNat) ∧
      (∀ x ∈ child.flatten, e.tileId.toNat ≤ x.tileId.toNat ∧
        ∀ n ∈ rest.entries, x.tileId.toNat + x.runLength.toNat ≤ n.tileId.toNat) ∧
      child.WellFormed ∧ rest.WellFormed

instance decidableWellFormed : (T : DirectoryTree) → Decidable T.WellFormed
  | nil => .isTrue trivial
  | tile _ rest =>
    have := decidableWellFormed rest
    inferInstanceAs (Decidable (_ ∧ _ ∧ _))
  | leaf _ child rest =>
    have := decidableWellFormed child
    have := decidableWellFormed rest
    inferInstanceAs (Decidable (_ ∧ _ ∧ _ ∧ _ ∧ _))

/-- Every tile range lies in the data section and every leaf range in the leaf section, none longer
than `maxRangeBytes`. -/
def InSections (header : Header) (limits : ReaderLimits) (T : DirectoryTree) : Prop :=
  (∀ e ∈ T.flatten, e.offset.toNat + e.length.toNat ≤ header.dataLength.toNat ∧
      e.length.toNat ≤ limits.maxRangeBytes.toNat) ∧
    ∀ p ∈ T.leaves, p.1.offset.toNat + p.1.length.toNat ≤ header.leafLength.toNat ∧
      p.1.length.toNat ≤ limits.maxRangeBytes.toNat

instance (header : Header) (limits : ReaderLimits) (T : DirectoryTree) : Decidable (T.InSections header limits) :=
  inferInstanceAs (Decidable (_ ∧ _))

theorem isLeaf_false_iff {e : DirectoryEntry} : e.isLeaf = false ↔ 0 < e.runLength.toNat := by
  unfold DirectoryEntry.isLeaf
  rw [beq_eq_false_iff_ne, Nat.pos_iff_ne_zero, ne_eq, ne_eq, not_iff_not]
  exact ⟨fun h => by rw [h]; rfl, fun h => UInt32.toNat_inj.mp h⟩

theorem ascending {T : DirectoryTree} (h : T.WellFormed) :
    T.entries.Pairwise (fun a b => a.tileId.toNat < b.tileId.toNat) := by
  induction T with
  | nil => exact List.Pairwise.nil
  | tile e rest ih =>
    obtain ⟨hrun, hnext, hrest⟩ := h
    have hpos := isLeaf_false_iff.mp hrun
    refine pairwise_cons.mpr ⟨?_, ih hrest⟩
    intro n hn
    have hn' := hnext n hn
    omega
  | leaf e child rest _ ih =>
    obtain ⟨_, hnext, _, _, hrest⟩ := h
    exact pairwise_cons.mpr ⟨hnext, ih hrest⟩

end DirectoryTree

/-! ## The predecessor entry -/

/-- The last entry whose tile id does not exceed `t`. -/
def predecessor (t : ℕ) : List DirectoryEntry → Option DirectoryEntry
  | [] => none
  | e :: es => (predecessor t es).or (if e.tileId.toNat ≤ t then some e else none)

variable {entries : List DirectoryEntry} {t : ℕ}

theorem predecessor_none (h : ∀ e ∈ entries, t < e.tileId.toNat) : predecessor t entries = none := by
  induction entries with
  | nil => rfl
  | cons e es ih =>
    have he := h e (mem_cons_self ..)
    rw [predecessor, ih (fun x hx => h x (mem_cons_of_mem _ hx)), none_or, if_neg (by omega)]

theorem predecessor_some {i : ℕ} {e : DirectoryEntry} (he : entries[i]? = some e) (hle : e.tileId.toNat ≤ t)
    (habove : ∀ j x, i < j → entries[j]? = some x → t < x.tileId.toNat) : predecessor t entries = some e := by
  induction entries generalizing i with
  | nil => cases he
  | cons x es ih =>
    cases i with
    | zero =>
      cases he
      have hnone : predecessor t es = none := by
        apply predecessor_none
        intro y hy
        obtain ⟨j, hj⟩ := mem_iff_getElem?.mp hy
        exact habove (j + 1) y (by omega) hj
      rw [predecessor, hnone, none_or, if_pos hle]
    | succ i =>
      have htail := ih he (fun j y hj hy => habove (j + 1) y (by omega) hy)
      rw [predecessor, htail, some_or]

theorem predecessor_mem {p : DirectoryEntry}
    (h : predecessor t entries = some p) : p ∈ entries ∧ p.tileId.toNat ≤ t := by
  induction entries with
  | nil => cases h
  | cons e es ih =>
    rw [predecessor] at h
    cases hes : predecessor t es with
    | some q =>
      rw [hes, some_or] at h
      cases h
      obtain ⟨hmem, hle⟩ := ih hes
      exact ⟨mem_cons_of_mem _ hmem, hle⟩
    | none =>
      rw [hes, none_or] at h
      split_ifs at h with hle
      cases h
      exact ⟨mem_cons_self .., hle⟩

/-- The entry found is the predecessor, if its run or its subtree can contain the tile id. -/
def contains (t : ℕ) (e : DirectoryEntry) : Bool := e.isLeaf || decide (t < e.tileId.toNat + e.runLength.toNat)

theorem findTileId_predecessor {d : Directory} (t : TileId)
    (h : d.entries.Pairwise (fun a b => a.tileId.toNat < b.tileId.toNat)) : ∃ found, d.findTileId t = .ok found ∧
      found.map Prod.snd = (predecessor t.value d.entries).filter (contains t.value) := by
  have hnd : NonDecreasing d.entries := h.imp (fun hab => hab.le)
  obtain ⟨i, e, he, heq, hfind⟩ | ⟨hall, hfind⟩ | ⟨i, e, he, hlt, habove, hfind⟩ := findTileId_cases hnd t
  · have habove : ∀ j x, i < j → d.entries[j]? = some x → t.value < x.tileId.toNat := by
      intro j x hij hx
      obtain ⟨hi, rfl⟩ := List.getElem?_eq_some_iff.mp he
      obtain ⟨hj, rfl⟩ := List.getElem?_eq_some_iff.mp hx
      rw [← heq]
      exact List.pairwise_iff_getElem.mp h i j hi hj hij
    have hcont : contains t.value e = true := by
      cases hleaf : e.isLeaf with
      | true => simp [contains, hleaf]
      | false =>
        have hpos := DirectoryTree.isLeaf_false_iff.mp hleaf
        simp only [contains, hleaf, Bool.false_or, decide_eq_true_eq]
        omega
    refine ⟨_, hfind, ?_⟩
    rw [predecessor_some he heq.le habove, filter_some, if_pos hcont]
    rfl
  · refine ⟨_, hfind, ?_⟩
    rw [predecessor_none hall]
    rfl
  · refine ⟨_, hfind, ?_⟩
    rw [predecessor_some he hlt.le habove, filter_some]
    simp only [contains, Bool.or_eq_true, decide_eq_true_eq]
    split_ifs <;> rfl

namespace DirectoryTree

/-! ## One level of the tree -/

/-- What the tree says about `t`, read off the predecessor entry of its top directory. -/
inductive Located (T : DirectoryTree) (t : ℕ) : Option DirectoryEntry → Prop
  | below (h : ∀ x ∈ T.flatten, ¬ x.Covers t) : Located T t none
  | tile (p : DirectoryEntry) (hrun : p.isLeaf = false) (hmem : p ∈ T.flatten) (hle : p.tileId.toNat ≤ t)
      (honly : ∀ x ∈ T.flatten, x.Covers t → x = p) : Located T t (some p)
  | leaf (p : DirectoryEntry) (child : DirectoryTree) (hleaf : p.isLeaf = true) (hmem : (p, child) ∈ T.leaves)
      (hleaves : ∀ q ∈ child.leaves, q ∈ T.leaves) (hflat : ∀ x ∈ child.flatten, x ∈ T.flatten)
      (hdepth : child.depth + 1 ≤ T.depth) (hwf : child.WellFormed)
      (honly : ∀ x ∈ T.flatten, x.Covers t → x ∈ child.flatten) : Located T t (some p)

/-- Items that do not cover `t` change nothing about it. -/
theorem Located.extend {T T' : DirectoryTree} {p : DirectoryEntry} (h : Located T t (some p))
    (hleaves : ∀ q ∈ T.leaves, q ∈ T'.leaves) (hflat : ∀ x ∈ T.flatten, x ∈ T'.flatten)
    (hdepth : T.depth ≤ T'.depth) (hskip : ∀ x ∈ T'.flatten, x ∈ T.flatten ∨ ¬ x.Covers t) : Located T' t (some p) := by
  have hold : ∀ x ∈ T'.flatten, x.Covers t → x ∈ T.flatten := by
    intro x hx hcov
    cases hskip x hx with
    | inl hmem => exact hmem
    | inr hnot => exact absurd hcov hnot
  cases h with
  | tile _ hrun hmem hle honly =>
    exact .tile p hrun (hflat p hmem) hle (fun x hx hcov => honly x (hold x hx hcov) hcov)
  | leaf _ child hleaf hmem hleaves' hflat' hdepth' hwf honly =>
    exact .leaf p child hleaf (hleaves _ hmem) (fun q hq => hleaves q (hleaves' q hq))
      (fun x hx => hflat x (hflat' x hx)) (hdepth'.trans hdepth) hwf
      (fun x hx hcov => honly x (hold x hx hcov) hcov)

theorem located_none {T : DirectoryTree} (hwf : T.WellFormed) (h : predecessor t T.entries = none) :
    ∀ x ∈ T.flatten, ¬ x.Covers t := by
  induction T with
  | nil => simp [flatten]
  | tile e rest ih =>
    rw [entries, predecessor, or_eq_none_iff] at h
    have he : ¬ e.tileId.toNat ≤ t := by
      intro hle
      rw [if_pos hle] at h
      cases h.2
    intro x hx hcov
    cases mem_cons.mp hx with
    | inl hxe => exact he (hxe ▸ hcov.1)
    | inr hmem => exact ih hwf.2.2 h.1 x hmem hcov
  | leaf e child rest _ ih =>
    obtain ⟨_, _, hchild, _, hrest⟩ := hwf
    rw [entries, predecessor, or_eq_none_iff] at h
    have he : ¬ e.tileId.toNat ≤ t := by
      intro hle
      rw [if_pos hle] at h
      cases h.2
    intro x hx hcov
    cases mem_append.mp hx with
    | inl hmem => exact he ((hchild x hmem).1.trans hcov.1)
    | inr hmem => exact ih hrest h.1 x hmem hcov

/-- Tiles of an earlier item end before the predecessor starts, tiles of a later one start after `t`. -/
theorem located (T : DirectoryTree) (t : ℕ) (hwf : T.WellFormed) : Located T t (predecessor t T.entries) := by
  induction T with
  | nil => exact .below (by simp [flatten])
  | tile e rest ih =>
    obtain ⟨hrun, hnext, hrest⟩ := hwf
    have hskip : ∀ p, predecessor t rest.entries = some p → ¬ e.Covers t := by
      intro p hp hcov
      obtain ⟨hmem, hle⟩ := predecessor_mem hp
      have hend := hnext p hmem
      have hlt := hcov.2
      omega
    rw [entries, predecessor]
    cases hp : predecessor t rest.entries with
    | none =>
      have hlater := located_none hrest hp
      split_ifs with hle
      · refine .tile e hrun (mem_cons_self ..) hle ?_
        intro x hx hcov
        cases mem_cons.mp hx with
        | inl hxe => exact hxe
        | inr hmem => exact absurd hcov (hlater x hmem)
      · refine .below ?_
        intro x hx hcov
        cases mem_cons.mp hx with
        | inl hxe => rw [hxe] at hcov; exact hle hcov.1
        | inr hmem => exact hlater x hmem hcov
    | some p =>
      have hrec := ih hrest
      rw [hp] at hrec
      refine hrec.extend (fun q hq => hq) (fun x hx => mem_cons_of_mem _ hx) le_rfl ?_
      intro x hx
      cases mem_cons.mp hx with
      | inl hxe => exact .inr (hxe ▸ hskip p hp)
      | inr hmem => exact .inl hmem
  | leaf e child rest _ ih =>
    obtain ⟨hleaf, hnext, hchild, hchildwf, hrest⟩ := hwf
    have hskip : ∀ p, predecessor t rest.entries = some p → ∀ x ∈ child.flatten, ¬ x.Covers t := by
      intro p hp x hx hcov
      obtain ⟨hmem, hle⟩ := predecessor_mem hp
      have hend := (hchild x hx).2 p hmem
      have hlt := hcov.2
      omega
    rw [entries, predecessor]
    cases hp : predecessor t rest.entries with
    | none =>
      have hlater := located_none hrest hp
      split_ifs with hle
      · refine .leaf e child hleaf (mem_cons_self ..) ?_ ?_ (Nat.le_max_left ..) hchildwf ?_
        · intro q hq
          exact mem_cons_of_mem _ (mem_append_left _ hq)
        · intro x hx
          exact mem_append_left _ hx
        · intro x hx hcov
          cases mem_append.mp hx with
          | inl hmem => exact hmem
          | inr hmem => exact absurd hcov (hlater x hmem)
      · refine .below ?_
        intro x hx hcov
        cases mem_append.mp hx with
        | inl hmem => exact hle ((hchild x hmem).1.trans hcov.1)
        | inr hmem => exact hlater x hmem hcov
    | some p =>
      have hrec := ih hrest
      rw [hp] at hrec
      refine hrec.extend (fun q hq => mem_cons_of_mem _ (mem_append_right _ hq))
        (fun x hx => mem_append_right _ hx) (Nat.le_max_right ..) ?_
      intro x hx
      cases mem_append.mp hx with
      | inl hmem => exact .inr (hskip p hp x hmem)
      | inr hmem => exact .inl hmem

end DirectoryTree

/-! ## The walk -/

variable (bootstrap : ArchiveBootstrap)

def tileLocation (e : DirectoryEntry) : TileLocation :=
  ⟨bootstrap.header.dataOffset.toNat + e.offset.toNat, e.length, bootstrap.archiveLen⟩

def leafRange (e : DirectoryEntry) : ArchiveRange :=
  ⟨bootstrap.header.leafOffset.toNat + e.offset.toNat, e.length⟩

def DirectoryTree.Resolves (T : DirectoryTree) (bootstrap : ArchiveBootstrap) (t : ℕ)
    (location : Option TileLocation) : Prop :=
  (∀ e ∈ T.flatten, e.Covers t → location = some (tileLocation bootstrap e)) ∧
    ((∀ e ∈ T.flatten, ¬ e.Covers t) → location = none)

def walkerAt (limits : ReaderLimits) (t : TileId) (depth : ℕ) : DirectoryWalker :=
  ⟨bootstrap.header, bootstrap.archiveLen, t, depth, limits.maxDirectoryDepth⟩

section
variable (boot : ArchiveBootstrap) (limits : ReaderLimits) (t : TileId) (depth : ℕ)

theorem walker_new (h : limits.maxDirectoryDepth ≠ 0) :
    DirectoryWalker.new boot.header t limits.maxDirectoryDepth = .ok (walkerAt boot limits t 0) := by
  simp only [DirectoryWalker.new, if_neg h, boot.valid]
  rfl

theorem stepLeaf_eq {e : DirectoryEntry} (hin : e.offset.toNat + e.length.toNat ≤ boot.header.leafLength.toNat)
    (hdepth : depth < limits.maxDirectoryDepth.toNat) : (walkerAt boot limits t depth).stepLeaf e =
      .ok (.leaf (leafRange boot e), walkerAt boot limits t (depth + 1)) := by
  obtain ⟨hlen, hleaf, _⟩ := archiveLen_ok boot.valid
  have hmax := limits.maxDirectoryDepth.toNat_lt
  have hsect : boot.header.leafOffset.toNat + boot.header.leafLength.toNat < 2 ^ 64 := by omega
  have hdescend : (walkerAt boot limits t depth).descend = .ok (walkerAt boot limits t (depth + 1)) :=
    if_neg (show ¬ 255 ≤ depth by omega)
  have hdeep : ¬ (walkerAt boot limits t depth).maxDepth.toNat ≤ (walkerAt boot limits t depth).depth :=
    Nat.not_le.mpr hdepth
  have hoff := checkedSectionOffset_eq "leaf directory" hin hsect
  simp only [DirectoryWalker.stepLeaf, if_neg hdeep, hdescend]
  show (checkedSectionOffset "leaf directory" boot.header.leafOffset boot.header.leafLength e.offset e.length >>= _) = _
  rw [hoff]
  rfl

theorem stepTile_eq {e : DirectoryEntry} (hin : e.offset.toNat + e.length.toNat ≤ boot.header.dataLength.toNat) :
    (walkerAt boot limits t depth).stepTile e = .ok (.tile (tileLocation boot e), walkerAt boot limits t depth) := by
  obtain ⟨hlen, _, hdata⟩ := archiveLen_ok boot.valid
  have hsect : boot.header.dataOffset.toNat + boot.header.dataLength.toNat < 2 ^ 64 := by omega
  have hoff := checkedSectionOffset_eq "tile data" hin hsect
  show (checkedSectionOffset "tile data" boot.header.dataOffset boot.header.dataLength e.offset e.length >>= _) = _
  rw [hoff]
  rfl

/-- The three outcomes of one step at the top directory of a tree. -/
theorem step_tree {T : DirectoryTree} (hwf : T.WellFormed) (hin : T.InSections boot.header limits) :
    ((walkerAt boot limits t depth).step T.directory = .ok (.missing, walkerAt boot limits t depth) ∧
        T.Resolves boot t.value none) ∨
      (∃ e, (walkerAt boot limits t depth).step T.directory =
          .ok (.tile (tileLocation boot e), walkerAt boot limits t depth) ∧
        T.Resolves boot t.value (some (tileLocation boot e))) ∨
      ∃ p child, (walkerAt boot limits t depth).step T.directory =
          (walkerAt boot limits t depth).stepLeaf p ∧ (p, child) ∈ T.leaves ∧
        (∀ q ∈ child.leaves, q ∈ T.leaves) ∧ (∀ x ∈ child.flatten, x ∈ T.flatten) ∧
        child.depth < T.depth ∧ child.WellFormed ∧
        ∀ location, child.Resolves boot t.value location → T.Resolves boot t.value location := by
  obtain ⟨found, hfind, hpred⟩ := findTileId_predecessor (d := T.directory) t (DirectoryTree.ascending hwf)
  have hstep : (walkerAt boot limits t depth).step T.directory = (walkerAt boot limits t depth).stepFound found := by
    show (T.directory.findTileId t >>= _) = _
    rw [hfind, ok_bind]
  rw [hstep]
  have hloc := DirectoryTree.located T t.value hwf
  have hmiss : (∀ x ∈ T.flatten, ¬ x.Covers t.value) → T.Resolves boot t.value none :=
    fun h => ⟨fun e he hcov => absurd hcov (h e he), fun _ => rfl⟩
  change found.map Prod.snd = (predecessor t.value T.entries).filter (contains t.value) at hpred
  generalize predecessor t.value T.entries = p at hloc hpred
  cases hloc with
  | below h =>
    rw [filter_none, map_eq_none_iff] at hpred
    subst hpred
    exact .inl ⟨rfl, hmiss h⟩
  | tile p hrun hmem hle honly =>
    rw [filter_some] at hpred
    split_ifs at hpred with hcont
    · obtain ⟨⟨i, e⟩, rfl, he⟩ := map_eq_some_iff.mp hpred
      subst he
      simp only [contains, hrun, Bool.false_or, decide_eq_true_eq] at hcont
      right; left
      refine ⟨e, ?_, ?_, ?_⟩
      · simp only [DirectoryWalker.stepFound, hrun, Bool.false_eq_true, if_false]
        exact stepTile_eq boot limits t depth (hin.1 e hmem).1
      · intro x hx hcov
        rw [honly x hx hcov]
      · intro hnone
        exact absurd ⟨hle, hcont⟩ (hnone e hmem)
    · rw [map_eq_none_iff] at hpred
      subst hpred
      simp only [contains, hrun, Bool.false_or, decide_eq_true_eq] at hcont
      refine .inl ⟨rfl, hmiss ?_⟩
      intro x hx hcov
      rw [honly x hx hcov] at hcov
      exact hcont hcov.2
  | leaf p child hleaf hmem hleaves hflat hdepth hwf' honly =>
    rw [filter_some, if_pos (by simp [contains, hleaf])] at hpred
    obtain ⟨⟨i, e⟩, rfl, he⟩ := map_eq_some_iff.mp hpred
    subst he
    right; right
    refine ⟨e, child, by simp only [DirectoryWalker.stepFound, hleaf, if_true], hmem, hleaves, hflat, hdepth, hwf', ?_⟩
    intro location hres
    exact ⟨fun x hx hcov => hres.1 x (honly x hx hcov) hcov, fun hnone => hres.2 (fun x hx => hnone x (hflat x hx))⟩

end

/-- Every leaf pointer of the tree is answered with the directory it points to, from every state the
backend can be in. -/
def Stores {σ ε : Type} (B : ArchiveBackend σ ε) (I : σ → Prop) (bootstrap : ArchiveBootstrap)
    (T : DirectoryTree) : Prop :=
  ∀ p ∈ T.leaves, ∀ s, I s → ∃ s', I s' ∧
    B.loadLeaf (ArchiveReader.leafRequest bootstrap (leafRange bootstrap p.1)) s = (.ok p.2.directory, s')

variable {σ ε : Type}

theorem ArchiveReader.checkRange_ok (r : ArchiveReader σ ε) {offset : ℕ} {length : UInt32}
    (hmax : length.toNat ≤ r.limits.maxRangeBytes.toNat) (hend : offset + length.toNat < 2 ^ 64) :
    r.checkRange offset length = .ok () := by
  have hadd : checkedAdd offset length.toNat = some (offset + length.toNat) := checkedAdd_eq_some.mpr ⟨hend, rfl⟩
  simp only [checkRange, if_neg (Nat.not_lt.mpr hmax), hadd]

/-- The loop resolves `t` in a subtree whose depth the walker still allows. -/
theorem resolveLoop_resolves (r : ArchiveReader σ ε) (boot : ArchiveBootstrap) (I : σ → Prop)
    (t : TileId) (T : DirectoryTree) (depth : ℕ) (leaves : List ArchiveRange) (s : σ) (fuel : ℕ)
    (hwf : T.WellFormed) (hin : T.InSections boot.header r.limits) (hstores : Stores r.backend I boot T) (hs : I s)
    (hroom : depth + T.depth ≤ r.limits.maxDirectoryDepth.toNat) (hfuel : T.depth < fuel) :
    ∃ location leaves' s', I s' ∧ T.Resolves boot t.value location ∧
      r.resolveLoop boot fuel (walkerAt boot r.limits t depth) T.directory leaves s =
        some (.ok location, leaves', s') := by
  -- Each leaf directory is one level lower in the tree.
  induction hn : T.depth using Nat.strong_induction_on generalizing T depth leaves s fuel with
  | _ n ih =>
    subst hn
    obtain ⟨fuel, rfl⟩ : ∃ f, fuel = f + 1 := ⟨fuel - 1, by omega⟩
    obtain ⟨hstep, hres⟩ | ⟨e, hstep, hres⟩ | ⟨p, child, hstep, hmem, hleaves, hflat, hlt, hwf', hlift⟩ :=
      step_tree boot r.limits t depth hwf hin
    · exact ⟨none, leaves, s, hs, hres, by simp only [ArchiveReader.resolveLoop, hstep]⟩
    · exact ⟨_, leaves, s, hs, hres, by simp only [ArchiveReader.resolveLoop, hstep]⟩
    · obtain ⟨hsect, hmax⟩ := hin.2 (p, child) hmem
      obtain ⟨hlen, hleaf, _⟩ := archiveLen_ok boot.valid
      have hcheck : r.checkRange (leafRange boot p).offset (leafRange boot p).length = .ok () := by
        apply r.checkRange_ok hmax
        dsimp only [leafRange] at hsect ⊢
        omega
      obtain ⟨s1, hs1, hload⟩ := hstores (p, child) hmem s hs
      rw [stepLeaf_eq boot r.limits t depth hsect (by omega)] at hstep
      obtain ⟨location, leaves', s', hs', hres, hrun⟩ := ih child.depth hlt child (depth + 1)
        (leaves ++ [leafRange boot p]) s1 fuel hwf'
        ⟨fun x hx => hin.1 x (hflat x hx), fun q hq => hin.2 q (hleaves q hq)⟩
        (fun q hq => hstores q (hleaves q hq)) hs1 (by omega) (by omega) rfl
      refine ⟨location, leaves', s', hs', hlift location hres, ?_⟩
      simp only [ArchiveReader.resolveLoop, hstep, hcheck, hload]
      exact hrun

theorem validateLimits_ok {limits : ReaderLimits} (h : validateLimits limits = .ok ()) :
    limits.maxDirectoryDepth ≠ 0 := by
  unfold validateLimits at h
  split_ifs at h with h1 h2
  exact h2

/-- In a well-formed tree no deeper than the limit, a lookup of any valid tile id returns the tile the
flattened tree maps it to, or none if there is no such tile, and it never fails. -/
theorem resolve_tile_location_eq_flattened (r : ArchiveReader σ ε) (I : σ → Prop) (bootstrap : ArchiveBootstrap)
    (T : DirectoryTree) (hroot : bootstrap.root = T.directory) (hwf : T.WellFormed)
    (hdepth : T.depth ≤ r.limits.maxDirectoryDepth.toNat) (hin : T.InSections bootstrap.header r.limits)
    (hboot : ∀ s, I s → ∃ s', I s' ∧ r.backend.loadBootstrap s = (.ok bootstrap, s'))
    (hstores : Stores r.backend I bootstrap T) (s : σ) (hs : I s) (tileId : UInt64)
    (ht : tileId.toNat ≤ maxTileId) (fuel : ℕ) (hfuel : r.limits.maxDirectoryDepth.toNat < fuel) :
    ∃ location leaves s', I s' ∧ r.resolveTileLocation fuel tileId s =
        some (.ok (location, bootstrap.header, bootstrap.archiveLen), leaves, s') ∧
      (∀ e ∈ T.flatten, e.Covers tileId.toNat → location = some
        ⟨bootstrap.header.dataOffset.toNat + e.offset.toNat, e.length, bootstrap.archiveLen⟩) ∧
      ((∀ e ∈ T.flatten, ¬ e.Covers tileId.toNat) → location = none) := by
  obtain ⟨s1, hs1, hload⟩ := hboot s hs
  obtain ⟨location, leaves, s', hs', hres, hrun⟩ := resolveLoop_resolves r bootstrap I ⟨tileId.toNat, ht⟩ T 0 [] s1
    fuel hwf hin hstores hs1 (by omega) (by omega)
  refine ⟨location, leaves, s', hs', ?_, hres⟩
  have hnew := walker_new bootstrap r.limits ⟨tileId.toNat, ht⟩ (validateLimits_ok r.valid)
  simp only [ArchiveReader.resolveTileLocation, TileId.new, dif_pos ht, hload, hnew, hroot, hrun]
  rfl

/-! ## A small archive -/

def smallHeader : Header where
  version := 3
  rootOffset := 127
  rootLength := 20
  metadataOffset := 200
  metadataLength := 0
  leafOffset := 1000
  leafLength := 100
  dataOffset := 2000
  dataLength := 1000
  nAddressedTiles := 4
  nTileEntries := 2
  nTileContents := 2
  clustered := true
  internalCompression := .none
  tileCompression := .gzip
  tileType := .mvt
  minZoom := 0
  maxZoom := 3
  centerZoom := 0

/-- Tiles 5, 6 and 7 in a leaf directory, tile 20 in the root. -/
def smallTree : DirectoryTree :=
  .leaf ⟨4, 10, 30, 0⟩ (.tile ⟨5, 0, 300, 3⟩ .nil) (.tile ⟨20, 300, 50, 1⟩ .nil)

def smallBootstrap : ArchiveBootstrap := ⟨smallHeader, smallTree.directory, 3000, by decide⟩

def smallReader : ArchiveReader Unit String where
  backend :=
    { loadBootstrap := fun s => (.ok smallBootstrap, s)
      loadLeaf := fun request s =>
        if request.offset = 1010 ∧ request.length = 30 then (.ok ⟨[⟨5, 0, 300, 3⟩]⟩, s) else (.error "missing", s)
      readRange := fun _ s => (.ok [], s)
      invalidTileId := fun _ => "invalid tile id"
      invalidArchive := fun _ => "invalid archive" }
  limits := ⟨16384, 1000000, 4, 1000000, 1000000⟩
  valid := by decide

theorem smallReader_resolves :
    ∃ leaves, smallReader.resolveTileLocation 5 6 () =
      some (.ok (some ⟨2000, 300, 3000⟩, smallHeader, 3000), leaves, ()) := by
  have hstores : Stores smallReader.backend (fun _ => True) smallBootstrap smallTree := by
    intro p hp s _
    have hp' : p = (⟨4, 10, 30, 0⟩, .tile ⟨5, 0, 300, 3⟩ .nil) := by simpa [smallTree, DirectoryTree.leaves] using hp
    subst hp'
    exact ⟨s, trivial, rfl⟩
  obtain ⟨location, leaves, s', _, hrun, hcov, _⟩ := resolve_tile_location_eq_flattened smallReader (fun _ => True)
    smallBootstrap smallTree rfl (by decide) (by decide) (by decide) (fun s _ => ⟨s, trivial, rfl⟩) hstores ()
    trivial 6 (by decide) 5 (by decide)
  rw [hcov ⟨5, 0, 300, 3⟩ (by decide) (by decide)] at hrun
  exact ⟨leaves, hrun⟩

end Mappf.Pmtiles
