import Mappf.Pmtiles.Format
import Mathlib.Data.Finset.Prod
import Mathlib.Order.Interval.Set.Basic

/-! # Tile coordinates and tile ids

`format.rs`: the ids of a zoom follow those of all smaller zooms. The Hilbert curve inside a zoom is a library. -/
namespace Mappf.Pmtiles

def maxZoom : ℕ := 31

structure TileCoord where
  z : ℕ
  x : ℕ
  y : ℕ
  valid : z ≤ maxZoom ∧ x < 2 ^ z ∧ y < 2 ^ z

def TileCoord.new (z : UInt8) (x y : UInt32) : Fallible TileCoord :=
  if z.toNat < 64 then
    if valid : z.toNat ≤ maxZoom ∧ x.toNat < 2 ^ z.toNat ∧ y.toNat < 2 ^ z.toNat then
      .ok ⟨z.toNat, x.toNat, y.toNat, valid⟩
    else bail s!"invalid tile coordinate z={z} x={x} y={y}"
  else bail "invalid zoom level"

/-- `checked_shl` fails from 64 bits on. -/
def pyramidSizeBeforeZoom (z : ℕ) : ℕ := if z * 2 < 64 then (2 ^ (z * 2) - 1) / 3 else (2 ^ 64 - 1) / 3

variable (xy2h : ℕ → ℕ → ℕ → ℕ)

/-- The value that `TileId::from` wraps, without a check. -/
def TileCoord.tileId (coord : TileCoord) : ℕ :=
  if coord.z = 0 then 0 else wrappingAdd (pyramidSizeBeforeZoom coord.z) (xy2h coord.x coord.y coord.z)

/-- What the library promises of `xy2h`. -/
def Hilbert : Prop :=
  ∀ z, 1 ≤ z → z ≤ maxZoom →
    Set.BijOn (fun p : ℕ × ℕ => xy2h p.1 p.2 z) (Set.Iio (2 ^ z) ×ˢ Set.Iio (2 ^ z)) (Set.Iio (4 ^ z))

/-! ## Blocks of ids -/

def blockStart (z : ℕ) : ℕ := (4 ^ z - 1) / 3

theorem blockStart_succ (z : ℕ) : blockStart (z + 1) = blockStart z + 4 ^ z := by
  have hpos : 0 < 4 ^ z := by positivity
  have hsplit : 4 ^ (z + 1) - 1 = 4 ^ z - 1 + 3 * 4 ^ z := by
    rw [pow_succ]
    omega
  rw [blockStart, hsplit, Nat.add_mul_div_left _ _ (by decide), blockStart]

theorem blockStart_mono : Monotone blockStart :=
  monotone_nat_of_le_succ fun z => by rw [blockStart_succ]; exact Nat.le_add_right _ _

theorem pyramidSizeBeforeZoom_eq {z : ℕ} (h : z ≤ maxZoom) : pyramidSizeBeforeZoom z = blockStart z := by
  rw [pyramidSizeBeforeZoom, if_pos (by rw [maxZoom] at h; omega), blockStart, Nat.mul_comm, pow_mul]
  rfl

theorem blockStart_last : blockStart (maxZoom + 1) = maxTileId + 1 := by decide +kernel

theorem exists_block {v : ℕ} (n : ℕ) (h : v < blockStart n) : ∃ z < n, blockStart z ≤ v ∧ v < blockStart (z + 1) := by
  induction n with
  | zero => cases h
  | succ n ih =>
    by_cases hlt : v < blockStart n
    · obtain ⟨z, hz, hblock⟩ := ih hlt
      exact ⟨z, by omega, hblock⟩
    · exact ⟨n, n.lt_succ_self, by omega, h⟩

/-- The place of a tile among those of its zoom. -/
def TileCoord.place (coord : TileCoord) : ℕ := if coord.z = 0 then 0 else xy2h coord.x coord.y coord.z

variable {xy2h} (h : Hilbert xy2h)
include h

variable (coord : TileCoord)

theorem place_lt : coord.place xy2h < 4 ^ coord.z := by
  obtain ⟨z, x, y, hz, hx, hy⟩ := coord
  unfold TileCoord.place
  split_ifs with hzero
  · positivity
  · exact (h z (Nat.pos_of_ne_zero hzero) hz).mapsTo (Set.mk_mem_prod hx hy)

theorem place_injective : ∀ {coord coord' : TileCoord}, coord.z = coord'.z →
    coord.place xy2h = coord'.place xy2h → coord = coord' := by
  rintro ⟨z, x, y, hz, hx, hy⟩ ⟨z', x', y', _, hx', hy'⟩ rfl hplace
  dsimp only [TileCoord.place] at hplace
  split_ifs at hplace with hzero
  · subst hzero
    dsimp only at hx' hy'
    obtain ⟨rfl, rfl⟩ : x = x' ∧ y = y' := by omega
    rfl
  · obtain ⟨rfl, rfl⟩ := Prod.mk.inj ((h z (Nat.pos_of_ne_zero hzero) hz).injOn (Set.mk_mem_prod hx hy)
      (Set.mk_mem_prod hx' hy') hplace)
    rfl

theorem place_surjective {z i : ℕ} (hz : z ≤ maxZoom) (hi : i < 4 ^ z) :
    ∃ coord : TileCoord, coord.z = z ∧ coord.place xy2h = i := by
  by_cases hzero : z = 0
  · subst hzero
    exact ⟨⟨0, 0, 0, by decide⟩, rfl, by simp_all [TileCoord.place]⟩
  · obtain ⟨⟨x, y⟩, hmem, heq⟩ := (h z (Nat.pos_of_ne_zero hzero) hz).surjOn hi
    exact ⟨⟨z, x, y, hz, hmem.1, hmem.2⟩, rfl, by simpa [TileCoord.place, hzero] using heq⟩

theorem tileId_lt : blockStart coord.z + coord.place xy2h < blockStart (coord.z + 1) ∧
    blockStart (coord.z + 1) ≤ maxTileId + 1 := by
  have hlast := blockStart_mono (Nat.succ_le_succ coord.valid.1)
  rw [blockStart_succ, Nat.add_lt_add_iff_left, ← blockStart_succ, ← blockStart_last]
  exact ⟨place_lt h coord, hlast⟩

theorem tileId_eq : coord.tileId xy2h = blockStart coord.z + coord.place xy2h := by
  have hlt := tileId_lt h coord
  unfold TileCoord.tileId TileCoord.place at *
  split_ifs with hzero
  · rw [hzero]
    rfl
  · rw [if_neg hzero, maxTileId] at hlt
    rw [pyramidSizeBeforeZoom_eq coord.valid.1, wrappingAdd_eq (by omega)]

theorem tileId_lt_of_zoom {coord coord' : TileCoord} (hz : coord.z < coord'.z) :
    coord.tileId xy2h < coord'.tileId xy2h := by
  have hblock : blockStart (coord.z + 1) ≤ blockStart coord'.z := blockStart_mono hz
  have hlt := (tileId_lt h coord).1
  rw [tileId_eq h, tileId_eq h]
  omega

omit h

theorem TileCoord.new_surjective : ∃ z x y, TileCoord.new z x y = .ok coord := by
  obtain ⟨z, x, y, hz, hx, hy⟩ := coord
  have hsmall : z < 64 := by rw [maxZoom] at hz; omega
  have hextent : 2 ^ z < 2 ^ 32 := Nat.pow_lt_pow_right (by decide) (by rw [maxZoom] at hz; omega)
  refine ⟨.ofNat z, .ofNat x, .ofNat y, ?_⟩
  simp only [new, UInt8.toNat_ofNat_of_lt' (show z < 256 by omega), UInt32.toNat_ofNat_of_lt' (hx.trans hextent),
    UInt32.toNat_ofNat_of_lt' (hy.trans hextent)]
  rw [if_pos hsmall, dif_pos ⟨hz, hx, hy⟩]

theorem tile_ids_bijective (xy2h : ℕ → ℕ → ℕ → ℕ) (h : Hilbert xy2h) :
    Function.Injective (TileCoord.tileId xy2h) ∧
    (∀ value : UInt64, (∃ id, TileId.new value = .ok id) ↔
      ∃ z x y coord, TileCoord.new z x y = .ok coord ∧ coord.tileId xy2h = value.toNat) ∧
    (∀ coord : TileCoord, 2 ^ (coord.z * 2) < 2 ^ 64 ∧
      (coord.z ≠ 0 → pyramidSizeBeforeZoom coord.z + xy2h coord.x coord.y coord.z < 2 ^ 64)) ∧
    ∀ coord coord' : TileCoord, coord'.z = coord.z + 1 → coord.tileId xy2h < coord'.tileId xy2h := by
  refine ⟨?_, ?_, ?_, fun coord coord' hz => tileId_lt_of_zoom h (by omega)⟩
  · intro coord coord' heq
    rcases lt_trichotomy coord.z coord'.z with hz | hz | hz
    · exact absurd heq (tileId_lt_of_zoom h hz).ne
    · rw [tileId_eq h, tileId_eq h, hz] at heq
      exact place_injective h hz (by omega)
    · exact absurd heq (tileId_lt_of_zoom h hz).ne'
  · intro value
    constructor
    · rintro ⟨id, hid⟩
      have hmax : value.toNat ≤ maxTileId := by
        by_contra hbig
        simp [TileId.new, hbig, bail] at hid
      obtain ⟨z, hz, hle, hlt⟩ := exists_block (v := value.toNat) (maxZoom + 1) (by rw [blockStart_last]; omega)
      rw [blockStart_succ] at hlt
      obtain ⟨coord, rfl, hplace⟩ := place_surjective h (Nat.le_of_lt_succ hz)
        (by omega : value.toNat - blockStart z < 4 ^ z)
      obtain ⟨z, x, y, hnew⟩ := coord.new_surjective
      exact ⟨z, x, y, coord, hnew, by rw [tileId_eq h, hplace]; omega⟩
    · rintro ⟨z, x, y, coord, -, hid⟩
      have hlt := tileId_lt h coord
      rw [← tileId_eq h, hid] at hlt
      exact ⟨_, dif_pos (by omega)⟩
  · intro coord
    have hlt := tileId_lt h coord
    refine ⟨Nat.pow_lt_pow_right (by decide) (by have := coord.valid.1; rw [maxZoom] at this; omega), fun hzero => ?_⟩
    rw [TileCoord.place, if_neg hzero, maxTileId] at hlt
    rw [pyramidSizeBeforeZoom_eq coord.valid.1]
    omega

/-! ## The curve -/

/-- Which quarter of a square of side `2 * side` a point is in, along the curve, and where in the turned quarter. -/
def quarter (side x y : ℕ) : ℕ × ℕ × ℕ :=
  if y < side then
    if x < side then (0, y, x) else (3, side - 1 - y, 2 * side - 1 - x)
  else if x < side then (1, x, y - side) else (2, x - side, y - side)

def hilbert (x y : ℕ) : ℕ → ℕ
  | 0 => 0
  | z + 1 => (quarter (2 ^ z) x y).1 * 4 ^ z + hilbert (quarter (2 ^ z) x y).2.1 (quarter (2 ^ z) x y).2.2 z

variable {side x y : ℕ}

theorem quarter_lt (hx : x < 2 * side) (hy : y < 2 * side) : (quarter side x y).1 ≤ 3 ∧
    (quarter side x y).2.1 < side ∧ (quarter side x y).2.2 < side := by
  unfold quarter
  split_ifs <;> dsimp only <;> omega

theorem quarter_injective {x' y' : ℕ} (hx : x < 2 * side) (hx' : x' < 2 * side)
    (h : quarter side x y = quarter side x' y') : x = x' ∧ y = y' := by
  unfold quarter at h
  split_ifs at h <;> simp only [Prod.mk.injEq] at h <;> omega

theorem hilbert_lt (z : ℕ) : ∀ x y, x < 2 ^ z → y < 2 ^ z → hilbert x y z < 4 ^ z := by
  induction z with
  | zero => exact fun x y _ _ => Nat.one_pos
  | succ z ih =>
    intro x y hx hy
    obtain ⟨hquarter, hx', hy'⟩ := quarter_lt (pow_succ' 2 z ▸ hx) (pow_succ' 2 z ▸ hy)
    have hinner := ih _ _ hx' hy'
    have hblock := Nat.mul_le_mul_right (4 ^ z) hquarter
    rw [hilbert, pow_succ]
    omega

theorem hilbert_injective (z : ℕ) : ∀ x y x' y', x < 2 ^ z → y < 2 ^ z → x' < 2 ^ z → y' < 2 ^ z →
    hilbert x y z = hilbert x' y' z → x = x' ∧ y = y' := by
  induction z with
  | zero => exact fun x y x' y' hx hy hx' hy' _ => by omega
  | succ z ih =>
    intro x y x' y' hx hy hx' hy' heq
    rw [pow_succ'] at hx hy hx' hy'
    obtain ⟨-, hu, hv⟩ := quarter_lt hx hy
    obtain ⟨-, hu', hv'⟩ := quarter_lt hx' hy'
    have hlt := hilbert_lt z _ _ hu hv
    have hlt' := hilbert_lt z _ _ hu' hv'
    rw [hilbert, hilbert, Nat.mul_comm, Nat.mul_comm _ (4 ^ z)] at heq
    have hquarter := congrArg (· / 4 ^ z) heq
    have hinner := congrArg (· % 4 ^ z) heq
    simp only [Nat.mul_add_div (Nat.lt_of_le_of_lt (Nat.zero_le _) hlt), Nat.div_eq_of_lt hlt, Nat.div_eq_of_lt hlt',
      Nat.mul_add_mod, Nat.mod_eq_of_lt hlt, Nat.mod_eq_of_lt hlt', Nat.add_zero] at hquarter hinner
    obtain ⟨hfirst, hsecond⟩ := ih _ _ _ _ hu hv hu' hv' hinner
    exact quarter_injective hx hx' (Prod.ext hquarter (Prod.ext hfirst hsecond))

theorem hilbert_ids : Function.Injective (TileCoord.tileId hilbert) ∧
    TileCoord.tileId hilbert ⟨2, 3, 0, by decide⟩ = 20 := by
  refine ⟨(tile_ids_bijective _ fun z _ _ => ?_).1, by decide⟩
  have hmaps : Set.MapsTo (fun p : ℕ × ℕ => hilbert p.1 p.2 z) (Set.Iio (2 ^ z) ×ˢ Set.Iio (2 ^ z)) (Set.Iio (4 ^ z)) :=
    fun p hp => hilbert_lt z _ _ hp.1 hp.2
  have hinj : Set.InjOn (fun p : ℕ × ℕ => hilbert p.1 p.2 z) (Set.Iio (2 ^ z) ×ˢ Set.Iio (2 ^ z)) :=
    fun p hp q hq heq => Prod.ext_iff.mpr (hilbert_injective z _ _ _ _ hp.1 hp.2 hq.1 hq.2 heq)
  refine ⟨hmaps, hinj, ?_⟩
  -- an injection between finite sets of one size
  have hsquare : (Finset.range (4 ^ z)).card ≤ (Finset.range (2 ^ z) ×ˢ Finset.range (2 ^ z)).card := by
    simp [← mul_pow]
  have hsurj := Finset.surjOn_of_injOn_of_card_le (fun p : ℕ × ℕ => hilbert p.1 p.2 z)
    (by simpa [Finset.coe_product] using hmaps) (by simpa [Finset.coe_product] using hinj) hsquare
  simpa [Finset.coe_product] using hsurj

end Mappf.Pmtiles
