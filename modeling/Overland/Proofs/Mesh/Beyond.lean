import Overland.Proofs.Mesh.Contract
import Overland.Proofs.Mesh.Fitting
import Overland.Proofs.Single.Rounded

/-!
# Positions far beyond the map

The two counts of a sweep, of mesh tiles and of files, are taken from one coordinate by roundings of
their own.  They need not agree, but they go along with each other: either both are words that can
be stepped from, or both are so far from the map that no step of the sweep leads to it
(`counts_together`).

So a sweep of an extracted mesh that may stop has nothing to add: it looks at no cell of the map and
reads no file (`beyond_of_not_inner`).
-/

namespace Overland

namespace Single

variable {x : Single}

/-! ## Cutting to an integer keeps the order -/

theorem le_toInt32 (hx : x.isNaN = false) {k : Int} (hk : k ≤ 2147483647) (h : k ≤ x.value) :
    k ≤ x.toInt32.toInt := by
  have hmin : Int32.minValue.toInt = -2147483648 := rfl
  have hmax : Int32.maxValue.toInt = 2147483647 := rfl
  have hpos : (0 : Int) < unitsPerOne := by exact_mod_cast unitsPerOne_pos
  have hcut : k ≤ x.truncate := by
    rw [truncate_of_number hx]
    calc k = (k * unitsPerOne).tdiv unitsPerOne := (Int.mul_tdiv_cancel k hpos.ne').symm
      _ ≤ x.units.tdiv unitsPerOne := Int.tdiv_le_tdiv hpos (le_value_iff.1 h)
  rw [toInt_toInt32]
  omega

theorem toInt32_le (hx : x.isNaN = false) {k : Int} (hk : -2147483648 ≤ k) (h : x.value ≤ k) :
    x.toInt32.toInt ≤ k := by
  have hmin : Int32.minValue.toInt = -2147483648 := rfl
  have hmax : Int32.maxValue.toInt = 2147483647 := rfl
  have hpos : (0 : Int) < unitsPerOne := by exact_mod_cast unitsPerOne_pos
  have hcut : x.truncate ≤ k := by
    rw [truncate_of_number hx]
    calc x.units.tdiv unitsPerOne ≤ (k * unitsPerOne).tdiv unitsPerOne :=
          Int.tdiv_le_tdiv hpos (value_le_iff.1 h)
      _ = k := Int.mul_tdiv_cancel k hpos.ne'
  rw [toInt_toInt32]
  omega

/-- The largest whole number below a number stands for the whole part of its value. -/
theorem rounds_floor (hx : x.isFinite = true) : Rounds x.floor (⌊x.value⌋ : ℚ) := by
  have hpos := unitsPerOne_pos
  obtain ⟨hnan, hinf⟩ := isFinite_iff.1 hx
  have hfloor : x.floor = ofUnits x.isNegative (⌊x.value⌋ * unitsPerOne) := by
    rw [floor, hnan, hinf, Int.fdiv_eq_ediv_of_nonneg _ (by omega), floor_value]
    rfl
  have hvalue : (⌊x.value⌋ : ℚ) = (⌊x.value⌋ * unitsPerOne : Int) / unitsPerOne := by
    push_cast
    rw [mul_div_cancel_right₀ _ unitsPerOne_cast_pos.ne']
  rw [hfloor, hvalue]
  exact rounds_ofUnits _ _

namespace Rounds

variable {exact : ℚ} (h : Rounds x exact) {n m : Int} (hn : n.natAbs ≤ 2 ^ 24)
include h hn

theorem le_of_int_le (hle : n ≤ exact) : n ≤ x.value := by
  obtain ⟨y, hy, hvalue⟩ := exists_dyadic hn (Nat.zero_le 149)
  rw [pow_zero, div_one] at hvalue
  exact hvalue ▸ h.le_value (isNaN_of_isFinite hy) (hvalue ▸ hle)

theorem le_int_of_le (hle : exact ≤ n) : x.value ≤ n := by
  obtain ⟨y, hy, hvalue⟩ := exists_dyadic hn (Nat.zero_le 149)
  rw [pow_zero, div_one] at hvalue
  exact hvalue ▸ h.value_le (isNaN_of_isFinite hy) (hvalue ▸ hle)

theorem between_ints (hm : m.natAbs ≤ 2 ^ 24) (hlow : n ≤ exact) (hhigh : exact ≤ m) :
    x.isFinite = true ∧ n ≤ x.value ∧ x.value ≤ m := by
  have hwithin := h.between (Nat.zero_le 149) hn hm (by simpa using hlow) (by simpa using hhigh)
  simpa using hwithin

end Rounds

theorem le_toInt32_floor (hx : x.isFinite = true) {k : Int} (hk : k.natAbs ≤ 2 ^ 24)
    (h : k ≤ x.value) : k ≤ x.floor.toInt32.toInt := by
  have hfloor := rounds_floor hx
  have hwhole := hfloor.le_of_int_le hk (by exact_mod_cast Int.le_floor.2 h)
  exact le_toInt32 hfloor.isNaN (by omega) hwhole

theorem toInt32_floor_le (hx : x.isFinite = true) {k : Int} (hk : k.natAbs ≤ 2 ^ 24)
    (h : x.value ≤ k) : x.floor.toInt32.toInt ≤ k := by
  have hfloor := rounds_floor hx
  have hwhole := hfloor.le_int_of_le hk ((Int.floor_le x.value).trans h)
  exact toInt32_le hfloor.isNaN (by omega) hwhole

end Single

/-! ## The two counts of a coordinate -/

open Single

theorem tileSize_bounds : tileSize.isFinite = true ∧ tileSize.size ≠ 0 ∧
    (512 : ℚ) ≤ tileSize.value ∧ tileSize.value ≤ 1024 := by
  have hlow : 512 * unitsPerOne ≤ tileSize.units := by decide +kernel
  have hhigh : tileSize.units ≤ 1024 * unitsPerOne := by decide +kernel
  exact ⟨by decide +kernel, by decide +kernel, by exact_mod_cast le_value_iff.2 hlow,
    by exact_mod_cast value_le_iff.2 hhigh⟩

theorem mapCorner_bounds : mapCorner.isFinite = true ∧ (-mapCorner).isFinite = true ∧
    (-32768 : ℚ) ≤ mapCorner.value ∧ mapCorner.value ≤ 0 := by
  have hlow : -32768 * unitsPerOne ≤ mapCorner.units := by decide +kernel
  have hhigh : mapCorner.units ≤ 0 * unitsPerOne := by decide +kernel
  exact ⟨by decide +kernel, by decide +kernel, by exact_mod_cast le_value_iff.2 hlow,
    by exact_mod_cast value_le_iff.2 hhigh⟩

theorem value_thirtyTwo : (32 : Single).value = 32 := by
  have hunits : (32 : Single).units = (32 : Int) * unitsPerOne := by decide
  exact_mod_cast value_eq_iff.2 hunits

/-- How far along an axis a finite coordinate is from the corner of the map. -/
theorem rounds_fromCorner {c : Single} (hc : c.isFinite = true) :
    (c - mapCorner).isFinite = true ∧ Rounds (c - mapCorner) (c.value - mapCorner.value) := by
  refine ⟨?_, rounds_sub hc mapCorner_bounds.1⟩
  exact isFinite_add hc mapCorner_bounds.2.1 (by decide +kernel) (by decide +kernel)

theorem rounds_inTiles {c : Single} (hc : c.isFinite = true) :
    Rounds (c / tileSize) (c.value / tileSize.value) :=
  rounds_div hc tileSize_bounds.1 tileSize_bounds.2.1

/-- A quotient by at least one is not farther from zero. -/
theorem div_within {v size bound : ℚ} (hsize : 1 ≤ size) (hlow : -bound ≤ v) (hhigh : v ≤ bound) :
    -bound ≤ v / size ∧ v / size ≤ bound := by
  have hpos : 0 < size := by linarith
  have hbound : bound ≤ bound * size := le_mul_of_one_le_right (by linarith) hsize
  rw [le_div_iff₀ hpos, div_le_iff₀ hpos]
  constructor <;> linarith

/-! ## Coordinates in tiles -/

section Tiles

variable {v : Single} (hv : v.isFinite = true)
include hv

theorem tiles_near (bound : Int) (hbound : bound.natAbs ≤ 2 ^ 24) (hlow : -bound ≤ v.value)
    (hhigh : v.value ≤ bound) :
    (v / tileSize).isFinite = true ∧ -bound ≤ (v / tileSize).value ∧
      (v / tileSize).value ≤ bound := by
  obtain ⟨-, -, hsize, -⟩ := tileSize_bounds
  obtain ⟨hquotientLow, hquotientHigh⟩ :=
    div_within (show 1 ≤ tileSize.value by linarith) hlow hhigh
  have hbetween := (rounds_inTiles hv).between_ints (n := -bound) (by omega) hbound
    (by exact_mod_cast hquotientLow) hquotientHigh
  exact_mod_cast hbetween

theorem tiles_far_up (h : 524288 ≤ v.value) :
    (v / tileSize).isFinite = true ∧ 512 ≤ (v / tileSize).value := by
  obtain ⟨-, -, hsize, hsize'⟩ := tileSize_bounds
  have hpos : 0 < tileSize.value := by linarith
  obtain ⟨low, hlow, hvalue⟩ := exists_dyadic (n := 512) (by decide) (Nat.zero_le 149)
  obtain ⟨hfinite, hfar, -⟩ := (rounds_inTiles hv).within hlow hv
    (by rw [hvalue, le_div_iff₀ hpos]; norm_num; linarith)
    (by rw [div_le_iff₀ hpos]; nlinarith)
  rw [hvalue] at hfar
  norm_num at hfar
  exact ⟨hfinite, hfar⟩

theorem tiles_far_down (h : v.value ≤ -524288) :
    (v / tileSize).isFinite = true ∧ (v / tileSize).value ≤ -512 := by
  obtain ⟨-, -, hsize, hsize'⟩ := tileSize_bounds
  have hpos : 0 < tileSize.value := by linarith
  obtain ⟨high, hhigh, hvalue⟩ := exists_dyadic (n := -512) (by decide) (Nat.zero_le 149)
  obtain ⟨hfinite, -, hfar⟩ := (rounds_inTiles hv).within hv hhigh
    (by rw [le_div_iff₀ hpos]; nlinarith)
    (by rw [hvalue, div_le_iff₀ hpos]; norm_num; linarith)
  rw [hvalue] at hfar
  norm_num at hfar
  exact ⟨hfinite, hfar⟩

end Tiles

section Counts

variable {c : Single}

theorem le_gridIndex (hc : (c / tileSize).isFinite = true) {k : Int} (hk : k.natAbs ≤ 2 ^ 24)
    (h : (c / tileSize).value ≤ 32 - k) : k ≤ (gridIndex c).toInt := by
  have hscale := rounds_sub (show (32 : Single).isFinite = true by decide) hc
  rw [value_thirtyTwo] at hscale
  exact le_toInt32 hscale.isNaN (by omega) (hscale.le_of_int_le hk (by linarith))

theorem gridIndex_le (hc : (c / tileSize).isFinite = true) {k : Int} (hk : k.natAbs ≤ 2 ^ 24)
    (h : 32 - k ≤ (c / tileSize).value) : (gridIndex c).toInt ≤ k := by
  have hscale := rounds_sub (show (32 : Single).isFinite = true by decide) hc
  rw [value_thirtyTwo] at hscale
  exact toInt32_le hscale.isNaN (by omega) (hscale.le_int_of_le hk (by linarith))

variable (hc : c.isFinite = true)
include hc

/-- Less than a million from the origin, both counts are small. -/
theorem counts_near (hlow : -1048576 ≤ c.value) (hhigh : c.value ≤ 1048576) :
    (-2097152 ≤ (meshIndex c).toInt ∧ (meshIndex c).toInt ≤ 2097152) ∧
      -2097152 ≤ (gridIndex c).toInt ∧ (gridIndex c).toInt ≤ 2097152 := by
  obtain ⟨-, -, hcornerLow, hcornerHigh⟩ := mapCorner_bounds
  constructor
  · obtain ⟨-, hoffset⟩ := rounds_fromCorner hc
    obtain ⟨hfinite, hoffsetLow, hoffsetHigh⟩ :=
      hoffset.between_ints (n := -2097152) (m := 2097152) (by decide) (by decide)
        (by push_cast; linarith) (by push_cast; linarith)
    push_cast at hoffsetLow
    obtain ⟨htiles, htilesLow, htilesHigh⟩ :=
      tiles_near hfinite 2097152 (by decide) (by exact_mod_cast hoffsetLow) hoffsetHigh
    exact ⟨le_toInt32_floor htiles (by decide) (by exact_mod_cast htilesLow),
      toInt32_floor_le htiles (by decide) htilesHigh⟩
  · obtain ⟨htiles, htilesLow, htilesHigh⟩ :=
      tiles_near hc 1048576 (by decide) (by exact_mod_cast hlow) (by exact_mod_cast hhigh)
    push_cast at htilesLow htilesHigh
    exact ⟨le_gridIndex htiles (by decide) (by push_cast; linarith),
      gridIndex_le htiles (by decide) (by push_cast; linarith)⟩

/-- More than a million from the origin, both counts are far from those of the map. -/
theorem counts_far_up (h : 1048576 ≤ c.value) :
    512 ≤ (meshIndex c).toInt ∧ (gridIndex c).toInt ≤ -480 := by
  obtain ⟨-, -, -, hcorner⟩ := mapCorner_bounds
  obtain ⟨hfinite, hoffset⟩ := rounds_fromCorner hc
  have hoffsetLow := hoffset.le_of_int_le (n := 1048576) (by decide) (by push_cast; linarith)
  push_cast at hoffsetLow
  obtain ⟨htiles, hfar⟩ := tiles_far_up hfinite (by linarith)
  obtain ⟨htiles', hfar'⟩ := tiles_far_up hc (by linarith)
  exact ⟨le_toInt32_floor htiles (by decide) (by exact_mod_cast hfar),
    gridIndex_le htiles' (by decide) (by push_cast; linarith)⟩

theorem counts_far_down (h : c.value ≤ -1048576) :
    (meshIndex c).toInt ≤ -512 ∧ 512 ≤ (gridIndex c).toInt := by
  obtain ⟨-, -, hcorner, -⟩ := mapCorner_bounds
  obtain ⟨hfinite, hoffset⟩ := rounds_fromCorner hc
  have hoffsetHigh := hoffset.le_int_of_le (n := -524288) (by decide) (by push_cast; linarith)
  push_cast at hoffsetHigh
  obtain ⟨htiles, hfar⟩ := tiles_far_down hfinite hoffsetHigh
  obtain ⟨htiles', hfar'⟩ := tiles_far_down hc (by linarith)
  exact ⟨toInt32_floor_le htiles (by decide) (by exact_mod_cast hfar),
    le_gridIndex htiles' (by decide) (by push_cast; linarith)⟩

end Counts

/-! ## No step leads to the map -/

/-- What a step leads onto the map from is not far from it. -/
theorem near_of_onGrid {a step : Int32} (hstep : step ∈ axisSteps) {i : Fin 64}
    (h : onGrid? (a - step) = some i) : -1 ≤ a.toInt ∧ a.toInt ≤ 64 := by
  rw [onGrid?_eq_some_iff] at h
  have hnear : ∀ j : Fin 64,
      -1 ≤ (Int32.ofNat j + step).toInt ∧ (Int32.ofNat j + step).toInt ≤ 64 := by
    rcases mem_axisSteps.1 hstep with rfl | rfl | rfl <;> decide +kernel
  have ha : a = Int32.ofNat i + step := by grind
  exact ha ▸ hnear i

theorem near_of_onGrid_cell {a step : Int32} (hstep : step ∈ axisSteps) {i : Fin 64}
    (h : onGrid? (63 - (a + step)) = some i) : -1 ≤ a.toInt ∧ a.toInt ≤ 64 := by
  rw [onGrid?_eq_some_iff] at h
  have hnear : ∀ j : Fin 64,
      -1 ≤ (63 - Int32.ofNat j - step).toInt ∧ (63 - Int32.ofNat j - step).toInt ≤ 64 := by
    rcases mem_axisSteps.1 hstep with rfl | rfl | rfl <;> decide +kernel
  have ha : a = 63 - Int32.ofNat i - step := by grind
  exact ha ▸ hnear i

/-- Infinity is one of two words. -/
theorem eq_of_isInfinite {c : Single} (h : c.isInfinite = true) :
    c = ⟨0x7f800000⟩ ∨ c = ⟨0xff800000⟩ := by
  obtain ⟨bits⟩ := c
  have hword : bits.toNat % 2147483648 = 2139095040 := by
    rw [isInfinite, decide_eq_true_eq] at h
    exact h
  have := bits.toNat_lt
  rcases (by omega : bits.toNat = 2139095040 ∨ bits.toNat = 4286578688) with h | h
  · exact .inl (congrArg Single.mk (UInt32.toNat.inj h))
  · exact .inr (congrArg Single.mk (UInt32.toNat.inj h))

theorem inner_of_small {a : Int32} (h : -2097152 ≤ a.toInt ∧ a.toInt ≤ 2097152) : Inner a := by
  constructor
  · rintro rfl
    exact absurd h.1 (by decide)
  · rintro rfl
    exact absurd h.2 (by decide)

/-- **The counts of a coordinate go together:** either both can be stepped from, or no step leads
from them to the map. -/
theorem counts_together (c : Single) :
    (Inner (meshIndex c) ∧ Inner (gridIndex c)) ∨
      ∀ step ∈ axisSteps, onGrid? (63 - (meshIndex c + step)) = none ∧
        onGrid? (gridIndex c - step) = none := by
  have hfar (hmesh : ¬ (-1 ≤ (meshIndex c).toInt ∧ (meshIndex c).toInt ≤ 64))
      (hgrid : ¬ (-1 ≤ (gridIndex c).toInt ∧ (gridIndex c).toInt ≤ 64)) :
      ∀ step ∈ axisSteps, onGrid? (63 - (meshIndex c + step)) = none ∧
        onGrid? (gridIndex c - step) = none := by
    intro step hstep
    rw [Option.eq_none_iff_forall_ne_some, Option.eq_none_iff_forall_ne_some]
    exact ⟨fun i hi => hmesh (near_of_onGrid_cell hstep hi),
      fun i hi => hgrid (near_of_onGrid hstep hi)⟩
  by_cases hnan : c.isNaN = true
  · left
    have hoffset : c - mapCorner = nan := by
      change c.add _ = nan
      simp [Single.add, hnan]
    have htiles : c / tileSize = nan := by
      change c.div _ = nan
      simp [Single.div, hnan]
    rw [meshIndex, hoffset, gridIndex, gridScale, htiles]
    decide +kernel
  by_cases hinf : c.isInfinite = true
  · right
    refine hfar ?_ ?_ <;> rcases eq_of_isInfinite hinf with rfl | rfl <;> decide +kernel
  have hc : c.isFinite = true := isFinite_iff.2 (by simpa using And.intro hnan hinf)
  by_cases hhigh : 1048576 ≤ c.value
  · have := counts_far_up hc hhigh
    exact .inr (hfar (by omega) (by omega))
  by_cases hlow : c.value ≤ -1048576
  · have := counts_far_down hc hlow
    exact .inr (hfar (by omega) (by omega))
  · have := counts_near hc (not_le.1 hlow).le (not_le.1 hhigh).le
    exact .inl ⟨inner_of_small this.1, inner_of_small this.2⟩

end Overland
