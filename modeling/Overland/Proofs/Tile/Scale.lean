import Overland.Proofs.Single.Exact
import Overland.Tile.Liquid

/-!
# Cells of a point on the map

A coordinate lies on the map if its place on the grid scale is a number from 0 to below 64
(`OnMap`).  From there on nothing is rounded: scaling to a finer grid, cutting to a cell and taking
the cell away are all exact, so each of the three grids is a quotient of the same number of units.

`OnMap.gridIndex`, `OnMap.fineCell`, `OnMap.coarseCell` and `OnMap.offset` say so, and
`OnMap.fineCell_div` says that a height cell lies in the area cell of the same coordinate.
-/

namespace Overland

open Single (unitsPerOne)

/-- Along its axis a coordinate lies on the map. -/
def OnMap (coordinate : Single) : Prop :=
  0 ≤ gridScale coordinate ∧ gridScale coordinate < 64

instance (coordinate : Single) : Decidable (OnMap coordinate) :=
  inferInstanceAs (Decidable (_ ∧ _))

/-- A coordinate is on the map if its units are. -/
theorem onMap_iff {coordinate : Single} :
    OnMap coordinate ↔ (gridScale coordinate).isNaN = false ∧
      0 ≤ (gridScale coordinate).units ∧ (gridScale coordinate).units < 64 * unitsPerOne := by
  have hzero : (0 : Single).isNaN = false ∧ (0 : Single).units = 0 := by decide
  have hlimit : (64 : Single).isNaN = false ∧ (64 : Single).units = 64 * unitsPerOne := by decide
  rw [OnMap, Single.lt_iff, hlimit.2]
  constructor
  · rintro ⟨⟨-, hx, hlow⟩, -, -, hhigh⟩
    exact ⟨hx, hzero.2 ▸ hlow, hhigh⟩
  · rintro ⟨hx, hlow, hhigh⟩
    exact ⟨⟨hzero.1, hx, hzero.2 ▸ hlow⟩, hx, hlimit.1, hhigh⟩

namespace OnMap

variable {coordinate : Single} (h : OnMap coordinate)
include h

theorem isFinite : (gridScale coordinate).isFinite = true := by
  obtain ⟨hx, hlow, hhigh⟩ := onMap_iff.1 h
  have hone := Single.unitsPerOne_eq
  have hlarge := Single.lt_magnitude_infinity
  exact Single.isFinite_iff_units.2 ⟨hx, by omega, by omega⟩

/-- A finer measure of a coordinate is the exact multiple. -/
theorem scaled {k : Nat} (hk : k ≤ 7) :
    (Single.ofInt (2 ^ k : Nat) * gridScale coordinate).isFinite = true ∧
      (Single.ofInt (2 ^ k : Nat) * gridScale coordinate).units
        = (2 ^ k : Nat) * (gridScale coordinate).units := by
  obtain ⟨-, hlow, hhigh⟩ := onMap_iff.1 h
  have hone := Single.unitsPerOne_eq
  have hlarge := Single.lt_magnitude_infinity
  have hpow : 2 ^ k ≤ 2 ^ 7 := Nat.pow_le_pow_right (by decide) hk
  refine Single.scale_exact (by omega) h.isFinite ?_
  rw [← Single.natAbs_units]
  calc (gridScale coordinate).units.natAbs * 2 ^ k
      ≤ (gridScale coordinate).units.natAbs * 2 ^ 7 := Nat.mul_le_mul_left _ hpow
    _ < Binary.single.magnitude Binary.single.infinity := by omega

/-- The index of a coordinate on a finer measure. -/
theorem scaledIndex {k : Nat} (hk : k ≤ 7) :
    (Single.ofInt (2 ^ k : Nat) * gridScale coordinate).toInt32.toInt
      = (2 ^ k : Nat) * (gridScale coordinate).units / unitsPerOne := by
  obtain ⟨-, hlow, hhigh⟩ := onMap_iff.1 h
  obtain ⟨hfinite, hunits⟩ := h.scaled hk
  have hpow : 2 ^ k ≤ 2 ^ 7 := Nat.pow_le_pow_right (by decide) hk
  have hnonneg : 0 ≤ ((2 ^ k : Nat) : Int) * (gridScale coordinate).units :=
    Int.mul_nonneg (Int.natCast_nonneg _) hlow
  have hsmall : ((2 ^ k : Nat) : Int) * (gridScale coordinate).units
      ≤ 2 ^ 7 * (gridScale coordinate).units :=
    Int.mul_le_mul_of_nonneg_right (by exact_mod_cast hpow) hlow
  rw [← hunits]
  exact Single.toInt_toInt32_of_nonneg (Single.isNaN_of_isFinite hfinite) (by omega) (by omega)

/-! ## The three grids -/

/-- **The tile of a coordinate.** -/
theorem gridIndex : (gridIndex coordinate).toInt = (gridScale coordinate).units / unitsPerOne := by
  obtain ⟨hx, hlow, hhigh⟩ := onMap_iff.1 h
  exact Single.toInt_toInt32_of_nonneg hx hlow (by omega)

/-- **The height cell of a coordinate.** -/
theorem fineCell : ((finePlace coordinate).cell : Int)
    = 128 * (gridScale coordinate).units / unitsPerOne % 128 := by
  have hindex : (128 * gridScale coordinate).toInt32.toInt
      = 128 * (gridScale coordinate).units / unitsPerOne := h.scaledIndex (k := 7) (by decide)
  have hnonneg := Int.emod_nonneg (128 * (gridScale coordinate).units / unitsPerOne)
    (show (128 : Int) ≠ 0 by decide)
  show (((128 * gridScale coordinate).toInt32.toInt % 128).toNat : Int) = _
  rw [hindex, Int.toNat_of_nonneg hnonneg]

/-- **How far into its height cell a coordinate lies,** exactly. -/
theorem offset : (finePlace coordinate).offset.isFinite = true ∧
    (finePlace coordinate).offset.units = 128 * (gridScale coordinate).units % unitsPerOne := by
  obtain ⟨-, hlow, hhigh⟩ := onMap_iff.1 h
  obtain ⟨hfinite, hunits⟩ : (128 * gridScale coordinate).isFinite = true ∧
      (128 * gridScale coordinate).units = 128 * (gridScale coordinate).units :=
    h.scaled (k := 7) (by decide)
  have hindex : (128 * gridScale coordinate).toInt32.toInt
      = (128 * gridScale coordinate).units / unitsPerOne :=
    hunits ▸ h.scaledIndex (k := 7) (by decide)
  have hexact := Single.sub_floor_exact hfinite (by omega) (by omega)
  rw [← hindex, hunits] at hexact
  exact hexact

/-- **The area cell of a coordinate.** -/
theorem coarseCell : (coarseCell coordinate : Int)
    = 16 * (gridScale coordinate).units / unitsPerOne % 16 := by
  have hindex : (16 * gridScale coordinate).toInt32.toInt
      = 16 * (gridScale coordinate).units / unitsPerOne := h.scaledIndex (k := 4) (by decide)
  have hnonneg := Int.emod_nonneg (16 * (gridScale coordinate).units / unitsPerOne)
    (show (16 : Int) ≠ 0 by decide)
  show (((16 * gridScale coordinate).toInt32.toInt % 16).toNat : Int) = _
  rw [hindex, Int.toNat_of_nonneg hnonneg]

/-- A height cell lies in the area cell of the same coordinate. -/
theorem fineCell_div : (finePlace coordinate).cell / 8 = Overland.coarseCell coordinate := by
  have hfine := h.fineCell
  have hcoarse := h.coarseCell
  have hscale : 16 * (gridScale coordinate).units / unitsPerOne
      = 128 * (gridScale coordinate).units / unitsPerOne / 8 := by
    rw [Int.ediv_ediv_of_nonneg (Int.natCast_nonneg _), Int.mul_comm (unitsPerOne : Int),
      show (128 : Int) = 8 * 16 from rfl, Int.mul_assoc, Int.mul_ediv_mul_of_pos _ _ (by decide)]
  omega

end OnMap

/-- **The area cell that a point's height cell lies in is the point's area cell.** -/
theorem cellAround_eq_areaCell {x y : Single} (hx : OnMap x) (hy : OnMap y) :
    LiquidLayer.cellAround x y = areaCell x y := by
  rw [LiquidLayer.cellAround, areaCell, hx.fineCell_div, hy.fineCell_div]

end Overland
