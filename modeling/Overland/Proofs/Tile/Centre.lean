import Overland.Proofs.Single.Rounded
import Overland.Proofs.Tile.Scale
import Overland.Tile.Area

/-!
# The centre of a cell lies in the cell

The centre of an area cell is a world coordinate, a cell number scaled and turned around in single
precision.  Read as a coordinate it is scaled and turned around again, and both ways are rounded.
The rounding does not add up to more than a quarter of a cell (`value_gridScale_cellCentre`), for
each of the 1024 rows and columns of a map, so the centre lies in its own tile and in its own cell
(`gridIndex_cellCentre`, `coarseCell_cellCentre`).
-/

namespace Overland

open Single (unitsPerOne Rounds)

namespace Single

theorem value_ofInt {n : Int} (h : n.natAbs ≤ 2 ^ 24) :
    (ofInt n).isFinite = true ∧ (ofInt n).value = n :=
  ⟨(ofInt_exact h).1, value_eq_iff.2 (ofInt_exact h).2⟩

theorem value_half : (ofRatio 1 2).isFinite = true ∧ (ofRatio 1 2).value = 1 / 2 := by
  have hunits : (ofRatio 1 2).isFinite = true ∧ (ofRatio 1 2).units * 2 = unitsPerOne := by
    decide +kernel
  refine ⟨hunits.1, ?_⟩
  rw [value, div_eq_div_iff unitsPerOne_cast_pos.ne' two_ne_zero, one_mul]
  exact_mod_cast hunits.2

end Single

/-- The edge of a tile is far longer than what a coordinate is rounded by. -/
theorem value_tileSize : tileSize.isFinite = true ∧ tileSize.size ≠ 0 ∧
    64 ≤ tileSize.value ∧ tileSize.value ≤ 534 := by
  have hunits : tileSize.isFinite = true ∧ tileSize.size ≠ 0 ∧
      (64 : Int) * unitsPerOne ≤ tileSize.units ∧ tileSize.units ≤ 534 * unitsPerOne := by
    decide +kernel
  exact ⟨hunits.1, hunits.2.1, Single.le_value_iff.2 hunits.2.2.1,
    Single.value_le_iff.2 hunits.2.2.2⟩

section Centre

variable {cell : UInt32} (h : cell.toNat < 1024)
include h

/-- How far the centre of a cell is from the middle of the map, in tiles, is not rounded. -/
theorem value_centreScale :
    (32 - (Single.ofInt cell.toNat + Single.ofRatio 1 2) / 16).isFinite = true ∧
      (32 - (Single.ofInt cell.toNat + Single.ofRatio 1 2) / 16).value
        = (1023 - 2 * cell.toNat) / 32 := by
  obtain ⟨hcell, hcellValue⟩ := Single.value_ofInt (n := cell.toNat) (by omega)
  obtain ⟨hhalf, hhalfValue⟩ := Single.value_half
  have h16 : (16 : Single).isFinite = true ∧ (16 : Single).value = (16 : Int) :=
    Single.value_ofInt (by decide)
  have h32 : (32 : Single).isFinite = true ∧ (32 : Single).value = (32 : Int) :=
    Single.value_ofInt (by decide)
  obtain ⟨hmiddle, hmiddleValue⟩ := (Single.rounds_add hcell hhalf).dyadic
    (n := 2 * cell.toNat + 1) (k := 1) (by decide) (by omega)
    (by rw [hcellValue, hhalfValue]; push_cast; ring)
  obtain ⟨hscaled, hscaledValue⟩ := (Single.rounds_div hmiddle h16.1 (by decide)).dyadic
    (n := 2 * cell.toNat + 1) (k := 5) (by decide) (by omega)
    (by rw [hmiddleValue, hcellValue, hhalfValue, h16.2]; push_cast; ring)
  have hturned := (Single.rounds_sub h32.1 hscaled).dyadic
    (n := 1023 - 2 * cell.toNat) (k := 5) (by decide) (by omega)
    (by rw [hscaledValue, hmiddleValue, hcellValue, hhalfValue, h32.2, h16.2]; push_cast; ring)
  rw [hscaledValue, hmiddleValue, hcellValue, hhalfValue, h32.2, h16.2] at hturned
  refine ⟨hturned.1, hturned.2.trans ?_⟩
  push_cast
  ring

/-- The centre of a cell is at most one off the exact one, which is a small part of a cell. -/
theorem value_cellCentre : (cellCentre cell).isFinite = true ∧
    tileSize.value * ((1023 - 2 * cell.toNat) / 32) - 1 ≤ (cellCentre cell).value ∧
      (cellCentre cell).value ≤ tileSize.value * ((1023 - 2 * cell.toNat) / 32) + 1 := by
  obtain ⟨hsize, -, hlow, hhigh⟩ := value_tileSize
  obtain ⟨hscale, hscaleValue⟩ := value_centreScale h
  have hcell : (cell.toNat : ℚ) < 1024 := by exact_mod_cast h
  have hcell' : (0 : ℚ) ≤ cell.toNat := Nat.cast_nonneg _
  have hexactLow : -17200 ≤ tileSize.value * ((1023 - 2 * cell.toNat) / 32) := by nlinarith
  have hexactHigh : tileSize.value * ((1023 - 2 * cell.toNat) / 32) ≤ 17200 := by nlinarith
  have hround := Single.rounds_mul hsize hscale
  rw [hscaleValue] at hround
  generalize tileSize.value * ((1023 - 2 * cell.toNat) / 32) = exact at *
  -- the whole numbers around the exact value are in the format
  have hfloorLow : -17200 ≤ ⌊exact⌋ := Int.le_floor.2 (by exact_mod_cast hexactLow)
  have hfloorHigh : ⌊exact⌋ ≤ 17200 := by exact_mod_cast (Int.floor_le exact).trans hexactHigh
  obtain ⟨hfinite, hbelow, habove⟩ := hround.between (n := ⌊exact⌋) (m := ⌊exact⌋ + 1) (k := 0)
    (by decide) (by omega) (by omega) (by simpa using Int.floor_le exact)
    (by simpa using (Int.lt_floor_add_one exact).le)
  refine ⟨hfinite, ?_, ?_⟩
  · have := Int.lt_floor_add_one exact
    simp only [pow_zero, div_one] at hbelow
    exact (sub_le_iff_le_add.2 this.le).trans hbelow
  · simp only [pow_zero, div_one, Int.cast_add, Int.cast_one] at habove
    exact habove.trans (add_le_add_left (Int.floor_le exact) 1)

/-- **A centre that is read again lies in its cell,** a quarter away from its edges at least. -/
theorem value_gridScale_cellCentre : (gridScale (cellCentre cell)).isFinite = true ∧
    (4 * cell.toNat + 1) / 64 ≤ (gridScale (cellCentre cell)).value ∧
      (gridScale (cellCentre cell)).value ≤ (4 * cell.toNat + 3) / 64 := by
  obtain ⟨hsize, hsize0, hlow, -⟩ := value_tileSize
  obtain ⟨hcentre, hbelow, habove⟩ := value_cellCentre h
  have h32 : (32 : Single).isFinite = true ∧ (32 : Single).value = (32 : Int) :=
    Single.value_ofInt (by decide)
  have hpos : 0 < tileSize.value := by linarith
  obtain ⟨htiles, htilesLow, htilesHigh⟩ := (Single.rounds_div hcentre hsize hsize0).between
    (n := 2045 - 4 * cell.toNat) (m := 2047 - 4 * cell.toNat) (k := 6) (by decide) (by omega)
    (by omega)
    (by rw [le_div_iff₀ hpos]; push_cast; linarith)
    (by rw [div_le_iff₀ hpos]; push_cast; linarith)
  obtain ⟨hscale, hscaleLow, hscaleHigh⟩ := (Single.rounds_sub h32.1 htiles).between
    (n := 4 * cell.toNat + 1) (m := 4 * cell.toNat + 3) (k := 6) (by decide) (by omega)
    (by omega)
    (by rw [h32.2]; push_cast at htilesHigh ⊢; linarith)
    (by rw [h32.2]; push_cast at htilesLow ⊢; linarith)
  push_cast at hscaleLow hscaleHigh
  norm_num at hscaleLow hscaleHigh
  exact ⟨hscale, hscaleLow, hscaleHigh⟩

theorem onMap_cellCentre : OnMap (cellCentre cell) := by
  obtain ⟨hscale, hlow, hhigh⟩ := value_gridScale_cellCentre h
  have hcell : (cell.toNat : ℚ) ≤ 1023 := by exact_mod_cast (show cell.toNat ≤ 1023 by omega)
  have hcell' : (0 : ℚ) ≤ cell.toNat := Nat.cast_nonneg _
  have hnonneg : ((0 : Int) : ℚ) ≤ (gridScale (cellCentre cell)).value := by push_cast; linarith
  have hlt : (gridScale (cellCentre cell)).value < (64 : Int) := by push_cast; linarith
  exact onMap_iff.2 ⟨Single.isNaN_of_isFinite hscale, by simpa using Single.le_value_iff.1 hnonneg,
    Single.value_lt_iff.1 hlt⟩

/-- On the scale of cells, the whole part of a centre is the number of the cell. -/
theorem cell_units : 16 * (gridScale (cellCentre cell)).units / unitsPerOne = cell.toNat := by
  obtain ⟨-, hlow, hhigh⟩ := value_gridScale_cellCentre h
  rw [← Single.floor_mul_value 16]
  exact Int.floor_eq_iff.2 ⟨by push_cast; linarith, by push_cast; linarith⟩

/-- **The centre of a cell lies in the tile of the cell.** -/
theorem gridIndex_cellCentre : (gridIndex (cellCentre cell)).toInt = cell.toNat / 16 := by
  have hscale : (gridScale (cellCentre cell)).units / (unitsPerOne : Int)
      = 16 * (gridScale (cellCentre cell)).units / unitsPerOne / 16 := by
    rw [Int.ediv_ediv_of_nonneg (Int.natCast_nonneg _), Int.mul_comm (unitsPerOne : Int),
      Int.mul_ediv_mul_of_pos _ _ (by decide)]
  rw [(onMap_cellCentre h).gridIndex, hscale, cell_units h]

/-- **The centre of a cell lies in the cell.** -/
theorem coarseCell_cellCentre : coarseCell (cellCentre cell) = cell.toNat % 16 := by
  have hcell := cell_units h
  have hcoarse := (onMap_cellCentre h).coarseCell
  rw [hcell] at hcoarse
  omega

end Centre

end Overland
