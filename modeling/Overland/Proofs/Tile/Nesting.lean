import Overland.Proofs.Single.Value
import Overland.Proofs.Tile.Scale

/-!
# Tiles, area cells and height cells nest

The tile of a point, its area cell and its height cell are computed one by one, each by a scaling, a
cut and a mask of its own.  On the map they are three views of one number `v`, the exact value of
the coordinate on the grid scale (`Nested`): the integer part of `v`, and the integer parts of
`16 * v` and `128 * v` counted from the edge of the tile.  So a height cell lies in its area cell,
and an area cell in its tile, up to and including their edges (`grids_nest`).
-/

namespace Overland

open Single (unitsPerOne)

/-- The cells of a coordinate are those of the value `v` on the grid scale. -/
structure Nested (coordinate : Single) (v : ℚ) : Prop where
  /-- The tile is the integer part. -/
  tile : (gridIndex coordinate).toInt = ⌊v⌋
  onGrid : 0 ≤ ⌊v⌋ ∧ ⌊v⌋ ≤ 63
  /-- The height cell is counted from the edge of the tile. -/
  fine : ((finePlace coordinate).cell : ℤ) = ⌊128 * v⌋ - 128 * ⌊v⌋
  fine_le : (finePlace coordinate).cell ≤ 127
  /-- What is left is the place inside the height cell. -/
  offset : (finePlace coordinate).offset.isFinite = true ∧
    (finePlace coordinate).offset.value = 128 * v - ⌊128 * v⌋
  offset_range : 0 ≤ (finePlace coordinate).offset.value ∧ (finePlace coordinate).offset.value < 1
  /-- The area cell is counted from the edge of the tile. -/
  coarse : (coarseCell coordinate : ℤ) = ⌊16 * v⌋ - 16 * ⌊v⌋
  coarse_le : coarseCell coordinate ≤ 15
  /-- The height cell lies in the area cell. -/
  around : (finePlace coordinate).cell >>> 3 = coarseCell coordinate

/-- Cells of a whole map, counted from the edge of a tile. -/
theorem ediv_emod_eq_sub (units : ℤ) {cells : ℤ} (h : 0 < cells) :
    cells * units / unitsPerOne % cells
      = cells * units / unitsPerOne - cells * (units / unitsPerOne) := by
  have htile : cells * units / unitsPerOne / cells = units / unitsPerOne := by
    rw [Int.ediv_ediv_of_nonneg (Int.natCast_nonneg _), Int.mul_comm (unitsPerOne : ℤ),
      Int.mul_ediv_mul_of_pos _ _ h]
  rw [Int.emod_def, htile]

theorem OnMap.nested {coordinate : Single} (h : OnMap coordinate) :
    Nested coordinate (gridScale coordinate).value := by
  obtain ⟨-, hlow, hhigh⟩ := onMap_iff.1 h
  obtain ⟨hfinite, hunits⟩ := h.offset
  have hfine := Single.floor_mul_value 128 (gridScale coordinate)
  have hcoarse := Single.floor_mul_value 16 (gridScale coordinate)
  have hrest := Single.sub_floor_mul_value 128 (gridScale coordinate)
  push_cast at hfine hcoarse hrest
  have hvalue : (finePlace coordinate).offset.value
      = 128 * (gridScale coordinate).value - ⌊128 * (gridScale coordinate).value⌋ := by
    rw [hrest, Single.value, hunits]
  have hfineCell := h.fineCell
  have hcoarseCell := h.coarseCell
  refine ⟨?_, ?_, ?_, by omega, ⟨hfinite, hvalue⟩, ?_, ?_, by omega, ?_⟩
  · rw [Single.floor_value, h.gridIndex]
  · rw [Single.floor_value]
    have hone : (0 : ℤ) < unitsPerOne := by exact_mod_cast Single.unitsPerOne_pos
    exact ⟨Int.ediv_nonneg hlow hone.le, Int.le_of_lt_add_one (Int.ediv_lt_of_lt_mul hone hhigh)⟩
  · rw [hfineCell, hfine, Single.floor_value, ediv_emod_eq_sub _ (by decide)]
  · rw [hvalue]
    exact ⟨Int.fract_nonneg _, Int.fract_lt_one _⟩
  · rw [hcoarseCell, hcoarse, Single.floor_value, ediv_emod_eq_sub _ (by decide)]
  · rw [Nat.shiftRight_eq_div_pow]
    exact h.fineCell_div

/-- **The grids nest.**  On the map the tile, the height cell and the area cell of each coordinate
are the integer parts of its value on the grid scale and of 128 and 16 times that value, counted
from the edge of the tile, and the place inside the height cell is exactly what is left.  The area
cell that the height cells of a point lead to is the one that areas and kinds of liquid are looked
up in. -/
theorem grids_nest {x y : Single} (hx : OnMap x) (hy : OnMap y) :
    Nested x (gridScale x).value ∧ Nested y (gridScale y).value ∧
      LiquidLayer.cellAround x y = areaCell x y :=
  ⟨hx.nested, hy.nested, cellAround_eq_areaCell hx hy⟩

/-- At the origin four tiles meet, and so do their cells. -/
theorem origin_nests : OnMap 0 ∧ OnMap (-100) ∧ Nested 0 (gridScale 0).value ∧
    LiquidLayer.cellAround 0 (-100) = areaCell 0 (-100) := by
  have h0 : OnMap 0 := by decide +kernel
  have h1 : OnMap (-100) := by decide +kernel
  exact ⟨h0, h1, (grids_nest h0 h1).1, (grids_nest h0 h1).2.2⟩

end Overland
