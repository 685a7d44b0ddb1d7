import Overland.Proofs.Single.Value
import Overland.Proofs.Tile.Scale
import Overland.Tile.Height

/-!
# The triangle of a point on the map

Which triangle a point falls into is decided by comparing the sum of its two offsets with one, and
that sum is rounded.  On the map it loses nothing.  A place on the grid scale comes out of a
subtraction from 32, which leaves no bit below `2 ^ -19` (`OnMap.dvd_units`); the offsets keep to
the same grain, and on that grain a number has room for their sum.  The triangle is therefore the
one that exact arithmetic would choose (`triangle_exact`).
-/

namespace Overland

open Single (unitsPerOne)

/-! ## Numbers on the grain of the map, `2 ^ 130` units -/

namespace Single

open Binary (single)

/-- A finite number from 16 on has nothing below the grain. -/
theorem dvd_units_of_le {x : Single} (hx : x.isFinite = true) (h : 16 * unitsPerOne ≤ x.units) :
    2 ^ 130 ∣ x.units := by
  have hone := unitsPerOne_eq
  have hdvd : 2 ^ 130 ∣ x.size :=
    (represents_size hx).dvd (by rw [leading_eq, ← natAbs_units]; omega)
  rw [← natAbs_units] at hdvd
  exact Int.dvd_natAbs.1 (Int.natCast_dvd_natCast.2 hdvd)

/-- **On the grain a result of at most 32 is not rounded.** -/
theorem ofUnits_of_dvd (zeroSign : Bool) {n : Int} (h : 2 ^ 130 ∣ n)
    (hle : n.natAbs ≤ 32 * unitsPerOne) :
    (ofUnits zeroSign n).isFinite = true ∧ (ofUnits zeroSign n).units = n := by
  have hone := unitsPerOne_eq
  have hlarge := lt_magnitude_infinity
  exact ofUnits_of_represents zeroSign (Binary.Format.represents_of_dvd
    (Int.natCast_dvd.1 h) (by rw [leading_eq]; omega) (by omega))

end Single

/-! ## Places on the map -/

namespace OnMap

variable {coordinate : Single} (h : OnMap coordinate)
include h

/-- **A place on the map has nothing below the grain.**  From 16 on no number has.  Below 16 the
place is what a number above 16 leaves of 32, and the difference is exact. -/
theorem dvd_units : 2 ^ 130 ∣ (gridScale coordinate).units := by
  obtain ⟨-, hlow, hhigh⟩ := onMap_iff.1 h
  have hone := Single.unitsPerOne_eq
  by_cases hlarge : 16 * unitsPerOne ≤ (gridScale coordinate).units
  · exact Single.dvd_units_of_le h.isFinite hlarge
  have h32 : (32 : Single).isFinite = true ∧ (32 : Single).units = 32 * unitsPerOne := by decide
  have h16 : (16 : Single).isNaN = false ∧ (16 : Single).units = 16 * unitsPerOne := by decide
  have hneg : (-32 : Single).isNaN = false ∧ (-32 : Single).units = -(32 * unitsPerOne) := by decide
  have hquotient : (coordinate / tileSize).isFinite = true :=
    Single.isFinite_of_sub h32.1 h.isFinite
  obtain ⟨zeroSign, hsub⟩ := Single.sub_finite h32.1 hquotient
  rw [h32.2] at hsub
  rw [gridScale, hsub] at hlow hlarge ⊢
  -- rounding keeps to the side of 16 and of -32 that the exact difference lies on
  have hupper : 16 * unitsPerOne < (coordinate / tileSize).units := by
    by_contra hle
    have := Single.le_units_ofUnits zeroSign (n := 32 * unitsPerOne - (coordinate / tileSize).units)
      h16.1 (by omega)
    omega
  have hlower : -(32 * unitsPerOne : Int) ≤ 32 * unitsPerOne - (coordinate / tileSize).units := by
    by_contra hlt
    have := Single.units_ofUnits_le zeroSign (n := 32 * unitsPerOne - (coordinate / tileSize).units)
      hneg.1 (by omega)
    omega
  have hgrain := Single.dvd_units_of_le hquotient hupper.le
  have hdvd : (2 ^ 130 : Int) ∣ 32 * unitsPerOne - (coordinate / tileSize).units := by omega
  rw [(Single.ofUnits_of_dvd zeroSign hdvd (by omega)).2]
  exact hdvd

/-- The offset inside a height cell has nothing below the grain and lies below one. -/
theorem offset_grain : 2 ^ 130 ∣ (finePlace coordinate).offset.units ∧
    0 ≤ (finePlace coordinate).offset.units ∧
      (finePlace coordinate).offset.units < unitsPerOne := by
  have hdvd := h.dvd_units
  rw [h.offset.2, Single.unitsPerOne_eq]
  push_cast
  omega

end OnMap

/-- **On the map the triangle of a point is the one that exact arithmetic chooses.** -/
theorem triangle_exact {x y : Single} (hx : OnMap x) (hy : OnMap y) :
    Triangle.of (finePlace x).offset (finePlace y).offset
      = Triangle.of (finePlace x).offset.value (finePlace y).offset.value := by
  obtain ⟨hdvd, hlow, hhigh⟩ := hx.offset_grain
  obtain ⟨hdvd', hlow', hhigh'⟩ := hy.offset_grain
  have hfinite := hx.offset.1
  have hfinite' := hy.offset.1
  set a := (finePlace x).offset
  set b := (finePlace y).offset
  have hone : (1 : Single).isNaN = false ∧ (1 : Single).units = unitsPerOne := by decide
  obtain ⟨hsum, hunits⟩ := Single.ofUnits_of_dvd (a.isNegative && b.isNegative)
    (Int.dvd_add hdvd hdvd') (by omega)
  rw [← Single.add_finite hfinite hfinite'] at hsum hunits
  have hvalue : (a + b).value = a.value + b.value := by
    rw [Single.value, hunits, Int.cast_add, add_div, Single.value, Single.value]
  have hless : a + b < 1 ↔ a.value + b.value < 1 := by
    rw [Single.lt_iff_value (Single.isNaN_of_isFinite hsum) hone.1, hvalue,
      Single.value_eq_iff.2 (hone.2.trans (Int.one_mul _).symm), Int.cast_one]
  have hafter : b < a ↔ b.value < a.value :=
    Single.lt_iff_value (Single.isNaN_of_isFinite hfinite') (Single.isNaN_of_isFinite hfinite)
  simp only [Triangle.of, hless, hafter]

end Overland
