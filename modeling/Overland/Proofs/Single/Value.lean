import Mathlib.Data.Rat.Floor
import Overland.Proofs.Single.Exact

/-!
# The value of a number

In exact arithmetic a number stands for a fraction, its units over those of one.  The order of
numbers is the order of their values, and the integer part of a value, also of a value that is
scaled by an integer first, is a quotient of units.
-/

namespace Overland.Single

/-- The value of a number.  Infinities have the value that the next power of two would have; of a
word that is no number this says nothing. -/
def value (x : Single) : ℚ := x.units / unitsPerOne

theorem unitsPerOne_cast_pos : (0 : ℚ) < unitsPerOne := by
  exact_mod_cast unitsPerOne_pos

theorem value_eq_iff {x : Single} {n : Int} : x.value = n ↔ x.units = n * unitsPerOne := by
  rw [value, div_eq_iff unitsPerOne_cast_pos.ne']
  exact_mod_cast Iff.rfl

section Bounds

variable {x : Single} {n : Int}

theorem le_value_iff : n ≤ x.value ↔ n * unitsPerOne ≤ x.units := by
  rw [value, le_div_iff₀ unitsPerOne_cast_pos]
  exact_mod_cast Iff.rfl

theorem value_le_iff : x.value ≤ n ↔ x.units ≤ n * unitsPerOne := by
  rw [value, div_le_iff₀ unitsPerOne_cast_pos]
  exact_mod_cast Iff.rfl

theorem value_lt_iff : x.value < n ↔ x.units < n * unitsPerOne := by
  rw [value, div_lt_iff₀ unitsPerOne_cast_pos]
  exact_mod_cast Iff.rfl

end Bounds

theorem value_le_value_iff {a b : Single} : a.value ≤ b.value ↔ a.units ≤ b.units := by
  rw [value, value, div_le_div_iff_of_pos_right unitsPerOne_cast_pos, Int.cast_le]

/-- The order of numbers is the order of their values. -/
theorem lt_iff_value {a b : Single} (ha : a.isNaN = false) (hb : b.isNaN = false) :
    a < b ↔ a.value < b.value := by
  rw [lt_iff, value, value, div_lt_div_iff_of_pos_right unitsPerOne_cast_pos, Int.cast_lt]
  simp [ha, hb]

theorem value_mono {a b : Single} (h : a ≤ b) : a.value ≤ b.value := value_le_value_iff.2 h.2.2

/-- The integer part of a multiple of a value is a quotient of units. -/
theorem floor_mul_value (k : Int) (x : Single) :
    ⌊(k : ℚ) * x.value⌋ = k * x.units / unitsPerOne := by
  rw [value, ← mul_div_assoc, ← Int.cast_mul]
  exact Rat.floor_intCast_div_natCast _ _

theorem floor_value (x : Single) : ⌊x.value⌋ = x.units / unitsPerOne :=
  Rat.floor_intCast_div_natCast _ _

/-- What is left of a number of units after whole ones is the fractional part of its value. -/
theorem sub_floor_mul_value (k : Int) (x : Single) :
    (k : ℚ) * x.value - ⌊(k : ℚ) * x.value⌋
      = ((k * x.units % unitsPerOne : Int) : ℚ) / unitsPerOne := by
  have hunits := Int.mul_ediv_add_emod (k * x.units) unitsPerOne
  have hcast : (k * x.units : ℚ) = unitsPerOne * (k * x.units / unitsPerOne : Int)
      + (k * x.units % unitsPerOne : Int) := by exact_mod_cast hunits.symm
  rw [floor_mul_value, value, ← mul_div_assoc, hcast, add_div,
    mul_div_cancel_left₀ _ unitsPerOne_cast_pos.ne', add_sub_cancel_left]

end Overland.Single
