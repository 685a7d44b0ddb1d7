import Overland.Single.Arithmetic

/-!
# From single-precision numbers to integers

A coordinate becomes a cell index by dropping its fraction, and a length becomes a number of steps
in the same way.  Dropping the fraction goes toward zero; a number outside the target range goes to
the nearest end of it, and a word that is no number goes to zero.  An infinity needs no rule of its
own: in units it lies outside every range.
-/

namespace Overland.Single

/-- The number without its fraction, as an integer. -/
def truncate (x : Single) : Int :=
  if x.isNaN then 0 else x.units.tdiv unitsPerOne

/-- The number without its fraction as a 32-bit integer, held inside the range of those. -/
def toInt32 (x : Single) : Int32 :=
  Int32.ofInt (max Int32.minValue.toInt (min Int32.maxValue.toInt x.truncate))

/-- The number without its fraction as a 64-bit count, held inside the range of those. -/
def toCount (x : Single) : Nat := min (UInt64.size - 1) x.truncate.toNat

/-- The largest whole number that is not above `x`.  Whole numbers, infinities and words that are no
number are their own. -/
def floor (x : Single) : Single :=
  if x.isNaN || x.isInfinite then x
  else ofUnits x.isNegative (x.units.fdiv unitsPerOne * unitsPerOne)

theorem toInt_toInt32 (x : Single) :
    x.toInt32.toInt = max Int32.minValue.toInt (min Int32.maxValue.toInt x.truncate) := by
  have hmin : Int32.minValue.toInt = -2147483648 := rfl
  have hmax : Int32.maxValue.toInt = 2147483647 := rfl
  exact Int32.toInt_ofInt_of_le (by omega) (by omega)

end Overland.Single
