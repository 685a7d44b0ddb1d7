import Overland.Single.Arithmetic

/-!
# Between single and double precision

A heading is computed in the 64-bit format and rounded to the 32-bit one at the end.  Widening is
exact; narrowing rounds once.  Both are the rounding rule of the target format applied to the value
in its own units: a unit of the 32-bit format is `1 <<< 925` units of the 64-bit one.
-/

namespace Overland.Single

/-- How many units of the 64-bit format make one unit of the 32-bit format. -/
def unitRatio : Nat := 1 <<< 925

/-- The sign bit of the 64-bit format as a number. -/
def doubleSignWord : Nat := 1 <<< 63

/-- The same value in the 64-bit format. -/
def toDouble (x : Single) : Float :=
  let word :=
    if x.isNaN then Binary.double.infinity + 1
    else if x.isInfinite then Binary.double.infinity
    else Binary.double.nearest (x.size * unitRatio) 1
  Float.ofBits (UInt64.ofNat (if x.isNegative then doubleSignWord + word else word))

/-- The nearest value in the 32-bit format. -/
def ofDouble (d : Float) : Single :=
  let bits := d.toBits.toNat
  let negative := decide (doubleSignWord ≤ bits)
  let word := bits % doubleSignWord
  if Binary.double.infinity < word then nan
  else if word = Binary.double.infinity then ofMagnitude negative Binary.single.infinity
  else round negative (Binary.double.magnitude word) unitRatio

end Overland.Single
