import Overland.Single.Basic

/-!
# The shortest decimal that reads back as a number

A number of a binary format stands for every real number that rounds to it: an interval around it,
bounded by the half-way points to its neighbours, with its ends exactly if its word is even.  The
decimal written for it is taken from the coarsest power-of-ten grid that meets the interval, and is
the point of that grid nearest to the number; of two equally near points it is the one further from
zero.

Only two points of a grid have to be looked at, the neighbours of the number itself: if any point of
the grid lies in the interval, so does one of them.
-/

namespace Overland

/-- A decimal: a significand and the power of ten that it counts. -/
structure Decimal where
  significand : Nat
  exponent : Int
  deriving DecidableEq, Repr

namespace Decimal

/-- The numbers that round to `mid`, all on one integer scale. -/
structure Interval where
  /-- Half-way point to the neighbour below. -/
  low : Nat
  /-- The number itself. -/
  mid : Nat
  /-- Half-way point to the neighbour above. -/
  high : Nat
  /-- Whether the half-way points round to the number too. -/
  closed : Bool

namespace Interval

/-- Whether a point rounds to the number. -/
def Contains (i : Interval) (x : Nat) : Prop :=
  if i.closed then i.low ≤ x ∧ x ≤ i.high else i.low < x ∧ x < i.high

instance (i : Interval) (x : Nat) : Decidable (i.Contains x) := by
  unfold Contains; infer_instance

/-- The multiple of `step` in the interval that is nearest to the number, as a count of steps. -/
def pick? (i : Interval) (step : Nat) : Option Nat :=
  let below := i.mid / step
  let above := below + 1
  if i.Contains (below * step) then
    if i.Contains (above * step) ∧ above * step - i.mid ≤ i.mid - below * step then some above
    else some below
  else if i.Contains (above * step) then some above
  else none

end Interval

/-- The interval of a magnitude, on a scale of `2 * scale` to the unit. -/
def interval (f : Binary.Format) (word scale : Nat) : Interval where
  low := (f.magnitude (word - 1) + f.magnitude word) * scale
  mid := 2 * f.magnitude word * scale
  high := (f.magnitude word + f.magnitude (word + 1)) * scale
  closed := word % 2 = 0

/-- A number with so many zeros written behind it. -/
def withZeros (n : Nat) : Nat → Nat
  | 0 => n
  | zeros + 1 => 10 * withZeros n zeros

/-- The first hit on the grids of `step` with up to `n` zeros, from the coarsest one down. -/
def coarsest (i : Interval) (step : Nat) : Nat → Option (Nat × Nat)
  | 0 => (i.pick? step).map (·, 0)
  | n + 1 =>
    match i.pick? (withZeros step (n + 1)) with
    | some count => some (count, n + 1)
    | none => coarsest i step n

/-- The finest power of ten that a single-precision number can need; its unit is a larger one. -/
def finest : Nat := 46

/-- The shortest decimal of a single-precision magnitude, for a finite number other than zero.  The
scale puts half units and the finest power of ten on integers both: that power of ten is then twice
the number of units that make one. -/
def shortest (x : Single) : Decimal :=
  let numbers := interval Binary.single x.magnitudeWord (withZeros 1 finest)
  match coarsest numbers (2 * Single.unitsPerOne) (finest + 39) with
  | some (count, power) => ⟨count, (power : Int) - finest⟩
  | none => ⟨0, 0⟩

end Decimal

end Overland
