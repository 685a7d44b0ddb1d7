import Overland.Single.Basic

/-!
# Arithmetic on single-precision numbers

Each operation is its exact result in units, rounded once to the nearest number, ties to even.  What
is left to say is what happens beside the numbers: an operand that is no number gives no number,
infinities follow their limits, and the sign of a zero result is the usual one.

`add_finite`, `mul_finite` and `div_finite` state the rule for finite operands, which is the form
that statements about heights and cells start from.
-/

namespace Overland.Single

/-- Whether the word is a number that is not infinite. -/
def isFinite (x : Single) : Bool := x.magnitudeWord < Binary.single.infinity

/-- An exact integer number of units, rounded; `zeroSign` is the sign of an exact zero. -/
def ofUnits (zeroSign : Bool) (n : Int) : Single :=
  if n = 0 then ofMagnitude zeroSign 0 else round (decide (n < 0)) n.natAbs 1

/-- Sum.  Opposite infinities have none; a zero sum is negative only if both operands are. -/
def add (a b : Single) : Single :=
  if a.isNaN || b.isNaN then nan
  else if a.isInfinite then
    if b.isInfinite && a.isNegative != b.isNegative then nan else a
  else if b.isInfinite then b
  else ofUnits (a.isNegative && b.isNegative) (a.units + b.units)

/-- Difference: the sum with the other sign. -/
def sub (a b : Single) : Single := a.add b.neg

/-- Product.  An infinity times zero has none. -/
def mul (a b : Single) : Single :=
  let negative := a.isNegative != b.isNegative
  if a.isNaN || b.isNaN then nan
  else if a.isInfinite || b.isInfinite then
    if a.size = 0 || b.size = 0 then nan else ofMagnitude negative Binary.single.infinity
  else round negative (a.size * b.size) unitsPerOne

/-- Quotient.  Zero by zero and infinity by infinity have none; any other number by zero is
infinite. -/
def div (a b : Single) : Single :=
  let negative := a.isNegative != b.isNegative
  if a.isNaN || b.isNaN then nan
  else if a.isInfinite then
    if b.isInfinite then nan else ofMagnitude negative Binary.single.infinity
  else if b.isInfinite then ofMagnitude negative 0
  else if b.size = 0 then
    if a.size = 0 then nan else ofMagnitude negative Binary.single.infinity
  else round negative (a.size * unitsPerOne) b.size

instance : Add Single := ⟨add⟩
instance : Sub Single := ⟨sub⟩
instance : Mul Single := ⟨mul⟩
instance : Div Single := ⟨div⟩

/-! ## Square root -/

/-- The bits of the integer square root of `n` from place `places` down, above those in `root`. -/
def rootBits (n : Nat) : Nat → Nat → Nat
  | 0, root => root
  | places + 1, root =>
    let longer := root + 1 <<< places
    rootBits n places (if longer * longer ≤ n then longer else root)

/-- The largest number whose square is at most `n`. -/
def integerRoot (n : Nat) : Nat := rootBits n (n.log2 / 2 + 1) 0

/-- Square root.  Minus zero is its own root, other negative numbers have none.  The root of a
number of units on the scale of one is cut to an integer; an inexact root lies strictly between that
integer and the next, and a half stands for it, since no tie can fall inside. -/
def sqrt (x : Single) : Single :=
  if x.isNaN || x.size = 0 then x
  else if x.isNegative then nan
  else if x.isInfinite then x
  else
    let square := x.size * unitsPerOne
    let root := integerRoot square
    round false (2 * root + if root * root = square then 0 else 1) 2

/-! ## Finite operands -/

theorem isFinite_iff {x : Single} : x.isFinite = true ↔ x.isNaN = false ∧ x.isInfinite = false := by
  simp only [isFinite, isNaN, isInfinite, decide_eq_true_eq, decide_eq_false_iff_not]
  omega

theorem add_finite {a b : Single} (ha : a.isFinite = true) (hb : b.isFinite = true) :
    a + b = ofUnits (a.isNegative && b.isNegative) (a.units + b.units) := by
  obtain ⟨ha, ha'⟩ := isFinite_iff.1 ha
  obtain ⟨hb, hb'⟩ := isFinite_iff.1 hb
  show a.add b = _
  simp [add, ha, ha', hb, hb']

theorem mul_finite {a b : Single} (ha : a.isFinite = true) (hb : b.isFinite = true) :
    a * b = round (a.isNegative != b.isNegative) (a.size * b.size) unitsPerOne := by
  obtain ⟨ha, ha'⟩ := isFinite_iff.1 ha
  obtain ⟨hb, hb'⟩ := isFinite_iff.1 hb
  show a.mul b = _
  simp [mul, ha, ha', hb, hb']

theorem div_finite {a b : Single} (ha : a.isFinite = true) (hb : b.isFinite = true)
    (h0 : b.size ≠ 0) :
    a / b = round (a.isNegative != b.isNegative) (a.size * unitsPerOne) b.size := by
  obtain ⟨ha, ha'⟩ := isFinite_iff.1 ha
  obtain ⟨hb, hb'⟩ := isFinite_iff.1 hb
  show a.div b = _
  simp [div, ha, ha', hb, hb', h0]

end Overland.Single
