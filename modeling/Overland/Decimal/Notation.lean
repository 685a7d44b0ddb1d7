import Overland.Decimal.Shortest

/-!
# How numbers are written

Both notations write the shortest decimal.  The plain one never uses an exponent and writes a whole
number without a point; the detailed one always shows a point or an exponent, and changes to an
exponent for very small and very large numbers.  `Decimal.plain` and `Decimal.detailed` are the two
tables of those choices.
-/

namespace Overland

namespace Decimal

/-- The choices that a notation makes. -/
structure Style where
  /-- What follows a whole number. -/
  wholeSuffix : String
  /-- Powers of ten of the leading digit, from the first to before the second, that are written
  without an exponent; all of them if there is no range. -/
  positional : Option (Int × Int)

/-- Whole numbers bare, never an exponent. -/
def plain : Style := ⟨"", none⟩

/-- Whole numbers end in a zero after the point; an exponent is written below `0.0001` and from
`1e16` on. -/
def detailed : Style := ⟨".0", some (-4, 16)⟩

/-- The digits with a point after the first `whole` of them, padded with zeros on either side where
the point falls outside. -/
def placePoint (style : Style) (digits : List Char) (whole : Int) : String :=
  let count : Int := digits.length
  if whole ≤ 0 then
    "0." ++ String.ofList (List.replicate whole.natAbs '0' ++ digits)
  else if whole < count then
    String.ofList (digits.take whole.toNat) ++ "." ++ String.ofList (digits.drop whole.toNat)
  else
    String.ofList (digits ++ List.replicate (whole - count).toNat '0') ++ style.wholeSuffix

/-- The digits with a point after the first one, and the power of ten of that digit. -/
def withExponent (digits : List Char) (power : Int) : String :=
  let rest := digits.drop 1
  String.ofList (digits.take 1) ++ (if rest.isEmpty then "" else "." ++ String.ofList rest)
    ++ "e" ++ toString power

/-- A decimal in the given style. -/
def write (style : Style) (d : Decimal) : String :=
  let digits := Nat.toDigits 10 d.significand
  let whole : Int := digits.length + d.exponent
  match style.positional with
  | none => placePoint style digits whole
  | some (first, past) =>
    if first ≤ whole - 1 ∧ whole - 1 < past then placePoint style digits whole
    else withExponent digits (whole - 1)

end Decimal

/-- A single-precision number in the given style. -/
def Single.write (style : Decimal.Style) (x : Single) : String :=
  if x.isNaN then "NaN"
  else
    let sign := if x.isNegative then "-" else ""
    if x.isInfinite then sign ++ "inf"
    else if x.size = 0 then sign ++ "0" ++ style.wholeSuffix
    else sign ++ (Decimal.shortest x).write style

/-! ## The two styles side by side -/

example : (Single.ofInt 10).write Decimal.plain = "10" := by decide +kernel

example : (Single.ofInt 10).write Decimal.detailed = "10.0" := by decide +kernel

example : (Single.ofRatio 1 10).write Decimal.detailed = "0.1" := by decide +kernel

example : (Single.ofRatio 1 10000000).write Decimal.plain = "0.0000001" := by decide +kernel

example : (Single.ofRatio 1 10000000).write Decimal.detailed = "1e-7" := by decide +kernel

example : (-Single.ofInt 16777216).write Decimal.plain = "-16777216" := by decide +kernel

end Overland
