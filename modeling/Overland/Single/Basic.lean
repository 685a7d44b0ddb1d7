import Overland.Binary.Format

/-!
# Single-precision numbers

World coordinates, heights and mesh positions are stored and computed in the 32-bit binary format.
A `Single` is its word: two words that are no number stay two values, so whatever is read from a
file can be written back unchanged.

The value of a word is an integer, its number of *units*: one unit is the smallest positive number
of the format, and one is `1 <<< 149` of them.  An infinity reads as the power of two just past the
largest number, so the order of units is the order of all values that are comparable at all.
Comparisons are stated on units; zero and minus zero have the same.
-/

namespace Overland

/-- A number in the 32-bit binary format, as its word. -/
structure Single where
  /-- Sign bit, eight exponent bits, twenty-three fraction bits. -/
  bits : UInt32
  deriving DecidableEq, Repr, Inhabited

namespace Single

/-- The sign bit as a number: words from here on are negative. -/
def signWord : Nat := 1 <<< 31

/-- Whether the sign bit is set. -/
def isNegative (x : Single) : Bool := signWord ≤ x.bits.toNat

/-- The word without its sign bit. -/
def magnitudeWord (x : Single) : Nat := x.bits.toNat % signWord

/-- Whether the word is no number. -/
def isNaN (x : Single) : Bool := Binary.single.infinity < x.magnitudeWord

/-- Whether the word is one of the two infinities. -/
def isInfinite (x : Single) : Bool := x.magnitudeWord = Binary.single.infinity

/-- Distance from zero in units. -/
def size (x : Single) : Nat := Binary.single.magnitude x.magnitudeWord

/-- The value in units. -/
def units (x : Single) : Int := if x.isNegative then -(x.size : Int) else x.size

/-- How many units make one. -/
def unitsPerOne : Nat := 1 <<< 149

/-- The word with the given sign bit and magnitude. -/
def ofMagnitude (negative : Bool) (word : Nat) : Single :=
  ⟨UInt32.ofNat (if negative then signWord + word else word)⟩

/-- The word that stands for the result of an operation without one. -/
def nan : Single := ⟨0x7fc00000⟩

/-- The number nearest to `num / den` units, with the given sign. -/
def round (negative : Bool) (num den : Nat) : Single :=
  ofMagnitude negative (Binary.single.nearest num den)

/-- The number nearest to a quotient of natural numbers. -/
def ofRatio (num den : Nat) : Single := round false (num * unitsPerOne) den

/-- The number nearest to an integer; zero is positive. -/
def ofInt (n : Int) : Single := round (decide (n < 0)) (n.natAbs * unitsPerOne) 1

instance (n : Nat) : OfNat Single n := ⟨ofInt n⟩

instance : IntCast Single := ⟨ofInt⟩

/-! ## Sign -/

/-- The same word with the other sign. -/
def neg (x : Single) : Single := ofMagnitude (!x.isNegative) x.magnitudeWord

/-- The same word without its sign. -/
def abs (x : Single) : Single := ofMagnitude false x.magnitudeWord

instance : Neg Single := ⟨neg⟩

/-! ## Order -/

/-- Whether the first number is the smaller one; false of a word that is no number. -/
def less (a b : Single) : Bool := !a.isNaN && !b.isNaN && a.units < b.units

/-- Whether two words are the same number: a word that is no number equals nothing, the two zeros
equal each other. -/
def equal (a b : Single) : Bool := !a.isNaN && !b.isNaN && a.units = b.units

instance : LT Single := ⟨fun a b => a.less b = true⟩

instance (a b : Single) : Decidable (a < b) := inferInstanceAs (Decidable (a.less b = true))

theorem lt_iff {a b : Single} :
    a < b ↔ a.isNaN = false ∧ b.isNaN = false ∧ a.units < b.units := by
  show a.less b = true ↔ _
  simp [less, and_assoc]

/-! ## Reading back what is written -/

theorem magnitudeWord_lt (x : Single) : x.magnitudeWord < signWord :=
  Nat.mod_lt _ (by decide)

theorem isNegative_ofMagnitude (negative : Bool) {word : Nat} (h : word < signWord) :
    (ofMagnitude negative word).isNegative = negative := by
  have hs : signWord = 2147483648 := rfl
  cases negative <;>
    simp [isNegative, ofMagnitude, UInt32.toNat_ofNat', hs] <;> omega

theorem magnitudeWord_ofMagnitude (negative : Bool) {word : Nat} (h : word < signWord) :
    (ofMagnitude negative word).magnitudeWord = word := by
  have hs : signWord = 2147483648 := rfl
  cases negative <;> simp [magnitudeWord, ofMagnitude, UInt32.toNat_ofNat', hs] <;> omega

/-- A word is its sign and its magnitude. -/
theorem ofMagnitude_self (x : Single) : ofMagnitude x.isNegative x.magnitudeWord = x := by
  have hlt : x.bits.toNat < 4294967296 := x.bits.toNat_lt
  have hs : signWord = 2147483648 := rfl
  apply congrArg Single.mk
  rw [← UInt32.toNat_inj, UInt32.toNat_ofNat']
  by_cases h : 2147483648 ≤ x.bits.toNat <;> simp [isNegative, magnitudeWord, hs, h] <;> omega

end Single

end Overland
