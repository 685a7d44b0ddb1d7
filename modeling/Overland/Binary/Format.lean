/-!
# Binary floating-point formats as words

A format is two numbers, the width of its fraction field and the value of the exponent field that
infinities carry.  The magnitude of a number (its word without the sign bit) is read here as a whole
number of *units*, one unit being the smallest positive number of the format, so that every finite
number is an integer and every operation can be stated in exact integer arithmetic.

* `Format.magnitude` reads a word as its number of units.  The word of infinity is given the value
  that the next binade would have, which makes the order of words the order of numbers.
* `Format.nearest` is the one rounding rule: the word whose magnitude is nearest to a quotient, the
  even word if two are equally near, infinity from the half-way point past the largest number on.
* `Format.magnitude_lt_magnitude` and `Format.nearest_magnitude` say that the reading is strictly
  increasing and that a number of the format is its own rounding.
-/

namespace Overland.Binary

/-- A binary floating-point format, described by its two fields. -/
structure Format where
  /-- Width of the fraction field in bits. -/
  fraction : Nat
  /-- Exponent field of infinities and of words that are no number. -/
  topExponent : Nat
  deriving DecidableEq, Repr

namespace Format

variable (f : Format)

/-- The lowest bit of the exponent field, which is also the leading one before a fraction. -/
def leading : Nat := 1 <<< f.fraction

/-- The word of positive infinity. -/
def infinity : Nat := f.topExponent * f.leading

/-- The number of units of a word without its sign bit.  A word with exponent field zero is
subnormal and counts units directly; any other has a leading one before its fraction. -/
def magnitude (word : Nat) : Nat :=
  let exponent := word / f.leading
  let significand := word % f.leading
  if exponent = 0 then significand else (f.leading + significand) <<< (exponent - 1)

/-- The word nearest to `num / den` units, ties going to the even word.  The quotient is cut to one
significand on the grid of its binade; a significand that rounds up to the next power of two carries
into the exponent field by itself. -/
def nearest (num den : Nat) : Nat :=
  let shift := (num / den).log2 - f.fraction
  let grid := den <<< shift
  let significand := num / grid
  let rest := 2 * (num % grid)
  let up := if grid < rest ∨ (rest = grid ∧ significand % 2 = 1) then 1 else 0
  min (shift * f.leading + (significand + up)) f.infinity

end Format

/-- The 32-bit format: 23 fraction bits, exponent fields up to 255. -/
def single : Format := ⟨23, 255⟩

/-- The 64-bit format: 52 fraction bits, exponent fields up to 2047. -/
def double : Format := ⟨52, 2047⟩

/-! ## The reading of words -/

namespace Format

variable (f : Format)

theorem leading_pos : 0 < f.leading := by
  rw [leading, Nat.one_shiftLeft]
  exact Nat.two_pow_pos _

theorem magnitude_of_lt {word : Nat} (h : word < f.leading) : f.magnitude word = word := by
  simp [magnitude, Nat.div_eq_of_lt h, Nat.mod_eq_of_lt h]

/-- A word is its exponent field above its significand. -/
theorem magnitude_field (exponent significand : Nat) (h : significand < f.leading) :
    f.magnitude ((exponent + 1) * f.leading + significand)
      = (f.leading + significand) <<< exponent := by
  have hp := f.leading_pos
  have hdiv : ((exponent + 1) * f.leading + significand) / f.leading = exponent + 1 := by
    rw [Nat.mul_comm, Nat.mul_add_div hp, Nat.div_eq_of_lt h, Nat.add_zero]
  have hmod : ((exponent + 1) * f.leading + significand) % f.leading = significand := by
    rw [Nat.mul_comm, Nat.mul_add_mod, Nat.mod_eq_of_lt h]
  simp [magnitude, hdiv, hmod]

/-- Every word is subnormal, or an exponent field above a significand. -/
theorem word_cases (word : Nat) : word < f.leading ∨ ∃ exponent significand,
    significand < f.leading ∧ word = (exponent + 1) * f.leading + significand := by
  by_cases h : word < f.leading
  · exact Or.inl h
  · have hp := f.leading_pos
    have hq : 1 ≤ word / f.leading := (Nat.le_div_iff_mul_le hp).2 (by omega)
    refine Or.inr ⟨word / f.leading - 1, word % f.leading, Nat.mod_lt _ hp, ?_⟩
    rw [Nat.sub_add_cancel hq, Nat.mul_comm, Nat.div_add_mod]

/-- The next word is a larger number. -/
theorem magnitude_lt_succ (word : Nat) : f.magnitude word < f.magnitude (word + 1) := by
  have hp := f.leading_pos
  rcases f.word_cases word with h | ⟨e, s, hs, rfl⟩
  · rw [f.magnitude_of_lt h]
    by_cases h' : word + 1 < f.leading
    · rw [f.magnitude_of_lt h']; omega
    · have hw : word + 1 = (0 + 1) * f.leading + 0 := by omega
      rw [hw, f.magnitude_field 0 0 hp, Nat.shiftLeft_zero]; omega
  · have he : 0 < 2 ^ e := Nat.two_pow_pos _
    rw [f.magnitude_field e s hs]
    by_cases h' : s + 1 < f.leading
    · rw [Nat.add_assoc, f.magnitude_field e (s + 1) h', Nat.shiftLeft_eq, Nat.shiftLeft_eq]
      exact Nat.mul_lt_mul_of_pos_right (by omega) he
    · have hw : (e + 1) * f.leading + s + 1 = (e + 1 + 1) * f.leading + 0 := by
        rw [Nat.add_mul (e + 1) 1]; omega
      rw [hw, f.magnitude_field (e + 1) 0 hp, Nat.shiftLeft_eq, Nat.shiftLeft_eq, Nat.pow_succ]
      have hlt : (f.leading + s) * 2 ^ e < (f.leading + f.leading) * 2 ^ e :=
        Nat.mul_lt_mul_of_pos_right (by omega) he
      refine Nat.lt_of_lt_of_eq hlt ?_
      rw [Nat.add_zero, ← Nat.two_mul, Nat.mul_comm (2 ^ e) 2, ← Nat.mul_assoc,
        Nat.mul_comm f.leading 2]

/-- The order of words is the order of numbers. -/
theorem magnitude_lt_magnitude {word other : Nat} (h : word < other) :
    f.magnitude word < f.magnitude other := by
  induction other with
  | zero => omega
  | succ other ih =>
    rcases Nat.lt_succ_iff_lt_or_eq.1 h with h' | rfl
    · exact Nat.lt_trans (ih h') (f.magnitude_lt_succ other)
    · exact f.magnitude_lt_succ word

/-! ## Rounding -/

/-- A quotient that is a number of the format on its own grid is rounded to that number. -/
theorem nearest_of_grid {den : Nat} (hden : 0 < den) (shift significand : Nat)
    (hlow : shift = 0 ∨ f.leading ≤ significand) (hhigh : significand < 2 * f.leading) :
    f.nearest (significand <<< shift * den) den
      = min (shift * f.leading + significand) f.infinity := by
  have hpow : 0 < 2 ^ shift := Nat.two_pow_pos _
  have hlead : f.leading = 2 ^ f.fraction := Nat.one_shiftLeft _
  have hhigh' : significand < 2 ^ (f.fraction + 1) := by
    rw [Nat.pow_succ, Nat.mul_comm, ← hlead]; exact hhigh
  have hshift : (significand * 2 ^ shift).log2 - f.fraction = shift := by
    rcases hlow with rfl | hlow
    · rw [Nat.pow_zero, Nat.mul_one]
      by_cases h0 : significand = 0
      · simp [h0]
      · have := (Nat.log2_lt h0).2 hhigh'
        omega
    · have h2 := f.leading_pos
      have h0 : significand * 2 ^ shift ≠ 0 := Nat.mul_ne_zero (by omega) (by omega)
      have hge : f.fraction + shift ≤ (significand * 2 ^ shift).log2 := by
        rw [Nat.le_log2 h0, Nat.pow_add]
        exact Nat.mul_le_mul_right _ (hlead ▸ hlow)
      have hlt : (significand * 2 ^ shift).log2 < f.fraction + 1 + shift := by
        rw [Nat.log2_lt h0, Nat.pow_add]
        exact Nat.mul_lt_mul_of_pos_right hhigh' hpow
      omega
  have hgrid : 0 < den * 2 ^ shift := Nat.mul_pos hden hpow
  have hnum : significand * 2 ^ shift * den = significand * (den * 2 ^ shift) := by
    rw [Nat.mul_assoc, Nat.mul_comm den]
  simp only [nearest, Nat.shiftLeft_eq significand, Nat.mul_div_cancel _ hden, hshift,
    Nat.shiftLeft_eq den]
  rw [hnum, Nat.mul_div_cancel _ hgrid, Nat.mul_mod_left, if_neg (by omega), Nat.add_zero]

/-- **A number of the format is its own rounding,** infinity included. -/
theorem nearest_magnitude {word den : Nat} (hden : 0 < den) (h : word ≤ f.infinity) :
    f.nearest (f.magnitude word * den) den = word := by
  have hp := f.leading_pos
  rcases f.word_cases word with hlt | ⟨e, s, hs, rfl⟩
  · have hs := f.nearest_of_grid hden 0 word (Or.inl rfl) (by omega)
    rw [Nat.shiftLeft_zero] at hs
    rw [f.magnitude_of_lt hlt, hs]
    omega
  · rw [f.magnitude_field e s hs, f.nearest_of_grid hden e _ (Or.inr (by omega)) (by omega)]
    rw [Nat.add_mul, Nat.one_mul] at h ⊢
    omega

end Format

end Overland.Binary
