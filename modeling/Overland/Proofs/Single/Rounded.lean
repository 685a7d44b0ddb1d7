import Overland.Proofs.Single.Value

/-!
# What rounding leaves of an interval

The result of an operation is the exact result, rounded.  Where all that matters is between which
numbers it lies, it is enough that rounding never leads past a number of the format (`Rounds`): a
result between two numbers stays between them (`Rounds.within`), and a result in the format stays
what it is (`Rounds.exact_of`).  `rounds_add`, `rounds_sub`, `rounds_mul` and `rounds_div` say so of
the four operations.

The numbers to compare with are fractions over a power of two of up to 24 bits, which are all in the
format (`exists_dyadic`).
-/

namespace Overland.Single

open Binary (single)

/-- The number stands for an exact value: no number of the format lies between the two. -/
structure Rounds (x : Single) (exact : ℚ) : Prop where
  isNaN : x.isNaN = false
  value_le : ∀ {y : Single}, y.isNaN = false → exact ≤ y.value → x.value ≤ y.value
  le_value : ∀ {y : Single}, y.isNaN = false → y.value ≤ exact → y.value ≤ x.value

namespace Rounds

variable {x : Single} {exact : ℚ} (h : Rounds x exact)
include h

/-- **A result between two finite numbers stays between them.** -/
theorem within {low high : Single} (hlow : low.isFinite = true) (hhigh : high.isFinite = true)
    (hle : low.value ≤ exact) (hge : exact ≤ high.value) :
    x.isFinite = true ∧ low.value ≤ x.value ∧ x.value ≤ high.value := by
  obtain ⟨hlowNaN, hlowUnits, -⟩ := isFinite_iff_units.1 hlow
  obtain ⟨hhighNaN, -, hhighUnits⟩ := isFinite_iff_units.1 hhigh
  have hbelow := h.le_value hlowNaN hle
  have habove := h.value_le hhighNaN hge
  have hunitsLow := value_le_value_iff.1 hbelow
  have hunitsHigh := value_le_value_iff.1 habove
  exact ⟨isFinite_iff_units.2 ⟨h.isNaN, by omega, by omega⟩, hbelow, habove⟩

/-- **A result in the format is not rounded.** -/
theorem exact_of {y : Single} (hy : y.isFinite = true) (heq : y.value = exact) :
    x.isFinite = true ∧ x.value = exact := by
  obtain ⟨hfinite, hbelow, habove⟩ := h.within hy hy heq.le heq.ge
  exact ⟨hfinite, (habove.antisymm hbelow).trans heq⟩

end Rounds

/-! ## The operations -/

theorem value_le_div_iff {x : Single} {q : ℚ} : x.value ≤ q / unitsPerOne ↔ x.units ≤ q :=
  div_le_div_iff_of_pos_right unitsPerOne_cast_pos

theorem div_le_value_iff {x : Single} {q : ℚ} : q / unitsPerOne ≤ x.value ↔ q ≤ x.units :=
  div_le_div_iff_of_pos_right unitsPerOne_cast_pos

theorem rounds_ofUnits (zeroSign : Bool) (n : Int) :
    Rounds (ofUnits zeroSign n) (n / unitsPerOne : ℚ) where
  isNaN := isNaN_ofUnits zeroSign n
  value_le hy h := by
    rw [div_le_value_iff, Int.cast_le] at h
    exact value_le_value_iff.2 (units_ofUnits_le zeroSign hy h)
  le_value hy h := by
    rw [value_le_div_iff, Int.cast_le] at h
    exact value_le_value_iff.2 (le_units_ofUnits zeroSign hy h)

/-- A value with a sign. -/
def signed (negative : Bool) (q : ℚ) : ℚ := if negative then -q else q

theorem signed_mul_signed (negative negative' : Bool) (p q : ℚ) :
    signed negative p * signed negative' q = signed (negative != negative') (p * q) := by
  cases negative <;> cases negative' <;> simp [signed]

theorem signed_div_signed (negative negative' : Bool) (p q : ℚ) :
    signed negative p / signed negative' q = signed (negative != negative') (p / q) := by
  cases negative <;> cases negative' <;> simp [signed, neg_div, div_neg]

theorem signed_div (negative : Bool) (p q : ℚ) :
    signed negative p / q = signed negative (p / q) := by
  cases negative <;> simp [signed, neg_div]

/-- With signs, a value is on the same side of a size as a quotient if it is so without them. -/
theorem signed_le_signed {quotient magnitude size : ℚ} (hquotient : 0 ≤ quotient)
    (hmagnitude : 0 ≤ magnitude) (hsize : 0 ≤ size)
    (habove : quotient ≤ size → magnitude ≤ size) (hbelow : size ≤ quotient → size ≤ magnitude)
    (negative negative' : Bool) :
    (signed negative quotient ≤ signed negative' size →
      signed negative magnitude ≤ signed negative' size) ∧
    (signed negative' size ≤ signed negative quotient →
      signed negative' size ≤ signed negative magnitude) := by
  cases negative <;> cases negative' <;>
    simp only [signed, if_true, Bool.false_eq_true, if_false]
  · exact ⟨habove, hbelow⟩
  · exact ⟨fun h => by linarith [habove (by linarith)], fun h => by linarith⟩
  · exact ⟨fun h => by linarith, fun h => by linarith [habove (by linarith)]⟩
  · exact ⟨fun h => by linarith [hbelow (by linarith)], fun h => by linarith [habove (by linarith)]⟩

/-- The units of a number are its size with its sign. -/
theorem units_cast (x : Single) : (x.units : ℚ) = signed x.isNegative x.size := by
  rw [units, signed]
  split <;> push_cast <;> rfl

/-- The nearest word to a quotient is on the same side of a number as the quotient. -/
theorem magnitude_nearest_le {num den : Nat} (hden : 0 < den) {y : Single} (hy : y.isNaN = false)
    (h : (num / den : ℚ) ≤ y.size) : (single.magnitude (single.nearest num den) : ℚ) ≤ y.size := by
  have hself := single.nearest_magnitude hden (magnitudeWord_le hy)
  rw [div_le_iff₀ (by exact_mod_cast hden)] at h
  have hmono := single.nearest_mono (by decide) hden hden
    (Nat.mul_le_mul_right den (show num ≤ y.size * den by exact_mod_cast h))
  rw [size, hself] at hmono
  exact_mod_cast single.magnitude_mono hmono

theorem le_magnitude_nearest {num den : Nat} (hden : 0 < den) {y : Single} (hy : y.isNaN = false)
    (h : y.size ≤ (num / den : ℚ)) : (y.size : ℚ) ≤ single.magnitude (single.nearest num den) := by
  have hself := single.nearest_magnitude hden (magnitudeWord_le hy)
  rw [le_div_iff₀ (by exact_mod_cast hden)] at h
  have hmono := single.nearest_mono (by decide) hden hden
    (Nat.mul_le_mul_right den (show y.size * den ≤ num by exact_mod_cast h))
  rw [size, hself] at hmono
  exact_mod_cast single.magnitude_mono hmono

/-- A quotient with a sign, rounded. -/
theorem rounds_round (negative : Bool) (num : Nat) {den : Nat} (hden : 0 < den) :
    Rounds (round negative num den) (signed negative (num / den) / unitsPerOne) := by
  have hunits : ((round negative num den).units : ℚ)
      = signed negative (single.magnitude (single.nearest num den)) := by
    rw [round, units_ofMagnitude negative (single.nearest_le num den), signed]
    split <;> push_cast <;> rfl
  have hsides {y : Single} (hy : y.isNaN = false) :=
    signed_le_signed (show (0 : ℚ) ≤ num / den by positivity) (by positivity) (by positivity)
      (magnitude_nearest_le hden hy) (le_magnitude_nearest hden hy) negative y.isNegative
  refine ⟨isNaN_ofMagnitude negative (single.nearest_le num den), fun {y} hy h => ?_,
    fun {y} hy h => ?_⟩
  · rw [div_le_value_iff, units_cast y] at h
    rw [value_le_value_iff, ← Int.cast_le (R := ℚ), hunits, units_cast y]
    exact (hsides hy).1 h
  · rw [value_le_div_iff, units_cast y] at h
    rw [value_le_value_iff, ← Int.cast_le (R := ℚ), hunits, units_cast y]
    exact (hsides hy).2 h

theorem rounds_add {a b : Single} (ha : a.isFinite = true) (hb : b.isFinite = true) :
    Rounds (a + b) (a.value + b.value) := by
  have hsum : a.value + b.value = (a.units + b.units : Int) / unitsPerOne := by
    rw [value, value, ← add_div, Int.cast_add]
  rw [add_finite ha hb, hsum]
  exact rounds_ofUnits _ _

theorem rounds_sub {a b : Single} (ha : a.isFinite = true) (hb : b.isFinite = true) :
    Rounds (a - b) (a.value - b.value) := by
  obtain ⟨zeroSign, hsub⟩ := sub_finite ha hb
  have hdifference : a.value - b.value = (a.units - b.units : Int) / unitsPerOne := by
    rw [value, value, ← sub_div, Int.cast_sub]
  rw [hsub, hdifference]
  exact rounds_ofUnits _ _

theorem rounds_mul {a b : Single} (ha : a.isFinite = true) (hb : b.isFinite = true) :
    Rounds (a * b) (a.value * b.value) := by
  have hproduct : a.value * b.value = signed (a.isNegative != b.isNegative)
      ((a.size * b.size : Nat) / unitsPerOne) / unitsPerOne := by
    rw [value, value, div_mul_div_comm, ← div_div, units_cast, units_cast, signed_mul_signed,
      signed_div, Nat.cast_mul]
  rw [mul_finite ha hb, hproduct]
  exact rounds_round _ _ unitsPerOne_pos

theorem rounds_div {a b : Single} (ha : a.isFinite = true) (hb : b.isFinite = true)
    (h0 : b.size ≠ 0) : Rounds (a / b) (a.value / b.value) := by
  have hpos := unitsPerOne_cast_pos
  have hquotient : a.value / b.value = signed (a.isNegative != b.isNegative)
      ((a.size * unitsPerOne : Nat) / b.size) / unitsPerOne := by
    rw [value, value, div_div_div_cancel_right₀ hpos.ne', units_cast, units_cast,
      signed_div_signed, signed_div, Nat.cast_mul, mul_div_right_comm,
      mul_div_cancel_right₀ _ hpos.ne']
  rw [div_finite ha hb h0, hquotient]
  exact rounds_round _ _ (Nat.pos_of_ne_zero h0)

/-! ## Numbers to compare with -/

/-- Fractions over a power of two are in the format if they have no more than 24 bits. -/
theorem exists_dyadic {n : Int} (hn : n.natAbs ≤ 2 ^ 24) {k : Nat} (hk : k ≤ 149) :
    ∃ y : Single, y.isFinite = true ∧ y.value = n / 2 ^ k := by
  have hlead := leading_eq
  have hinfinity := lt_magnitude_infinity
  have hpow : 2 ^ (149 - k) ≤ 2 ^ 149 := Nat.pow_le_pow_right (by decide) (by omega)
  have hrepresents : single.Represents (n * (2 ^ (149 - k) : Nat)).natAbs := by
    rw [Int.natAbs_mul, Int.natAbs_natCast]
    refine Binary.Format.represents_shift (by omega) ?_
    calc n.natAbs * 2 ^ (149 - k) ≤ 2 ^ 24 * 2 ^ 149 := Nat.mul_le_mul hn hpow
      _ < single.magnitude single.infinity := by omega
  obtain ⟨hfinite, hunits⟩ := ofUnits_of_represents false hrepresents
  refine ⟨_, hfinite, ?_⟩
  have hone : (unitsPerOne : ℚ) = 2 ^ (149 - k) * 2 ^ k := by
    rw [unitsPerOne_eq, ← pow_add, Nat.sub_add_cancel hk]
    push_cast
    rfl
  rw [value, hunits, hone]
  push_cast
  rw [mul_comm, mul_div_mul_left _ _ (by positivity)]

namespace Rounds

variable {x : Single} {exact : ℚ} (h : Rounds x exact) {k : Nat} (hk : k ≤ 149)
include h hk

/-- A fraction over a power of two is not rounded. -/
theorem dyadic {n : Int} (hn : n.natAbs ≤ 2 ^ 24) (heq : exact = n / 2 ^ k) :
    x.isFinite = true ∧ x.value = exact := by
  obtain ⟨y, hy, hvalue⟩ := exists_dyadic hn hk
  exact h.exact_of hy (hvalue.trans heq.symm)

/-- A result between two fractions over a power of two stays between them. -/
theorem between {n m : Int} (hn : n.natAbs ≤ 2 ^ 24) (hm : m.natAbs ≤ 2 ^ 24)
    (hlow : n / 2 ^ k ≤ exact) (hhigh : exact ≤ m / 2 ^ k) :
    x.isFinite = true ∧ n / 2 ^ k ≤ x.value ∧ x.value ≤ m / 2 ^ k := by
  obtain ⟨low, hlowFinite, hlowValue⟩ := exists_dyadic hn hk
  obtain ⟨high, hhighFinite, hhighValue⟩ := exists_dyadic hm hk
  have hwithin := h.within hlowFinite hhighFinite (hlowValue.trans_le hlow)
    (hhigh.trans_eq hhighValue.symm)
  rw [hlowValue, hhighValue] at hwithin
  exact hwithin

end Rounds

end Overland.Single
