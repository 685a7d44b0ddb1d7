import Mathlib.Algebra.Group.Int.Defs
import Overland.Proofs.Binary.Exact
import Overland.Proofs.Single.Order

/-!
# Single-precision arithmetic without rounding

Cells are counted, and samples are combined, in numbers that are all small beside the precision of
the format.  There an operation is its exact result:

* `ofUnits_of_represents` — an exact result in the format is not rounded;
* `ofInt_add`, `ofInt_sub` — sums and differences of integers of up to 24 bits are those of the
  integers, sign of zero included;
* `scale_exact`, `sub_floor_exact` — scaling by a power of two, and taking the integer part away;
* `toInt_toInt32_of_nonneg` — a number that is not negative is cut to its integer part;
* `toInt32_inside_iff` — what is cut to the first or last integer lies beyond them all.
-/

namespace Overland.Single

open Binary (single)

theorem unitsPerOne_eq : unitsPerOne = 2 ^ 149 := by decide

theorem unitsPerOne_pos : 0 < unitsPerOne := by decide

theorem leading_eq : single.leading = 2 ^ 23 := by decide

/-- Numbers of up to fifteen digits are far from infinity. -/
theorem lt_magnitude_infinity : 2 ^ 200 < single.magnitude single.infinity := by decide

/-! ## Results in the format -/

theorem natAbs_units (x : Single) : x.units.natAbs = x.size := by
  rcases x.units_cases with h | h <;> rw [h, size] <;> simp

theorem represents_size {x : Single} (h : x.isFinite = true) : single.Represents x.size :=
  ⟨x.magnitudeWord, by simpa [isFinite] using h, rfl⟩

/-- A finite magnitude with a sign is a finite number. -/
theorem isFinite_ofMagnitude (negative : Bool) {word : Nat} (h : word < single.infinity) :
    (ofMagnitude negative word).isFinite = true := by
  have := infinity_lt_signWord
  rw [isFinite, magnitudeWord_ofMagnitude negative (by omega)]
  simpa using h

/-- **An exact result in the format is not rounded.** -/
theorem ofUnits_of_represents (zeroSign : Bool) {n : Int} (h : single.Represents n.natAbs) :
    (ofUnits zeroSign n).isFinite = true ∧ (ofUnits zeroSign n).units = n := by
  obtain ⟨word, hword, hvalue⟩ := h
  let x := ofMagnitude (decide (n < 0)) word
  have hx : x.isNaN = false := isNaN_ofMagnitude _ (Nat.le_of_lt hword)
  have hunits : x.units = n := by
    rw [units_ofMagnitude _ (Nat.le_of_lt hword), hvalue]
    simp only [decide_eq_true_eq]
    split <;> omega
  have hself := units_ofUnits_self zeroSign hx
  have hlt := single.magnitude_lt_magnitude hword
  rw [hunits] at hself
  refine ⟨isFinite_iff_units.2 ⟨isNaN_ofUnits _ _, ?_, ?_⟩, hself⟩ <;> omega

/-- What is taken from a finite number is finite if the difference is. -/
theorem isFinite_of_sub {a b : Single} (ha : a.isFinite = true) (h : (a - b).isFinite = true) :
    b.isFinite = true := by
  obtain ⟨hnan, hinf⟩ := isFinite_iff.1 ha
  have hmagnitude : (-b).magnitudeWord = b.magnitudeWord :=
    magnitudeWord_ofMagnitude _ b.magnitudeWord_lt
  have hsame : (-b).isFinite = b.isFinite := by rw [isFinite, isFinite, hmagnitude]
  replace h : (a.add (-b)).isFinite = true := h
  rw [← hsame, isFinite_iff]
  rw [add, hnan, hinf] at h
  cases hb : (-b).isNaN with
  | true =>
    rw [hb] at h
    cases h
  | false =>
    cases hb' : (-b).isInfinite with
    | true =>
      rw [hb, hb'] at h
      exact absurd (isFinite_iff.1 h).2 (by simp [hb'])
    | false => exact ⟨rfl, rfl⟩

/-! ## Integers -/

theorem ofInt_eq_ofUnits (n : Int) : ofInt n = ofUnits false (n * unitsPerOne) := by
  have hpos := unitsPerOne_pos
  rcases Int.lt_trichotomy n 0 with hn | rfl | hn
  · have hneg : n * unitsPerOne < 0 := Int.mul_neg_of_neg_of_pos hn (by omega)
    rw [ofUnits, if_neg (by omega), ofInt, Int.natAbs_mul, Int.natAbs_natCast, decide_eq_true hn,
      decide_eq_true hneg]
  · decide
  · have hnonneg : 0 < n * unitsPerOne := Int.mul_pos hn (by omega)
    rw [ofUnits, if_neg (by omega), ofInt, Int.natAbs_mul, Int.natAbs_natCast,
      decide_eq_false (by omega), decide_eq_false (by omega)]

/-- An integer of at most 24 bits is in the format. -/
theorem represents_int {n : Int} (h : n.natAbs ≤ 2 ^ 24) :
    single.Represents (n * unitsPerOne).natAbs := by
  rw [Int.natAbs_mul, Int.natAbs_natCast, unitsPerOne_eq]
  have := lt_magnitude_infinity
  exact Binary.Format.represents_shift (by rw [leading_eq]; omega) (by omega)

theorem ofInt_exact {n : Int} (h : n.natAbs ≤ 2 ^ 24) :
    (ofInt n).isFinite = true ∧ (ofInt n).units = n * unitsPerOne := by
  rw [ofInt_eq_ofUnits]
  exact ofUnits_of_represents false (represents_int h)

theorem isNegative_ofInt (n : Int) : (ofInt n).isNegative = decide (n < 0) := by
  have := single.nearest_le (n.natAbs * unitsPerOne) 1
  have := infinity_lt_signWord
  exact isNegative_ofMagnitude _ (by omega)

/-- The sign of a zero result does not matter for any other result. -/
theorem ofUnits_congr {zeroSign zeroSign' : Bool} {n : Int} (h : n = 0 → zeroSign = zeroSign') :
    ofUnits zeroSign n = ofUnits zeroSign' n := by
  unfold ofUnits
  split
  · rw [h ‹_›]
  · rfl

section Integers

variable {a b : Int} (ha : a.natAbs ≤ 2 ^ 24) (hb : b.natAbs ≤ 2 ^ 24)
include ha hb

/-- **The sum of two integers is the integer sum,** rounded like that if it needs to be. -/
theorem ofInt_add : ofInt a + ofInt b = ofInt (a + b) := by
  obtain ⟨hfa, hua⟩ := ofInt_exact ha
  obtain ⟨hfb, hub⟩ := ofInt_exact hb
  rw [add_finite hfa hfb, hua, hub, ← Int.add_mul, ofInt_eq_ofUnits (a + b)]
  refine ofUnits_congr fun hzero => ?_
  -- two negative numbers do not sum up to zero
  have hsum : a + b = 0 := (Int.mul_eq_zero.1 hzero).resolve_right (by decide)
  rw [isNegative_ofInt, isNegative_ofInt]
  by_cases hneg : a < 0 <;> simp [hneg]
  omega

/-- **The difference of two integers is the integer difference.** -/
theorem ofInt_sub : ofInt a - ofInt b = ofInt (a - b) := by
  obtain ⟨hfa, hua⟩ := ofInt_exact ha
  obtain ⟨hfb, hub⟩ := ofInt_exact hb
  have hflip : (-ofInt b).isNegative = !(ofInt b).isNegative :=
    isNegative_ofMagnitude _ (magnitudeWord_lt _)
  show ofInt a + -ofInt b = _
  rw [add_finite hfa (isFinite_neg hfb), units_neg (isNaN_of_isFinite hfb), hua, hub,
    ← Int.sub_eq_add_neg, ← Int.sub_mul, ofInt_eq_ofUnits (a - b)]
  refine ofUnits_congr fun hzero => ?_
  -- a negative number differs from one that is not
  have hsame : a - b = 0 := (Int.mul_eq_zero.1 hzero).resolve_right (by decide)
  rw [hflip, isNegative_ofInt, isNegative_ofInt]
  by_cases hneg : a < 0 <;> simp [hneg]
  omega

end Integers

/-! ## Scaling -/

/-- **Scaling by a power of two is exact,** unless it leads to infinity. -/
theorem scale_exact {x : Single} {k : Nat} (hk : k ≤ 24) (hx : x.isFinite = true)
    (hlt : x.size * 2 ^ k < single.magnitude single.infinity) :
    (ofInt (2 ^ k : Nat) * x).isFinite = true ∧
      (ofInt (2 ^ k : Nat) * x).units = (2 ^ k : Nat) * x.units := by
  obtain ⟨hfinite, hunits⟩ :=
    ofInt_exact (n := (2 ^ k : Nat)) (Nat.pow_le_pow_right (by decide) hk)
  have hsize : (ofInt (2 ^ k : Nat)).size = 2 ^ k * unitsPerOne := by
    rw [← natAbs_units, hunits, Int.natAbs_mul]
    rfl
  have hsign : (ofInt (2 ^ k : Nat)).isNegative = false := by
    rw [isNegative_ofInt]
    exact decide_eq_false (Int.not_lt.2 (Int.natCast_nonneg _))
  obtain ⟨hword, hvalue⟩ := Binary.Format.nearest_of_represents
    unitsPerOne_pos ((represents_size hx).mul_two_pow hlt)
  rw [mul_finite hfinite hx, hsize, hsign, Nat.mul_right_comm, Nat.mul_comm (2 ^ k), round]
  refine ⟨isFinite_ofMagnitude _ hword, ?_⟩
  rw [units_ofMagnitude _ (Nat.le_of_lt hword), hvalue, units, Bool.false_bne, Nat.mul_comm]
  split
  · rw [Int.natCast_mul, Int.mul_neg]
  · exact Int.natCast_mul _ _

/-! ## Integer parts -/

/-- A number that is not negative is cut to its integer part. -/
theorem toInt_toInt32_of_nonneg {x : Single} (hx : x.isNaN = false) (h : 0 ≤ x.units)
    (hlt : x.units < 2 ^ 31 * unitsPerOne) : x.toInt32.toInt = x.units / unitsPerOne := by
  have hpos := unitsPerOne_pos
  have hmin : Int32.minValue.toInt = -2147483648 := rfl
  have hmax : Int32.maxValue.toInt = 2147483647 := rfl
  have hlow : 0 ≤ x.units / unitsPerOne := Int.ediv_nonneg h (by omega)
  have hhigh : x.units / unitsPerOne < 2 ^ 31 := Int.ediv_lt_of_lt_mul (by omega) hlt
  rw [toInt_toInt32, truncate, hx, Int.tdiv_eq_ediv_of_nonneg h]
  simp only [Bool.false_eq_true, if_false]
  omega

theorem truncate_of_number {x : Single} (hx : x.isNaN = false) :
    x.truncate = x.units.tdiv unitsPerOne := by
  rw [truncate, hx, if_neg Bool.false_ne_true]

/-- The numbers below a power of two stay clear of it: in the last binade before it they have a step
of 128. -/
theorem size_le_of_lt {x : Single} (h : x.size < 2147483648 * unitsPerOne) :
    x.size ≤ 2147483520 * unitsPerOne := by
  have hword : single.magnitude 0x4f000000 = 2147483648 * unitsPerOne ∧
      single.magnitude 0x4effffff = 2147483520 * unitsPerOne := by decide
  rw [← hword.1] at h
  rw [← hword.2]
  exact single.magnitude_mono (Nat.le_of_lt_succ (magnitude_lt_iff.1 h))

/-- **A number is cut to the first or last integer exactly if it is beyond them all.** -/
theorem toInt32_inside_iff (x : Single) :
    (x.toInt32 ≠ Int32.minValue ∧ x.toInt32 ≠ Int32.maxValue) ↔
      x.isNaN = true ∨ (-2147483648 < x ∧ x < 2147483648) := by
  have hmin : Int32.minValue.toInt = -2147483648 := rfl
  have hmax : Int32.maxValue.toInt = 2147483647 := rfl
  have hlow : (-2147483648 : Single).isNaN = false ∧
      (-2147483648 : Single).units = -(2147483648 * unitsPerOne : Nat) := by decide
  have hhigh : (2147483648 : Single).isNaN = false ∧
      (2147483648 : Single).units = (2147483648 * unitsPerOne : Nat) := by decide
  have hindex := x.toInt_toInt32
  rw [Ne, Ne, ← Int32.toInt_inj, ← Int32.toInt_inj]
  cases hx : x.isNaN with
  | true =>
    have hzero : x.truncate = 0 := by rw [truncate, hx, if_pos rfl]
    rw [hzero] at hindex
    simp only [true_or, iff_true]
    omega
  | false =>
    have hsize : x.truncate.natAbs = x.size / unitsPerOne := by
      rw [truncate_of_number hx, Int.natAbs_tdiv, natAbs_units, Int.natAbs_natCast]
      rfl
    have hunits := x.natAbs_units
    have hbetween : (-2147483648 < x ∧ x < 2147483648) ↔ x.size < 2147483648 * unitsPerOne := by
      simp only [lt_iff, hlow, hhigh, hx, true_and]
      omega
    rw [hbetween]
    simp only [Bool.false_eq_true, false_or]
    by_cases hlt : x.size < 2147483648 * unitsPerOne
    · have hle := size_le_of_lt hlt
      rw [Nat.mul_comm] at hle
      have := Nat.div_le_of_le_mul hle
      omega
    · have := (Nat.le_div_iff_mul_le unitsPerOne_pos).2 (Nat.le_of_not_lt hlt)
      omega

/-- **Taking the integer part away is exact.** -/
theorem sub_floor_exact {x : Single} (hx : x.isFinite = true) (h : 0 ≤ x.units)
    (hlt : x.units < 2 ^ 24 * unitsPerOne) :
    (x - ofInt (x.units / unitsPerOne)).isFinite = true ∧
      (x - ofInt (x.units / unitsPerOne)).units = x.units % unitsPerOne := by
  have hpos := unitsPerOne_pos
  have hlow : 0 ≤ x.units / unitsPerOne := Int.ediv_nonneg h (by omega)
  have hhigh : x.units / unitsPerOne < 2 ^ 24 := Int.ediv_lt_of_lt_mul (by omega) hlt
  obtain ⟨hfinite, hunits⟩ := ofInt_exact (n := x.units / unitsPerOne) (by omega)
  obtain ⟨zeroSign, hsub⟩ := sub_finite hx hfinite
  have hrest : x.units - x.units / unitsPerOne * unitsPerOne = x.units % unitsPerOne := by
    have := Int.mul_ediv_add_emod x.units unitsPerOne
    rw [Int.mul_comm] at this
    omega
  rw [hsub, hunits, hrest]
  refine ofUnits_of_represents zeroSign ?_
  have hnat : (x.units % unitsPerOne).natAbs = x.size % 2 ^ 149 := by
    rw [← natAbs_units, ← unitsPerOne_eq]
    obtain ⟨n, hn⟩ := Int.eq_ofNat_of_zero_le h
    rw [hn]
    rfl
  rw [hnat]
  exact (represents_size hx).mod_two_pow 149

end Overland.Single
