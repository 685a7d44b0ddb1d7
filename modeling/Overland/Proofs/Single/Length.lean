import Mathlib.Algebra.Order.Floor.Ring
import Overland.Position
import Overland.Proofs.Single.Rounded
import Overland.Route

/-!
# Lengths and whole steps

The length of an offset is a number unless a coordinate of it is none (`isNaN_length_iff`): squares
are not negative, so no two infinities cancel on the way to it.  How many whole steps go into a
length is the integer part of an exact quotient (`wholeCount_div_stepLength`), although the quotient
itself is rounded and the count is held inside 64 bits.
-/

namespace Overland.Single

open Binary (single)

/-! ## Words that are no number -/

theorem isNaN_nan : nan.isNaN = true := by decide

theorem isNaN_add {a b : Single} (h : a.isNaN = true ∨ b.isNaN = true) : (a + b).isNaN = true := by
  show (a.add b).isNaN = true
  rcases h with h | h <;> simp [add, h, isNaN_nan]

theorem isNaN_mul {a b : Single} (h : a.isNaN = true ∨ b.isNaN = true) : (a * b).isNaN = true := by
  show (a.mul b).isNaN = true
  rcases h with h | h <;> simp [mul, h, isNaN_nan]

theorem isNaN_div {a : Single} (h : a.isNaN = true) (b : Single) : (a / b).isNaN = true := by
  show (a.div b).isNaN = true
  simp [div, h, isNaN_nan]

theorem isNaN_sqrt {a : Single} (h : a.isNaN = true) : a.sqrt.isNaN = true := by
  simp [sqrt, h]

/-! ## Numbers that are not negative -/

/-- A number without the sign bit, infinity included. -/
structure Unsigned (x : Single) : Prop where
  isNaN : x.isNaN = false
  isNegative : x.isNegative = false

theorem unsigned_ofMagnitude {word : Nat} (h : word ≤ single.infinity) :
    (ofMagnitude false word).Unsigned :=
  ⟨isNaN_ofMagnitude false h,
    isNegative_ofMagnitude false (Nat.lt_of_le_of_lt h infinity_lt_signWord)⟩

theorem unsigned_round (num den : Nat) : (round false num den).Unsigned :=
  unsigned_ofMagnitude (single.nearest_le num den)

theorem size_of_isInfinite {a : Single} (h : a.isInfinite = true) : a.size ≠ 0 := by
  have hinfinity := lt_magnitude_infinity
  rw [size, show a.magnitudeWord = single.infinity by simpa [isInfinite] using h]
  omega

theorem unsigned_mul_self {a : Single} (h : a.isNaN = false) : (a * a).Unsigned := by
  show (a.mul a).Unsigned
  cases hinf : a.isInfinite with
  | true =>
    have hsize := size_of_isInfinite hinf
    simpa [mul, h, hinf, hsize] using unsigned_ofMagnitude (Nat.le_refl _)
  | false => simpa [mul, h, hinf] using unsigned_round (a.size * a.size) unitsPerOne

theorem Unsigned.add {a b : Single} (ha : a.Unsigned) (hb : b.Unsigned) : (a + b).Unsigned := by
  show (a.add b).Unsigned
  cases hainf : a.isInfinite with
  | true => simpa [Single.add, ha.isNaN, hb.isNaN, ha.isNegative, hb.isNegative, hainf] using ha
  | false =>
    cases hbinf : b.isInfinite with
    | true => simpa [Single.add, ha.isNaN, hb.isNaN, hainf, hbinf] using hb
    | false =>
      have hsum : (a.units + b.units) = (a.size + b.size : Nat) := by
        simp [units, ha.isNegative, hb.isNegative]
      simp only [Single.add, ha.isNaN, hb.isNaN, ha.isNegative, hb.isNegative, hainf, hbinf,
        Bool.or_self, Bool.and_self, Bool.false_eq_true, if_false, hsum, ofUnits]
      split
      · exact unsigned_ofMagnitude (Nat.zero_le _)
      · rw [decide_eq_false (by omega)]
        exact unsigned_round _ _

theorem Unsigned.isNaN_sqrt {a : Single} (h : a.Unsigned) : a.sqrt.isNaN = false := by
  rw [sqrt, h.isNaN, h.isNegative]
  split
  · exact h.isNaN
  · split
    · contradiction
    · split
      · exact h.isNaN
      · exact (unsigned_round _ _).isNaN

/-- **A length is a number unless a coordinate is none.** -/
theorem isNaN_length_iff (a : Position) :
    a.length.isNaN = true ↔ a.x.isNaN = true ∨ a.y.isNaN = true ∨ a.z.isNaN = true := by
  constructor
  · intro h
    by_contra hnumbers
    obtain ⟨hx, hy, hz⟩ : a.x.isNaN = false ∧ a.y.isNaN = false ∧ a.z.isNaN = false := by
      simpa [not_or] using hnumbers
    have hsquares := ((unsigned_mul_self hx).add (unsigned_mul_self hy)).add (unsigned_mul_self hz)
    exact absurd h (by simpa [Vector3.length, LengthOps.sqrt] using hsquares.isNaN_sqrt)
  · intro h
    refine isNaN_sqrt (isNaN_add ?_)
    rcases h with h | h | h
    · exact .inl (isNaN_add (.inl (isNaN_mul (.inl h))))
    · exact .inl (isNaN_add (.inr (isNaN_mul (.inl h))))
    · exact .inr (isNaN_mul (.inl h))

/-! ## Whole parts -/

/-- A number that is not positive has nothing whole in it. -/
theorem natFloor_value_of_nonpos {x : Single} (h : x.units ≤ 0) : ⌊x.value⌋₊ = 0 := by
  refine Nat.floor_of_nonpos ?_
  rw [value]
  exact div_nonpos_of_nonpos_of_nonneg (by exact_mod_cast h) unitsPerOne_cast_pos.le

theorem natFloor_value {x : Single} : ⌊x.value⌋₊ = (x.units / unitsPerOne).toNat := by
  rw [← Int.floor_toNat, floor_value]

theorem toCount_of_number {x : Single} (hx : x.isNaN = false) :
    x.toCount = min (UInt64.size - 1) ⌊x.value⌋₊ := by
  have hpos := unitsPerOne_pos
  rw [toCount, truncate_of_number hx, natFloor_value]
  rcases Int.le_total 0 x.units with h | h
  · rw [Int.tdiv_eq_ediv_of_nonneg h]
  · have hcut : 0 ≤ (-x.units).tdiv unitsPerOne := Int.tdiv_nonneg (by omega) (by omega)
    rw [Int.neg_tdiv] at hcut
    have hfloor : x.units / unitsPerOne ≤ 0 := Int.ediv_nonpos_of_nonpos_of_neg h (by omega)
    omega

/-- A number without its fraction has the same whole part. -/
theorem natFloor_value_floor {x : Single} (hx : x.isFinite = true) :
    x.floor.isNaN = false ∧ ⌊x.floor.value⌋₊ = ⌊x.value⌋₊ := by
  have hpos := unitsPerOne_pos
  obtain ⟨hnan, hinf⟩ := isFinite_iff.1 hx
  have hfloor : x.floor = ofUnits x.isNegative (x.units / unitsPerOne * unitsPerOne) := by
    rw [floor, hnan, hinf, Int.fdiv_eq_ediv_of_nonneg _ (by omega)]
    rfl
  rw [hfloor]
  refine ⟨isNaN_ofUnits _ _, ?_⟩
  rcases Int.le_total 0 x.units with h | h
  · have hnat : (x.units / unitsPerOne * unitsPerOne).natAbs = x.size / 2 ^ 149 * 2 ^ 149 := by
      rw [← natAbs_units, ← unitsPerOne_eq]
      obtain ⟨n, hn⟩ := Int.eq_ofNat_of_zero_le h
      rw [hn]
      rfl
    have hexact := ofUnits_of_represents x.isNegative
      (hnat ▸ (represents_size hx).div_mul_two_pow 149)
    rw [natFloor_value, natFloor_value, hexact.2, Int.mul_ediv_cancel _ (by omega)]
  · have hcut : x.units / unitsPerOne * unitsPerOne ≤ 0 :=
      Int.mul_nonpos_of_nonpos_of_nonneg
        (Int.ediv_nonpos_of_nonpos_of_neg h (by omega)) (by omega)
    have hunits := units_ofUnits_mono x.isNegative false hcut
    rw [units_ofUnits_zero] at hunits
    rw [natFloor_value_of_nonpos hunits, natFloor_value_of_nonpos h]

theorem toCount_floor_of_isNaN {x : Single} (hx : x.isNaN = true) : x.floor.toCount = 0 := by
  have hself : x.floor = x := by rw [floor, hx]; rfl
  rw [hself, toCount, truncate, hx, if_pos rfl, Int.toNat_zero, Nat.min_zero]

/-- **The whole part as a count** is held inside 64 bits. -/
theorem toCount_floor {x : Single} (hx : x.isNaN = false) :
    x.floor.toCount = min (UInt64.size - 1) ⌊x.value⌋₊ := by
  cases hinf : x.isInfinite with
  | true =>
    have hself : x.floor = x := by rw [floor, hx, hinf]; rfl
    rw [hself, toCount_of_number hx]
  | false =>
    obtain ⟨hnan, hsame⟩ := natFloor_value_floor (isFinite_iff.2 ⟨hx, hinf⟩)
    rw [toCount_of_number hnan, hsame]

/-! ## Steps in a length -/

theorem stepLength_eq : stepLength.isFinite = true ∧ stepLength.isInfinite = false ∧
    stepLength.isNegative = false ∧ stepLength.size = 4 * unitsPerOne := by decide

theorem value_stepLength : stepLength.value = 4 := by
  have hunits : stepLength.units = (4 : Int) * unitsPerOne := by decide
  exact_mod_cast value_eq_iff.2 hunits

/-- A number that is large for its significand has a quarter in the format. -/
theorem exists_quarter {x : Single} (hx : x.isFinite = true)
    (hlarge : single.leading * 2 ^ 2 ≤ x.size) :
    ∃ y : Single, y.isFinite = true ∧ y.value = x.value / 4 := by
  -- the last two bits of the significand stand for whole units
  obtain ⟨quarter, hquarter⟩ := (represents_size hx).dvd hlarge
  have hunits := x.natAbs_units
  have hsame : (x.units / 4).natAbs * 2 ^ 2 = x.size := by omega
  obtain ⟨hfinite, hvalue⟩ :=
    ofUnits_of_represents false (hsame ▸ represents_size hx).of_mul_two_pow
  refine ⟨_, hfinite, ?_⟩
  have hexact : x.units = x.units / 4 * 4 := by omega
  rw [value, value, hvalue, hexact, Int.mul_ediv_cancel _ (by decide)]
  push_cast
  ring

/-- A finite number divided by the length of a step is its exact quarter, or both are less than
one. -/
theorem div_stepLength {x : Single} (hx : x.isFinite = true) :
    (x / stepLength).isNaN = false ∧ ((x / stepLength).value = x.value / 4 ∨
      (x / stepLength).value < 1 ∧ x.value / 4 < 1) := by
  obtain ⟨hfinite, -, -, hsize⟩ := stepLength_eq
  have hpos := unitsPerOne_pos
  have hround := rounds_div hx hfinite (by omega)
  rw [value_stepLength] at hround
  refine ⟨hround.isNaN, ?_⟩
  by_cases hlarge : single.leading * 2 ^ 2 ≤ x.size
  · obtain ⟨y, hy, hquarter⟩ := exists_quarter hx hlarge
    exact .inl (hround.exact_of hy hquarter).2
  · have hlead := leading_eq
    have hone := unitsPerOne_eq
    have hunits := x.natAbs_units
    have hlow : ((-1 : Int) : ℚ) ≤ x.value := le_value_iff.2 (by omega)
    have hhigh : x.value ≤ (1 : Int) := value_le_iff.2 (by omega)
    push_cast at hlow hhigh
    obtain ⟨-, -, hhalf⟩ := hround.between (n := -1) (m := 1) (k := 1) (by decide) (by decide)
      (by decide) (by push_cast; linarith) (by push_cast; linarith)
    push_cast at hhalf
    exact .inr ⟨by linarith, by linarith⟩

/-- An infinity divided by the length of a step is that infinity. -/
theorem units_div_of_isInfinite {x : Single} (h : x.isInfinite = true) :
    (x / stepLength).isNaN = false ∧ (x / stepLength).units = x.units := by
  obtain ⟨hfinite, hinf, hsign, -⟩ := stepLength_eq
  have hword : x.magnitudeWord = single.infinity := by simpa [isInfinite] using h
  have hdiv : x / stepLength = ofMagnitude x.isNegative single.infinity := by
    show x.div stepLength = _
    simp [div, isNaN_of_isInfinite h, isNaN_of_isFinite hfinite, h, hinf, hsign]
  rw [hdiv, ← hword, ofMagnitude_self]
  exact ⟨isNaN_of_isInfinite h, rfl⟩

/-- An infinity has more whole steps in it than can be counted, or none. -/
theorem natFloor_of_isInfinite {x : Single} (h : x.isInfinite = true) :
    min (UInt64.size - 1) ⌊x.value⌋₊ = min (UInt64.size - 1) ⌊x.value / 4⌋₊ := by
  have hpos := unitsPerOne_cast_pos
  have hsize : x.size = 2 ^ 128 * unitsPerOne := by
    rw [size, show x.magnitudeWord = single.infinity by simpa [isInfinite] using h]
    decide
  have hvalue : x.value = 2 ^ 128 ∨ x.value = -2 ^ 128 := by
    rw [value, units, hsize]
    split
    · right
      field_simp
      push_cast
      ring
    · left
      field_simp
      push_cast
      ring
  rcases hvalue with hvalue | hvalue
  · rw [Nat.min_eq_left (Nat.le_floor (by rw [hvalue]; norm_num [UInt64.size])),
      Nat.min_eq_left (Nat.le_floor (by rw [hvalue]; norm_num [UInt64.size]))]
  · rw [Nat.floor_of_nonpos (by rw [hvalue]; norm_num),
      Nat.floor_of_nonpos (by rw [hvalue]; norm_num)]

/-- **How many whole steps go into a length**: the integer part of the exact quotient, held inside
64 bits; none if the length is no number. -/
theorem wholeCount_div_stepLength (x : Single) :
    LengthOps.wholeCount (x / stepLength)
      = if x.isNaN then 0 else min (UInt64.size - 1) ⌊x.value / 4⌋₊ := by
  show (x / stepLength).floor.toCount = _
  cases hx : x.isNaN with
  | true =>
    rw [toCount_floor_of_isNaN (isNaN_div hx stepLength), if_pos rfl]
  | false =>
    rw [if_neg Bool.false_ne_true]
    cases hinf : x.isInfinite with
    | true =>
      obtain ⟨hnan, hunits⟩ := units_div_of_isInfinite hinf
      have hvalue : (x / stepLength).value = x.value := by rw [value, value, hunits]
      rw [toCount_floor hnan, hvalue, natFloor_of_isInfinite hinf]
    | false =>
      obtain ⟨hnan, hquarter | ⟨hlt, hlt'⟩⟩ := div_stepLength (isFinite_iff.2 ⟨hx, hinf⟩)
      · rw [toCount_floor hnan, hquarter]
      · rw [toCount_floor hnan, Nat.floor_eq_zero.2 hlt, Nat.floor_eq_zero.2 hlt']

end Overland.Single
