import Overland.Proofs.Binary.Nearest
import Overland.Single.Integer

/-!
# Single-precision numbers in order

An exact number of units is rounded to a number of the format.  What a proof about heights or cells
needs of that is said here once, for numbers of both signs:

* `units_ofUnits_mono` — rounding keeps the order;
* `units_ofUnits_self` — a number of the format is not changed by it;
* `ofUnits_close` — the result is not farther above the exact number than any number of the format
  is below it.

From these follow the few facts about sums and differences of heights: adding nothing negative does
not lead down (`le_add`), two numbers are the same exactly if they are at distance zero
(`distance_eq_zero`), and rounding does not turn the order of two distances around
(`distance_mono`).
-/

namespace Overland.Single

open Binary (single)

/-- A number is not above another.  A word that is no number is not comparable to anything. -/
instance : LE Single := ⟨fun a b => a.isNaN = false ∧ b.isNaN = false ∧ a.units ≤ b.units⟩

instance (a b : Single) : Decidable (a ≤ b) :=
  inferInstanceAs (Decidable (a.isNaN = false ∧ b.isNaN = false ∧ a.units ≤ b.units))

theorem le_refl {a : Single} (ha : a.isNaN = false) : a ≤ a := ⟨ha, ha, Int.le_refl _⟩

theorem le_trans {a b c : Single} (h : a ≤ b) (h' : b ≤ c) : a ≤ c :=
  ⟨h.1, h'.2.1, Int.le_trans h.2.2 h'.2.2⟩

theorem equal_iff {a b : Single} :
    a.equal b = true ↔ a.isNaN = false ∧ b.isNaN = false ∧ a.units = b.units := by
  simp [equal, and_assoc]

/-! ## The value of a word -/

theorem infinity_lt_signWord : single.infinity < signWord := by decide

theorem isNaN_ofMagnitude (negative : Bool) {word : Nat} (h : word ≤ single.infinity) :
    (ofMagnitude negative word).isNaN = false := by
  have := infinity_lt_signWord
  rw [isNaN, magnitudeWord_ofMagnitude negative (by omega)]
  simpa using h

theorem units_ofMagnitude (negative : Bool) {word : Nat} (h : word ≤ single.infinity) :
    (ofMagnitude negative word).units
      = if negative then -(single.magnitude word : Int) else single.magnitude word := by
  have := infinity_lt_signWord
  rw [units, size, isNegative_ofMagnitude negative (by omega),
    magnitudeWord_ofMagnitude negative (by omega)]

theorem magnitudeWord_le {x : Single} (h : x.isNaN = false) :
    x.magnitudeWord ≤ single.infinity := by
  simpa [isNaN] using h

theorem isNaN_of_isFinite {x : Single} (h : x.isFinite = true) : x.isNaN = false :=
  (isFinite_iff.1 h).1

/-- A word lies below another one exactly if its magnitude does. -/
theorem magnitude_lt_iff {word other : Nat} :
    single.magnitude word < single.magnitude other ↔ word < other := by
  constructor
  · intro h
    refine Nat.lt_of_not_le fun hle => ?_
    exact absurd (single.magnitude_mono hle) (by omega)
  · exact fun h => single.magnitude_lt_magnitude h

theorem magnitude_zero : single.magnitude 0 = 0 := by decide

/-- The value of a number by its sign. -/
theorem units_cases (x : Single) :
    x.units = single.magnitude x.magnitudeWord ∨ x.units = -(single.magnitude x.magnitudeWord : Int)
    := by
  rw [units, size]
  split
  · exact .inr rfl
  · exact .inl rfl

/-! ## Rounding an exact number of units -/

theorem isNaN_ofUnits (zeroSign : Bool) (n : Int) : (ofUnits zeroSign n).isNaN = false := by
  rw [ofUnits]
  split
  · exact isNaN_ofMagnitude _ (Nat.zero_le _)
  · exact isNaN_ofMagnitude _ (single.nearest_le _ _)

theorem units_ofUnits_zero (zeroSign : Bool) : (ofUnits zeroSign 0).units = 0 := by
  rw [ofUnits, if_pos rfl, units_ofMagnitude _ (Nat.zero_le _), magnitude_zero]
  split <;> rfl

theorem units_ofUnits_pos (zeroSign : Bool) {n : Int} (h : 0 < n) :
    (ofUnits zeroSign n).units = single.magnitude (single.nearest n.natAbs 1) := by
  rw [ofUnits, if_neg (by omega), round, units_ofMagnitude _ (single.nearest_le _ _)]
  rw [if_neg (by simp; omega)]

theorem units_ofUnits_neg (zeroSign : Bool) {n : Int} (h : n < 0) :
    (ofUnits zeroSign n).units = -(single.magnitude (single.nearest n.natAbs 1) : Int) := by
  rw [ofUnits, if_neg (by omega), round, units_ofMagnitude _ (single.nearest_le _ _)]
  rw [if_pos (by simpa using h)]

/-- **Rounding keeps the order.** -/
theorem units_ofUnits_mono (zeroSign zeroSign' : Bool) {n m : Int} (h : n ≤ m) :
    (ofUnits zeroSign n).units ≤ (ofUnits zeroSign' m).units := by
  have hmono : n.natAbs ≤ m.natAbs →
      single.magnitude (single.nearest n.natAbs 1) ≤ single.magnitude (single.nearest m.natAbs 1) :=
    fun hle => single.magnitude_mono
      (single.nearest_mono (by decide) Nat.one_pos Nat.one_pos (by omega))
  have hmono' : m.natAbs ≤ n.natAbs →
      single.magnitude (single.nearest m.natAbs 1) ≤ single.magnitude (single.nearest n.natAbs 1) :=
    fun hle => single.magnitude_mono
      (single.nearest_mono (by decide) Nat.one_pos Nat.one_pos (by omega))
  rcases Int.lt_trichotomy n 0 with hn | rfl | hn
  · rw [units_ofUnits_neg _ hn]
    rcases Int.lt_trichotomy m 0 with hm | rfl | hm
    · rw [units_ofUnits_neg _ hm]
      have := hmono' (by omega)
      omega
    · rw [units_ofUnits_zero]; omega
    · rw [units_ofUnits_pos _ hm]; omega
  · rw [units_ofUnits_zero]
    rcases Int.lt_or_eq_of_le h with hm | rfl
    · rw [units_ofUnits_pos _ hm]; omega
    · exact Int.le_of_eq (units_ofUnits_zero _).symm
  · rw [units_ofUnits_pos _ hn, units_ofUnits_pos _ (by omega)]
    have := hmono (by omega)
    omega

/-- **A number of the format is not changed by rounding.** -/
theorem units_ofUnits_self (zeroSign : Bool) {x : Single} (hx : x.isNaN = false) :
    (ofUnits zeroSign x.units).units = x.units := by
  have hword := magnitudeWord_le hx
  have hself := single.nearest_magnitude Nat.one_pos hword
  rw [Nat.mul_one] at hself
  rcases Int.lt_trichotomy x.units 0 with h | h | h
  · rw [units_ofUnits_neg _ h]
    have habs : x.units.natAbs = single.magnitude x.magnitudeWord := by
      rcases x.units_cases with hx | hx <;> omega
    rw [habs, hself]
    omega
  · rw [h, units_ofUnits_zero]
  · rw [units_ofUnits_pos _ h]
    have habs : x.units.natAbs = single.magnitude x.magnitudeWord := by
      rcases x.units_cases with hx | hx <;> omega
    rw [habs, hself]
    omega

/-- Rounding does not lead past a number of the format, from below. -/
theorem units_ofUnits_le (zeroSign : Bool) {n : Int} {x : Single} (hx : x.isNaN = false)
    (h : n ≤ x.units) : (ofUnits zeroSign n).units ≤ x.units := by
  rw [← units_ofUnits_self false hx]
  exact units_ofUnits_mono _ _ h

/-- Rounding does not lead past a number of the format, from above. -/
theorem le_units_ofUnits (zeroSign : Bool) {n : Int} {x : Single} (hx : x.isNaN = false)
    (h : x.units ≤ n) : x.units ≤ (ofUnits zeroSign n).units := by
  rw [← units_ofUnits_self false hx]
  exact units_ofUnits_mono _ _ h

/-- **Rounding leads to the nearest number:** the result is not farther above the exact number than
any number of the format is below it. -/
theorem ofUnits_close (zeroSign : Bool) (n : Int) {x : Single} (hx : x.isNaN = false)
    (h : x.units < (ofUnits zeroSign n).units) :
    (ofUnits zeroSign n).units + x.units ≤ 2 * n := by
  have hword := magnitudeWord_le hx
  have hzero := magnitude_zero
  rcases Int.lt_trichotomy n 0 with hn | rfl | hn
  · rw [units_ofUnits_neg _ hn] at h ⊢
    have hsign : x.units = -(single.magnitude x.magnitudeWord : Int) := by
      rcases x.units_cases with hx | hx <;> omega
    have hlt : single.nearest n.natAbs 1 < x.magnitudeWord := magnitude_lt_iff.1 (by omega)
    have := single.nearest_close_below (by decide) Nat.one_pos hlt hword
    omega
  · rw [units_ofUnits_zero] at h ⊢
    omega
  · rw [units_ofUnits_pos _ hn] at h ⊢
    by_cases hsign : x.units = single.magnitude x.magnitudeWord
    · have hlt : x.magnitudeWord < single.nearest n.natAbs 1 := magnitude_lt_iff.1 (by omega)
      have := single.nearest_close_above (by decide) Nat.one_pos hlt
      omega
    · -- a negative number is farther below than zero is
      have hsign' : x.units = -(single.magnitude x.magnitudeWord : Int) :=
        x.units_cases.resolve_left hsign
      by_cases h0 : single.nearest n.natAbs 1 = 0
      · rw [h0, hzero]; omega
      · have := single.nearest_close_above (by decide) Nat.one_pos (Nat.pos_of_ne_zero h0)
        omega

theorem units_ofUnits_opposite (zeroSign zeroSign' : Bool) (n : Int) :
    (ofUnits zeroSign (-n)).units = -(ofUnits zeroSign' n).units := by
  rcases Int.lt_trichotomy n 0 with hn | rfl | hn
  · rw [units_ofUnits_pos _ (by omega), units_ofUnits_neg _ hn, Int.natAbs_neg, Int.neg_neg]
  · rw [Int.neg_zero, units_ofUnits_zero, units_ofUnits_zero]
    rfl
  · rw [units_ofUnits_neg _ (by omega), units_ofUnits_pos _ hn, Int.natAbs_neg]

/-- Rounding keeps the order of sizes. -/
theorem natAbs_units_ofUnits_mono (zeroSign zeroSign' : Bool) {n m : Int}
    (h : n.natAbs ≤ m.natAbs) :
    (ofUnits zeroSign n).units.natAbs ≤ (ofUnits zeroSign' m).units.natAbs := by
  have hlow := units_ofUnits_mono zeroSign' zeroSign (show -(m.natAbs : Int) ≤ n by omega)
  have hhigh := units_ofUnits_mono zeroSign zeroSign' (show n ≤ (m.natAbs : Int) by omega)
  have hopposite := units_ofUnits_opposite zeroSign' zeroSign' m
  have hopposite' := units_ofUnits_opposite zeroSign' zeroSign' (m.natAbs : Int)
  rcases Int.natAbs_eq m with hm | hm
  · rw [← hm] at hlow hhigh hopposite'
    omega
  · rw [show (m.natAbs : Int) = -m by omega] at hlow hhigh hopposite'
    omega

/-! ## Finite numbers -/

theorem isFinite_iff_units {x : Single} : x.isFinite = true ↔ x.isNaN = false ∧
    -(single.magnitude single.infinity : Int) < x.units ∧
      x.units < single.magnitude single.infinity := by
  have hlt : x.isFinite = true ↔
      single.magnitude x.magnitudeWord < single.magnitude single.infinity := by
    rw [magnitude_lt_iff]
    simp [isFinite]
  constructor
  · intro h
    have := hlt.1 h
    refine ⟨isNaN_of_isFinite h, ?_⟩
    rcases x.units_cases with hx | hx <;> omega
  · rintro ⟨-, hlow, hhigh⟩
    refine hlt.2 ?_
    rcases x.units_cases with hx | hx <;> omega

theorem isFinite_neg {x : Single} (h : x.isFinite = true) : (-x).isFinite = true := by
  have hx := x.magnitudeWord_lt
  show isFinite (ofMagnitude _ _) = true
  rw [isFinite, magnitudeWord_ofMagnitude _ hx]
  exact h

theorem units_neg {x : Single} (h : x.isNaN = false) : (-x).units = -x.units := by
  show (ofMagnitude _ _).units = _
  rw [units_ofMagnitude _ (magnitudeWord_le h), units, size]
  cases x.isNegative <;> simp

theorem units_abs {x : Single} (h : x.isNaN = false) : x.abs.units = x.units.natAbs := by
  rw [abs, units_ofMagnitude _ (magnitudeWord_le h)]
  rcases x.units_cases with hx | hx <;> simp [hx]

theorem isNaN_abs {x : Single} (h : x.isNaN = false) : x.abs.isNaN = false :=
  isNaN_ofMagnitude _ (magnitudeWord_le h)

theorem sub_finite {a b : Single} (ha : a.isFinite = true) (hb : b.isFinite = true) :
    ∃ zeroSign, a - b = ofUnits zeroSign (a.units - b.units) := by
  refine ⟨a.isNegative && (-b).isNegative, ?_⟩
  rw [Int.sub_eq_add_neg, ← units_neg (isNaN_of_isFinite hb)]
  exact add_finite ha (isFinite_neg hb)

/-- A value as large as positive infinity is that. -/
theorem infinite_of_le_units {x : Single} (hx : x.isNaN = false)
    (h : single.magnitude single.infinity ≤ x.units) :
    x.isInfinite = true ∧ x.isNegative = false := by
  have hpos : 0 < single.magnitude single.infinity := by
    have := single.magnitude_lt_magnitude (show 0 < single.infinity by decide)
    omega
  have hsign : x.isNegative = false := by
    cases hneg : x.isNegative with
    | false => rfl
    | true =>
      rw [units, hneg, if_pos rfl] at h
      omega
  refine ⟨?_, hsign⟩
  cases hinf : x.isInfinite with
  | true => rfl
  | false =>
    have := (isFinite_iff_units.1 (isFinite_iff.2 ⟨hx, hinf⟩)).2.2
    omega

theorem isNaN_of_isInfinite {x : Single} (h : x.isInfinite = true) : x.isNaN = false := by
  simp only [isInfinite, decide_eq_true_eq] at h
  simp [isNaN, h]

/-- Infinities of the same sign have no difference. -/
theorem isNaN_sub_infinite {a b : Single} (ha : a.isInfinite = true) (hb : b.isInfinite = true)
    (hsign : a.isNegative = b.isNegative) : (a - b).isNaN = true := by
  have hneg : b.neg.isInfinite = true := by
    rw [isInfinite, neg, magnitudeWord_ofMagnitude _ b.magnitudeWord_lt]
    simpa [isInfinite] using hb
  have hflip : b.neg.isNegative = !b.isNegative :=
    isNegative_ofMagnitude _ b.magnitudeWord_lt
  have hnan : nan.isNaN = true := by decide
  show (a.add b.neg).isNaN = true
  simp [add, isNaN_of_isInfinite ha, isNaN_of_isInfinite hneg, ha, hneg, hsign, hflip, hnan]

/-- An infinity stays what it is whatever finite is added. -/
theorem add_of_isInfinite {a b : Single} (ha : a.isInfinite = true) (hb : b.isFinite = true) :
    a + b = a := by
  obtain ⟨hnan, hinf⟩ := isFinite_iff.1 hb
  show a.add b = a
  simp [add, isNaN_of_isInfinite ha, hnan, ha, hinf]

/-! ## Sums and distances -/

/-- Adding nothing negative does not lead down. -/
theorem le_add {a b : Single} (ha : a.isFinite = true) (hb : b.isFinite = true)
    (h : 0 ≤ b.units) : a ≤ a + b := by
  have hnan := isNaN_of_isFinite ha
  rw [add_finite ha hb]
  exact ⟨hnan, isNaN_ofUnits _ _, le_units_ofUnits _ hnan (by omega)⟩

/-- A sum is not farther up than twice what is added. -/
theorem units_add_le {a b : Single} (ha : a.isFinite = true) (hb : b.isFinite = true)
    (h : 0 ≤ b.units) : (a + b).units ≤ a.units + 2 * b.units := by
  rcases Int.lt_or_eq_of_le (le_add ha hb h).2.2 with hlt | heq
  · rw [add_finite ha hb] at hlt ⊢
    have := ofUnits_close _ _ (isNaN_of_isFinite ha) hlt
    omega
  · omega

/-- Adding a number that is small beside the largest ones does not lead to infinity. -/
theorem isFinite_add {a b : Single} (ha : a.isFinite = true) (hb : b.isFinite = true)
    (h : 0 ≤ b.units) (hsmall : 2 * b.units + single.magnitude (single.infinity - 1)
      < single.magnitude single.infinity) : (a + b).isFinite = true := by
  have hle := le_add ha hb h
  have hup := units_add_le ha hb h
  obtain ⟨-, hlow, -⟩ := isFinite_iff_units.1 ha
  have hword : a.magnitudeWord < single.infinity := by simpa [isFinite] using ha
  have hmono := single.magnitude_mono (show a.magnitudeWord ≤ single.infinity - 1 by omega)
  refine isFinite_iff_units.2 ⟨hle.2.1, by have := hle.2.2; omega, ?_⟩
  rcases a.units_cases with hx | hx <;> omega

/-- A difference is not above a number that the exact difference is not above. -/
theorem sub_le {a b c : Single} (ha : a.isFinite = true) (hb : b.isFinite = true)
    (hc : c.isNaN = false) (h : a.units - b.units ≤ c.units) : a - b ≤ c := by
  obtain ⟨zeroSign, hsub⟩ := sub_finite ha hb
  rw [hsub]
  exact ⟨isNaN_ofUnits _ _, hc, units_ofUnits_le _ hc h⟩

/-- The way back from a sum is not longer than twice what was added. -/
theorem add_sub_le {a b c : Single} (ha : a.isFinite = true) (hb : b.isFinite = true)
    (h : 0 ≤ b.units) (hsum : (a + b).isFinite = true) (hc : c.isNaN = false)
    (hlong : 2 * b.units ≤ c.units) : a + b - a ≤ c := by
  have hup := units_add_le ha hb h
  exact sub_le hsum ha hc (by omega)

/-- **Rounding does not turn the order of two distances around.** -/
theorem distance_mono {a b c : Single} (ha : a.isFinite = true) (hb : b.isFinite = true)
    (hc : c.isFinite = true) (h : (a.units - c.units).natAbs ≤ (b.units - c.units).natAbs) :
    (a - c).abs ≤ (b - c).abs := by
  obtain ⟨zeroSign, ha⟩ := sub_finite ha hc
  obtain ⟨zeroSign', hb⟩ := sub_finite hb hc
  have hnan := isNaN_ofUnits zeroSign (a.units - c.units)
  have hnan' := isNaN_ofUnits zeroSign' (b.units - c.units)
  rw [ha, hb]
  refine ⟨isNaN_abs hnan, isNaN_abs hnan', ?_⟩
  rw [units_abs hnan, units_abs hnan']
  exact_mod_cast natAbs_units_ofUnits_mono zeroSign zeroSign' h

/-- Two numbers are at distance zero exactly if they are the same. -/
theorem distance_eq_zero {a b : Single} (ha : a.isFinite = true) (hb : b.isFinite = true) :
    (a - b).abs.isNaN = false ∧ 0 ≤ (a - b).abs.units ∧
      ((a - b).abs.units = 0 ↔ a.units = b.units) := by
  obtain ⟨zeroSign, hsub⟩ := sub_finite ha hb
  have hone : (⟨1⟩ : Single).units = 1 := by decide
  have hminus : (⟨0x80000001⟩ : Single).units = -1 := by decide
  have hup := fun n => le_units_ofUnits (x := ⟨1⟩) zeroSign (n := n) (by decide)
  have hdown := fun n => units_ofUnits_le (x := ⟨0x80000001⟩) zeroSign (n := n) (by decide)
  rw [hsub]
  refine ⟨isNaN_abs (isNaN_ofUnits _ _), ?_, ?_⟩
  · rw [units_abs (isNaN_ofUnits _ _)]; omega
  · rw [units_abs (isNaN_ofUnits _ _)]
    constructor
    · intro h
      -- a difference of a unit or more is not rounded away
      rcases Int.lt_trichotomy (a.units - b.units) 0 with hlt | heq | hlt
      · have := hdown (a.units - b.units) (by rw [hminus]; omega)
        omega
      · omega
      · have := hup (a.units - b.units) (by rw [hone]; omega)
        omega
    · intro h
      rw [h, Int.sub_self, units_ofUnits_zero]
      rfl

end Overland.Single
