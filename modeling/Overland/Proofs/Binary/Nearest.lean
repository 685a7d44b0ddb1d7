import Overland.Binary.Format

/-!
# Rounding to the nearest word

`lt_nearest_iff` says exactly when the word nearest to a quotient lies above a given word: when the
quotient is past the middle between that word and the next, or in the middle and the word is odd.
All else about rounding is read off it:

* `nearest_mono` — rounding keeps the order of quotients;
* `nearest_close_above`, `nearest_close_below` — no word is closer to a quotient than the one it is
  rounded to.
-/

namespace Overland.Binary.Format

variable (f : Format)

/-! ## The word that a quotient is cut to -/

/-- A significand on the grid of its binade, also one that carries into the next binade. -/
theorem magnitude_grid {shift significand : Nat} (hlow : shift = 0 ∨ f.leading ≤ significand)
    (hhigh : significand ≤ 2 * f.leading) :
    f.magnitude (shift * f.leading + significand) = significand <<< shift := by
  have hp := f.leading_pos
  rw [Nat.shiftLeft_eq]
  by_cases hlt : significand < f.leading
  · have hs : shift = 0 := hlow.resolve_right (by omega)
    subst hs
    rw [Nat.zero_mul, Nat.zero_add, f.magnitude_of_lt hlt, Nat.pow_zero, Nat.mul_one]
  · by_cases hcarry : significand = 2 * f.leading
    · have hw : shift * f.leading + significand = (shift + 1 + 1) * f.leading + 0 := by
        rw [hcarry, Nat.add_mul, Nat.add_mul]; omega
      rw [hw, f.magnitude_field _ 0 hp, Nat.shiftLeft_eq, Nat.add_zero, Nat.pow_succ, hcarry]
      rw [Nat.mul_comm 2, Nat.mul_assoc, Nat.mul_comm 2]
    · have hw : shift * f.leading + significand
          = (shift + 1) * f.leading + (significand - f.leading) := by
        rw [Nat.add_mul]; omega
      rw [hw, f.magnitude_field _ _ (by omega), Nat.shiftLeft_eq]
      congr 1
      omega

theorem magnitude_mono {word other : Nat} (h : word ≤ other) :
    f.magnitude word ≤ f.magnitude other := by
  rcases Nat.lt_or_eq_of_le h with h | rfl
  · exact Nat.le_of_lt (f.magnitude_lt_magnitude h)
  · exact Nat.le_refl _

/-- A quotient cut to its grid: the significand fits its binade, and the quotient lies between the
significand and the next on the grid. -/
theorem cut_spec (num den : Nat) :
    ∃ shift significand, shift = (num / den).log2 - f.fraction ∧
      significand = num / (den <<< shift) ∧
      (shift = 0 ∨ f.leading ≤ significand) ∧ significand < 2 * f.leading := by
  have hlead : f.leading = 2 ^ f.fraction := Nat.one_shiftLeft _
  refine ⟨_, _, rfl, rfl, ?_⟩
  rw [Nat.shiftLeft_eq, ← Nat.div_div_eq_div_mul, hlead]
  generalize num / den = quotient
  by_cases h0 : quotient = 0
  · subst h0
    have hpos := Nat.two_pow_pos f.fraction
    refine ⟨.inl ?_, ?_⟩
    · rw [Nat.log2_zero, Nat.zero_sub]
    · rw [Nat.zero_div]
      omega
  · have hlt : quotient < 2 ^ (quotient.log2 + 1) := Nat.lt_log2_self
    have hle : 2 ^ quotient.log2 ≤ quotient := Nat.log2_self_le h0
    generalize quotient.log2 = top at hlt hle
    constructor
    · by_cases hs : top ≤ f.fraction
      · exact .inl (by omega)
      · right
        rw [Nat.le_div_iff_mul_le (Nat.two_pow_pos _), ← Nat.pow_add]
        have : f.fraction + (top - f.fraction) = top := by omega
        rwa [this]
    · rw [Nat.div_lt_iff_lt_mul (Nat.two_pow_pos _), ← Nat.pow_succ', ← Nat.pow_add]
      exact Nat.lt_of_lt_of_le hlt (Nat.pow_le_pow_right (by decide) (by omega))

/-! ## When a word lies below the nearest one -/

/-- **The rounding rule.**  The word nearest to a quotient lies above a word exactly if the quotient
is past the middle between that word and the next, or in the middle and the word is odd. -/
theorem lt_nearest_iff (hf : 0 < f.fraction) (num : Nat) {den word : Nat} (hden : 0 < den)
    (hword : word < f.infinity) :
    word < f.nearest num den ↔
      (f.magnitude word + f.magnitude (word + 1)) * den < 2 * num ∨
        (f.magnitude word + f.magnitude (word + 1)) * den = 2 * num ∧ word % 2 = 1 := by
  obtain ⟨shift, q, hshift, hq, hlow, hhigh⟩ := f.cut_spec num den
  rw [Nat.shiftLeft_eq] at hq
  have hgrid : 0 < den * 2 ^ shift := Nat.mul_pos hden (Nat.two_pow_pos _)
  have hnum := Nat.div_add_mod num (den * 2 ^ shift)
  have hrest := Nat.mod_lt num hgrid
  rw [← hq] at hnum
  -- the words that the quotient lies between, and their magnitudes
  have hbase : f.magnitude (shift * f.leading + q) * den = q * (den * 2 ^ shift) := by
    rw [f.magnitude_grid hlow (by omega), Nat.shiftLeft_eq, Nat.mul_assoc,
      Nat.mul_comm (2 ^ shift)]
  have hnext : f.magnitude (shift * f.leading + q + 1) * den
      = q * (den * 2 ^ shift) + den * 2 ^ shift := by
    rw [Nat.add_assoc, f.magnitude_grid (by omega) (by omega), Nat.shiftLeft_eq, Nat.mul_assoc,
      Nat.mul_comm (2 ^ shift), Nat.succ_mul]
  have hodd : (shift * f.leading + q) % 2 = q % 2 := by
    obtain ⟨k, hk⟩ : ∃ k, f.leading = 2 * k := by
      rw [leading, Nat.one_shiftLeft]
      exact ⟨2 ^ (f.fraction - 1), by rw [← Nat.pow_succ']; congr 1; omega⟩
    rw [hk, Nat.mul_left_comm]
    omega
  rw [nearest, ← hshift, Nat.shiftLeft_eq, ← hq, Nat.lt_min]
  simp only [hword, and_true]
  rw [Nat.mul_comm (den * 2 ^ shift)] at hnum
  generalize hbaseWord : shift * f.leading + q = base at *
  rw [← Nat.add_assoc, hbaseWord, Nat.add_mul]
  generalize den * 2 ^ shift = grid at *
  generalize num % grid = rest at *
  generalize q * grid = cut at *
  rcases Nat.lt_trichotomy word base with h | rfl | h
  · have h1 : f.magnitude word * den < cut := by
      rw [← hbase]; exact Nat.mul_lt_mul_of_pos_right (f.magnitude_lt_magnitude h) hden
    have h2 : f.magnitude (word + 1) * den ≤ cut := by
      rw [← hbase]; exact Nat.mul_le_mul_right _ (f.magnitude_mono h)
    constructor
    · intro _; left; omega
    · intro _; omega
  · rw [hbase, hnext]
    split <;> omega
  · have h1 : cut + grid ≤ f.magnitude word * den := by
      rw [← hnext]; exact Nat.mul_le_mul_right _ (f.magnitude_mono h)
    have h2 : f.magnitude word * den < f.magnitude (word + 1) * den :=
      Nat.mul_lt_mul_of_pos_right (f.magnitude_lt_succ word) hden
    constructor
    · intro hlt
      split at hlt <;> omega
    · rintro (hlt | ⟨heq, _⟩) <;> omega

theorem nearest_le (num den : Nat) : f.nearest num den ≤ f.infinity := Nat.min_le_right _ _

/-! ## What follows -/

/-- **Rounding keeps the order of quotients.** -/
theorem nearest_mono (hf : 0 < f.fraction) {num den num' den' : Nat} (hden : 0 < den)
    (hden' : 0 < den') (h : num * den' ≤ num' * den) :
    f.nearest num den ≤ f.nearest num' den' := by
  refine Nat.le_of_not_lt fun hlt => ?_
  generalize hw : f.nearest num' den' = word at hlt
  have hword : word < f.infinity := Nat.lt_of_lt_of_le hlt (f.nearest_le _ _)
  have hnot := mt (f.lt_nearest_iff hf num' hden' hword).2 (by rw [hw]; omega)
  have hmid := (f.lt_nearest_iff hf num hden hword).1 hlt
  generalize f.magnitude word + f.magnitude (word + 1) = middle at hnot hmid
  -- both conditions on the one denominator
  have hle : 2 * num * den' ≤ 2 * num' * den := by
    rw [Nat.mul_assoc, Nat.mul_assoc]; exact Nat.mul_le_mul_left 2 h
  have hcross : middle * den * den' = middle * den' * den := Nat.mul_right_comm _ _ _
  apply hnot
  rcases hmid with hmid | ⟨hmid, hodd⟩
  · have := Nat.mul_lt_mul_of_pos_right hmid hden'
    exact .inl (Nat.lt_of_mul_lt_mul_right (a := den) (by omega))
  · have : middle * den * den' = 2 * num * den' := by rw [hmid]
    rcases Nat.lt_or_eq_of_le hle with h' | h'
    · exact .inl (Nat.lt_of_mul_lt_mul_right (a := den) (by omega))
    · exact .inr ⟨Nat.eq_of_mul_eq_mul_right hden (by omega), hodd⟩

/-- The nearest word is not more above a quotient than any word is below it. -/
theorem nearest_close_above (hf : 0 < f.fraction) {num den word : Nat} (hden : 0 < den)
    (h : word < f.nearest num den) :
    (f.magnitude (f.nearest num den) + f.magnitude word) * den ≤ 2 * num := by
  obtain ⟨below, hbelow⟩ : ∃ below, f.nearest num den = below + 1 :=
    ⟨f.nearest num den - 1, by omega⟩
  have hinf := f.nearest_le num den
  have hmid := (f.lt_nearest_iff hf num hden (show below < f.infinity by omega)).1 (by omega)
  have hmono := Nat.mul_le_mul_right den (f.magnitude_mono (show word ≤ below by omega))
  rw [hbelow, Nat.add_mul]
  rw [Nat.add_mul] at hmid
  omega

/-- The nearest word is not more below a quotient than any word is above it. -/
theorem nearest_close_below (hf : 0 < f.fraction) {num den word : Nat} (hden : 0 < den)
    (h : f.nearest num den < word) (hword : word ≤ f.infinity) :
    2 * num ≤ (f.magnitude (f.nearest num den) + f.magnitude word) * den := by
  have hmid := mt (f.lt_nearest_iff hf num hden
    (show f.nearest num den < f.infinity by omega)).2 (Nat.lt_irrefl _)
  have hmono := Nat.mul_le_mul_right den
    (f.magnitude_mono (show f.nearest num den + 1 ≤ word by omega))
  rw [Nat.add_mul] at hmid ⊢
  omega

end Overland.Binary.Format
