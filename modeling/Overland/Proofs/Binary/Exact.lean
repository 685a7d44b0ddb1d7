import Mathlib.Algebra.Group.Nat.Defs
import Overland.Proofs.Binary.Nearest

/-!
# Quotients that need no rounding

A number of units is in a format if some finite word has it (`Represents`).  Such a number is a
significand shifted to a grid, and any shifted significand that is not too large is one
(`exists_shift`, `represents_shift`).  What follows is all that exact arithmetic needs:

* `nearest_of_represents` — a number in the format is its own rounding;
* `Represents.mul_two_pow`, `Represents.mod_two_pow`, `Represents.div_mul_two_pow` — scaling by a
  power of two, what is left after whole multiples of one, and these multiples stay in the format;
* `Represents.dvd`, `represents_of_dvd` — large numbers of the format lie on a coarse grid, and
  small ones on that grid are in the format.
-/

namespace Overland.Binary.Format

variable (f : Format)

/-- Some finite word has this number of units. -/
def Represents (n : Nat) : Prop := ∃ word < f.infinity, f.magnitude word = n

variable {f} {n : Nat}

/-- A word below the value of infinity is finite. -/
theorem lt_infinity_of_magnitude {word : Nat} (h : f.magnitude word < f.magnitude f.infinity) :
    word < f.infinity :=
  Nat.lt_of_not_le fun hle => absurd (f.magnitude_mono hle) (by omega)

theorem Represents.lt (h : f.Represents n) : n < f.magnitude f.infinity := by
  obtain ⟨word, hword, rfl⟩ := h
  exact f.magnitude_lt_magnitude hword

/-- A number of the format is a significand on some grid. -/
theorem Represents.exists_shift (h : f.Represents n) :
    ∃ significand shift, significand < 2 * f.leading ∧ n = significand * 2 ^ shift := by
  obtain ⟨word, -, rfl⟩ := h
  have hp := f.leading_pos
  rcases f.word_cases word with hlt | ⟨e, s, hs, rfl⟩
  · exact ⟨word, 0, by omega, by rw [f.magnitude_of_lt hlt, Nat.pow_zero, Nat.mul_one]⟩
  · exact ⟨f.leading + s, e, by omega, by rw [f.magnitude_field e s hs, Nat.shiftLeft_eq]⟩

/-- A significand that fills its grid is in the format, unless it is as large as infinity. -/
theorem represents_grid {significand shift : Nat} (hlow : shift = 0 ∨ f.leading ≤ significand)
    (hfits : significand ≤ 2 * f.leading)
    (hlt : significand * 2 ^ shift < f.magnitude f.infinity) :
    f.Represents (significand * 2 ^ shift) := by
  have hvalue := f.magnitude_grid hlow hfits
  rw [Nat.shiftLeft_eq] at hvalue
  exact ⟨_, lt_infinity_of_magnitude (by rwa [hvalue]), hvalue⟩

/-- A significand on any grid is in the format, unless it is as large as infinity. -/
theorem represents_shift {significand shift : Nat} (hfits : significand ≤ 2 * f.leading)
    (hlt : significand * 2 ^ shift < f.magnitude f.infinity) :
    f.Represents (significand * 2 ^ shift) := by
  induction shift generalizing significand with
  | zero => exact represents_grid (.inl rfl) hfits hlt
  | succ shift ih =>
    by_cases hsmall : significand < f.leading
    · -- it leaves room on this grid, so it stands on the next finer one
      have hdouble : significand * 2 ^ (shift + 1) = 2 * significand * 2 ^ shift := by
        rw [Nat.pow_succ, Nat.mul_comm (2 ^ shift), ← Nat.mul_assoc, Nat.mul_comm significand]
      rw [hdouble] at hlt ⊢
      exact ih (by omega) hlt
    · exact represents_grid (.inr (by omega)) hfits hlt

/-- A significand by itself is in the format. -/
theorem represents_of_le (hfits : n ≤ 2 * f.leading) (hlt : n < f.magnitude f.infinity) :
    f.Represents n := by
  have hgrid : f.Represents (n * 2 ^ 0) :=
    represents_shift hfits (by rwa [Nat.pow_zero, Nat.mul_one])
  rwa [Nat.pow_zero, Nat.mul_one] at hgrid

/-- **A number of the format is its own rounding.** -/
theorem nearest_of_represents {den : Nat} (hden : 0 < den) (h : f.Represents n) :
    f.nearest (n * den) den < f.infinity ∧ f.magnitude (f.nearest (n * den) den) = n := by
  obtain ⟨word, hword, rfl⟩ := h
  rw [f.nearest_magnitude hden (Nat.le_of_lt hword)]
  exact ⟨hword, rfl⟩

/-! ## Powers of two -/

theorem Represents.mul_two_pow {k : Nat} (h : f.Represents n)
    (hlt : n * 2 ^ k < f.magnitude f.infinity) : f.Represents (n * 2 ^ k) := by
  obtain ⟨significand, shift, hfits, rfl⟩ := h.exists_shift
  rw [Nat.mul_assoc, ← Nat.pow_add] at hlt ⊢
  exact represents_shift (Nat.le_of_lt hfits) hlt

/-- What is left after whole multiples of a power of two: either nothing, or the low bits of the
significand on its own grid. -/
theorem Represents.mod_two_pow (h : f.Represents n) (k : Nat) : f.Represents (n % 2 ^ k) := by
  have hlt : n % 2 ^ k < f.magnitude f.infinity := Nat.lt_of_le_of_lt (Nat.mod_le n _) h.lt
  obtain ⟨significand, shift, hfits, rfl⟩ := h.exists_shift
  by_cases hk : k ≤ shift
  · have hzero : significand * 2 ^ shift % 2 ^ k = 0 * 2 ^ 0 :=
      Nat.mod_eq_zero_of_dvd (Nat.dvd_mul_left_of_dvd (Nat.pow_dvd_pow 2 hk) _)
    rw [hzero] at hlt ⊢
    exact represents_shift (Nat.zero_le _) hlt
  · obtain ⟨low, rfl⟩ : ∃ low, k = low + shift := ⟨k - shift, by omega⟩
    rw [Nat.pow_add, Nat.mul_mod_mul_right] at hlt ⊢
    have := Nat.mod_le significand (2 ^ low)
    exact represents_shift (by omega) hlt

/-- Whole multiples of a power of two: the significand on its own grid, without its low bits. -/
theorem Represents.div_mul_two_pow (h : f.Represents n) (k : Nat) :
    f.Represents (n / 2 ^ k * 2 ^ k) := by
  have hlt : n / 2 ^ k * 2 ^ k < f.magnitude f.infinity :=
    Nat.lt_of_le_of_lt (Nat.div_mul_le_self n _) h.lt
  obtain ⟨significand, shift, hfits, rfl⟩ := h.exists_shift
  by_cases hk : k ≤ shift
  · have hsame : significand * 2 ^ shift / 2 ^ k * 2 ^ k = significand * 2 ^ shift :=
      Nat.div_mul_cancel (Nat.dvd_mul_left_of_dvd (Nat.pow_dvd_pow 2 hk) _)
    rw [hsame] at hlt ⊢
    exact represents_shift (Nat.le_of_lt hfits) hlt
  · obtain ⟨low, rfl⟩ : ∃ low, k = low + shift := ⟨k - shift, by omega⟩
    rw [Nat.pow_add, Nat.mul_div_mul_right _ _ (Nat.two_pow_pos shift), ← Nat.mul_assoc] at hlt ⊢
    have := Nat.div_mul_le_self significand (2 ^ low)
    exact represents_shift (by omega) hlt

/-- A number that is in the format after scaling is in it before. -/
theorem Represents.of_mul_two_pow {k : Nat} (h : f.Represents (n * 2 ^ k)) : f.Represents n := by
  have hlt : n < f.magnitude f.infinity :=
    Nat.lt_of_le_of_lt (Nat.le_mul_of_pos_right n (Nat.two_pow_pos k)) h.lt
  obtain ⟨significand, shift, hfits, hscaled⟩ := h.exists_shift
  by_cases hk : k ≤ shift
  · obtain ⟨high, rfl⟩ : ∃ high, shift = high + k := ⟨shift - k, by omega⟩
    rw [Nat.pow_add, ← Nat.mul_assoc] at hscaled
    obtain rfl := Nat.eq_of_mul_eq_mul_right (Nat.two_pow_pos k) hscaled
    exact represents_shift (Nat.le_of_lt hfits) hlt
  · obtain ⟨low, rfl⟩ : ∃ low, k = low + shift := ⟨k - shift, by omega⟩
    rw [Nat.pow_add, ← Nat.mul_assoc] at hscaled
    -- the number is not larger than the significand of its multiple
    have hsmall := Nat.eq_of_mul_eq_mul_right (Nat.two_pow_pos shift) hscaled
    have hle := Nat.le_mul_of_pos_right n (Nat.two_pow_pos low)
    exact represents_of_le (by omega) hlt

/-- A number of the format that is large for its significand lies on a coarse grid. -/
theorem Represents.dvd {k : Nat} (h : f.Represents n) (hle : f.leading * 2 ^ k ≤ n) :
    2 ^ k ∣ n := by
  obtain ⟨significand, shift, hfits, rfl⟩ := h.exists_shift
  refine Nat.dvd_mul_left_of_dvd (Nat.pow_dvd_pow 2 (Nat.le_of_not_lt fun hlt => ?_)) _
  have hpow : 2 ^ shift * 2 ≤ 2 ^ k := by
    rw [← Nat.pow_succ]
    exact Nat.pow_le_pow_right (by decide) hlt
  have hlarge : f.leading * (2 ^ shift * 2) ≤ significand * 2 ^ shift :=
    Nat.le_trans (Nat.mul_le_mul_left _ hpow) hle
  have hsmall : significand * 2 ^ shift < 2 * f.leading * 2 ^ shift :=
    Nat.mul_lt_mul_of_pos_right hfits (Nat.two_pow_pos _)
  have hsame : f.leading * (2 ^ shift * 2) = 2 * f.leading * 2 ^ shift := by
    rw [Nat.mul_comm (2 ^ shift), ← Nat.mul_assoc, Nat.mul_comm f.leading]
  omega

/-- A number on a grid is in the format if it takes no more than a significand there. -/
theorem represents_of_dvd {k : Nat} (hdvd : 2 ^ k ∣ n) (hle : n ≤ 2 * f.leading * 2 ^ k)
    (hlt : n < f.magnitude f.infinity) : f.Represents n := by
  obtain ⟨significand, rfl⟩ := hdvd
  rw [Nat.mul_comm] at hle hlt ⊢
  exact represents_shift (Nat.le_of_mul_le_mul_right hle (Nat.two_pow_pos _)) hlt

end Overland.Binary.Format
