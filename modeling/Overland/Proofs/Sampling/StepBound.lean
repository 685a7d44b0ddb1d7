import Mathlib.Analysis.Real.Sqrt
import Mathlib.Data.Rat.Cast.Order
import Overland.Proofs.Sampling.Legs
import Overland.Proofs.Single.Length

/-!
# No step on the ground is longer than a step

The direction and the number of the steps on a segment come from an offset in space: from a point
that was put on the ground to a corner at the height of the mesh.  Then every point is moved up or
down.  In exact arithmetic the places still never lie farther apart than one step
(`planarDistance_le_four`): on the ground a step is at most as long as in space, and what the
whole steps leave of a segment is shorter than one (`planarLength_rest_le`).
-/

namespace Overland

/-- In exact arithmetic the count of whole steps has no bound. -/
noncomputable instance : LengthOps ℝ where
  sqrt := Real.sqrt
  wholeCount a := ⌊a⌋₊

@[simp] theorem Vector3.sub_x (a b : Vector3 ℝ) : (a - b).x = a.x - b.x := rfl
@[simp] theorem Vector3.sub_y (a b : Vector3 ℝ) : (a - b).y = a.y - b.y := rfl
@[simp] theorem Vector3.scale_x (a : Vector3 ℝ) (r : ℝ) : (a.scale r).x = a.x * r := rfl
@[simp] theorem Vector3.scale_y (a : Vector3 ℝ) (r : ℝ) : (a.scale r).y = a.y * r := rfl

/-- How far an offset leads over the ground. -/
noncomputable def planarLength (a : Vector3 ℝ) : ℝ := √(a.x ^ 2 + a.y ^ 2)

/-- How far two positions lie apart over the ground. -/
noncomputable def planarDistance (p q : Vector3 ℝ) : ℝ := √((p.x - q.x) ^ 2 + (p.y - q.y) ^ 2)

theorem planarLength_le_length (a : Vector3 ℝ) : planarLength a ≤ a.length := by
  refine Real.sqrt_le_sqrt ?_
  nlinarith [mul_self_nonneg a.z]

/-- An offset in the direction of another one leads a multiple as far. -/
theorem planarLength_of_multiple {a b : Vector3 ℝ} {factor : ℝ} (hx : b.x = a.x * factor)
    (hy : b.y = a.y * factor) : planarLength b = planarLength a * |factor| := by
  have hsquares : b.x ^ 2 + b.y ^ 2 = (a.x ^ 2 + a.y ^ 2) * factor ^ 2 := by rw [hx, hy]; ring
  rw [planarLength, planarLength, hsquares, Real.sqrt_mul (by positivity), Real.sqrt_sq_eq_abs]

theorem planarLength_congr {a b : Vector3 ℝ} (hx : a.x = b.x) (hy : a.y = b.y) :
    planarLength a = planarLength b := by
  rw [planarLength, planarLength, hx, hy]

/-- How far two positions lie apart is how far the offset between them leads. -/
theorem planarDistance_eq (p q : Vector3 ℝ) : planarDistance p q = planarLength (q - p) := by
  show √((p.x - q.x) ^ 2 + (p.y - q.y) ^ 2) = √((q.x - p.x) ^ 2 + (q.y - p.y) ^ 2)
  rw [sub_sq_comm p.x, sub_sq_comm p.y]

namespace Sampling

variable {S : Type} {height : Vector3 ℝ → StateM S ℝ} {stepLength : ℝ}

/-! ## One segment -/

section Segment

variable (hpos : 0 < stepLength) (segment : Vector3 ℝ)
include hpos

/-- Over the ground a step is at most as long as in space. -/
theorem planarLength_stepOf_le : planarLength (stepOf stepLength segment) ≤ stepLength := by
  have hlength : 0 ≤ segment.length := Real.sqrt_nonneg _
  have hratio : planarLength segment / segment.length ≤ 1 :=
    div_le_one_of_le₀ (planarLength_le_length segment) hlength
  calc planarLength (stepOf stepLength segment)
      = planarLength segment * |stepLength / segment.length| :=
        planarLength_of_multiple (mul_comm_div ..) (mul_comm_div ..)
    _ = planarLength segment / segment.length * stepLength := by
        rw [abs_of_nonneg (div_nonneg hpos.le hlength)]
        ring
    _ ≤ stepLength := mul_le_of_le_one_left hpos.le hratio

/-- What the whole steps leave of a segment is at most one step. -/
theorem planarLength_rest_le :
    planarLength (segment - (stepOf stepLength segment).scale (stepCount stepLength segment))
      ≤ stepLength := by
  generalize hcount : (stepCount stepLength segment : ℝ) = count
  have hlength : 0 ≤ segment.length := Real.sqrt_nonneg _
  have hplanar := planarLength_le_length segment
  -- the whole steps fit into the length, and one more does not
  have hfits : count * stepLength ≤ segment.length :=
    hcount ▸ (le_div_iff₀ hpos).1 (Nat.floor_le (div_nonneg hlength hpos.le))
  have hmore : segment.length < (count + 1) * stepLength :=
    hcount ▸ (div_lt_iff₀ hpos).1 (Nat.lt_floor_add_one _)
  have hcoordinate (c : ℝ) : c - c / segment.length * stepLength * count
      = c * (1 - count * stepLength / segment.length) := by ring
  rw [planarLength_of_multiple (hcoordinate segment.x) (hcoordinate segment.y)]
  rcases hlength.eq_or_lt with hzero | hsome
  · have hnowhere : planarLength segment = 0 :=
      le_antisymm (hzero ▸ hplanar) (Real.sqrt_nonneg _)
    rw [hnowhere, zero_mul]
    exact hpos.le
  · have hleft : 0 ≤ 1 - count * stepLength / segment.length :=
      sub_nonneg.2 ((div_le_one hsome).2 hfits)
    calc planarLength segment * |1 - count * stepLength / segment.length|
        = planarLength segment * (1 - count * stepLength / segment.length) := by
          rw [abs_of_nonneg hleft]
      _ ≤ segment.length * (1 - count * stepLength / segment.length) :=
          mul_le_mul_of_nonneg_right hplanar hleft
      _ = segment.length - count * stepLength := by field_simp
      _ ≤ stepLength := by linarith

end Segment

/-! ## The whole line -/

/-- The steps of a segment, and what they leave of it up to the point where it ends. -/
theorem Paced.isChain {step last reached : Vector3 ℝ} {s t : S} {points : List (Vector3 ℝ)}
    (h : Paced height step last s points t) (hstep : planarLength step ≤ stepLength)
    (hrest : planarLength (reached - last - step.scale points.length) ≤ stepLength) :
    (last :: (points ++ [reached])).IsChain fun p q => planarDistance p q ≤ stepLength := by
  induction h with
  | stay last =>
    refine .cons_cons ?_ (.singleton _)
    rw [planarDistance_eq]
    exact le_of_eq_of_le (planarLength_congr (by simp) (by simp)) hrest
  | @pace last p _ _ _ points hsettled _ ih =>
    obtain ⟨hx, hy⟩ : p.x = last.x + step.x ∧ p.y = last.y + step.y :=
      Prod.mk.inj (place_settle hsettled)
    refine .cons_cons ?_ (ih (le_of_eq_of_le (planarLength_congr ?_ ?_) hrest))
    · rw [planarDistance_eq]
      exact le_of_eq_of_le (planarLength_congr (by simp [hx]) (by simp [hy])) hstep
    · simp only [Vector3.sub_x, Vector3.scale_x, hx, List.length_cons]
      push_cast
      ring
    · simp only [Vector3.sub_y, Vector3.scale_y, hy, List.length_cons]
      push_cast
      ring

theorem Walked.isChain (hpos : 0 < stepLength) {last : Vector3 ℝ} {s t : S} {legs : List (Leg ℝ)}
    (h : Walked height stepLength last s legs t) :
    (last :: legs.flatMap Leg.points).IsChain fun p q => planarDistance p q ≤ stepLength := by
  induction h with
  | stay => exact .singleton _
  | @leg last _ _ _ _ leg legs hcount hpaced hreached _ ih =>
    obtain ⟨hx, hy⟩ := Prod.mk.inj (place_settle hreached)
    have hleg : (last :: (leg.inserted ++ [leg.reached])).IsChain
        fun p q => planarDistance p q ≤ stepLength :=
      hpaced.isChain (planarLength_stepOf_le hpos _)
        (le_of_eq_of_le (planarLength_congr (by simp [hx, hcount]) (by simp [hy, hcount]))
          (planarLength_rest_le hpos (leg.corner - last)))
    rw [List.flatMap_cons, Leg.points, List.append_assoc, List.singleton_append]
    exact List.isChain_cons_split.2 ⟨hleg, ih⟩

/-- **Consecutive points lie at most a step apart,** over the ground and in exact arithmetic,
whatever the corners, the heights and the length of a step are. -/
theorem isChain_sample (hpos : 0 < stepLength) (height : Vector3 ℝ → StateM S ℝ)
    (corners : List (Vector3 ℝ)) (s : S) :
    (sample height stepLength corners s).1.toList.IsChain
      fun p q => planarDistance p q ≤ stepLength := by
  obtain ⟨legs, t, hpoints, -, hsampled⟩ := exists_sampled height stepLength corners s
  rw [hpoints]
  cases hsampled with
  | nothing => exact .nil
  | line _ hwalked => exact hwalked.isChain hpos

end Sampling

/-- **No step of a route is longer than a step on the ground.**  With exact arithmetic in place of
single precision, any two consecutive points lie at most four apart, for all corners and for heights
that may be anything and may change from one question to the next; the last gap of a segment, up to
its corner, is no exception. -/
theorem planarDistance_le_four {S : Type} (height : Vector3 ℝ → StateM S ℝ)
    (corners : List (Vector3 ℝ)) (s : S) :
    (Sampling.sample height (stepLength.value : ℝ) corners s).1.toList.IsChain
      fun p q => planarDistance p q ≤ 4 := by
  rw [Single.value_stepLength, Rat.cast_ofNat]
  exact Sampling.isChain_sample (by norm_num) height corners s

end Overland
