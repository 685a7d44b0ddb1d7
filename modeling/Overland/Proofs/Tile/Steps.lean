import Overland.Proofs.Single.Exact
import Overland.Proofs.Tile.Checked

/-!
# Heights from steps and heights from numbers

A tile that stores its heights as counts of steps solves for the plane over a triangle in integers,
and turns the three coefficients into numbers at the end.  A tile that stores numbers does the same
in numbers from the start.  The two ways never differ: not in the triangle, not in the corners that
they take, and not in a single bit of the height (`steps_agree`).

What makes them agree is that all counts, and all that is made of them on the way to a plane, are
integers of far fewer bits than a number has, so that no operation on them rounds
(`plane_map_ofInt`).
-/

namespace Overland

/-- Each coefficient of a plane keeps its value as a number. -/
structure Plane.Lossless (p : Plane Int) : Prop where
  slopeX : (Single.ofInt p.slopeX).units = p.slopeX * Single.unitsPerOne
  slopeY : (Single.ofInt p.slopeY).units = p.slopeY * Single.unitsPerOne
  atOrigin : (Single.ofInt p.atOrigin).units = p.atOrigin * Single.unitsPerOne

namespace CellSamples

theorem map_map {α β γ : Type} (f : α → β) (g : β → γ) (s : CellSamples α) :
    (s.map f).map g = s.map fun a => g (f a) := rfl

variable {s : CellSamples Int} (h : Checked.InSteps s) (triangle : Triangle)
include h

/-- **The plane through counts of steps is the plane through the same counts as numbers.** -/
theorem plane_map_ofInt :
    (s.map Single.ofInt).plane triangle = (s.plane triangle).map Single.ofInt := by
  obtain ⟨horigin, halongX, halongY, hopposite, hcentre⟩ := h
  cases triangle <;>
    simp (disch := omega) only [map, plane, Plane.map, Single.ofInt_add, Single.ofInt_sub]

theorem lossless_plane : (s.plane triangle).Lossless := by
  obtain ⟨horigin, halongX, halongY, hopposite, hcentre⟩ := h
  cases triangle <;>
    exact ⟨(Single.ofInt_exact (by simp only [plane]; omega)).2,
      (Single.ofInt_exact (by simp only [plane]; omega)).2,
      (Single.ofInt_exact (by simp only [plane]; omega)).2⟩

end CellSamples

/-- Counts of steps lead to the same heights as the same counts stored as numbers: over every point,
and with integers of 32 bits that never overflow and lose nothing when they become numbers. -/
structure StepsAgree {α : Type} (zero : α) (count : α → Int) : Prop where
  heights : ∀ (corners centres : Array α) (x y : Single),
    interpolateSteps zero count corners centres (finePlace x) (finePlace y)
      = interpolate (corners.map fun n => Single.ofInt (count n))
          (centres.map fun n => Single.ofInt (count n)) (finePlace x) (finePlace y)
  inRange : ∀ (corners centres : Array α) (x y : Nat) (triangle : Triangle),
    let samples := (CellSamples.ofSurface zero corners centres x y).map count
    Checked.plane samples triangle = some (samples.plane triangle)
  lossless : ∀ (corners centres : Array α) (x y : Nat) (triangle : Triangle),
    (((CellSamples.ofSurface zero corners centres x y).map count).plane triangle).Lossless

/-- Counts of at most two bytes agree with numbers. -/
theorem stepsAgree_of_le {α : Type} {zero : α} {count : α → Int} (hzero : count zero = 0)
    (hcount : ∀ a, 0 ≤ count a ∧ count a ≤ 65535) : StepsAgree zero count where
  heights corners centres x y := by
    have hnumber : (0 : Single) = Single.ofInt (count zero) := by rw [hzero]; rfl
    simp only [interpolate, interpolateSteps, hnumber,
      CellSamples.ofSurface_map (fun n => Single.ofInt (count n))]
    rw [← CellSamples.map_map count Single.ofInt,
      CellSamples.plane_map_ofInt (Checked.inSteps_map count hcount _)]
    rfl
  inRange _ _ _ _ := Checked.plane_eq (Checked.inSteps_map count hcount _)
  lossless _ _ _ _ := CellSamples.lossless_plane (Checked.inSteps_map count hcount _)

/-- **Heights from steps are heights from numbers,** bit by bit, for steps of one byte and of
two. -/
theorem steps_agree :
    StepsAgree (0 : UInt8) (fun n => n.toNat) ∧ StepsAgree (0 : UInt16) (fun n => n.toNat) := by
  constructor
  · refine stepsAgree_of_le rfl fun n => ?_
    have := n.toNat_lt
    omega
  · refine stepsAgree_of_le rfl fun n => ?_
    have := n.toNat_lt
    omega

end Overland
