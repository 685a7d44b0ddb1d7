import Overland.Proofs.Sampling.Legs
import Overland.Proofs.Single.Length

/-!
# Resampling keeps the corners

The corners of a route come from the mesh, in its axis order and at its heights.  What is made of
them in single precision, over whatever heights, keeps all of their places (`sample_keeps_corners`):
between two corners points are inserted, as many as whole steps fit between the point reached before
and the corner, and nothing else changes but heights.  Where no length can be measured nothing is
inserted, so a direction that is no number never reaches a point.
-/

namespace Overland

open Sampling

/-- A segment along which no step leads: a coordinate of it is no number, or its length is zero. -/
def Degenerate (segment : Position) : Prop :=
  segment.x.isNaN = true ∨ segment.y.isNaN = true ∨ segment.z.isNaN = true ∨
    segment.length.value = 0

instance (segment : Position) : Decidable (Degenerate segment) :=
  inferInstanceAs (Decidable (_ ∨ _ ∨ _ ∨ _))

/-- How many whole steps fit into a segment, by the integer part of a quarter of its length.  A
count has 64 bits. -/
def wholeSteps (segment : Position) : Nat :=
  if Degenerate segment then 0 else min (UInt64.size - 1) ⌊segment.length.value / 4⌋₊

theorem degenerate_iff (segment : Position) :
    Degenerate segment ↔ segment.length.isNaN = true ∨ segment.length.value = 0 := by
  rw [Degenerate, Single.isNaN_length_iff, or_assoc, or_assoc]

/-- What is counted on a segment are the whole steps that fit into it. -/
theorem stepCount_eq_wholeSteps (segment : Position) :
    stepCount stepLength segment = wholeSteps segment := by
  rw [stepCount, Single.wholeCount_div_stepLength, wholeSteps]
  by_cases hnan : segment.length.isNaN = true
  · rw [if_pos hnan, if_pos ((degenerate_iff segment).2 (.inl hnan))]
  · rw [if_neg hnan]
    by_cases hzero : segment.length.value = 0
    · rw [if_pos ((degenerate_iff segment).2 (.inr hzero)), hzero, zero_div, Nat.floor_zero,
        Nat.min_zero]
    · rw [if_neg (mt (degenerate_iff segment).1 (not_or.2 ⟨hnan, hzero⟩))]

variable {S : Type}

/-- **Resampling keeps the corners,** whatever the corners and the heights are.

There is a leg for each corner: a number of inserted points, and then one over the place of the
corner.  Nothing is inserted before the first corner; before any other one it is as many points as
whole steps fit between the corner, still at the height of the mesh, and the point at which the one
before was reached, already on the ground.  So the places of the corners are among those of the
points, in their order, and the first and last of them are the first and last of all; the points are
as many as the corners and what is inserted; and every point has the height that is found at its own
place, one question for each, in their order. -/
theorem sample_keeps_corners (height : Position → StateM S Single) (corners : List MeshPosition)
    (s : S) :
    ∃ (legs : List (Leg Single)) (points : Array Position) (t : S),
      sample height stepLength (corners.map Position.ofMesh) s = (points, t) ∧
      -- the points leg by leg
      points.toList = legs.flatMap Leg.points ∧
      legs.map Leg.corner = corners.map Position.ofMesh ∧
      (∀ leg ∈ legs, leg.reached.place = leg.corner.place) ∧
      (∀ leg ∈ legs.head?, leg.inserted = []) ∧
      (legs.IsChain fun before leg =>
        leg.inserted.length = wholeSteps (leg.corner - before.reached)) ∧
      -- the points altogether
      (corners.map fun corner => (corner.third, corner.first)).Sublist
        (points.toList.map Vector3.place) ∧
      points.toList.head?.map Vector3.place
        = corners.head?.map (fun corner => (corner.third, corner.first)) ∧
      points.toList.getLast?.map Vector3.place
        = corners.getLast?.map (fun corner => (corner.third, corner.first)) ∧
      points.size = corners.length + (legs.map fun leg => leg.inserted.length).sum ∧
      Grounded height s points.toList t := by
  obtain ⟨legs, t, hpoints, hcorners, hsampled⟩ :=
    exists_sampled height stepLength (corners.map Position.ofMesh) s
  -- the places at which the corners are reached are their own
  have hplaces : (legs.map Leg.reached).map Vector3.place
      = corners.map fun corner => (corner.third, corner.first) :=
    (map_place_reached hsampled.place_reached hcorners).trans List.map_map
  refine ⟨legs, (legs.flatMap Leg.points).toArray, t, hpoints, rfl, hcorners,
    hsampled.place_reached, hsampled.inserted_head, ?_, ?_, ?_, ?_, ?_, hsampled.grounded⟩
  · exact hsampled.counts.imp fun _ _ h => h.trans (stepCount_eq_wholeSteps _)
  · exact hplaces ▸ (sublist_points legs).map Vector3.place
  · rw [hsampled.head?_points, ← List.head?_map, hplaces, List.head?_map]
  · rw [getLast?_points, ← List.getLast?_map, hplaces, List.getLast?_map]
  · have hlength : legs.length = corners.length := by
      rw [← List.length_map, hcorners, List.length_map]
    rw [List.size_toArray, length_points, hlength]

end Overland
