import Mathlib.Algebra.GroupWithZero.Nat
import Mathlib.Data.List.Chain
import Overland.Sampling

/-!
# The legs of a line

A line has a leg for each of its corners: the points inserted on the way from the point reached
before, and the point that the corner itself is settled to.  The program keeps all points in one
array and rewrites the last of them as it goes; here the walk is told leg by leg, as a relation
between the states before and after.

* `exists_sampled` — the points of a line are those of its legs, one leg for each corner;
* `Sampled.place_reached`, `Sampled.counts`, `Sampled.grounded` — where a leg ends, how many points
  it has, and which heights are asked for, whatever kind of number and whatever heights;
* `sublist_points`, `getLast?_points`, `length_points` — what follows for the points together.
-/

namespace Overland

variable {α S : Type}

/-- The place over which a position lies. -/
def Vector3.place (a : Vector3 α) : α × α := (a.x, a.y)

namespace Sampling

/-! ## Legs -/

/-- What becomes of one corner. -/
structure Leg (α : Type) where
  corner : Vector3 α
  /-- The points on the way from the corner before. -/
  inserted : List (Vector3 α)
  /-- The corner on the ground. -/
  reached : Vector3 α

/-- The points of a leg. -/
def Leg.points (leg : Leg α) : List (Vector3 α) := leg.inserted ++ [leg.reached]

/-- The points at which corners are reached are among all points, in their order. -/
theorem sublist_points (legs : List (Leg α)) :
    (legs.map Leg.reached).Sublist (legs.flatMap Leg.points) := by
  induction legs with
  | nil => exact .slnil
  | cons leg legs ih =>
    rw [List.map_cons, List.flatMap_cons, Leg.points, List.append_assoc, List.singleton_append]
    exact (ih.cons_cons leg.reached).trans (List.sublist_append_right _ _)

/-- If corners are reached over their own places, these are the places of the corners. -/
theorem map_place_reached {legs : List (Leg α)} {corners : List (Vector3 α)}
    (hplace : ∀ leg ∈ legs, leg.reached.place = leg.corner.place)
    (hcorners : legs.map Leg.corner = corners) :
    (legs.map Leg.reached).map Vector3.place = corners.map Vector3.place :=
  calc (legs.map Leg.reached).map Vector3.place
      = legs.map fun leg => leg.reached.place := List.map_map
    _ = legs.map fun leg => leg.corner.place := List.map_congr_left hplace
    _ = (legs.map Leg.corner).map Vector3.place := by rw [List.map_map]; rfl
    _ = corners.map Vector3.place := by rw [hcorners]

/-- The last point is the one at which the last corner is reached. -/
theorem getLast?_points (legs : List (Leg α)) :
    (legs.flatMap Leg.points).getLast? = (legs.map Leg.reached).getLast? := by
  rcases legs.eq_nil_or_concat with rfl | ⟨before, last, rfl⟩
  · rfl
  · simp [Leg.points, ← List.append_assoc]

/-- There is a point for each corner, and there are those that were inserted. -/
theorem length_points (legs : List (Leg α)) :
    (legs.flatMap Leg.points).length
      = legs.length + (legs.map fun leg => leg.inserted.length).sum := by
  induction legs with
  | nil => rfl
  | cons leg legs ih =>
    simp only [List.flatMap_cons, List.length_append, ih, Leg.points, List.map_cons, List.sum_cons,
      List.length_cons, List.length_nil]
    omega

/-! ## Heights, one after another -/

/-- The points have the heights that were found for them, one after another: each place is asked
about once, from some height on it, in the state that the question before has left. -/
inductive Grounded (height : Vector3 α → StateM S α) : S → List (Vector3 α) → S → Prop
  | nothing (s : S) : Grounded height s [] s
  | point {s s' t : S} {p : Vector3 α} {points : List (Vector3 α)} (probe : α)
    (hasked : height { p with z := probe } s = (p.z, s')) (hrest : Grounded height s' points t) :
    Grounded height s (p :: points) t

variable {height : Vector3 α → StateM S α}

theorem Grounded.append {s s' t : S} {points more : List (Vector3 α)}
    (h : Grounded height s points s') (hmore : Grounded height s' more t) :
    Grounded height s (points ++ more) t := by
  induction h with
  | nothing => exact hmore
  | point probe hasked _ ih => exact .point probe hasked (ih hmore)

section Settle

variable {q p : Vector3 α} {s s' : S} (h : settle height q s = (p, s'))
include h

/-- Settling a point does not move it to another place. -/
theorem place_settle : p.place = q.place := by
  obtain ⟨rfl, -⟩ := Prod.mk.inj h
  rfl

theorem grounded_settle : Grounded height s [p] s' := by
  obtain ⟨rfl, rfl⟩ := Prod.mk.inj h
  exact .point q.z rfl (.nothing _)

end Settle

/-! ## The walk along one segment -/

section Paced

variable [Add α]

/-- Points each of which is a step from the one before it, and settled. -/
inductive Paced (height : Vector3 α → StateM S α) (step : Vector3 α) :
    Vector3 α → S → List (Vector3 α) → S → Prop
  | stay (last : Vector3 α) (s : S) : Paced height step last s [] s
  | pace {last p : Vector3 α} {s s' t : S} {points : List (Vector3 α)}
    (hsettled : settle height (last + step) s = (p, s'))
    (hrest : Paced height step p s' points t) : Paced height step last s (p :: points) t

theorem Paced.grounded {step last : Vector3 α} {s t : S} {points : List (Vector3 α)}
    (h : Paced height step last s points t) : Grounded height s points t := by
  induction h with
  | stay => exact .nothing _
  | pace hsettled _ ih => exact (grounded_settle hsettled).append ih

/-- The points that are added on a segment, as many as are asked for. -/
theorem addSteps_paced (height : Vector3 α → StateM S α) (step : Vector3 α) (count : Nat)
    (last : Vector3 α) (before : Array (Vector3 α)) (s : S) :
    ∃ points t, addSteps height step count last before s = (before ++ points.toArray, t) ∧
      points.length = count ∧ Paced height step last s points t := by
  induction count generalizing last before s with
  | zero => exact ⟨[], s, congrArg (·, s) (by simp), rfl, .stay last s⟩
  | succ count ih =>
    rcases hsettled : settle height (last + step) s with ⟨p, s'⟩
    obtain ⟨points, t, hrest, hlength, hpaced⟩ := ih p (before.push p) s'
    refine ⟨p :: points, t, ?_, congrArg (· + 1) hlength, .pace hsettled hpaced⟩
    calc addSteps height step (count + 1) last before s
        = addSteps height step count p (before.push p) s' := by
          simp only [addSteps, bind, StateT.bind, hsettled]
      _ = (before ++ (p :: points).toArray, t) := by rw [hrest]; simp

end Paced

/-! ## The walk from corner to corner -/

section Walked

variable [Add α] [Sub α] [Mul α] [Div α] [LengthOps α] {stepLength : α}

/-- Legs each of which starts at the point where the one before it ends. -/
inductive Walked (height : Vector3 α → StateM S α) (stepLength : α) :
    Vector3 α → S → List (Leg α) → S → Prop
  | stay (last : Vector3 α) (s : S) : Walked height stepLength last s [] s
  | leg {last : Vector3 α} {s s' s'' t : S} {leg : Leg α} {legs : List (Leg α)}
    (hcount : leg.inserted.length = stepCount stepLength (leg.corner - last))
    (hpaced : Paced height (stepOf stepLength (leg.corner - last)) last s leg.inserted s')
    (hreached : settle height leg.corner s' = (leg.reached, s''))
    (hrest : Walked height stepLength leg.reached s'' legs t) :
    Walked height stepLength last s (leg :: legs) t

/-- The legs of a line: the first one is its first corner alone. -/
inductive Sampled (height : Vector3 α → StateM S α) (stepLength : α) :
    S → List (Leg α) → S → Prop
  | nothing (s : S) : Sampled height stepLength s [] s
  | line {s s' t : S} {corner reached : Vector3 α} {legs : List (Leg α)}
    (hreached : settle height corner s = (reached, s'))
    (hwalked : Walked height stepLength reached s' legs t) :
    Sampled height stepLength s (⟨corner, [], reached⟩ :: legs) t

variable (height stepLength)

theorem addSegments_walked (corners : List (Vector3 α)) (last : Vector3 α)
    (before : Array (Vector3 α)) (s : S) :
    ∃ legs t, addSegments height stepLength corners last before s
        = (before ++ (legs.flatMap Leg.points).toArray, t) ∧
      legs.map Leg.corner = corners ∧ Walked height stepLength last s legs t := by
  induction corners generalizing last before s with
  | nil => exact ⟨[], s, congrArg (·, s) (by simp), rfl, .stay last s⟩
  | cons corner corners ih =>
    obtain ⟨inserted, s', hsteps, hcount, hpaced⟩ := addSteps_paced height
      (stepOf stepLength (corner - last)) (stepCount stepLength (corner - last)) last before s
    rcases hreached : settle height corner s' with ⟨reached, s''⟩
    obtain ⟨legs, t, hrest, hcorners, hwalked⟩ :=
      ih reached ((before ++ inserted.toArray).push reached) s''
    refine ⟨⟨corner, inserted, reached⟩ :: legs, t, ?_, congrArg (corner :: ·) hcorners,
      .leg hcount hpaced hreached hwalked⟩
    calc addSegments height stepLength (corner :: corners) last before s
        = addSegments height stepLength corners reached
            ((before ++ inserted.toArray).push reached) s'' := by
          simp only [addSegments, bind, StateT.bind, hsteps, hreached]
      _ = (before ++ ((⟨corner, inserted, reached⟩ :: legs).flatMap Leg.points).toArray, t) := by
          rw [hrest]; simp [Leg.points]

/-- **The points of a line are those of its legs,** one leg for each of its corners. -/
theorem exists_sampled (corners : List (Vector3 α)) (s : S) :
    ∃ legs t, sample height stepLength corners s = ((legs.flatMap Leg.points).toArray, t) ∧
      legs.map Leg.corner = corners ∧ Sampled height stepLength s legs t := by
  cases corners with
  | nil => exact ⟨[], s, rfl, rfl, .nothing s⟩
  | cons corner corners =>
    rcases hreached : settle height corner s with ⟨reached, s'⟩
    obtain ⟨legs, t, hrest, hcorners, hwalked⟩ :=
      addSegments_walked height stepLength corners reached #[reached] s'
    refine ⟨⟨corner, [], reached⟩ :: legs, t, ?_, congrArg (corner :: ·) hcorners,
      .line hreached hwalked⟩
    simp [sample, bind, StateT.bind, hreached, hrest, Leg.points]

variable {height stepLength} {last : Vector3 α} {legs : List (Leg α)} {s t : S}

theorem Walked.place_reached (h : Walked height stepLength last s legs t) :
    ∀ leg ∈ legs, leg.reached.place = leg.corner.place := by
  induction h with
  | stay => exact fun _ hleg => absurd hleg List.not_mem_nil
  | leg _ _ hreached _ ih => exact List.forall_mem_cons.2 ⟨place_settle hreached, ih⟩

/-- The number of points inserted goes by the segment from the point reached before. -/
theorem Walked.counts (h : Walked height stepLength last s legs t) {first : Leg α}
    (hfirst : first.reached = last) :
    (first :: legs).IsChain fun before leg =>
      leg.inserted.length = stepCount stepLength (leg.corner - before.reached) := by
  induction h generalizing first with
  | stay => exact .singleton _
  | leg hcount _ _ _ ih => exact .cons_cons (hfirst ▸ hcount) (ih rfl)

theorem Walked.grounded (h : Walked height stepLength last s legs t) :
    Grounded height s (legs.flatMap Leg.points) t := by
  induction h with
  | stay => exact .nothing _
  | leg _ hpaced hreached _ ih =>
    exact (hpaced.grounded.append (grounded_settle hreached)).append ih

/-- **A corner is reached over its own place.** -/
theorem Sampled.place_reached (h : Sampled height stepLength s legs t) :
    ∀ leg ∈ legs, leg.reached.place = leg.corner.place := by
  cases h with
  | nothing => exact fun _ hleg => absurd hleg List.not_mem_nil
  | line hreached hwalked =>
    exact List.forall_mem_cons.2 ⟨place_settle hreached, hwalked.place_reached⟩

/-- Nothing is inserted before the first corner. -/
theorem Sampled.inserted_head (h : Sampled height stepLength s legs t) :
    ∀ leg ∈ legs.head?, leg.inserted = [] := by
  cases h with
  | nothing => exact fun _ hleg => nomatch hleg
  | line _ _ => exact fun _ hleg => Option.mem_some.1 hleg ▸ rfl

/-- **How many points are inserted** goes by the segment from the point reached before. -/
theorem Sampled.counts (h : Sampled height stepLength s legs t) :
    legs.IsChain fun before leg =>
      leg.inserted.length = stepCount stepLength (leg.corner - before.reached) := by
  cases h with
  | nothing => exact .nil
  | line _ hwalked => exact hwalked.counts rfl

/-- **Every point is on the ground.** -/
theorem Sampled.grounded (h : Sampled height stepLength s legs t) :
    Grounded height s (legs.flatMap Leg.points) t := by
  cases h with
  | nothing => exact .nothing _
  | line hreached hwalked => exact (grounded_settle hreached).append hwalked.grounded

/-- The first point is the one at which the first corner is reached. -/
theorem Sampled.head?_points (h : Sampled height stepLength s legs t) :
    (legs.flatMap Leg.points).head? = (legs.map Leg.reached).head? := by
  cases h with
  | nothing => rfl
  | line _ _ => rfl

end Walked

end Sampling

end Overland
