import Overland.Position

/-!
# Sampling a line of corners

A line is given by its corners.  Each segment is walked in steps of a fixed length from the corner
reached so far, as many as fit into it as a whole, and then its own corner follows.  Every point is
settled onto the ground before the next one is taken from it, so the steps of a segment start from
points that have been moved up or down already, while their direction and their number were fixed at
its start.

The kind of number and the way heights are found are both left open.  What runs uses single
precision and heights that may load tiles; statements about distances use exact numbers.
-/

namespace Overland.Sampling

variable {α : Type} [Add α] [Sub α] [Mul α] [Div α] [LengthOps α]
variable {m : Type → Type} [Monad m]

/-- A point moved up or down onto the ground. -/
@[specialize] def settle (height : Vector3 α → m α) (p : Vector3 α) : m (Vector3 α) := do
  let z ← height p
  return { p with z }

/-- The offset of one step along a segment. -/
def stepOf (stepLength : α) (segment : Vector3 α) : Vector3 α :=
  segment.direction.scale stepLength

/-- How many whole steps fit into a segment. -/
def stepCount (stepLength : α) (segment : Vector3 α) : Nat :=
  LengthOps.wholeCount (segment.length / stepLength)

/-- Adds `count` points, each one step from the one before it and settled. -/
@[specialize] def addSteps (height : Vector3 α → m α) (step : Vector3 α) :
    (count : Nat) → (last : Vector3 α) → (points : Array (Vector3 α)) → m (Array (Vector3 α))
  | 0, _, points => return points
  | count + 1, last, points => do
    let next ← settle height (last + step)
    addSteps height step count next (points.push next)

/-- Adds the points up to each of the corners in turn, from the point `last` on. -/
@[specialize] def addSegments (height : Vector3 α → m α) (stepLength : α) :
    (corners : List (Vector3 α)) → (last : Vector3 α) → (points : Array (Vector3 α)) →
      m (Array (Vector3 α))
  | [], _, points => return points
  | corner :: corners, last, points => do
    let segment := corner - last
    let step := stepOf stepLength segment
    let points ← addSteps height step (stepCount stepLength segment) last points
    let reached ← settle height corner
    addSegments height stepLength corners reached (points.push reached)

/-- The points of a line with the given corners. -/
@[specialize] def sample (height : Vector3 α → m α) (stepLength : α) :
    (corners : List (Vector3 α)) → m (Array (Vector3 α))
  | [] => return #[]
  | corner :: corners => do
    let reached ← settle height corner
    addSegments height stepLength corners reached #[reached]

end Overland.Sampling
