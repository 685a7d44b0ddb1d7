import Overland.Decimal.Notation
import Overland.Single.Double
import Overland.Single.Integer

/-!
# Positions

A position or offset in the world has three coordinates; x and y span the ground and z points up.
The navigation mesh orders its axes differently: what it calls the first, second and third axis are
the world's y, z and x (`Position.toMesh`, `Position.ofMesh`, inverse to each other).

Sums, lengths and directions are said for coordinates of any kind of number that has them.  What
runs are single-precision positions, each operation rounded by itself; statements about distances
can read the same definitions in exact arithmetic.  Only the heading is a matter of single precision
alone: it goes through double precision and back.
-/

namespace Overland

/-- Three coordinates. -/
structure Vector3 (α : Type) where
  x : α
  y : α
  z : α
  deriving DecidableEq, Repr, Inhabited

/-- Numbers with square roots and whole parts, in which lengths can be measured and divided up. -/
class LengthOps (α : Type) where
  sqrt : α → α
  /-- The whole part of a number as a count; none for a number that is negative. -/
  wholeCount : α → Nat

instance : LengthOps Single where
  sqrt := Single.sqrt
  wholeCount a := a.floor.toCount

namespace Vector3

variable {α : Type}

/-- The sum of two offsets, coordinate by coordinate. -/
def add [Add α] (a b : Vector3 α) : Vector3 α := ⟨a.x + b.x, a.y + b.y, a.z + b.z⟩

/-- The offset from `b` to `a`. -/
def sub [Sub α] (a b : Vector3 α) : Vector3 α := ⟨a.x - b.x, a.y - b.y, a.z - b.z⟩

instance [Add α] : Add (Vector3 α) := ⟨add⟩
instance [Sub α] : Sub (Vector3 α) := ⟨sub⟩

/-- The offset stretched by a factor. -/
def scale [Mul α] (a : Vector3 α) (factor : α) : Vector3 α :=
  ⟨a.x * factor, a.y * factor, a.z * factor⟩

/-- Distance from the origin. -/
def length [Add α] [Mul α] [LengthOps α] (a : Vector3 α) : α :=
  LengthOps.sqrt (a.x * a.x + a.y * a.y + a.z * a.z)

/-- The offset of length one in the same direction.  The origin has none, which shows in whatever
dividing zero by zero gives. -/
def direction [Add α] [Mul α] [Div α] [LengthOps α] (a : Vector3 α) : Vector3 α :=
  ⟨a.x / a.length, a.y / a.length, a.z / a.length⟩

end Vector3

/-- A position or an offset in the world. -/
abbrev Position := Vector3 Single

/-- A position in the axis order of the navigation mesh. -/
structure MeshPosition where
  first : Single
  second : Single
  third : Single
  deriving DecidableEq, Repr, Inhabited

namespace Position

/-- Whether two positions have equal coordinates as numbers. -/
def equal (a b : Position) : Bool := a.x.equal b.x && a.y.equal b.y && a.z.equal b.z

/-- A whole turn in radians. -/
def turn : Float := 6.283185307179586

/-- The heading on the ground in radians, from zero up to a whole turn. -/
def heading (a : Position) : Single :=
  let angle := Float.atan2 a.direction.y.toDouble a.direction.x.toDouble
  Single.ofDouble (if angle < 0 then angle + turn else angle)

/-- The position in the axis order of the mesh. -/
def toMesh (a : Position) : MeshPosition := ⟨a.y, a.z, a.x⟩

/-- The position in the world that a mesh position stands for. -/
def ofMesh (m : MeshPosition) : Position := ⟨m.third, m.first, m.second⟩

/-- The coordinates as text. -/
def description (a : Position) : String :=
  "X: " ++ a.x.write Decimal.plain ++ " | Y: " ++ a.y.write Decimal.plain
    ++ " | Z: " ++ a.z.write Decimal.plain

@[simp] theorem ofMesh_toMesh (a : Position) : ofMesh a.toMesh = a := rfl

@[simp] theorem toMesh_ofMesh (m : MeshPosition) : (ofMesh m).toMesh = m := rfl

end Position

end Overland
