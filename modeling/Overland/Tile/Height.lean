import Overland.Tile.Layer

/-!
# Terrain height between the samples

A height cell has five samples, one at each corner and one at its centre, and is cut into four
triangles that meet at the centre:

    origin ------- alongX
      | \   first  / |
      |   \      /   |
      |    centre    |      x runs along the first axis,
      |   /      \   |      y along the second
      | / fourth   \ |
    alongY ------- opposite

(second on the y side of the origin, third on the x side of the far corner).  Inside a triangle the
height is the plane through its three samples.

The kind of number is left open.  What runs uses single precision, and solves for the plane in
integers where heights are stored as steps; statements about the surface read the same definitions
in exact numbers.
-/

namespace Overland

/-- The four triangles of a cell, by the edge that each has in common with the cell: on the edge
from the origin along x, from the origin along y, and the two edges at the opposite corner. -/
inductive Triangle where
  | first
  | second
  | third
  | fourth
  deriving DecidableEq, Repr

/-- The triangle that a place inside a cell falls into.  A place on a seam belongs to the triangle
with the later name. -/
def Triangle.of {α : Type} [Add α] [LT α] [DecidableLT α] [OfNat α 1] (x y : α) : Triangle :=
  if x + y < 1 then
    if y < x then .first else .second
  else
    if y < x then .third else .fourth

/-- The five samples of a cell. -/
structure CellSamples (α : Type) where
  origin : α
  alongX : α
  alongY : α
  opposite : α
  centre : α
  deriving DecidableEq, Repr

/-- A plane: its slopes along x and y, and its height at the origin of the cell. -/
structure Plane (α : Type) where
  slopeX : α
  slopeY : α
  atOrigin : α
  deriving DecidableEq, Repr

namespace CellSamples

/-- The plane through the samples at the corners of a triangle.  The centre enters twice, because it
lies half a cell from the corners. -/
def plane {α : Type} [Add α] [Sub α] (s : CellSamples α) (triangle : Triangle) : Plane α :=
  let centre := s.centre + s.centre
  match triangle with
  | .first => ⟨s.alongX - s.origin, centre - s.origin - s.alongX, s.origin⟩
  | .second => ⟨centre - s.origin - s.alongY, s.alongY - s.origin, s.origin⟩
  | .third => ⟨s.alongX + s.opposite - centre, s.opposite - s.alongX, centre - s.opposite⟩
  | .fourth => ⟨s.opposite - s.alongY, s.alongY + s.opposite - centre, centre - s.opposite⟩

/-- The same samples as another kind of number. -/
def map {α β : Type} (f : α → β) (s : CellSamples α) : CellSamples β :=
  ⟨f s.origin, f s.alongX, f s.alongY, f s.opposite, f s.centre⟩

/-- The samples of the cell at the given place in a tile's rows of samples. -/
def ofSurface {α : Type} (zero : α) (corners centres : Array α) (x y : Nat) : CellSamples α :=
  let corner := x * cornersPerEdge + y
  { origin := corners.getD corner zero
    alongX := corners.getD (corner + cornersPerEdge) zero
    alongY := corners.getD (corner + 1) zero
    opposite := corners.getD (corner + cornersPerEdge + 1) zero
    centre := centres.getD (x * centresPerEdge + y) zero }

/-- The samples of a cell, read from rows that are another kind of number. -/
theorem ofSurface_map {α β : Type} (f : α → β) (zero : α) (corners centres : Array α) (x y : Nat) :
    ofSurface (f zero) (corners.map f) (centres.map f) x y
      = (ofSurface zero corners centres x y).map f := by
  simp [ofSurface, map, Array.getD_eq_getD_getElem?]

end CellSamples

/-- The height of a plane over a place in its cell. -/
def Plane.at {α : Type} [Add α] [Mul α] (p : Plane α) (x y : α) : α :=
  p.slopeX * x + p.slopeY * y + p.atOrigin

/-- The same plane as another kind of number. -/
def Plane.map {α β : Type} (f : α → β) (p : Plane α) : Plane β :=
  ⟨f p.slopeX, f p.slopeY, f p.atOrigin⟩

/-! ## Heights of a tile -/

section Interpolation

variable {α : Type} [Add α] [Sub α] [Mul α] [LT α] [DecidableLT α] [OfNat α 0] [OfNat α 1]

/-- The height over a place, from samples that are numbers. -/
@[specialize] def interpolate (corners centres : Array α) (x y : Place α) : α :=
  let samples := CellSamples.ofSurface 0 corners centres x.cell y.cell
  (samples.plane (.of x.offset y.offset)).at x.offset y.offset

variable [IntCast α]

/-- The height over a place in steps, from samples that are counts of steps. -/
@[specialize] def interpolateSteps {β : Type} (zero : β) (count : β → Int)
    (corners centres : Array β) (x y : Place α) : α :=
  let samples := (CellSamples.ofSurface zero corners centres x.cell y.cell).map count
  ((samples.plane (.of x.offset y.offset)).map Int.cast).at x.offset y.offset

/-- The height of the ground over a place of a tile. -/
@[specialize] def HeightLayer.at (h : HeightLayer α) (x y : Place α) : α :=
  match h.surface with
  | .flat => h.base
  | .float corners centres => interpolate corners centres x y
  | .int8 corners centres factor =>
    interpolateSteps 0 (fun n : UInt8 => n.toNat) corners centres x y * factor + h.base
  | .int16 corners centres factor =>
    interpolateSteps 0 (fun n : UInt16 => n.toNat) corners centres x y * factor + h.base

end Interpolation

/-- The height of a tile's ground over a point of the world, if the point lies in the tile.  Over
any other point it is the height at the same place of this tile. -/
def Tile.heightAt (t : Tile) (x y : Single) : Single := t.height.at (finePlace x) (finePlace y)

end Overland
