import Overland.Tile.Height

/-!
# Liquids

A liquid covers a rectangle of height cells.  Outside that rectangle a tile with levels has none; a
tile without levels has its one level everywhere.

`Tile.liquidAt` classifies a height against the liquid over or under it.  There is no liquid to
speak of if the cell has no kind of it or none of the kinds asked for, if the point is outside the
rectangle, if the level is below the ground, or if the height asked about is more than two below the
ground. Otherwise the answer says how far below the level that height is.
-/

namespace Overland

/-- Where a height lies against a liquid. -/
inductive LiquidState where
  | none
  | above
  | surface
  | inside
  | under
  deriving DecidableEq, Repr

/-- The name of a state. -/
def LiquidState.name : LiquidState → String
  | .none => "NoWater"
  | .above => "AboveWater"
  | .surface => "WaterWalk"
  | .inside => "InWater"
  | .under => "UnderWater"

/-- The liquid that a height was compared with. -/
structure LiquidReading where
  kind : UInt8
  entry : UInt16
  level : Single
  ground : Single
  deriving DecidableEq, Repr

/-- The answer to a question about liquid. -/
structure LiquidAnswer where
  state : LiquidState
  reading : Option LiquidReading
  deriving DecidableEq, Repr

/-- No liquid. -/
def LiquidAnswer.dry : LiquidAnswer := ⟨.none, none⟩

/-- The index of a height cell in the rectangle of a liquid. -/
def LiquidExtent.index? (e : LiquidExtent) (x y : Nat) : Option Nat :=
  let alongX : Int := (x : Int) - e.offsetY.toNat
  let alongY : Int := (y : Int) - e.offsetX.toNat
  if 0 ≤ alongX ∧ alongX < e.height.toNat ∧ 0 ≤ alongY ∧ alongY < e.width.toNat then
    some (alongX.toNat * e.width.toNat + alongY.toNat)
  else none

namespace LiquidLayer

/-- The index of a point in the rectangle of the liquid. -/
def index? (l : LiquidLayer) (x y : Single) : Option Nat :=
  l.extent.index? (finePlace x).cell (finePlace y).cell

/-- The level of the liquid at an index of its rectangle. -/
def levelOf (l : LiquidLayer) (index : Nat) : Single :=
  match l.levels with
  | some levels => levels.getD index 0
  | none => l.level

/-- The level of the liquid over a point. -/
def levelAt (l : LiquidLayer) (x y : Single) : Single :=
  if l.levels.isNone then l.level
  else
    match l.index? x y with
    | some index => l.levelOf index
    | none => noHeight

/-- The kinds of liquid in the area cell of a point. -/
def cellKindAt (l : LiquidLayer) (x y : Single) : UInt8 :=
  match l.cells with
  | some cells => cells.kinds.getD (areaCell x y) 0
  | none => 0

/-- The area cell that a height cell lies in. -/
def cellAround (x y : Single) : Nat :=
  (finePlace x).cell / 8 * coarseCells + (finePlace y).cell / 8

/-- The kinds of liquid at a point: those of its cell, or the low byte of the tile's one kind. -/
def kindAt (l : LiquidLayer) (x y : Single) : UInt8 :=
  match l.cells with
  | some cells => cells.kinds.getD (cellAround x y) 0
  | none => l.kind.toUInt8

/-- The entry of the liquid at a point. -/
def entryAt (l : LiquidLayer) (x y : Single) : UInt16 :=
  match l.cells with
  | some cells => cells.entries.getD (cellAround x y) 0
  | none => 0

end LiquidLayer

/-- How a height lies against a level, by how far the level is above it. -/
def LiquidState.ofDepth (depth : Single) : LiquidState :=
  if 2 < depth then .under
  else if 0 < depth then .inside
  else if -Single.ofRatio 1 10 < depth then .surface
  else .above

/-- Classifies a height over a point against the liquid there.  The mask names the kinds of liquid
that count; an empty mask takes any. -/
def Tile.liquidAt (t : Tile) (x y z : Single) (mask : UInt8) : LiquidAnswer :=
  let liquid := t.liquid
  let kind := liquid.kindAt x y
  if kind = 0 || (mask ≠ 0 && mask &&& kind = 0) then .dry
  else
    match liquid.index? x y with
    | none => .dry
    | some index =>
      let level := liquid.levelOf index
      let ground := t.heightAt x y
      if level < ground ∨ z < ground - 2 then .dry
      else
        ⟨.ofDepth (level - z), some ⟨kind, liquid.entryAt x y, level, ground⟩⟩

end Overland
