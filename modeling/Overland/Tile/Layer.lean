import Overland.Decimal.Notation
import Overland.Tile.Grid

/-!
# Terrain tiles

A tile has three layers, each of which may be missing from its file and then has a plain default:

* the *area* layer names the area of each of 16 by 16 cells, or one area for the whole tile;
* the *height* layer holds a base height and, unless the tile is flat, a surface of samples: 129 by
  129 at the corners of the cells and 128 by 128 at their centres, as numbers or as steps of one
  byte or two;
* the *liquid* layer holds a level for the whole tile or a rectangle of levels, and a kind for the
  whole tile or kinds and entries for 16 by 16 cells.

`Tile.WellFormed` says that every row of samples has the length that its layer promises.
-/

namespace Overland

/-! ## Heights -/

/-- Samples along an edge of a tile at the corners of its cells. -/
def cornersPerEdge : Nat := 129

/-- Samples along an edge of a tile at the centres of its cells. -/
def centresPerEdge : Nat := 128

/-- How the heights of a tile are stored. -/
inductive HeightMode where
  | flat
  | float
  | int8
  | int16
  deriving DecidableEq, Repr

/-- The name of a mode. -/
def HeightMode.name : HeightMode → String
  | .flat => "Flat"
  | .float => "Float"
  | .int8 => "Int8"
  | .int16 => "Int16"

/-- The samples of a tile, for heights in some kind of number.  Steps are turned into heights by a
factor, from the base height up. -/
inductive Surface (α : Type) where
  | flat
  | float (corners centres : Array α)
  | int8 (corners centres : Array UInt8) (factor : α)
  | int16 (corners centres : Array UInt16) (factor : α)
  deriving DecidableEq, Repr

/-- The mode of a surface. -/
def Surface.mode {α : Type} : Surface α → HeightMode
  | .flat => .flat
  | .float .. => .float
  | .int8 .. => .int8
  | .int16 .. => .int16

/-- What stands for a height where there is none; heights above it are real. -/
def noHeight : Single := -Single.ofInt 100000

/-- Whether a height is that of a real surface. -/
def isRealHeight (height : Single) : Bool := decide (noHeight < height)

/-- Ceiling and floor of flight over a tile, three by three values each. -/
structure FlightBounds where
  ceiling : Array Int16
  floor : Array Int16
  deriving DecidableEq, Repr

/-- The heights of a tile, in some kind of number. -/
structure HeightLayer (α : Type) where
  base : α
  surface : Surface α
  flightBounds : Option FlightBounds
  deriving DecidableEq, Repr

/-- No heights. -/
def HeightLayer.absent : HeightLayer Single := ⟨noHeight, .flat, none⟩

/-! ## Areas and liquids -/

/-- The areas of a tile: one for all of it, and one for each of its cells if they differ. -/
structure AreaLayer where
  area : UInt16
  cells : Option (Array UInt16)
  deriving DecidableEq, Repr

/-- No areas. -/
def AreaLayer.absent : AreaLayer := ⟨0, none⟩

/-- The kinds of liquid in the cells of a tile, and the entries that describe them. -/
structure LiquidCells where
  entries : Array UInt16
  kinds : Array UInt8
  deriving DecidableEq, Repr

/-- The rectangle of height cells that a liquid covers.  What it calls x runs along the y axis of
the cells, and the other way round. -/
structure LiquidExtent where
  offsetX : UInt8
  offsetY : UInt8
  width : UInt8
  height : UInt8
  deriving DecidableEq, Repr

/-- The liquid of a tile. -/
structure LiquidLayer where
  kind : UInt16
  extent : LiquidExtent
  level : Single
  cells : Option LiquidCells
  levels : Option (Array Single)
  deriving DecidableEq, Repr

/-- No liquid. -/
def LiquidLayer.absent : LiquidLayer := ⟨0, ⟨0, 0, 0, 0⟩, noHeight, none, none⟩

/-! ## Tiles -/

/-- A terrain tile. -/
structure Tile where
  area : AreaLayer
  height : HeightLayer Single
  liquid : LiquidLayer
  deriving DecidableEq, Repr

namespace Tile

/-- The tile with nothing in it. -/
def blank : Tile := ⟨.absent, .absent, .absent⟩

/-- A tile as it shows in messages. -/
def description (t : Tile) : String :=
  "GridMap \x7b height_mode: " ++ t.height.surface.mode.name
    ++ ", grid_height: " ++ t.height.base.write Decimal.detailed
    ++ ", grid_area: " ++ toString t.area.area.toNat
    ++ ", has_area_map: " ++ toString t.area.cells.isSome
    ++ ", liquid_type: " ++ toString t.liquid.kind.toNat
    ++ ", has_liquid_map: " ++ toString t.liquid.levels.isSome ++ " \x7d"

/-- Every row of samples has the length that its layer promises. -/
structure WellFormed (t : Tile) : Prop where
  area : ∀ cells, t.area.cells = some cells → cells.size = 256
  surface : match t.height.surface with
    | .flat => True
    | .float corners centres => corners.size = 129 * 129 ∧ centres.size = 128 * 128
    | .int8 corners centres _ => corners.size = 129 * 129 ∧ centres.size = 128 * 128
    | .int16 corners centres _ => corners.size = 129 * 129 ∧ centres.size = 128 * 128
  flightBounds : ∀ bounds, t.height.flightBounds = some bounds →
    bounds.ceiling.size = 9 ∧ bounds.floor.size = 9
  liquidCells : ∀ cells, t.liquid.cells = some cells →
    cells.entries.size = 256 ∧ cells.kinds.size = 256
  liquidLevels : ∀ levels, t.liquid.levels = some levels →
    levels.size = t.liquid.extent.width.toNat * t.liquid.extent.height.toNat

/-- The blank tile has no rows of samples at all. -/
theorem blank_wellFormed : WellFormed blank where
  area _ h := by cases h
  surface := trivial
  flightBounds _ h := by cases h
  liquidCells _ h := by cases h
  liquidLevels _ h := by cases h

end Tile

end Overland
