import Overland.Single.Integer
import Overland.Text.Numeral

/-!
# The grid of tiles

A map is a square of 64 by 64 tiles around the origin of the world.  Grid coordinates run against
world coordinates: the world's origin is the corner of four tiles in the middle, and a larger x or y
lies in an earlier tile.  `gridScale` measures a coordinate in tiles from the map's edge; dropping
the fraction gives the tile.

Inside a tile there are two finer grids, of 128 and of 16 cells along an edge, on the same measure:
`finePlace` and `coarseCell`.  A point off the map still has a place in both, since only the
position inside a tile is kept.
-/

namespace Overland

/-- Edge length of a tile in the world. -/
def tileSize : Single := Single.ofRatio 5333333 10000

/-- A world coordinate in tiles, counted from the edge of the map. -/
def gridScale (coordinate : Single) : Single := 32 - coordinate / tileSize

/-- The tile along one axis that a world coordinate falls into, which may be off the map. -/
def gridIndex (coordinate : Single) : Int32 := (gridScale coordinate).toInt32

/-! ## Cells -/

/-- Height cells along an edge of a tile. -/
def fineCells : Nat := 128

/-- Area and liquid cells along an edge of a tile. -/
def coarseCells : Nat := 16

/-- A place along one axis of a tile: a cell, and how far into it. -/
structure Place (α : Type) where
  cell : Nat
  offset : α
  deriving DecidableEq, Repr

/-- The same place with its offset as another kind of number. -/
def Place.map {α β : Type} (f : α → β) (p : Place α) : Place β := ⟨p.cell, f p.offset⟩

/-- The remainder of an index as a cell, counted from zero. -/
def cellOf (cells : Nat) (index : Int32) : Nat := (index.toInt % (cells : Int)).toNat

/-- The place of a world coordinate among the height cells. -/
def finePlace (coordinate : Single) : Place Single :=
  let scaled := 128 * gridScale coordinate
  let index := scaled.toInt32
  ⟨cellOf fineCells index, scaled - Single.ofInt index.toInt⟩

/-- The area cell of a world coordinate along one axis. -/
def coarseCell (coordinate : Single) : Nat :=
  cellOf coarseCells (16 * gridScale coordinate).toInt32

/-- The area cell of a point as an index into the 256 cells of a tile. -/
def areaCell (x y : Single) : Nat := coarseCell x * coarseCells + coarseCell y

theorem cellOf_lt (cells : Nat) (h : 0 < cells) (index : Int32) : cellOf cells index < cells := by
  have h1 : 0 ≤ index.toInt % (cells : Int) := Int.emod_nonneg _ (by omega)
  have h2 : index.toInt % (cells : Int) < cells := Int.emod_lt_of_pos _ (by omega)
  unfold cellOf
  omega

theorem areaCell_lt (x y : Single) : areaCell x y < 256 := by
  have hx := cellOf_lt coarseCells (by decide) (16 * gridScale x).toInt32
  have hy := cellOf_lt coarseCells (by decide) (16 * gridScale y).toInt32
  simp only [areaCell, coarseCell, coarseCells] at hx hy ⊢
  omega

/-! ## Tiles of a map -/

/-- Which tile: its map and its coordinates in the map's grid. -/
structure TileKey where
  map : UInt32
  x : Fin 64
  y : Fin 64
  deriving DecidableEq, Hashable, Repr

/-- A grid coordinate that lies on the map. -/
def onGrid? (index : Int32) : Option (Fin 64) :=
  if h : 0 ≤ index.toInt ∧ index.toInt < 64 then some ⟨index.toInt.toNat, by omega⟩ else none

/-- The tile at grid coordinates that lie on the map. -/
def TileKey.of? (map : UInt32) (x y : Int32) : Option TileKey :=
  match onGrid? x, onGrid? y with
  | some x, some y => some ⟨map, x, y⟩
  | _, _ => none

/-- The tiles of a map, row by row from the corner. -/
def TileKey.all (map : UInt32) : List TileKey :=
  (List.finRange 64).flatMap fun x => (List.finRange 64).map fun y => ⟨map, x, y⟩

/-! ## File names -/

/-- The digits that a tile's files are named with. -/
def tileDigits (map x y : Nat) : List Char :=
  Text.padded 3 map ++ Text.padded 2 x ++ Text.padded 2 y

/-- The file of a terrain tile. -/
def tileFileName (map x y : Nat) : String := String.ofList (tileDigits map x y) ++ ".map"

/-- The file of a map's navigation mesh. -/
def meshFileName (map : Nat) : String := String.ofList (Text.padded 3 map) ++ ".mmap"

/-- The file of a tile of a navigation mesh. -/
def meshTileFileName (map x y : Nat) : String := String.ofList (tileDigits map x y) ++ ".mmtile"

/-- The file of the terrain tile of a key. -/
def TileKey.fileName (key : TileKey) : String := tileFileName key.map.toNat key.x key.y

end Overland
