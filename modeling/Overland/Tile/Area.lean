import Overland.Tile.Layer

/-!
# Areas

The area at a point is that of its cell, or that of the whole tile if the tile does not tell its
cells apart.  The other way round, `AreaLayer.find?` answers the centre of the first cell with a
given area; a tile without cells of its own has none to offer, even for its one area.
-/

namespace Overland

/-- The area at a point of the world. -/
def AreaLayer.at (a : AreaLayer) (x y : Single) : UInt16 :=
  match a.cells with
  | some cells => cells.getD (areaCell x y) 0
  | none => a.area

/-- The world coordinate of the centre of an area cell, counted along an edge of the whole map. -/
def cellCentre (cell : UInt32) : Single :=
  tileSize * (32 - (Single.ofInt cell.toNat + Single.ofRatio 1 2) / 16)

/-- The first cell with an area. -/
def AreaLayer.firstCell? (a : AreaLayer) (area : UInt16) : Option Nat :=
  a.cells.bind fun cells => cells.findIdx? (· = area)

/-- The centre in the world of the first cell with an area, for a tile at the given grid
coordinates. Cells of the whole map are counted in 32-bit words. -/
def AreaLayer.find? (a : AreaLayer) (area : UInt16) (gridX gridY : UInt32) :
    Option (Single × Single) :=
  (a.firstCell? area).map fun index =>
    (cellCentre (UInt32.ofNat (index / coarseCells) + gridX * 16),
      cellCentre (UInt32.ofNat (index % coarseCells) + gridY * 16))

/-- The area of a tile at a point of the world. -/
def Tile.areaAt (t : Tile) (x y : Single) : UInt16 := t.area.at x y

end Overland
