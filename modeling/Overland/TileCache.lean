import Std.Data.HashMap
import Overland.Disk
import Overland.Tile.Format

/-!
# The tile cache

Each map has a row of 4096 slots, one for each of its tiles (`TileKey.slot`).  The first access that
can tell what a tile is fills its slot, with the tile or with the fault of its file, and the slot
keeps that for good: a file that is missing is a blank tile, and so is every tile if no folder is
configured.  A disk fault tells nothing, so it leaves the slot empty and the next access reads the
file again.

`TileCache.access` is the one operation; it also answers whether the slot was filled just now, which
is when the collision geometry of the tile has to be loaded.
-/

namespace Overland

/-- Why there is no tile to be had. -/
inductive TileError where
  /-- The file cannot be read. -/
  | unreadable (path : String) (fault : DiskFault)
  /-- The file is no tile. -/
  | undecodable (fault : DecodeFault)
  /-- The grid coordinates are off the map. -/
  | offGrid (x y : Int32)
  /-- The file of a slot is no tile, and is not looked at again. -/
  | unusable (key : TileKey) (fault : DecodeFault)
  deriving DecidableEq, Repr

/-- The text of an error. -/
def TileError.message : TileError → String
  | .unreadable path fault => s!"cannot read '{path}': {fault.message}"
  | .undecodable fault => fault.message
  | .offGrid x y => s!"grid ({x.toInt}, {y.toInt}) is outside the 64x64 map grid"
  | .unusable key fault =>
    "tile " ++ String.ofList (tileDigits key.map.toNat key.x key.y) ++ " is unusable: "
      ++ fault.message

/-! ## Files -/

/-- What a tile file turned out to be. -/
abbrev TileContent := Except DecodeFault Tile

/-- What stands at a path: a missing file is a blank tile. -/
def Tile.contentAt (disk : Disk) (path : String) : Except DiskFault TileContent :=
  match disk path with
  | .ok bytes => .ok (Tile.decode bytes)
  | .error .notFound => .ok (.ok Tile.blank)
  | .error fault => .error fault

/-- The tile in a file, without a cache. -/
def Tile.load (disk : Disk) (path : String) : Except TileError Tile :=
  match Tile.contentAt disk path with
  | .error fault => .error (.unreadable path fault)
  | .ok (.error fault) => .error (.undecodable fault)
  | .ok (.ok tile) => .ok tile

/-! ## The cache -/

/-- The place of a tile among those of its map, row by row. -/
def TileKey.index (key : TileKey) : Fin 4096 := ⟨key.x * 64 + key.y, by omega⟩

/-- The slot of a tile: the map, and the place in the map's row of slots. -/
def TileKey.slot (key : TileKey) : UInt32 × Fin 4096 := (key.map, key.index)

/-- No two tiles share a slot. -/
theorem TileKey.slot_injective {a b : TileKey} (h : a.slot = b.slot) : a = b := by
  obtain ⟨map, x, y⟩ := a
  obtain ⟨map', x', y'⟩ := b
  obtain ⟨hmap, hindex⟩ := Prod.mk.inj h
  have hindex : x.val * 64 + y.val = x'.val * 64 + y'.val := Fin.mk.inj hindex
  have hx : x = x' := Fin.ext (by omega)
  have hy : y = y' := Fin.ext (by omega)
  rw [show map = map' from hmap, hx, hy]

@[simp] theorem TileKey.slot_inj {a b : TileKey} : a.slot = b.slot ↔ a = b :=
  ⟨slot_injective, congrArg slot⟩

/-- The slots that are filled, and how many loads were tried. -/
structure TileCache where
  slots : Std.HashMap (UInt32 × Fin 4096) TileContent
  loads : Nat

namespace TileCache

/-- The cache before any access. -/
def empty : TileCache := ⟨∅, 0⟩

/-- The path of a tile's file. -/
def path (folder : String) (key : TileKey) : String := joinPath folder key.fileName

/-- One try to load a tile. -/
def attempt (folder : Option String) (disk : Disk) (key : TileKey) : Except DiskFault TileContent :=
  match folder with
  | none => .ok (.ok Tile.blank)
  | some folder => Tile.contentAt disk (path folder key)

/-- The answer that a filled slot gives. -/
def answer (key : TileKey) (content : TileContent) : Except TileError Tile :=
  content.mapError (.unusable key)

/-- What an access answers and does. -/
structure Access where
  answer : Except TileError Tile
  cache : TileCache
  /-- Whether this access filled the slot. -/
  filled : Bool

/-- Asks for a tile, loading it if its slot is empty. -/
def access (folder : Option String) (disk : Disk) (key : TileKey) (c : TileCache) : Access :=
  match c.slots[key.slot]? with
  | some content => ⟨answer key content, c, false⟩
  | none =>
    let tried := c.loads + 1
    match attempt folder disk key with
    | .ok content => ⟨answer key content, ⟨c.slots.insert key.slot content, tried⟩, true⟩
    | .error fault =>
      ⟨.error (.unreadable (path (folder.getD "") key) fault), ⟨c.slots, tried⟩, false⟩

/-- A filled slot gives the same answer on every disk and changes nothing. -/
theorem access_of_filled {key : TileKey} {c : TileCache} {content : TileContent}
    (h : c.slots[key.slot]? = some content) (folder : Option String) (disk : Disk) :
    c.access folder disk key = ⟨answer key content, c, false⟩ := by
  simp [access, h]

end TileCache

end Overland
