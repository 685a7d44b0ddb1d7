import Overland.Collision
import Overland.Tile.Area
import Overland.Tile.Liquid
import Overland.TileCache

/-!
# The ground of a map

The height of the ground at a point is decided between two sources, the terrain tile and the
collision geometry, which disagree under bridges, in caves and inside buildings.  `reconcile` says
which of two surfaces explains the height asked about; `Ground.height` asks both sources and
decides.

All questions go through the tile cache.  A tile that cannot be had is no error here: it has no
height, no area and no liquid.
-/

namespace Overland

/-- The surface that best explains a height: the collision surface if it is above the land or nearer
to the height, the land otherwise, and the height itself if neither surface is real. -/
def reconcile (land collision z : Single) : Single :=
  if isRealHeight collision then
    if isRealHeight land then
      if land < collision ∨ (collision - z).abs < (land - z).abs then collision else land
    else collision
  else if isRealHeight land then land
  else z

/-- The sources that answer for the ground: a folder of tiles, if there is one, and a collision
library. -/
structure Ground (σ : Type) where
  tileFolder : Option String
  collision : Collision σ

/-- What the ground remembers: the tiles loaded so far and the state of the collision library. -/
structure GroundState (σ : Type) where
  tiles : TileCache
  collision : σ

/-- A question that may load tiles. -/
abbrev GroundM (σ α : Type) := StateM (GroundState σ) α

namespace Ground

variable {σ : Type}

/-- A question to the collision library alone. -/
def askCollision {α : Type} (question : StateM σ α) : GroundM σ α := fun ⟨tiles, collision⟩ =>
  let (answer, collision) := question collision
  (answer, ⟨tiles, collision⟩)

/-! ## Tiles -/

/-- The tile of a key.  The collision geometry of a tile is loaded when its slot is filled. -/
def tile (g : Ground σ) (disk : Disk) (key : TileKey) : GroundM σ (Except TileError Tile) :=
  fun ⟨tiles, collision⟩ =>
    let access := tiles.access g.tileFolder disk key
    let collision := if access.filled then (g.collision.loadTile key collision).2 else collision
    (access.answer, ⟨access.cache, collision⟩)

/-- The tile at grid coordinates. -/
def tileAt (g : Ground σ) (disk : Disk) (map : UInt32) (x y : Int32) :
    GroundM σ (Except TileError Tile) :=
  match TileKey.of? map x y with
  | some key => g.tile disk key
  | none => return .error (.offGrid x y)

/-- The tile over a point of the world. -/
def tileOver (g : Ground σ) (disk : Disk) (map : UInt32) (x y : Single) :
    GroundM σ (Except TileError Tile) :=
  g.tileAt disk map (gridIndex x) (gridIndex y)

/-- Makes a tile available, and answers whether there is one. -/
def loadTile (g : Ground σ) (disk : Disk) (map : UInt32) (x y : Int32) : GroundM σ Bool := do
  match ← g.tileAt disk map x y with
  | .ok _ => return true
  | .error _ => return false

/-! ## Heights -/

/-- The height of the land alone. -/
def landHeight (g : Ground σ) (disk : Disk) (map : UInt32) (x y : Single) : GroundM σ Single := do
  match ← g.tileOver disk map x y with
  | .ok tile => return tile.heightAt x y
  | .error _ => return noHeight

/-- The height of the ground at a point: land above the point's probe does not count. -/
def height (g : Ground σ) (disk : Disk) (map : UInt32) (p : Position) : GroundM σ Single := do
  let land ← g.landHeight disk map p.x p.y
  let below := if land < p.z + Collision.probeLift then land else Collision.noSurface
  let collision ← askCollision (g.collision.surfaceNear map p)
  return reconcile below collision p.z

/-! ## Areas and liquids -/

/-- The area at a point. -/
def area? (g : Ground σ) (disk : Disk) (map : UInt32) (x y : Single) :
    GroundM σ (Option UInt16) := do
  match ← g.tileOver disk map x y with
  | .ok tile => return some (tile.areaAt x y)
  | .error _ => return none

/-- The centre of the first cell with an area in a row of tiles. -/
def findAreaIn (g : Ground σ) (disk : Disk) (area : UInt16) :
    List TileKey → GroundM σ (Option (Single × Single))
  | [] => return none
  | key :: rest => do
    match ← g.tile disk key with
    | .error _ => g.findAreaIn disk area rest
    | .ok tile =>
      match tile.area.find? area (UInt32.ofNat key.x) (UInt32.ofNat key.y) with
      | some centre => return some centre
      | none => g.findAreaIn disk area rest

/-- The height that the search for the topmost surface starts from. -/
def skyHeight : Single := -Collision.noSurface

/-- A position in an area: the centre of its first cell on the map, on the topmost surface there. -/
def findArea (g : Ground σ) (disk : Disk) (map : UInt32) (area : UInt16) :
    GroundM σ (Option Position) := do
  match ← g.findAreaIn disk area (TileKey.all map) with
  | none => return none
  | some (x, y) =>
    let z ← g.height disk map ⟨x, y, skyHeight⟩
    return some ⟨x, y, z⟩

/-- Classifies a height against the liquid at its point. -/
def liquid (g : Ground σ) (disk : Disk) (map : UInt32) (p : Position) (mask : UInt8) :
    GroundM σ LiquidAnswer := do
  match ← g.tileOver disk map p.x p.y with
  | .ok tile => return tile.liquidAt p.x p.y p.z mask
  | .error _ => return .dry

end Ground

end Overland
