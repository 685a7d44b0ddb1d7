import Overland.Mesh.Table

/-!
# Sweeping in the tiles around a position

Before a path is searched, the tiles around both of its ends are added to the mesh: the tile of the
position and its eight neighbours.  A tile that the mesh has already, or that has no file, is
skipped; a file that is no tile, or that the library does not take, fails by itself and does not
hold up the rest.

The mesh and the grid of files count in opposite directions and with their axes exchanged, so the
neighbour one column up in the mesh is looked for one row down in the files.  Both counts are 32-bit
words.  Where one of them comes to an end, a checked sweep stops; the tiles that it has added by
then stay in the mesh.
-/

namespace Overland

/-- What became of one of the nine tiles. -/
inductive SweepOutcome where
  | added
  | skipped
  | failed
  deriving DecidableEq, Repr

/-- How many of the nine tiles came to each end. -/
structure SweepCount where
  added : Nat
  skipped : Nat
  failed : Nat
  deriving DecidableEq, Repr

/-- Counts outcomes. -/
def SweepCount.ofOutcomes (outcomes : List SweepOutcome) : SweepCount where
  added := outcomes.count .added
  skipped := outcomes.count .skipped
  failed := outcomes.count .failed

namespace Navigation

variable {σ τ μ : Type}

/-- The steps from a tile to itself and its neighbours, row by row. -/
def neighbourhood : List (Int32 × Int32) :=
  [(-1, -1), (-1, 0), (-1, 1), (0, -1), (0, 0), (0, 1), (1, -1), (1, 0), (1, 1)]

/-- The file of a mesh tile at grid coordinates, if those lie on the map. -/
def tilePath? (folder : String) (map : UInt32) (x y : Int32) : Option String :=
  (TileKey.of? map x y).map fun key =>
    joinPath folder (meshTileFileName key.map.toNat key.x key.y)

/-- Adds the tile in a file to a mesh; answers whether there was one. -/
def addTileFile (library : MeshLibrary τ μ) (disk : Disk) (path : String) (mesh : μ) :
    StateM τ (Except MeshError Bool × μ) := do
  match MeshTile.load disk path with
  | .error e => return (.error e, mesh)
  | .ok none => return (.ok false, mesh)
  | .ok (some tile) =>
    match ← library.addTile mesh tile with
    | (.ok _, mesh) => return (.ok true, mesh)
    | (.error status, mesh) => return (.error (.rejected "tile data" status), mesh)

/-- What an attempt to add a tile counts as. -/
def SweepOutcome.ofAttempt : Except MeshError Bool → SweepOutcome
  | .ok true => .added
  | .ok false => .skipped
  | .error _ => .failed

/-- Where a sweep is made: the mesh tile in its middle, and the terrain tile there. -/
structure SweepCentre where
  column : Int32
  row : Int32
  gridX : Int32
  gridY : Int32
  deriving DecidableEq, Repr

namespace SweepCentre

/-- Column and row of the cell of the mesh that a step looks at. -/
def cell (c : SweepCentre) (arithmetic : Arithmetic) (step : Int32 × Int32) :
    Except Stop (Int32 × Int32) := do
  return (← arithmetic.add c.column step.1, ← arithmetic.add c.row step.2)

/-- The grid coordinates of the file that a step reads. -/
def file (c : SweepCentre) (arithmetic : Arithmetic) (step : Int32 × Int32) :
    Except Stop (Int32 × Int32) := do
  return (← arithmetic.sub c.gridX step.2, ← arithmetic.sub c.gridY step.1)

end SweepCentre

/-- The centre of a sweep around a position. -/
def sweepCentre (library : MeshLibrary τ μ) (mesh : μ) (position : MeshPosition) : SweepCentre :=
  let (column, row) := library.tileOf mesh position
  ⟨column, row, gridIndex position.third, gridIndex position.first⟩

/-- One tile of a sweep.  The terrain tile in the middle is made available before each tile that is
looked for. -/
def sweepTile (n : Navigation σ τ μ) (disk : Disk) (folder : String) (map : UInt32)
    (centre : SweepCentre) (step : Int32 × Int32) (mesh : μ) :
    NavigationM σ τ μ (Except Stop SweepOutcome × μ) := do
  match centre.cell n.arithmetic step with
  | .error stop => return (.error stop, mesh)
  | .ok (column, row) =>
    if n.library.hasTile mesh column row then
      return (.ok .skipped, mesh)
    else
      let _ ← askGround (n.ground.loadTile disk map centre.gridX centre.gridY)
      match centre.file n.arithmetic step with
      | .error stop => return (.error stop, mesh)
      | .ok (x, y) =>
        match tilePath? folder map x y with
        | none => return (.ok .skipped, mesh)
        | some path =>
          let (attempt, mesh) ← askLibrary (addTileFile n.library disk path mesh)
          return (.ok (SweepOutcome.ofAttempt attempt), mesh)

/-- The tiles of a sweep, one after the other, up to a stop. -/
def sweepTiles (n : Navigation σ τ μ) (disk : Disk) (folder : String) (map : UInt32)
    (centre : SweepCentre) :
    List (Int32 × Int32) → μ → NavigationM σ τ μ (Except Stop (List SweepOutcome) × μ)
  | [], mesh => return (.ok [], mesh)
  | step :: steps, mesh => do
    match ← n.sweepTile disk folder map centre step mesh with
    | (.error stop, mesh) => return (.error stop, mesh)
    | (.ok outcome, mesh) =>
      let (outcomes, mesh) ← n.sweepTiles disk folder map centre steps mesh
      return (outcomes.map (outcome :: ·), mesh)

/-- Sweeps the files of a map around a position into the mesh of the map `owner`, if that has one.
Without a folder of meshes nothing is looked at. -/
def sweep (n : Navigation σ τ μ) (disk : Disk) (position : MeshPosition) (map owner : UInt32) :
    NavigationM σ τ μ (Except Stop (Option SweepCount)) := do
  match ← mesh? owner with
  | none => return .ok none
  | some mesh =>
    match n.meshFolder with
    | none => return .ok (some ⟨0, 0, 0⟩)
    | some folder =>
      let centre := sweepCentre n.library mesh position
      let (outcomes, mesh) ← n.sweepTiles disk folder map centre neighbourhood mesh
      putMesh owner mesh
      return outcomes.map fun outcomes => some (.ofOutcomes outcomes)

end Navigation

end Overland
