import Overland.Proofs.Mesh.Header
import Overland.Proofs.Mesh.Square
import Overland.Proofs.Route.Findings

/-!
# Libraries that keep to tiles, and extracted files

What can be said about sweeps and routes depends on the mesh library and on the files.

* `MeshLibrary.Plain` is a library whose meshes are what their tiles are: a tile that is added is
  there from then on and no other is, a polygon is found near a position exactly if the tile of the
  position is there, and what lies between two positions depends on nothing else.
* `Extracted` files are those that the extractor writes: every mesh starts at the corner of the map
  with tiles of the size of the grid, and the file of a square holds the mesh tile of the square.

For such a library `findCorners_eq` says what the search in a mesh answers.
-/

namespace Overland

/-! ## The header that the extractor writes -/

/-- The corner of a map from which mesh tiles are counted, on both axes. -/
def mapCorner : Single := Single.ofInt (-32) * tileSize

/-- The tile along one axis of an extracted mesh that a coordinate falls into. -/
def meshIndex (coordinate : Single) : Int32 :=
  ((coordinate - mapCorner) / tileSize).floor.toInt32

namespace MeshHeader

/-- Column and row of the tile that a position lies in, counted from the origin of a mesh. -/
def tileOf (h : MeshHeader) (p : MeshPosition) : Int32 × Int32 :=
  (((p.first - h.origin.first) / h.tileWidth).floor.toInt32,
    ((p.third - h.origin.third) / h.tileHeight).floor.toInt32)

/-- A header as the extractor writes it: tiles of the grid's size from the corner of the map on. -/
structure IsExtracted (h : MeshHeader) : Prop where
  first : h.origin.first = mapCorner
  third : h.origin.third = mapCorner
  tileWidth : h.tileWidth = tileSize
  tileHeight : h.tileHeight = tileSize

theorem IsExtracted.tileOf_eq {h : MeshHeader} (hh : h.IsExtracted) (p : MeshPosition) :
    h.tileOf p = (meshIndex p.first, meshIndex p.third) := by
  rw [tileOf, hh.first, hh.third, hh.tileWidth, hh.tileHeight, meshIndex, meshIndex]

end MeshHeader

/-! ## Libraries that keep to tiles -/

/-- A library whose meshes are what their tiles are. -/
structure MeshLibrary.Plain {τ μ : Type} (library : MeshLibrary τ μ) where
  /-- The header that a mesh was created from. -/
  header : μ → MeshHeader
  /-- The column and row that a payload names. -/
  named : MeshTile → Option (Int32 × Int32)
  /-- How the search for a corridor between two positions ends. -/
  corridorStatus : (start goal : MeshPosition) → Nat → Status
  /-- Whether the corridor between two positions has no polygons. -/
  noCorridor : (start goal : MeshPosition) → Nat → Bool
  /-- The corners of the way between two positions. -/
  way : (start goal : MeshPosition) → Nat → Status × List MeshPosition
  create_eq : ∀ h t, ∃ mesh, (library.create h t).1 = .ok mesh ∧ header mesh = h ∧
    ∀ column row, library.hasTile mesh column row = false
  tileOf_eq : ∀ mesh p, library.tileOf mesh p = (header mesh).tileOf p
  header_addTile : ∀ mesh tile t, header (library.addTile mesh tile t).1.2 = header mesh
  hasTile_addTile : ∀ mesh tile t column row,
    library.hasTile (library.addTile mesh tile t).1.2 column row
      = (library.hasTile mesh column row || named tile == some (column, row))
  nearest_eq : ∀ mesh p extents t, (library.nearest mesh p extents t).1.1.failed = false ∧
    ((library.nearest mesh p extents t).1.2 = 0 ↔
      library.hasTile mesh (library.tileOf mesh p).1 (library.tileOf mesh p).2 = false)
  corridor_eq : ∀ mesh a b start goal limit t,
    (library.corridor mesh a b start goal limit t).1.1 = corridorStatus start goal limit ∧
      (library.corridor mesh a b start goal limit t).1.2.isEmpty = noCorridor start goal limit
  corners_eq : ∀ mesh start goal polygons limit t,
    (library.corners mesh start goal polygons limit t).1 = way start goal limit

namespace MeshLibrary.Plain

variable {τ μ : Type} {library : MeshLibrary τ μ} (plain : library.Plain)

/-- A mesh has a tile. -/
def Has (_plain : library.Plain) (mesh : μ) (cell : Int32 × Int32) : Prop :=
  library.hasTile mesh cell.1 cell.2 = true

instance (mesh : μ) (cell : Int32 × Int32) : Decidable (plain.Has mesh cell) :=
  inferInstanceAs (Decidable (library.hasTile mesh cell.1 cell.2 = true))

/-- The corners between two positions whose tiles are there. -/
def passage (start goal : MeshPosition) : Option (List MeshPosition × Bool) :=
  let corridor := plain.corridorStatus start goal polygonLimit
  let (straight, corners) := plain.way start goal cornerLimit
  if corridor.failed || plain.noCorridor start goal polygonLimit then none
  else if straight.failed || corners.length < 2 then none
  else some (corners, corridor.isPartial || straight.isPartial)

/-- The search in a mesh finds the passage if the tiles of both ends are there, and nothing
otherwise. -/
theorem findCorners_eq (mesh : μ) (start goal : MeshPosition) (t : τ) :
    (Navigation.findCorners library mesh start goal t).1
      = if plain.Has mesh (library.tileOf mesh start) ∧ plain.Has mesh (library.tileOf mesh goal)
        then plain.passage start goal else none := by
  obtain ⟨t₁, t₂, t₃, t₄, h⟩ := Navigation.exists_asked library mesh start goal t
  generalize (Navigation.findings library mesh start goal t).1 = f at h
  have hstart := plain.nearest_eq mesh start searchExtents t
  have hgoal := plain.nearest_eq mesh goal searchExtents t₁
  have hcorridor := plain.corridor_eq mesh f.start.2 f.goal.2 start goal polygonLimit t₂
  have hcorners := plain.corners_eq mesh start goal f.corridor.2 cornerLimit t₃
  rw [h.nearStart] at hstart
  rw [h.nearGoal] at hgoal
  rw [h.corridor] at hcorridor
  rw [h.straight] at hcorners
  have hends : plain.Has mesh (library.tileOf mesh start) ∧
      plain.Has mesh (library.tileOf mesh goal) ↔ f.start.2 ≠ 0 ∧ f.goal.2 ≠ 0 := by
    rw [Has, Has, Ne, Ne, hstart.2, hgoal.2, Bool.not_eq_false, Bool.not_eq_false]
  have hnoWay : f.NoWay ↔ (f.start.2 = 0 ∨ f.goal.2 = 0) ∨
      (f.corridor.1.failed || f.corridor.2.isEmpty) = true ∨
      (f.straight.1.failed || decide (f.straight.2.length < 2)) = true := by
    have hstart' : f.start.1.includes .failure = false := hstart.1
    have hgoal' : f.goal.1.includes .failure = false := hgoal.1
    simp [Findings.NoWay, Status.failed, hstart', hgoal', or_assoc]
  rw [Navigation.findCorners_eq h, passage, ← hcorridor.1, ← hcorridor.2, ← hcorners]
  dsimp only
  simp only [hends, hnoWay, f.decide_cutShort]
  by_cases hmissing : f.start.2 = 0 ∨ f.goal.2 = 0
  · rw [if_pos (.inl hmissing), if_neg fun hboth => hmissing.elim hboth.1 hboth.2]
  · rw [if_pos (not_or.1 hmissing)]
    simp only [hmissing, false_or]
    generalize (f.corridor.1.failed || f.corridor.2.isEmpty) = noCorridor,
      (f.straight.1.failed || decide (f.straight.2.length < 2)) = noWay
    cases noCorridor <;> cases noWay <;> simp

end MeshLibrary.Plain

/-! ## Files that the extractor writes -/

/-- A square has a file. -/
def HasFile (disk : Disk) (folder : String) (map : UInt32) (q : Square) : Prop :=
  ∃ bytes, disk (q.path folder map) = .ok bytes

/-- The files of a folder of meshes are as the extractor writes them. -/
structure Extracted {τ μ : Type} {library : MeshLibrary τ μ} (plain : library.Plain)
    (folder : String) (disk : Disk) : Prop where
  header : ∀ map h, Navigation.storedHeader disk folder map = .ok h → h.IsExtracted
  tile : ∀ map (q : Square) bytes, disk (q.path folder map) = .ok bytes →
    ∃ tile, MeshTile.decode (q.path folder map) bytes = .ok tile ∧
      plain.named tile = some q.meshTile

end Overland
