import Overland.Mesh.Sweep
import Overland.Proofs.Tile.Key

/-!
# Squares of the grid and tiles of the mesh

A map has the same 64 by 64 squares for its files and for its mesh, counted in opposite directions
and with exchanged axes: the file of a square is named by its grid coordinates, its mesh tile by
`Square.meshTile`.  Both namings can be read back (`squareAt`, `squareOf`), and different squares
have different mesh tiles and different files (`meshTile_injective`, `path_injective`).
-/

namespace Overland

/-- A square of the grid of a map. -/
structure Square where
  x : Fin 64
  y : Fin 64
  deriving DecidableEq, Repr

/-- The square at grid coordinates, if those lie on the map. -/
def squareAt (x y : Int32) : Option Square :=
  match onGrid? x, onGrid? y with
  | some x, some y => some ⟨x, y⟩
  | _, _ => none

/-- The square of a column and row of the mesh, if those lie on the map. -/
def squareOf (cell : Int32 × Int32) : Option Square := squareAt (63 - cell.2) (63 - cell.1)

namespace Square

/-- Column and row of a square in the mesh. -/
def meshTile (q : Square) : Int32 × Int32 := (63 - Int32.ofNat q.y, 63 - Int32.ofNat q.x)

/-- The key of a square on a map. -/
def key (map : UInt32) (q : Square) : TileKey := ⟨map, q.x, q.y⟩

/-- The file of a square in a folder of meshes. -/
def path (folder : String) (map : UInt32) (q : Square) : String :=
  joinPath folder (meshTileFileName map.toNat q.x q.y)

end Square

/-! ## Grid coordinates -/

theorem squareAt_eq_some_iff {x y : Int32} {q : Square} :
    squareAt x y = some q ↔ x = Int32.ofNat q.x ∧ y = Int32.ofNat q.y := by
  rw [← onGrid?_eq_some_iff, ← onGrid?_eq_some_iff, squareAt]
  cases onGrid? x with
  | none => simp
  | some i =>
    cases onGrid? y with
    | none => simp
    | some j =>
      obtain ⟨x', y'⟩ := q
      simp

theorem squareAt_of_left {x y : Int32} (h : onGrid? x = none) : squareAt x y = none := by
  rw [squareAt, h]

theorem squareAt_of_right {x y : Int32} (h : onGrid? y = none) : squareAt x y = none := by
  rw [squareAt, h]
  cases onGrid? x <;> rfl

theorem tileKey_of?_eq (map : UInt32) (x y : Int32) :
    TileKey.of? map x y = (squareAt x y).map (Square.key map) := by
  unfold TileKey.of? squareAt
  cases onGrid? x with
  | none => rfl
  | some i => cases onGrid? y <;> rfl

theorem tilePath?_eq (folder : String) (map : UInt32) (x y : Int32) :
    Navigation.tilePath? folder map x y = (squareAt x y).map (Square.path folder map) := by
  rw [Navigation.tilePath?, tileKey_of?_eq, Option.map_map]
  rfl

/-! ## Mesh tiles -/

/-- The square of a mesh tile is the only one that has it. -/
theorem squareOf_eq_some_iff {cell : Int32 × Int32} {q : Square} :
    squareOf cell = some q ↔ cell = q.meshTile := by
  have hsub : ∀ a b : Int32, 63 - a = b ↔ a = 63 - b := by
    intro a b
    constructor <;> grind
  rw [squareOf, squareAt_eq_some_iff, hsub, hsub, Square.meshTile]
  obtain ⟨column, row⟩ := cell
  simp [and_comm]

theorem Square.squareOf_meshTile (q : Square) : squareOf q.meshTile = some q :=
  squareOf_eq_some_iff.2 rfl

theorem Square.meshTile_injective {q q' : Square} (h : q.meshTile = q'.meshTile) : q = q' := by
  have hq := q.squareOf_meshTile
  rw [h, q'.squareOf_meshTile] at hq
  exact (Option.some.inj hq).symm

/-! ## Files -/

/-- Different squares, also those of different maps, have different files. -/
theorem Square.path_injective {folder : String} {map map' : UInt32} {q q' : Square}
    (h : q.path folder map = q'.path folder map') : map = map' ∧ q = q' := by
  have hname : (MapFile.meshTile (q.key map)).name = (MapFile.meshTile (q'.key map')).name :=
    joinPath_injective h
  obtain ⟨x, y⟩ := q
  obtain ⟨x', y'⟩ := q'
  simpa [Square.key] using MapFile.name_injective hname

/-- No file of a square is the header of a map. -/
theorem Square.path_ne_header {folder : String} {map map' : UInt32} {q : Square} :
    q.path folder map ≠ joinPath folder (meshFileName map'.toNat) := by
  intro h
  have hname : (MapFile.meshTile (q.key map)).name = (MapFile.mesh map').name :=
    joinPath_injective h
  cases MapFile.name_injective hname

end Overland
