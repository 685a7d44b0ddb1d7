import Overland.Proofs.Mesh.Spot
import Overland.Proofs.Mesh.TileFile

/-!
# A world with every tile

The simplest library that keeps to tiles is a roster: a mesh is its header and the list of its
tiles, a payload is the column and row of a tile, and every way is straight.  `fullDisk` is a disk
on which every square of the first map has its file.  In this world there is a history for every
choice of squares that leaves a mesh with these, and without a given other one
(`prepared_fullDisk`).
-/

namespace Overland

/-- A mesh that is the list of its tiles. -/
structure Roster where
  header : MeshHeader
  tiles : List (Int32 × Int32)

namespace Roster

/-- The column and row in the first eight bytes of a payload. -/
def named (tile : MeshTile) : Option (Int32 × Int32) :=
  if tile.payload.size < 8 then none else some (tile.payload.scalar 0, tile.payload.scalar 4)

/-- Adds a tile that a roster does not have yet. -/
def add (roster : Roster) (tile : MeshTile) : Except Status UInt64 × Roster :=
  match named tile with
  | none => (.error (Status.failure ||| Status.wrongMagic), roster)
  | some cell =>
    if roster.tiles.contains cell then
      (.error (Status.failure ||| Status.alreadyOccupied), roster)
    else (.ok 1, { roster with tiles := cell :: roster.tiles })

/-- The library of rosters.  The only polygon of a tile has the number one. -/
def library : MeshLibrary Unit Roster where
  create header := pure (.ok ⟨header, []⟩)
  tileOf roster p := roster.header.tileOf p
  hasTile roster column row := roster.tiles.contains (column, row)
  addTile roster tile := pure (roster.add tile)
  nearest roster p _ :=
    pure (.success, if roster.tiles.contains (roster.header.tileOf p) then 1 else 0)
  corridor _ a b _ _ _ := pure (.success, if a = b then [a] else [a, b])
  corners _ start goal _ _ := pure (.success, [start, goal])

theorem tiles_add (roster : Roster) (tile : MeshTile) (cell : Int32 × Int32) :
    (roster.add tile).2.header = roster.header ∧ (roster.add tile).2.tiles.contains cell
      = (roster.tiles.contains cell || named tile == some cell) := by
  unfold add
  cases hnamed : named tile with
  | none => simp
  | some found =>
    by_cases hpresent : roster.tiles.contains found = true
    · simp only [hpresent, if_true, true_and]
      by_cases hcell : found = cell
      · rw [← hcell, hpresent]
        rfl
      · simp [hcell]
    · simp only [hpresent, Bool.false_eq_true, if_false, true_and, List.contains_cons]
      rw [Bool.or_comm, Option.some_beq_some, Bool.beq_comm]

/-- Rosters are what their tiles are. -/
def plain : library.Plain where
  header := Roster.header
  named := named
  corridorStatus _ _ _ := .success
  noCorridor _ _ _ := false
  way start goal _ := (.success, [start, goal])
  create_eq h _ := ⟨⟨h, []⟩, rfl, rfl, fun _ _ => rfl⟩
  tileOf_eq _ _ := rfl
  header_addTile roster tile _ := (roster.tiles_add tile (0, 0)).1
  hasTile_addTile roster tile _ column row := (roster.tiles_add tile (column, row)).2
  nearest_eq := by
    intro roster p extents t
    have hstatus : Status.success.failed = false := by decide
    refine ⟨hstatus, ?_⟩
    show (if roster.tiles.contains (roster.header.tileOf p) then (1 : UInt64) else 0) = 0 ↔
      roster.tiles.contains (roster.header.tileOf p) = false
    simp
  corridor_eq := by
    intro roster a b start goal limit t
    refine ⟨rfl, ?_⟩
    show (if a = b then [a] else [a, b]).isEmpty = false
    by_cases h : a = b
    · rw [if_pos h]; rfl
    · rw [if_neg h]; rfl
  corners_eq _ _ _ _ _ _ := rfl

/-- Between two positions whose tiles are there, the way is straight. -/
theorem passage_eq (start goal : MeshPosition) :
    plain.passage start goal = some ([start, goal], false) := by
  have hstatus : Status.success.failed = false ∧ Status.success.isPartial = false := by decide
  simp [MeshLibrary.Plain.passage, plain, hstatus]

end Roster

/-! ## A disk with every file -/

/-- The header of an extracted mesh. -/
def extractedHeader : MeshHeader :=
  ⟨⟨mapCorner, 0, mapCorner⟩, tileSize, tileSize, 4096, 32768⟩

/-- The squares of a map. -/
def Square.all : List Square :=
  (List.finRange 64).flatMap fun x => (List.finRange 64).map fun y => ⟨x, y⟩

theorem Square.mem_all (q : Square) : q ∈ Square.all := by
  obtain ⟨x, y⟩ := q
  simp [all, List.mem_flatMap]

/-- The payload of the mesh tile of a square. -/
def Square.tile (q : Square) : MeshTile :=
  ⟨(Bytes.ofScalar q.meshTile.1 ++ Bytes.ofScalar q.meshTile.2).toArray⟩

/-- The content of the file of a square. -/
def Square.file (q : Square) : Bytes := q.tile.encode 7 8 1

/-- A disk with the header of the first map and the files of all its squares. -/
def fullDisk : Disk := fun path =>
  if path = joinPath "" (meshFileName (0 : UInt32).toNat) then
    .ok (extractedHeader.write .empty).bytes
  else match Square.all.find? fun q => q.path "" 0 = path with
    | some q => .ok q.file
    | none => .error .notFound

/-- What there is on the full disk. -/
theorem fullDisk_cases {path : String} {bytes : Bytes} (h : fullDisk path = .ok bytes) :
    (path = joinPath "" (meshFileName (0 : UInt32).toNat) ∧
      bytes = (extractedHeader.write .empty).bytes) ∨
    ∃ q : Square, path = q.path "" 0 ∧ bytes = q.file := by
  unfold fullDisk at h
  split at h
  · rename_i hpath
    exact .inl ⟨hpath, (Except.ok.inj h).symm⟩
  · split at h
    · rename_i q hfind
      have hpath := List.find?_some hfind
      exact .inr ⟨q, (of_decide_eq_true hpath).symm, (Except.ok.inj h).symm⟩
    · cases h

theorem fullDisk_path (q : Square) : fullDisk (q.path "" 0) = .ok q.file := by
  cases h : fullDisk (q.path "" 0) with
  | ok bytes =>
    rcases fullDisk_cases h with ⟨hpath, -⟩ | ⟨other, hpath, hfile⟩
    · exact absurd hpath Square.path_ne_header
    · rw [hfile, (Square.path_injective hpath).2]
  | error fault =>
    -- the square itself is found, if no other one is
    unfold fullDisk at h
    rw [if_neg Square.path_ne_header] at h
    split at h
    · cases h
    · rename_i hfind
      have := List.find?_eq_none.1 hfind q q.mem_all
      simp at this

theorem size_tile (q : Square) : q.tile.payload.size = 8 := by
  have hwidth : Scalar.width Int32 = 4 := rfl
  unfold Square.tile
  rw [List.size_toArray, List.length_append, Bytes.length_ofScalar, Bytes.length_ofScalar, hwidth]

theorem named_tile (q : Square) : Roster.named q.tile = some q.meshTile := by
  have hholds : q.tile.payload.Holds 0 _ := Bytes.holds_toArray _
  have hcolumn : q.tile.payload.scalar 0 = q.meshTile.1 := hholds.scalar_append.1
  have hrow : q.tile.payload.scalar 4 = q.meshTile.2 := hholds.scalar_append.2.scalar
  unfold Roster.named
  rw [size_tile, if_neg (by decide), hcolumn, hrow]

theorem headerOf_extracted (path : String) :
    Navigation.headerOf path (extractedHeader.write .empty).bytes = .ok extractedHeader := by
  have hread : (MeshHeader.read (Buffer.ofBytes (extractedHeader.write .empty).bytes)).toOption.map
      (·.1) = some extractedHeader := by decide +kernel
  unfold Navigation.headerOf
  cases h : MeshHeader.read (Buffer.ofBytes (extractedHeader.write .empty).bytes) with
  | error e => rw [h] at hread; cases hread
  | ok found =>
    rw [h] at hread
    exact congrArg Except.ok (Option.some.inj hread)

theorem storedHeader_fullDisk : Navigation.storedHeader fullDisk "" 0 = .ok extractedHeader := by
  rw [← Navigation.loadHeader_eq]
  unfold Navigation.loadHeader fullDisk
  exact headerOf_extracted _

theorem extracted_fullDisk : Extracted Roster.plain "" fullDisk where
  header := by
    intro map h hload
    rw [← Navigation.loadHeader_eq] at hload
    unfold Navigation.loadHeader at hload
    cases hread : fullDisk (joinPath "" (meshFileName map.toNat)) with
    | error fault => simp only [hread] at hload; cases hload
    | ok bytes =>
      simp only [hread] at hload
      rcases fullDisk_cases hread with ⟨-, rfl⟩ | ⟨q, hpath, -⟩
      · rw [headerOf_extracted] at hload
        cases hload
        exact ⟨rfl, rfl, rfl, rfl⟩
      · exact absurd hpath.symm Square.path_ne_header
  tile := by
    intro map q bytes hread
    rcases fullDisk_cases hread with ⟨hpath, -⟩ | ⟨other, hpath, rfl⟩
    · exact absurd hpath Square.path_ne_header
    · rw [(Square.path_injective hpath).2]
      refine ⟨other.tile, MeshTile.decode_encode _ _ _ _ _ ?_, named_tile other⟩
      rw [size_tile]
      decide

/-! ## Any mesh -/

namespace Navigation

/-- Ways over rosters, on ground without terrain and without collision geometry. -/
def rosterWays : Navigation Unit Unit Roster :=
  ⟨⟨none, .absent⟩, some "", Roster.library, .checked⟩

/-- **Any mesh can be prepared:** one that has some squares and lacks another one. -/
theorem prepared_fullDisk (qs : List Square) (avoid : Square) :
    ∃ mesh, (rosterWays.afterAll fullDisk (preparing 0 (spot · avoid) qs)
        (fresh () ())).meshes[(0 : UInt32)]? = some mesh ∧
      Laid Roster.plain mesh ∧ (∀ q ∈ qs, Roster.plain.Has mesh q.meshTile) ∧
      (avoid ∉ qs → ¬ Roster.plain.Has mesh avoid.meshTile) := by
  obtain ⟨mesh, hmesh, hlaid, hhas, hmissed⟩ := prepared (n := rosterWays) extracted_fullDisk rfl
    (by decide) storedHeader_fullDisk (spot · avoid) qs (fun q _ => reaches_spot q avoid)
    (fun q _ => ⟨_, fullDisk_path q⟩) () ()
  refine ⟨mesh, hmesh, hlaid, hhas, fun havoid => hmissed avoid fun q hq step hstep => ?_⟩
  have hne : q ≠ avoid := by
    rintro rfl
    exact havoid hq
  exact misses_spot hne hstep

end Navigation

end Overland
