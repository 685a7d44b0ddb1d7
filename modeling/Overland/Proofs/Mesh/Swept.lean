import Overland.Proofs.Mesh.Beyond
import Overland.Proofs.Mesh.Course

/-!
# What a sweep does to a mesh

A step of a sweep looks at one cell of the mesh (`SweepCentre.cellAt`) and, if it is empty, reads
the file of one square (`SweepCentre.squareAt`).  Nothing in a step makes the two belong together.

`Stepped.has` says exactly which tiles the mesh has after one step.  `Swept` collects what follows
for a whole sweep: no tile is lost, every new tile comes from a file that some step read, and every
step ends with the tile of its file or with a tile in the cell that it looked at.  A sweep that
stops has no less done than one that goes on, since it is made so far from the map that there is
nothing to do (`beyond_of_not_inner`).  `swept_sweep` and `loadMesh_cases` say how the meshes of all
maps change.
-/

namespace Overland.Navigation

/-! ## The cells and files of a sweep -/

namespace SweepCentre

/-- The square whose file a step reads, if there is one. -/
def squareAt (c : SweepCentre) (step : Int32 × Int32) : Option Square :=
  Overland.squareAt (c.gridX - step.2) (c.gridY - step.1)

/-- The centre of a sweep in an extracted mesh. -/
def extracted (position : MeshPosition) : SweepCentre where
  column := meshIndex position.first
  row := meshIndex position.third
  gridX := gridIndex position.third
  gridY := gridIndex position.first

theorem pathAt_eq (c : SweepCentre) (folder : String) (map : UInt32) (step : Int32 × Int32) :
    c.pathAt folder map step = (c.squareAt step).map (Square.path folder map) :=
  tilePath?_eq folder map _ _

end SweepCentre

/-- **A sweep that may stop is made far from the map:** it reads no file, and looks at no cell of
the map. -/
theorem beyond_of_not_inner {position : MeshPosition} (h : ¬ InnerCentre (.extracted position))
    {step : Int32 × Int32} (hstep : step ∈ neighbourhood) :
    (SweepCentre.extracted position).squareAt step = none ∧
      squareOf ((SweepCentre.extracted position).cellAt step) = none := by
  obtain ⟨hfirst, hsecond⟩ := mem_neighbourhood.1 hstep
  rcases counts_together position.first with ⟨hcolumn, hgridY⟩ | hbeyond
  · rcases counts_together position.third with ⟨hrow, hgridX⟩ | hbeyond
    · exact absurd ⟨hcolumn, hrow, hgridX, hgridY⟩ h
    · obtain ⟨hcell, hfile⟩ := hbeyond step.2 hsecond
      exact ⟨squareAt_of_left hfile, squareAt_of_left hcell⟩
  · obtain ⟨hcell, hfile⟩ := hbeyond step.1 hfirst
    exact ⟨squareAt_of_right hfile, squareAt_of_right hcell⟩

variable {σ τ μ : Type}

theorem sweepCentre_eq {library : MeshLibrary τ μ} (plain : library.Plain) {mesh : μ}
    (h : (plain.header mesh).IsExtracted) (position : MeshPosition) :
    sweepCentre library mesh position = .extracted position := by
  rw [sweepCentre, plain.tileOf_eq, h.tileOf_eq]
  rfl

section Sweep

variable {n : Navigation σ τ μ} {plain : n.library.Plain} {folder : String} {disk : Disk}

/-- What a step finds in extracted files: the tile of the square whose file it reads, if there is
that file, and no tile otherwise. -/
theorem tileFor_cases (hfiles : Extracted plain folder disk) (map : UInt32) (c : SweepCentre)
    (step : Int32 × Int32) :
    (∃ q tile, c.squareAt step = some q ∧ HasFile disk folder map q ∧
      c.tileFor disk folder map step = .ok (some tile) ∧ plain.named tile = some q.meshTile) ∨
    ((∀ q, c.squareAt step = some q → ¬ HasFile disk folder map q) ∧
      ∀ tile, c.tileFor disk folder map step ≠ .ok (some tile)) := by
  unfold SweepCentre.tileFor
  rw [c.pathAt_eq]
  cases hq : c.squareAt step with
  | none => exact .inr ⟨nofun, nofun⟩
  | some q =>
    dsimp only [Option.map_some]
    cases hread : disk (q.path folder map) with
    | error fault =>
      refine .inr ⟨?_, ?_⟩
      · rintro _ ⟨⟩ ⟨bytes, hbytes⟩
        rw [hread] at hbytes
        cases hbytes
      · unfold MeshTile.load
        rw [hread]
        cases fault <;> exact nofun
    | ok bytes =>
      obtain ⟨tile, hdecode, hnamed⟩ := hfiles.tile map q bytes hread
      refine .inl ⟨q, tile, rfl, ⟨bytes, hread⟩, ?_, hnamed⟩
      simp [MeshTile.load, hread, hdecode, Except.map]

/-- What one step of a sweep does to a mesh: where the cell that it looks at is empty, the tile of
the square whose file it reads is added. -/
theorem Stepped.has (hfiles : Extracted plain folder disk) {map : UInt32} {c : SweepCentre}
    {step : Int32 × Int32} {mesh mesh' : μ} {t t' : τ} {outcome : SweepOutcome}
    (h : Stepped n.library (c.cellAt step) (c.tileFor disk folder map step) mesh t outcome mesh'
      t') :
    plain.header mesh' = plain.header mesh ∧
      ∀ cell, plain.Has mesh' cell ↔
        plain.Has mesh cell ∨ ¬ plain.Has mesh (c.cellAt step) ∧
          ∃ q, c.squareAt step = some q ∧ HasFile disk folder map q ∧ cell = q.meshTile := by
  have hkept (hno : ∀ tile, c.tileFor disk folder map step ≠ .ok (some tile))
      (cell : Int32 × Int32) :
      plain.Has mesh cell ↔ plain.Has mesh cell ∨ ¬ plain.Has mesh (c.cellAt step) ∧
        ∃ q, c.squareAt step = some q ∧ HasFile disk folder map q ∧ cell = q.meshTile := by
    rcases tileFor_cases hfiles map c step with ⟨_, tile, _, _, hfound, _⟩ | ⟨hnone, _⟩
    · exact absurd hfound (hno tile)
    · exact ⟨.inl, fun h => h.elim id fun ⟨_, q, hq, hfile, _⟩ => absurd hfile (hnone q hq)⟩
  have hadded {tile : MeshTile} {answer : Except Status UInt64}
      (hempty : n.library.hasTile mesh (c.cellAt step).1 (c.cellAt step).2 = false)
      (hfile : c.tileFor disk folder map step = .ok (some tile))
      (hadd : n.library.addTile mesh tile t = ((answer, mesh'), t')) :
      plain.header mesh' = plain.header mesh ∧
        ∀ cell, plain.Has mesh' cell ↔ plain.Has mesh cell ∨ ¬ plain.Has mesh (c.cellAt step) ∧
          ∃ q, c.squareAt step = some q ∧ HasFile disk folder map q ∧ cell = q.meshTile := by
    have hmesh : mesh' = (n.library.addTile mesh tile t).1.2 := by rw [hadd]
    rcases tileFor_cases hfiles map c step with ⟨q, _, hq, hhas, hfound, hnamed⟩ | ⟨-, hno⟩
    · rw [hfile] at hfound
      cases hfound
      have hfree : ¬ plain.Has mesh (c.cellAt step) := Bool.eq_false_iff.1 hempty
      refine ⟨hmesh ▸ plain.header_addTile mesh tile t, fun cell => ?_⟩
      unfold MeshLibrary.Plain.Has at hfree ⊢
      rw [hmesh, plain.hasTile_addTile, hnamed, Bool.or_eq_true, beq_iff_eq, Option.some.injEq]
      refine or_congr_right ⟨fun h => ⟨hfree, q, hq, hhas, h.symm⟩, ?_⟩
      rintro ⟨-, q', hq', -, rfl⟩
      rw [hq] at hq'
      cases hq'
      rfl
    · exact absurd hfile (hno tile)
  cases h with
  | present hcell =>
    have hpresent : plain.Has mesh (c.cellAt step) := hcell
    exact ⟨rfl, fun cell => by simp [hpresent]⟩
  | missing _ hfile => exact ⟨rfl, hkept (by rw [hfile]; exact nofun)⟩
  | unfit _ hfile => exact ⟨rfl, hkept (by rw [hfile]; exact nofun)⟩
  | accepted hempty hfile hadd => exact hadded hempty hfile hadd
  | rejected hempty hfile hadd => exact hadded hempty hfile hadd

/-- What a sweep over a list of steps does to a mesh. -/
structure Swept (plain : n.library.Plain) (disk : Disk) (folder : String) (map : UInt32)
    (centre : SweepCentre) (steps : List (Int32 × Int32)) (mesh mesh' : μ) : Prop where
  header : plain.header mesh' = plain.header mesh
  /-- No tile is lost. -/
  kept : ∀ cell, plain.Has mesh cell → plain.Has mesh' cell
  /-- A new tile comes from a file that some step read, since the cell that the step looked at was
  empty. -/
  new : ∀ cell, plain.Has mesh' cell → plain.Has mesh cell ∨
    ∃ step ∈ steps, ¬ plain.Has mesh (centre.cellAt step) ∧
      ∃ q, centre.squareAt step = some q ∧ HasFile disk folder map q ∧ cell = q.meshTile
  /-- A step ends with the tile of its file, or with a tile in the cell that it looked at. -/
  done : ∀ step ∈ steps, ∀ q, centre.squareAt step = some q → HasFile disk folder map q →
    plain.Has mesh' q.meshTile ∨ plain.Has mesh' (centre.cellAt step)

section Course

variable {map : UInt32} {c : SweepCentre} {steps : List (Int32 × Int32)} {mesh mesh' : μ} {t t' : τ}
  {outcomes : List SweepOutcome}

theorem Course.swept (hfiles : Extracted plain folder disk)
    (h : n.Course disk folder map c steps mesh t outcomes mesh' t') :
    Swept plain disk folder map c steps mesh mesh' := by
  induction h with
  | nil => constructor <;> simp
  | @cons step steps mesh first mesh' _ _ _ _ _ _ hstepped _ hrest =>
    obtain ⟨hheader, hhas⟩ := hstepped.has hfiles
    have hkept : ∀ cell, plain.Has mesh cell → plain.Has first cell :=
      fun cell h => (hhas cell).2 (.inl h)
    refine ⟨hrest.header.trans hheader, fun cell h => hrest.kept cell (hkept cell h), ?_, ?_⟩
    · intro cell hcell
      rcases hrest.new cell hcell with hcell | ⟨other, hother, hempty, hq⟩
      · rcases (hhas cell).1 hcell with hcell | ⟨hempty, hq⟩
        · exact .inl hcell
        · exact .inr ⟨step, List.mem_cons_self, hempty, hq⟩
      · exact .inr ⟨other, List.mem_cons_of_mem _ hother, mt (hkept _) hempty, hq⟩
    · intro other hother q hq hfile
      rcases List.mem_cons.1 hother with rfl | hother
      · by_cases hpresent : plain.Has mesh (c.cellAt other)
        · exact .inr (hrest.kept _ (hkept _ hpresent))
        · exact .inl (hrest.kept _ ((hhas _).2 (.inr ⟨hpresent, q, hq, hfile, rfl⟩)))
      · exact hrest.done other hother q hq hfile

/-- Steps that read no file have nothing left to do. -/
theorem Swept.mono {taken : List (Int32 × Int32)}
    (h : Swept plain disk folder map c taken mesh mesh') (hsub : taken ⊆ steps)
    (hnone : ∀ step ∈ steps, c.squareAt step = none) :
    Swept plain disk folder map c steps mesh mesh' where
  header := h.header
  kept := h.kept
  new cell hcell := (h.new cell hcell).imp_right fun ⟨step, hstep, hq⟩ => ⟨step, hsub hstep, hq⟩
  done step hstep q hq := by
    rw [hnone step hstep] at hq
    cases hq

/-- In a sweep that reads no file the mesh does not change, so a step that does not stop would not
have stopped at the start. -/
theorem Course.fits_of_squares_none (hfiles : Extracted plain folder disk)
    (h : n.Course disk folder map c steps mesh t outcomes mesh' t')
    (hnone : ∀ step ∈ steps, c.squareAt step = none) {step : Int32 × Int32} (hstep : step ∈ steps) :
    n.Fits c step mesh := by
  induction h with
  | nil => cases hstep
  | @cons next steps mesh first _ _ _ _ _ _ fits hstepped _ ih =>
    rcases List.mem_cons.1 hstep with rfl | hstep
    · exact fits
    · refine (ih (fun later hlater => hnone later (List.mem_cons_of_mem _ hlater)) hstep).mono ?_
      intro htile
      have hhas := ((hstepped.has hfiles).2 (c.cellAt step)).1 htile
      refine hhas.elim id fun ⟨_, q, hq, _⟩ => ?_
      rw [hnone next List.mem_cons_self] at hq
      cases hq

end Course

/-! ## The meshes of all maps -/

/-- What a sweep does to the meshes, the one of its owner being an extracted one. -/
theorem swept_sweep (hfiles : Extracted plain folder disk) (hfolder : n.meshFolder = some folder)
    {owner : UInt32} (howner : owner < mapLimit) {mesh : μ} {s : NavigationState σ τ μ}
    (hmesh : s.meshes[owner]? = some mesh) (hheader : (plain.header mesh).IsExtracted)
    (position : MeshPosition) (map : UInt32) :
    ∃ mesh', Swept plain disk folder map (.extracted position) neighbourhood mesh mesh' ∧
      (n.sweep disk position map owner s).2.meshes = s.meshes.insert owner mesh' := by
  refine ⟨_, ?_,
    meshes_sweep hfolder disk position map (meshIn_eq_some_iff.2 ⟨howner, hmesh⟩)⟩
  rw [sweepCentre_eq plain hheader]
  obtain ⟨taken, outcomes, hcourse, hend⟩ :=
    n.course_sweepTiles disk folder map (.extracted position) neighbourhood mesh s
  have hswept := hcourse.swept hfiles
  rcases hend with ⟨rfl, -⟩ | ⟨step, rest, hsteps, hstop, -⟩
  · exact hswept
  · -- a step that stops is far from the map, and so are those after it
    have hsub : taken ⊆ neighbourhood := by
      rw [hsteps]
      exact List.subset_append_left _ _
    exact hswept.mono hsub fun other hother =>
      (beyond_of_not_inner (of_not_fits_at hstop hsteps).2 hother).1

/-- **When a sweep of an extracted mesh stops:** exactly if sums are checked and the centre is not
of inner words, whatever tiles of the map the mesh has. -/
theorem sweep_stops_iff (hfiles : Extracted plain folder disk)
    (hfolder : n.meshFolder = some folder) {owner : UInt32} {mesh : μ}
    {s : NavigationState σ τ μ} (hmesh : meshIn s owner = some mesh)
    (hheader : (plain.header mesh).IsExtracted)
    (honMap : ∀ cell, plain.Has mesh cell → ∃ q : Square, cell = q.meshTile)
    (position : MeshPosition) (map : UInt32) :
    (n.sweep disk position map owner s).1 = .error .overflow ↔
      n.arithmetic = .checked ∧ ¬ InnerCentre (.extracted position) := by
  obtain ⟨taken, outcomes, mesh', t', hcourse, -, hend⟩ :=
    course_sweep disk map hfolder position hmesh
  rw [sweepCentre_eq plain hheader] at hcourse hend
  rcases hend with ⟨rfl, hanswer⟩ | ⟨step, rest, hsteps, hstop, hanswer⟩
  · rw [hanswer]
    refine ⟨nofun, fun ⟨hchecked, hinner⟩ => ?_⟩
    -- all steps would have been made in a mesh that has none of their cells
    obtain ⟨step, hstep, hstops⟩ := exists_not_fits hchecked hinner
    have hnone := fun other (hother : other ∈ neighbourhood) => beyond_of_not_inner hinner hother
    refine absurd (hcourse.fits_of_squares_none hfiles
      (fun other hother => (hnone other hother).1) hstep) (hstops mesh fun htile => ?_)
    obtain ⟨q, hq⟩ := honMap _ htile
    have hcell := (hnone step hstep).2
    rw [squareOf_eq_some_iff.2 hq] at hcell
    cases hcell
  · exact ⟨fun _ => of_not_fits_at hstop hsteps, fun _ => hanswer⟩

/-- **What asking for a mesh does.**  The mesh is there, or there is no header to create it from, or
it is created without any tiles; beyond the last map there is none. -/
theorem loadMesh_cases (plain : n.library.Plain) (hfolder : n.meshFolder = some folder)
    (disk : Disk) (map : UInt32) (s : NavigationState σ τ μ) :
    (¬ map < mapLimit ∧ n.loadMesh disk map s = (.error (.mapOutOfRange map), s)) ∨
    (∃ mesh, map < mapLimit ∧ s.meshes[map]? = some mesh ∧
      n.loadMesh disk map s = (.ok mesh, s)) ∨
    (∃ e, map < mapLimit ∧ s.meshes[map]? = none ∧ storedHeader disk folder map = .error e ∧
      n.loadMesh disk map s = (.error e, s)) ∨
    (∃ header mesh t, map < mapLimit ∧ s.meshes[map]? = none ∧
      storedHeader disk folder map = .ok header ∧ plain.header mesh = header ∧
      (∀ cell, ¬ plain.Has mesh cell) ∧
      n.loadMesh disk map s = (.ok mesh, ⟨s.ground, s.meshes.insert map mesh, t⟩)) := by
  by_cases hmap : map < mapLimit
  · have hmeshIn : meshIn s map = s.meshes[map]? := if_pos hmap
    have hheaderFor : n.headerFor disk map = storedHeader disk folder map := by
      rw [headerFor, hfolder]
      exact if_pos hmap
    right
    rw [← hmeshIn, ← hheaderFor]
    rcases n.loadMesh_outcomes disk map s with ⟨mesh, hmesh, h⟩ | ⟨e, habsent, hheader, h⟩
      | ⟨header, status, t, -, -, hcreate, -⟩ | ⟨header, mesh, t, -, habsent, hheader, hcreate, h⟩
    case inl => exact .inl ⟨mesh, hmap, hmesh, h⟩
    case inr.inl =>
      have hnone := habsent.resolve_left (by rw [hfolder]; exact nofun)
      exact .inr (.inl ⟨e, hmap, hnone, hheader, h⟩)
    case inr.inr.inl =>
      -- the library takes every header
      obtain ⟨mesh, haccepted, -⟩ := plain.create_eq header s.library
      rw [hcreate] at haccepted
      cases haccepted
    case inr.inr.inr =>
      obtain ⟨created, haccepted, hheader', hempty⟩ := plain.create_eq header s.library
      rw [hcreate] at haccepted
      cases haccepted
      refine .inr (.inr ⟨header, mesh, t, hmap, habsent, hheader, hheader', ?_, h⟩)
      intro cell hcell
      rw [MeshLibrary.Plain.Has, hempty] at hcell
      cases hcell
  · left
    refine ⟨hmap, ?_⟩
    unfold loadMesh
    rw [hfolder]
    dsimp only
    rw [if_neg hmap]
    rfl

end Sweep

end Overland.Navigation
