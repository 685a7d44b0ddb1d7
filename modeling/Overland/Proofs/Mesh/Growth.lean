import Std.Data.ExtHashMap
import Overland.Proofs.Mesh.Recording
import Overland.Proofs.Mesh.Roster

/-!
# What a sweep adds to a mesh

A sweep accounts for nine tiles and adds as many to the mesh as it says it did, whatever cells the
payloads of the files name: a payload may fill a cell that the sweep has passed already, or one that
it comes to later, or one far away.

* `MeshLibrary.Keeping` is what a library has to keep to for its tiles to be counted: a tile that it
  takes goes into one free cell, whichever cell its payload names, and one that it rejects changes
  nothing.
* `Growth` is what can be said of a mesh that has taken some tiles: it has so many more, and all
  that it had before, under the same references.  One step makes the mesh grow by what it counts
  (`Stepped.growth`), and so does a whole sweep (`Course.growth`).
* `trail` lists the meshes that the steps find, and `tileCall?` says which tile a step gives to the
  library, if any.  The record of the calls is told from them exactly (`record_sweepTiles`).
-/

namespace Overland

/-! ## Libraries that keep their tiles -/

/-- A library that keeps the tiles of its meshes.  A tile that is taken is put into one free cell,
under the reference that is answered; a tile that is rejected changes no tile. -/
structure MeshLibrary.Keeping {τ μ : Type} (library : MeshLibrary τ μ) where
  /-- The tiles of a mesh: the reference of each cell that has one. -/
  tiles : μ → Std.ExtHashMap (Int32 × Int32) UInt64
  hasTile_iff : ∀ mesh column row,
    library.hasTile mesh column row = true ↔ (column, row) ∈ tiles mesh
  accepted : ∀ {mesh tile t ref mesh' t'}, library.addTile mesh tile t = ((.ok ref, mesh'), t') →
    ∃ cell, cell ∉ tiles mesh ∧ tiles mesh' = (tiles mesh).insert cell ref
  rejected : ∀ {mesh tile t status mesh' t'},
    library.addTile mesh tile t = ((.error status, mesh'), t') → tiles mesh' = tiles mesh

/-! ## Growth -/

/-- A mesh has grown by a number of tiles. -/
structure MeshLibrary.Keeping.Growth {τ μ : Type} {library : MeshLibrary τ μ}
    (keeping : library.Keeping) (mesh mesh' : μ) (added : Nat) : Prop where
  size : (keeping.tiles mesh').size = (keeping.tiles mesh).size + added
  /-- A tile stays, and keeps its reference. -/
  kept : ∀ (cell : Int32 × Int32) (ref : UInt64), (keeping.tiles mesh)[cell]? = some ref →
    (keeping.tiles mesh')[cell]? = some ref

namespace MeshLibrary.Keeping

variable {τ μ : Type} {library : MeshLibrary τ μ} {keeping : library.Keeping}
  {mesh mesh' mesh'' : μ}

/-- Meshes with the same tiles have not grown. -/
theorem Growth.of_tiles (h : keeping.tiles mesh' = keeping.tiles mesh) :
    keeping.Growth mesh mesh' 0 where
  size := by rw [h, Nat.add_zero]
  kept cell ref hcell := h ▸ hcell

theorem Growth.trans {added added' : Nat} (h : keeping.Growth mesh mesh' added)
    (hlater : keeping.Growth mesh' mesh'' added') :
    keeping.Growth mesh mesh'' (added + added') where
  size := by rw [hlater.size, h.size, Nat.add_assoc]
  kept cell ref hcell := hlater.kept cell ref (h.kept cell ref hcell)

theorem Growth.hasTile {added : Nat} (h : keeping.Growth mesh mesh' added) {column row : Int32}
    (htile : library.hasTile mesh column row = true) : library.hasTile mesh' column row = true := by
  rw [keeping.hasTile_iff, Std.ExtHashMap.mem_iff_isSome_getElem?] at htile ⊢
  obtain ⟨ref, href⟩ := Option.isSome_iff_exists.1 htile
  rw [h.kept _ ref href]
  rfl

/-- A tile in a free cell is one tile more. -/
theorem Growth.of_insert {cell : Int32 × Int32} {ref : UInt64} (hfree : cell ∉ keeping.tiles mesh)
    (h : keeping.tiles mesh' = (keeping.tiles mesh).insert cell ref) :
    keeping.Growth mesh mesh' 1 where
  size := by rw [h, Std.ExtHashMap.size_insert, if_neg hfree]
  kept other ref' hother := by
    have hne : ¬ (cell == other) = true := by
      intro heq
      rw [← beq_iff_eq.1 heq, Std.ExtHashMap.getElem?_eq_none hfree] at hother
      cases hother
    rw [h, Std.ExtHashMap.getElem?_insert, if_neg hne, hother]

end MeshLibrary.Keeping

namespace Navigation

section Growth

variable {τ μ : Type} {library : MeshLibrary τ μ} {mesh mesh' : μ} {t t' : τ}

/-- **A step makes the mesh grow by what it counts,** whichever cell the tile is put into. -/
theorem Stepped.growth (keeping : library.Keeping) {cell : Int32 × Int32}
    {file : Except MeshError (Option MeshTile)} {outcome : SweepOutcome}
    (h : Stepped library cell file mesh t outcome mesh' t') :
    keeping.Growth mesh mesh' ([outcome].count .added) := by
  cases h with
  | present hcell => exact .of_tiles rfl
  | missing hcell hfile => exact .of_tiles rfl
  | unfit hcell hfile => exact .of_tiles rfl
  | accepted hcell hfile hadd =>
    obtain ⟨named, hfree, htiles⟩ := keeping.accepted hadd
    exact .of_insert hfree htiles
  | rejected hcell hfile hadd => exact .of_tiles (keeping.rejected hadd)

/-- **A sweep makes the mesh grow by what it counts.** -/
theorem Course.growth {σ : Type} {n : Navigation σ τ μ} (keeping : n.library.Keeping) {disk : Disk}
    {folder : String} {map : UInt32} {centre : SweepCentre} {steps : List (Int32 × Int32)}
    {outcomes : List SweepOutcome}
    (h : n.Course disk folder map centre steps mesh t outcomes mesh' t') :
    keeping.Growth mesh mesh' (outcomes.count .added) := by
  induction h with
  | nil => exact .of_tiles rfl
  | cons _ first _ ih =>
    rw [← List.singleton_append, List.count_append]
    exact (first.growth keeping).trans ih

end Growth

/-- Each outcome is counted once. -/
theorem count_ofOutcomes (outcomes : List SweepOutcome) :
    (SweepCount.ofOutcomes outcomes).added + (SweepCount.ofOutcomes outcomes).skipped
      + (SweepCount.ofOutcomes outcomes).failed = outcomes.length := by
  induction outcomes with
  | nil => rfl
  | cons outcome outcomes ih =>
    simp only [SweepCount.ofOutcomes] at ih ⊢
    cases outcome <;> simp <;> omega

/-! ## The calls of a sweep -/

section Calls

variable {σ τ μ : Type} (n : Navigation σ τ μ) (disk : Disk) (folder : String) (map : UInt32)
  (centre : SweepCentre)

/-- The steps of a sweep, each with the mesh that it finds, up to one that stops. -/
def trail : List (Int32 × Int32) → μ → NavigationState σ τ μ → List ((Int32 × Int32) × μ)
  | [], _, _ => []
  | step :: steps, mesh, s =>
    match n.sweepTile disk folder map centre step mesh s with
    | ((.error _, _), _) => []
    | ((.ok _, next), t) => (step, mesh) :: trail steps next t

/-- The call by which a step gives the tile in its file to the library: there is none if the mesh
that the step finds has a tile in its cell, nor if there is no tile in the file. -/
def tileCall? (number : Nat) (step : Int32 × Int32) (found : μ) : Option MeshCall :=
  if n.library.hasTile found (centre.cellAt step).1 (centre.cellAt step).2 then none
  else match centre.tileFor disk folder map step with
    | .ok (some tile) => some (.addTile number tile)
    | _ => none

theorem recorded_addTile {library : MeshLibrary τ μ} {mesh mesh' : NumberedMesh μ}
    {tile : MeshTile} {answer : Except Status UInt64} {t t' : List MeshCall × τ}
    (h : library.recorded.addTile mesh tile t = ((answer, mesh'), t')) :
    mesh'.call = mesh.call ∧ t'.1 = t.1 ++ [.addTile mesh.call tile] := by
  cases h
  exact ⟨rfl, rfl⟩

variable {n centre} in
/-- A step that does not stop records the call that it makes, and goes on with the same mesh. -/
theorem record_sweepTile {step : Int32 × Int32} {mesh : NumberedMesh μ}
    (h : n.Fits centre step mesh.mesh)
    (s : NavigationState σ (List MeshCall × τ) (NumberedMesh μ)) :
    ∃ outcome mesh' s',
      n.recorded.sweepTile disk folder map centre step mesh s = ((.ok outcome, mesh'), s') ∧
        mesh'.call = mesh.call ∧ s'.library.1 = s.library.1
          ++ (n.tileCall? disk folder map centre mesh.call step mesh.mesh).toList := by
  have hfits : n.recorded.Fits centre step mesh := h
  obtain ⟨outcome, mesh', s', hswept, hstep⟩ := stepped_sweepTile disk folder map hfits s
  refine ⟨outcome, mesh', s', hswept, ?_⟩
  have hlibrary : n.recorded.library.hasTile mesh = n.library.hasTile mesh.mesh := rfl
  unfold tileCall?
  generalize s'.library = t' at hstep ⊢
  cases hstep with
  | present hcell =>
    rw [hlibrary] at hcell
    rw [if_pos hcell]
    exact ⟨rfl, (List.append_nil _).symm⟩
  | missing hcell hfile =>
    rw [hlibrary] at hcell
    rw [if_neg (Bool.eq_false_iff.1 hcell), hfile]
    exact ⟨rfl, (List.append_nil _).symm⟩
  | unfit hcell hfile =>
    rw [hlibrary] at hcell
    rw [if_neg (Bool.eq_false_iff.1 hcell), hfile]
    exact ⟨rfl, (List.append_nil _).symm⟩
  | accepted hcell hfile hadd =>
    rw [hlibrary] at hcell
    rw [if_neg (Bool.eq_false_iff.1 hcell), hfile]
    exact recorded_addTile hadd
  | rejected hcell hfile hadd =>
    rw [hlibrary] at hcell
    rw [if_neg (Bool.eq_false_iff.1 hcell), hfile]
    exact recorded_addTile hadd

/-- **The calls of a sweep** are those of its steps, one after the other. -/
theorem record_sweepTiles (steps : List (Int32 × Int32)) (mesh : NumberedMesh μ)
    {s : NavigationState σ (List MeshCall × τ) (NumberedMesh μ)} {t : NavigationState σ τ μ}
    (h : Plainly s t) :
    (n.recorded.sweepTiles disk folder map centre steps mesh s).2.library.1
      = s.library.1 ++ (n.trail disk folder map centre steps mesh.mesh t).filterMap
          fun moment => n.tileCall? disk folder map centre mesh.call moment.1 moment.2 := by
  induction steps generalizing mesh s t with
  | nil => exact (List.append_nil _).symm
  | cons step steps ih =>
    by_cases hfits : n.Fits centre step mesh.mesh
    · obtain ⟨outcome, first, s', hfirst, hcall, hrecord⟩ :=
        record_sweepTile disk folder map hfits s
      obtain ⟨hanswer, hplain⟩ := n.follows_sweepTile disk folder map centre step mesh s t h
      rw [hfirst] at hanswer hplain
      have hfound : n.sweepTile disk folder map centre step mesh.mesh t
          = ((.ok outcome, first.mesh), (n.sweepTile disk folder map centre step mesh.mesh t).2) :=
        Prod.ext hanswer rfl
      rw [sweepTiles_of_ok hfirst, trail, hfound]
      dsimp only
      rw [ih first hplain, hrecord, hcall, List.append_assoc, List.filterMap_cons]
      cases n.tileCall? disk folder map centre mesh.call step mesh.mesh <;> rfl
    · have hstops : ¬ n.recorded.Fits centre step mesh := hfits
      obtain ⟨ground, hstop⟩ := sweepTile_of_not_fits hfits disk folder map t
      obtain ⟨ground', hstop'⟩ := sweepTile_of_not_fits hstops disk folder map s
      rw [sweepTiles_of_error hstop', trail, hstop]
      exact (List.append_nil _).symm

end Calls

end Navigation

/-! ## Rosters -/

namespace Roster

/-- The cells of a roster, all under the reference one. -/
def byCell (cells : List (Int32 × Int32)) : Std.ExtHashMap (Int32 × Int32) UInt64 :=
  cells.foldr (fun cell (tiles : Std.ExtHashMap _ _) => tiles.insert cell 1) ∅

theorem mem_byCell {cells : List (Int32 × Int32)} {cell : Int32 × Int32} :
    cell ∈ byCell cells ↔ cells.contains cell = true := by
  induction cells with
  | nil => simp [byCell]
  | cons first cells ih =>
    change cell ∈ (byCell cells).insert first 1 ↔ _
    rw [Std.ExtHashMap.mem_insert, ih, List.contains_cons, Bool.or_eq_true, Bool.beq_comm]

/-- What adding a tile to a roster does: it is rejected if its payload names no free cell. -/
theorem add_cases (roster : Roster) (tile : MeshTile) :
    (∃ status, roster.add tile = (.error status, roster) ∧
      ∀ cell, named tile = some cell → cell ∈ byCell roster.tiles) ∨
    ∃ cell, named tile = some cell ∧ cell ∉ byCell roster.tiles ∧
      roster.add tile = (.ok 1, { roster with tiles := cell :: roster.tiles }) := by
  unfold add
  cases named tile with
  | none => exact .inl ⟨_, rfl, nofun⟩
  | some cell =>
    by_cases hpresent : roster.tiles.contains cell = true
    · refine .inl ⟨_, if_pos hpresent, ?_⟩
      rintro _ ⟨⟩
      exact mem_byCell.2 hpresent
    · exact .inr ⟨cell, rfl, mt mem_byCell.1 hpresent, if_neg hpresent⟩

/-- The roster of a new extracted mesh. -/
def blank : Roster := ⟨extractedHeader, []⟩

/-- Rosters keep their tiles. -/
def keeping : library.Keeping where
  tiles roster := byCell roster.tiles
  hasTile_iff roster column row := mem_byCell.symm
  accepted {roster tile t ref roster' t'} hadd := by
    have hanswer : roster.add tile = (.ok ref, roster') := (Prod.mk.inj hadd).1
    rcases roster.add_cases tile with ⟨status, h, -⟩ | ⟨cell, -, hfree, h⟩
    · rw [h] at hanswer
      cases hanswer
    · rw [h] at hanswer
      cases hanswer
      exact ⟨cell, hfree, rfl⟩
  rejected {roster tile t status roster' t'} hadd := by
    have hanswer : roster.add tile = (.error status, roster') := (Prod.mk.inj hadd).1
    rcases roster.add_cases tile with ⟨status, h, -⟩ | ⟨cell, -, hfree, h⟩
    · rw [h] at hanswer
      cases hanswer
      rfl
    · rw [h] at hanswer
      cases hanswer

end Roster

namespace Navigation

/-! ## Accounting for a sweep -/

variable {σ τ μ : Type}

/-- A state as a record can start from it: the record is empty, and the meshes, which come from
before it, all have the number zero. -/
def numbered (s : NavigationState σ τ μ) :
    NavigationState σ (List MeshCall × τ) (NumberedMesh μ) :=
  ⟨s.ground, s.meshes.map fun _ mesh => ⟨0, mesh⟩, [], s.library⟩

theorem plainly_numbered (s : NavigationState σ τ μ) : Plainly (numbered s) s where
  ground := rfl
  meshes map := by
    simp only [numbered, Std.HashMap.getElem?_map, Option.map_map]
    exact Option.map_id'.symm
  library := rfl

theorem meshIn_numbered (s : NavigationState σ τ μ) (map : UInt32) :
    meshIn (numbered s) map = (meshIn s map).map fun mesh => ⟨0, mesh⟩ := by
  unfold meshIn numbered
  rw [Std.HashMap.getElem?_map]
  split <;> rfl

section Sweep

variable {n : Navigation σ τ μ} {folder : String} {s : NavigationState σ τ μ} {owner : UInt32}
  {mesh : μ}

/-- A sweep answers the count of nine outcomes, by which the mesh has grown, or stops with a mesh
that has grown. -/
theorem growth_sweep (keeping : n.library.Keeping) (hfolder : n.meshFolder = some folder)
    (disk : Disk) (position : MeshPosition) (map : UInt32) (hmesh : meshIn s owner = some mesh) :
    ∃ outcomes mesh', meshIn (n.sweep disk position map owner s).2 owner = some mesh' ∧
      keeping.Growth mesh mesh' (outcomes.count .added) ∧
      ((outcomes.length = 9 ∧
          (n.sweep disk position map owner s).1 = .ok (some (.ofOutcomes outcomes))) ∨
        (n.arithmetic = .checked ∧ ¬ InnerCentre (sweepCentre n.library mesh position) ∧
          (n.sweep disk position map owner s).1 = .error .overflow)) := by
  obtain ⟨taken, outcomes, mesh', t', hcourse, hmesh', hend⟩ :=
    course_sweep disk map hfolder position hmesh
  refine ⟨outcomes, mesh', hmesh', hcourse.growth keeping, ?_⟩
  rcases hend with ⟨rfl, hanswer⟩ | ⟨step, rest, hsteps, hstop, hanswer⟩
  · exact .inl ⟨hcourse.length_outcomes, hanswer⟩
  · obtain ⟨hchecked, hinner⟩ := of_not_fits_at hstop hsteps
    exact .inr ⟨hchecked, hinner, hanswer⟩

/-- The record of a sweep. -/
theorem record_sweep (hfolder : n.meshFolder = some folder) (disk : Disk) (position : MeshPosition)
    (map : UInt32) (hmesh : meshIn s owner = some mesh) :
    (n.recorded.sweep disk position map owner (numbered s)).2.library.1
      = (n.trail disk folder map (sweepCentre n.library mesh position) neighbourhood mesh
          s).filterMap fun moment =>
            n.tileCall? disk folder map (sweepCentre n.library mesh position) 0 moment.1
              moment.2 := by
  have hnumbered : meshIn (numbered s) owner = some ⟨0, mesh⟩ := by
    rw [meshIn_numbered, hmesh]
    rfl
  have hfolder' : n.recorded.meshFolder = some folder := hfolder
  obtain ⟨-, -, hlibrary⟩ := sweep_of_mesh disk map hfolder' position hnumbered
  have hcentre : sweepCentre n.recorded.library ⟨0, mesh⟩ position
      = sweepCentre n.library mesh position := rfl
  rw [hlibrary, hcentre, n.record_sweepTiles disk folder map _ neighbourhood ⟨0, mesh⟩
    (plainly_numbered s)]
  exact List.nil_append _

end Sweep

/-- **A sweep accounts for nine tiles,** for any files, any mesh and any library that keeps its
tiles.

It comes to its end, and the mesh has as many more tiles as were added; or it stops, which happens
only if sums are checked and the centre of the sweep is not of inner words.  Either way every tile
that was there before is still there under the same reference.  The calls that give a tile to the
library are exactly those of the steps that find their cell free in the mesh as it is at that
moment; the record that tells them changes nothing. -/
theorem sweep_accounted (n : Navigation σ τ μ) (keeping : n.library.Keeping) {folder : String}
    (hfolder : n.meshFolder = some folder) (disk : Disk) (position : MeshPosition) (map : UInt32)
    {owner : UInt32} {s : NavigationState σ τ μ} {mesh : μ} (hmesh : meshIn s owner = some mesh) :
    ∃ mesh', meshIn (n.sweep disk position map owner s).2 owner = some mesh' ∧
      ((∃ count : SweepCount, (n.sweep disk position map owner s).1 = .ok (some count) ∧
          count.added + count.skipped + count.failed = 9 ∧
          (keeping.tiles mesh').size = (keeping.tiles mesh).size + count.added) ∨
        (n.arithmetic = .checked ∧ ¬ InnerCentre (sweepCentre n.library mesh position) ∧
          (n.sweep disk position map owner s).1 = .error .overflow)) ∧
      (∀ (cell : Int32 × Int32) (ref : UInt64), (keeping.tiles mesh)[cell]? = some ref →
        (keeping.tiles mesh')[cell]? = some ref) ∧
      ((n.recorded.sweep disk position map owner (numbered s)).1
          = (n.sweep disk position map owner s).1 ∧
        Plainly (n.recorded.sweep disk position map owner (numbered s)).2
          (n.sweep disk position map owner s).2) ∧
      (n.recorded.sweep disk position map owner (numbered s)).2.library.1
        = (n.trail disk folder map (sweepCentre n.library mesh position) neighbourhood mesh
            s).filterMap fun moment =>
              n.tileCall? disk folder map (sweepCentre n.library mesh position) 0 moment.1
                moment.2 := by
  obtain ⟨outcomes, mesh', hmesh', hgrowth, hend⟩ :=
    growth_sweep keeping hfolder disk position map hmesh
  obtain ⟨hrecorded, hplain⟩ :=
    n.follows_sweep disk position map owner (numbered s) s (plainly_numbered s)
  refine ⟨mesh', hmesh', hend.imp_left ?_, hgrowth.kept, ⟨hrecorded.symm, hplain⟩,
    record_sweep hfolder disk position map hmesh⟩
  rintro ⟨hlength, hanswer⟩
  exact ⟨.ofOutcomes outcomes, hanswer, (count_ofOutcomes outcomes).trans hlength, hgrowth.size⟩

/-- A disk on which every file has the tile of the same square. -/
def mislabelledDisk (q : Square) : Disk := fun _ => .ok q.file

/-- Where every file has the same tile, it is added once and rejected eight times. -/
theorem sweep_accounted_mislabelled :
    (rosterWays.meshFolder = some "" ∧ meshIn (holding Roster.blank) 0 = some .blank) ∧
      ∃ mesh', (rosterWays.sweep (mislabelledDisk ⟨3, 5⟩) ⟨0, 0, 0⟩ 0 0 (holding .blank)).1
          = .ok (some ⟨1, 0, 8⟩) ∧
        meshIn (rosterWays.sweep (mislabelledDisk ⟨3, 5⟩) ⟨0, 0, 0⟩ 0 0 (holding .blank)).2 0
          = some mesh' ∧
        (Roster.byCell mesh'.tiles).size = 1 := by
  refine ⟨⟨rfl, meshIn_holding Roster.blank⟩, ?_⟩
  obtain ⟨mesh', hmesh', hend, -⟩ :=
    sweep_accounted rosterWays Roster.keeping rfl (mislabelledDisk ⟨3, 5⟩) ⟨0, 0, 0⟩ 0
      (meshIn_holding Roster.blank)
  obtain ⟨hanswer, -⟩ :=
    sweep_of_mesh (mislabelledDisk ⟨3, 5⟩) 0 (rfl : rosterWays.meshFolder = some "") ⟨0, 0, 0⟩
      (meshIn_holding Roster.blank)
  have houtcomes : (rosterWays.sweepTiles (mislabelledDisk ⟨3, 5⟩) "" 0
      (sweepCentre rosterWays.library .blank ⟨0, 0, 0⟩) neighbourhood .blank
      (holding .blank)).1.1.map (fun outcomes => some (SweepCount.ofOutcomes outcomes))
        = .ok (some ⟨1, 0, 8⟩) := by decide +kernel
  have hsweep := hanswer.trans houtcomes
  rcases hend with ⟨count, hcount, -, hsize⟩ | ⟨-, -, hstop⟩
  · rw [hcount] at hsweep
    cases hsweep
    exact ⟨mesh', hcount, hmesh', hsize⟩
  · rw [hsweep] at hstop
    cases hstop

end Navigation

end Overland
