import Overland.Proofs.Mesh.Aligned
import Overland.Proofs.Mesh.History

/-!
# Sweeping again

A sweep that is made a second time has nothing left to add, over files that stay the same and
whatever became of the mesh in the meantime.  The files may hold anything: a cell that the sweep
looks at may stay free for good, because its file has the tile of another cell, and then the file is
given to the library each time.

* `MeshLibrary.Deciding` is a library that rejects a tile for an occupied cell and decides about any
  other from its payload alone.
* `Spent` says why a step has nothing to add to a mesh.  Every step leaves it so (`Stepped.spent`),
  a mesh that grows keeps it so (`Spent.mono`), and a spent step changes nothing
  (`Stepped.of_spent`).
* `sweep_again` is what follows for whole sweeps, with any requests in between.
-/

namespace Overland

/-! ## Libraries that decide from the payload -/

/-- A library that rejects a tile for an occupied cell, and otherwise decides from the payload
alone.  A tile that is rejected leaves the mesh as it is, and in which tile a position lies does not
depend on the tiles that a mesh has. -/
structure MeshLibrary.Deciding {τ μ : Type} (library : MeshLibrary τ μ) extends
    MeshLibrary.Accepting library where
  occupied : ∀ {tile cell} mesh t, named tile = some cell → cell ∈ tiles mesh →
    ∃ status mesh' t', library.addTile mesh tile t = ((.error status, mesh'), t')
  unchanged : ∀ {mesh tile t status mesh' t'},
    library.addTile mesh tile t = ((.error status, mesh'), t') → mesh' = mesh
  tileOf_addTile : ∀ mesh tile t,
    library.tileOf (library.addTile mesh tile t).1.2 = library.tileOf mesh

namespace MeshLibrary

variable {τ μ : Type} {library : MeshLibrary τ μ} {mesh mesh' : μ}

/-- A mesh that grows loses no tile, whatever is given to the library. -/
theorem Keeping.mem_of_grown (keeping : library.Keeping) (h : library.Grown mesh mesh')
    {cell : Int32 × Int32} (hcell : cell ∈ keeping.tiles mesh) : cell ∈ keeping.tiles mesh' := by
  induction h with
  | refl => exact hcell
  | @addTile now _ tile t ih =>
    rcases hadd : library.addTile now tile t with ⟨⟨answer, next⟩, t'⟩
    cases answer with
    | ok ref =>
      obtain ⟨added, -, htiles⟩ := keeping.accepted hadd
      rw [htiles, Std.ExtHashMap.mem_insert]
      exact .inr ih
    | error status =>
      rw [keeping.rejected hadd]
      exact ih

theorem Keeping.hasTile_of_grown (keeping : library.Keeping) (h : library.Grown mesh mesh')
    {column row : Int32} (htile : library.hasTile mesh column row = true) :
    library.hasTile mesh' column row = true := by
  rw [keeping.hasTile_iff] at htile ⊢
  exact keeping.mem_of_grown h htile

namespace Deciding

variable (deciding : library.Deciding)

include deciding in
/-- In which tile a position lies stays the same while a mesh grows. -/
theorem tileOf_of_grown (h : library.Grown mesh mesh') :
    library.tileOf mesh' = library.tileOf mesh := by
  induction h with
  | refl => rfl
  | addTile _ tile t ih => exact (deciding.tileOf_addTile _ tile t).trans ih

/-- Why a step that looks at a cell and reads a file has nothing to add to a mesh. -/
inductive Spent (mesh : μ) (cell : Int32 × Int32) (file : Except MeshError (Option MeshTile)) : Prop
  /-- The cell has a tile. -/
  | present (hcell : cell ∈ deciding.tiles mesh)
  /-- There is no file. -/
  | missing (hfile : file = .ok none)
  /-- The file is no tile. -/
  | unfit {e : MeshError} (hfile : file = .error e)
  /-- The library takes the tile for no cell. -/
  | refused {tile : MeshTile} (hfile : file = .ok (some tile)) (hnamed : deciding.named tile = none)
  /-- The tile is for an occupied cell, maybe another one than that of the step. -/
  | taken {tile : MeshTile} {named : Int32 × Int32} (hfile : file = .ok (some tile))
    (hnamed : deciding.named tile = some named) (hcell : named ∈ deciding.tiles mesh)

variable {deciding}

/-- A mesh that grows has no more use for a step than before. -/
theorem Spent.mono {cell : Int32 × Int32} {file : Except MeshError (Option MeshTile)}
    (h : deciding.Spent mesh cell file) (hgrown : library.Grown mesh mesh') :
    deciding.Spent mesh' cell file := by
  cases h with
  | present hcell => exact .present (deciding.mem_of_grown hgrown hcell)
  | missing hfile => exact .missing hfile
  | unfit hfile => exact .unfit hfile
  | refused hfile hnamed => exact .refused hfile hnamed
  | taken hfile hnamed hcell => exact .taken hfile hnamed (deciding.mem_of_grown hgrown hcell)

end Deciding

end MeshLibrary

namespace Navigation

variable {σ τ μ : Type}

/-! ## Spent steps -/

section Spent

variable {library : MeshLibrary τ μ} {deciding : library.Deciding} {mesh mesh' : μ} {t t' : τ}

theorem Stepped.grown {cell : Int32 × Int32} {file : Except MeshError (Option MeshTile)}
    {outcome : SweepOutcome} (h : Stepped library cell file mesh t outcome mesh' t') :
    library.Grown mesh mesh' := by
  have hgiven {tile : MeshTile} {answer : Except Status UInt64}
      (hadd : library.addTile mesh tile t = ((answer, mesh'), t')) : library.Grown mesh mesh' := by
    have hadded : library.Grown mesh (library.addTile mesh tile t).1.2 := .addTile .refl tile t
    rwa [hadd] at hadded
  cases h with
  | present | missing | unfit => exact .refl
  | accepted _ _ hadd | rejected _ _ hadd => exact hgiven hadd

/-- **A step leaves nothing to add.**  What it could add, it has added; and a tile that the library
rejected is for an occupied cell, or for none. -/
theorem Stepped.spent {cell : Int32 × Int32} {file : Except MeshError (Option MeshTile)}
    {outcome : SweepOutcome} (h : Stepped library cell file mesh t outcome mesh' t') :
    deciding.Spent mesh' cell file := by
  cases h with
  | present hcell => exact .present ((deciding.hasTile_iff mesh cell.1 cell.2).1 hcell)
  | missing _ hfile => exact .missing hfile
  | unfit _ hfile => exact .unfit hfile
  | accepted _ hfile hadd =>
    rename_i tile ref
    cases hnamed : deciding.named tile with
    | none => exact .refused hfile hnamed
    | some named =>
      refine .taken hfile hnamed ?_
      -- the cell was free, for else the library would have rejected the tile
      have hfree : named ∉ deciding.tiles mesh := by
        intro hcell
        obtain ⟨status, _, _, hrejected⟩ := deciding.occupied mesh t hnamed hcell
        rw [hadd] at hrejected
        cases hrejected
      obtain ⟨ref', mesh'', t'', htaken, htiles⟩ := deciding.taken mesh t hnamed hfree
      rw [hadd] at htaken
      cases htaken
      rw [htiles]
      exact Std.ExtHashMap.mem_insert_self
  | rejected _ hfile hadd =>
    rename_i tile status
    cases hnamed : deciding.named tile with
    | none => exact .refused hfile hnamed
    | some named =>
      refine .taken hfile hnamed ?_
      rw [deciding.rejected hadd]
      by_contra hfree
      obtain ⟨ref, _, _, htaken, -⟩ := deciding.taken mesh t hnamed hfree
      rw [hadd] at htaken
      cases htaken

/-- **A spent step changes nothing.** -/
theorem Stepped.of_spent {cell : Int32 × Int32} {file : Except MeshError (Option MeshTile)}
    {outcome : SweepOutcome} (h : Stepped library cell file mesh t outcome mesh' t')
    (hspent : deciding.Spent mesh cell file) : outcome ≠ .added ∧ mesh' = mesh := by
  cases h with
  | present => exact ⟨nofun, rfl⟩
  | missing => exact ⟨nofun, rfl⟩
  | unfit => exact ⟨nofun, rfl⟩
  | rejected _ _ hadd => exact ⟨nofun, deciding.unchanged hadd⟩
  | accepted hcell hfile hadd =>
    exfalso
    cases hspent with
    | present hpresent =>
      rw [(deciding.hasTile_iff mesh cell.1 cell.2).2 hpresent] at hcell
      cases hcell
    | missing hmissing =>
      rw [hfile] at hmissing
      cases hmissing
    | unfit hunfit =>
      rw [hfile] at hunfit
      cases hunfit
    | refused hfile' hnamed =>
      rw [hfile] at hfile'
      cases hfile'
      obtain ⟨status, _, _, hrejected⟩ := deciding.refused mesh t hnamed
      rw [hadd] at hrejected
      cases hrejected
    | taken hfile' hnamed htaken =>
      rw [hfile] at hfile'
      cases hfile'
      obtain ⟨status, _, _, hrejected⟩ := deciding.occupied mesh t hnamed htaken
      rw [hadd] at hrejected
      cases hrejected

section Course

variable {n : Navigation σ τ μ} {deciding : n.library.Deciding} {disk : Disk} {folder : String}
  {map : UInt32} {centre : SweepCentre} {steps : List (Int32 × Int32)} {mesh mesh' : μ} {t t' : τ}
  {outcomes : List SweepOutcome}
  (h : n.Course disk folder map centre steps mesh t outcomes mesh' t')
include h

theorem Course.grown : n.library.Grown mesh mesh' := by
  induction h with
  | nil => exact .refl
  | cons _ first _ ih => exact first.grown.trans ih

/-- After a sweep all its steps are spent, the early ones also in the mesh at the end, and none of
them would stop. -/
theorem Course.spent : ∀ step ∈ steps,
    deciding.Spent mesh' (centre.cellAt step) (centre.tileFor disk folder map step) ∧
      n.Fits centre step mesh' := by
  induction h with
  | nil => exact nofun
  | cons fits first rest ih =>
    intro step hstep
    rcases List.mem_cons.1 hstep with rfl | hstep
    · exact ⟨first.spent.mono rest.grown,
        fits.mono (deciding.hasTile_of_grown (first.grown.trans rest.grown))⟩
    · exact ih step hstep

/-- A sweep whose steps are all spent adds nothing and leaves the mesh as it is. -/
theorem Course.of_spent (hspent : ∀ step ∈ steps,
      deciding.Spent mesh (centre.cellAt step) (centre.tileFor disk folder map step)) :
    SweepOutcome.added ∉ outcomes ∧ mesh' = mesh := by
  induction h with
  | nil => exact ⟨nofun, rfl⟩
  | cons _ first rest ih =>
    obtain ⟨hfirst, hrest⟩ := List.forall_mem_cons.1 hspent
    obtain ⟨houtcome, rfl⟩ := first.of_spent hfirst
    obtain ⟨houtcomes, hmesh⟩ := ih hrest
    refine ⟨?_, hmesh⟩
    rw [List.mem_cons, not_or]
    exact ⟨houtcome.symm, houtcomes⟩

end Course

end Spent

/-! ## Meshes that grow meanwhile -/

/-- The mesh of a map has grown out of a given one. -/
def GrownIn (n : Navigation σ τ μ) (owner : UInt32) (mesh : μ) (s : NavigationState σ τ μ) : Prop :=
  ∃ now, meshIn s owner = some now ∧ n.library.Grown mesh now

section Grown

variable (n : Navigation σ τ μ) (disk : Disk) (owner : UInt32) (mesh : μ)

/-- A map that has a mesh keeps it when meshes are loaded. -/
theorem grownIn_loadMesh (map : UInt32) :
    Preserves (n.GrownIn owner mesh) (n.loadMesh disk map) := by
  rintro s ⟨now, hnow, hgrown⟩
  refine ⟨now, ?_, hgrown⟩
  rcases n.loadMesh_outcomes disk map s with ⟨_, _, hload⟩ | ⟨_, _, _, hload⟩
    | ⟨_, _, _, _, _, _, hload⟩ | ⟨_, _, _, hmap, habsent, _, _, hload⟩
  · rw [hload]
    exact hnow
  · rw [hload]
    exact hnow
  · rw [hload]
    exact hnow
  · have hother : owner ≠ map := by
      rintro rfl
      rw [hnow] at habsent
      cases habsent
    rw [hload, meshIn_of_insert rfl hmap, if_neg hother]
    exact hnow

theorem grownIn_sweep (position : MeshPosition) (map other : UInt32) :
    Preserves (n.GrownIn owner mesh) (n.sweep disk position map other) := by
  rintro s ⟨now, hnow, hgrown⟩
  obtain ⟨later, hlater, hgrown'⟩ := (n.grew_sweep disk position map other s).exists_after hnow
  exact ⟨later, hlater, hgrown.trans hgrown'⟩

/-- Requests only make a mesh grow. -/
theorem grownIn_afterAll (requests : List Request) {s : NavigationState σ τ μ}
    (hmesh : meshIn s owner = some mesh) : n.GrownIn owner mesh (n.afterAll disk requests s) := by
  refine preserves_after (fun moment hmoment => ?_) ⟨mesh, hmesh, .refl⟩
  rw [disk_of_mem hmoment]
  refine preserves_make (n.grownIn_loadMesh disk owner mesh) (fun _ _ => True) (fun _ => trivial)
    (fun position map other _ => n.grownIn_sweep disk owner mesh position map other)
    (fun _ _ hs => hs) (fun map line t ht => ?_) fun _ _ _ _ => trivial
  rw [GrownIn, meshIn_congr (n.meshes_walk disk map line t)]
  exact ht

end Grown

/-! ## Whole sweeps -/

theorem added_ofOutcomes_eq_zero {outcomes : List SweepOutcome}
    (h : SweepOutcome.added ∉ outcomes) : (SweepCount.ofOutcomes outcomes).added = 0 :=
  List.count_eq_zero.2 h

section Again

variable {n : Navigation σ τ μ} {deciding : n.library.Deciding} {disk : Disk}
  {position : MeshPosition} {map owner : UInt32} {s : NavigationState σ τ μ} {mesh mesh' : μ}

/-- All steps of a sweep around a position are spent, and none of them stops. -/
def Exhausted (n : Navigation σ τ μ) (deciding : n.library.Deciding) (disk : Disk)
    (position : MeshPosition) (map : UInt32) (mesh : μ) : Prop :=
  ∀ folder, n.meshFolder = some folder → ∀ step ∈ neighbourhood,
    deciding.Spent mesh ((sweepCentre n.library mesh position).cellAt step)
      ((sweepCentre n.library mesh position).tileFor disk folder map step) ∧
    n.Fits (sweepCentre n.library mesh position) step mesh

theorem sweepCentre_of_grown (deciding : n.library.Deciding) (h : n.library.Grown mesh mesh') :
    sweepCentre n.library mesh' position = sweepCentre n.library mesh position := by
  unfold sweepCentre
  rw [deciding.tileOf_of_grown h]

theorem Exhausted.mono (h : n.Exhausted deciding disk position map mesh)
    (hgrown : n.library.Grown mesh mesh') : n.Exhausted deciding disk position map mesh' := by
  intro folder hfolder step hstep
  rw [sweepCentre_of_grown deciding hgrown]
  obtain ⟨hspent, hfits⟩ := h folder hfolder step hstep
  exact ⟨hspent.mono hgrown, hfits.mono (deciding.hasTile_of_grown hgrown)⟩

/-- A sweep into a mesh exhausts it, or stops. -/
theorem exhausted_sweep (deciding : n.library.Deciding) (disk : Disk) (position : MeshPosition)
    (map : UInt32) (hmesh : meshIn s owner = some mesh) :
    (n.arithmetic = .checked ∧ ¬ InnerCentre (sweepCentre n.library mesh position) ∧
        (n.sweep disk position map owner s).1 = .error .overflow) ∨
      ∃ mesh', meshIn (n.sweep disk position map owner s).2 owner = some mesh' ∧
        n.Exhausted deciding disk position map mesh' := by
  cases hfolder : n.meshFolder with
  | none =>
    obtain ⟨mesh', hmesh', -⟩ := (n.grew_sweep disk position map owner s).exists_after hmesh
    exact .inr ⟨mesh', hmesh', fun folder h => by rw [hfolder] at h; cases h⟩
  | some folder =>
    obtain ⟨taken, outcomes, mesh', t', hcourse, hmesh', hend⟩ :=
      course_sweep disk map hfolder position hmesh
    rcases hend with ⟨rfl, -⟩ | ⟨step, rest, hsteps, hstop, hanswer⟩
    · refine .inr ⟨mesh', hmesh', fun folder' hfolder' => ?_⟩
      rw [hfolder] at hfolder'
      cases hfolder'
      rw [sweepCentre_of_grown deciding hcourse.grown]
      exact hcourse.spent
    · obtain ⟨hchecked, hinner⟩ := of_not_fits_at hstop hsteps
      exact .inl ⟨hchecked, hinner, hanswer⟩

/-- A sweep into an exhausted mesh comes to its end, adds nothing, and leaves every mesh as it
is. -/
theorem Exhausted.sweep (h : n.Exhausted deciding disk position map mesh)
    (hmesh : meshIn s owner = some mesh) :
    ∃ count, (n.sweep disk position map owner s).1 = .ok (some count) ∧ count.added = 0 ∧
      meshIn (n.sweep disk position map owner s).2 = meshIn s := by
  cases hfolder : n.meshFolder with
  | none =>
    unfold Navigation.sweep
    rw [bind_apply, mesh?_eq, hmesh, hfolder]
    exact ⟨_, rfl, rfl, rfl⟩
  | some folder =>
    obtain ⟨taken, outcomes, mesh', t', hcourse, hmesh', hend⟩ :=
      course_sweep disk map hfolder position hmesh
    rcases hend with ⟨rfl, hanswer⟩ | ⟨step, rest, hsteps, hstop, -⟩
    · obtain ⟨houtcomes, rfl⟩ :=
        hcourse.of_spent fun step hstep => (h folder hfolder step hstep).1
      refine ⟨_, hanswer, added_ofOutcomes_eq_zero houtcomes, ?_⟩
      funext other
      by_cases hother : other = owner
      · rw [hother, hmesh', hmesh]
      · exact n.meshIn_sweep disk position map hother s
    · -- the mesh only grows until a step stops, so the step would have stopped in the first sweep
      have hstep : step ∈ neighbourhood := hsteps ▸ List.mem_append_right _ List.mem_cons_self
      exact absurd ((h folder hfolder step hstep).2.mono
        (deciding.hasTile_of_grown hcourse.grown)) hstop

end Again

/-- **A sweep that is made again adds nothing,** over files that stay the same, whatever they hold.

Let a map have a mesh, sweep tiles into it around a position, and then make any requests: more
sweeps around any positions, from the files of any map and into any mesh, or routes.  If the first
sweep is made once more after that, it comes to its end, adds no tile, and every mesh is as it was
before.  This is so unless the first sweep stopped, which happens only if sums are checked and its
centre is not of inner words. -/
theorem sweep_again (n : Navigation σ τ μ) (deciding : n.library.Deciding) (disk : Disk)
    (position : MeshPosition) (map : UInt32) {owner : UInt32} {s : NavigationState σ τ μ} {mesh : μ}
    (hmesh : meshIn s owner = some mesh) (between : List Request) :
    let later := n.afterAll disk between (n.sweep disk position map owner s).2
    (n.arithmetic = .checked ∧ ¬ InnerCentre (sweepCentre n.library mesh position) ∧
        (n.sweep disk position map owner s).1 = .error .overflow) ∨
      ∃ now count, meshIn later owner = some now ∧
        (n.sweep disk position map owner later).1 = .ok (some count) ∧ count.added = 0 ∧
        meshIn (n.sweep disk position map owner later).2 = meshIn later := by
  refine (exhausted_sweep deciding disk position map hmesh).imp_right ?_
  rintro ⟨swept, hswept, hexhausted⟩
  obtain ⟨now, hnow, hgrown⟩ := n.grownIn_afterAll disk owner swept between hswept
  obtain ⟨count, hcount, hadded, hmeshes⟩ := (hexhausted.mono hgrown).sweep hnow
  exact ⟨now, count, hnow, hcount, hadded, hmeshes⟩

end Navigation

/-! ## Rosters -/

namespace Roster

/-- A second tile for a cell is rejected. -/
theorem add_of_occupied {tile : MeshTile} {cell : Int32 × Int32} (roster : Roster) (t : Unit)
    (hnamed : named tile = some cell) (hcell : cell ∈ byCell roster.tiles) :
    ∃ status roster' t', library.addTile roster tile t = ((.error status, roster'), t') := by
  rcases roster.add_cases tile with ⟨status, h, -⟩ | ⟨cell', hnamed', hfree, -⟩
  · exact ⟨status, roster, t, congrArg (·, t) h⟩
  · cases hnamed.symm.trans hnamed'
    exact absurd hcell hfree

theorem eq_of_rejected {roster : Roster} {tile : MeshTile} {t : Unit} {status : Status}
    {roster' : Roster} {t' : Unit}
    (hadd : library.addTile roster tile t = ((.error status, roster'), t')) : roster' = roster := by
  have hanswer : roster.add tile = (.error status, roster') := (Prod.mk.inj hadd).1
  rcases roster.add_cases tile with ⟨_, h, -⟩ | ⟨_, -, -, h⟩
  · rw [h] at hanswer
    cases hanswer
    rfl
  · rw [h] at hanswer
    cases hanswer

theorem tileOf_add (roster : Roster) (tile : MeshTile) (t : Unit) :
    library.tileOf (library.addTile roster tile t).1.2 = library.tileOf roster := by
  funext p
  exact congrArg (MeshHeader.tileOf · p) (roster.tiles_add tile (0, 0)).1

/-- Rosters reject a second tile for a cell, and are as they were after that. -/
def deciding : library.Deciding where
  toAccepting := accepting
  occupied := @add_of_occupied
  unchanged := @eq_of_rejected
  tileOf_addTile := tileOf_add

end Roster

namespace Navigation

/-- Where every file has the tile of one square, the cells of a sweep stay free, all but one at
most, so their files are read each time; nevertheless a second sweep adds nothing. -/
theorem sweep_again_mislabelled :
    meshIn (holding Roster.blank) 0 = some .blank ∧
      ∃ now count, meshIn (rosterWays.afterAll (mislabelledDisk ⟨3, 5⟩) [.sweep midland 0 0]
          (rosterWays.sweep (mislabelledDisk ⟨3, 5⟩) ⟨0, 0, 0⟩ 0 0 (holding .blank)).2) 0
          = some now ∧
        (rosterWays.sweep (mislabelledDisk ⟨3, 5⟩) ⟨0, 0, 0⟩ 0 0
          (rosterWays.afterAll (mislabelledDisk ⟨3, 5⟩) [.sweep midland 0 0]
            (rosterWays.sweep (mislabelledDisk ⟨3, 5⟩) ⟨0, 0, 0⟩ 0 0 (holding .blank)).2)).1
          = .ok (some count) ∧ count.added = 0 := by
  have hmesh := meshIn_holding Roster.blank
  rcases sweep_again rosterWays Roster.deciding (mislabelledDisk ⟨3, 5⟩) ⟨0, 0, 0⟩ 0 hmesh
    [.sweep midland 0 0] with ⟨-, hinner, -⟩ | ⟨now, count, hnow, hcount, hadded, -⟩
  · have hcentre : sweepCentre rosterWays.library .blank ⟨0, 0, 0⟩ = .extracted ⟨0, 0, 0⟩ :=
      sweepCentre_eq Roster.plain ⟨rfl, rfl, rfl, rfl⟩ ⟨0, 0, 0⟩
    have hcolumn : Inner (meshIndex 0) := by decide +kernel
    have hgrid : Inner (gridIndex 0) := by decide +kernel
    rw [hcentre] at hinner
    exact absurd ⟨hcolumn, hcolumn, hgrid, hgrid⟩ hinner
  · exact ⟨hmesh, now, count, hnow, hcount, hadded⟩

end Navigation

end Overland
