import Overland.Proofs.Mesh.Fitting
import Overland.Proofs.Mesh.Table

/-!
# The steps of a sweep, one by one

`Stepped` says everything that one step of a sweep can do if it does not stop, for any library: the
cell that it looks at has a tile, or there is no file for it, or the file is no tile, or the library
takes the tile or rejects it (`stepped_sweepTile`).

The steps of a sweep make up a `Course`, which what is said of whole sweeps is proved along.  A
sweep takes all of its steps, or those before one that stops it (`course_sweepTiles`,
`course_sweep`).
-/

namespace Overland

namespace Navigation

/-! ## The file of a step -/

namespace SweepCentre

/-- The file that a step reads, if the grid has a square for it. -/
def pathAt (c : SweepCentre) (folder : String) (map : UInt32) (step : Int32 × Int32) :
    Option String :=
  tilePath? folder map (c.gridX - step.2) (c.gridY - step.1)

/-- What a step reads: the tile in its file, none if there is no such file. -/
def tileFor (c : SweepCentre) (disk : Disk) (folder : String) (map : UInt32)
    (step : Int32 × Int32) : Except MeshError (Option MeshTile) :=
  match c.pathAt folder map step with
  | none => .ok none
  | some path => MeshTile.load disk path

end SweepCentre

variable {σ τ μ : Type}

/-! ## One step -/

/-- What one step of a sweep can do, which looks at a cell and reads a file and does not stop: its
outcome, and the mesh and the state of the library afterwards. -/
inductive Stepped (library : MeshLibrary τ μ) (cell : Int32 × Int32)
    (file : Except MeshError (Option MeshTile)) (mesh : μ) (t : τ) :
    SweepOutcome → μ → τ → Prop
  /-- The cell has a tile; the file is not looked at. -/
  | present (hcell : library.hasTile mesh cell.1 cell.2 = true) :
    Stepped library cell file mesh t .skipped mesh t
  /-- There is no file. -/
  | missing (hcell : library.hasTile mesh cell.1 cell.2 = false) (hfile : file = .ok none) :
    Stepped library cell file mesh t .skipped mesh t
  /-- The file is no tile. -/
  | unfit (hcell : library.hasTile mesh cell.1 cell.2 = false) {e : MeshError}
    (hfile : file = .error e) : Stepped library cell file mesh t .failed mesh t
  /-- The library takes the tile. -/
  | accepted (hcell : library.hasTile mesh cell.1 cell.2 = false) {tile : MeshTile} {ref : UInt64}
    {mesh' : μ} {t' : τ} (hfile : file = .ok (some tile))
    (hadd : library.addTile mesh tile t = ((.ok ref, mesh'), t')) :
    Stepped library cell file mesh t .added mesh' t'
  /-- The library rejects the tile. -/
  | rejected (hcell : library.hasTile mesh cell.1 cell.2 = false) {tile : MeshTile}
    {status : Status} {mesh' : μ} {t' : τ} (hfile : file = .ok (some tile))
    (hadd : library.addTile mesh tile t = ((.error status, mesh'), t')) :
    Stepped library cell file mesh t .failed mesh' t'

section Sweep

variable (n : Navigation σ τ μ) (disk : Disk) (folder : String) (map : UInt32)
  (centre : SweepCentre)

variable {n centre} in
/-- **A step of a sweep does one of these,** if it does not stop. -/
theorem stepped_sweepTile {step : Int32 × Int32} {mesh : μ} (h : n.Fits centre step mesh)
    (s : NavigationState σ τ μ) :
    ∃ outcome mesh' s',
      n.sweepTile disk folder map centre step mesh s = ((.ok outcome, mesh'), s') ∧
        Stepped n.library (centre.cellAt step) (centre.tileFor disk folder map step) mesh s.library
          outcome mesh' s'.library := by
  obtain ⟨hcount, hfile⟩ := h
  unfold sweepTile SweepCentre.tileFor
  rw [hcount]
  dsimp only
  cases hcell : n.library.hasTile mesh (centre.cellAt step).1 (centre.cellAt step).2 with
  | true =>
    rw [if_pos rfl]
    exact ⟨_, _, _, rfl, .present hcell⟩
  | false =>
    rw [if_neg Bool.false_ne_true, hfile.resolve_left (Bool.eq_false_iff.1 hcell)]
    -- the ground is asked first, which leaves the library as it is
    generalize hground : (askGround (n.ground.loadTile disk map centre.gridX centre.gridY) :
      NavigationM σ τ μ Bool) s = visited
    have hlibrary : visited.2.library = s.library := by
      rw [← hground]
      rfl
    rw [bind_apply, hground, ← hlibrary]
    change ∃ _ _ _, (match centre.pathAt folder map step with
      | none => _
      | some path => _ : NavigationM σ τ μ _) visited.2 = _ ∧ _
    cases centre.pathAt folder map step with
    | none => exact ⟨_, _, _, rfl, .missing hcell rfl⟩
    | some path =>
      simp only [bind_apply, askLibrary, addTileFile]
      cases hload : MeshTile.load disk path with
      | error e => exact ⟨_, _, _, rfl, .unfit hcell rfl⟩
      | ok found =>
        cases found with
        | none => exact ⟨_, _, _, rfl, .missing hcell rfl⟩
        | some tile =>
          rcases hadd : n.library.addTile mesh tile visited.2.library with ⟨⟨answer, mesh'⟩, t'⟩
          simp only [bind_apply, hadd]
          cases answer with
          | ok ref => exact ⟨_, _, _, rfl, .accepted hcell rfl hadd⟩
          | error status => exact ⟨_, _, _, rfl, .rejected hcell rfl hadd⟩

/-! ## All steps -/

/-- What a sweep over a list of steps can do if none of them stops. -/
inductive Course :
    List (Int32 × Int32) → μ → τ → List SweepOutcome → μ → τ → Prop
  | nil {mesh : μ} {t : τ} : Course [] mesh t [] mesh t
  | cons {step : Int32 × Int32} {steps : List (Int32 × Int32)} {mesh mesh' mesh'' : μ}
    {t t' t'' : τ} {outcome : SweepOutcome} {outcomes : List SweepOutcome}
    (fits : n.Fits centre step mesh)
    (first : Stepped n.library (centre.cellAt step) (centre.tileFor disk folder map step) mesh t
      outcome mesh' t')
    (rest : Course steps mesh' t' outcomes mesh'' t'') :
    Course (step :: steps) mesh t (outcome :: outcomes) mesh'' t''

/-- **A sweep takes its steps one after the other,** all of them or those before one that stops. -/
theorem course_sweepTiles (steps : List (Int32 × Int32)) (mesh : μ) (s : NavigationState σ τ μ) :
    let swept := n.sweepTiles disk folder map centre steps mesh s
    ∃ taken outcomes,
      n.Course disk folder map centre taken mesh s.library outcomes swept.1.2 swept.2.library ∧
      ((taken = steps ∧ swept.1.1 = .ok outcomes) ∨
        ∃ step rest, steps = taken ++ step :: rest ∧ ¬ n.Fits centre step swept.1.2 ∧
          swept.1.1 = .error .overflow) := by
  induction steps generalizing mesh s with
  | nil => exact ⟨[], [], .nil, .inl ⟨rfl, rfl⟩⟩
  | cons step steps ih =>
    by_cases hfits : n.Fits centre step mesh
    · obtain ⟨outcome, first, s', hfirst, hstepped⟩ := stepped_sweepTile disk folder map hfits s
      obtain ⟨taken, outcomes, hcourse, hend⟩ := ih first s'
      rw [sweepTiles_of_ok hfirst]
      refine ⟨step :: taken, outcome :: outcomes, .cons hfits hstepped hcourse, ?_⟩
      rcases hend with ⟨rfl, hanswer⟩ | ⟨last, rest, rfl, hstop, hanswer⟩
      · exact .inl ⟨rfl, by rw [hanswer]; rfl⟩
      · exact .inr ⟨last, rest, rfl, hstop, by rw [hanswer]; rfl⟩
    · obtain ⟨ground, hstop⟩ := sweepTile_of_not_fits hfits disk folder map s
      rw [sweepTiles_of_error hstop]
      exact ⟨[], [], .nil, .inr ⟨step, steps, rfl, hfits, rfl⟩⟩

variable {n disk folder map centre} {steps : List (Int32 × Int32)} {mesh mesh' : μ} {t t' : τ}
  {outcomes : List SweepOutcome}

theorem Course.length_outcomes
    (h : n.Course disk folder map centre steps mesh t outcomes mesh' t') :
    outcomes.length = steps.length := by
  induction h with
  | nil => rfl
  | cons _ _ _ ih => exact congrArg (· + 1) ih

/-- Each step does not stop in the mesh that it finds. -/
theorem Course.exists_fits (h : n.Course disk folder map centre steps mesh t outcomes mesh' t')
    {step : Int32 × Int32} (hstep : step ∈ steps) : ∃ found, n.Fits centre step found := by
  induction h with
  | nil => cases hstep
  | cons fits _ _ ih =>
    rcases List.mem_cons.1 hstep with rfl | hstep
    · exact ⟨_, fits⟩
    · exact ih hstep

/-! ## Whole sweeps -/

variable (disk map)

/-- A sweep into a mesh answers the outcomes of its steps, and leaves the mesh that they make and
the library as they leave it. -/
theorem sweep_of_mesh (hfolder : n.meshFolder = some folder) (position : MeshPosition)
    {owner : UInt32} {s : NavigationState σ τ μ} (hmesh : meshIn s owner = some mesh) :
    let swept := n.sweepTiles disk folder map (sweepCentre n.library mesh position) neighbourhood
      mesh s
    (n.sweep disk position map owner s).1
        = swept.1.1.map (fun outcomes => some (.ofOutcomes outcomes)) ∧
      meshIn (n.sweep disk position map owner s).2 owner = some swept.1.2 ∧
      (n.sweep disk position map owner s).2.library = swept.2.library := by
  have hput := meshIn_of_insert (meshes_sweep hfolder disk position map hmesh)
    (meshIn_eq_some_iff.1 hmesh).1 owner
  rw [if_pos rfl] at hput
  rw [hput]
  unfold sweep
  simp only [bind_apply, mesh?_eq, hmesh, hfolder]
  generalize n.sweepTiles disk folder map (sweepCentre n.library mesh position) neighbourhood
    mesh s = swept
  exact ⟨rfl, trivial, rfl⟩

/-- **The steps of a sweep into a mesh.**  All nine are taken, or those before one that stops. -/
theorem course_sweep (hfolder : n.meshFolder = some folder) (position : MeshPosition)
    {owner : UInt32} {s : NavigationState σ τ μ} (hmesh : meshIn s owner = some mesh) :
    ∃ taken outcomes mesh' t',
      n.Course disk folder map (sweepCentre n.library mesh position) taken mesh s.library outcomes
        mesh' t' ∧
      meshIn (n.sweep disk position map owner s).2 owner = some mesh' ∧
      ((taken = neighbourhood ∧
          (n.sweep disk position map owner s).1 = .ok (some (.ofOutcomes outcomes))) ∨
        ∃ step rest, neighbourhood = taken ++ step :: rest ∧
          ¬ n.Fits (sweepCentre n.library mesh position) step mesh' ∧
          (n.sweep disk position map owner s).1 = .error .overflow) := by
  obtain ⟨hanswer, hmesh', -⟩ := sweep_of_mesh disk map hfolder position hmesh
  obtain ⟨taken, outcomes, hcourse, hend⟩ := n.course_sweepTiles disk folder map
    (sweepCentre n.library mesh position) neighbourhood mesh s
  refine ⟨taken, outcomes, _, _, hcourse, hmesh', ?_⟩
  rcases hend with ⟨htaken, houtcomes⟩ | ⟨step, rest, hsteps, hstop, hoverflow⟩
  · rw [houtcomes] at hanswer
    exact .inl ⟨htaken, hanswer⟩
  · rw [hoverflow] at hanswer
    exact .inr ⟨step, rest, hsteps, hstop, hanswer⟩

variable {disk map}

/-- Only checked sums stop a sweep, and only around a centre that is not of inner words. -/
theorem sweep_of_stop {position : MeshPosition} {owner : UInt32} {s : NavigationState σ τ μ}
    {stop : Stop} (h : (n.sweep disk position map owner s).1 = .error stop) :
    n.arithmetic = .checked ∧ ∃ mesh, ¬ InnerCentre (sweepCentre n.library mesh position) := by
  cases hmesh : meshIn s owner with
  | none =>
    rw [n.sweep_of_absent disk position map hmesh] at h
    cases h
  | some mesh =>
    cases hfolder : n.meshFolder with
    | none =>
      unfold sweep at h
      rw [bind_apply, mesh?_eq, hmesh, hfolder] at h
      cases h
    | some folder =>
      obtain ⟨taken, outcomes, mesh', t', -, -, hend⟩ :=
        course_sweep disk map hfolder position hmesh
      rcases hend with ⟨-, hanswer⟩ | ⟨step, rest, hsteps, hstop, -⟩
      · rw [hanswer] at h
        cases h
      · obtain ⟨hchecked, hinner⟩ := of_not_fits_at hstop hsteps
        exact ⟨hchecked, mesh, hinner⟩

end Sweep

/-- A state in which the first map has a mesh, and nothing else is remembered. -/
def holding (mesh : μ) : NavigationState Unit Unit μ :=
  ⟨⟨.empty, ()⟩, (∅ : Std.HashMap UInt32 μ).insert 0 mesh, ()⟩

theorem meshIn_holding (mesh : μ) : meshIn (holding mesh) 0 = some mesh :=
  meshIn_eq_some_iff.2 ⟨by decide, Std.HashMap.getElem?_insert_self⟩

end Navigation

end Overland
