import Overland.Proofs.Mesh.History

/-!
# Which squares a sweep is sure to load

A sweep is meant to bring in the tile of a position and its eight neighbours.  It looks at the right
nine cells, but the files it reads are chosen by another count, so whether the tile of a cell is in
the mesh afterwards depends on whether some step reads the file of the cell while it looks at that
cell, or at one that is never filled (`SweepCentre.Reaches`).

* `has_of_reaches` — a square that is reached and has a file is in the mesh after the sweep;
* `not_has_of_blocked` — a square is not in the mesh afterwards if it was not before and every step
  that reads its file looks at a cell that is filled already;
* `prepared` — so a mesh can be prepared, by sweeps from chosen places, to have some squares and to
  lack others.
-/

namespace Overland.Navigation

variable {σ τ μ : Type}

namespace SweepCentre

/-- A step reads the file of a square while it looks at the cell of that square, or at one beside
the map. -/
def Reaches (c : SweepCentre) (q : Square) : Prop :=
  ∃ step ∈ neighbourhood, c.squareAt step = some q ∧
    ∀ other, squareOf (c.cellAt step) = some other → other = q

/-- The squares at whose cells a sweep looks while it reads the file of another one. -/
def blockers (c : SweepCentre) (q : Square) : List Square :=
  neighbourhood.filterMap fun step =>
    if c.squareAt step = some q then squareOf (c.cellAt step) else none

/-- A square that is not reached is blocked at every step that reads its file, by other squares. -/
theorem blocked_of_not_reaches {c : SweepCentre} {q : Square} (h : ¬ c.Reaches q) :
    (∀ other ∈ c.blockers q, other ≠ q) ∧
      ∀ step ∈ neighbourhood, c.squareAt step = some q →
        ∃ other ∈ c.blockers q, c.cellAt step = other.meshTile := by
  have hblocked : ∀ step ∈ neighbourhood, c.squareAt step = some q →
      ∃ other, squareOf (c.cellAt step) = some other ∧ other ≠ q := by
    intro step hstep hq
    refine Classical.byContradiction fun hnone => h ⟨step, hstep, hq, fun other hother => ?_⟩
    exact Classical.byContradiction fun hne => hnone ⟨other, hother, hne⟩
  constructor
  · intro other hother
    obtain ⟨step, hstep, hread⟩ := List.mem_filterMap.1 hother
    split at hread
    · rename_i hq
      obtain ⟨found, hfound, hne⟩ := hblocked step hstep hq
      rw [hfound] at hread
      exact Option.some.inj hread ▸ hne
    · cases hread
  · intro step hstep hq
    obtain ⟨other, hother, -⟩ := hblocked step hstep hq
    refine ⟨other, List.mem_filterMap.2 ⟨step, hstep, ?_⟩, squareOf_eq_some_iff.1 hother⟩
    rw [if_pos hq, hother]

end SweepCentre

section Swept

variable {n : Navigation σ τ μ} {plain : n.library.Plain} {disk : Disk} {folder : String}
  {map : UInt32} {centre : SweepCentre} {mesh mesh' : μ} {q : Square}

/-- **A square that a sweep reaches is loaded,** if it has a file. -/
theorem has_of_reaches (h : Swept plain disk folder map centre neighbourhood mesh mesh')
    (hmap : ∀ cell, plain.Has mesh' cell → ∃ other : Square, cell = other.meshTile)
    (hreaches : centre.Reaches q) (hfile : HasFile disk folder map q) :
    plain.Has mesh' q.meshTile := by
  obtain ⟨step, hstep, hq, honly⟩ := hreaches
  rcases h.done step hstep q hq hfile with hhas | hhas
  · exact hhas
  · obtain ⟨other, hother⟩ := hmap _ hhas
    rw [← honly other (squareOf_eq_some_iff.2 hother), ← hother]
    exact hhas

/-- A square stays out of the mesh if every step that reads its file looks at a filled cell. -/
theorem not_has_of_blocked (h : Swept plain disk folder map centre neighbourhood mesh mesh')
    (hnot : ¬ plain.Has mesh q.meshTile)
    (hblocked : ∀ step ∈ neighbourhood, centre.squareAt step = some q →
      plain.Has mesh (centre.cellAt step)) : ¬ plain.Has mesh' q.meshTile := by
  intro hhas
  rcases h.new _ hhas with hhas | ⟨step, hstep, hempty, other, hread, -, hcell⟩
  · exact hnot hhas
  · rw [← Square.meshTile_injective hcell] at hread
    exact hempty (hblocked step hstep hread)

end Swept

/-! ## Preparing a mesh -/

section Prepare

variable {n : Navigation σ τ μ} {plain : n.library.Plain} {disk : Disk} {folder : String}
  {map : UInt32} {place : Square → MeshPosition}

/-- Sweeps that reach some squares load these, and no square whose file they do not read. -/
theorem after_sweeps (hdisk : Extracted plain folder disk) (hfolder : n.meshFolder = some folder)
    (hmap : map < mapLimit) {qs : List Square}
    (hreach : ∀ q ∈ qs, (SweepCentre.extracted (place q)).Reaches q)
    (hfile : ∀ q ∈ qs, HasFile disk folder map q) {s : NavigationState σ τ μ} {mesh : μ}
    (hmesh : s.meshes[map]? = some mesh) (hlaid : Laid plain mesh) :
    ∃ mesh', (n.afterAll disk (qs.map fun q => .sweep (place q) map map) s).meshes[map]?
        = some mesh' ∧
      (∀ cell, plain.Has mesh cell → plain.Has mesh' cell) ∧
      (∀ q ∈ qs, plain.Has mesh' q.meshTile) ∧
      ∀ avoid : Square, ¬ plain.Has mesh avoid.meshTile →
        (∀ q ∈ qs, ∀ step ∈ neighbourhood,
          (SweepCentre.extracted (place q)).squareAt step ≠ some avoid) →
        ¬ plain.Has mesh' avoid.meshTile := by
  induction qs generalizing s mesh with
  | nil =>
    refine ⟨mesh, hmesh, by simp, by simp, ?_⟩
    intro avoid hnot _
    exact hnot
  | cons q qs ih =>
    obtain ⟨swept, hswept, hmeshes⟩ :=
      swept_sweep hdisk hfolder hmap hmesh hlaid.extracted (place q) map
    have hlaid' := (lasting_laid hdisk).swept (place q) map map mesh swept trivial hlaid hswept
    have hnext : (n.sweep disk (place q) map map s).2.meshes[map]? = some swept := by
      rw [hmeshes, Std.HashMap.getElem?_insert_self]
    obtain ⟨mesh', hmesh', hkept, hhas, hmissed⟩ :=
      ih (fun q hq => hreach q (List.mem_cons_of_mem _ hq))
        (fun q hq => hfile q (List.mem_cons_of_mem _ hq)) hnext hlaid'
    refine ⟨mesh', hmesh', fun cell h => hkept cell (hswept.kept cell h), ?_, ?_⟩
    · intro q' hq'
      rcases List.mem_cons.1 hq' with rfl | hq'
      · exact hkept _ (has_of_reaches hswept hlaid'.onMap (hreach _ List.mem_cons_self)
          (hfile _ List.mem_cons_self))
      · exact hhas q' hq'
    · intro avoid hnot hmiss
      refine hmissed avoid ?_ fun q' hq' => hmiss q' (List.mem_cons_of_mem _ hq')
      exact not_has_of_blocked hswept hnot fun step hstep hread =>
        absurd hread (hmiss q List.mem_cons_self step hstep)

/-- The requests that create the mesh of a map and sweep around some places. -/
def preparing (map : UInt32) (place : Square → MeshPosition) (qs : List Square) : List Request :=
  .loadMesh map :: qs.map fun q => .sweep (place q) map map

/-- **A mesh can be prepared** to have some squares and to lack others. -/
theorem prepared (hdisk : Extracted plain folder disk) (hfolder : n.meshFolder = some folder)
    (hmap : map < mapLimit) {header : MeshHeader}
    (hheader : storedHeader disk folder map = .ok header) (place : Square → MeshPosition)
    (qs : List Square) (hreach : ∀ q ∈ qs, (SweepCentre.extracted (place q)).Reaches q)
    (hfile : ∀ q ∈ qs, HasFile disk folder map q) (collision : σ) (library : τ) :
    ∃ mesh, (n.afterAll disk (preparing map place qs) (fresh collision library)).meshes[map]?
        = some mesh ∧
      Laid plain mesh ∧ (∀ q ∈ qs, plain.Has mesh q.meshTile) ∧
      ∀ avoid : Square, (∀ q ∈ qs, ∀ step ∈ neighbourhood,
          (SweepCentre.extracted (place q)).squareAt step ≠ some avoid) →
        ¬ plain.Has mesh avoid.meshTile := by
  rcases loadMesh_cases plain hfolder disk map (fresh collision library) with ⟨hnot, -⟩ |
    ⟨_, -, hsome, -⟩ | ⟨_, -, -, herror, -⟩ | ⟨found, mesh, t, -, -, hfound, hmesh, hempty, hload⟩
  · exact absurd hmap hnot
  · simp [fresh] at hsome
  · rw [hheader] at herror; cases herror
  · have hlaid : Laid plain mesh :=
      (lasting_laid hdisk).created map found mesh hfound hmesh hempty
    have hnext : (n.loadMesh disk map (fresh collision library)).2.meshes[map]? = some mesh := by
      rw [hload]
      exact Std.HashMap.getElem?_insert_self
    obtain ⟨mesh', hmesh', -, hhas, hmissed⟩ :=
      after_sweeps hdisk hfolder hmap hreach hfile hnext hlaid
    have hlaid' := laid_afterAll hfolder hdisk (preparing map place qs) collision library map
      mesh' hmesh'
    exact ⟨mesh', hmesh', hlaid', hhas, fun avoid hmiss => hmissed avoid (hempty _) hmiss⟩

end Prepare

end Overland.Navigation
