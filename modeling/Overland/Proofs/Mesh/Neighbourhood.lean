import Overland.Proofs.Mesh.Roster

/-!
# Is the neighbourhood of a position loaded?

A sweep around a position is meant to load the tile of the position and its eight neighbours.
`NeighbourhoodLoaded` says that it does, in every state that requests lead to, and
`neighbourhoodLoaded_iff` says for exactly which positions that is true: for those where each of the
nine cells is reached (`Covered`).  For a position in a tile of the map this means that the two
counts of a sweep agree on both axes (`covered_iff_agrees`).

They do not agree on the line between two tiles, which the one count puts with the tile after it and
the other with the tile before it.  Around the origin, where four tiles meet, the neighbourhood is
not loaded (`not_loaded_origin`).
-/

namespace Overland

/-! ## One axis -/

/-- Beside a cell of the map, or at it, there is one that lies on the map and stays on it when moved
by a given distance, if that is still beside the cell or at it. -/
theorem exists_step_onGrid (i : Fin 64) (gap : Int32) :
    ∃ step ∈ axisSteps, (onGrid? (63 - (Int32.ofNat i + step))).isSome ∧
      (step + gap ∈ axisSteps →
        (onGrid? (63 - (Int32.ofNat i + (step + gap)))).isSome) := by
  by_cases hnext : gap = 1
  · subst hnext
    refine ⟨if i = 0 then 0 else -1, ?_, ?_, fun _ => ?_⟩ <;> revert i <;> decide +kernel
  by_cases hlast : gap = -1
  · subst hlast
    refine ⟨if i = 63 then 0 else 1, ?_, ?_, fun _ => ?_⟩ <;> revert i <;> decide +kernel
  · have hcell : (onGrid? (63 - (Int32.ofNat i + 0))).isSome := by
      revert i
      decide +kernel
    refine ⟨0, by decide, hcell, fun hgap => ?_⟩
    rw [mem_axisSteps] at hgap
    have hnone : gap = 0 := by grind
    rw [hnone]
    exact hcell

/-- Around a cell of the map there is one whose file is read at cells of the map only, and at itself
only if the counts agree. -/
theorem axis_blocked {coordinate : Single} {i : Fin 64}
    (hmap : onGrid? (meshIndex coordinate) = some i) :
    ∃ step ∈ axisSteps, ∃ j, onGrid? (63 - (meshIndex coordinate + step)) = some j ∧
      ∀ other ∈ axisSteps, onGrid? (gridIndex coordinate - other) = some j →
        ∃ k, onGrid? (63 - (meshIndex coordinate + other)) = some k ∧
          (k = j → Agrees coordinate) := by
  rw [onGrid?_eq_some_iff] at hmap
  -- the file of the cell at `step` is read while the sweep looks at the cell at `step + gap`
  let gap := gridIndex coordinate - (63 - meshIndex coordinate)
  obtain ⟨step, hstep, hcell, hmoved⟩ := exists_step_onGrid i gap
  rw [← hmap] at hcell hmoved
  obtain ⟨j, hj⟩ := Option.isSome_iff_exists.1 hcell
  refine ⟨step, hstep, j, hj, fun other hother hread => ?_⟩
  rw [onGrid?_eq_some_iff] at hj hread
  have hsame : other = step + gap := by grind
  subst hsame
  obtain ⟨k, hk⟩ := Option.isSome_iff_exists.1 (hmoved hother)
  refine ⟨k, hk, fun hkj => ?_⟩
  rw [onGrid?_eq_some_iff, hkj] at hk
  unfold Agrees
  grind

end Overland

namespace Overland.Navigation

variable {σ τ μ : Type}

/-- After a sweep around the position, in whatever state with a mesh it is made, there is a mesh
with the tile of each of the nine cells that has a file. -/
def NeighbourhoodLoaded (position : MeshPosition) : Prop :=
  ∀ {σ τ μ : Type} (n : Navigation σ τ μ) (plain : n.library.Plain) (folder : String)
    (history : List (Disk × Request)) (disk : Disk) (map : UInt32) (collision : σ) (library : τ),
    n.meshFolder = some folder → (∀ moment ∈ history, Extracted plain folder moment.1) →
    Extracted plain folder disk →
    let s := n.after history (fresh collision library)
    (mesh? map s).1.isSome →
    ∃ mesh, (mesh? map (n.sweep disk position map map s).2).1 = some mesh ∧
      ∀ step ∈ neighbourhood, ∀ q,
        squareOf ((SweepCentre.extracted position).cellAt step) = some q →
        HasFile disk folder map q → plain.Has mesh q.meshTile

/-- Each of the nine cells around the position is reached by the sweep around it. -/
def Covered (position : MeshPosition) : Prop :=
  ∀ step ∈ neighbourhood, ∀ q, squareOf ((SweepCentre.extracted position).cellAt step) = some q →
    (SweepCentre.extracted position).Reaches q

/-- The nine cells are loaded if each of them is reached. -/
theorem loaded_of_covered {position : MeshPosition} (h : Covered position) :
    NeighbourhoodLoaded position := by
  intro σ τ μ n plain folder history disk map collision library hfolder hhistory hdisk s hfound
  have hlaid : AllMeshes (fun _ => Laid plain) s := laid_after hfolder hhistory collision library
  have hmap : map < mapLimit := by
    refine Classical.byContradiction fun hnot => ?_
    simp [mesh?, hnot] at hfound
  simp only [mesh?, hmap, if_true] at hfound ⊢
  obtain ⟨mesh, hmesh⟩ := Option.isSome_iff_exists.1 hfound
  obtain ⟨swept, hswept, hmeshes⟩ := swept_sweep hdisk hfolder hmap hmesh
    (hlaid map mesh hmesh).extracted position map
  have hlaid' := (lasting_laid hdisk).swept position map map mesh swept trivial
    (hlaid map mesh hmesh) hswept
  refine ⟨swept, by rw [hmeshes, Std.HashMap.getElem?_insert_self], ?_⟩
  intro step hstep q hq hfile
  exact has_of_reaches hswept hlaid'.onMap (h step hstep q hq) hfile

/-- Where the neighbourhood is loaded, none of its squares can be kept out by tiles that stand in
the way at each step that reads its file. -/
theorem has_of_loaded {position : MeshPosition} (h : NeighbourhoodLoaded position)
    {n : Navigation σ τ μ} {plain : n.library.Plain} {folder : String}
    {history : List (Disk × Request)} {disk : Disk} {map : UInt32} {collision : σ} {library : τ}
    {mesh : μ} (hfolder : n.meshFolder = some folder)
    (hhistory : ∀ moment ∈ history, Extracted plain folder moment.1)
    (hdisk : Extracted plain folder disk) (hmap : map < mapLimit)
    (hmesh : (n.after history (fresh collision library)).meshes[map]? = some mesh)
    {step : Int32 × Int32} (hstep : step ∈ neighbourhood) {q : Square}
    (hq : squareOf ((SweepCentre.extracted position).cellAt step) = some q)
    (hfile : HasFile disk folder map q)
    (hblocked : ∀ other ∈ neighbourhood,
      (SweepCentre.extracted position).squareAt other = some q →
      plain.Has mesh ((SweepCentre.extracted position).cellAt other)) :
    plain.Has mesh q.meshTile := by
  have hlaid := laid_after hfolder hhistory collision library map mesh hmesh
  obtain ⟨mesh', hswept, hmeshes⟩ :=
    swept_sweep hdisk hfolder hmap hmesh hlaid.extracted position map
  have hfound : (mesh? map (n.after history (fresh collision library))).1.isSome := by
    simp [mesh?, hmap, hmesh]
  obtain ⟨loaded, hloaded, hhas⟩ :=
    h n plain folder history disk map collision library hfolder hhistory hdisk hfound
  have hsame : loaded = mesh' := by
    simpa [mesh?, hmap, hmeshes] using hloaded.symm
  subst hsame
  refine Classical.byContradiction fun hmissed => ?_
  exact not_has_of_blocked hswept hmissed hblocked (hhas step hstep q hq hfile)

/-- A cell that is not reached is left out in the world with every tile. -/
theorem covered_of_loaded {position : MeshPosition} (h : NeighbourhoodLoaded position) :
    Covered position := by
  intro step hstep q hq
  refine Classical.byContradiction fun hnot => ?_
  -- start from a mesh with all the squares that stand in the way, and not the square itself
  obtain ⟨hothers, hblocked⟩ := SweepCentre.blocked_of_not_reaches hnot
  obtain ⟨mesh, hmesh, -, hhas, hmissed⟩ :=
    prepared_fullDisk ((SweepCentre.extracted position).blockers q) q
  unfold afterAll at hmesh
  refine hmissed (fun hmem => hothers q hmem rfl)
    (has_of_loaded h rfl (fun _ hmoment => disk_of_mem hmoment ▸ extracted_fullDisk)
      extracted_fullDisk (by decide) hmesh hstep hq ⟨_, fullDisk_path q⟩
      fun other hother hread => ?_)
  obtain ⟨blocker, hblocker, hcell⟩ := hblocked other hother hread
  rw [hcell]
  exact hhas blocker hblocker

/-- **When the neighbourhood of a position is loaded:** exactly if each of the nine cells around it
is reached by the sweep. -/
theorem neighbourhoodLoaded_iff (position : MeshPosition) :
    NeighbourhoodLoaded position ↔ Covered position :=
  ⟨covered_of_loaded, loaded_of_covered⟩

/-! ## Positions in a tile of the map -/

/-- **For a position in a tile of the map,** all nine cells are reached exactly if the two counts of
the sweep agree on both axes. -/
theorem covered_iff_agrees (position : MeshPosition) {i j : Fin 64}
    (hcolumn : onGrid? (meshIndex position.first) = some i)
    (hrow : onGrid? (meshIndex position.third) = some j) :
    Covered position ↔ Agrees position.first ∧ Agrees position.third := by
  constructor
  · intro h
    -- on each axis, take the cell that tells; the square where both meet must be reached
    obtain ⟨stepY, hstepY, y, hy, hblockedY⟩ := axis_blocked hcolumn
    obtain ⟨stepX, hstepX, x, hx, hblockedX⟩ := axis_blocked hrow
    rw [onGrid?_eq_some_iff] at hx hy
    obtain ⟨step, hstep, hread, honly⟩ := h (stepY, stepX)
      (mem_neighbourhood.2 ⟨hstepY, hstepX⟩) ⟨x, y⟩ (squareAt_eq_some_iff.2 ⟨hx, hy⟩)
    obtain ⟨hotherY, hotherX⟩ := mem_neighbourhood.1 hstep
    obtain ⟨hreadX, hreadY⟩ := squareAt_eq_some_iff.1 hread
    obtain ⟨x', hx', hagreesX⟩ := hblockedX step.2 hotherX (onGrid?_eq_some_iff.2 hreadX)
    obtain ⟨y', hy', hagreesY⟩ := hblockedY step.1 hotherY (onGrid?_eq_some_iff.2 hreadY)
    rw [onGrid?_eq_some_iff] at hx' hy'
    have hsame : (⟨x', y'⟩ : Square) = ⟨x, y⟩ :=
      honly ⟨x', y'⟩ (squareAt_eq_some_iff.2 ⟨hx', hy'⟩)
    exact ⟨hagreesY (congrArg Square.y hsame), hagreesX (congrArg Square.x hsame)⟩
  · rintro ⟨hfirst, hthird⟩ step hstep q hq
    exact reaches_of_agrees hfirst hthird hstep hq

/-- At the origin four tiles meet, and the counts do not agree. -/
theorem not_loaded_origin : ¬ NeighbourhoodLoaded ⟨0, 0, 0⟩ := by
  intro h
  have hcell : onGrid? (meshIndex 0) = some 32 := by decide +kernel
  have hcovered : Covered ⟨0, 0, 0⟩ := covered_of_loaded h
  have hnot : ¬ Agrees 0 := by decide +kernel
  exact hnot ((covered_iff_agrees ⟨0, 0, 0⟩ hcell hcell).1 hcovered).1

end Overland.Navigation
