import Overland.Proofs.Mesh.Frame
import Overland.Proofs.Mesh.Header

/-!
# The table of meshes

What the two requests that change meshes can do, for any library and in any state.

* `loadMesh_outcomes` — the mesh is there already, or there is no header for it, or the library
  refuses the header, or it is created.  `opening` is what an attempt comes to if the mesh is not
  there: it is told from the file of the map as it is at that moment.
* `sweep_outcomes` — the tiles are swept into the mesh of the owner, if there is one.  The mesh of
  no other map is touched (`meshIn_sweep`), and that of the owner only grows (`grew_sweep`).
-/

namespace Overland

variable {σ τ μ : Type}

/-- What a mesh becomes by tiles that are added to it, whether the library takes them or not. -/
inductive MeshLibrary.Grown (library : MeshLibrary τ μ) (mesh : μ) : μ → Prop
  | refl : Grown library mesh mesh
  | addTile {now : μ} (h : Grown library mesh now) (tile : MeshTile) (t : τ) :
      Grown library mesh (library.addTile now tile t).1.2

theorem MeshLibrary.Grown.trans {library : MeshLibrary τ μ} {mesh now later : μ}
    (h : library.Grown mesh now) (hlater : library.Grown now later) : library.Grown mesh later := by
  induction hlater with
  | refl => exact h
  | addTile _ tile t ih => exact ih.addTile tile t

namespace Navigation

/-- The mesh of a map in a state, if it has one. -/
def meshIn (s : NavigationState σ τ μ) (map : UInt32) : Option μ :=
  if map < mapLimit then s.meshes[map]? else none

theorem mesh?_eq (map : UInt32) (s : NavigationState σ τ μ) : mesh? map s = (meshIn s map, s) := rfl

theorem meshIn_congr {s t : NavigationState σ τ μ} (h : t.meshes = s.meshes) :
    meshIn t = meshIn s := by
  funext map
  rw [meshIn, meshIn, h]

theorem meshIn_eq_some_iff {s : NavigationState σ τ μ} {map : UInt32} {mesh : μ} :
    meshIn s map = some mesh ↔ map < mapLimit ∧ s.meshes[map]? = some mesh := by
  unfold meshIn
  by_cases hmap : map < mapLimit <;> simp [hmap]

/-- Putting a mesh in its place changes the mesh of its map alone. -/
theorem meshIn_of_insert {s t : NavigationState σ τ μ} {owner : UInt32} {mesh : μ}
    (h : t.meshes = s.meshes.insert owner mesh) (howner : owner < mapLimit) (map : UInt32) :
    meshIn t map = if map = owner then some mesh else meshIn s map := by
  rw [meshIn, meshIn, h, Std.HashMap.getElem?_insert]
  by_cases hmap : map = owner
  · subst hmap
    simp [howner]
  · simp [hmap, Ne.symm hmap]

/-! ## Loading -/

/-- The header that an attempt to create the mesh of a map goes by. -/
def headerFor (n : Navigation σ τ μ) (disk : Disk) (map : UInt32) : Except MeshError MeshHeader :=
  match n.meshFolder with
  | none => .error .unconfigured
  | some folder =>
    if map < mapLimit then storedHeader disk folder map else .error (.mapOutOfRange map)

/-- What an attempt to load the mesh of a map answers if the mesh is not there. -/
def opening (n : Navigation σ τ μ) (disk : Disk) (map : UInt32) (t : τ) : Except MeshError μ :=
  match n.headerFor disk map with
  | .error e => .error e
  | .ok header => (n.library.create header t).1.mapError (.rejected "navmesh params")

/-- What creating a mesh does. -/
theorem createMesh_outcomes (n : Navigation σ τ μ) (disk : Disk) (folder : String) (map : UInt32)
    (s : NavigationState σ τ μ) :
    (∃ e, storedHeader disk folder map = .error e ∧
      n.createMesh disk folder map s = (.error e, s)) ∨
    (∃ header status t, storedHeader disk folder map = .ok header ∧
      n.library.create header s.library = (.error status, t) ∧
      n.createMesh disk folder map s
        = (.error (.rejected "navmesh params" status), ⟨s.ground, s.meshes, t⟩)) ∨
    (∃ header mesh t, storedHeader disk folder map = .ok header ∧
      n.library.create header s.library = (.ok mesh, t) ∧
      n.createMesh disk folder map s = (.ok mesh, ⟨s.ground, s.meshes.insert map mesh, t⟩)) := by
  unfold createMesh
  rw [loadHeader_eq]
  cases hheader : storedHeader disk folder map with
  | error e => exact .inl ⟨e, rfl, rfl⟩
  | ok header =>
    rcases hcreate : n.library.create header s.library with ⟨answer, t⟩
    have hasked : (askLibrary (n.library.create header) : NavigationM σ τ μ _) s
        = (answer, ⟨s.ground, s.meshes, t⟩) := by
      rw [askLibrary, hcreate]
    cases answer with
    | error status =>
      refine .inr (.inl ⟨header, status, t, rfl, hcreate, ?_⟩)
      dsimp only
      rw [bind_apply, hasked]
      rfl
    | ok mesh =>
      refine .inr (.inr ⟨header, mesh, t, rfl, hcreate, ?_⟩)
      dsimp only
      rw [bind_apply, hasked]
      rfl

/-- **What asking for a mesh does**, for any library. -/
theorem loadMesh_outcomes (n : Navigation σ τ μ) (disk : Disk) (map : UInt32)
    (s : NavigationState σ τ μ) :
    (∃ mesh, meshIn s map = some mesh ∧ n.loadMesh disk map s = (.ok mesh, s)) ∨
    (∃ e, (n.meshFolder = none ∨ meshIn s map = none) ∧ n.headerFor disk map = .error e ∧
      n.loadMesh disk map s = (.error e, s)) ∨
    (∃ header status t, meshIn s map = none ∧ n.headerFor disk map = .ok header ∧
      n.library.create header s.library = (.error status, t) ∧
      n.loadMesh disk map s
        = (.error (.rejected "navmesh params" status), ⟨s.ground, s.meshes, t⟩)) ∨
    (∃ header mesh t, map < mapLimit ∧ meshIn s map = none ∧ n.headerFor disk map = .ok header ∧
      n.library.create header s.library = (.ok mesh, t) ∧
      n.loadMesh disk map s = (.ok mesh, ⟨s.ground, s.meshes.insert map mesh, t⟩)) := by
  unfold loadMesh headerFor
  cases n.meshFolder with
  | none => exact .inr (.inl ⟨_, .inl rfl, rfl, rfl⟩)
  | some folder =>
    by_cases hmap : map < mapLimit
    · simp only [hmap, if_true, bind_apply, mesh?_eq]
      cases hmesh : meshIn s map with
      | some mesh => exact .inl ⟨mesh, rfl, rfl⟩
      | none =>
        rcases n.createMesh_outcomes disk folder map s with ⟨e, hheader, h⟩
          | ⟨header, status, t, hheader, hcreate, h⟩ | ⟨header, mesh, t, hheader, hcreate, h⟩
        · exact .inr (.inl ⟨e, .inr rfl, hheader, h⟩)
        · exact .inr (.inr (.inl ⟨header, status, t, rfl, hheader, hcreate, h⟩))
        · exact .inr (.inr (.inr ⟨header, mesh, t, trivial, rfl, hheader, hcreate, h⟩))
    · simp only [hmap, if_false]
      exact .inr (.inl ⟨_, .inr (if_neg hmap), rfl, rfl⟩)

/-- A mesh that is there is answered, and nothing changes. -/
theorem loadMesh_of_meshIn {n : Navigation σ τ μ} {folder : String}
    (hfolder : n.meshFolder = some folder) (disk : Disk) {map : UInt32} {s : NavigationState σ τ μ}
    {mesh : μ} (hmesh : meshIn s map = some mesh) : n.loadMesh disk map s = (.ok mesh, s) := by
  unfold loadMesh
  rw [hfolder]
  dsimp only
  rw [if_pos (meshIn_eq_some_iff.1 hmesh).1, bind_apply, mesh?_eq, hmesh]
  rfl

/-- An attempt that fails changes no mesh. -/
theorem meshes_of_error {n : Navigation σ τ μ} {disk : Disk} {map : UInt32}
    {s : NavigationState σ τ μ} {e : MeshError} (h : (n.loadMesh disk map s).1 = .error e) :
    (n.loadMesh disk map s).2.meshes = s.meshes := by
  rcases n.loadMesh_outcomes disk map s with ⟨_, _, hload⟩ | ⟨_, _, _, hload⟩
    | ⟨_, _, _, _, _, _, hload⟩ | ⟨_, _, _, _, _, _, _, hload⟩
  · rw [hload]
  · rw [hload]
  · rw [hload]
  · rw [hload] at h
    cases h

/-- An attempt for a map without a mesh goes by the file as it is at that moment. -/
theorem answer_of_absent {n : Navigation σ τ μ} {disk : Disk} {map : UInt32}
    {s : NavigationState σ τ μ} (h : meshIn s map = none) :
    (n.loadMesh disk map s).1 = n.opening disk map s.library := by
  unfold opening
  rcases n.loadMesh_outcomes disk map s with ⟨_, hmesh, _⟩ | ⟨_, _, hheader, hload⟩
    | ⟨_, _, _, _, hheader, hcreate, hload⟩ | ⟨_, _, _, _, _, hheader, hcreate, hload⟩
  · rw [h] at hmesh
    cases hmesh
  · rw [hload, hheader]
  · rw [hload, hheader]
    dsimp only
    rw [hcreate]
    rfl
  · rw [hload, hheader]
    dsimp only
    rw [hcreate]
    rfl

/-! ## Sweeping -/

theorem grown_addTileFile (library : MeshLibrary τ μ) (disk : Disk) (path : String) (mesh : μ)
    (t : τ) : library.Grown mesh (addTileFile library disk path mesh t).1.2 := by
  unfold addTileFile
  cases MeshTile.load disk path with
  | error e => exact .refl
  | ok found =>
    cases found with
    | none => exact .refl
    | some tile =>
      have hadded : library.Grown mesh (library.addTile mesh tile t).1.2 := .addTile .refl tile t
      rcases hanswer : library.addTile mesh tile t with ⟨⟨answer, mesh'⟩, t'⟩
      rw [hanswer] at hadded
      simp only [bind_apply, hanswer]
      cases answer <;> exact hadded

theorem grown_sweepTile (n : Navigation σ τ μ) (disk : Disk) (folder : String) (map : UInt32)
    (centre : SweepCentre) (step : Int32 × Int32) (mesh : μ) (s : NavigationState σ τ μ) :
    n.library.Grown mesh (n.sweepTile disk folder map centre step mesh s).1.2 := by
  unfold sweepTile
  cases centre.cell n.arithmetic step with
  | error stop => exact .refl
  | ok cell =>
    dsimp only
    by_cases hpresent : n.library.hasTile mesh cell.1 cell.2 = true
    · rw [if_pos hpresent]
      exact .refl
    · rw [if_neg hpresent, bind_apply]
      cases centre.file n.arithmetic step with
      | error stop => exact .refl
      | ok file =>
        dsimp only
        cases tilePath? folder map file.1 file.2 with
        | none => exact .refl
        | some path => exact grown_addTileFile n.library disk path mesh _

theorem grown_sweepTiles (n : Navigation σ τ μ) (disk : Disk) (folder : String) (map : UInt32)
    (centre : SweepCentre) (steps : List (Int32 × Int32)) (mesh : μ)
    (s : NavigationState σ τ μ) :
    n.library.Grown mesh (n.sweepTiles disk folder map centre steps mesh s).1.2 := by
  induction steps generalizing mesh s with
  | nil => exact .refl
  | cons step steps ih =>
    have hgrown := n.grown_sweepTile disk folder map centre step mesh s
    rcases hfirst : n.sweepTile disk folder map centre step mesh s with
      ⟨⟨stop | outcome, first⟩, s'⟩ <;> rw [hfirst] at hgrown
    · rw [sweepTiles_of_error hfirst]
      exact hgrown
    · rw [sweepTiles_of_ok hfirst]
      exact hgrown.trans (ih first s')

/-- Where there is no mesh, a sweep changes nothing. -/
theorem sweep_of_absent (n : Navigation σ τ μ) (disk : Disk) (position : MeshPosition)
    (map : UInt32) {owner : UInt32} {s : NavigationState σ τ μ} (h : meshIn s owner = none) :
    n.sweep disk position map owner s = (.ok none, s) := by
  unfold sweep
  rw [bind_apply, mesh?_eq, h]
  rfl

/-- A sweep puts the mesh that it makes in the place of the one that it finds. -/
theorem meshes_sweep {n : Navigation σ τ μ} {folder : String} (hfolder : n.meshFolder = some folder)
    (disk : Disk) (position : MeshPosition) (map : UInt32) {owner : UInt32}
    {s : NavigationState σ τ μ} {mesh : μ} (hmesh : meshIn s owner = some mesh) :
    (n.sweep disk position map owner s).2.meshes = s.meshes.insert owner
      (n.sweepTiles disk folder map (sweepCentre n.library mesh position) neighbourhood mesh s).1.2
    := by
  have hkept := n.meshes_sweepTiles disk folder map (sweepCentre n.library mesh position)
    neighbourhood mesh s
  unfold sweep
  simp only [bind_apply, mesh?_eq, hmesh, hfolder]
  generalize n.sweepTiles disk folder map (sweepCentre n.library mesh position) neighbourhood mesh s
    = swept at hkept ⊢
  rw [← hkept]
  rfl

/-- **What a sweep does to the meshes**, for any library. -/
theorem sweep_outcomes (n : Navigation σ τ μ) (disk : Disk) (position : MeshPosition)
    (map owner : UInt32) (s : NavigationState σ τ μ) :
    (n.sweep disk position map owner s).2.meshes = s.meshes ∨
    ∃ mesh folder, meshIn s owner = some mesh ∧
      (n.sweep disk position map owner s).2.meshes = s.meshes.insert owner
        (n.sweepTiles disk folder map (sweepCentre n.library mesh position) neighbourhood mesh
          s).1.2 := by
  cases hmesh : meshIn s owner with
  | none =>
    left
    rw [n.sweep_of_absent disk position map hmesh]
  | some mesh =>
    cases hfolder : n.meshFolder with
    | none =>
      left
      unfold sweep
      rw [bind_apply, mesh?_eq, hmesh, hfolder]
      rfl
    | some folder =>
      exact .inr ⟨mesh, folder, rfl, meshes_sweep hfolder disk position map hmesh⟩

/-- A sweep changes the mesh of its owner alone. -/
theorem meshIn_sweep (n : Navigation σ τ μ) (disk : Disk) (position : MeshPosition)
    (map : UInt32) {owner other : UInt32} (hother : other ≠ owner)
    (s : NavigationState σ τ μ) :
    meshIn (n.sweep disk position map owner s).2 other = meshIn s other := by
  rcases n.sweep_outcomes disk position map owner s with h | ⟨mesh, folder, hmesh, h⟩
  · rw [meshIn_congr h]
  · rw [meshIn_of_insert h (meshIn_eq_some_iff.1 hmesh).1, if_neg hother]

/-! ## Meshes stay -/

/-- The same maps have a mesh, and each mesh only grew. -/
def Grew (n : Navigation σ τ μ) (s t : NavigationState σ τ μ) : Prop :=
  ∀ map, Option.Rel n.library.Grown (meshIn s map) (meshIn t map)

theorem grew_of_meshes (n : Navigation σ τ μ) {s t : NavigationState σ τ μ}
    (h : t.meshes = s.meshes) : n.Grew s t := by
  intro map
  rw [meshIn_congr h]
  cases meshIn s map with
  | none => exact .none
  | some mesh => exact .some .refl

theorem Grew.trans {n : Navigation σ τ μ} {s t u : NavigationState σ τ μ} (h : n.Grew s t)
    (hlater : n.Grew t u) : n.Grew s u := by
  intro map
  have hmap := h map
  have hlatermap := hlater map
  generalize meshIn s map = before, meshIn t map = now, meshIn u map = later at *
  cases hmap with
  | none =>
    cases hlatermap
    exact .none
  | some hgrown =>
    cases hlatermap with
    | some hgrown' => exact .some (hgrown.trans hgrown')

theorem Grew.exists_after {n : Navigation σ τ μ} {s t : NavigationState σ τ μ} (h : n.Grew s t)
    {map : UInt32} {mesh : μ} (hmesh : meshIn s map = some mesh) :
    ∃ now, meshIn t map = some now ∧ n.library.Grown mesh now := by
  have hmap := h map
  rw [hmesh] at hmap
  generalize meshIn t map = now at *
  cases hmap with
  | some hgrown => exact ⟨_, rfl, hgrown⟩

theorem Grew.exists_before {n : Navigation σ τ μ} {s t : NavigationState σ τ μ} (h : n.Grew s t)
    {map : UInt32} {now : μ} (hnow : meshIn t map = some now) :
    ∃ mesh, meshIn s map = some mesh ∧ n.library.Grown mesh now := by
  have hmap := h map
  rw [hnow] at hmap
  generalize meshIn s map = before at *
  cases hmap with
  | some hgrown => exact ⟨_, rfl, hgrown⟩

theorem Grew.length_toList {n : Navigation σ τ μ} {s t : NavigationState σ τ μ} (h : n.Grew s t)
    (map : UInt32) : (meshIn s map).toList.length = (meshIn t map).toList.length := by
  have hmap := h map
  generalize meshIn s map = before, meshIn t map = now at *
  cases hmap <;> rfl

/-- A sweep leaves every mesh in its place. -/
theorem grew_sweep (n : Navigation σ τ μ) (disk : Disk) (position : MeshPosition)
    (map owner : UInt32) (s : NavigationState σ τ μ) :
    n.Grew s (n.sweep disk position map owner s).2 := by
  rcases n.sweep_outcomes disk position map owner s with h | ⟨mesh, folder, hmesh, h⟩
  · exact n.grew_of_meshes h
  · intro other
    rw [meshIn_of_insert h (meshIn_eq_some_iff.1 hmesh).1]
    by_cases hother : other = owner
    · rw [if_pos hother, hother, hmesh]
      exact .some (n.grown_sweepTiles disk folder map _ neighbourhood mesh s)
    · rw [if_neg hother]
      exact n.grew_of_meshes rfl other

end Navigation

end Overland
