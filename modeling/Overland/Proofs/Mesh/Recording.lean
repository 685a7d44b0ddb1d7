import Overland.Proofs.Mesh.Calls
import Overland.Proofs.Mesh.History

/-!
# A record changes nothing

Whatever is asked over the recorded mesh library is answered as it would be without the record.
`Follows` compares two questions that lead from related states to related states with the same
answers; over the recorded library and the plain one the states are related if one is the other
without the record and without the numbers of the meshes (`Plainly`).

Questions are followed part by part, along their definitions: `follows_findRoute` says it of a
route, `follows_make` of each request, and `plainly_after` of whole histories.
-/

namespace Overland

variable {S T σ τ μ α β γ δ : Type}

/-! ## Questions that follow each other -/

/-- From related states the second question answers what the first one does, put into its terms, and
the states are related again. -/
def Follows (R : S → T → Prop) (f : α → β) (question : StateM S α) (other : StateM T β) : Prop :=
  ∀ s t, R s t → (other t).1 = f (question s).1 ∧ R (question s).2 (other t).2

namespace Follows

variable {R : S → T → Prop} {f : α → β} {h : γ → δ}

theorem pure (a : α) : Follows R f (Pure.pure a) (Pure.pure (f a)) := fun _ _ hst => ⟨rfl, hst⟩

theorem bind {question : StateM S α} {other : StateM T β} {rest : α → StateM S γ}
    {otherRest : β → StateM T δ} (hfirst : Follows R f question other)
    (hrest : ∀ a, Follows R h (rest a) (otherRest (f a))) :
    Follows R h (question >>= rest) (other >>= otherRest) := by
  intro s t hst
  obtain ⟨hanswer, hstates⟩ := hfirst s t hst
  rw [bind_apply, bind_apply, hanswer]
  exact hrest _ _ _ hstates

end Follows

/-! ## The library -/

/-- The second state of the library is the first one without the record. -/
def Unrecorded (s : List MeshCall × τ) (t : τ) : Prop := t = s.2

theorem follows_create (library : MeshLibrary τ μ) (header : MeshHeader) :
    Follows Unrecorded (Except.map NumberedMesh.mesh) (library.recorded.create header)
      (library.create header) := by
  rintro s _ rfl
  unfold MeshLibrary.recorded
  rcases hcreate : library.create header s.2 with ⟨_ | _, _⟩ <;>
    simp only [hcreate] <;> exact ⟨rfl, rfl⟩

/-- What goes along with a mesh, and the mesh without its number. -/
def withoutNumber (answer : α × NumberedMesh μ) : α × μ := (answer.1, answer.2.mesh)

theorem follows_addTileFile (library : MeshLibrary τ μ) (disk : Disk) (path : String)
    (mesh : NumberedMesh μ) :
    Follows Unrecorded withoutNumber (Navigation.addTileFile library.recorded disk path mesh)
      (Navigation.addTileFile library disk path mesh.mesh) := by
  unfold Navigation.addTileFile
  cases MeshTile.load disk path with
  | error e => exact .pure _
  | ok found =>
    cases found with
    | none => exact .pure _
    | some tile =>
      have hadd : Follows Unrecorded withoutNumber (library.recorded.addTile mesh tile)
          (library.addTile mesh.mesh tile) := by
        rintro s _ rfl
        exact ⟨rfl, rfl⟩
      refine .bind hadd ?_
      rintro ⟨answer, grown⟩
      cases answer <;> exact .pure _

theorem follows_findCorners (library : MeshLibrary τ μ) (mesh : NumberedMesh μ)
    (start goal : MeshPosition) :
    Follows Unrecorded id (Navigation.findCorners library.recorded mesh start goal)
      (Navigation.findCorners library mesh.mesh start goal) := by
  rintro s _ rfl
  obtain ⟨t₁, t₂, t₃, t₄, h⟩ := Navigation.exists_asked library.recorded mesh start goal s
  generalize (Navigation.findings library.recorded mesh start goal s).1 = f at h
  have hplain : Navigation.Asked library mesh.mesh start goal s.2 f t₁.2 t₂.2 t₃.2 t₄.2 :=
    ⟨(of_noting h.nearStart).1, (of_noting h.nearGoal).1, (of_noting h.corridor).1,
      (of_noting h.straight).1⟩
  rw [Navigation.findCorners_eq h, Navigation.findCorners_eq hplain]
  exact ⟨rfl, (f.map_atEnd Prod.snd t₁ t₂ t₃ t₄).symm⟩

namespace Navigation

/-! ## States -/

/-- The second state is the first one without the record and the numbers. -/
structure Plainly (s : NavigationState σ (List MeshCall × τ) (NumberedMesh μ))
    (t : NavigationState σ τ μ) : Prop where
  ground : t.ground = s.ground
  meshes : ∀ map : UInt32, t.meshes[map]? = s.meshes[map]?.map NumberedMesh.mesh
  library : t.library = s.library.2

theorem plainly_fresh (collision : σ) (library : τ) :
    Plainly (fresh collision ([], library) :
        NavigationState σ (List MeshCall × τ) (NumberedMesh μ)) (fresh collision library) where
  ground := rfl
  meshes map := by simp [fresh]
  library := rfl

theorem follows_askLibrary {f : α → β} {question : StateM (List MeshCall × τ) α}
    {other : StateM τ β} (h : Follows Unrecorded f question other) :
    Follows Plainly f
      (askLibrary question : NavigationM σ (List MeshCall × τ) (NumberedMesh μ) α)
      (askLibrary other) := by
  intro s t hst
  obtain ⟨hanswer, hlibrary⟩ := h s.library t.library hst.library
  exact ⟨hanswer, hst.ground, hst.meshes, hlibrary⟩

theorem follows_askGround (question : GroundM σ α) :
    Follows Plainly id
      (askGround question : NavigationM σ (List MeshCall × τ) (NumberedMesh μ) α)
      (askGround question : NavigationM σ τ μ α) := by
  intro s t hst
  obtain ⟨ground, meshes, library⟩ := t
  obtain rfl : ground = s.ground := hst.ground
  exact ⟨rfl, rfl, hst.meshes, hst.library⟩

theorem follows_mesh? (map : UInt32) :
    Follows Plainly (Option.map NumberedMesh.mesh)
      (mesh? map : NavigationM σ (List MeshCall × τ) (NumberedMesh μ) _) (mesh? map) := by
  intro s t hst
  refine ⟨?_, hst⟩
  rw [mesh?_eq, mesh?_eq, meshIn, meshIn, hst.meshes]
  split <;> rfl

theorem follows_putMesh (map : UInt32) (mesh : NumberedMesh μ) :
    Follows Plainly id
      (putMesh map mesh : NavigationM σ (List MeshCall × τ) (NumberedMesh μ) Unit)
      (putMesh map mesh.mesh) := by
  intro s t hst
  refine ⟨rfl, hst.ground, fun other => ?_, hst.library⟩
  change (t.meshes.insert map mesh.mesh)[other]?
    = (s.meshes.insert map mesh)[other]?.map NumberedMesh.mesh
  rw [Std.HashMap.getElem?_insert, Std.HashMap.getElem?_insert, hst.meshes]
  split <;> rfl

/-! ## Requests -/

section Requests

variable (n : Navigation σ τ μ) (disk : Disk)

theorem follows_loadMesh (map : UInt32) :
    Follows Plainly (Except.map NumberedMesh.mesh) (n.recorded.loadMesh disk map)
      (n.loadMesh disk map) := by
  have hcreate (folder : String) :
      Follows Plainly (Except.map NumberedMesh.mesh) (n.recorded.createMesh disk folder map)
        (n.createMesh disk folder map) := by
    unfold createMesh
    cases loadHeader disk folder map with
    | error e => exact .pure _
    | ok header =>
      refine .bind (follows_askLibrary (follows_create n.library header)) fun created => ?_
      cases created with
      | error status => exact .pure _
      | ok mesh =>
        exact .bind (follows_putMesh map mesh) fun _ =>
          .pure _
  have hfolder : n.recorded.meshFolder = n.meshFolder := rfl
  unfold loadMesh
  rw [hfolder]
  cases n.meshFolder with
  | none => exact .pure _
  | some folder =>
    by_cases hmap : map < mapLimit
    · simp only [hmap, if_true]
      refine .bind (follows_mesh? map) fun found => ?_
      cases found with
      | some mesh => exact .pure _
      | none => exact hcreate folder
    · simp only [hmap, if_false]
      exact .pure _

theorem follows_sweepTile (folder : String) (map : UInt32) (centre : SweepCentre)
    (step : Int32 × Int32) (mesh : NumberedMesh μ) :
    Follows Plainly withoutNumber (n.recorded.sweepTile disk folder map centre step mesh)
      (n.sweepTile disk folder map centre step mesh.mesh) := by
  have harithmetic : n.recorded.arithmetic = n.arithmetic := rfl
  unfold sweepTile
  rw [harithmetic]
  cases centre.cell n.arithmetic step with
  | error stop => exact .pure _
  | ok cell =>
    dsimp only
    change Follows _ _ (if n.library.hasTile mesh.mesh cell.1 cell.2 = true then _ else _) _
    by_cases hpresent : n.library.hasTile mesh.mesh cell.1 cell.2 = true
    · rw [if_pos hpresent, if_pos hpresent]
      exact .pure _
    · rw [if_neg hpresent, if_neg hpresent]
      refine .bind (follows_askGround _) fun _ => ?_
      cases centre.file n.arithmetic step with
      | error stop => exact .pure _
      | ok file =>
        dsimp only
        cases tilePath? folder map file.1 file.2 with
        | none => exact .pure _
        | some path =>
          refine .bind (follows_askLibrary (follows_addTileFile n.library disk path mesh)) ?_
          rintro ⟨attempt, grown⟩
          exact .pure _

theorem follows_sweepTiles (folder : String) (map : UInt32) (centre : SweepCentre)
    (steps : List (Int32 × Int32)) (mesh : NumberedMesh μ) :
    Follows Plainly withoutNumber (n.recorded.sweepTiles disk folder map centre steps mesh)
      (n.sweepTiles disk folder map centre steps mesh.mesh) := by
  induction steps generalizing mesh with
  | nil => exact .pure _
  | cons step steps ih =>
    refine .bind (n.follows_sweepTile disk folder map centre step mesh) ?_
    rintro ⟨outcome, grown⟩
    cases outcome with
    | error stop => exact .pure _
    | ok outcome =>
      refine .bind (ih grown) ?_
      rintro ⟨outcomes, swept⟩
      exact .pure _

theorem follows_sweep (position : MeshPosition) (map owner : UInt32) :
    Follows Plainly id (n.recorded.sweep disk position map owner)
      (n.sweep disk position map owner) := by
  unfold sweep
  refine .bind (follows_mesh? owner) fun found => ?_
  cases found with
  | none => exact .pure _
  | some mesh =>
    have hfolder : n.recorded.meshFolder = n.meshFolder := rfl
    rw [hfolder]
    cases n.meshFolder with
    | none => exact .pure _
    | some folder =>
      refine .bind (n.follows_sweepTiles disk folder map _ neighbourhood mesh) ?_
      rintro ⟨outcomes, swept⟩
      exact .bind (follows_putMesh owner swept) fun _ => .pure _

theorem follows_sweepEnds (map : UInt32) (start goal : MeshPosition) :
    Follows Plainly id (n.recorded.sweepEnds disk map start goal)
      (n.sweepEnds disk map start goal) := by
  unfold sweepEnds
  refine .bind (n.follows_sweep disk start map map) fun swept => ?_
  cases swept with
  | error stop => exact .pure _
  | ok _ => exact .bind (n.follows_sweep disk goal map map) fun _ => .pure _

/-- **A route does not depend on the record.** -/
theorem follows_findRoute (map : UInt32) (start goal : Position) :
    Follows Plainly id (n.recorded.findRoute disk map start goal)
      (n.findRoute disk map start goal) := by
  unfold findRoute
  refine .bind (n.follows_loadMesh disk map) fun loaded => ?_
  cases loaded with
  | error e => exact .pure _
  | ok mesh =>
    refine .bind (n.follows_sweepEnds disk map _ _) fun swept => ?_
    cases swept with
    | error stop => exact .pure _
    | ok _ =>
      refine .bind (follows_mesh? map) fun found => ?_
      cases found with
      | none => exact .pure _
      | some mesh =>
        refine .bind (follows_askLibrary (follows_findCorners n.library mesh _ _)) fun line => ?_
        cases line with
        | none => exact .pure _
        | some line => exact .bind (follows_askGround _) fun points => .pure _

theorem follows_make (request : Request) :
    Follows Plainly id (request.make n.recorded disk) (request.make n disk) := by
  cases request with
  | loadMesh map => exact .bind (n.follows_loadMesh disk map) fun _ => .pure ()
  | sweep position map owner =>
    exact .bind (n.follows_sweep disk position map owner) fun _ => .pure ()
  | findRoute map start goal =>
    exact .bind (n.follows_findRoute disk map start goal) fun _ => .pure ()

/-- **A record changes nothing** in whole histories. -/
theorem plainly_after {s : NavigationState σ (List MeshCall × τ) (NumberedMesh μ)}
    {t : NavigationState σ τ μ} (h : Plainly s t) (history : List (Disk × Request)) :
    Plainly (n.recorded.after history s) (n.after history t) := by
  induction history generalizing s t with
  | nil => exact h
  | cons moment history ih => exact ih (n.follows_make moment.1 moment.2 s t h).2

end Requests

end Navigation

end Overland
