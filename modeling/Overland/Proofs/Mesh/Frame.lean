import Overland.Mesh.Sweep
import Overland.Proofs.Ground.Steady

/-!
# What loading and sweeping leave as it is

Loading a mesh and sweeping tiles into it are made of a few requests: tiles of the ground are
loaded, the mesh library is asked, and a mesh is put in its place.  A property of the state that
these preserve is preserved by the whole, which is said once here for any property
(`preserves_loadMesh`, `preserves_sweep`).

Two such properties are used all over: what the tiles of the ground answer on a disk that does not
change, and which meshes there are while a sweep is still going on.
-/

namespace Overland

/-- A question leads from states with a property to states with it. -/
def Preserves {S α : Type} (I : S → Prop) (question : StateM S α) : Prop :=
  ∀ s, I s → I (question s).2

namespace Preserves

variable {S α β : Type} {I : S → Prop}

theorem pure (a : α) : Preserves I (Pure.pure a : StateM S α) := fun _ hs => hs

theorem bind {question : StateM S α} {rest : α → StateM S β} (h : Preserves I question)
    (hrest : ∀ a, Preserves I (rest a)) : Preserves I (question >>= rest) := by
  intro s hs
  exact hrest (question s).1 (question s).2 (h s hs)

end Preserves

theorem bind_apply {S α β : Type} (question : StateM S α) (rest : α → StateM S β) (s : S) :
    (question >>= rest) s = rest (question s).1 (question s).2 := rfl

namespace Navigation

variable {σ τ μ : Type}

section Frame

variable {I : NavigationState σ τ μ → Prop} (n : Navigation σ τ μ) (disk : Disk)

theorem preserves_mesh? (map : UInt32) :
    Preserves I (mesh? map : NavigationM σ τ μ (Option μ)) := fun _ hs => hs

theorem preserves_loadMesh
    (hlibrary : ∀ header, Preserves I (askLibrary (n.library.create header)))
    (hput : ∀ map mesh, Preserves I (putMesh map mesh)) (map : UInt32) :
    Preserves I (n.loadMesh disk map) := by
  unfold loadMesh
  cases n.meshFolder with
  | none => exact .pure _
  | some folder =>
    by_cases hmap : map < mapLimit
    · simp only [hmap, if_true]
      refine .bind (preserves_mesh? map) fun found => ?_
      cases found with
      | some mesh => exact .pure _
      | none =>
        unfold createMesh
        cases loadHeader disk folder map with
        | error e => exact .pure _
        | ok header =>
          refine .bind (hlibrary header) fun created => ?_
          cases created with
          | error status => exact .pure _
          | ok mesh => exact .bind (hput map mesh) fun _ => .pure _
    · simp only [hmap, if_false]
      exact .pure _

variable (hlibrary : ∀ path mesh, Preserves I (askLibrary (addTileFile n.library disk path mesh)))
  (map : UInt32) (hground : ∀ x y, Preserves I (askGround (n.ground.loadTile disk map x y)))
  (folder : String) (centre : SweepCentre)

include hlibrary hground in
theorem preserves_sweepTile (step : Int32 × Int32) (mesh : μ) :
    Preserves I (n.sweepTile disk folder map centre step mesh) := by
  unfold sweepTile
  cases centre.cell n.arithmetic step with
  | error stop => exact .pure _
  | ok cell =>
    dsimp only
    by_cases hpresent : n.library.hasTile mesh cell.1 cell.2 = true
    · rw [if_pos hpresent]
      exact .pure _
    · rw [if_neg hpresent]
      refine .bind (hground _ _) fun _ => ?_
      cases centre.file n.arithmetic step with
      | error stop => exact .pure _
      | ok file =>
        dsimp only
        cases tilePath? folder map file.1 file.2 with
        | none => exact .pure _
        | some path => exact .bind (hlibrary path mesh) fun _ => .pure _

include hlibrary hground in
theorem preserves_sweepTiles (steps : List (Int32 × Int32)) (mesh : μ) :
    Preserves I (n.sweepTiles disk folder map centre steps mesh) := by
  induction steps generalizing mesh with
  | nil => exact .pure _
  | cons step steps ih =>
    refine .bind (n.preserves_sweepTile disk hlibrary map hground folder centre step mesh) ?_
    rintro ⟨outcome, first⟩
    cases outcome with
    | error stop => exact .pure _
    | ok outcome => exact .bind (ih first) fun _ => .pure _

include hlibrary hground in
theorem preserves_sweep (hput : ∀ owner mesh, Preserves I (putMesh owner mesh))
    (position : MeshPosition) (owner : UInt32) :
    Preserves I (n.sweep disk position map owner) := by
  unfold sweep
  refine .bind (preserves_mesh? owner) fun found => ?_
  cases found with
  | none => exact .pure _
  | some mesh =>
    cases n.meshFolder with
    | none => exact .pure _
    | some folder =>
      exact .bind (n.preserves_sweepTiles disk hlibrary map hground folder _ _ mesh) fun swept =>
        .bind (hput owner swept.2) fun _ => .pure _

end Frame

/-! ## The steps of a sweep, one after the other -/

section Steps

variable {n : Navigation σ τ μ} {disk : Disk} {folder : String} {map : UInt32}
  {centre : SweepCentre} {step : Int32 × Int32} {mesh first : μ} {s s' : NavigationState σ τ μ}

/-- A sweep stops with its first step that does. -/
theorem sweepTiles_of_error {stop : Stop}
    (h : n.sweepTile disk folder map centre step mesh s = ((.error stop, first), s'))
    (steps : List (Int32 × Int32)) :
    n.sweepTiles disk folder map centre (step :: steps) mesh s = ((.error stop, first), s') := by
  rw [sweepTiles, bind_apply, h]
  rfl

/-- After a step that comes to its end, a sweep goes on with the mesh that it leaves. -/
theorem sweepTiles_of_ok {outcome : SweepOutcome}
    (h : n.sweepTile disk folder map centre step mesh s = ((.ok outcome, first), s'))
    (steps : List (Int32 × Int32)) :
    let rest := n.sweepTiles disk folder map centre steps first s'
    n.sweepTiles disk folder map centre (step :: steps) mesh s
      = ((rest.1.1.map (outcome :: ·), rest.1.2), rest.2) := by
  rw [sweepTiles, bind_apply, h]
  rfl

end Steps

/-! ## What the tiles of the ground answer -/

/-- What visits to the tiles of the ground answer. -/
def look (n : Navigation σ τ μ) (disk : Disk) (s : NavigationState σ τ μ) :
    TileKey → Except TileError Tile := n.ground.look disk s.ground

section Look

variable (n : Navigation σ τ μ) (disk : Disk) (tiles : TileKey → Except TileError Tile)

theorem look_loadMesh (map : UInt32) :
    Preserves (fun s => n.look disk s = tiles) (n.loadMesh disk map) :=
  n.preserves_loadMesh disk (fun _ _ hs => hs) (fun _ _ _ hs => hs) map

theorem look_sweep (position : MeshPosition) (map owner : UInt32) :
    Preserves (fun s => n.look disk s = tiles) (n.sweep disk position map owner) :=
  n.preserves_sweep disk (fun _ _ _ hs => hs) map
    (fun x y s hs => (n.ground.look_loadTile disk map x y s.ground).trans hs)
    (fun _ _ _ hs => hs) position owner

end Look

/-- While a sweep is going on, the meshes stay in their places. -/
theorem meshes_sweepTiles (n : Navigation σ τ μ) (disk : Disk) (folder : String) (map : UInt32)
    (centre : SweepCentre) (steps : List (Int32 × Int32)) (mesh : μ)
    (s : NavigationState σ τ μ) :
    (n.sweepTiles disk folder map centre steps mesh s).2.meshes = s.meshes :=
  n.preserves_sweepTiles (I := fun t => t.meshes = s.meshes) disk (fun _ _ _ hs => hs) map
    (fun _ _ _ hs => hs) folder centre steps mesh s rfl

end Navigation

end Overland
