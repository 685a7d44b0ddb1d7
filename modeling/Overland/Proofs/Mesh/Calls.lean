import Overland.Proofs.Mesh.Table

/-!
# A record of the calls of the mesh library

`MeshLibrary.recorded` is a mesh library with a record of the calls that were made of it.  Besides,
each of its meshes has the number of the call that it was created by, which is what tells one mesh
from another one that happens to have the same tiles: tiles that are added to a mesh leave it the
same (`MeshLibrary.Grown.of_recorded`).

`Since calls P` says that only calls of a kind `P` were added to a record.  An attempt to load a
mesh may create one and does nothing else (`since_loadMesh`), and a sweep adds tiles
(`since_sweep`).
-/

namespace Overland

variable {σ τ μ α : Type}

/-! ## Recording -/

/-- A call of the mesh library.  A mesh is told by its number. -/
inductive MeshCall where
  /-- A mesh is to be created; the library may accept the header or refuse it. -/
  | create (header : MeshHeader) (accepted : Bool)
  | addTile (mesh : Nat) (tile : MeshTile)
  | nearest (mesh : Nat) (centre extents : MeshPosition)
  | corridor (mesh : Nat) (fromPolygon toPolygon : UInt64) (start goal : MeshPosition)
      (limit : Nat)
  | corners (mesh : Nat) (start goal : MeshPosition) (polygons : List UInt64) (limit : Nat)
  deriving DecidableEq, Repr

namespace MeshCall

/-- The header of a mesh that a call created. -/
def created? : MeshCall → Option MeshHeader
  | create header true => some header
  | _ => none

/-- Whether a call is a query to a mesh. -/
def isQuery : MeshCall → Bool
  | create _ _ | addTile _ _ => false
  | nearest _ _ _ | corridor _ _ _ _ _ _ | corners _ _ _ _ _ => true

end MeshCall

/-- A mesh and its number, which is that of the call that created it. -/
structure NumberedMesh (μ : Type) where
  call : Nat
  mesh : μ

/-- Asks a question and puts a call at the end of the record. -/
def noting (call : MeshCall) (question : StateM τ α) : StateM (List MeshCall × τ) α :=
  fun (calls, t) => ((question t).1, calls ++ [call], (question t).2)

theorem of_noting {call : MeshCall} {question : StateM τ α} {s t : List MeshCall × τ} {answer : α}
    (h : noting call question s = (answer, t)) :
    question s.2 = (answer, t.2) ∧ t.1 = s.1 ++ [call] := by
  obtain ⟨calls, s⟩ := s
  cases h
  exact ⟨rfl, rfl⟩

/-- The library with a record of the calls that were made of it. -/
def MeshLibrary.recorded (library : MeshLibrary τ μ) :
    MeshLibrary (List MeshCall × τ) (NumberedMesh μ) where
  create header := fun (calls, t) =>
    match library.create header t with
    | (.error status, t) => (.error status, calls ++ [.create header false], t)
    | (.ok mesh, t) => (.ok ⟨calls.length, mesh⟩, calls ++ [.create header true], t)
  tileOf mesh := library.tileOf mesh.mesh
  hasTile mesh := library.hasTile mesh.mesh
  addTile mesh tile := fun s =>
    let ((answer, grown), s) := noting (.addTile mesh.call tile) (library.addTile mesh.mesh tile) s
    ((answer, ⟨mesh.call, grown⟩), s)
  nearest mesh centre extents :=
    noting (.nearest mesh.call centre extents) (library.nearest mesh.mesh centre extents)
  corridor mesh fromPolygon toPolygon start goal limit :=
    noting (.corridor mesh.call fromPolygon toPolygon start goal limit)
      (library.corridor mesh.mesh fromPolygon toPolygon start goal limit)
  corners mesh start goal polygons limit :=
    noting (.corners mesh.call start goal polygons limit)
      (library.corners mesh.mesh start goal polygons limit)

theorem MeshLibrary.create_refused {library : MeshLibrary τ μ} {header : MeshHeader}
    {status : Status} {s t : List MeshCall × τ}
    (h : library.recorded.create header s = (.error status, t)) :
    t.1 = s.1 ++ [.create header false] := by
  obtain ⟨calls, s⟩ := s
  rcases hcreate : library.create header s with ⟨_ | _, _⟩ <;>
    simp only [recorded, hcreate] at h <;> cases h
  rfl

theorem MeshLibrary.create_accepted {library : MeshLibrary τ μ} {header : MeshHeader}
    {mesh : NumberedMesh μ} {s t : List MeshCall × τ}
    (h : library.recorded.create header s = (.ok mesh, t)) :
    (library.create header s.2).1 = .ok mesh.mesh ∧ mesh.call = s.1.length ∧
      t.1 = s.1 ++ [.create header true] := by
  obtain ⟨calls, s⟩ := s
  rcases hcreate : library.create header s with ⟨_ | _, _⟩ <;>
    simp only [recorded, hcreate] at h <;> cases h
  exact ⟨rfl, rfl, rfl⟩

/-- A mesh that has grown is still the one that was created by its call. -/
theorem MeshLibrary.Grown.of_recorded {library : MeshLibrary τ μ} {mesh now : NumberedMesh μ}
    (h : library.recorded.Grown mesh now) :
    now.call = mesh.call ∧ library.Grown mesh.mesh now.mesh := by
  induction h with
  | refl => exact ⟨rfl, .refl⟩
  | addTile _ tile t ih => exact ⟨ih.1, ih.2.addTile tile t.2⟩

/-! ## What is added to a record -/

/-- Only calls of a kind were added to a record. -/
def Since (calls : List MeshCall) (P : MeshCall → Prop) (s : List MeshCall × τ) : Prop :=
  ∃ new, s.1 = calls ++ new ∧ ∀ call ∈ new, P call

section Since

variable {calls : List MeshCall} {P : MeshCall → Prop}

theorem since_refl (P : MeshCall → Prop) (s : List MeshCall × τ) : Since s.1 P s :=
  ⟨[], (List.append_nil _).symm, nofun⟩

theorem Since.append {s t : List MeshCall × τ} (h : Since calls P s) {new : List MeshCall}
    (ht : t.1 = s.1 ++ new) (hnew : ∀ call ∈ new, P call) : Since calls P t := by
  obtain ⟨old, hold, hall⟩ := h
  refine ⟨old ++ new, ?_, ?_⟩
  · rw [ht, hold, List.append_assoc]
  · intro call hcall
    exact (List.mem_append.1 hcall).elim (hall call) (hnew call)

theorem since_noting {call : MeshCall} (hcall : P call) (question : StateM τ α) :
    Preserves (Since calls P) (noting call question) :=
  fun _ hs => hs.append rfl (by simpa using hcall)

theorem since_addTileFile (hP : ∀ mesh tile, P (.addTile mesh tile)) (library : MeshLibrary τ μ)
    (disk : Disk) (path : String) (mesh : NumberedMesh μ) :
    Preserves (Since calls P) (Navigation.addTileFile library.recorded disk path mesh) := by
  unfold Navigation.addTileFile
  cases MeshTile.load disk path with
  | error e => exact .pure _
  | ok found =>
    cases found with
    | none => exact .pure _
    | some tile =>
      refine .bind (fun s hs => since_noting (hP mesh.call tile)
        (library.addTile mesh.mesh tile) s hs) ?_
      rintro ⟨answer, grown⟩
      cases answer <;> exact .pure _

end Since

namespace Navigation

/-- Ways over the recorded mesh library. -/
def recorded (n : Navigation σ τ μ) : Navigation σ (List MeshCall × τ) (NumberedMesh μ) :=
  ⟨n.ground, n.meshFolder, n.library.recorded, n.arithmetic⟩

section Since

variable {calls : List MeshCall} {P : MeshCall → Prop} (n : Navigation σ τ μ) (disk : Disk)

theorem since_sweep (hP : ∀ mesh tile, P (.addTile mesh tile)) (position : MeshPosition)
    (map owner : UInt32) :
    Preserves (fun s => Since calls P s.library) (n.recorded.sweep disk position map owner) :=
  n.recorded.preserves_sweep disk
    (fun path mesh s hs => since_addTileFile hP n.library disk path mesh s.library hs) map
    (fun _ _ _ hs => hs) (fun _ _ _ hs => hs) position owner

end Since

end Navigation

end Overland
