import Overland.Proofs.Mesh.Swept
import Overland.Proofs.Route.Line

/-!
# Histories of requests and the meshes they leave

Meshes grow as they are used: each request that needs a map creates its mesh, and each sweep adds
tiles to one.  A history is a list of requests, each with the disk at its moment, and `after` is the
state that it leads to.

`AllMeshes` says that every mesh there is has a property.  If meshes have it when they are created
and no sweep takes it from one, it holds after every history (`allMeshes_after`).  Two properties of
that kind are used: a mesh is extracted and has no tiles beside the map (`Laid`), and, as long as
files stay the same, it has no tiles without files (`Backed`).
-/

namespace Overland.Navigation

variable {σ τ μ : Type}

/-- The state before any request. -/
def fresh (collision : σ) (library : τ) : NavigationState σ τ μ :=
  ⟨⟨.empty, collision⟩, ∅, library⟩

/-- A request that may change meshes. -/
inductive Request where
  | loadMesh (map : UInt32)
  | sweep (position : MeshPosition) (map owner : UInt32)
  | findRoute (map : UInt32) (start goal : Position)

/-- Makes a request. -/
def Request.make (n : Navigation σ τ μ) (disk : Disk) : Request → NavigationM σ τ μ Unit
  | .loadMesh map => do let _ ← n.loadMesh disk map
  | .sweep position map owner => do let _ ← n.sweep disk position map owner
  | .findRoute map start goal => do let _ ← n.findRoute disk map start goal

/-- The state after a history of requests, each made on the disk of its moment. -/
def after (n : Navigation σ τ μ) : List (Disk × Request) → NavigationState σ τ μ →
    NavigationState σ τ μ
  | [], s => s
  | (disk, request) :: history, s => n.after history (request.make n disk s).2

/-- The state after requests on one disk. -/
def afterAll (n : Navigation σ τ μ) (disk : Disk) (requests : List Request)
    (s : NavigationState σ τ μ) : NavigationState σ τ μ :=
  n.after (requests.map fun request => (disk, request)) s

theorem disk_of_mem {disk : Disk} {requests : List Request} {moment : Disk × Request}
    (h : moment ∈ requests.map fun request => (disk, request)) : moment.1 = disk := by
  obtain ⟨request, -, rfl⟩ := List.mem_map.1 h
  rfl

theorem preserves_after {I : NavigationState σ τ μ → Prop} {n : Navigation σ τ μ}
    {history : List (Disk × Request)}
    (h : ∀ moment ∈ history, Preserves I (moment.2.make n moment.1))
    {s : NavigationState σ τ μ} (hs : I s) : I (n.after history s) := by
  induction history generalizing s with
  | nil => exact hs
  | cons moment history ih =>
    exact ih (fun m hm => h m (List.mem_cons_of_mem _ hm)) (h moment List.mem_cons_self s hs)

/-- Every request is made of loading, of sweeps and of questions to the ground and the library. -/
theorem preserves_make {I : NavigationState σ τ μ → Prop} {n : Navigation σ τ μ} {disk : Disk}
    (hload : ∀ map, Preserves I (n.loadMesh disk map)) (swept : UInt32 → UInt32 → Prop)
    (hown : ∀ map, swept map map)
    (hsweep : ∀ position map owner, swept map owner →
      Preserves I (n.sweep disk position map owner))
    (hlibrary : ∀ {α : Type} (q : StateM τ α), Preserves I (askLibrary q))
    (hroute : ∀ map line, Preserves I (n.walk disk map line)) {request : Request}
    (hrequest : ∀ position map owner, request = .sweep position map owner → swept map owner) :
    Preserves I (request.make n disk) := by
  cases request with
  | loadMesh map => exact .bind (hload map) fun _ => .pure _
  | sweep position map owner =>
    exact .bind (hsweep position map owner (hrequest position map owner rfl)) fun _ => .pure _
  | findRoute map start goal =>
    refine .bind ?_ fun _ => .pure _
    rw [findRoute_eq]
    refine .bind ?_ fun line => hroute map line
    exact n.preserves_findLine disk map (hload map)
      (fun position => hsweep position map map (hown map)) (fun _ _ _ => hlibrary _) start goal

/-! ## A property of all meshes -/

/-- Every mesh that there is has a property, which may depend on its map. -/
def AllMeshes (P : UInt32 → μ → Prop) (s : NavigationState σ τ μ) : Prop :=
  ∀ map mesh, s.meshes[map]? = some mesh → P map mesh

theorem allMeshes_fresh (P : UInt32 → μ → Prop) (collision : σ) (library : τ) :
    AllMeshes P (fresh collision library : NavigationState σ τ μ) := by
  intro map mesh h
  simp [fresh] at h

theorem allMeshes_insert {P : UInt32 → μ → Prop} {s t : NavigationState σ τ μ} {map : UInt32}
    {mesh : μ} (hs : AllMeshes P s) (hmesh : P map mesh)
    (ht : t.meshes = s.meshes.insert map mesh) : AllMeshes P t := by
  intro other found hfound
  rw [ht, Std.HashMap.getElem?_insert] at hfound
  by_cases hother : map = other
  · subst hother
    simp only [beq_self_eq_true, if_true, Option.some.injEq] at hfound
    exact hfound ▸ hmesh
  · simp only [beq_iff_eq, hother, if_false] at hfound
    exact hs other found hfound

section AllMeshes

variable {n : Navigation σ τ μ} {plain : n.library.Plain} {folder : String} {disk : Disk}
  {P : UInt32 → μ → Prop} {swept : UInt32 → UInt32 → Prop}

/-- The property holds of new meshes, and no sweep of an extracted mesh takes it away. -/
structure Lasting (plain : n.library.Plain) (folder : String) (disk : Disk)
    (P : UInt32 → μ → Prop) (swept : UInt32 → UInt32 → Prop) : Prop where
  own : ∀ map, swept map map
  extracted : ∀ map mesh, P map mesh → (plain.header mesh).IsExtracted
  created : ∀ map header mesh, storedHeader disk folder map = .ok header →
    plain.header mesh = header → (∀ cell, ¬ plain.Has mesh cell) → P map mesh
  swept : ∀ position map owner mesh mesh', swept map owner → P owner mesh →
    Swept plain disk folder map (.extracted position) neighbourhood mesh mesh' → P owner mesh'

theorem allMeshes_loadMesh (hP : Lasting plain folder disk P swept)
    (hfolder : n.meshFolder = some folder) (map : UInt32) :
    Preserves (AllMeshes P) (n.loadMesh disk map) := by
  intro s hs
  rcases loadMesh_cases plain hfolder disk map s with ⟨-, h⟩ | ⟨_, -, -, h⟩ | ⟨_, -, -, -, h⟩ |
    ⟨header, mesh, t, -, -, hheader, hmesh, hempty, h⟩
  · rw [h]; exact hs
  · rw [h]; exact hs
  · rw [h]; exact hs
  · rw [h]
    exact allMeshes_insert hs (hP.created map header mesh hheader hmesh hempty) rfl

theorem allMeshes_sweep (hP : Lasting plain folder disk P swept)
    (hfolder : n.meshFolder = some folder) (hfiles : Extracted plain folder disk)
    (position : MeshPosition) (map owner : UInt32) (hswept : swept map owner) :
    Preserves (AllMeshes P) (n.sweep disk position map owner) := by
  intro s hs
  cases hfound : meshIn s owner with
  | none =>
    rw [n.sweep_of_absent disk position map hfound]
    exact hs
  | some mesh =>
    obtain ⟨howner, hmesh⟩ := meshIn_eq_some_iff.1 hfound
    have hmeshP := hs owner mesh hmesh
    obtain ⟨mesh', hstep, hmeshes⟩ := swept_sweep hfiles hfolder howner hmesh
      (hP.extracted owner mesh hmeshP) position map
    exact allMeshes_insert hs (hP.swept position map owner mesh mesh' hswept hmeshP hstep) hmeshes

theorem allMeshes_walk (map : UInt32)
    (line : Except Stop (Option (List MeshPosition × Bool))) :
    Preserves (AllMeshes P) (n.walk disk map line) := by
  rcases line with stop | _ | line
  · exact .pure _
  · exact .pure _
  · exact fun _ hs => hs

/-- One request keeps a lasting property of all meshes. -/
theorem allMeshes_make (hP : Lasting plain folder disk P swept)
    (hfolder : n.meshFolder = some folder) (hfiles : Extracted plain folder disk)
    {request : Request}
    (hrequest : ∀ position map owner, request = .sweep position map owner → swept map owner) :
    Preserves (AllMeshes P) (request.make n disk) :=
  preserves_make (allMeshes_loadMesh hP hfolder) swept hP.own
    (fun position map owner h => allMeshes_sweep hP hfolder hfiles position map owner h)
    (fun _ _ hs => hs) allMeshes_walk hrequest

end AllMeshes

/-! ## Tiles on the map only -/

/-- A mesh is extracted, and has no tiles beside the squares of the map. -/
structure Laid {library : MeshLibrary τ μ} (plain : library.Plain) (mesh : μ) : Prop where
  extracted : (plain.header mesh).IsExtracted
  onMap : ∀ cell, plain.Has mesh cell → ∃ q : Square, cell = q.meshTile

theorem lasting_laid {n : Navigation σ τ μ} {plain : n.library.Plain} {folder : String}
    {disk : Disk} (hfiles : Extracted plain folder disk) :
    Lasting plain folder disk (fun _ => Laid plain) fun _ _ => True where
  own _ := trivial
  extracted _ _ h := h.extracted
  created := by
    rintro map header mesh hheader rfl hempty
    refine ⟨hfiles.header map _ hheader, ?_⟩
    intro cell h
    exact absurd h (hempty cell)
  swept := by
    intro position map owner mesh mesh' _ h hswept
    refine ⟨hswept.header ▸ h.extracted, fun cell hcell => ?_⟩
    rcases hswept.new cell hcell with hcell | ⟨_, _, _, q, _, _, hq⟩
    · exact h.onMap cell hcell
    · exact ⟨q, hq⟩

/-- After any history over extracted files, every mesh is laid. -/
theorem laid_after {n : Navigation σ τ μ} {plain : n.library.Plain} {folder : String}
    (hfolder : n.meshFolder = some folder) {history : List (Disk × Request)}
    (hfiles : ∀ moment ∈ history, Extracted plain folder moment.1) (collision : σ)
    (library : τ) :
    AllMeshes (fun _ => Laid plain) (n.after history (fresh collision library)) :=
  preserves_after
    (fun moment hmoment => allMeshes_make (lasting_laid (hfiles moment hmoment)) hfolder
      (hfiles moment hmoment) fun _ _ _ _ => trivial)
    (allMeshes_fresh _ collision library)

theorem laid_afterAll {n : Navigation σ τ μ} {plain : n.library.Plain} {folder : String}
    {disk : Disk} (hfolder : n.meshFolder = some folder) (hfiles : Extracted plain folder disk)
    (requests : List Request) (collision : σ) (library : τ) :
    AllMeshes (fun _ => Laid plain) (n.afterAll disk requests (fresh collision library)) :=
  laid_after hfolder (fun _ hmoment => disk_of_mem hmoment ▸ hfiles) collision library

/-! ## Tiles with files only -/

/-- A map has a header, and its mesh is extracted and has no tiles without files. -/
structure Backed {library : MeshLibrary τ μ} (plain : library.Plain) (folder : String)
    (disk : Disk) (map : UInt32) (mesh : μ) : Prop where
  header : ∃ header, storedHeader disk folder map = .ok header
  extracted : (plain.header mesh).IsExtracted
  backed : ∀ cell, plain.Has mesh cell → ∃ q : Square, cell = q.meshTile ∧
    HasFile disk folder map q

theorem Backed.laid {library : MeshLibrary τ μ} {plain : library.Plain} {folder : String}
    {disk : Disk} {map : UInt32} {mesh : μ} (h : Backed plain folder disk map mesh) :
    Laid plain mesh :=
  ⟨h.extracted, fun cell hcell => (h.backed cell hcell).imp fun _ hq => hq.1⟩

/-- Sweeps of its own files only keep a mesh backed. -/
theorem lasting_backed {n : Navigation σ τ μ} {plain : n.library.Plain} {folder : String}
    {disk : Disk} (hfiles : Extracted plain folder disk) :
    Lasting plain folder disk (Backed plain folder disk) (· = ·) where
  own _ := rfl
  extracted _ _ h := h.extracted
  created := by
    rintro map header mesh hheader rfl hempty
    refine ⟨⟨_, hheader⟩, hfiles.header map _ hheader, ?_⟩
    intro cell h
    exact absurd h (hempty cell)
  swept := by
    rintro position map owner mesh mesh' rfl h hswept
    refine ⟨h.header, hswept.header ▸ h.extracted, fun cell hcell => ?_⟩
    rcases hswept.new cell hcell with hcell | ⟨_, _, _, q, _, hfile, hq⟩
    · exact h.backed cell hcell
    · exact ⟨q, hq, hfile⟩

end Overland.Navigation
