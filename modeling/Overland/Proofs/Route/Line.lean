import Overland.Proofs.Mesh.Course
import Overland.Proofs.Sampling
import Overland.Route

/-!
# A route is a line, walked

Finding a route has two halves: `Navigation.findLine` makes the mesh ready and gets the corners from
it, `Navigation.walk` samples the line between them (`findRoute_eq`).  The ground is asked for
heights in the second half only.  Where files stay the same and the collision library has one answer
to each probe, the second half is a fixed function of the corners (`findRoute_over`).  A route is
cut off where one of the sweeps of the first half stops, and nowhere else (`findRoute_stops_iff`).
-/

namespace Overland.Navigation

variable {σ τ μ : Type}

/-! ## The two halves -/

/-- The corners of a route, and whether the search was cut short. -/
def findLine (n : Navigation σ τ μ) (disk : Disk) (map : UInt32) (start goal : Position) :
    NavigationM σ τ μ (Except Stop (Option (List MeshPosition × Bool))) := do
  match ← n.loadMesh disk map with
  | .error _ => return .ok none
  | .ok _ =>
    match ← n.sweepEnds disk map start.toMesh goal.toMesh with
    | .error stop => return .error stop
    | .ok () =>
      match ← mesh? map with
      | none => return .ok none
      | some mesh =>
        let line ← askLibrary (findCorners n.library mesh start.toMesh goal.toMesh)
        return .ok line

/-- The route over corners, if there are any. -/
def walk (n : Navigation σ τ μ) (disk : Disk) (map : UInt32) :
    Except Stop (Option (List MeshPosition × Bool)) → NavigationM σ τ μ (Except Stop Route)
  | .error stop => return .error stop
  | .ok none => return .ok .missing
  | .ok (some (corners, cutShort)) => do
    let points ← askGround
      (Sampling.sample (n.ground.height disk map) stepLength (corners.map Position.ofMesh))
    return .ok ⟨if cutShort then .towards else .complete, points⟩

/-- Without a mesh there is no line. -/
theorem findLine_of_error {n : Navigation σ τ μ} {disk : Disk} {map : UInt32}
    {s t : NavigationState σ τ μ} {e : MeshError} (h : n.loadMesh disk map s = (.error e, t))
    (start goal : Position) : n.findLine disk map start goal s = (.ok none, t) := by
  rw [findLine, bind_apply, h]
  rfl

/-- If a sweep around an end stops, so does the search for the line. -/
theorem findLine_of_stop {n : Navigation σ τ μ} {disk : Disk} {map : UInt32}
    {s t u : NavigationState σ τ μ} {mesh : μ} {stop : Stop} {start goal : Position}
    (hload : n.loadMesh disk map s = (.ok mesh, t))
    (hends : n.sweepEnds disk map start.toMesh goal.toMesh t = (.error stop, u)) :
    n.findLine disk map start goal s = (.error stop, u) := by
  rw [findLine, bind_apply, hload]
  dsimp only
  rw [bind_apply, hends]
  rfl

/-- Otherwise the corners are those of the mesh that both sweeps leave. -/
theorem findLine_of_swept {n : Navigation σ τ μ} {disk : Disk} {map : UInt32}
    {s t u : NavigationState σ τ μ} {mesh now : μ} {start goal : Position}
    (hload : n.loadMesh disk map s = (.ok mesh, t))
    (hends : n.sweepEnds disk map start.toMesh goal.toMesh t = (.ok (), u))
    (hnow : meshIn u map = some now) :
    let line := askLibrary (findCorners n.library now start.toMesh goal.toMesh) u
    n.findLine disk map start goal s = (.ok line.1, line.2) := by
  rw [findLine, bind_apply, hload]
  dsimp only
  rw [bind_apply, hends]
  dsimp only
  rw [bind_apply, mesh?_eq, hnow]
  rfl

theorem meshes_walk (n : Navigation σ τ μ) (disk : Disk) (map : UInt32)
    (line : Except Stop (Option (List MeshPosition × Bool))) (s : NavigationState σ τ μ) :
    (n.walk disk map line s).2.meshes = s.meshes := by
  rcases line with _ | _ | _ <;> rfl

theorem library_walk (n : Navigation σ τ μ) (disk : Disk) (map : UInt32)
    (line : Except Stop (Option (List MeshPosition × Bool))) (s : NavigationState σ τ μ) :
    (n.walk disk map line s).2.library = s.library := by
  rcases line with _ | _ | _ <;> rfl

/-- Finding a route is finding its corners and walking the line between them. -/
theorem findRoute_eq (n : Navigation σ τ μ) (disk : Disk) (map : UInt32) (start goal : Position) :
    n.findRoute disk map start goal = n.findLine disk map start goal >>= n.walk disk map := by
  unfold findRoute findLine
  rw [bind_assoc]
  congr 1
  funext loaded
  cases loaded with
  | error e => rfl
  | ok mesh =>
    dsimp only
    rw [bind_assoc]
    congr 1
    funext swept
    cases swept with
    | error stop => rfl
    | ok _ =>
      dsimp only
      rw [bind_assoc]
      congr 1
      funext found
      cases found with
      | none => rfl
      | some mesh =>
        dsimp only
        rw [bind_assoc]
        congr 1
        funext line
        cases line <;> rfl

theorem preserves_sweepEnds {I : NavigationState σ τ μ → Prop} (n : Navigation σ τ μ) (disk : Disk)
    (map : UInt32) (hsweep : ∀ position, Preserves I (n.sweep disk position map map))
    (start goal : MeshPosition) : Preserves I (n.sweepEnds disk map start goal) := by
  unfold sweepEnds
  refine .bind (hsweep start) fun swept => ?_
  cases swept with
  | error stop => exact .pure _
  | ok _ => exact .bind (hsweep goal) fun _ => .pure _

/-- A property of the state that loading and sweeping preserve is preserved by the first half. -/
theorem preserves_findLine {I : NavigationState σ τ μ → Prop} (n : Navigation σ τ μ) (disk : Disk)
    (map : UInt32) (hload : Preserves I (n.loadMesh disk map))
    (hsweep : ∀ position, Preserves I (n.sweep disk position map map))
    (hlibrary : ∀ mesh start goal, Preserves I (askLibrary (findCorners n.library mesh start goal)))
    (start goal : Position) : Preserves I (n.findLine disk map start goal) := by
  unfold findLine
  refine .bind hload fun loaded => ?_
  cases loaded with
  | error e => exact .pure _
  | ok mesh =>
    refine .bind (n.preserves_sweepEnds disk map hsweep _ _) fun swept => ?_
    cases swept with
    | error stop => exact .pure _
    | ok _ =>
      refine .bind (preserves_mesh? map) fun found => ?_
      cases found with
      | none => exact .pure _
      | some mesh => exact .bind (hlibrary mesh _ _) fun _ => .pure _

/-! ## Stops -/

section Stops

variable {n : Navigation σ τ μ} {disk : Disk} {map : UInt32} {stop : Stop}

/-- If the sweep around the one end stops, there is none around the other. -/
theorem sweepEnds_of_error {start : MeshPosition} {s t : NavigationState σ τ μ}
    (h : n.sweep disk start map map s = (.error stop, t)) (goal : MeshPosition) :
    n.sweepEnds disk map start goal s = (.error stop, t) := by
  rw [sweepEnds, bind_apply, h]
  rfl

theorem sweepEnds_of_ok {start : MeshPosition} {s t : NavigationState σ τ μ}
    {count : Option SweepCount} (h : n.sweep disk start map map s = (.ok count, t))
    (goal : MeshPosition) :
    let swept := n.sweep disk goal map map t
    n.sweepEnds disk map start goal s = (swept.1.map fun _ => (), swept.2) := by
  rw [sweepEnds, bind_apply, h]
  rfl

theorem sweepEnds_of_stop {start goal : MeshPosition} {s : NavigationState σ τ μ}
    (h : (n.sweepEnds disk map start goal s).1 = .error stop) :
    n.arithmetic = .checked ∧ ∃ mesh, ¬ InnerCentre (sweepCentre n.library mesh start) ∨
      ¬ InnerCentre (sweepCentre n.library mesh goal) := by
  rcases hstart : n.sweep disk start map map s with ⟨_ | count, t⟩
  · obtain ⟨hchecked, mesh, hinner⟩ := sweep_of_stop (congrArg Prod.fst hstart)
    exact ⟨hchecked, mesh, .inl hinner⟩
  · rw [sweepEnds_of_ok hstart] at h
    rcases hgoal : (n.sweep disk goal map map t).1 with _ | count'
    · obtain ⟨hchecked, mesh, hinner⟩ := sweep_of_stop hgoal
      exact ⟨hchecked, mesh, .inr hinner⟩
    · rw [hgoal] at h
      cases h

theorem findLine_of_ends {s t u : NavigationState σ τ μ} {mesh : μ} {start goal : Position}
    (hload : n.loadMesh disk map s = (.ok mesh, t))
    (hends : n.sweepEnds disk map start.toMesh goal.toMesh t = (.ok (), u)) :
    ∃ line, (n.findLine disk map start goal s).1 = .ok line := by
  rw [findLine, bind_apply, hload]
  dsimp only
  rw [bind_apply, hends]
  dsimp only
  rw [bind_apply, mesh?_eq]
  cases meshIn u map <;> exact ⟨_, rfl⟩

/-- A line is walked to its end. -/
theorem walk_eq_error_iff {line : Except Stop (Option (List MeshPosition × Bool))}
    {s : NavigationState σ τ μ} :
    (n.walk disk map line s).1 = .error stop ↔ line = .error stop := by
  rcases line with stop' | _ | line
  · exact ⟨fun h => by cases h; rfl, fun h => by cases h; rfl⟩
  · exact ⟨nofun, nofun⟩
  · exact ⟨nofun, nofun⟩

/-- A route is cut off by a stop of the sweeps around its ends, and by nothing else. -/
theorem findRoute_stops_iff {start goal : Position} {s : NavigationState σ τ μ} :
    (n.findRoute disk map start goal s).1 = .error stop ↔
      (∃ mesh, (n.loadMesh disk map s).1 = .ok mesh) ∧
        (n.sweepEnds disk map start.toMesh goal.toMesh (n.loadMesh disk map s).2).1
          = .error stop := by
  rw [findRoute_eq, bind_apply, walk_eq_error_iff]
  rcases hload : n.loadMesh disk map s with ⟨e | mesh, t⟩
  · rw [findLine_of_error hload]
    exact ⟨nofun, nofun⟩
  dsimp only
  rcases hends : n.sweepEnds disk map start.toMesh goal.toMesh t with ⟨stop' | _, u⟩
  · rw [findLine_of_stop hload hends]
    exact ⟨fun h => ⟨⟨mesh, rfl⟩, by cases h; rfl⟩, fun h => by cases h.2; rfl⟩
  · obtain ⟨line, hline⟩ := findLine_of_ends hload hends
    rw [hline]
    exact ⟨nofun, nofun⟩

end Stops

/-! ## Walking over files that stay the same -/

/-- The route over corners where tiles and surfaces are fixed. -/
def routeOver (tiles : TileKey → Except TileError Tile)
    (surface : UInt32 → Position → Single → Single) (map : UInt32) :
    Option (List MeshPosition × Bool) → Route
  | none => .missing
  | some (corners, cutShort) =>
    ⟨if cutShort then .towards else .complete,
      Sampling.line (Ground.heightOver tiles surface map) stepLength
        (corners.map Position.ofMesh)⟩

variable {n : Navigation σ τ μ} {surface : UInt32 → Position → Single → Single}

/-- Heights are steady as long as visits to tiles answer the same. -/
theorem steady_height (hfixed : n.ground.collision.Fixed surface) (disk : Disk) (map : UInt32)
    (tiles : TileKey → Except TileError Tile) :
    Sampling.Steady (fun s => n.ground.look disk s = tiles) (n.ground.height disk map)
      (Ground.heightOver tiles surface map) := by
  rintro p s rfl
  exact Ground.height_eq hfixed disk map p s

theorem walk_over (hfixed : n.ground.collision.Fixed surface) (disk : Disk) (map : UInt32)
    (line : Except Stop (Option (List MeshPosition × Bool))) (s : NavigationState σ τ μ) :
    (n.walk disk map line s).1 = line.map (routeOver (n.look disk s) surface map) ∧
      n.look disk (n.walk disk map line s).2 = n.look disk s := by
  rcases line with stop | _ | ⟨corners, cutShort⟩
  · exact ⟨rfl, rfl⟩
  · exact ⟨rfl, rfl⟩
  · obtain ⟨hpoints, hlook⟩ := Sampling.sample_of_steady
      (steady_height hfixed disk map (n.look disk s)) stepLength (corners.map Position.ofMesh)
      (s := s.ground) rfl
    exact ⟨congrArg (fun points => Except.ok (Route.mk _ points)) hpoints, hlook⟩

/-- **A route over files that stay the same** is walked over fixed heights, and what visits to the
tiles answer is not changed by it. -/
theorem findRoute_over (hfixed : n.ground.collision.Fixed surface) (disk : Disk) (map : UInt32)
    (start goal : Position) (s : NavigationState σ τ μ) :
    (n.findRoute disk map start goal s).1
        = (n.findLine disk map start goal s).1.map (routeOver (n.look disk s) surface map) ∧
      n.look disk (n.findRoute disk map start goal s).2 = n.look disk s := by
  have hline : n.look disk (n.findLine disk map start goal s).2 = n.look disk s :=
    n.preserves_findLine disk map (n.look_loadMesh disk _ map)
      (fun position => n.look_sweep disk _ position map map) (fun _ _ _ _ ht => ht) start goal s rfl
  obtain ⟨hroute, hlook⟩ := walk_over hfixed disk map (n.findLine disk map start goal s).1
    (n.findLine disk map start goal s).2
  rw [findRoute_eq]
  rw [hline] at hroute hlook
  exact ⟨hroute, hlook⟩

end Overland.Navigation
