import Overland.Mesh.Sweep
import Overland.Sampling

/-!
# Routes

A route leads from one position of a map to another over walkable ground.  The mesh gives its
corners; between two corners it is sampled in steps of a fixed length, and every point of it is put
on the ground.

`Navigation.findRoute` does all of it, and does not fail: where anything that is needed is missing
there is no route.  It comes to a stop if one of its sweeps does.  `Navigation.findCorners` is the
search in the mesh alone.
-/

namespace Overland

/-- How far a route leads. -/
inductive RouteKind where
  /-- There is no route. -/
  | none
  /-- The search was cut short; the route leads toward the goal. -/
  | towards
  /-- The route leads to the goal. -/
  | complete
  deriving DecidableEq, Repr

/-- The name of a kind. -/
def RouteKind.name : RouteKind → String
  | .none => "None"
  | .towards => "Partial"
  | .complete => "Complete"

/-- A route, point by point. -/
structure Route where
  kind : RouteKind
  points : Array Position
  deriving DecidableEq, Repr

/-- No route. -/
def Route.missing : Route := ⟨.none, #[]⟩

/-- Distance between two points of a route. -/
def stepLength : Single := 4

/-- The most polygons that a route may pass through. -/
def polygonLimit : Nat := 74

/-- The most corners that a route may have. -/
def cornerLimit : Nat := 74

/-- Half the size of the box in which a position's polygon is looked for, in mesh axes. -/
def searchExtents : MeshPosition := ⟨3, 5, 3⟩

namespace Navigation

variable {σ τ μ : Type}

/-- The corners of a path through the mesh, and whether the search was cut short. -/
def findCorners (library : MeshLibrary τ μ) (mesh : μ) (start goal : MeshPosition) :
    StateM τ (Option (List MeshPosition × Bool)) := do
  let (status, fromPolygon) ← library.nearest mesh start searchExtents
  if status.failed then return none
  let (status, toPolygon) ← library.nearest mesh goal searchExtents
  if status.failed || fromPolygon = 0 || toPolygon = 0 then return none
  let (corridor, polygons) ← library.corridor mesh fromPolygon toPolygon start goal polygonLimit
  if corridor.failed || polygons.isEmpty then return none
  let (straight, corners) ← library.corners mesh start goal polygons cornerLimit
  if straight.failed || corners.length < 2 then return none
  return some (corners, corridor.isPartial || straight.isPartial)

/-- Sweeps tiles in around both ends of a route. -/
def sweepEnds (n : Navigation σ τ μ) (disk : Disk) (map : UInt32) (start goal : MeshPosition) :
    NavigationM σ τ μ (Except Stop Unit) := do
  match ← n.sweep disk start map map with
  | .error stop => return .error stop
  | .ok _ =>
    let swept ← n.sweep disk goal map map
    return swept.map fun _ => ()

/-- The route from one position of a map to another. -/
def findRoute (n : Navigation σ τ μ) (disk : Disk) (map : UInt32) (start goal : Position) :
    NavigationM σ τ μ (Except Stop Route) := do
  match ← n.loadMesh disk map with
  | .error _ => return .ok .missing
  | .ok _ =>
    match ← n.sweepEnds disk map start.toMesh goal.toMesh with
    | .error stop => return .error stop
    | .ok () =>
      match ← mesh? map with
      | none => return .ok .missing
      | some mesh =>
        match ← askLibrary (findCorners n.library mesh start.toMesh goal.toMesh) with
        | none => return .ok .missing
        | some (corners, cutShort) =>
          let points ← askGround
            (Sampling.sample (n.ground.height disk map) stepLength (corners.map Position.ofMesh))
          return .ok ⟨if cutShort then .towards else .complete, points⟩

end Navigation

end Overland
