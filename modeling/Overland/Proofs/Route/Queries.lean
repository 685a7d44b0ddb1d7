import Overland.Proofs.Mesh.Calls
import Overland.Proofs.Route.Findings

/-!
# Which queries are made for a route

Over the recorded library the queries of a search go on record: they are the first ones of the
`dialogue` that belongs to what there is to find (`calls_findCorners`).  Polygons are asked for
between two that were found only, and corners through polygons that were found only.
-/

namespace Overland

variable {τ μ : Type}

namespace Findings

/-- The four queries, to the mesh of a number. -/
def dialogue (f : Findings) (mesh : Nat) (start goal : MeshPosition) : List MeshCall :=
  [.nearest mesh start searchExtents, .nearest mesh goal searchExtents,
    .corridor mesh f.start.2 f.goal.2 start goal polygonLimit,
    .corners mesh start goal f.corridor.2 cornerLimit]

/-- The queries that the search makes. -/
def asked (f : Findings) (mesh : Nat) (start goal : MeshPosition) : List MeshCall :=
  (f.dialogue mesh start goal).take (f.atEnd 1 2 3 4)

variable {f : Findings} {mesh : Nat} {start goal : MeshPosition}

theorem isQuery_of_mem_asked {call : MeshCall} (h : call ∈ f.asked mesh start goal) :
    call.isQuery := by
  have hmem := List.mem_of_mem_take h
  simp only [dialogue, List.mem_cons, List.not_mem_nil, or_false] at hmem
  rcases hmem with rfl | rfl | rfl | rfl <;> rfl

end Findings

namespace Navigation

/-- **Which queries go on record** in a search for corners. -/
theorem calls_findCorners (library : MeshLibrary τ μ) (mesh : NumberedMesh μ)
    (start goal : MeshPosition) (s : List MeshCall × τ) :
    (findCorners library.recorded mesh start goal s).2.1
      = s.1 ++ (findings library.recorded mesh start goal s).1.asked mesh.call start goal := by
  obtain ⟨t₁, t₂, t₃, t₄, h⟩ := exists_asked library.recorded mesh start goal s
  generalize (findings library.recorded mesh start goal s).1 = f at h ⊢
  rw [findCorners_eq h, f.map_atEnd Prod.fst, (of_noting h.straight).2, (of_noting h.corridor).2,
    (of_noting h.nearGoal).2, (of_noting h.nearStart).2, Findings.asked,
    f.map_atEnd fun count => s.1 ++ (f.dialogue mesh.call start goal).take count]
  simp [Findings.dialogue]

theorem since_findCorners {calls : List MeshCall} {P : MeshCall → Prop}
    (hP : ∀ call, call.isQuery → P call) (library : MeshLibrary τ μ) (mesh : NumberedMesh μ)
    (start goal : MeshPosition) :
    Preserves (Since calls P) (findCorners library.recorded mesh start goal) := by
  intro s hs
  refine hs.append (calls_findCorners library mesh start goal s) fun call hcall => ?_
  exact hP call (Findings.isQuery_of_mem_asked hcall)

end Navigation

end Overland
