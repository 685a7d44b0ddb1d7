import Overland.Proofs.Ground.Resting
import Overland.Proofs.Route.Independence

/-!
# Do the points of a route rest on the ground?

Every point of a route was put on the ground when the line was walked (`settled_of_mem_findRoute`),
at a height found for another height over the same place.  Whether the ground gives that height
again when it is asked about the point itself is another matter: `again_iff_rests` says exactly
when.

Where one walking surface is a little above another, as on stairs, it need not: `stairs` has two
steps, and a route over them keeps to the lower one while the ground, asked about the points of the
route, answers the upper one (`stairs_not_again`).
-/

namespace Overland.Navigation

variable {σ τ μ : Type} {n : Navigation σ τ μ}
  {surfaces : UInt32 → Single → Single → Single → Prop}
  {surface : UInt32 → Position → Single → Single}

/-- Every point of a route was moved to the height that the ground answered for it. -/
theorem settled_of_mem_findRoute (hfixed : n.ground.collision.Fixed surface) (disk : Disk)
    (map : UInt32) (start goal : Position) (s : NavigationState σ τ μ) {route : Route}
    (hroute : (n.findRoute disk map start goal s).1 = .ok route) {p : Position}
    (hp : p ∈ route.points) :
    Sampling.Settled (Ground.heightOver (n.look disk s) surface map) p := by
  rw [(findRoute_over hfixed disk map start goal s).1] at hroute
  rcases hline : (n.findLine disk map start goal s).1 with _ | _ | line <;>
    rw [hline] at hroute <;> cases hroute
  · exact absurd hp (Array.not_mem_empty p)
  · exact Sampling.settled_of_mem_line _ _ p hp

/-! ## Two steps -/

/-- The height of the upper step. -/
def upperStep : Single := Single.ofRatio 25 2

/-- The height of the lower step. -/
def lowerStep : Single := 11

/-- The heights of the two steps, which are everywhere. -/
def stairHeights (_map : UInt32) (_x _y h : Single) : Prop := h = upperStep ∨ h = lowerStep

/-- The highest of the two steps within reach. -/
def stairSurface (_map : UInt32) (point : Position) (reach : Single) : Single :=
  if Collision.Within upperStep point.z reach then upperStep
  else if Collision.Within lowerStep point.z reach then lowerStep
  else Collision.noSurface

/-- Collision geometry of two steps. -/
def stairs : Collision Unit where
  loadTile _ := pure ()
  probe map point reach := pure (stairSurface map point reach)

theorem stairs_contract : stairs.Contract stairHeights stairSurface where
  fixed _ _ _ _ := rfl
  highest := by
    intro map p reach h hstep hin
    have hle : lowerStep ≤ upperStep := by decide +kernel
    unfold stairSurface
    by_cases hupper : Collision.Within upperStep p.z reach
    · rw [if_pos hupper]
      rcases hstep with rfl | rfl
      · exact ⟨.inl rfl, hupper, Single.le_refl hin.1.1⟩
      · exact ⟨.inl rfl, hupper, hle⟩
    · have hlower : Collision.Within lowerStep p.z reach := by
        rcases hstep with rfl | rfl
        · exact absurd hin hupper
        · exact hin
      rw [if_neg hupper, if_pos hlower]
      rcases hstep with rfl | rfl
      · exact absurd hin hupper
      · exact ⟨.inr rfl, hlower, Single.le_refl hin.1.1⟩
  missing := by
    intro map p reach hnone
    unfold stairSurface
    rw [if_neg (hnone _ (.inl rfl)), if_neg (hnone _ (.inr rfl))]
    exact isRealHeight_noSurface

/-- Ways over the two steps, without terrain. -/
def stairWays : Navigation Unit Unit Roster :=
  ⟨⟨none, stairs⟩, some "", Roster.library, .checked⟩

/-- A place a little below the lower step. -/
def belowStairs : Position := ⟨100, 100, 10⟩

/-- The place on the lower step. -/
def onLowerStep : Position := ⟨100, 100, lowerStep⟩

theorem findLine_stairs :
    (stairWays.findLine fullDisk 0 belowStairs belowStairs (fresh () ())).1
      = .ok (some ([belowStairs.toMesh, belowStairs.toMesh], false)) := by
  have hagrees : Agrees belowStairs.toMesh.first ∧ Agrees belowStairs.toMesh.third := by
    decide +kernel
  have hsquare : squareOf (cellOf belowStairs.toMesh) = some ⟨31, 31⟩ := by decide +kernel
  have hfile : HasFileAt fullDisk "" 0 belowStairs.toMesh := ⟨_, hsquare, _, fullDisk_path _⟩
  have hheader : HasHeader fullDisk "" 0 := ⟨by decide, _, storedHeader_fullDisk⟩
  have hruns : ¬ stairWays.Stops belowStairs.toMesh belowStairs.toMesh :=
    not_stops_of_onMap (squareOf_eq_some_iff.1 hsquare) (squareOf_eq_some_iff.1 hsquare)
  have hline := findLine_of_backed (n := stairWays) extracted_fullDisk rfl
    (unambiguous_of_agrees hagrees hagrees) (allMeshes_fresh _ () ()) 0
  rw [if_neg (not_not_intro hheader), if_neg hruns, if_pos ⟨hfile, hfile⟩] at hline
  exact hline.trans (congrArg Except.ok (Roster.passage_eq _ _))

/-- Without a folder of tiles, every tile is blank. -/
theorem look_stairs : stairWays.look fullDisk (fresh () ()) = fun _ => .ok .blank := by
  funext key
  simp [look, Ground.look, fresh, TileCache.empty, Ground.decoded, stairWays]

/-- The route over the stairs. -/
def stairRoute : Route := ⟨.complete, #[onLowerStep, onLowerStep]⟩

theorem findRoute_stairs :
    (stairWays.findRoute fullDisk 0 belowStairs belowStairs (fresh () ())).1 = .ok stairRoute := by
  have hwalk : Sampling.line (Ground.heightOver (fun _ => .ok .blank) stairSurface 0) stepLength
      [belowStairs, belowStairs] = #[onLowerStep, onLowerStep] := by
    decide +kernel
  rw [(findRoute_over stairs_contract.fixed fullDisk 0 belowStairs belowStairs _).1, look_stairs,
    findLine_stairs]
  exact congrArg (fun points => Except.ok (Route.mk .complete points)) hwalk

/-! ## The ground asked again -/

/-- **When a point of a route rests on the ground.**  Over any tiles, under any mesh and from any
state, the ground gives the height of a point of a route again exactly if no real surface within
reach of the probe for the point is above the point. -/
theorem again_iff_rests (hcollision : n.ground.collision.Contract surfaces surface) (disk : Disk)
    (map : UInt32) (start goal : Position) (s : NavigationState σ τ μ) {route : Route}
    (hroute : (n.findRoute disk map start goal s).1 = .ok route) {p : Position}
    (hp : p ∈ route.points) (hnan : p.z.isNaN = false) :
    (n.ground.height disk map p (n.findRoute disk map start goal s).2.ground).1.equal p.z = true ↔
      Ground.Rests surfaces map p := by
  have hlook := (findRoute_over hcollision.fixed disk map start goal s).2
  have hheight := (Ground.height_eq hcollision.fixed disk map p
    (n.findRoute disk map start goal s).2.ground).1
  rw [look, look] at hlook
  rw [hheight, hlook]
  exact Ground.height_again_iff _ hcollision
    (settled_of_mem_findRoute hcollision.fixed disk map start goal s hroute hp) hnan

/-- Over the stairs, whether the height of a point comes out again depends on the upper step. -/
theorem again_on_stairs :
    (stairWays.ground.height fullDisk 0 onLowerStep (stairWays.findRoute fullDisk 0 belowStairs
        belowStairs (fresh () ())).2.ground).1.equal onLowerStep.z = true ↔
      Ground.Rests stairHeights 0 onLowerStep :=
  again_iff_rests stairs_contract fullDisk 0 belowStairs belowStairs (fresh () ())
    findRoute_stairs (by simp [stairRoute]) (by decide)

/-- A route over the stairs keeps to the lower step, and the ground answers the upper one for the
points of the route. -/
theorem stairs_not_again : stairs.Contract stairHeights stairSurface ∧
    (stairWays.findRoute fullDisk 0 belowStairs belowStairs (fresh () ())).1 = .ok stairRoute ∧
    onLowerStep ∈ stairRoute.points ∧ onLowerStep.z.isNaN = false ∧
    (stairWays.ground.height fullDisk 0 onLowerStep (stairWays.findRoute fullDisk 0 belowStairs
      belowStairs (fresh () ())).2.ground).1.equal onLowerStep.z = false := by
  refine ⟨stairs_contract, findRoute_stairs, by simp [stairRoute], by decide, ?_⟩
  have hlook := (findRoute_over (n := stairWays) stairs_contract.fixed fullDisk 0 belowStairs
    belowStairs (fresh () ())).2
  rw [look_stairs, look] at hlook
  rw [(Ground.height_eq stairs_contract.fixed fullDisk 0 onLowerStep _).1, hlook]
  decide +kernel

end Overland.Navigation
