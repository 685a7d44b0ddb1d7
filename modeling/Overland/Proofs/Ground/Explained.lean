import Overland.Proofs.Ground.Resting

/-!
# What explains the height of the ground

The height of the ground is the land, or a collision surface, or the height asked about.  Here is
which of the three it is, for any tile, any library of collision geometry and any words for heights,
those that are infinite or no number among them.

* `landFound` and `surfaceFound` are the two candidates as a question meets them.
* `Explained` says which one an answer is, and what follows: no number comes out only if none goes
  in, and the answer is above the probe only if a surface is.  `explained_reconcile` is the rule of
  `reconcile` in these terms.
* `height_explained` says it of the ground, in any state.

Distances are compared as they come out in single precision.  Rounding may make two of them equal,
but it never turns their order around (`Explained.nearer`).
-/

namespace Overland

open Collision (probeLift probeReach noSurface)
open Ground (landBelow)

/-! ## Which of three heights -/

/-- Land counts for a height: it is real, and the probe for the height starts above it. -/
def LandCounts (land z : Single) : Prop := isRealHeight land = true ∧ land < z + probeLift

/-- A surface is preferred to land: it is above the land, or strictly nearer to the height. -/
def Preferred (surface land z : Single) : Prop :=
  land < surface ∨ (surface - z).abs < (land - z).abs

/-- An answer about a height is explained by the land and the collision surface at a point. -/
structure Explained (land surface z answer : Single) : Prop where
  /-- The answer is land that counts, or a surface that is real, or else neither is to be had and it
  is the height itself. -/
  source : (answer = land ∧ LandCounts land z) ∨ (answer = surface ∧ isRealHeight surface = true) ∨
    (answer = z ∧ ¬ LandCounts land z ∧ isRealHeight surface = false)
  /-- If both are to be had, it is the surface exactly if that is preferred. -/
  choice : LandCounts land z → isRealHeight surface = true →
    (answer = surface ∧ Preferred surface land z) ∨ (answer = land ∧ ¬ Preferred surface land z)
  /-- A surface that is preferred without being above the land is nearer without rounding, too. -/
  nearer : LandCounts land z → isRealHeight surface = true → Preferred surface land z →
    ¬ land < surface → z.isFinite = true →
      (surface.units - z.units).natAbs < (land.units - z.units).natAbs
  /-- The answer is no number only if the height was none. -/
  number : answer.isNaN = true → z.isNaN = true
  /-- The answer is above the probe only if there is a real surface above the probe. -/
  ceiling : z.isNaN = false → ¬ (isRealHeight surface = true ∧ z + probeLift < surface) →
    answer ≤ z + probeLift

theorem LandCounts.isFinite {land z : Single} (h : LandCounts land z) : land.isFinite = true := by
  have hbelow : landBelow land (z + probeLift) = land := if_pos h.2
  have hfinite := @Ground.isFinite_landBelow land (z + probeLift)
  rw [hbelow] at hfinite
  exact hfinite h.1

theorem isRealHeight_landBelow {land z : Single} :
    isRealHeight (landBelow land (z + probeLift)) = true ↔ LandCounts land z := by
  rcases Ground.landBelow_cases land (z + probeLift) with ⟨hlt, heq⟩ | ⟨hnot, heq⟩
  · rw [heq]
    exact ⟨fun hreal => ⟨hreal, hlt⟩, fun h => h.1⟩
  · rw [heq, isRealHeight_noSurface]
    exact ⟨nofun, fun h => absurd h.2 hnot⟩

/-- The probe for a height that is a number starts no lower than the height. -/
theorem le_lift_of_number {z : Single} (hz : z.isNaN = false) : z ≤ z + probeLift := by
  cases hinf : z.isInfinite with
  | true =>
    rw [Single.add_of_isInfinite hinf isFinite_probeLift]
    exact Single.le_refl hz
  | false => exact le_lift (Single.isFinite_iff.2 ⟨hz, hinf⟩)

/-- A surface not above land at a finite height is at a finite height. -/
theorem isFinite_of_not_above {land surface : Single} (hland : land.isFinite = true)
    (hreal : isRealHeight surface = true) (h : ¬ land < surface) : surface.isFinite = true := by
  obtain ⟨hnan, -, hsmall⟩ := Single.isFinite_iff_units.1 hland
  have hle : surface.units ≤ land.units := Int.le_of_not_gt fun hlt =>
    h (Single.lt_iff.2 ⟨hnan, isNaN_of_isRealHeight hreal, hlt⟩)
  exact isFinite_of_isRealHeight hreal (by omega)

/-- **The rule of the ground explains its answer.** -/
theorem explained_reconcile (land surface z : Single) :
    Explained land surface z (reconcile (landBelow land (z + probeLift)) surface z) := by
  have hcounts := @isRealHeight_landBelow land z
  have hcases := reconcile_cases (landBelow land (z + probeLift)) surface z
  have hland : LandCounts land z → landBelow land (z + probeLift) = land := fun h => if_pos h.2
  have hsource : (reconcile (landBelow land (z + probeLift)) surface z = land ∧
        LandCounts land z) ∨
      (reconcile (landBelow land (z + probeLift)) surface z = surface ∧
        isRealHeight surface = true) ∨
      (reconcile (landBelow land (z + probeLift)) surface z = z ∧ ¬ LandCounts land z ∧
        isRealHeight surface = false) := by
    rcases hcases with ⟨hnone, hnoLand, heq⟩ | ⟨hreal, heq⟩ | ⟨hreal, heq, -⟩
    · refine .inr (.inr ⟨heq, fun h => ?_, hnone⟩)
      rw [hcounts.2 h] at hnoLand
      cases hnoLand
    · exact .inr (.inl ⟨heq, hreal⟩)
    · have h := hcounts.1 hreal
      exact .inl ⟨heq.trans (hland h), h⟩
  refine {
    source := hsource, choice := ?choice, nearer := ?nearer, number := ?number,
    ceiling := ?ceiling }
  case choice =>
    intro h hreal
    rw [hland h]
    by_cases hpreferred : Preferred surface land z
    · refine .inl ⟨?_, hpreferred⟩
      rw [reconcile, if_pos hreal, if_pos h.1]
      exact if_pos hpreferred
    · refine .inr ⟨?_, hpreferred⟩
      rw [reconcile, if_pos hreal, if_pos h.1]
      exact if_neg hpreferred
  case nearer =>
    intro h hreal hpreferred habove hz
    have hnear := hpreferred.resolve_left habove
    refine Nat.lt_of_not_le fun hle => ?_
    have hmono := Single.distance_mono h.isFinite (isFinite_of_not_above h.isFinite hreal habove)
      hz hle
    exact absurd (Single.lt_iff.1 hnear).2.2 (Int.not_lt.2 hmono.2.2)
  case number =>
    intro hnan
    rcases hsource with ⟨heq, h⟩ | ⟨heq, hreal⟩ | ⟨heq, -⟩
    · rw [heq, isNaN_of_isRealHeight h.1] at hnan
      cases hnan
    · rw [heq, isNaN_of_isRealHeight hreal] at hnan
      cases hnan
    · exact heq ▸ hnan
  case ceiling =>
    intro hz hsurface
    have hlift := le_lift_of_number hz
    rcases hsource with ⟨heq, -, hlt⟩ | ⟨heq, hreal⟩ | ⟨heq, -⟩
    · rw [heq]
      obtain ⟨hnan, hnan', hunits⟩ := Single.lt_iff.1 hlt
      exact ⟨hnan, hnan', Int.le_of_lt hunits⟩
    · rw [heq]
      have hnan := isNaN_of_isRealHeight hreal
      refine ⟨hnan, hlift.2.1, Int.le_of_not_gt fun hlt => hsurface ⟨hreal, ?_⟩⟩
      exact Single.lt_iff.2 ⟨hlift.2.1, hnan, hlt⟩
    · rw [heq]
      exact hlift

/-! ## The height of the ground -/

/-- The library never answers a probe with a real surface above it. -/
def Collision.StaysBelow {σ : Type} (c : Collision σ) : Prop :=
  ∀ s map point reach, isRealHeight (c.answers s map point reach) = true →
    ¬ point.z < c.answers s map point reach

namespace Ground

variable {σ : Type} (g : Ground σ) (disk : Disk) (map : UInt32) (p : Position) (s : GroundState σ)

/-- The height that the tile over a point has there, and none if there is no tile to be had. -/
def landFound : Single := landOver (g.look disk s) map p.x p.y

/-- What the library answers to the probe that starts a little above a point, asked when the tile
over the point has been visited. -/
def surfaceFound : Single :=
  g.collision.answers (g.landHeight disk map p.x p.y s).2.collision map
    { p with z := p.z + probeLift } probeReach

theorem landHeight_eq : (g.landHeight disk map p.x p.y s).1 = g.landFound disk map p s := by
  unfold landFound landOver
  cases hkey : TileKey.of? map (gridIndex p.x) (gridIndex p.y) with
  | none =>
    unfold landHeight tileOver tileAt
    rw [hkey]
    rfl
  | some key =>
    rw [Option.map_some, ← tile_answer]
    unfold landHeight tileOver tileAt
    rw [hkey]
    simp only [bind, StateT.bind]
    obtain ⟨answer, s'⟩ := g.tile disk key s
    cases answer <;> rfl

theorem height_eq_reconcile : (g.height disk map p s).1
    = reconcile (landBelow (g.landFound disk map p s) (p.z + probeLift))
        (g.surfaceFound disk map p s) p.z := by
  rw [← landHeight_eq]
  rfl

/-- **What explains the height of the ground**, for any files, in any state and with any library of
collision geometry, which may answer each probe as it likes.  The candidates are the height that the
tile over the point has there, and what the library answers to the probe.  If the library never
answers a real surface above its probe, the answer about a number is not above the probe either. -/
theorem height_explained :
    Explained (g.landFound disk map p s) (g.surfaceFound disk map p s) p.z
        (g.height disk map p s).1 ∧
      (g.collision.StaysBelow → p.z.isNaN = false →
        (g.height disk map p s).1 ≤ p.z + probeLift) := by
  have hexplained : Explained (g.landFound disk map p s) (g.surfaceFound disk map p s) p.z
      (g.height disk map p s).1 := by
    rw [height_eq_reconcile]
    exact explained_reconcile _ _ _
  refine ⟨hexplained, fun hlibrary hz => hexplained.ceiling hz ?_⟩
  rintro ⟨hreal, habove⟩
  exact hlibrary _ map { p with z := p.z + probeLift } probeReach hreal habove

end Ground

end Overland
