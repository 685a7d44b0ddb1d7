import Overland.Proofs.Ground.AreaSearch
import Overland.Proofs.Ground.Explained

/-!
# The topmost surface over an area

The search for an area looks for the ground from the sky, so that the topmost surface over the place
it finds is the answer.  Land is seen from there at any height, but a probe for collision surfaces
reaches no farther down than anywhere else, and in ordinary heights it finds nothing.

* `IsSurface` and `IsTopmost` — the surfaces over a place, and the highest of them.
* `lowestSeen` is where the reach of the probe ends, `within_sky_iff`.
* `isTopmost_heightOver_iff` — over fixed tiles and surfaces, and `findArea_topmost_iff` — over the
  files: the answer is a topmost surface exactly if one of those is the land or is not below that.
-/

namespace Overland

open Collision (Within probeLift probeReach noSurface)

namespace Ground

/-! ## What the probe from the sky sees -/

/-- Where the reach of a probe from the sky ends. -/
def lowestSeen : Single := skyHeight + probeLift - probeReach

example : lowestSeen = 199952 := by decide +kernel

/-- The next number down from there. -/
def firstUnseen : Single := ⟨lowestSeen.bits - 1⟩

theorem units_le_firstUnseen {h : Single} (hlt : h.units < lowestSeen.units) :
    h.units ≤ firstUnseen.units := by
  have hword : lowestSeen.units = Binary.single.magnitude lowestSeen.magnitudeWord := by
    decide +kernel
  have hnext : firstUnseen.units = Binary.single.magnitude (lowestSeen.magnitudeWord - 1) := by
    decide +kernel
  rw [hword] at hlt
  rw [hnext]
  rcases h.units_cases with hunits | hunits
  · rw [hunits] at hlt ⊢
    have hless := Single.magnitude_lt_iff.1 (Int.ofNat_lt.1 hlt)
    exact Int.ofNat_le.2 (Binary.single.magnitude_mono (by omega))
  · omega

theorem isFinite_skyProbe : (skyHeight + probeLift).isFinite = true := by decide +kernel

/-- A surface any lower is farther from the probe than it reaches, also after rounding. -/
theorem probeReach_lt_distance {h : Single} (hfin : h.isFinite = true)
    (hlow : h.units < lowestSeen.units) :
    probeReach.units < (skyHeight + probeLift - h).units := by
  have hnext := units_le_firstUnseen hlow
  have hfar : probeReach.units < (skyHeight + probeLift - firstUnseen).units := by decide +kernel
  have hexact : (skyHeight + probeLift - firstUnseen).units
      = (skyHeight + probeLift).units - firstUnseen.units := by decide +kernel
  obtain ⟨zeroSign, hsub⟩ := Single.sub_finite isFinite_skyProbe hfin
  have hdistance : (skyHeight + probeLift - firstUnseen).units
      ≤ (skyHeight + probeLift - h).units := by
    rw [hsub]
    apply Single.le_units_ofUnits zeroSign (by decide +kernel)
    omega
  omega

/-- A surface below the sky is within reach of the probe from there if it is not too low. -/
theorem within_sky_iff {h : Single} (hfin : h.isFinite = true) (hsky : h < skyHeight) :
    Within h (skyHeight + probeLift) probeReach ↔ lowestSeen ≤ h := by
  have hnan := Single.isNaN_of_isFinite hfin
  constructor
  · intro hin
    refine ⟨by decide +kernel, hnan, Int.le_of_not_gt fun hlow => ?_⟩
    have hfar := probeReach_lt_distance hfin hlow
    have hreach := hin.2.2.2
    omega
  · intro hlow
    have hreach : (skyHeight + probeLift).units - lowestSeen.units = probeReach.units := by
      decide +kernel
    have hlift : skyHeight.units ≤ (skyHeight + probeLift).units := by decide +kernel
    have hbelow := (Single.lt_iff.1 hsky).2.2
    have habove := hlow.2.2
    constructor
    · exact ⟨hnan, Single.isNaN_of_isFinite isFinite_skyProbe, by omega⟩
    · exact Single.sub_le isFinite_skyProbe hfin (by decide +kernel) (by omega)

/-! ## Surfaces over a place -/

section Surfaces

variable (tiles : TileKey → Except TileError Tile)
  (surfaces : UInt32 → Single → Single → Single → Prop) (map : UInt32) (x y : Single)

/-- There is a real surface over a place at a height: the land, or a collision surface. -/
structure IsSurface (h : Single) : Prop where
  real : isRealHeight h = true
  source : h = landOver tiles map x y ∨ surfaces map x y h

/-- No surface over the place is above the one at this height. -/
structure IsTopmost (h : Single) : Prop where
  surface : IsSurface tiles surfaces map x y h
  highest : ∀ other, IsSurface tiles surfaces map x y other → other ≤ h

variable {tiles surfaces map x y}

/-- Below the sky all surfaces are at finite heights. -/
theorem IsSurface.isFinite {h : Single} (hs : IsSurface tiles surfaces map x y h)
    (hsky : h < skyHeight) : h.isFinite = true := by
  have hlimit : skyHeight.units < Binary.single.magnitude Binary.single.infinity := by
    decide +kernel
  exact isFinite_of_isRealHeight hs.real (Int.lt_trans (Single.lt_iff.1 hsky).2.2 hlimit)

/-- Seen from the sky, all land counts that is real. -/
theorem landCounts_sky {land : Single} (hreal : isRealHeight land = true)
    (hsky : land < skyHeight) : LandCounts land skyHeight := by
  have hlift : skyHeight ≤ skyHeight + probeLift := by decide +kernel
  obtain ⟨hnan, -, hbelow⟩ := Single.lt_iff.1 hsky
  exact ⟨hreal, Single.lt_iff.2 ⟨hnan, hlift.2.1, Int.lt_of_lt_of_le hbelow hlift.2.2⟩⟩

/-- Seen from the sky, a surface that is preferred to land is not below it. -/
theorem le_of_preferred {collision land : Single} (hcollision : isRealHeight collision = true)
    (hland : LandCounts land skyHeight) (hsky : collision < skyHeight) (hsky' : land < skyHeight)
    (hpreferred : Preferred collision land skyHeight) : land ≤ collision := by
  refine ⟨isNaN_of_isRealHeight hland.1, isNaN_of_isRealHeight hcollision, ?_⟩
  by_cases habove : land < collision
  · exact Int.le_of_lt (Single.lt_iff.1 habove).2.2
  · have hnearer := (explained_reconcile land collision skyHeight).nearer hland hcollision
      hpreferred habove (by decide +kernel)
    have hbelow := (Single.lt_iff.1 hsky).2.2
    have hbelow' := (Single.lt_iff.1 hsky').2.2
    omega

/-- A surface that is the land, or is not too low, is seen from the sky. -/
theorem IsSurface.seen {h : Single} (hs : IsSurface tiles surfaces map x y h)
    (hsky : h < skyHeight) (hnear : h = landOver tiles map x y ∨ lowestSeen ≤ h) :
    (h = landOver tiles map x y ∧ LandCounts h skyHeight) ∨
      (surfaces map x y h ∧ Within h (skyHeight + probeLift) probeReach) := by
  by_cases hland : h = landOver tiles map x y
  · exact .inl ⟨hland, landCounts_sky hs.real hsky⟩
  · exact .inr ⟨hs.source.resolve_left hland,
      (within_sky_iff (hs.isFinite hsky) hsky).2 (hnear.resolve_left hland)⟩

/-! ## The answer from the sky -/

/-- If the ground is the land, and a surface that was seen is topmost, then so is the land. -/
theorem IsTopmost.of_land {h collision : Single}
    (hexplained : Explained (landOver tiles map x y) collision skyHeight (landOver tiles map x y))
    (hcounts : LandCounts (landOver tiles map x y) skyHeight)
    (htop : IsTopmost tiles surfaces map x y h) (hle : h ≤ collision) :
    IsTopmost tiles surfaces map x y (landOver tiles map x y) := by
  have hreal := isRealHeight_of_le htop.surface.real hle
  have hnan := isNaN_of_isRealHeight hcounts.1
  have hland : collision.units ≤ (landOver tiles map x y).units := by
    rcases hexplained.choice hcounts hreal with ⟨heq, -⟩ | ⟨-, hnot⟩
    · rw [heq]
    · refine Int.le_of_not_gt fun hlt => hnot (.inl ?_)
      exact Single.lt_iff.2 ⟨hnan, hle.2.1, hlt⟩
  refine ⟨⟨hcounts.1, .inl rfl⟩, fun other hother => ?_⟩
  exact Single.le_trans (htop.highest other hother) ⟨hle.1, hnan, Int.le_trans hle.2.2 hland⟩

/-- If the ground is a surface that the probe found, it is topmost: the land is not preferred to it,
and surfaces that are not seen are lower. -/
theorem IsTopmost.of_collision {collision : Single}
    (hexplained : Explained (landOver tiles map x y) collision skyHeight collision)
    (hlow : ∀ h, IsSurface tiles surfaces map x y h → h < skyHeight)
    (hcollision : IsSurface tiles surfaces map x y collision) (hseen : lowestSeen ≤ collision)
    (hhighest : ∀ h, surfaces map x y h → Within h (skyHeight + probeLift) probeReach →
      h ≤ collision) :
    IsTopmost tiles surfaces map x y collision := by
  have hsky := hlow collision hcollision
  have hnan := isNaN_of_isRealHeight hcollision.real
  refine ⟨hcollision, fun other hother => ?_⟩
  have hsky' := hlow other hother
  rcases hother.source with rfl | hsurface
  · have hcounts := landCounts_sky hother.real hsky'
    rcases hexplained.choice hcounts hcollision.real with ⟨-, hpreferred⟩ | ⟨heq, -⟩
    · exact le_of_preferred hcollision.real hcounts hsky hsky' hpreferred
    · rw [← heq]
      exact Single.le_refl hnan
  · by_cases hnear : lowestSeen ≤ other
    · exact hhighest other hsurface ((within_sky_iff (hother.isFinite hsky') hsky').2 hnear)
    · have hnan' := isNaN_of_isRealHeight hother.real
      refine ⟨hnan', hnan, Int.le_trans (Int.le_of_lt ?_) hseen.2.2⟩
      exact Int.lt_of_not_ge fun hle => hnear ⟨hseen.1, hnan', hle⟩

variable {σ : Type} {c : Collision σ} {surface : UInt32 → Position → Single → Single}

/-- Over fixed tiles and surfaces the ground as seen from the sky is a topmost surface exactly if
one of those is the land or is not too low for the probe. -/
theorem isTopmost_heightOver_iff (hc : c.Contract surfaces surface)
    (hlow : ∀ h, IsSurface tiles surfaces map x y h → h < skyHeight) :
    IsTopmost tiles surfaces map x y (heightOver tiles surface map ⟨x, y, skyHeight⟩) ↔
      ∃ h, IsTopmost tiles surfaces map x y h ∧ (h = landOver tiles map x y ∨ lowestSeen ≤ h) := by
  have hexplained := explained_reconcile (landOver tiles map x y)
    (surface map ⟨x, y, skyHeight + probeLift⟩ probeReach) skyHeight
  have hmissing : isRealHeight (surface map ⟨x, y, skyHeight + probeLift⟩ probeReach) = false →
      ∀ {h : Single}, surfaces map x y h → isRealHeight h = true →
        ¬ Within h (skyHeight + probeLift) probeReach := not_within_of_missing hc
  have hfound := found_of_real hc map ⟨x, y, skyHeight + probeLift⟩ probeReach
  have hhighest := hc.highest map ⟨x, y, skyHeight + probeLift⟩ probeReach
  unfold heightOver
  dsimp only at *
  generalize surface map ⟨x, y, skyHeight + probeLift⟩ probeReach = collision at *
  generalize reconcile _ collision skyHeight = answer at *
  rcases hexplained.source with ⟨rfl, hcounts⟩ | ⟨rfl, hreal⟩ | ⟨rfl, hnoLand, hnone⟩
  · -- the answer is the land
    refine ⟨fun htop => ⟨_, htop, .inl rfl⟩, ?_⟩
    rintro ⟨h, htop, hnear⟩
    rcases htop.surface.seen (hlow h htop.surface) hnear with ⟨rfl, -⟩ | ⟨hsurface, hin⟩
    · exact htop
    · exact .of_land hexplained hcounts htop (hhighest h hsurface hin).2.2
  · -- the answer is what the probe found
    obtain ⟨hsurface, hin⟩ := hfound hreal
    have hcollision : IsSurface tiles surfaces map x y answer := ⟨hreal, .inr hsurface⟩
    have hsky := hlow answer hcollision
    have hseen := (within_sky_iff (hcollision.isFinite hsky) hsky).1 hin
    have htop := IsTopmost.of_collision hexplained hlow hcollision hseen
      fun h hsurface hin => (hhighest h hsurface hin).2.2
    exact iff_of_true htop ⟨answer, htop, .inr hseen⟩
  · -- nothing was seen, so the answer is the sky
    refine iff_of_false (fun htop => ?_) ?_
    · exact absurd (hlow skyHeight htop.surface) (by decide +kernel)
    · rintro ⟨h, htop, hnear⟩
      rcases htop.surface.seen (hlow h htop.surface) hnear with ⟨rfl, hcounts⟩ | ⟨hsurface, hin⟩
      · exact hnoLand hcounts
      · exact hmissing hnone hsurface htop.surface.real hin

end Surfaces

/-! ## Over the files -/

section Files

variable {σ : Type} {g : Ground σ} {surfaces : UInt32 → Single → Single → Single → Prop}
  {surface : UInt32 → Position → Single → Single} {disk : Disk} {map : UInt32} {area : UInt16}
  {s : GroundState σ} {p : Position}

/-- The height that the search answers is that of the ground as seen from the sky. -/
theorem z_findArea (hfixed : g.collision.Fixed surface)
    (hp : (g.findArea disk map area s).1 = some p) :
    p.z = heightOver (g.look disk s) surface map ⟨p.x, p.y, skyHeight⟩ := by
  rw [← run_findArea, run_evaluate hfixed, evaluate_findArea] at hp
  obtain ⟨centre, -, rfl⟩ := Option.map_eq_some_iff.1 hp
  rfl

/-- **When the search for an area answers the topmost surface.**  Let the library of collision
geometry answer each probe with the highest surface within its reach, and all surfaces over the
place that is found be below the sky.  Then the height of the place is that of a topmost surface
exactly if one of those is the land, or is not below the reach of the probe from the sky. -/
theorem findArea_topmost_iff (hc : g.collision.Contract surfaces surface)
    (hp : (g.findArea disk map area s).1 = some p)
    (hlow : ∀ h, IsSurface (g.look disk s) surfaces map p.x p.y h → h < skyHeight) :
    IsTopmost (g.look disk s) surfaces map p.x p.y p.z ↔
      ∃ h, IsTopmost (g.look disk s) surfaces map p.x p.y h ∧
        (h = landOver (g.look disk s) map p.x p.y ∨ lowestSeen ≤ h) := by
  rw [z_findArea hc.fixed hp]
  exact isTopmost_heightOver_iff hc hlow

end Files

/-! ### A floor over a meadow -/

/-- The one height of a floor, which is everywhere. -/
def floorHeights (level : Single) (_map : UInt32) (_x _y h : Single) : Prop := h = level

/-- The floor, if it is within reach. -/
def floorSurface (level : Single) (_map : UInt32) (point : Position) (reach : Single) : Single :=
  if Within level point.z reach then level else noSurface

/-- Collision geometry of a floor. -/
def floor (level : Single) : Collision Unit where
  loadTile _ := pure ()
  probe map point reach := pure (floorSurface level map point reach)

theorem floor_contract (level : Single) :
    (floor level).Contract (floorHeights level) (floorSurface level) where
  fixed _ _ _ _ := rfl
  highest := by
    rintro map p reach h rfl hin
    rw [floorSurface, if_pos hin]
    exact ⟨rfl, hin, Single.le_refl hin.1.1⟩
  missing map p reach hnone := by
    rw [floorSurface, if_neg (hnone level rfl)]
    exact isRealHeight_noSurface

end Ground

/-- Flat ground at 10, in the area 12. -/
def TilePlan.meadow : TilePlan where
  build := 8606
  area := some ⟨0, some (Array.replicate 256 12)⟩
  height := some ⟨10, 10, .flat, none⟩
  liquid := none

theorem TilePlan.meadow_valid : meadow.Valid where
  area cells h := by
    rw [← Option.some.inj h]
    exact Array.size_replicate
  surface := trivial
  flightBounds _ h := by cases h
  liquidCells _ h := by cases h
  liquidLevels _ h := by cases h

namespace Ground

theorem heightAt_meadow (x y : Single) : TilePlan.meadow.tile.heightAt x y = 10 := rfl

/-- A disk with the meadow for every tile. -/
def meadowFiles : Disk := fun _ => .ok TilePlan.meadow.encode

theorem decoded_meadowFiles (key : TileKey) :
    decoded (some "maps") meadowFiles key = .ok TilePlan.meadow.tile := by
  have hvalid := TilePlan.meadow_valid
  have hdecode := (TilePlan.laidOut_encode hvalid).decode_eq hvalid
  simp only [decoded, meadowFiles, hdecode]
  rfl

/-- The meadow, with a floor at some level. -/
def overMeadow (level : Single) : Ground Unit := ⟨some "maps", floor level⟩

theorem look_overMeadow (level : Single) :
    (overMeadow level).look meadowFiles ⟨.empty, ()⟩ = fun _ => .ok TilePlan.meadow.tile := by
  rw [look_start]
  exact funext decoded_meadowFiles

theorem findArea_overMeadow (level : Single) :
    ∃ p, ((overMeadow level).findArea meadowFiles 0 12 ⟨.empty, ()⟩).1 = some p ∧
      landOver (fun _ => .ok TilePlan.meadow.tile) 0 p.x p.y = 10 := by
  have hplace := (overMeadow level).place_findArea meadowFiles 0 12 ⟨.empty, ()⟩
  rw [look_overMeadow] at hplace
  have harea : HasArea (.ok TilePlan.meadow.tile) 12 :=
    ⟨_, _, rfl, rfl, Array.mem_replicate.2 ⟨by decide, rfl⟩⟩
  have hsome : (centreOf (fun _ => .ok TilePlan.meadow.tile) 0 12).isSome :=
    isSome_centreOf.2 ⟨⟨0, 0, 0⟩, rfl, harea⟩
  rw [← hplace, Option.isSome_map] at hsome
  obtain ⟨p, hp⟩ := Option.isSome_iff_exists.1 hsome
  rw [hp] at hplace
  obtain ⟨key, tile, hmap, htile, hoffered, -⟩ := centreOf_eq_some hplace.symm
  obtain ⟨-, -, -, -, hx, hy, -⟩ :=
    AreaLayer.find?_place (Except.ok.inj htile ▸ TilePlan.meadow_valid.area) hoffered
  have hkey := TileKey.of?_gridIndex hx hy
  rw [hmap] at hkey
  refine ⟨p, hp, ?_⟩
  unfold landOver
  rw [hkey]
  exact heightAt_meadow p.x p.y

section OverMeadow

variable {level x y h : Single} (hland : landOver (fun _ => .ok TilePlan.meadow.tile) 0 x y = 10)
include hland

/-- The meadow and the floor are all there is. -/
theorem isSurface_overMeadow :
    IsSurface (fun _ => .ok TilePlan.meadow.tile) (floorHeights level) 0 x y h ↔
      isRealHeight h = true ∧ (h = 10 ∨ h = level) := by
  rw [← hland]
  constructor
  · intro hs
    exact ⟨hs.real, hs.source⟩
  · rintro ⟨hreal, hsource⟩
    exact ⟨hreal, hsource⟩

theorem lt_skyHeight_overMeadow (hlevel : level < skyHeight)
    (hs : IsSurface (fun _ => .ok TilePlan.meadow.tile) (floorHeights level) 0 x y h) :
    h < skyHeight := by
  rcases ((isSurface_overMeadow hland).1 hs).2 with rfl | rfl
  · decide +kernel
  · exact hlevel

/-- The higher one of the two is topmost. -/
theorem isTopmost_overMeadow
    (hs : IsSurface (fun _ => .ok TilePlan.meadow.tile) (floorHeights level) 0 x y h)
    (hten : 10 ≤ h) (hlevel : level ≤ h) :
    IsTopmost (fun _ => .ok TilePlan.meadow.tile) (floorHeights level) 0 x y h := by
  refine ⟨hs, fun other hother => ?_⟩
  rcases ((isSurface_overMeadow hland).1 hother).2 with rfl | rfl
  · exact hten
  · exact hlevel

end OverMeadow

/-- With a floor far below the meadow, the search answers the meadow. -/
theorem topmost_over_cellar :
    (floor (-90)).Contract (floorHeights (-90)) (floorSurface (-90)) ∧
      ∃ p, ((overMeadow (-90)).findArea meadowFiles 0 12 ⟨.empty, ()⟩).1 = some p ∧
        IsTopmost ((overMeadow (-90)).look meadowFiles ⟨.empty, ()⟩) (floorHeights (-90)) 0
          p.x p.y p.z := by
  obtain ⟨p, hp, hland⟩ := findArea_overMeadow (-90)
  have hmeadow : IsSurface (fun _ => .ok TilePlan.meadow.tile) (floorHeights (-90)) 0 p.x p.y 10 :=
    (isSurface_overMeadow hland).2 ⟨by decide +kernel, .inl rfl⟩
  have htop := isTopmost_overMeadow hland hmeadow (by decide +kernel) (by decide +kernel)
  have hlow : ∀ h, IsSurface ((overMeadow (-90)).look meadowFiles ⟨.empty, ()⟩)
      (floorHeights (-90)) 0 p.x p.y h → h < skyHeight := by
    intro h hs
    rw [look_overMeadow] at hs
    exact lt_skyHeight_overMeadow hland (by decide +kernel) hs
  refine ⟨floor_contract (-90), p, hp, ?_⟩
  rw [findArea_topmost_iff (floor_contract (-90)) hp hlow, look_overMeadow]
  exact ⟨10, htop, .inl hland.symm⟩

/-- With a floor above the meadow, the floor is topmost and the search still answers the meadow. -/
theorem not_topmost_under_floor :
    (floor 20).Contract (floorHeights 20) (floorSurface 20) ∧
      ∃ p, ((overMeadow 20).findArea meadowFiles 0 12 ⟨.empty, ()⟩).1 = some p ∧
        (∀ h, IsSurface ((overMeadow 20).look meadowFiles ⟨.empty, ()⟩) (floorHeights 20) 0
          p.x p.y h → h < skyHeight) ∧
        IsTopmost ((overMeadow 20).look meadowFiles ⟨.empty, ()⟩) (floorHeights 20) 0
          p.x p.y 20 ∧
        p.z = 10 ∧
        ¬ IsTopmost ((overMeadow 20).look meadowFiles ⟨.empty, ()⟩) (floorHeights 20) 0
          p.x p.y p.z := by
  obtain ⟨p, hp, hland⟩ := findArea_overMeadow 20
  have hz := z_findArea (floor_contract 20).fixed hp
  rw [look_overMeadow] at hz ⊢
  have hten : p.z = 10 := by
    have hseen : reconcile (landBelow 10 (skyHeight + probeLift)) noSurface skyHeight = 10 := by
      decide +kernel
    have hunseen : ¬ Within 20 (skyHeight + probeLift) probeReach := by decide +kernel
    rw [hz, heightOver, hland, floorSurface, if_neg hunseen]
    exact hseen
  have hfloor : IsSurface (fun _ => .ok TilePlan.meadow.tile) (floorHeights 20) 0 p.x p.y 20 :=
    (isSurface_overMeadow hland).2 ⟨by decide +kernel, .inr rfl⟩
  have hlow (h : Single) (hs : IsSurface (fun _ => .ok TilePlan.meadow.tile) (floorHeights 20) 0
      p.x p.y h) : h < skyHeight := lt_skyHeight_overMeadow hland (by decide +kernel) hs
  have htop := isTopmost_overMeadow hland hfloor (by decide +kernel) (by decide +kernel)
  refine ⟨floor_contract 20, p, hp, hlow, htop, hten, fun hmeadow => ?_⟩
  have hle := hmeadow.highest 20 hfloor
  rw [hten] at hle
  exact absurd hle (by decide +kernel)

end Ground

end Overland
