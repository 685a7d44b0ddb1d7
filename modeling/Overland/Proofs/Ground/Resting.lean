import Overland.Proofs.Ground.Steady
import Overland.Proofs.Sampling
import Overland.Proofs.Single.Order

/-!
# Asking for the height of the ground again

The height of the ground at a point is the answer that explains the height asked about best.  Asked
about that answer, the ground need not give it again: the probe starts from a little above, and now
from another height, so a surface that was out of sight comes into sight.

`Collision.Contract` is what the library of collision geometry promises.  Under it
`height_again_iff` says exactly when the answer is given again: when no real surface within reach of
the new probe is above it (`Rests`).  The three cases of the first answer are
`height_again_of_nothing`, `height_again_of_surface` and `height_again_of_land`.
-/

namespace Overland

/-! ## What the collision library promises -/

namespace Collision

/-- A probe from height `z` finds a surface at height `h`. -/
def Within (h z reach : Single) : Prop := h ≤ z ∧ z - h ≤ reach

instance (h z reach : Single) : Decidable (Within h z reach) :=
  inferInstanceAs (Decidable (h ≤ z ∧ z - h ≤ reach))

/-- The promise of a library of collision geometry: over each point of a map there are surfaces at
some heights, and each probe is answered, always in the same way, with the highest of those within
its reach, or with a height that is not real if there is none. -/
structure Contract {σ : Type} (c : Collision σ)
    (surfaces : UInt32 → Single → Single → Single → Prop)
    (surface : UInt32 → Position → Single → Single) : Prop where
  fixed : c.Fixed surface
  highest : ∀ map p reach h, surfaces map p.x p.y h → Within h p.z reach →
    surfaces map p.x p.y (surface map p reach) ∧ Within (surface map p reach) p.z reach ∧
      h ≤ surface map p reach
  missing : ∀ map p reach, (∀ h, surfaces map p.x p.y h → ¬ Within h p.z reach) →
    isRealHeight (surface map p reach) = false

end Collision

open Collision (Within probeLift probeReach noSurface)

theorem isRealHeight_iff {h : Single} : isRealHeight h = true ↔ noHeight < h := by
  simp [isRealHeight]

theorem isNaN_of_isRealHeight {h : Single} (hreal : isRealHeight h = true) : h.isNaN = false :=
  (Single.lt_iff.1 (isRealHeight_iff.1 hreal)).2.1

theorem isRealHeight_of_le {h h' : Single} (hreal : isRealHeight h = true) (hle : h ≤ h') :
    isRealHeight h' = true := by
  have hlt := Single.lt_iff.1 (isRealHeight_iff.1 hreal)
  exact isRealHeight_iff.2
    (Single.lt_iff.2 ⟨hlt.1, hle.2.1, Int.lt_of_lt_of_le hlt.2.2 hle.2.2⟩)

/-- A real height below anything is finite. -/
theorem isFinite_of_isRealHeight {h : Single} (hreal : isRealHeight h = true)
    (hlt : h.units < Binary.single.magnitude Binary.single.infinity) : h.isFinite = true := by
  have hlow := Single.lt_iff.1 (isRealHeight_iff.1 hreal)
  have hfloor : -(Binary.single.magnitude Binary.single.infinity : Int) < noHeight.units := by
    decide +kernel
  exact Single.isFinite_iff_units.2 ⟨hlow.2.1, by have := hlow.2.2; omega, hlt⟩

/-- A real surface within reach is at a finite height. -/
theorem isFinite_of_within {h z reach : Single} (hreal : isRealHeight h = true)
    (hin : Within h z reach) : h.isFinite = true := by
  refine isFinite_of_isRealHeight hreal (Int.lt_of_not_ge fun hinf => ?_)
  -- a probe from infinity has no distance from an infinite surface
  obtain ⟨hh, hhsign⟩ := Single.infinite_of_le_units hin.1.1 hinf
  obtain ⟨hz, hzsign⟩ := Single.infinite_of_le_units hin.1.2.1 (Int.le_trans hinf hin.1.2.2)
  have hnan := Single.isNaN_sub_infinite hz hh (hzsign.trans hhsign.symm)
  rw [hin.2.1] at hnan
  cases hnan

theorem isFinite_probeLift : probeLift.isFinite = true := by decide +kernel

theorem units_probeLift : 0 ≤ probeLift.units := by decide +kernel

/-- The probe for a point starts no lower than the point. -/
theorem le_lift {h : Single} (hfin : h.isFinite = true) : h ≤ h + probeLift :=
  Single.le_add hfin isFinite_probeLift units_probeLift

/-- A surface at the height of a point is within reach of the probe for it. -/
theorem within_lift {h : Single} (hfin : h.isFinite = true) :
    Within h (h + probeLift) probeReach := by
  refine ⟨le_lift hfin, ?_⟩
  have hsum := Single.isFinite_add hfin isFinite_probeLift units_probeLift (by decide +kernel)
  exact Single.add_sub_le hfin isFinite_probeLift units_probeLift hsum (by decide +kernel)
    (by decide +kernel)

/-! ## Deciding between two heights -/

theorem reconcile_cases (land collision z : Single) :
    (isRealHeight collision = false ∧ isRealHeight land = false ∧ reconcile land collision z = z) ∨
    (isRealHeight collision = true ∧ reconcile land collision z = collision) ∨
    (isRealHeight land = true ∧ reconcile land collision z = land ∧
      (isRealHeight collision = true →
        ¬ land < collision ∧ ¬ (collision - z).abs < (land - z).abs)) := by
  unfold reconcile
  cases hc : isRealHeight collision with
  | true =>
    cases hl : isRealHeight land with
    | true =>
      by_cases h : land < collision ∨ (collision - z).abs < (land - z).abs
      · exact .inr (.inl (by simp [h]))
      · exact .inr (.inr ⟨rfl, by simp [h], fun _ => not_or.1 h⟩)
    | false => exact .inr (.inl (by simp))
  | false =>
    cases hl : isRealHeight land with
    | true => exact .inr (.inr (by simp))
    | false => exact .inl (by simp)

/-- Under a collision surface that is above the height asked about, so is the answer. -/
theorem lt_reconcile (land : Single) {collision z : Single} (hreal : isRealHeight collision = true)
    (h : z.units < collision.units) : z.units < (reconcile land collision z).units := by
  rcases reconcile_cases land collision z with ⟨hnone, -⟩ | ⟨-, heq⟩ | ⟨hland, heq, hchoice⟩
  · rw [hreal] at hnone; cases hnone
  · rw [heq]; exact h
  · refine Int.lt_of_lt_of_le h (Int.le_of_not_gt fun hlt => (hchoice hreal).1 ?_)
    rw [heq] at hlt
    exact Single.lt_iff.2 ⟨isNaN_of_isRealHeight hland, isNaN_of_isRealHeight hreal, hlt⟩

/-- If the answer is the height asked about, the collision surface is not above it. -/
theorem le_of_reconcile_equal {land collision z : Single} (hreal : isRealHeight collision = true)
    (h : (reconcile land collision z).equal z = true) : collision.units ≤ z.units := by
  refine Int.not_lt.1 fun hup => ?_
  have hlt := lt_reconcile land hreal hup
  rw [(Single.equal_iff.1 h).2.2] at hlt
  exact Int.lt_irrefl _ hlt

/-- A collision surface at the height asked about is the answer, as a number. -/
theorem reconcile_equal {land collision z : Single} (hreal : isRealHeight collision = true)
    (hcollision : collision.isFinite = true) (hz : z.isFinite = true)
    (hland : isRealHeight land = true → land.isFinite = true)
    (h : collision.units = z.units) : (reconcile land collision z).units = z.units := by
  rcases reconcile_cases land collision z with ⟨hnone, -⟩ | ⟨-, heq⟩ | ⟨hreal', heq, hchoice⟩
  · rw [hreal] at hnone; cases hnone
  · rw [heq]; exact h
  · -- the land is chosen only if it is at the same distance, which is none
    obtain ⟨hnan, -, hzero⟩ := Single.distance_eq_zero hcollision hz
    obtain ⟨hnan', hpos, hzero'⟩ := Single.distance_eq_zero (hland hreal') hz
    rw [heq, ← hzero']
    refine Int.le_antisymm (Int.le_of_not_gt fun hlt => (hchoice hreal).2 ?_) hpos
    exact Single.lt_iff.2 ⟨hnan, hnan', by rw [hzero.2 h]; exact hlt⟩

/-- At the height of the land, the land is the answer unless a collision surface is above it. -/
theorem reconcile_land {land collision : Single} (hreal : isRealHeight land = true)
    (hland : land.isFinite = true) (hcollision : isRealHeight collision = true →
      collision.isFinite = true ∧ collision.units ≤ land.units) :
    reconcile land collision land = land := by
  rcases reconcile_cases land collision land with ⟨-, -, heq⟩ | ⟨hreal', -⟩ | ⟨-, heq, -⟩
  · exact heq
  · obtain ⟨hfin, hle⟩ := hcollision hreal'
    obtain ⟨-, hpos, -⟩ := Single.distance_eq_zero hfin hland
    obtain ⟨-, -, hzero⟩ := Single.distance_eq_zero hland hland
    have hzero := hzero.2 rfl
    have hchoice : ¬ (land < collision ∨ (collision - land).abs < (land - land).abs) := by
      rintro (hlt | hlt)
      · have := (Single.lt_iff.1 hlt).2.2
        omega
      · have := (Single.lt_iff.1 hlt).2.2
        omega
    simp [reconcile, hreal, hreal', hchoice]
  · exact heq

theorem isRealHeight_noSurface : isRealHeight noSurface = false := by decide +kernel

namespace Ground

theorem landBelow_cases (land probe : Single) :
    (land < probe ∧ landBelow land probe = land) ∨
      (¬ land < probe ∧ landBelow land probe = noSurface) := by
  by_cases h : land < probe
  · exact .inl ⟨h, by rw [landBelow, if_pos h]⟩
  · exact .inr ⟨h, by rw [landBelow, if_neg h]⟩

/-- Land that counts is at a finite height. -/
theorem isFinite_landBelow {land probe : Single} (hreal : isRealHeight (landBelow land probe)) :
    (landBelow land probe).isFinite = true := by
  rcases landBelow_cases land probe with ⟨hlt, heq⟩ | ⟨-, heq⟩
  · rw [heq] at hreal ⊢
    have hlt := Single.lt_iff.1 hlt
    have hmax : probe.units ≤ Binary.single.magnitude Binary.single.infinity := by
      have := Binary.single.magnitude_mono (Single.magnitudeWord_le hlt.2.1)
      rcases probe.units_cases with h | h <;> omega
    exact isFinite_of_isRealHeight hreal (by have := hlt.2.2; omega)
  · rw [heq, isRealHeight_noSurface] at hreal
    cases hreal

/-! ## Asking again -/

/-- No real surface within reach of the probe for a point is above it.  At heights so great that
the probe starts no higher than the point, a surface must be at the point itself, if there are real
surfaces within reach at all. -/
def Rests (surfaces : UInt32 → Single → Single → Single → Prop) (map : UInt32) (p : Position) :
    Prop :=
  ∀ h, surfaces map p.x p.y h → isRealHeight h = true → Within h (p.z + probeLift) probeReach →
    h ≤ p.z ∧ (p.z < p.z + probeLift ∨ ∃ h', surfaces map p.x p.y h' ∧ h'.equal p.z = true)

section Again

variable {σ : Type} {c : Collision σ} {surfaces : UInt32 → Single → Single → Single → Prop}
  {surface : UInt32 → Position → Single → Single}

/-- Where a probe answers no real height, no real surface is within its reach. -/
theorem not_within_of_missing (hc : c.Contract surfaces surface) {map : UInt32} {p : Position}
    {reach : Single} (h : isRealHeight (surface map p reach) = false) {t : Single}
    (ht : surfaces map p.x p.y t) (hreal : isRealHeight t = true) : ¬ Within t p.z reach := by
  intro hin
  have hle := (hc.highest map p reach t ht hin).2.2
  rw [isRealHeight_of_le hreal hle] at h
  cases h

/-- A real answer of a probe is a surface within its reach. -/
theorem found_of_real (hc : c.Contract surfaces surface) (map : UInt32) (p : Position)
    (reach : Single) (h : isRealHeight (surface map p reach) = true) :
    surfaces map p.x p.y (surface map p reach) ∧ Within (surface map p reach) p.z reach := by
  by_cases hsome : ∃ t, surfaces map p.x p.y t ∧ Within t p.z reach
  · obtain ⟨t, ht, hin⟩ := hsome
    have hfound := hc.highest map p reach t ht hin
    exact ⟨hfound.1, hfound.2.1⟩
  · have hnone := hc.missing map p reach fun t ht hin => hsome ⟨t, ht, hin⟩
    rw [h] at hnone
    cases hnone

variable (tiles : TileKey → Except TileError Tile)

/-- Where the probe for a point finds nothing, the point rests. -/
theorem rests_of_missing (hc : c.Contract surfaces surface) (map : UInt32) (p : Position)
    (h : isRealHeight (surface map { p with z := p.z + probeLift } probeReach) = false) :
    Rests surfaces map p := by
  intro t ht hreal hin
  exact absurd hin (not_within_of_missing hc h ht hreal)

/-- Asking again where a surface is at the height asked about. -/
theorem height_again_of_surface (hc : c.Contract surfaces surface) {map : UInt32} {p : Position}
    (hsurface : surfaces map p.x p.y p.z) (hreal : isRealHeight p.z = true)
    (hfin : p.z.isFinite = true) :
    (heightOver tiles surface map p).equal p.z = true ↔ Rests surfaces map p := by
  have htop := hc.highest map { p with z := p.z + probeLift } probeReach
  obtain ⟨hfound, hin, hle⟩ := htop p.z hsurface (within_lift hfin)
  have hreal' := isRealHeight_of_le hreal hle
  have hland := @isFinite_landBelow (landOver tiles map p.x p.y) (p.z + probeLift)
  unfold heightOver
  generalize landBelow (landOver tiles map p.x p.y) (p.z + probeLift) = land at *
  generalize surface map { p with z := p.z + probeLift } probeReach = again at *
  constructor
  · intro heq t ht htreal htin
    -- the highest surface is not above the point, or the answer would be
    have hnot := le_of_reconcile_equal hreal' heq
    have hbelow := (htop t ht htin).2.2
    refine ⟨⟨htin.1.1, hle.1, ?_⟩, .inr ⟨p.z, hsurface, Single.equal_iff.2 ⟨hle.1, hle.1, rfl⟩⟩⟩
    exact Int.le_trans hbelow.2.2 hnot
  · intro hrests
    have hge := (hrests again hfound hreal' hin).1
    have hsame := Int.le_antisymm hge.2.2 hle.2.2
    have hunits := reconcile_equal hreal' (isFinite_of_within hreal' hin) hfin hland hsame
    refine Single.equal_iff.2 ⟨?_, hle.1, hunits⟩
    rcases reconcile_cases land again p.z with ⟨-, -, heq⟩ | ⟨-, heq⟩ | ⟨hreal, heq, -⟩
    · rw [heq]; exact hle.1
    · rw [heq]; exact hle.2.1
    · rw [heq]; exact isNaN_of_isRealHeight hreal

/-- Where the probe for a point starts at the point itself, the point rests exactly if the highest
surface is at the point. -/
theorem rests_iff_of_level (hc : c.Contract surfaces surface) (map : UInt32) {p : Position}
    (hfin : p.z.isFinite = true) (hlevel : ¬ p.z < p.z + probeLift)
    (hreal : isRealHeight (surface map { p with z := p.z + probeLift } probeReach) = true) :
    Rests surfaces map p ↔
      (surface map { p with z := p.z + probeLift } probeReach).equal p.z = true := by
  have hlift := le_lift hfin
  have hunits : (p.z + probeLift).units = p.z.units := by
    refine Int.le_antisymm (Int.le_of_not_gt fun hup => hlevel ?_) hlift.2.2
    exact Single.lt_iff.2 ⟨hlift.1, hlift.2.1, hup⟩
  have htop := hc.highest map { p with z := p.z + probeLift } probeReach
  obtain ⟨hsurface, hin⟩ := found_of_real hc map { p with z := p.z + probeLift } probeReach hreal
  constructor
  · intro hrests
    obtain ⟨hge, hlt | ⟨t, ht, hequal⟩⟩ := hrests _ hsurface hreal hin
    · exact absurd hlt hlevel
    · -- the surface at the point is within reach, so the highest one is not below it
      obtain ⟨hnan, -, hsame⟩ := Single.equal_iff.1 hequal
      have htfin : t.isFinite = true := Single.isFinite_iff_units.2
        ⟨hnan, by rw [hsame]; exact (Single.isFinite_iff_units.1 hfin).2⟩
      have hprobe : (p.z + probeLift).isFinite = true := Single.isFinite_iff_units.2
        ⟨hlift.2.1, by rw [hunits]; exact (Single.isFinite_iff_units.1 hfin).2⟩
      have hreach : (0 : Int) ≤ probeReach.units := by decide +kernel
      have htin : Within t (p.z + probeLift) probeReach :=
        ⟨⟨hnan, hlift.2.1, by omega⟩, Single.sub_le hprobe htfin (by decide +kernel) (by omega)⟩
      have hup := (htop t ht htin).2.2.2.2
      have hdown := hge.2.2
      exact Single.equal_iff.2 ⟨hge.1, hge.2.1, by omega⟩
  · intro hsame t ht _ htin
    refine ⟨⟨htin.1.1, hlift.1, ?_⟩, .inr ⟨_, hsurface, hsame⟩⟩
    have hbelow := htin.1.2.2
    omega

/-- Asking again where the land is at the height asked about. -/
theorem height_again_of_land (hc : c.Contract surfaces surface) {map : UInt32} {p : Position}
    (hat : landOver tiles map p.x p.y = p.z) (hreal : isRealHeight p.z = true)
    (hfin : p.z.isFinite = true) :
    (heightOver tiles surface map p).equal p.z = true ↔ Rests surfaces map p := by
  have hself : p.z.equal p.z = true :=
    Single.equal_iff.2 ⟨isNaN_of_isRealHeight hreal, isNaN_of_isRealHeight hreal, rfl⟩
  have htop := hc.highest map { p with z := p.z + probeLift } probeReach
  have hmissing := rests_of_missing hc map p
  have hfound := found_of_real hc map { p with z := p.z + probeLift } probeReach
  have hrestsLevel := rests_iff_of_level hc map hfin
  unfold heightOver
  rw [hat]
  generalize surface map { p with z := p.z + probeLift } probeReach = again at *
  rcases landBelow_cases p.z (p.z + probeLift) with ⟨hlt, hl⟩ | ⟨hlevel, hl⟩
  · rw [hl]
    cases hagain : isRealHeight again with
    | false =>
      -- no surface counts, so the answer is the land
      have heq : reconcile p.z again p.z = p.z := by simp [reconcile, hagain]
      rw [heq]
      exact ⟨fun _ => hmissing hagain, fun _ => hself⟩
    | true =>
      obtain ⟨hsurface, hin⟩ := hfound hagain
      constructor
      · intro heq t ht _ htin
        have hbelow := (htop t ht htin).2.2
        have hle := Int.le_trans hbelow.2.2 (le_of_reconcile_equal hagain heq)
        exact ⟨⟨htin.1.1, isNaN_of_isRealHeight hreal, hle⟩, .inl hlt⟩
      · intro hrests
        have hge := (hrests again hsurface hagain hin).1
        rw [reconcile_land hreal hfin fun _ => ⟨isFinite_of_within hagain hin, hge.2.2⟩]
        exact hself
  · -- the probe starts at the point itself, where the land does not count
    rw [hl]
    cases hagain : isRealHeight again with
    | false =>
      have heq : reconcile noSurface again p.z = p.z := by
        simp [reconcile, hagain, isRealHeight_noSurface]
      rw [heq]
      exact ⟨fun _ => hmissing hagain, fun _ => hself⟩
    | true =>
      have heq : reconcile noSurface again p.z = again := by
        simp [reconcile, hagain, isRealHeight_noSurface]
      rw [heq]
      exact (hrestsLevel hlevel hagain).symm

/-- **When the ground gives its own answer again.**  Take a point that was moved to the height that
the ground answered for some point over the same place.  Asked about it, the ground answers the same
height exactly if the point rests. -/
theorem height_again_iff (hc : c.Contract surfaces surface) {map : UInt32} {p : Position}
    (hp : Sampling.Settled (heightOver tiles surface map) p) (hnan : p.z.isNaN = false) :
    (heightOver tiles surface map p).equal p.z = true ↔ Rests surfaces map p := by
  obtain ⟨q, hq⟩ := hp
  have hz : p.z = heightOver tiles surface map q := by rw [hq]
  have hxy : p = { q with z := p.z } := by rw [hz, hq]
  rcases reconcile_cases (landBelow (landOver tiles map q.x q.y) (q.z + probeLift))
    (surface map { q with z := q.z + probeLift } probeReach) q.z with
    ⟨hmissing, -, heq⟩ | ⟨hreal, heq⟩ | ⟨hreal, heq, -⟩
  · -- nothing counts: the point was not moved
    have hpq : p = q := by rw [hxy, hz, heightOver, heq]
    subst hpq
    rw [← hz]
    exact ⟨fun _ => rests_of_missing hc _ _ hmissing, fun _ => Single.equal_iff.2 ⟨hnan, hnan, rfl⟩⟩
  · rw [← heightOver, ← hz] at heq
    obtain ⟨hsurface, hin⟩ := found_of_real hc _ _ _ hreal
    rw [← heq] at hsurface hreal hin
    refine height_again_of_surface tiles hc ?_ hreal (isFinite_of_within hreal hin)
    rw [hxy]
    exact hsurface
  · rw [← heightOver, ← hz] at heq
    have hfin := isFinite_landBelow hreal
    rcases landBelow_cases (landOver tiles map q.x q.y) (q.z + probeLift) with ⟨-, hl⟩ | ⟨-, hl⟩
    · rw [hl] at heq hreal hfin
      rw [← heq] at hreal hfin
      refine height_again_of_land tiles hc ?_ hreal hfin
      rw [heq, hxy]
    · rw [hl, isRealHeight_noSurface] at hreal
      cases hreal

end Again

end Ground

end Overland
