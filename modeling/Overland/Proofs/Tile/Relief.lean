import Mathlib
import Overland.Tile.Height

/-!
# The surface of a tile in exact arithmetic

Over a cell the ground is cut into four triangles, with a plane each.  In exact arithmetic the four
planes are one surface: over any place the plane of its triangle is the same mixture of the five
samples of the cell (`blend`), with weights that do not mention the triangle.  What is wanted of
the surface is read off these weights:

* they are never negative over the cell and add up to one, so a height lies between the lowest and
  the highest sample (`Within.height`);
* they are continuous, and over an edge of the cell only the samples at its ends have a weight, so
  neighbouring cells meet (`acrossX`, `acrossY`), and the surface of a whole tile is continuous
  (`continuousOn_heightAt`).

`Relief.fits` puts together what holds of any samples.
-/

namespace Overland

/-- A place lies on a triangle's side of both diagonals of the cell; the diagonals belong to the
triangles on either side. -/
def Triangle.Covers (x y : ℚ) : Triangle → Prop
  | .first => x + y ≤ 1 ∧ y ≤ x
  | .second => x + y ≤ 1 ∧ x ≤ y
  | .third => 1 ≤ x + y ∧ y ≤ x
  | .fourth => 1 ≤ x + y ∧ x ≤ y

/-- The triangle that is chosen for a place covers it. -/
theorem Triangle.covers_of (x y : ℚ) : (Triangle.of x y).Covers x y := by
  unfold Triangle.of
  split_ifs with hsum hless hless
  · exact ⟨hsum.le, hless.le⟩
  · exact ⟨hsum.le, not_lt.1 hless⟩
  · exact ⟨not_lt.1 hsum, hless.le⟩
  · exact ⟨not_lt.1 hsum, not_lt.1 hless⟩

namespace CellSamples

variable (s : CellSamples ℚ) (x y : ℚ)

/-- The height over a place of a cell. -/
def height : ℚ := (s.plane (.of x y)).at x y

/-- The samples mixed by what a place is near to.  A corner counts by how far the place lies on the
corner's side of the diagonal that cuts it off, and the centre counts for the rest. -/
def blend : ℚ :=
  s.origin * max 0 (1 - (x + y)) + s.alongX * max 0 (x - y) + s.alongY * max 0 (y - x)
    + s.opposite * max 0 (x + y - 1) + s.centre * (1 - |x - y| - |x + y - 1|)

/-- **Over every place that it covers, the plane of a triangle is the mixture.** -/
theorem plane_at_eq_blend {triangle : Triangle} {x y : ℚ} (h : triangle.Covers x y) :
    (s.plane triangle).at x y = s.blend x y := by
  -- on its side of both diagonals the sign of each distance is known
  cases triangle <;> obtain ⟨hsum, hless⟩ := h
  case first =>
    rw [blend, max_eq_right (by linarith), max_eq_right (by linarith), max_eq_left (by linarith),
      max_eq_left (by linarith), abs_of_nonneg (by linarith), abs_of_nonpos (by linarith)]
    simp only [plane, Plane.at]
    ring
  case second =>
    rw [blend, max_eq_right (by linarith), max_eq_left (by linarith), max_eq_right (by linarith),
      max_eq_left (by linarith), abs_of_nonpos (by linarith), abs_of_nonpos (by linarith)]
    simp only [plane, Plane.at]
    ring
  case third =>
    rw [blend, max_eq_left (by linarith), max_eq_right (by linarith), max_eq_left (by linarith),
      max_eq_right (by linarith), abs_of_nonneg (by linarith), abs_of_nonneg (by linarith)]
    simp only [plane, Plane.at]
    ring
  case fourth =>
    rw [blend, max_eq_left (by linarith), max_eq_left (by linarith), max_eq_right (by linarith),
      max_eq_right (by linarith), abs_of_nonpos (by linarith), abs_of_nonneg (by linarith)]
    simp only [plane, Plane.at]
    ring

theorem height_eq_blend : s.height x y = s.blend x y :=
  s.plane_at_eq_blend (Triangle.covers_of x y)

theorem height_of_covers {triangle : Triangle} {x y : ℚ} (h : triangle.Covers x y) :
    s.height x y = (s.plane triangle).at x y := by
  rw [height_eq_blend, s.plane_at_eq_blend h]

/-- The weights of a mixture add up to one. -/
theorem weights_sum : max 0 (1 - (x + y)) + max 0 (x - y) + max 0 (y - x) + max 0 (x + y - 1)
    + (1 - |x - y| - |x + y - 1|) = 1 := by
  have hsplit (a : ℚ) : max 0 a + max 0 (-a) = |a| := by
    rcases le_total 0 a with h | h
    · rw [max_eq_right h, max_eq_left (by linarith), abs_of_nonneg h, add_zero]
    · rw [max_eq_left h, max_eq_right (by linarith), abs_of_nonpos h, zero_add]
  have hless := hsplit (x - y)
  have hsum := hsplit (x + y - 1)
  rw [neg_sub] at hless hsum
  linarith

/-- Over the cell the weight of the centre is not negative. -/
theorem centre_weight_nonneg {x y : ℚ} (hx : 0 ≤ x ∧ x ≤ 1) (hy : 0 ≤ y ∧ y ≤ 1) :
    0 ≤ 1 - |x - y| - |x + y - 1| := by
  rcases abs_cases (x - y) with ⟨h, -⟩ | ⟨h, -⟩ <;>
    rcases abs_cases (x + y - 1) with ⟨h', -⟩ | ⟨h', -⟩ <;> rw [h, h'] <;>
    linarith [hx.1, hx.2, hy.1, hy.2]

/-- Scaling and shifting the samples scales and shifts the surface. -/
theorem blend_affine (factor base : ℚ) :
    (s.map fun n => n * factor + base).blend x y = s.blend x y * factor + base := by
  have hsum := weights_sum x y
  simp only [blend, map]
  linear_combination base * hsum

/-! ## Bounds -/

/-- All samples lie in a range. -/
structure Within (low high : ℚ) : Prop where
  origin : low ≤ s.origin ∧ s.origin ≤ high
  alongX : low ≤ s.alongX ∧ s.alongX ≤ high
  alongY : low ≤ s.alongY ∧ s.alongY ≤ high
  opposite : low ≤ s.opposite ∧ s.opposite ≤ high
  centre : low ≤ s.centre ∧ s.centre ≤ high

/-- The lowest of the five samples. -/
def lowest : ℚ := min s.origin (min s.alongX (min s.alongY (min s.opposite s.centre)))

/-- The highest of the five samples. -/
def highest : ℚ := max s.origin (max s.alongX (max s.alongY (max s.opposite s.centre)))

theorem within_lowest_highest : s.Within s.lowest s.highest := by
  constructor <;> simp [lowest, highest]

variable {s} in
/-- **A height lies in every range that the samples lie in.** -/
theorem Within.height {low high x y : ℚ} (h : s.Within low high) (hx : 0 ≤ x ∧ x ≤ 1)
    (hy : 0 ≤ y ∧ y ≤ 1) : low ≤ s.height x y ∧ s.height x y ≤ high := by
  have hsum := weights_sum x y
  have hcentre := centre_weight_nonneg hx hy
  -- each bound is the same mixture of itself
  have hmix (a : ℚ) : a = a * max 0 (1 - (x + y)) + a * max 0 (x - y) + a * max 0 (y - x)
      + a * max 0 (x + y - 1) + a * (1 - |x - y| - |x + y - 1|) := by
    linear_combination -a * hsum
  rw [height_eq_blend, blend]
  constructor
  · rw [hmix low]
    gcongr
    exacts [h.origin.1, h.alongX.1, h.alongY.1, h.opposite.1, h.centre.1]
  · rw [hmix high]
    gcongr
    exacts [h.origin.2, h.alongX.2, h.alongY.2, h.opposite.2, h.centre.2]

/-- The surface over one cell, and on beyond its edges, is continuous. -/
theorem continuous_height : Continuous fun p : ℚ × ℚ => s.height p.1 p.2 := by
  simp only [height_eq_blend, blend]
  fun_prop

end CellSamples

/-! ## The surface of a tile -/

/-- The heights of a tile's samples, by their places. -/
structure Relief where
  corner : ℕ → ℕ → ℚ
  centre : ℕ → ℕ → ℚ

namespace Relief

variable (r : Relief) (i j : ℕ)

/-- The samples of a cell. -/
def cell : CellSamples ℚ :=
  ⟨r.corner i j, r.corner (i + 1) j, r.corner i (j + 1), r.corner (i + 1) (j + 1), r.centre i j⟩

/-- The height over a place of a cell. -/
def height (x y : ℚ) : ℚ := (r.cell i j).height x y

/-- The height over a place of the tile, measured in cells along both axes. -/
def heightAt (u v : ℚ) : ℚ := r.height ⌊u⌋₊ ⌊v⌋₊ (u - ⌊u⌋₊) (v - ⌊v⌋₊)

/-! ### Cells meet at their edges -/

variable {x y : ℚ}

/-- **Neighbouring cells along x agree over the edge between them.** -/
theorem acrossX (hy : 0 ≤ y ∧ y ≤ 1) : r.height i j 1 y = r.height (i + 1) j 0 y := by
  have hend : Triangle.third.Covers 1 y := ⟨by linarith, hy.2⟩
  have hstart : Triangle.second.Covers 0 y := ⟨by linarith, hy.1⟩
  rw [height, height, CellSamples.height_of_covers _ hend, CellSamples.height_of_covers _ hstart]
  simp only [CellSamples.plane, Plane.at, cell]
  ring

/-- **Neighbouring cells along y agree over the edge between them.** -/
theorem acrossY (hx : 0 ≤ x ∧ x ≤ 1) : r.height i j x 1 = r.height i (j + 1) x 0 := by
  have hend : Triangle.fourth.Covers x 1 := ⟨by linarith, hx.2⟩
  have hstart : Triangle.first.Covers x 0 := ⟨by linarith, hx.1⟩
  rw [height, height, CellSamples.height_of_covers _ hend, CellSamples.height_of_covers _ hstart]
  simp only [CellSamples.plane, Plane.at, cell]
  ring

/-! ### The tile as a whole -/

variable {i j} {u v : ℚ}

/-- A place on a closed interval between two whole numbers lies in the cell between them, or at the
start of the next one. -/
theorem floor_cases (hu : i ≤ u ∧ u ≤ i + 1) : ⌊u⌋₊ = i ∨ (⌊u⌋₊ = i + 1 ∧ u - i = 1) := by
  have hnonneg : 0 ≤ u := (Nat.cast_nonneg i).trans hu.1
  rcases hu.2.lt_or_eq with hlt | rfl
  · exact .inl ((Nat.floor_eq_iff hnonneg).2 ⟨hu.1, hlt⟩)
  · exact .inr ⟨by exact_mod_cast Nat.floor_natCast (i + 1), add_sub_cancel_left _ _⟩

/-- Along x it does not matter from which cell a place on an edge is looked at. -/
theorem height_floor_left (hu : i ≤ u ∧ u ≤ i + 1) (hy : 0 ≤ y ∧ y ≤ 1) :
    r.height ⌊u⌋₊ j (u - ⌊u⌋₊) y = r.height i j (u - i) y := by
  rcases floor_cases hu with hfloor | ⟨hfloor, hedge⟩
  · rw [hfloor]
  · have hstart : u - (i + 1 : ℕ) = 0 := by push_cast; linarith
    rw [hfloor, hstart, hedge, r.acrossX i j hy]

/-- Along y it does not matter from which cell a place on an edge is looked at. -/
theorem height_floor_right (hv : j ≤ v ∧ v ≤ j + 1) (hx : 0 ≤ x ∧ x ≤ 1) :
    r.height i ⌊v⌋₊ x (v - ⌊v⌋₊) = r.height i j x (v - j) := by
  rcases floor_cases hv with hfloor | ⟨hfloor, hedge⟩
  · rw [hfloor]
  · have hstart : v - (j + 1 : ℕ) = 0 := by push_cast; linarith
    rw [hfloor, hstart, hedge, r.acrossY i j hx]

/-- Over a closed cell the surface of the tile is that of the cell. -/
theorem heightAt_eq_height (hu : i ≤ u ∧ u ≤ i + 1) (hv : j ≤ v ∧ v ≤ j + 1) :
    r.heightAt u v = r.height i j (u - i) (v - j) := by
  have hnonneg : 0 ≤ v := (Nat.cast_nonneg j).trans hv.1
  have hfloor := Nat.floor_le hnonneg
  have hceil := Nat.lt_floor_add_one v
  rw [heightAt, r.height_floor_left hu ⟨by linarith, by linarith⟩,
    r.height_floor_right hv ⟨by linarith, by linarith⟩]

/-- A place along an edge of the tile lies in one of its closed cells. -/
theorem exists_cell (hu : 0 ≤ u ∧ u ≤ 128) : ∃ i : Fin 128, (i : ℚ) ≤ u ∧ u ≤ i + 1 := by
  rcases hu.2.lt_or_eq with hlt | rfl
  · have hfloor : ⌊u⌋₊ < 128 := (Nat.floor_lt hu.1).2 (by exact_mod_cast hlt)
    exact ⟨⟨⌊u⌋₊, hfloor⟩, Nat.floor_le hu.1, (Nat.lt_floor_add_one u).le⟩
  · exact ⟨127, by norm_num⟩

theorem continuousOn_cell (i j : ℕ) : ContinuousOn (fun p : ℚ × ℚ => r.heightAt p.1 p.2)
    (Set.Icc (i : ℚ) (i + 1) ×ˢ Set.Icc (j : ℚ) (j + 1)) := by
  have hshift : Continuous fun p : ℚ × ℚ => (p.1 - (i : ℚ), p.2 - (j : ℚ)) := by fun_prop
  have hcell := (r.cell i j).continuous_height.comp hshift
  exact hcell.continuousOn.congr fun p hp => r.heightAt_eq_height hp.1 hp.2

/-- **The surface of a tile is continuous.**  It is so over each of the closed cells, which cover
the tile. -/
theorem continuousOn_heightAt :
    ContinuousOn (fun p : ℚ × ℚ => r.heightAt p.1 p.2) (Set.Icc 0 128 ×ˢ Set.Icc 0 128) := by
  have hcells := (locallyFinite_of_finite fun c : Fin 128 × Fin 128 =>
    Set.Icc (c.1 : ℚ) (c.1 + 1) ×ˢ Set.Icc (c.2 : ℚ) (c.2 + 1)).continuousOn_iUnion
      (fun _ => isClosed_Icc.prod isClosed_Icc) (fun c => r.continuousOn_cell c.1 c.2)
  refine hcells.mono fun p hp => ?_
  obtain ⟨i, hi⟩ := exists_cell hp.1
  obtain ⟨j, hj⟩ := exists_cell hp.2
  exact Set.mem_iUnion.2 ⟨(i, j), hi, hj⟩

/-! ### What holds of any samples -/

/-- The surface fits its samples, has no gaps and stays between them. -/
structure Fits : Prop where
  /-- At the corners of a cell the height is that of the samples there. -/
  corners : ∀ i j, r.height i j 0 0 = r.corner i j ∧ r.height i j 1 0 = r.corner (i + 1) j ∧
    r.height i j 0 1 = r.corner i (j + 1) ∧ r.height i j 1 1 = r.corner (i + 1) (j + 1)
  centres : ∀ i j, r.height i j (1 / 2) (1 / 2) = r.centre i j
  /-- Where triangles of a cell meet, they agree. -/
  seams : ∀ (i j : ℕ) (triangle other : Triangle) (x y : ℚ),
    triangle.Covers x y → other.Covers x y →
      ((r.cell i j).plane triangle).at x y = ((r.cell i j).plane other).at x y
  /-- Where cells meet, they agree. -/
  edges : ∀ (i j : ℕ) (a : ℚ), 0 ≤ a ∧ a ≤ 1 →
    r.height i j 1 a = r.height (i + 1) j 0 a ∧ r.height i j a 1 = r.height i (j + 1) a 0
  continuous : ContinuousOn (fun p : ℚ × ℚ => r.heightAt p.1 p.2) (Set.Icc 0 128 ×ˢ Set.Icc 0 128)
  /-- Over a cell no height is below the lowest or above the highest sample. -/
  between : ∀ (i j : ℕ) (x y : ℚ), 0 ≤ x ∧ x ≤ 1 → 0 ≤ y ∧ y ≤ 1 →
    (r.cell i j).lowest ≤ r.height i j x y ∧ r.height i j x y ≤ (r.cell i j).highest

theorem fits : r.Fits where
  corners i j := by
    simp only [height, CellSamples.height_eq_blend, CellSamples.blend, cell]
    norm_num
  centres i j := by
    simp only [height, CellSamples.height_eq_blend, CellSamples.blend, cell]
    norm_num
  seams i j triangle other x y h h' := by
    rw [CellSamples.plane_at_eq_blend _ h, CellSamples.plane_at_eq_blend _ h']
  edges i j _ ha := ⟨r.acrossX i j ha, r.acrossY i j ha⟩
  continuous := r.continuousOn_heightAt
  between i j _ _ hx hy := (r.cell i j).within_lowest_highest.height hx hy

end Relief

end Overland
