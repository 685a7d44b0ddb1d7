import Overland.Proofs.Tile.Grammar
import Overland.Proofs.Tile.Nesting
import Overland.Proofs.Tile.Relief
import Overland.Proofs.Tile.Triangle
import Overland.Tile.Plan

/-!
# Heights of a tile in exact arithmetic

`HeightPlan.exactAt` is the height over a point with nothing rounded: `HeightLayer.at` in rational
numbers, on the values of the samples, of the two ends of the range and of the offsets into the
cell.  It is stated of a plan, because a tile does not keep the upper end of its range; every tile
that is read from a file has its heights from one (`HeightPlan.exists_of_decode`).

Over the map it is the surface through the heights of the tile's samples
(`HeightPlan.exactAt_eq_heightAt`).  Steps go from the lower end of the range to the upper end, and
so do all heights between them (`HeightPlan.exactAt_mem_range`).
-/

namespace Overland

/-- The surface through rows of samples. -/
def Relief.ofRows {α : Type} (zero : α) (height : α → ℚ) (corners centres : Array α) : Relief where
  corner i j := height (corners.getD (i * cornersPerEdge + j) zero)
  centre i j := height (centres.getD (i * centresPerEdge + j) zero)

/-- The same height at each sample. -/
def Relief.level (height : ℚ) : Relief := ⟨fun _ _ => height, fun _ _ => height⟩

namespace HeightPlan

variable (h : HeightPlan)

/-- The height of a step in exact arithmetic. -/
def exactFactor (largest : ℕ) : ℚ := (h.top.value - h.base.value) / largest

/-- The height of a number of steps in exact arithmetic. -/
def exactHeight (largest : ℕ) (steps : ℤ) : ℚ := steps * h.exactFactor largest + h.base.value

/-- The planned heights with nothing rounded: samples by their values, and steps that divide the
range evenly. -/
def exactLayer : HeightLayer ℚ where
  base := h.base.value
  surface := match h.surface with
    | .flat => .flat
    | .float corners centres => .float (corners.map Single.value) (centres.map Single.value)
    | .int8 corners centres => .int8 corners centres (h.exactFactor 255)
    | .int16 corners centres => .int16 corners centres (h.exactFactor 65535)
  flightBounds := h.flightBounds

/-- The height over a point in exact arithmetic. -/
def exactAt (x y : Single) : ℚ :=
  h.exactLayer.at ((finePlace x).map Single.value) ((finePlace y).map Single.value)

/-- The surface through the heights of the samples. -/
def relief : Relief :=
  match h.surface with
  | .flat => .level h.base.value
  | .float corners centres => .ofRows 0 Single.value corners centres
  | .int8 corners centres =>
    .ofRows 0 (fun n : UInt8 => h.exactHeight 255 n.toNat) corners centres
  | .int16 corners centres =>
    .ofRows 0 (fun n : UInt16 => h.exactHeight 65535 n.toNat) corners centres

end HeightPlan

/-! ## Heights over points are those of the surface -/

/-- The samples that are looked up for a cell are those at its corners and at its centre. -/
theorem Relief.cell_ofRows {α : Type} (zero : α) (height : α → ℚ) (corners centres : Array α)
    (i j : ℕ) : (ofRows zero height corners centres).cell i j
      = (CellSamples.ofSurface zero corners centres i j).map height := by
  have hnext : (i + 1) * cornersPerEdge + j = i * cornersPerEdge + j + cornersPerEdge := by ring
  simp only [cell, ofRows, CellSamples.map, CellSamples.ofSurface, hnext, ← Nat.add_assoc]

/-- Samples whose heights all lie in a range make cells in that range. -/
theorem Relief.within_ofRows {α : Type} {zero : α} {height : α → ℚ} {low high : ℚ}
    (h : ∀ a, low ≤ height a ∧ height a ≤ high) (corners centres : Array α) (i j : ℕ) :
    ((ofRows zero height corners centres).cell i j).Within low high :=
  ⟨h _, h _, h _, h _, h _⟩

theorem Relief.height_level (height : ℚ) (i j : ℕ) (x y : ℚ) :
    (level height).height i j x y = height := by
  have hsum := CellSamples.weights_sum x y
  rw [Relief.height, CellSamples.height_eq_blend]
  simp only [level, cell, CellSamples.blend]
  linear_combination height * hsum

/-- The plane through counts of steps is the plane through their values. -/
theorem CellSamples.plane_map_cast (s : CellSamples ℤ) (triangle : Triangle) :
    (s.plane triangle).map Int.cast = (s.map (Int.cast : ℤ → ℚ)).plane triangle := by
  cases triangle <;> simp only [plane, Plane.map, map] <;> push_cast <;> rfl

namespace HeightPlan

variable (h : HeightPlan) (x y : Single)

/-- Samples that are interpolated by their values make the surface through these values. -/
theorem interpolate_values (corners centres : Array Single) (x y : Place ℚ) :
    interpolate (corners.map Single.value) (centres.map Single.value) x y
      = (Relief.ofRows 0 Single.value corners centres).height x.cell y.cell x.offset y.offset := by
  have hunits : (0 : Single).units = 0 := by decide
  have hzero : (0 : ℚ) = (0 : Single).value := by simp [Single.value, hunits]
  rw [interpolate, hzero, CellSamples.ofSurface_map, Relief.height, Relief.cell_ofRows]
  rfl

/-- Steps that are interpolated and then turned into a height are heights that are interpolated. -/
theorem interpolateSteps_scaled {β : Type} (zero : β) (count : β → ℤ) (corners centres : Array β)
    (largest : ℕ) (x y : Place ℚ) :
    interpolateSteps zero count corners centres x y * h.exactFactor largest + h.base.value
      = (Relief.ofRows zero (fun n => h.exactHeight largest (count n)) corners centres).height
          x.cell y.cell x.offset y.offset := by
  rw [interpolateSteps, CellSamples.plane_map_cast, Relief.height, Relief.cell_ofRows]
  show CellSamples.height _ _ _ * _ + _ = _
  rw [CellSamples.height_eq_blend, CellSamples.height_eq_blend, ← CellSamples.blend_affine]
  rfl

theorem exactAt_eq_height :
    h.exactAt x y = h.relief.height (finePlace x).cell (finePlace y).cell
      (finePlace x).offset.value (finePlace y).offset.value := by
  unfold exactAt exactLayer relief HeightLayer.at
  cases h.surface with
  | flat => exact (Relief.height_level _ _ _ _ _).symm
  | float corners centres => exact interpolate_values _ _ _ _
  | int8 corners centres => exact h.interpolateSteps_scaled _ _ _ _ _ _ _
  | int16 corners centres => exact h.interpolateSteps_scaled _ _ _ _ _ _ _

end HeightPlan

/-- The place of a coordinate in its tile, in cells. -/
def placeInTile (coordinate : Single) : ℚ := 128 * Int.fract (gridScale coordinate).value

/-- The place in the tile is the cell and the offset into it. -/
theorem OnMap.placeInTile_eq {coordinate : Single} (h : OnMap coordinate) :
    placeInTile coordinate = (finePlace coordinate).cell + (finePlace coordinate).offset.value := by
  have hcell : ((finePlace coordinate).cell : ℚ)
      = ⌊128 * (gridScale coordinate).value⌋ - 128 * ⌊(gridScale coordinate).value⌋ := by
    exact_mod_cast h.nested.fine
  rw [hcell, h.nested.offset.2, placeInTile, Int.fract]
  ring

theorem OnMap.offset_mem {coordinate : Single} (h : OnMap coordinate) :
    0 ≤ (finePlace coordinate).offset.value ∧ (finePlace coordinate).offset.value ≤ 1 :=
  ⟨h.nested.offset_range.1, h.nested.offset_range.2.le⟩

namespace HeightPlan

variable (h : HeightPlan) {x y : Single}

/-- **Over the map the height of a point is that of the surface at the point's place in its
tile.** -/
theorem exactAt_eq_heightAt (hx : OnMap x) (hy : OnMap y) :
    h.exactAt x y = h.relief.heightAt (placeInTile x) (placeInTile y) := by
  have hu := hx.offset_mem
  have hv := hy.offset_mem
  rw [exactAt_eq_height, hx.placeInTile_eq, hy.placeInTile_eq,
    Relief.heightAt_eq_height _ (i := (finePlace x).cell) (j := (finePlace y).cell)
      ⟨by linarith, by linarith⟩ ⟨by linarith, by linarith⟩,
    add_sub_cancel_left, add_sub_cancel_left]

/-! ## The range of heights -/

/-- The heights of steps lie in the range. -/
theorem exactHeight_mem_range (hle : h.base ≤ h.top) (largest : ℕ) {steps : ℕ}
    (hpos : 0 < largest) (hsteps : steps ≤ largest) :
    h.base.value ≤ h.exactHeight largest steps ∧ h.exactHeight largest steps ≤ h.top.value := by
  have hrange : 0 ≤ h.top.value - h.base.value := sub_nonneg.2 (Single.value_mono hle)
  have hlargest : (0 : ℚ) < largest := by exact_mod_cast hpos
  have hratio : (steps : ℚ) ≤ largest := by exact_mod_cast hsteps
  have hlow : 0 ≤ steps * h.exactFactor largest := by
    rw [exactFactor]
    positivity
  have hhigh : steps * h.exactFactor largest ≤ h.top.value - h.base.value :=
    calc steps * h.exactFactor largest
        ≤ largest * h.exactFactor largest := by
          rw [exactFactor]
          gcongr
      _ = h.top.value - h.base.value := mul_div_cancel₀ _ hlargest.ne'
  rw [exactHeight, Int.cast_natCast]
  constructor <;> linarith

/-- A surface through steps lies in the range at each of its samples. -/
theorem within_relief (hle : h.base ≤ h.top)
    (hmode : h.layerSurface.mode = .int8 ∨ h.layerSurface.mode = .int16) (i j : ℕ) :
    (h.relief.cell i j).Within h.base.value h.top.value := by
  cases hsurface : h.surface with
  | flat => simp [layerSurface, hsurface, Surface.mode] at hmode
  | float corners centres => simp [layerSurface, hsurface, Surface.mode] at hmode
  | int8 corners centres =>
    simp only [relief, hsurface]
    exact Relief.within_ofRows (fun n => h.exactHeight_mem_range hle 255 (by decide)
      (Nat.le_of_lt_succ n.toNat_lt)) corners centres i j
  | int16 corners centres =>
    simp only [relief, hsurface]
    exact Relief.within_ofRows (fun n => h.exactHeight_mem_range hle 65535 (by decide)
      (Nat.le_of_lt_succ n.toNat_lt)) corners centres i j

/-- **Heights from steps lie in the range of their tile,** over every point of the map. -/
theorem exactAt_mem_range (hx : OnMap x) (hy : OnMap y) (hle : h.base ≤ h.top)
    (hmode : h.layerSurface.mode = .int8 ∨ h.layerSurface.mode = .int16) :
    h.base.value ≤ h.exactAt x y ∧ h.exactAt x y ≤ h.top.value := by
  rw [exactAt_eq_height]
  exact (h.within_relief hle hmode _ _).height hx.offset_mem hy.offset_mem

/-- What is so about the height over a point in exact arithmetic: it is looked up in the triangle
that the program takes, it is that of the surface, and from steps it lies in the range. -/
structure OnSurface (x y : Single) : Prop where
  triangle : Triangle.of (finePlace x).offset (finePlace y).offset
    = Triangle.of (finePlace x).offset.value (finePlace y).offset.value
  surface : h.exactAt x y = h.relief.heightAt (placeInTile x) (placeInTile y)
  range : h.layerSurface.mode = .int8 ∨ h.layerSurface.mode = .int16 → h.base ≤ h.top →
    h.base.value ≤ h.exactAt x y ∧ h.exactAt x y ≤ h.top.value

/-- A plan has the heights of the tile that is read from a file, and both ends of the range that
stands in the file, if it has a height section at all. -/
structure IsOf (bytes : Bytes) (t : Tile) : Prop where
  layer : t.height = h.layer
  range : SectionForm.height.offset bytes ≠ 0 →
    h.base = bytes.scalar (SectionForm.height.place bytes + 8) ∧
      h.top = bytes.scalar (SectionForm.height.place bytes + 12)

/-- **The heights of a tile that is read from a file are those of a plan.** -/
theorem exists_of_decode {bytes : Bytes} {t : Tile} (h : Tile.decode bytes = .ok t) :
    ∃ plan : HeightPlan, plan.IsOf bytes t := by
  obtain ⟨-, rfl⟩ := Tile.holds_of_decode h
  by_cases hsection : SectionForm.height.offset bytes = 0
  · have habsent : (Tile.stored bytes).height = .absent := if_pos hsection
    exact ⟨⟨noHeight, noHeight, .flat, none⟩, habsent, fun h => absurd hsection h⟩
  · have hstored : (Tile.stored bytes).height
        = HeightLayer.storedAt bytes (SectionForm.height.place bytes) := if_neg hsection
    rw [HeightLayer.storedAt] at hstored
    cases hmode : HeightMode.ofFlags
        (HeightLayer.flagsAt bytes (SectionForm.height.place bytes)) <;> rw [hmode] at hstored
    case flat => exact ⟨⟨_, _, .flat, _⟩, hstored, fun _ => ⟨rfl, rfl⟩⟩
    case float => exact ⟨⟨_, _, .float _ _, _⟩, hstored, fun _ => ⟨rfl, rfl⟩⟩
    case int8 => exact ⟨⟨_, _, .int8 _ _, _⟩, hstored, fun _ => ⟨rfl, rfl⟩⟩
    case int16 => exact ⟨⟨_, _, .int16 _ _, _⟩, hstored, fun _ => ⟨rfl, rfl⟩⟩

/-- **The ground of a tile is continuous and bounded.**  Whatever the samples are, their surface
goes through all of them, the triangles of a cell and the cells of the tile meet without a gap, and
over each cell it stays between the lowest and the highest sample.  The height over a point of the
map is that of the tile's surface; if the tile stores steps, it never leaves the range of the
tile.  Every tile that is read from a file is one of these. -/
theorem ground_fits (hx : OnMap x) (hy : OnMap y) :
    (∀ r : Relief, r.Fits) ∧ (∀ h : HeightPlan, h.OnSurface x y) ∧
      ∀ (bytes : Bytes) (t : Tile), Tile.decode bytes = .ok t →
        ∃ h : HeightPlan, h.IsOf bytes t ∧ h.OnSurface x y := by
  have hsurface (h : HeightPlan) : h.OnSurface x y :=
    { triangle := triangle_exact hx hy
      surface := h.exactAt_eq_heightAt hx hy
      range := fun hmode hle => h.exactAt_mem_range hx hy hle hmode }
  refine ⟨Relief.fits, hsurface, fun bytes t hdecode => ?_⟩
  obtain ⟨h, hplan⟩ := exists_of_decode hdecode
  exact ⟨h, hplan, hsurface h⟩

/-- A hillside in steps of one byte. -/
def hillside : HeightPlan where
  base := -10
  top := 110
  surface := .int8 (Array.ofFn fun i : Fin (129 * 129) => UInt8.ofNat (7 * i))
    (Array.ofFn fun i : Fin (128 * 128) => UInt8.ofNat (255 - i))
  flightBounds := none

theorem hillside_fits : OnMap 0 ∧ OnMap (-100) ∧ hillside.relief.Fits ∧
    (-10 : Single).value ≤ hillside.exactAt 0 (-100) ∧
      hillside.exactAt 0 (-100) ≤ (110 : Single).value := by
  have h0 : OnMap 0 := by decide +kernel
  have h1 : OnMap (-100) := by decide +kernel
  obtain ⟨hfits, hsurface, -⟩ := ground_fits h0 h1
  exact ⟨h0, h1, hfits _, (hsurface hillside).range (.inl rfl) (by decide)⟩

end HeightPlan

end Overland
