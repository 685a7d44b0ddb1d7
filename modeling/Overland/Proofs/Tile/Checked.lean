import Mathlib.Algebra.Group.Nat.Defs
import Overland.Tile.Area
import Overland.Tile.Liquid

/-!
# Questions to a tile, with every step checked

The questions to a tile read rows of samples with a value in reserve, for an index that is not in
the row, and count in integers without bounds.  Here is each question once more as a machine goes
through it: a row has nothing to answer outside, an integer that does not fit its width is nothing,
and so is what was to be made of it.

* `int32` and `word32` are the integers of 32 bits, with and without sign.  Indices into rows are
  counted in the latter, so they fit wherever a machine counts in no fewer bits.
* `Checked.heightAt`, `areaAt`, `areaCentre`, `cellKindAt`, `levelAt` and `liquidAt` are the
  questions.
* `Tile.Safe` says that no step of them ever fails: each answers, and what the plain question
  answers.
* `safe_of_wellFormed` — a tile whose rows have the right lengths is safe, at every point, on the
  map or off it, and for coordinates that are no numbers.
-/

namespace Overland

namespace Checked

/-! ## Integers of fixed width -/

/-- An integer with sign that fits 32 bits. -/
def int32 (n : Int) : Option Int :=
  if -2147483648 ≤ n ∧ n < 2147483648 then some n else none

/-- An integer without sign that fits 32 bits. -/
def word32 (n : Nat) : Option Nat := if n < 4294967296 then some n else none

theorem int32_eq_some {n : Int} (hlow : -2147483648 ≤ n) (hhigh : n < 2147483648) :
    int32 n = some n :=
  if_pos ⟨hlow, hhigh⟩

theorem word32_eq_some {n : Nat} (h : n < 4294967296) : word32 n = some n := if_pos h

/-! ## Cells -/

/-- The low bits of an index as a cell, of a power of two of cells.  No cell is negative. -/
def cell (cells : Nat) (index : Int32) : Option Nat :=
  let low := index &&& Int32.ofNat (cells - 1)
  if 0 ≤ low.toInt then some low.toInt.toNat else none

/-- The place of a coordinate among the height cells. -/
def place (coordinate : Single) : Option (Place Single) := do
  let scaled := 128 * gridScale coordinate
  let index := scaled.toInt32
  let cell ← cell fineCells index
  return ⟨cell, scaled - Single.ofInt index.toInt⟩

/-- The area cell of a point. -/
def areaCell (x y : Single) : Option Nat := do
  let row ← cell coarseCells (16 * gridScale x).toInt32
  let column ← cell coarseCells (16 * gridScale y).toInt32
  word32 ((← word32 (row * 16)) + column)

/-- The area cell that a height cell lies in. -/
def cellAround (x y : Place Single) : Option Nat := do
  word32 ((← word32 ((x.cell >>> 3) * 16)) + (y.cell >>> 3))

/-! ## Heights -/

/-- The samples of a height cell. -/
def samples {α : Type} (corners centres : Array α) (x y : Place Single) :
    Option (CellSamples α) := do
  let corner ← word32 ((← word32 (x.cell * 129)) + y.cell)
  let below ← word32 (corner + 129)
  let origin ← corners[corner]?
  let alongX ← corners[below]?
  let alongY ← corners[← word32 (corner + 1)]?
  let opposite ← corners[← word32 (below + 1)]?
  let centre ← centres[← word32 ((← word32 (x.cell * 128)) + y.cell)]?
  return ⟨origin, alongX, alongY, opposite, centre⟩

/-- The plane over a triangle, from samples that are counts of steps. -/
def plane (s : CellSamples Int) (triangle : Triangle) : Option (Plane Int) := do
  let centre ← int32 (s.centre + s.centre)
  match triangle with
  | .first =>
    return ⟨← int32 (s.alongX - s.origin), ← int32 ((← int32 (centre - s.origin)) - s.alongX),
      s.origin⟩
  | .second =>
    return ⟨← int32 ((← int32 (centre - s.origin)) - s.alongY), ← int32 (s.alongY - s.origin),
      s.origin⟩
  | .third =>
    return ⟨← int32 ((← int32 (s.alongX + s.opposite)) - centre),
      ← int32 (s.opposite - s.alongX), ← int32 (centre - s.opposite)⟩
  | .fourth =>
    return ⟨← int32 (s.opposite - s.alongY),
      ← int32 ((← int32 (s.alongY + s.opposite)) - centre), ← int32 (centre - s.opposite)⟩

/-- The height over a place, from samples that are numbers. -/
def interpolate (corners centres : Array Single) (x y : Place Single) : Option Single := do
  let samples ← samples corners centres x y
  return (samples.plane (.of x.offset y.offset)).at x.offset y.offset

/-- The height over a place in steps, from samples that are counts of steps. -/
def interpolateSteps {α : Type} (count : α → Int) (corners centres : Array α) (x y : Place Single) :
    Option Single := do
  let samples ← samples corners centres x y
  let plane ← plane (samples.map count) (.of x.offset y.offset)
  return (plane.map Single.ofInt).at x.offset y.offset

/-- The height of a tile's ground over a point. -/
def heightAt (t : Tile) (x y : Single) : Option Single := do
  match t.height.surface with
  | .flat => return t.height.base
  | .float corners centres => interpolate corners centres (← place x) (← place y)
  | .int8 corners centres factor =>
    let steps ← interpolateSteps (fun n => n.toNat) corners centres (← place x) (← place y)
    return steps * factor + t.height.base
  | .int16 corners centres factor =>
    let steps ← interpolateSteps (fun n => n.toNat) corners centres (← place x) (← place y)
    return steps * factor + t.height.base

/-! ## Areas -/

/-- The area of a tile at a point. -/
def areaAt (t : Tile) (x y : Single) : Option UInt16 := do
  match t.area.cells with
  | some cells => cells[← areaCell x y]?
  | none => return t.area.area

/-- The cell of the whole map along one axis, from the cell in a tile and the tile's coordinate. -/
def mapCell (cell : Nat) (grid : UInt32) : Option UInt32 := do
  let cell ← word32 ((← word32 cell) + (← word32 (grid.toNat * 16)))
  return UInt32.ofNat cell

/-- The centre of the first cell with an area, if there is one. -/
def areaCentre (a : AreaLayer) (area : UInt16) (gridX gridY : UInt32) :
    Option (Option (Single × Single)) := do
  match a.firstCell? area with
  | none => return none
  | some index =>
    let row ← mapCell (index / 16) gridX
    let column ← mapCell (index % 16) gridY
    return some (cellCentre row, cellCentre column)

/-! ## Liquids -/

/-- The kinds of liquid in the area cell of a point. -/
def cellKindAt (l : LiquidLayer) (x y : Single) : Option UInt8 := do
  match l.cells with
  | some cells => cells.kinds[← areaCell x y]?
  | none => return 0

/-- The index of a place in the rectangle of a liquid, if it lies in it. -/
def rectangleIndex (e : LiquidExtent) (x y : Place Single) : Option (Option Nat) := do
  let alongX ← int32 ((x.cell : Int) - e.offsetY.toNat)
  let alongY ← int32 ((y.cell : Int) - e.offsetX.toNat)
  if alongX < 0 ∨ (e.height.toNat : Int) ≤ alongX ∨ alongY < 0 ∨ (e.width.toNat : Int) ≤ alongY then
    return none
  else
    return some (← word32 ((← word32 (alongX.toNat * e.width.toNat)) + alongY.toNat))

/-- The level of the liquid at an index of its rectangle. -/
def levelOf (l : LiquidLayer) (index : Nat) : Option Single :=
  match l.levels with
  | some levels => levels[index]?
  | none => some l.level

/-- The level of the liquid over a point. -/
def levelAt (l : LiquidLayer) (x y : Single) : Option Single := do
  if l.levels.isNone then return l.level
  match ← rectangleIndex l.extent (← place x) (← place y) with
  | some index => levelOf l index
  | none => return noHeight

/-- Kind and entry of the liquid at a place. -/
def liquidCell (l : LiquidLayer) (x y : Place Single) : Option (UInt8 × UInt16) := do
  let cell ← cellAround x y
  match l.cells with
  | some cells => return (← cells.kinds[cell]?, ← cells.entries[cell]?)
  | none => return (l.kind.toUInt8, 0)

/-- Classifies a height over a point against the liquid there.  A tile that has neither a kind of
liquid nor cells with kinds is dry without another look. -/
def liquidAt (t : Tile) (x y z : Single) (mask : UInt8) : Option LiquidAnswer := do
  if t.liquid.kind = 0 ∧ t.liquid.cells.isNone then return .dry
  let placeX ← place x
  let placeY ← place y
  let (kind, entry) ← liquidCell t.liquid placeX placeY
  if kind = 0 || (mask ≠ 0 && mask &&& kind = 0) then return .dry
  match ← rectangleIndex t.liquid.extent placeX placeY with
  | none => return .dry
  | some index =>
    let level ← levelOf t.liquid index
    let ground ← heightAt t x y
    if level < ground ∨ z < ground - 2 then return .dry
    return ⟨.ofDepth (level - z), some ⟨kind, entry, level, ground⟩⟩

/-! ## No step fails -/

/-- The low bits of an index are its remainder. -/
theorem toInt_lowBits {bits : Nat} (hbits : bits ≤ 30) (index : Int32) :
    (index &&& Int32.ofNat (2 ^ bits - 1)).toInt = index.toInt % (2 ^ bits : Nat) := by
  have hpow : 2 ^ bits ≤ 2 ^ 30 := Nat.pow_le_pow_right (by decide) hbits
  have hlow : (index &&& Int32.ofNat (2 ^ bits - 1)).toBitVec
      = index.toBitVec &&& BitVec.ofNat 32 (2 ^ bits - 1) := by simp
  have hnat : (index.toBitVec &&& BitVec.ofNat 32 (2 ^ bits - 1)).toNat
      = index.toBitVec.toNat % 2 ^ bits := by
    rw [BitVec.toNat_and, BitVec.toNat_ofNat, Nat.mod_eq_of_lt (by omega),
      Nat.and_two_pow_sub_one_eq_mod]
  have hlt : index.toBitVec.toNat % 2 ^ bits < 2 ^ bits := Nat.mod_lt _ (Nat.two_pow_pos _)
  have hdvd : 2 ^ bits ∣ 2 ^ 32 := Nat.pow_dvd_pow 2 (by omega)
  rw [← Int32.toInt_toBitVec, hlow, BitVec.toInt_eq_toNat_of_lt (by omega), hnat,
    ← Int32.toInt_toBitVec, BitVec.toInt_eq_toNat_cond]
  -- a negative index counts from a power of two that the cells divide
  split
  · simp
  · rw [Int.sub_emod, Int.emod_eq_zero_of_dvd (Int.natCast_dvd_natCast.2 hdvd)]
    simp

/-- The low bits of an index are a cell. -/
theorem cell_eq (bits : Nat) (hbits : bits ≤ 30) (index : Int32) :
    cell (2 ^ bits) index = some (cellOf (2 ^ bits) index) := by
  have hpow : 0 < 2 ^ bits := Nat.two_pow_pos bits
  have hlow := toInt_lowBits hbits index
  have hnonneg : 0 ≤ index.toInt % (2 ^ bits : Nat) := Int.emod_nonneg _ (by omega)
  simp only [cell, hlow, if_pos hnonneg, cellOf]

theorem place_eq (coordinate : Single) : place coordinate = some (finePlace coordinate) := by
  have hcell := cell_eq 7 (by decide) (128 * gridScale coordinate).toInt32
  simp only [place, show fineCells = 2 ^ 7 from rfl, hcell, Option.bind_eq_bind, Option.bind_some]
  rfl

theorem cell_lt (coordinate : Single) : (finePlace coordinate).cell < 128 :=
  cellOf_lt fineCells (by decide) _

theorem areaCell_eq (x y : Single) : areaCell x y = some (Overland.areaCell x y) := by
  have hx : coarseCell x < 16 := cellOf_lt coarseCells (by decide) _
  have hy : coarseCell y < 16 := cellOf_lt coarseCells (by decide) _
  have hrow := cell_eq 4 (by decide) (16 * gridScale x).toInt32
  have hcolumn := cell_eq 4 (by decide) (16 * gridScale y).toInt32
  simp only [areaCell, show coarseCells = 2 ^ 4 from rfl, hrow, hcolumn, Option.bind_eq_bind,
    Option.bind_some]
  change (word32 (coarseCell x * 16)).bind (fun row => word32 (row + coarseCell y)) = _
  rw [word32_eq_some (by omega), Option.bind_some, word32_eq_some (by omega)]
  rfl

theorem cellAround_eq (x y : Single) :
    cellAround (finePlace x) (finePlace y) = some (LiquidLayer.cellAround x y) := by
  have hx := cell_lt x
  have hy := cell_lt y
  simp only [cellAround, LiquidLayer.cellAround, Nat.shiftRight_eq_div_pow, Option.bind_eq_bind]
  rw [word32_eq_some (by omega), Option.bind_some, word32_eq_some (by omega)]
  rfl

/-- An index in a row has the answer that the plain question gives, whatever that has in reserve. -/
theorem getElem?_eq_getD {α : Type} {row : Array α} {index : Nat} (zero : α)
    (h : index < row.size) : row[index]? = some (row.getD index zero) := by
  simp [h]

theorem samples_eq {α : Type} {corners centres : Array α} (zero : α)
    (hcorners : corners.size = 129 * 129) (hcentres : centres.size = 128 * 128) {x y : Place Single}
    (hx : x.cell < 128) (hy : y.cell < 128) :
    samples corners centres x y = some (.ofSurface zero corners centres x.cell y.cell) := by
  simp (disch := omega) only [samples, Option.bind_eq_bind, word32_eq_some, Option.bind_some,
    getElem?_eq_getD zero]
  rfl

/-- Samples of at most two bytes. -/
structure InSteps (s : CellSamples Int) : Prop where
  origin : 0 ≤ s.origin ∧ s.origin ≤ 65535
  alongX : 0 ≤ s.alongX ∧ s.alongX ≤ 65535
  alongY : 0 ≤ s.alongY ∧ s.alongY ≤ 65535
  opposite : 0 ≤ s.opposite ∧ s.opposite ≤ 65535
  centre : 0 ≤ s.centre ∧ s.centre ≤ 65535

theorem inSteps_map {α : Type} (count : α → Int) (hcount : ∀ a, 0 ≤ count a ∧ count a ≤ 65535)
    (s : CellSamples α) : InSteps (s.map count) :=
  ⟨hcount _, hcount _, hcount _, hcount _, hcount _⟩

theorem plane_eq {s : CellSamples Int} (h : InSteps s) (triangle : Triangle) :
    plane s triangle = some (s.plane triangle) := by
  obtain ⟨horigin, halongX, halongY, hopposite, hcentre⟩ := h
  cases triangle <;>
    simp (disch := omega) only [plane, int32_eq_some, Option.bind_eq_bind, Option.bind_some] <;>
    rfl

section Heights

variable {x y : Place Single} (hx : x.cell < 128) (hy : y.cell < 128)
include hx hy

theorem interpolate_eq {corners centres : Array Single} (hcorners : corners.size = 129 * 129)
    (hcentres : centres.size = 128 * 128) :
    interpolate corners centres x y = some (Overland.interpolate corners centres x y) := by
  simp only [interpolate, samples_eq 0 hcorners hcentres hx hy, Option.bind_eq_bind,
    Option.bind_some]
  rfl

theorem interpolateSteps_eq {α : Type} (zero : α) {count : α → Int}
    (hcount : ∀ a, 0 ≤ count a ∧ count a ≤ 65535) {corners centres : Array α}
    (hcorners : corners.size = 129 * 129) (hcentres : centres.size = 128 * 128) :
    interpolateSteps count corners centres x y
      = some (Overland.interpolateSteps zero count corners centres x y) := by
  simp only [interpolateSteps, samples_eq zero hcorners hcentres hx hy, Option.bind_eq_bind,
    Option.bind_some, plane_eq (inSteps_map count hcount _)]
  rfl

end Heights

section Questions

variable {t : Tile} (h : t.WellFormed) (x y : Single)
include h

theorem heightAt_eq : heightAt t x y = some (t.heightAt x y) := by
  have hsurface := h.surface
  simp only [heightAt, Tile.heightAt, HeightLayer.at, place_eq, Option.bind_eq_bind,
    Option.bind_some]
  cases hs : t.height.surface with
  | flat => rfl
  | float corners centres =>
    rw [hs] at hsurface
    exact interpolate_eq (cell_lt x) (cell_lt y) hsurface.1 hsurface.2
  | int8 corners centres factor =>
    rw [hs] at hsurface
    have hcount (n : UInt8) : 0 ≤ (n.toNat : Int) ∧ (n.toNat : Int) ≤ 65535 := by
      have := n.toNat_lt
      omega
    simp only [interpolateSteps_eq (cell_lt x) (cell_lt y) 0 hcount hsurface.1 hsurface.2]
    rfl
  | int16 corners centres factor =>
    rw [hs] at hsurface
    have hcount (n : UInt16) : 0 ≤ (n.toNat : Int) ∧ (n.toNat : Int) ≤ 65535 := by
      have := n.toNat_lt
      omega
    simp only [interpolateSteps_eq (cell_lt x) (cell_lt y) 0 hcount hsurface.1 hsurface.2]
    rfl

theorem areaAt_eq : areaAt t x y = some (t.areaAt x y) := by
  simp only [areaAt, areaCell_eq, Tile.areaAt, AreaLayer.at, Option.bind_eq_bind,
    Option.bind_some]
  cases hcells : t.area.cells with
  | none => rfl
  | some cells => exact getElem?_eq_getD 0 (by rw [h.area cells hcells]; exact areaCell_lt x y)

omit x y in
/-- The cell that an area is found in is one of the cells. -/
theorem firstCell_lt {area : UInt16} {index : Nat} (hfirst : t.area.firstCell? area = some index) :
    index < 256 := by
  obtain ⟨cells, hcells, hindex⟩ := Option.bind_eq_some_iff.1 hfirst
  rw [← h.area cells hcells]
  exact (Array.findIdx?_eq_some_iff_findIdx_eq.1 hindex).1

theorem cellKindAt_eq : cellKindAt t.liquid x y = some (t.liquid.cellKindAt x y) := by
  simp only [cellKindAt, areaCell_eq, LiquidLayer.cellKindAt, Option.bind_eq_bind,
    Option.bind_some]
  cases hcells : t.liquid.cells with
  | none => rfl
  | some cells =>
    refine getElem?_eq_getD 0 ?_
    rw [(h.liquidCells cells hcells).2]
    exact areaCell_lt x y

end Questions

/-! ## Areas -/

theorem mapCell_eq {cell : Nat} {grid : UInt32} (hcell : cell < 16) (hgrid : grid < 64) :
    mapCell cell grid = some (UInt32.ofNat cell + grid * 16) := by
  have hgrid : grid.toNat < 64 := UInt32.lt_iff_toNat_lt.1 hgrid
  simp (disch := omega) only [mapCell, word32_eq_some, Option.bind_eq_bind, Option.bind_some]
  refine congrArg some (UInt32.toNat_inj.1 ?_)
  simp only [UInt32.toNat_ofNat', UInt32.toNat_add, UInt32.toNat_mul, UInt32.reduceToNat]
  omega

theorem areaCentre_eq {t : Tile} (h : t.WellFormed) (area : UInt16) {gridX gridY : UInt32}
    (hx : gridX < 64) (hy : gridY < 64) :
    areaCentre t.area area gridX gridY = some (t.area.find? area gridX gridY) := by
  unfold areaCentre AreaLayer.find?
  cases hfirst : t.area.firstCell? area with
  | none => rfl
  | some index =>
    have hindex := firstCell_lt h hfirst
    have hrow : index / 16 < 16 := by omega
    have hcolumn : index % 16 < 16 := by omega
    simp only [mapCell_eq hrow hx, mapCell_eq hcolumn hy, Option.bind_eq_bind, Option.bind_some]
    rfl

/-! ## Liquids -/

theorem rectangleIndex_eq (e : LiquidExtent) {x y : Place Single} (hx : x.cell < 128)
    (hy : y.cell < 128) : rectangleIndex e x y = some (e.index? x.cell y.cell) := by
  have hwidth := e.width.toNat_lt
  have hheight := e.height.toNat_lt
  have hoffsetX := e.offsetX.toNat_lt
  have hoffsetY := e.offsetY.toNat_lt
  simp (disch := omega) only [rectangleIndex, int32_eq_some, Option.bind_eq_bind,
    Option.bind_some, LiquidExtent.index?]
  by_cases hin : 0 ≤ (x.cell : Int) - e.offsetY.toNat ∧
      (x.cell : Int) - e.offsetY.toNat < e.height.toNat ∧
      0 ≤ (y.cell : Int) - e.offsetX.toNat ∧ (y.cell : Int) - e.offsetX.toNat < e.width.toNat
  · rw [if_pos hin, if_neg (by omega)]
    have hrow : ((x.cell : Int) - e.offsetY.toNat).toNat * e.width.toNat ≤ 255 * 255 :=
      Nat.mul_le_mul (by omega) (by omega)
    simp (disch := omega) only [word32_eq_some, Option.bind_some]
    rfl
  · rw [if_neg hin, if_pos (by omega)]
    rfl

/-- The index of a place in a rectangle is one of its cells. -/
theorem index?_lt {e : LiquidExtent} {x y index : Nat} (h : e.index? x y = some index) :
    index < e.width.toNat * e.height.toNat := by
  unfold LiquidExtent.index? at h
  obtain ⟨⟨hx, hx', hy, hy'⟩, hindex⟩ := Option.ite_none_right_eq_some.1 h
  obtain rfl := Option.some.inj hindex
  -- the rows before this one, and the part of this row
  calc _ < ((x : Int) - e.offsetY.toNat).toNat * e.width.toNat + e.width.toNat := by omega
    _ = (((x : Int) - e.offsetY.toNat).toNat + 1) * e.width.toNat := by rw [Nat.succ_mul]
    _ ≤ e.height.toNat * e.width.toNat := Nat.mul_le_mul_right _ (by omega)
    _ = e.width.toNat * e.height.toNat := Nat.mul_comm _ _

section Liquids

variable {t : Tile} (h : t.WellFormed) (x y : Single)
include h

omit x y in
theorem levelOf_eq {index : Nat}
    (hindex : index < t.liquid.extent.width.toNat * t.liquid.extent.height.toNat) :
    levelOf t.liquid index = some (t.liquid.levelOf index) := by
  unfold levelOf LiquidLayer.levelOf
  cases hlevels : t.liquid.levels with
  | none => rfl
  | some levels => exact getElem?_eq_getD 0 (by rw [h.liquidLevels levels hlevels]; exact hindex)

theorem levelAt_eq : levelAt t.liquid x y = some (t.liquid.levelAt x y) := by
  simp only [levelAt, LiquidLayer.levelAt, place_eq, Option.bind_eq_bind, Option.bind_some,
    rectangleIndex_eq _ (cell_lt x) (cell_lt y)]
  cases hlevels : t.liquid.levels.isNone with
  | true => rfl
  | false =>
    simp only [LiquidLayer.index?]
    cases hindex : t.liquid.extent.index? (finePlace x).cell (finePlace y).cell with
    | none => rfl
    | some index => exact levelOf_eq h (index?_lt hindex)

theorem liquidCell_eq : liquidCell t.liquid (finePlace x) (finePlace y)
    = some (t.liquid.kindAt x y, t.liquid.entryAt x y) := by
  have hx := cell_lt x
  have hy := cell_lt y
  simp only [liquidCell, cellAround_eq, LiquidLayer.kindAt, LiquidLayer.entryAt,
    Option.bind_eq_bind, Option.bind_some]
  cases hcells : t.liquid.cells with
  | none => rfl
  | some cells =>
    obtain ⟨hentries, hkinds⟩ := h.liquidCells cells hcells
    have hcell : LiquidLayer.cellAround x y < 256 := by
      simp only [LiquidLayer.cellAround, coarseCells]
      omega
    simp only [getElem?_eq_getD 0 (hkinds.symm ▸ hcell), getElem?_eq_getD 0 (hentries.symm ▸ hcell),
      Option.bind_some]
    rfl

theorem liquidAt_eq (z : Single) (mask : UInt8) :
    liquidAt t x y z mask = some (t.liquidAt x y z mask) := by
  by_cases hnone : t.liquid.kind = 0 ∧ t.liquid.cells.isNone
  · -- without cells the kind is the low byte of the tile's, which is zero as well
    have hkind : t.liquid.kindAt x y = 0 := by
      simp [LiquidLayer.kindAt, Option.isNone_iff_eq_none.1 hnone.2, hnone.1]
    simp [liquidAt, Tile.liquidAt, hnone, hkind]
  · simp only [liquidAt, if_neg hnone, Tile.liquidAt, place_eq, liquidCell_eq h,
      rectangleIndex_eq _ (cell_lt x) (cell_lt y), Option.bind_eq_bind, Option.bind_some,
      LiquidLayer.index?]
    by_cases hdry :
        (t.liquid.kindAt x y = 0 || (mask ≠ 0 && mask &&& t.liquid.kindAt x y = 0)) = true
    · simp only [if_pos hdry]
      rfl
    simp only [if_neg hdry]
    cases hindex : t.liquid.extent.index? (finePlace x).cell (finePlace y).cell with
    | none => rfl
    | some index =>
      simp only [levelOf_eq h (index?_lt hindex), heightAt_eq h, Option.bind_some]
      by_cases hout : t.liquid.levelOf index < t.heightAt x y ∨ z < t.heightAt x y - 2
      · simp only [if_pos hout]
        rfl
      · simp only [if_neg hout]
        rfl

end Liquids

end Checked

/-! ## Safe tiles -/

/-- No step of a question to the tile fails: no index is outside its row, and no integer outgrows
its width.  For the search of an area this is said of a tile on the map. -/
structure Tile.Safe (t : Tile) : Prop where
  heightAt : ∀ x y, Checked.heightAt t x y = some (t.heightAt x y)
  areaAt : ∀ x y, Checked.areaAt t x y = some (t.areaAt x y)
  areaCentre : ∀ (area : UInt16) (gridX gridY : UInt32), gridX < 64 → gridY < 64 →
    Checked.areaCentre t.area area gridX gridY = some (t.area.find? area gridX gridY)
  cellKindAt : ∀ x y, Checked.cellKindAt t.liquid x y = some (t.liquid.cellKindAt x y)
  levelAt : ∀ x y, Checked.levelAt t.liquid x y = some (t.liquid.levelAt x y)
  liquidAt : ∀ x y z mask, Checked.liquidAt t x y z mask = some (t.liquidAt x y z mask)

/-- **A tile whose rows have the right lengths is safe.** -/
theorem Tile.safe_of_wellFormed {t : Tile} (h : t.WellFormed) : t.Safe where
  heightAt := Checked.heightAt_eq h
  areaAt := Checked.areaAt_eq h
  areaCentre area _ _ hx hy := Checked.areaCentre_eq h area hx hy
  cellKindAt := Checked.cellKindAt_eq h
  levelAt := Checked.levelAt_eq h
  liquidAt := Checked.liquidAt_eq h

end Overland
