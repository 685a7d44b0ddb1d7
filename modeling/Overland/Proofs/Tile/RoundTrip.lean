import Overland.Proofs.Tile.Grammar
import Overland.Tile.Plan

/-!
# What is written is read back

`TilePlan.encode` writes the file of a plan.  Reading it gives the tile of the plan again, field by
field and bit by bit, and so does any other file in which the sections of the plan stand somewhere:

* `SectionForm.Spells` — from a file that holds these bytes, a section with this content is read;
  `AreaLayer.spells`, `HeightPlan.spells` and `LiquidLayer.spells` say so of the three encoders;
* `TilePlan.LaidOut` — a file in which the sections of a plan stand where its header says, and
  `laidOut_encode` — the file that is written is one;
* `decode_laidOut` — reading such a file gives the tile of the plan.
-/

namespace Overland

open Bytes

/-! ## Sections -/

/-- In a file that holds these bytes at a place, the section that starts there has its mark, is as
long as they are and has this content. -/
def SectionForm.Spells {α : Type} (f : SectionForm) (stored : Bytes → Nat → α)
    (written : List UInt8) (a : α) : Prop :=
  ∀ (bytes : Bytes) (place : Nat), bytes.Holds place written →
    bytes.scalar place = f.mark.word ∧ f.lengthAt bytes place = written.length ∧
      stored bytes place = a

/-- A block that is written only if there is one, with a flag that says so: it is read back as what
it is, or as missing. -/
theorem optional_spell {α : Type} {flag : Prop} [Decidable flag] {block : Option α} {read : α}
    {written : List UInt8} {count : Nat} (hflag : flag ↔ block.isSome)
    (hnone : block = none → written = [])
    (hsome : ∀ content, block = some content → read = content ∧ written.length = count) :
    (if flag then some read else none) = block ∧
      written.length = if flag then count else 0 := by
  cases block with
  | none =>
    have hnot : ¬ flag := by simp [hflag]
    rw [if_neg hnot, if_neg hnot, hnone rfl]
    exact ⟨rfl, rfl⟩
  | some content =>
    have hset : flag := by simp [hflag]
    obtain ⟨hread, hlength⟩ := hsome content rfl
    rw [if_pos hset, if_pos hset, hread]
    exact ⟨rfl, hlength⟩

theorem AreaLayer.spells {a : AreaLayer} {t : Tile} (ht : t.WellFormed) (hlayer : t.area = a) :
    SectionForm.area.Spells AreaLayer.storedAt a.encode a := by
  intro bytes place h
  have hsize := ht.area
  rw [hlayer] at hsize
  obtain ⟨area, cells⟩ := a
  cases cells with
  | none =>
    obtain ⟨hmark, h⟩ := h.scalar_append
    obtain ⟨hflags : AreaLayer.flagsAt bytes place = noAreaCells, h⟩ := h.scalar_append
    have harea : bytes.scalar (place + 6) = area := h.scalar
    have hcells : ¬ AreaLayer.flagsAt bytes place &&& noAreaCells = 0 := by
      rw [hflags]
      decide
    refine ⟨hmark, ?_, ?_⟩
    · show AreaLayer.lengthAt bytes place = _
      rw [AreaLayer.lengthAt, if_neg hcells]
      simp [AreaLayer.encode]
    · rw [AreaLayer.storedAt, if_neg hcells, harea]
  | some cells =>
    simp only [AreaLayer.encode, List.append_assoc] at h
    obtain ⟨hmark, h⟩ := h.scalar_append
    obtain ⟨hflags : AreaLayer.flagsAt bytes place = 0, h⟩ := h.scalar_append
    obtain ⟨harea : bytes.scalar (place + 6) = area, h⟩ := h.scalar_append
    have hread : bytes.scalars (place + 8) 256 = cells := h.scalars (hsize cells rfl)
    have hcells : AreaLayer.flagsAt bytes place &&& noAreaCells = 0 := by
      rw [hflags]
      decide
    refine ⟨hmark, ?_, ?_⟩
    · show AreaLayer.lengthAt bytes place = _
      rw [AreaLayer.lengthAt, if_pos hcells]
      simp [AreaLayer.encode, length_ofScalars, hsize cells rfl]
    · rw [AreaLayer.storedAt, if_pos hcells, hread, harea]

/-! ## Heights -/

namespace HeightPlan

variable (h : HeightPlan)

/-- The flags that are written call for the mode of the surface. -/
theorem ofFlags_flags : HeightMode.ofFlags h.flags = h.layerSurface.mode := by
  unfold flags layerSurface
  generalize h.flightBounds.isSome = bounded
  cases h.surface <;> cases bounded <;> simp only [surfaceFlag, Surface.mode] <;> decide

theorem flags_flightBounds : h.flags &&& hasFlightBounds ≠ 0 ↔ h.flightBounds.isSome := by
  unfold flags
  generalize h.flightBounds.isSome = bounded
  cases h.surface <;> cases bounded <;> simp only [surfaceFlag] <;> decide

theorem sampleWidth_flags : sampleWidth h.flags = match h.layerSurface.mode with
    | .flat => 0
    | .float => 4
    | .int8 => 1
    | .int16 => 2 := by
  unfold flags layerSurface
  generalize h.flightBounds.isSome = bounded
  cases h.surface <;> cases bounded <;> simp only [surfaceFlag, Surface.mode] <;> decide

end HeightPlan

/-- Two rows of samples are read back, the corners before the centres. -/
theorem Bytes.Holds.samples {α : Type} [Scalar α] {corners centres : Array α}
    (hcorners : corners.size = 129 * 129) (hcentres : centres.size = 128 * 128) {bytes : Bytes}
    {place : Nat} (h : bytes.Holds place (ofScalars corners ++ ofScalars centres)) :
    bytes.scalars place cornerCount = corners ∧
      bytes.scalars (place + cornerCount * Scalar.width α) centreCount = centres ∧
      (ofScalars corners ++ ofScalars centres).length
        = Scalar.width α * (129 * 129 + 128 * 128) := by
  obtain ⟨hfirst, hrest⟩ := h.scalars_append hcorners
  refine ⟨hfirst, hrest.scalars hcentres, ?_⟩
  rw [List.length_append, length_ofScalars, length_ofScalars, hcorners, hcentres, ← Nat.add_mul,
    Nat.mul_comm]

namespace HeightPlan

variable (h : HeightPlan)

/-- Samples are read back in the mode that their flags call for. -/
theorem samples_spell {t : Tile} (ht : t.WellFormed) (hlayer : t.height = h.layer)
    {bytes : Bytes} {place : Nat} (hholds : bytes.Holds place (encodeSurface h.surface)) :
    Surface.storedAt h.layerSurface.mode h.base h.top bytes place = h.layerSurface ∧
      (encodeSurface h.surface).length = sampleWidth h.flags * (129 * 129 + 128 * 128) := by
  have hsize := ht.surface
  rw [sampleWidth_flags]
  simp only [hlayer, layer, layerSurface] at hsize ⊢
  cases hsurface : h.surface with
  | flat => exact ⟨rfl, (Nat.zero_mul _).symm⟩
  | float corners centres | int8 corners centres | int16 corners centres =>
    rw [hsurface] at hsize hholds
    obtain ⟨hcorners, hcentres, hlength⟩ := hholds.samples hsize.1 hsize.2
    rw [← hcorners, ← hcentres] at hlength ⊢
    exact ⟨rfl, hlength⟩

/-- Bounds of flight are read back behind the samples, if their flag is set. -/
theorem flightBounds_spell {t : Tile} (ht : t.WellFormed) (hlayer : t.height = h.layer)
    {bytes : Bytes} {place : Nat} (hflags : HeightLayer.flagsAt bytes place = h.flags)
    (hholds : bytes.Holds (place + 16 + HeightLayer.samplesLengthAt bytes place)
      (encodeFlightBounds h.flightBounds)) :
    HeightLayer.flightBoundsAt bytes place = h.flightBounds ∧
      (encodeFlightBounds h.flightBounds).length
        = if h.flags &&& hasFlightBounds ≠ 0 then 36 else 0 := by
  have hsize := ht.flightBounds
  rw [hlayer] at hsize
  rw [HeightLayer.flightBoundsAt, hflags]
  apply optional_spell h.flags_flightBounds
  · intro hnone
    rw [hnone]
    rfl
  · intro bounds hbounds
    rw [hbounds] at hholds
    obtain ⟨hceiling, hfloor⟩ := hsize bounds hbounds
    obtain ⟨hfirst, hrest⟩ := hholds.scalars_append hceiling
    refine ⟨?_, ?_⟩
    · rw [hfirst]
      exact congrArg (FlightBounds.mk _) (hrest.scalars hfloor)
    · simp [hbounds, encodeFlightBounds, length_ofScalars, hceiling, hfloor]

theorem spells {t : Tile} (ht : t.WellFormed) (hlayer : t.height = h.layer) :
    SectionForm.height.Spells HeightLayer.storedAt h.encode h.layer := by
  intro bytes place hholds
  simp only [encode, List.append_assoc] at hholds
  obtain ⟨hmark, hholds⟩ := hholds.scalar_append
  obtain ⟨hflags : HeightLayer.flagsAt bytes place = h.flags, hholds⟩ := hholds.scalar_append
  obtain ⟨hbase : bytes.scalar (place + 8) = h.base, hholds⟩ := hholds.scalar_append
  obtain ⟨htop : bytes.scalar (place + 12) = h.top, hholds⟩ := hholds.scalar_append
  obtain ⟨hsurface, hsamples⟩ := h.samples_spell ht hlayer hholds.left
  have hplace : HeightLayer.samplesLengthAt bytes place = (encodeSurface h.surface).length := by
    rw [HeightLayer.samplesLengthAt, hflags, hsamples]
  have hbounds : bytes.Holds (place + 16 + HeightLayer.samplesLengthAt bytes place)
      (encodeFlightBounds h.flightBounds) := by
    rw [hplace]
    exact hholds.right
  obtain ⟨hread, hlength⟩ := h.flightBounds_spell ht hlayer hflags hbounds
  refine ⟨hmark, ?_, ?_⟩
  · show HeightLayer.lengthAt bytes place = _
    rw [HeightLayer.lengthAt, hflags, hplace, ← hlength]
    simp only [encode, List.length_append, length_ofScalar, Scalar.width_uint32,
      Scalar.width_single]
    omega
  · rw [HeightLayer.storedAt, hread, hflags, hbase, htop, ofFlags_flags]
    exact congrArg (HeightLayer.mk _ · _) hsurface

end HeightPlan

/-! ## Liquids -/

namespace LiquidLayer

variable (l : LiquidLayer)

theorem flags_cells : l.flags &&& noLiquidCells = 0 ↔ l.cells.isSome := by
  unfold flags
  cases l.cells.isSome <;> cases l.levels.isSome <;> decide

theorem flags_levels : l.flags &&& noLiquidLevels = 0 ↔ l.levels.isSome := by
  unfold flags
  cases l.cells.isSome <;> cases l.levels.isSome <;> decide

/-- The kinds of the cells are read back, if their flag is not set. -/
theorem cells_spell {t : Tile} (ht : t.WellFormed) (hlayer : t.liquid = l) {bytes : Bytes}
    {place : Nat} (hholds : bytes.Holds place (encodeCells l.cells)) :
    (if l.flags &&& noLiquidCells = 0 then
        some (LiquidCells.mk (bytes.scalars place 256) (bytes.scalars (place + 512) 256))
      else none) = l.cells ∧
      (encodeCells l.cells).length = if l.flags &&& noLiquidCells = 0 then 768 else 0 := by
  have hsize := ht.liquidCells
  rw [hlayer] at hsize
  apply optional_spell l.flags_cells
  · intro hnone
    rw [hnone]
    rfl
  · intro cells hcells
    rw [hcells] at hholds
    obtain ⟨hentries, hkinds⟩ := hsize cells hcells
    obtain ⟨hfirst, hrest⟩ := hholds.scalars_append hentries
    refine ⟨?_, ?_⟩
    · rw [hfirst]
      exact congrArg (LiquidCells.mk _) (hrest.scalars hkinds)
    · simp [hcells, encodeCells, length_ofScalars, hentries, hkinds]

/-- The levels of the rectangle are read back, if their flag is not set. -/
theorem levels_spell {t : Tile} (ht : t.WellFormed) (hlayer : t.liquid = l) {bytes : Bytes}
    {place : Nat} (hholds : bytes.Holds place (encodeLevels l.levels)) :
    (if l.flags &&& noLiquidLevels = 0 then
        some (bytes.scalars place (l.extent.width.toNat * l.extent.height.toNat))
      else none) = l.levels ∧
      (encodeLevels l.levels).length
        = if l.flags &&& noLiquidLevels = 0 then
            4 * (l.extent.width.toNat * l.extent.height.toNat) else 0 := by
  have hsize := ht.liquidLevels
  rw [hlayer] at hsize
  apply optional_spell l.flags_levels
  · intro hnone
    rw [hnone]
    rfl
  · intro levels hlevels
    rw [hlevels] at hholds ⊢
    refine ⟨hholds.scalars (hsize levels hlevels), ?_⟩
    rw [encodeLevels, length_ofScalars, hsize levels hlevels, Nat.mul_comm]
    rfl

theorem spells {t : Tile} (ht : t.WellFormed) (hlayer : t.liquid = l) :
    SectionForm.liquid.Spells LiquidLayer.storedAt l.encode l := by
  intro bytes place hholds
  simp only [encode, List.append_assoc] at hholds
  obtain ⟨hmark, hholds⟩ := hholds.scalar_append
  obtain ⟨hflags : flagsAt bytes place = l.flags, hholds⟩ := hholds.scalar_append
  obtain ⟨hkind : bytes.scalar (place + 6) = l.kind, hholds⟩ := hholds.scalar_append
  obtain ⟨hx : bytes.scalar (place + 8) = l.extent.offsetX, hholds⟩ := hholds.scalar_append
  obtain ⟨hy : bytes.scalar (place + 9) = l.extent.offsetY, hholds⟩ := hholds.scalar_append
  obtain ⟨hwidth : bytes.scalar (place + 10) = l.extent.width, hholds⟩ := hholds.scalar_append
  obtain ⟨hheight : bytes.scalar (place + 11) = l.extent.height, hholds⟩ := hholds.scalar_append
  obtain ⟨hlevel : bytes.scalar (place + 12) = l.level, hholds⟩ := hholds.scalar_append
  have hextent : extentAt bytes place = l.extent := by
    rw [extentAt, hx, hy, hwidth, hheight]
  obtain ⟨hcells, hcellsLength⟩ := l.cells_spell ht hlayer hholds.left
  have hplace : cellsLengthAt bytes place = (encodeCells l.cells).length := by
    rw [cellsLengthAt, hflags, hcellsLength]
  obtain ⟨hlevels, hlevelsLength⟩ := l.levels_spell ht hlayer hholds.right
  refine ⟨hmark, ?_, ?_⟩
  · show lengthAt bytes place = _
    rw [lengthAt, levelCountAt, hextent, hflags, hplace, ← hlevelsLength]
    simp only [encode, List.length_append, length_ofScalar, Scalar.width_uint32,
      Scalar.width_uint16, Scalar.width_uint8, Scalar.width_single]
    omega
  · rw [storedAt, levelCountAt, hextent, hflags, hplace, hkind, hlevel]
    exact (congrArg (LiquidLayer.mk _ _ _ · _) hcells).trans (congrArg _ hlevels)

end LiquidLayer

/-! ## Files in which the sections stand somewhere -/

/-- The section stands in the file where the header says: a missing one has offset zero, and the
bytes of any other are held at its offset, which is not zero. -/
def SectionForm.Stands (f : SectionForm) (bytes : Bytes) : Option (List UInt8) → Prop
  | none => f.offset bytes = 0
  | some written => f.offset bytes ≠ 0 ∧ bytes.Holds (f.place bytes) written

/-- A section that stands in a file fits into it, and its content is what it was written from. -/
theorem SectionForm.Stands.content {α β : Type} {f : SectionForm} {bytes : Bytes}
    {stored : Bytes → Nat → α} {encode : β → List UInt8} {planned : Option β}
    (h : f.Stands bytes (planned.map encode)) (layer : β → α)
    (hspells : ∀ b, planned = some b → f.Spells stored (encode b) (layer b)) (absent : α) :
    f.Fits bytes ∧ f.content bytes absent stored = (planned.map layer).getD absent := by
  cases planned with
  | none => exact ⟨Or.inl h, if_pos h⟩
  | some b =>
    obtain ⟨hoffset, hholds⟩ := h
    obtain ⟨hmark, hlength, hcontent⟩ := hspells b rfl bytes _ hholds
    refine ⟨Or.inr ⟨hmark, ?_⟩, (if_neg hoffset).trans hcontent⟩
    rw [hlength]
    exact hholds.le_size

namespace TilePlan

/-- A file in which the sections of a plan stand, behind a header or inside it, over each other or
apart, with anything around them. -/
structure LaidOut (p : TilePlan) (bytes : Bytes) : Prop where
  header : 44 ≤ bytes.size
  file : bytes.scalar 0 = Mark.file.word
  version : bytes.scalar 4 = Mark.version.word
  area : SectionForm.area.Stands bytes (p.area.map AreaLayer.encode)
  height : SectionForm.height.Stands bytes (p.height.map HeightPlan.encode)
  liquid : SectionForm.liquid.Stands bytes (p.liquid.map LiquidLayer.encode)

variable {p : TilePlan}

theorem Valid.area_spells (hv : p.Valid) {a : AreaLayer} (h : p.area = some a) :
    SectionForm.area.Spells AreaLayer.storedAt a.encode a :=
  AreaLayer.spells hv (by simp [tile, h])

theorem Valid.height_spells (hv : p.Valid) {h : HeightPlan} (hp : p.height = some h) :
    SectionForm.height.Spells HeightLayer.storedAt h.encode h.layer :=
  h.spells hv (by simp [tile, hp])

theorem Valid.liquid_spells (hv : p.Valid) {l : LiquidLayer} (h : p.liquid = some l) :
    SectionForm.liquid.Spells LiquidLayer.storedAt l.encode l :=
  l.spells hv (by simp [tile, h])

/-- A file in which the sections of a plan stand is read as the tile of the plan. -/
theorem LaidOut.decode_eq (hv : p.Valid) {bytes : Bytes} (h : p.LaidOut bytes) :
    Tile.decode bytes = .ok p.tile := by
  obtain ⟨hareaFits, harea⟩ := h.area.content id (fun _ => hv.area_spells) .absent
  obtain ⟨hheightFits, hheight⟩ := h.height.content _ (fun _ => hv.height_spells) .absent
  obtain ⟨hliquidFits, hliquid⟩ := h.liquid.content id (fun _ => hv.liquid_spells) .absent
  have hholds : ∀ c : Tile.Condition, c.Holds bytes := by
    intro c
    cases c
    case header => exact h.header
    case fileMark => exact h.file
    case versionMark => exact h.version
    case area => exact hareaFits
    case height => exact hheightFits
    case liquid => exact hliquidFits
  rw [Tile.decode_of_holds hholds, Tile.stored, harea, hheight, hliquid, Option.map_id,
    Option.map_id]
  rfl

end TilePlan

/-! ## The file of a plan -/

theorem AreaLayer.lengthAt_le (bytes : Bytes) (place : Nat) : lengthAt bytes place ≤ 520 := by
  unfold lengthAt
  split <;> omega

theorem HeightLayer.lengthAt_le (bytes : Bytes) (place : Nat) : lengthAt bytes place ≤ 132152 := by
  have hwidth : sampleWidth (flagsAt bytes place) ≤ 4 := by
    unfold sampleWidth
    repeat' split
    all_goals omega
  unfold lengthAt samplesLengthAt
  split <;> omega

/-- What spells a section is no longer than the section can be. -/
theorem SectionForm.Spells.length_le {α : Type} {f : SectionForm} {stored : Bytes → Nat → α}
    {written : List UInt8} {a : α} {bound : Nat} (h : f.Spells stored written a)
    (hbound : ∀ bytes place, f.lengthAt bytes place ≤ bound) : written.length ≤ bound := by
  obtain ⟨-, hlength, -⟩ := h written.toArray 0 (holds_toArray written)
  rw [← hlength]
  exact hbound _ _

namespace TilePlan

theorem length_sectionBytes_le {β : Type} {encode : β → List UInt8} {planned : Option β}
    {bound : Nat} (h : ∀ b, planned = some b → (encode b).length ≤ bound) :
    (sectionBytes encode planned).length ≤ bound := by
  cases planned with
  | none => exact Nat.zero_le _
  | some b => exact h b rfl

/-- A section that is written at its offset stands there. -/
theorem stands_sectionBytes {β : Type} {f : SectionForm} {bytes : Bytes}
    {encode : β → List UInt8} {planned : Option β} {place : Nat}
    (hoffset : f.offset bytes = sectionOffset place planned) (hpos : 0 < place)
    (hlt : place < UInt32.size) (hholds : bytes.Holds place (sectionBytes encode planned)) :
    f.Stands bytes (planned.map encode) := by
  cases planned with
  | none => exact hoffset
  | some b =>
    have hplace : f.place bytes = place := by
      rw [SectionForm.place, hoffset]
      exact UInt32.toNat_ofNat_of_lt' hlt
    refine ⟨?_, ?_⟩
    · intro hzero
      rw [SectionForm.place, hzero] at hplace
      exact absurd hplace (Nat.ne_of_lt hpos)
    · rw [hplace]
      exact hholds

/-- In the file of a plan its sections stand one after the other behind the header. -/
theorem laidOut_encode {p : TilePlan} (hv : p.Valid) : p.LaidOut p.encode := by
  have hholds : p.encode.Holds 0 _ := holds_toArray _
  simp only [List.append_assoc] at hholds
  have hword (i : Nat) (hi : i < 11) := hholds.left.scalar_getElem i hi
  have harea : p.encode.Holds 44 _ := hholds.right
  have hheight := harea.right
  have hareaLength := length_sectionBytes_le fun a ha =>
    (hv.area_spells ha).length_le AreaLayer.lengthAt_le
  have hheightLength := length_sectionBytes_le fun h hp =>
    (hv.height_spells hp).length_le HeightLayer.lengthAt_le
  have hlimit : UInt32.size = 4294967296 := rfl
  have hheaderSize : tileHeaderSize = 44 := rfl
  exact {
    header := Nat.le_trans (Nat.le_add_right _ _) harea.le_size
    file := hword 0 (by decide)
    version := hword 1 (by decide)
    area := stands_sectionBytes (hword 3 (by decide)) (by decide) (by decide) harea.left
    height := stands_sectionBytes (hword 5 (by decide)) (Nat.lt_add_right _ (by decide))
      (by omega) hheight.left
    liquid := stands_sectionBytes (hword 7 (by decide)) (by omega) (by omega) hheight.right }

/-- **What is written is read back.**  The file of a plan is read as the tile of the plan, every
field and every sample of it, and so is any other file in which the sections of the plan stand where
the header says.  A section that is not planned leaves its layer absent. -/
theorem read_back (p : TilePlan) (hv : p.Valid) :
    Tile.decode p.encode = .ok p.tile ∧
      ∀ bytes, p.LaidOut bytes → Tile.decode bytes = .ok p.tile :=
  ⟨(laidOut_encode hv).decode_eq hv, fun _ => LaidOut.decode_eq hv⟩

/-- A plan with all that a file can hold. -/
def lakeside : TilePlan where
  build := 8606
  area := some ⟨7, some (Array.ofFn fun i : Fin 256 => UInt16.ofNat (1000 + i))⟩
  height := some {
    base := -10
    top := 110
    surface := .int16 (Array.ofFn fun i : Fin (129 * 129) => UInt16.ofNat (7 * i))
      (Array.ofFn fun i : Fin (128 * 128) => UInt16.ofNat (65535 - i))
    flightBounds := some ⟨Array.replicate 9 500, Array.replicate 9 (-500)⟩ }
  liquid := some {
    kind := 3
    extent := ⟨10, 20, 5, 4⟩
    level := 30
    cells := some ⟨Array.ofFn fun i : Fin 256 => UInt16.ofNat i, Array.replicate 256 4⟩
    levels := some (Array.replicate 20 31) }

theorem lakeside_valid : lakeside.Valid where
  area cells h := by
    rw [← Option.some.inj h]
    exact Array.size_ofFn
  surface := ⟨Array.size_ofFn, Array.size_ofFn⟩
  flightBounds bounds h := by
    rw [← Option.some.inj h]
    exact ⟨Array.size_replicate, Array.size_replicate⟩
  liquidCells cells h := by
    rw [← Option.some.inj h]
    simp only [Array.size_ofFn, Array.size_replicate, and_self]
  liquidLevels levels h := by
    rw [← Option.some.inj h]
    exact Array.size_replicate

theorem lakeside_read_back :
    lakeside.Valid ∧ Tile.decode lakeside.encode = .ok lakeside.tile :=
  ⟨lakeside_valid, (read_back lakeside lakeside_valid).1⟩

end TilePlan

end Overland
