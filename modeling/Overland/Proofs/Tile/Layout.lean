import Overland.Proofs.Tile.Reading

/-!
# Where the fields of a section stand

A section is a header of fixed fields, with flags that say which rows of samples follow it.  For
each of the three sections this module says, field by field, where its content stands when the
section starts at a given place of a file, and how many bytes it has:

* the area section has 8 bytes and 512 more for its cells;
* the height section has 16 bytes, some bytes for each of its 129 · 129 + 128 · 128 samples, and 36
  more for the bounds of flight;
* the liquid section has 16 bytes, 768 more for the kinds of its cells and four for each level.

`marked_readArea`, `marked_readHeight` and `marked_readLiquid` say that this is what the three
readers take and answer.  Beyond the end of a file all fields read as zero here, which makes the
contents plain functions of the file and the place; whether a section lies in its file is another
matter.
-/

namespace Overland

/-! ## The header -/

/-- The content of the header: five of its eleven words. -/
def TileHeader.stored (bytes : Bytes) : TileHeader where
  file := bytes.scalar 0
  version := bytes.scalar 4
  area := bytes.scalar 12
  height := bytes.scalar 20
  liquid := bytes.scalar 28

/-- The header has 44 bytes. -/
theorem takes_readHeader (bytes : Bytes) :
    Takes id readHeader bytes 0 44 (TileHeader.stored bytes) := by
  have hword (place : Nat) := takes_read (α := UInt32) bytes place
  exact Takes.congr ((hword _).bind ((hword _).bind ((hword _).bind ((hword _).bind
    ((hword _).bind ((hword _).bind ((hword _).bind ((hword _).bind ((hword _).bind
      ((hword _).bind ((hword _).bind (takes_pure _)))))))))))) rfl rfl

/-! ## Areas -/

namespace AreaLayer

/-- The flags of the area section at a place. -/
def flagsAt (bytes : Bytes) (place : Nat) : UInt16 := bytes.scalar (place + 4)

/-- Number of bytes of the area section at a place. -/
def lengthAt (bytes : Bytes) (place : Nat) : Nat :=
  8 + if flagsAt bytes place &&& noAreaCells = 0 then 2 * 256 else 0

/-- The content of the area section at a place. -/
def storedAt (bytes : Bytes) (place : Nat) : AreaLayer where
  area := bytes.scalar (place + 6)
  cells :=
    if flagsAt bytes place &&& noAreaCells = 0 then some (bytes.scalars (place + 8) 256) else none

end AreaLayer

theorem marked_readArea (bytes : Bytes) (place : Nat) :
    Marked .area .area readArea bytes place (AreaLayer.lengthAt bytes place)
      (AreaLayer.storedAt bytes place) := by
  refine ⟨_, 4 + if AreaLayer.flagsAt bytes place &&& noAreaCells = 0 then 2 * 256 else 0, rfl,
    Nat.add_assoc 4 4 _, ?_⟩
  have hcells := (takes_readMany (α := UInt16) bytes (place + 8) 256 (by decide)).inPart .area
  refine Takes.congr (((takes_read bytes _).inPart _).bind (((takes_read bytes _).inPart _).bind
    (.ite (hcells.bind (takes_pure _)) (takes_pure _)))) (Nat.add_assoc 2 2 _).symm ?_
  by_cases hflag : AreaLayer.flagsAt bytes place &&& noAreaCells = 0
  · rw [AreaLayer.storedAt, if_pos hflag]
    exact if_pos hflag
  · rw [AreaLayer.storedAt, if_neg hflag]
    exact if_neg hflag

/-! ## Heights -/

/-- Number of bytes of a height sample, by the flags of its section: of several flags that say how
samples are stored, the first counts. -/
def sampleWidth (flags : UInt32) : Nat :=
  if flags &&& noHeights ≠ 0 then 0
  else if flags &&& heightsInt16 ≠ 0 then 2
  else if flags &&& heightsInt8 ≠ 0 then 1
  else 4

/-- The samples stored from a place on, the corners before the centres. -/
def Surface.storedAt (mode : HeightMode) (base top : Single) (bytes : Bytes) (place : Nat) :
    Surface Single :=
  match mode with
  | .flat => .flat
  | .float => .float (bytes.scalars place cornerCount)
      (bytes.scalars (place + 4 * cornerCount) centreCount)
  | .int8 => .int8 (bytes.scalars place cornerCount)
      (bytes.scalars (place + cornerCount) centreCount) ((top - base) / 255)
  | .int16 => .int16 (bytes.scalars place cornerCount)
      (bytes.scalars (place + 2 * cornerCount) centreCount) ((top - base) / 65535)

namespace HeightLayer

/-- The flags of the height section at a place. -/
def flagsAt (bytes : Bytes) (place : Nat) : UInt32 := bytes.scalar (place + 4)

/-- Number of bytes of the samples of the height section at a place. -/
def samplesLengthAt (bytes : Bytes) (place : Nat) : Nat :=
  sampleWidth (flagsAt bytes place) * (129 * 129 + 128 * 128)

/-- Number of bytes of the height section at a place. -/
def lengthAt (bytes : Bytes) (place : Nat) : Nat :=
  16 + (samplesLengthAt bytes place
    + if flagsAt bytes place &&& hasFlightBounds ≠ 0 then 36 else 0)

/-- The bounds of flight of the height section at a place: they follow the samples. -/
def flightBoundsAt (bytes : Bytes) (place : Nat) : Option FlightBounds :=
  if flagsAt bytes place &&& hasFlightBounds ≠ 0 then
    some ⟨bytes.scalars (place + 16 + samplesLengthAt bytes place) 9,
      bytes.scalars (place + 16 + samplesLengthAt bytes place + 18) 9⟩
  else none

/-- The content of the height section at a place. -/
def storedAt (bytes : Bytes) (place : Nat) : HeightLayer Single where
  base := bytes.scalar (place + 8)
  surface := .storedAt (.ofFlags (flagsAt bytes place)) (bytes.scalar (place + 8))
    (bytes.scalar (place + 12)) bytes (place + 16)
  flightBounds := flightBoundsAt bytes place

end HeightLayer

/-- Two rows of samples, one after the other, take the bytes of both. -/
theorem takes_samples {α : Type} [Scalar α] (bytes : Bytes) (place : Nat)
    (hwidth : Scalar.width α ≤ 4) (surface : Array α → Array α → Surface Single) :
    Takes (.truncated .height)
      (do
        let corners ← TileReader.inPart .height (Buffer.readMany α cornerCount)
        let centres ← TileReader.inPart .height (Buffer.readMany α centreCount)
        return surface corners centres)
      bytes place (Scalar.width α * (129 * 129 + 128 * 128))
      (surface (bytes.scalars place cornerCount)
        (bytes.scalars (place + cornerCount * Scalar.width α) centreCount)) := by
  have hlimit : Buffer.positionLimit = 18446744073709551616 := rfl
  have hcorners : cornerCount * Scalar.width α = 129 * 129 * Scalar.width α := rfl
  have hcentres : centreCount * Scalar.width α = 128 * 128 * Scalar.width α := rfl
  refine Takes.congr (((takes_readMany bytes _ _ (by omega)).inPart _).bind
    (((takes_readMany bytes _ _ (by omega)).inPart _).bind (takes_pure _))) (by omega) rfl

theorem takes_readSurface (flags : UInt32) (base top : Single) (bytes : Bytes) (place : Nat) :
    Takes (.truncated .height) (readSurface (.ofFlags flags) base top) bytes place
      (sampleWidth flags * (129 * 129 + 128 * 128))
      (.storedAt (.ofFlags flags) base top bytes place) := by
  unfold HeightMode.ofFlags sampleWidth
  split
  · exact takes_pure _
  split
  · exact takes_samples (α := UInt16) bytes place (by decide) fun corners centres =>
      .int16 corners centres (stepFactor base top 65535)
  split
  · exact takes_samples (α := UInt8) bytes place (by decide) fun corners centres =>
      .int8 corners centres (stepFactor base top 255)
  · exact takes_samples (α := Single) bytes place (by decide) .float

theorem takes_readFlightBounds (flags : UInt32) (bytes : Bytes) (place : Nat) :
    Takes (.truncated .height) (readFlightBounds flags) bytes place
      (if flags &&& hasFlightBounds ≠ 0 then 36 else 0)
      (if flags &&& hasFlightBounds ≠ 0 then
        some ⟨bytes.scalars place 9, bytes.scalars (place + 18) 9⟩ else none) := by
  have hbounds (place : Nat) :=
    (takes_readMany (α := Int16) bytes place 9 (by decide)).inPart .height
  exact Takes.congr (.ite ((hbounds _).bind ((hbounds _).bind (takes_pure _))) (takes_pure _)) rfl
    rfl

theorem marked_readHeight (bytes : Bytes) (place : Nat) :
    Marked .height .height readHeight bytes place (HeightLayer.lengthAt bytes place)
      (HeightLayer.storedAt bytes place) := by
  refine ⟨_, 12 + (HeightLayer.samplesLengthAt bytes place
    + if HeightLayer.flagsAt bytes place &&& hasFlightBounds ≠ 0 then 36 else 0), rfl,
    Nat.add_assoc 4 12 _, ?_⟩
  have hsum (samples bounds : Nat) :
      4 + (4 + (4 + (samples + (bounds + 0)))) = 12 + (samples + bounds) := by omega
  exact Takes.congr (((takes_read bytes _).inPart _).bind (((takes_read bytes _).inPart _).bind
    (((takes_read bytes _).inPart _).bind ((takes_readSurface _ _ _ bytes _).bind
      ((takes_readFlightBounds _ bytes _).bind (takes_pure _)))))) (hsum _ _) rfl

/-! ## Liquids -/

namespace LiquidLayer

/-- The flags of the liquid section at a place. -/
def flagsAt (bytes : Bytes) (place : Nat) : UInt16 := bytes.scalar (place + 4)

/-- The rectangle of the liquid section at a place. -/
def extentAt (bytes : Bytes) (place : Nat) : LiquidExtent where
  offsetX := bytes.scalar (place + 8)
  offsetY := bytes.scalar (place + 9)
  width := bytes.scalar (place + 10)
  height := bytes.scalar (place + 11)

/-- Number of levels in the rectangle of the liquid section at a place. -/
def levelCountAt (bytes : Bytes) (place : Nat) : Nat :=
  (extentAt bytes place).width.toNat * (extentAt bytes place).height.toNat

/-- Number of bytes of the cells of the liquid section at a place. -/
def cellsLengthAt (bytes : Bytes) (place : Nat) : Nat :=
  if flagsAt bytes place &&& noLiquidCells = 0 then 768 else 0

/-- Number of bytes of the liquid section at a place. -/
def lengthAt (bytes : Bytes) (place : Nat) : Nat :=
  16 + (cellsLengthAt bytes place
    + if flagsAt bytes place &&& noLiquidLevels = 0 then 4 * levelCountAt bytes place else 0)

/-- The content of the liquid section at a place. -/
def storedAt (bytes : Bytes) (place : Nat) : LiquidLayer where
  kind := bytes.scalar (place + 6)
  extent := extentAt bytes place
  level := bytes.scalar (place + 12)
  cells :=
    if flagsAt bytes place &&& noLiquidCells = 0 then
      some ⟨bytes.scalars (place + 16) 256, bytes.scalars (place + 16 + 512) 256⟩
    else none
  levels :=
    if flagsAt bytes place &&& noLiquidLevels = 0 then
      some (bytes.scalars (place + 16 + cellsLengthAt bytes place) (levelCountAt bytes place))
    else none

end LiquidLayer

theorem takes_readLiquidCells (flags : UInt16) (bytes : Bytes) (place : Nat) :
    Takes (.truncated .liquid) (readLiquidCells flags) bytes place
      (if flags &&& noLiquidCells = 0 then 768 else 0)
      (if flags &&& noLiquidCells = 0 then
        some ⟨bytes.scalars place 256, bytes.scalars (place + 512) 256⟩ else none) := by
  have hentries := (takes_readMany (α := UInt16) bytes place 256 (by decide)).inPart .liquid
  have hkinds := (takes_readMany (α := UInt8) bytes (place + 512) 256 (by decide)).inPart
    .liquid
  exact Takes.congr (.ite (hentries.bind (hkinds.bind (takes_pure _))) (takes_pure _)) rfl rfl

theorem takes_readLiquidLevels (flags : UInt16) (extent : LiquidExtent) (bytes : Bytes)
    (place : Nat) :
    Takes (.truncated .liquid) (readLiquidLevels flags extent) bytes place
      (if flags &&& noLiquidLevels = 0 then 4 * (extent.width.toNat * extent.height.toNat) else 0)
      (if flags &&& noLiquidLevels = 0 then
        some (bytes.scalars place (extent.width.toNat * extent.height.toNat)) else none) := by
  have hcount : extent.width.toNat * extent.height.toNat ≤ 255 * 255 :=
    Nat.mul_le_mul (Nat.le_of_lt_succ extent.width.toNat_lt)
      (Nat.le_of_lt_succ extent.height.toNat_lt)
  have hlimit : Buffer.positionLimit = 18446744073709551616 := rfl
  have hlevels := (takes_readMany (α := Single) bytes place
    (extent.width.toNat * extent.height.toNat) (by rw [Scalar.width_single]; omega)).inPart .liquid
  refine Takes.congr (.ite (hlevels.bind (takes_pure _)) (takes_pure _)) ?_ rfl
  rw [Scalar.width_single, Nat.mul_comm _ 4]
  rfl

theorem marked_readLiquid (bytes : Bytes) (place : Nat) :
    Marked .liquid .liquid readLiquid bytes place (LiquidLayer.lengthAt bytes place)
      (LiquidLayer.storedAt bytes place) := by
  refine ⟨_, 12 + (LiquidLayer.cellsLengthAt bytes place
    + if LiquidLayer.flagsAt bytes place &&& noLiquidLevels = 0 then
        4 * LiquidLayer.levelCountAt bytes place else 0), rfl, Nat.add_assoc 4 12 _, ?_⟩
  have hsum (cells levels : Nat) :
      2 + (2 + (1 + (1 + (1 + (1 + (4 + (cells + (levels + 0)))))))) = 12 + (cells + levels) := by
    omega
  exact Takes.congr (((takes_read bytes _).inPart _).bind (((takes_read bytes _).inPart _).bind
    (((takes_read bytes _).inPart _).bind (((takes_read bytes _).inPart _).bind
      (((takes_read bytes _).inPart _).bind (((takes_read bytes _).inPart _).bind
        (((takes_read bytes _).inPart _).bind ((takes_readLiquidCells _ bytes _).bind
          ((takes_readLiquidLevels _ _ bytes _).bind (takes_pure _)))))))))) (hsum _ _) rfl

end Overland
