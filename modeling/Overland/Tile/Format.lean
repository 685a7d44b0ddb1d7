import Overland.Bytes.Buffer
import Overland.Tile.Layer

/-!
# The tile file

A tile file starts with a header of eleven words: the mark of the format, the mark of its version, a
build number, and four pairs of offset and size, for the area, height and liquid sections and for
one that is not used here.  A section with offset zero is missing; any other may lie anywhere in the
file. Each starts with a mark of its own and with flags that say which of its parts follow.

`decode` reads a file.  Sizes are never looked at: a section takes the bytes that its flags call
for, and `DecodeFault` says where they ended or which mark was wrong.
-/

namespace Overland

/-! ## Marks and faults -/

/-- The places of a tile file that hold a mark. -/
inductive Mark where
  | file
  | version
  | area
  | height
  | liquid
  deriving DecidableEq, Repr

namespace Mark

/-- The four characters of a mark. -/
def letters : Mark → List Char
  | .file => ['M', 'A', 'P', 'S']
  | .version => ['v', '1', '.', '8']
  | .area => ['A', 'R', 'E', 'A']
  | .height => ['M', 'H', 'G', 'T']
  | .liquid => ['M', 'L', 'I', 'Q']

/-- A mark as a word, its first character in the lowest byte. -/
def word (m : Mark) : UInt32 :=
  m.letters.foldr (fun c w => UInt32.ofNat c.toNat + 256 * w) 0

/-- The name of a mark. -/
def name : Mark → String
  | .file => "map"
  | .version => "map version"
  | .area => "area"
  | .height => "height"
  | .liquid => "liquid"

end Mark

/-- The parts of a tile file. -/
inductive Section where
  | header
  | area
  | height
  | liquid
  deriving DecidableEq, Repr

/-- The name of a part. -/
def Section.name : Section → String
  | .header => "file header"
  | .area => "area"
  | .height => "height"
  | .liquid => "liquid"

/-- Why a file is no tile. -/
inductive DecodeFault where
  /-- Another word stands where a mark should be. -/
  | wrongMark (mark : Mark) (found : UInt32)
  /-- The file ends inside a part. -/
  | truncated (part : Section) (cause : ReadError)
  deriving DecidableEq, Repr

/-- The text of a fault. -/
def DecodeFault.message : DecodeFault → String
  | .wrongMark mark found =>
    s!"{mark.name} magic mismatch: expected {Text.hexWord mark.word}, found {Text.hexWord found}"
  | .truncated part cause => s!"truncated {part.name} section: {cause.message}"

/-! ## Reading parts -/

/-- A step that reads from a tile file. -/
abbrev TileReader (α : Type) := StateT Buffer (Except DecodeFault) α

namespace TileReader

/-- A read inside a part of the file. -/
def inPart {α : Type} (part : Section) (reader : Reader α) : TileReader α := fun b =>
  match reader b with
  | .ok result => .ok result
  | .error cause => .error (.truncated part cause)

/-- Fails unless the word that was found is the mark. -/
def expect (mark : Mark) (found : UInt32) : TileReader Unit := fun b =>
  if found = mark.word then .ok ((), b) else .error (.wrongMark mark found)

end TileReader

open TileReader

/-- What a header says: the two marks and the offsets of the three sections. -/
structure TileHeader where
  file : UInt32
  version : UInt32
  area : UInt32
  height : UInt32
  liquid : UInt32
  deriving DecidableEq, Repr

/-- Reads the eleven words of a header. -/
def readHeader : Reader TileHeader := do
  let file ← Buffer.read UInt32
  let version ← Buffer.read UInt32
  let _build ← Buffer.read UInt32
  let area ← Buffer.read UInt32
  let _areaSize ← Buffer.read UInt32
  let height ← Buffer.read UInt32
  let _heightSize ← Buffer.read UInt32
  let liquid ← Buffer.read UInt32
  let _liquidSize ← Buffer.read UInt32
  let _holes ← Buffer.read UInt32
  let _holesSize ← Buffer.read UInt32
  return { file, version, area, height, liquid }

/-! ## Flags -/

/-- The tile does not tell its area cells apart. -/
def noAreaCells : UInt16 := 1

/-- The tile is flat. -/
def noHeights : UInt32 := 1

/-- Heights are stored as steps of two bytes. -/
def heightsInt16 : UInt32 := 2

/-- Heights are stored as steps of one byte. -/
def heightsInt8 : UInt32 := 4

/-- Bounds of flight follow the heights. -/
def hasFlightBounds : UInt32 := 8

/-- The liquid has one kind in the whole tile. -/
def noLiquidCells : UInt16 := 1

/-- The liquid has one level in the whole tile. -/
def noLiquidLevels : UInt16 := 2

/-- The mode of heights that flags call for: of several flags, the first counts. -/
def HeightMode.ofFlags (flags : UInt32) : HeightMode :=
  if flags &&& noHeights ≠ 0 then .flat
  else if flags &&& heightsInt16 ≠ 0 then .int16
  else if flags &&& heightsInt8 ≠ 0 then .int8
  else .float

/-! ## Sections -/

/-- Number of area cells of a tile. -/
def areaCellCount : Nat := coarseCells * coarseCells

/-- Number of height samples at corners. -/
def cornerCount : Nat := cornersPerEdge * cornersPerEdge

/-- Number of height samples at centres. -/
def centreCount : Nat := centresPerEdge * centresPerEdge

/-- Number of flight bounds of either side. -/
def flightBoundCount : Nat := 9

/-- Reads an area section. -/
def readArea : TileReader AreaLayer := do
  let mark ← inPart .area (Buffer.read UInt32)
  expect .area mark
  let flags ← inPart .area (Buffer.read UInt16)
  let area ← inPart .area (Buffer.read UInt16)
  if flags &&& noAreaCells = 0 then
    let cells ← inPart .area (Buffer.readMany UInt16 areaCellCount)
    return ⟨area, some cells⟩
  else return ⟨area, none⟩

/-- The factor that turns steps into heights: the whole range over the largest count of steps. -/
def stepFactor (base top : Single) (largest : Nat) : Single := (top - base) / Single.ofInt largest

/-- Reads the samples of a height section. -/
def readSurface (mode : HeightMode) (base top : Single) : TileReader (Surface Single) := do
  match mode with
  | .flat => return .flat
  | .float =>
    let corners ← inPart .height (Buffer.readMany Single cornerCount)
    let centres ← inPart .height (Buffer.readMany Single centreCount)
    return .float corners centres
  | .int8 =>
    let corners ← inPart .height (Buffer.readMany UInt8 cornerCount)
    let centres ← inPart .height (Buffer.readMany UInt8 centreCount)
    return .int8 corners centres (stepFactor base top 255)
  | .int16 =>
    let corners ← inPart .height (Buffer.readMany UInt16 cornerCount)
    let centres ← inPart .height (Buffer.readMany UInt16 centreCount)
    return .int16 corners centres (stepFactor base top 65535)

/-- Reads the bounds of flight that flags call for. -/
def readFlightBounds (flags : UInt32) : TileReader (Option FlightBounds) := do
  if flags &&& hasFlightBounds ≠ 0 then
    let ceiling ← inPart .height (Buffer.readMany Int16 flightBoundCount)
    let floor ← inPart .height (Buffer.readMany Int16 flightBoundCount)
    return some ⟨ceiling, floor⟩
  else return none

/-- Reads a height section. -/
def readHeight : TileReader (HeightLayer Single) := do
  let mark ← inPart .height (Buffer.read UInt32)
  expect .height mark
  let flags ← inPart .height (Buffer.read UInt32)
  let base ← inPart .height (Buffer.read Single)
  let top ← inPart .height (Buffer.read Single)
  let surface ← readSurface (.ofFlags flags) base top
  let flightBounds ← readFlightBounds flags
  return ⟨base, surface, flightBounds⟩

/-- Reads the kinds of liquid of the cells that flags call for. -/
def readLiquidCells (flags : UInt16) : TileReader (Option LiquidCells) := do
  if flags &&& noLiquidCells = 0 then
    let entries ← inPart .liquid (Buffer.readMany UInt16 areaCellCount)
    let kinds ← inPart .liquid (Buffer.readMany UInt8 areaCellCount)
    return some ⟨entries, kinds⟩
  else return none

/-- Reads the levels of the rectangle that flags call for. -/
def readLiquidLevels (flags : UInt16) (extent : LiquidExtent) :
    TileReader (Option (Array Single)) := do
  if flags &&& noLiquidLevels = 0 then
    let levels ← inPart .liquid
      (Buffer.readMany Single (extent.width.toNat * extent.height.toNat))
    return some levels
  else return none

/-- Reads a liquid section. -/
def readLiquid : TileReader LiquidLayer := do
  let mark ← inPart .liquid (Buffer.read UInt32)
  expect .liquid mark
  let flags ← inPart .liquid (Buffer.read UInt16)
  let kind ← inPart .liquid (Buffer.read UInt16)
  let offsetX ← inPart .liquid (Buffer.read UInt8)
  let offsetY ← inPart .liquid (Buffer.read UInt8)
  let width ← inPart .liquid (Buffer.read UInt8)
  let height ← inPart .liquid (Buffer.read UInt8)
  let level ← inPart .liquid (Buffer.read Single)
  let extent : LiquidExtent := ⟨offsetX, offsetY, width, height⟩
  let cells ← readLiquidCells flags
  let levels ← readLiquidLevels flags extent
  return ⟨kind, extent, level, cells, levels⟩

/-! ## Files -/

/-- Reads the section at an offset, which is missing if the offset is zero. -/
def sectionAt {α : Type} (bytes : Bytes) (offset : UInt32) (absent : α) (reader : TileReader α) :
    Except DecodeFault α :=
  if offset = 0 then .ok absent
  else reader.run' ((Buffer.ofBytes bytes).seek offset.toNat)

/-- Reads and checks the header of a file. -/
def headerOf (bytes : Bytes) : Except DecodeFault TileHeader := do
  let reader : TileReader TileHeader := do
    let header ← inPart .header readHeader
    expect .file header.file
    expect .version header.version
    return header
  reader.run' (Buffer.ofBytes bytes)

/-- Reads a tile file. -/
def Tile.decode (bytes : Bytes) : Except DecodeFault Tile := do
  let header ← headerOf bytes
  let area ← sectionAt bytes header.area .absent readArea
  let height ← sectionAt bytes header.height .absent readHeight
  let liquid ← sectionAt bytes header.liquid .absent readLiquid
  return ⟨area, height, liquid⟩

end Overland
