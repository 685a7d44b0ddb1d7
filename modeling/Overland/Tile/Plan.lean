import Overland.Tile.Format

/-!
# Writing tile files

A `TilePlan` is what a tile file is made from: for each section either nothing or its content.
Heights are planned with the top of their range, which a file holds and a tile does not.
`TilePlan.encode` lays the sections out one after the other behind the header, and `TilePlan.tile`
is the tile that such a file is meant to be read as.

`TilePlan.Valid` says that each row of samples has the length that a file gives it.
-/

namespace Overland

/-- The samples of a planned height section. -/
inductive PlannedSurface where
  | flat
  | float (corners centres : Array Single)
  | int8 (corners centres : Array UInt8)
  | int16 (corners centres : Array UInt16)
  deriving DecidableEq, Repr

/-- A planned height section. -/
structure HeightPlan where
  base : Single
  top : Single
  surface : PlannedSurface
  flightBounds : Option FlightBounds
  deriving DecidableEq, Repr

/-- A planned tile file. -/
structure TilePlan where
  build : UInt32
  area : Option AreaLayer
  height : Option HeightPlan
  liquid : Option LiquidLayer
  deriving DecidableEq, Repr

/-! ## The tile of a plan -/

namespace HeightPlan

/-- The surface of a planned height section.  Steps divide the planned range evenly, the largest
count standing for its top. -/
def layerSurface (h : HeightPlan) : Surface Single :=
  match h.surface with
  | .flat => .flat
  | .float corners centres => .float corners centres
  | .int8 corners centres => .int8 corners centres ((h.top - h.base) / 255)
  | .int16 corners centres => .int16 corners centres ((h.top - h.base) / 65535)

/-- The heights of a planned height section. -/
def layer (h : HeightPlan) : HeightLayer Single := ⟨h.base, h.layerSurface, h.flightBounds⟩

end HeightPlan

namespace TilePlan

/-- The tile that a plan describes. -/
def tile (p : TilePlan) : Tile where
  area := p.area.getD .absent
  height := (p.height.map HeightPlan.layer).getD .absent
  liquid := p.liquid.getD .absent

/-- Each row of samples has the length that a file gives it. -/
def Valid (p : TilePlan) : Prop := p.tile.WellFormed

end TilePlan

/-! ## Sections -/

open Bytes

/-- The bytes of an area section. -/
def AreaLayer.encode (a : AreaLayer) : List UInt8 :=
  ofScalar Mark.area.word
    ++ match a.cells with
      | none => ofScalar noAreaCells ++ ofScalar a.area
      | some cells => ofScalar (0 : UInt16) ++ ofScalar a.area ++ ofScalars cells

namespace HeightPlan

/-- The flag that stands for a kind of samples. -/
def surfaceFlag : PlannedSurface → UInt32
  | .flat => noHeights
  | .float .. => 0
  | .int8 .. => heightsInt8
  | .int16 .. => heightsInt16

/-- The flags of a planned height section. -/
def flags (h : HeightPlan) : UInt32 :=
  surfaceFlag h.surface + if h.flightBounds.isSome then hasFlightBounds else 0

/-- The bytes of samples. -/
def encodeSurface : PlannedSurface → List UInt8
  | .flat => []
  | .float corners centres => ofScalars corners ++ ofScalars centres
  | .int8 corners centres => ofScalars corners ++ ofScalars centres
  | .int16 corners centres => ofScalars corners ++ ofScalars centres

/-- The bytes of bounds of flight. -/
def encodeFlightBounds : Option FlightBounds → List UInt8
  | none => []
  | some bounds => ofScalars bounds.ceiling ++ ofScalars bounds.floor

/-- The bytes of a height section. -/
def encode (h : HeightPlan) : List UInt8 :=
  ofScalar Mark.height.word ++ ofScalar h.flags ++ ofScalar h.base ++ ofScalar h.top
    ++ encodeSurface h.surface ++ encodeFlightBounds h.flightBounds

end HeightPlan

namespace LiquidLayer

/-- The flags of a liquid section. -/
def flags (l : LiquidLayer) : UInt16 :=
  (if l.cells.isSome then 0 else noLiquidCells) + if l.levels.isSome then 0 else noLiquidLevels

/-- The bytes of the kinds of liquid of the cells. -/
def encodeCells : Option LiquidCells → List UInt8
  | none => []
  | some cells => ofScalars cells.entries ++ ofScalars cells.kinds

/-- The bytes of the levels of the rectangle. -/
def encodeLevels : Option (Array Single) → List UInt8
  | none => []
  | some levels => ofScalars levels

/-- The bytes of a liquid section. -/
def encode (l : LiquidLayer) : List UInt8 :=
  ofScalar Mark.liquid.word ++ ofScalar l.flags ++ ofScalar l.kind ++ ofScalar l.extent.offsetX
    ++ ofScalar l.extent.offsetY ++ ofScalar l.extent.width ++ ofScalar l.extent.height
    ++ ofScalar l.level ++ encodeCells l.cells ++ encodeLevels l.levels

end LiquidLayer

/-! ## Files -/

/-- Number of bytes of a file's header. -/
def tileHeaderSize : Nat := 44

namespace TilePlan

/-- The bytes of a section that may be missing. -/
def sectionBytes {α : Type} (encode : α → List UInt8) : Option α → List UInt8
  | none => []
  | some content => encode content

/-- The offset of a section, zero if it is missing. -/
def sectionOffset {α : Type} (place : Nat) : Option α → UInt32
  | none => 0
  | some _ => UInt32.ofNat place

/-- The bytes of a plan's file: the header, and the sections in the order area, height, liquid. -/
def encode (p : TilePlan) : Bytes :=
  let area := sectionBytes AreaLayer.encode p.area
  let height := sectionBytes HeightPlan.encode p.height
  let liquid := sectionBytes LiquidLayer.encode p.liquid
  let heightPlace := tileHeaderSize + area.length
  let liquidPlace := heightPlace + height.length
  let words : List UInt32 :=
    [Mark.file.word, Mark.version.word, p.build,
      sectionOffset tileHeaderSize p.area, UInt32.ofNat area.length,
      sectionOffset heightPlace p.height, UInt32.ofNat height.length,
      sectionOffset liquidPlace p.liquid, UInt32.ofNat liquid.length, 0, 0]
  (words.flatMap ofScalar ++ area ++ height ++ liquid).toArray

end TilePlan

end Overland
