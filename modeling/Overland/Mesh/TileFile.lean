import Overland.Bytes.Buffer
import Overland.Disk
import Overland.Mesh.Status
import Overland.Text.Numeral

/-!
# Tile files of a navigation mesh

A tile file is a header of twenty bytes and a payload.  The header holds a mark, two version words,
the length of the payload, a byte that says whether liquids were looked at, and three bytes of
nothing; only the mark and the length are checked.  The payload is handed to the mesh library as it
is, and what follows it is not looked at.
-/

namespace Overland

/-- Why a file cannot be read. -/
inductive MeshFileFault where
  /-- The disk does not hand it out. -/
  | disk (fault : DiskFault)
  /-- Its content ends too early. -/
  | content (cause : ReadError)
  deriving DecidableEq, Repr

/-- The text of a fault. -/
def MeshFileFault.message : MeshFileFault → String
  | .disk fault => fault.message
  | .content cause => cause.message

/-- Why there is no mesh, or no tile of it. -/
inductive MeshError where
  /-- The file cannot be read. -/
  | unreadable (path : String) (fault : MeshFileFault)
  /-- No folder of meshes is configured. -/
  | unconfigured
  /-- There is no place for meshes of maps with such a number. -/
  | mapOutOfRange (map : UInt32)
  /-- The file is shorter than its header. -/
  | headerTooShort (path : String) (length needed : Nat)
  /-- Another word stands where the mark should be. -/
  | wrongMark (path : String) (expected found : UInt32)
  /-- The payload is said to be longer than what is left of the file. -/
  | payloadTooLong (path : String) (declared available : Nat)
  /-- The mesh library does not take it. -/
  | rejected (what : String) (status : Status)
  deriving DecidableEq, Repr

/-- The text of an error. -/
def MeshError.message : MeshError → String
  | .unreadable path fault => s!"cannot read '{path}': {fault.message}"
  | .unconfigured => "mmaps directory is not configured"
  | .mapOutOfRange map => s!"map id {map.toNat} is outside the navmesh table"
  | .headerTooShort path length needed => s!"'{path}' holds {length} bytes, header needs {needed}"
  | .wrongMark path expected found =>
    s!"'{path}' magic mismatch: expected {Text.hexWord expected}, found {Text.hexWord found}"
  | .payloadTooLong path declared available =>
    s!"'{path}' declares {declared} payload bytes but only {available} follow the header"
  | .rejected what status => s!"detour rejected {what}: {status.description}"

/-- What the header of a tile file says. -/
structure MeshTileHeader where
  mark : UInt32
  formatVersion : UInt32
  version : UInt32
  /-- Number of bytes of the payload. -/
  length : UInt32
  /-- Whether liquids were looked at when the tile was made. -/
  liquids : Bool
  deriving DecidableEq, Repr

/-- The payload of a tile file. -/
structure MeshTile where
  payload : Bytes
  deriving DecidableEq, Repr, Inhabited

namespace MeshTile

/-- A payload as it shows in messages. -/
def description (t : MeshTile) : String := s!"TileData({t.payload.size} bytes)"

/-- Number of bytes of the header. -/
def headerSize : Nat := 20

/-- The mark at the start of a file. -/
def mark : UInt32 := 0x4d4d4150

/-- Number of bytes at the end of the header that say nothing. -/
def padding : Nat := 3

/-- Reads a header.  The padding is skipped, not read. -/
def readHeader : Reader MeshTileHeader := do
  let mark ← Buffer.read UInt32
  let formatVersion ← Buffer.read UInt32
  let version ← Buffer.read UInt32
  let length ← Buffer.read UInt32
  let liquids ← Buffer.read UInt8
  Buffer.skip padding
  return { mark, formatVersion, version, length, liquids := liquids ≠ 0 }

/-- The payload of a file's content; the path is for the error only. -/
def decode (path : String) (bytes : Bytes) : Except MeshError MeshTile :=
  if bytes.size < headerSize then .error (.headerTooShort path bytes.size headerSize)
  else
    match readHeader (Buffer.ofBytes bytes) with
    | .error _ => .error (.headerTooShort path bytes.size headerSize)
    | .ok (header, b) =>
      let declared := header.length.toNat
      let available := b.remaining
      if header.mark ≠ mark then .error (.wrongMark path mark header.mark)
      else if available < declared then .error (.payloadTooLong path declared available)
      else
        match Buffer.readMany UInt8 declared b with
        | .error cause => .error (.unreadable path (.content cause))
        | .ok (payload, _) => .ok ⟨payload⟩

/-- The content of a file with a payload, given the version words and the liquids byte. -/
def encode (t : MeshTile) (formatVersion version : UInt32) (liquids : UInt8) : Bytes :=
  (Bytes.ofScalar mark ++ Bytes.ofScalar formatVersion ++ Bytes.ofScalar version
    ++ Bytes.ofScalar (UInt32.ofNat t.payload.size) ++ Bytes.ofScalar liquids ++ [0, 0, 0]
    ++ t.payload.toList).toArray

/-- The tile in a file, none if there is no such file. -/
def load (disk : Disk) (path : String) : Except MeshError (Option MeshTile) :=
  match disk path with
  | .ok bytes => (decode path bytes).map some
  | .error .notFound => .ok none
  | .error fault => .error (.unreadable path (.disk fault))

end MeshTile

end Overland
