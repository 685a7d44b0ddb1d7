import Overland.Bytes.Buffer
import Overland.Position

/-!
# The header of a navigation mesh

The mesh of a map starts from a header of seven words: where its grid of tiles begins, the size of a
tile, and how many tiles and polygons it has room for.  `MeshHeader.read` takes the seven words from
a buffer and `MeshHeader.write` puts them at the end of one; neither changes a bit of them.
-/

namespace Overland

/-- What a mesh is created from. -/
structure MeshHeader where
  origin : MeshPosition
  tileWidth : Single
  tileHeight : Single
  maxTiles : Int32
  maxPolygons : Int32
  deriving DecidableEq, Repr, Inhabited

namespace MeshHeader

/-- Number of bytes of a header. -/
def byteCount : Nat := 28

/-- Reads a header. -/
def read : Reader MeshHeader := do
  let first ← Buffer.read Single
  let second ← Buffer.read Single
  let third ← Buffer.read Single
  let tileWidth ← Buffer.read Single
  let tileHeight ← Buffer.read Single
  let maxTiles ← Buffer.read Int32
  let maxPolygons ← Buffer.read Int32
  return ⟨⟨first, second, third⟩, tileWidth, tileHeight, maxTiles, maxPolygons⟩

/-- Writes a header. -/
def write (h : MeshHeader) (b : Buffer) : Buffer :=
  let b := ((b.write h.origin.first).write h.origin.second).write h.origin.third
  let b := (b.write h.tileWidth).write h.tileHeight
  (b.write h.maxTiles).write h.maxPolygons

end MeshHeader

end Overland
