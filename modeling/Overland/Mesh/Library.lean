import Overland.Mesh.Header
import Overland.Mesh.TileFile

/-!
# The mesh library

Polygons are searched by a library of its own.  `MeshLibrary` is what is asked of it: to create an
empty mesh, to say which tile a position lies in and whether a mesh has a tile, to add a tile, and
the three queries that lead from two positions to the corners of a path between them.  All positions
are in the axis order of the mesh.

A mesh is a value of type `μ`; besides, the library may have a state of its own, of type `τ`.
-/

namespace Overland

/-- A library of navigation meshes. -/
structure MeshLibrary (τ μ : Type) where
  /-- An empty mesh for a header. -/
  create : MeshHeader → StateM τ (Except Status μ)
  /-- Column and row of the tile that a position lies in. -/
  tileOf : μ → MeshPosition → Int32 × Int32
  /-- Whether a mesh has the tile in a column and row. -/
  hasTile : μ → Int32 → Int32 → Bool
  /-- Adds a tile, whose column and row its payload knows; answers the tile's reference. -/
  addTile : μ → MeshTile → StateM τ (Except Status UInt64 × μ)
  /-- The polygon nearest to a position in a box of the given half-lengths around it, zero if there
  is none. -/
  nearest : μ → (centre extents : MeshPosition) → StateM τ (Status × UInt64)
  /-- The polygons to pass through from one to another. -/
  corridor : μ → (fromPolygon toPolygon : UInt64) → (start goal : MeshPosition) → (limit : Nat) →
    StateM τ (Status × List UInt64)
  /-- The corners of a path through polygons, both ends among them. -/
  corners : μ → (start goal : MeshPosition) → (polygons : List UInt64) → (limit : Nat) →
    StateM τ (Status × List MeshPosition)

end Overland
