import Overland.Position
import Overland.Tile.Layer

/-!
# Collision geometry

Buildings, bridges and caves are not in the tiles but in collision geometry, which a library of its
own answers for.  `Collision` is what is asked of such a library: to make the geometry of a tile
available, and to probe for the highest surface below a point.  Both may change the library's state.

A height is probed from a little above the point asked about, so that a point exactly on a surface
still finds it.
-/

namespace Overland

/-- A library of collision geometry with a state of its own. -/
structure Collision (σ : Type) where
  /-- Makes the geometry of a tile available. -/
  loadTile : TileKey → StateM σ Unit
  /-- The highest surface at or below a point of a map, not more than `reach` below it; a height
  that is not real if there is none. -/
  probe : (map : UInt32) → (point : Position) → (reach : Single) → StateM σ Single

namespace Collision

/-- What a library answers where it finds no surface. -/
def noSurface : Single := -Single.ofInt 200000

/-- How far above a point the probe for its surface starts. -/
def probeLift : Single := 2

/-- How far down a probe reaches. -/
def probeReach : Single := 50

/-- The library without any geometry. -/
def absent : Collision Unit where
  loadTile _ := pure ()
  probe _ _ _ := pure noSurface

/-- The surface near a point. -/
def surfaceNear {σ : Type} (c : Collision σ) (map : UInt32) (point : Position) : StateM σ Single :=
  c.probe map { point with z := point.z + probeLift } probeReach

end Collision

end Overland
