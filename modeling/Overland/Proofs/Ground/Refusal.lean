import Overland.Proofs.Ground.Accounting
import Overland.Proofs.Ground.Transparency
import Overland.Proofs.Tile.Scale

/-!
# Which points are refused

A point off the map has no tile, and whoever asks about it is meant to be refused: no tile, no land,
no area and no liquid.  `refused_iff` says which points are refused.  A coordinate is let through
(`Admitted`) from one tile before the first edge of the map, because cutting to a tile goes toward
zero, and also if it is no number at all, because that is cut to zero.  At the other edge the first
coordinate off the map is refused.

So a point off the map is refused exactly if one of its coordinates is not let through
(`refusedOffMap_iff`).  Just beyond the first edge, and without a coordinate that is a number, the
first row of tiles answers instead (`not_refused_beyond`).
-/

namespace Overland

open Single (unitsPerOne)

/-! ## One axis -/

/-- Along its axis a coordinate is let through: on the grid scale it is a number above minus one and
below 64, or no number. -/
def Admitted (coordinate : Single) : Prop :=
  (gridScale coordinate).isNaN = true ∨ (-1 < gridScale coordinate ∧ gridScale coordinate < 64)

instance (coordinate : Single) : Decidable (Admitted coordinate) :=
  inferInstanceAs (Decidable (_ ∨ _))

/-- A number is cut to an index of the grid if it lies above minus one and below 64. -/
theorem truncate_range (units : Int) :
    (0 ≤ units.tdiv unitsPerOne ∧ units.tdiv unitsPerOne < 64) ↔
      -(unitsPerOne : Int) < units ∧ units < 64 * unitsPerOne := by
  have hone : (0 : Int) < unitsPerOne := Int.natCast_pos.2 Single.unitsPerOne_pos
  rcases Int.le_total 0 units with h | h
  · rw [Int.tdiv_eq_ediv_of_nonneg h, Int.ediv_lt_iff_lt_mul hone]
    have := Int.ediv_nonneg h (Int.le_of_lt hone)
    omega
  · obtain ⟨n, rfl⟩ : ∃ n, units = -n := ⟨-units, by omega⟩
    have hn : 0 ≤ n := by omega
    have hlow := Int.ediv_nonneg hn (Int.le_of_lt hone)
    have hpos : 1 ≤ n / unitsPerOne ↔ unitsPerOne ≤ n := by
      rw [Int.le_ediv_iff_mul_le hone, Int.one_mul]
    rw [Int.neg_tdiv, Int.tdiv_eq_ediv_of_nonneg hn]
    omega

/-- **A coordinate has a tile along its axis exactly if it is let through.** -/
theorem isSome_onGrid?_gridIndex (coordinate : Single) :
    (onGrid? (gridIndex coordinate)).isSome ↔ Admitted coordinate := by
  have hmin : Int32.minValue.toInt = -2147483648 := rfl
  have hmax : Int32.maxValue.toInt = 2147483647 := rfl
  have hlow : (-1 : Single).isNaN = false ∧ (-1 : Single).units = -(unitsPerOne : Int) := by decide
  have hhigh : (64 : Single).isNaN = false ∧ (64 : Single).units = 64 * unitsPerOne := by decide
  have hsome : (onGrid? (gridIndex coordinate)).isSome ↔
      0 ≤ (gridScale coordinate).truncate ∧ (gridScale coordinate).truncate < 64 := by
    have hindex := (gridScale coordinate).toInt_toInt32
    rw [← gridIndex] at hindex
    unfold onGrid?
    split
    · simp only [Option.isSome_some, true_iff]
      omega
    · simp only [Option.isSome_none, Bool.false_eq_true, false_iff]
      omega
  rw [hsome, Admitted, Single.lt_iff, Single.lt_iff, hlow.2, hhigh.2, Single.truncate]
  cases hx : (gridScale coordinate).isNaN with
  | true => simp
  | false => simp [hlow.1, hhigh.1, truncate_range]

namespace Ground

variable {σ : Type} (g : Ground σ) (disk : Disk) (map : UInt32) (x y : Single) (s : GroundState σ)

/-- A point is refused: its tile is off the map, it has no land, no area and no liquid, and whoever
asks changes nothing. -/
structure Refused : Prop where
  tile : g.tileOver disk map x y s = (.error (.offGrid (gridIndex x) (gridIndex y)), s)
  land : g.landHeight disk map x y s = (noHeight, s)
  area : g.area? disk map x y s = (none, s)
  liquid : ∀ z mask, g.liquid disk map ⟨x, y, z⟩ mask s = (.dry, s)

/-- A point off the map is refused. -/
def RefusedOffMap : Prop := ¬ (OnMap x ∧ OnMap y) → g.Refused disk map x y s

/-- A key is made of two coordinates that are let through. -/
theorem isSome_key : (TileKey.of? map (gridIndex x) (gridIndex y)).isSome ↔
    Admitted x ∧ Admitted y := by
  rw [← isSome_onGrid?_gridIndex, ← isSome_onGrid?_gridIndex, TileKey.of?]
  cases onGrid? (gridIndex x) <;> cases onGrid? (gridIndex y) <;> simp

/-- **A point is refused exactly if one of its coordinates is not let through.** -/
theorem refused_iff : g.Refused disk map x y s ↔ ¬ (Admitted x ∧ Admitted y) := by
  rw [← isSome_key map x y]
  cases hkey : TileKey.of? map (gridIndex x) (gridIndex y) with
  | some key =>
    have htile : g.tileOver disk map x y = g.tile disk key := by
      rw [tileOver, tileAt, hkey]
    refine iff_of_false (fun h => ?_) (by simp)
    have hanswer := congrArg Prod.fst h.tile
    rw [htile] at hanswer
    exact g.tile_ne_offGrid disk key s _ _ hanswer
  | none =>
    have htile : g.tileOver disk map x y s
        = (.error (.offGrid (gridIndex x) (gridIndex y)), s) := by
      rw [tileOver, tileAt, hkey]
      rfl
    refine iff_of_true ⟨htile, ?_, ?_, fun z mask => ?_⟩ (by simp)
    · show (g.tileOver disk map x y >>= _) s = _
      simp only [StateT.bind, bind, htile]
      rfl
    · show (g.tileOver disk map x y >>= _) s = _
      simp only [StateT.bind, bind, htile]
      rfl
    · show (g.tileOver disk map x y >>= _) s = _
      simp only [StateT.bind, bind, htile]
      rfl

/-- **When a point off the map is refused:** exactly if not both of its coordinates are let through.
Who is refused, on the map or off it, is decided by that alone. -/
theorem refusedOffMap_iff :
    (g.Refused disk map x y s ↔ ¬ (Admitted x ∧ Admitted y)) ∧
      (g.RefusedOffMap disk map x y s ↔ (Admitted x → Admitted y → OnMap x ∧ OnMap y)) := by
  refine ⟨g.refused_iff disk map x y s, ?_⟩
  rw [RefusedOffMap, g.refused_iff disk map x y s]
  constructor
  · intro h hx hy
    exact Classical.byContradiction fun hoff => h hoff ⟨hx, hy⟩
  · rintro h hoff ⟨hx, hy⟩
    exact hoff (h hx hy)

/-- A point just beyond the first edge of the map is not refused, and neither is one without a first
coordinate that is a number. -/
theorem not_refused_beyond :
    ¬ levelGround.RefusedOffMap emptyFiles 0 17100 100 ⟨.empty, 0⟩ ∧
      ¬ levelGround.RefusedOffMap emptyFiles 0 .nan 100 ⟨.empty, 0⟩ := by
  have hstray : ¬ OnMap 17100 ∧ Admitted 17100 := by decide +kernel
  have hnan : ¬ OnMap .nan ∧ Admitted .nan := by decide +kernel
  have hin : Admitted 100 := by decide +kernel
  constructor
  · intro h
    exact (levelGround.refused_iff _ _ _ _ _).1 (h fun hon => hstray.1 hon.1) ⟨hstray.2, hin⟩
  · intro h
    exact (levelGround.refused_iff _ _ _ _ _).1 (h fun hon => hnan.1 hon.1) ⟨hnan.2, hin⟩

end Ground

end Overland
