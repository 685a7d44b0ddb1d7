import Overland.Proofs.Tile.Integrity
import Overland.Proofs.Tile.Scale

/-!
# Answers about liquid

A tile can be asked for the level of its liquid over a point, for the kinds of liquid in the cell of
a point, and for the state of a height against the liquid there.  Each of the three finds its own
way to a cell and to a level.

* `Tile.WetAt` says where a liquid comes into question at all, and `KindCounts` which kinds of it a
  mask lets through.  With both, a height is classified (`liquidAt_of_wet`), and without one of them
  there is no liquid (`liquidAt_of_not`).
* `liquid_answers_agree` — on the map the three answers agree with each other.
* `wetAsDocumented_iff` — liquid is found exactly where the file declares some that counts, with one
  exception: a tile with one kind for all its cells declares it in two bytes, and only the lower one
  is looked at.
-/

namespace Overland

/-! ## Where there is liquid -/

/-- A height that is classified has a state. -/
theorem LiquidState.ofDepth_ne_none (depth : Single) : ofDepth depth ≠ .none := by
  unfold ofDepth
  repeat' split
  all_goals decide

namespace LiquidExtent

/-- A height cell lies in the rectangle. -/
structure Contains (e : LiquidExtent) (x y : Nat) : Prop where
  x_low : e.offsetY.toNat ≤ x
  x_high : x < e.offsetY.toNat + e.height.toNat
  y_low : e.offsetX.toNat ≤ y
  y_high : y < e.offsetX.toNat + e.width.toNat

theorem index?_isSome_iff {e : LiquidExtent} {x y : Nat} :
    (e.index? x y).isSome ↔ e.Contains x y := by
  simp only [index?]
  split
  case isTrue h => exact iff_of_true rfl ⟨by omega, by omega, by omega, by omega⟩
  case isFalse h =>
    refine iff_of_false Bool.false_ne_true fun hin => h ?_
    obtain ⟨_, _, _, _⟩ := hin
    omega

end LiquidExtent

/-- The level over a point of the rectangle is the one at its index. -/
theorem LiquidLayer.levelAt_eq {l : LiquidLayer} {x y : Single} {index : Nat}
    (h : l.index? x y = some index) : l.levelAt x y = l.levelOf index := by
  unfold levelAt
  cases hlevels : l.levels with
  | none =>
    rw [levelOf, hlevels]
    rfl
  | some levels =>
    rw [h]
    rfl

/-- The mask lets a kind of liquid through: it is a liquid at all, and the mask is empty or has a
bit in common with it. -/
def KindCounts (kind : UInt16) (mask : UInt8) : Prop :=
  kind ≠ 0 ∧ (mask = 0 ∨ mask.toUInt16 &&& kind ≠ 0)

/-- A liquid comes into question for a height over a point: the point lies in its rectangle, its
level is not below the ground, and the height is not more than two below the ground. -/
structure Tile.WetAt (t : Tile) (x y z : Single) : Prop where
  inside : t.liquid.extent.Contains (finePlace x).cell (finePlace y).cell
  covered : ¬ t.liquid.levelAt x y < t.heightAt x y
  reached : ¬ z < t.heightAt x y - 2

theorem toUInt16_eq_zero_iff {kind : UInt8} : kind.toUInt16 = 0 ↔ kind = 0 :=
  UInt8.toUInt16_inj (b := 0)

theorem kindCounts_toUInt16 {kind mask : UInt8} :
    KindCounts kind.toUInt16 mask ↔ kind ≠ 0 ∧ (mask = 0 ∨ mask &&& kind ≠ 0) := by
  rw [KindCounts, ← UInt8.toUInt16_and, ne_eq, ne_eq, toUInt16_eq_zero_iff, toUInt16_eq_zero_iff]

/-- The test for a kind that does not count. -/
theorem not_kindCounts_iff {kind mask : UInt8} :
    ¬ KindCounts kind.toUInt16 mask ↔ (kind = 0 || (mask ≠ 0 && mask &&& kind = 0)) := by
  rw [kindCounts_toUInt16]
  simp only [Bool.or_eq_true, Bool.and_eq_true, decide_eq_true_eq, ne_eq,
    Decidable.not_and_iff_not_or_not, Decidable.not_not, not_or]

namespace Tile

variable {t : Tile} {x y z : Single} {mask : UInt8}

/-- Where there is liquid that counts, a height is classified against its level. -/
theorem liquidAt_of_wet (hkind : KindCounts (t.liquid.kindAt x y).toUInt16 mask)
    (hwet : t.WetAt x y z) :
    t.liquidAt x y z mask =
      ⟨.ofDepth (t.liquid.levelAt x y - z),
        some ⟨t.liquid.kindAt x y, t.liquid.entryAt x y, t.liquid.levelAt x y,
          t.heightAt x y⟩⟩ := by
  obtain ⟨index, hindex⟩ : ∃ index, t.liquid.index? x y = some index :=
    Option.isSome_iff_exists.1 (LiquidExtent.index?_isSome_iff.2 hwet.inside)
  have hlevel := LiquidLayer.levelAt_eq hindex
  have hcovered := hwet.covered
  rw [hlevel] at hcovered
  have hnear : ¬ (t.liquid.levelOf index < t.heightAt x y ∨ z < t.heightAt x y - 2) :=
    not_or.2 ⟨hcovered, hwet.reached⟩
  rw [hlevel, liquidAt]
  simp only [hindex]
  rw [if_neg fun hrefused => not_kindCounts_iff.2 hrefused hkind, if_neg hnear]

/-- Anywhere else there is none. -/
theorem liquidAt_of_not
    (h : ¬ (KindCounts (t.liquid.kindAt x y).toUInt16 mask ∧ t.WetAt x y z)) :
    t.liquidAt x y z mask = .dry := by
  rw [liquidAt]
  by_cases hkind : KindCounts (t.liquid.kindAt x y).toUInt16 mask
  case neg => rw [if_pos (not_kindCounts_iff.1 hkind)]
  rw [if_neg fun hrefused => not_kindCounts_iff.2 hrefused hkind]
  cases hindex : t.liquid.index? x y with
  | none => rfl
  | some index =>
    have hinside : t.liquid.extent.Contains (finePlace x).cell (finePlace y).cell :=
      LiquidExtent.index?_isSome_iff.1 (Option.isSome_iff_exists.2 ⟨index, hindex⟩)
    -- the point is in the rectangle, so the level or the height is too low
    have hlow : t.liquid.levelOf index < t.heightAt x y ∨ z < t.heightAt x y - 2 := by
      apply Decidable.byContradiction
      intro hnear
      obtain ⟨hcovered, hreached⟩ := not_or.1 hnear
      rw [← LiquidLayer.levelAt_eq hindex] at hcovered
      exact h ⟨hkind, hinside, hcovered, hreached⟩
    exact if_pos hlow

/-- There is a state exactly where there is liquid that counts. -/
theorem liquidAt_state_iff : (t.liquidAt x y z mask).state ≠ .none ↔
    KindCounts (t.liquid.kindAt x y).toUInt16 mask ∧ t.WetAt x y z := by
  by_cases h : KindCounts (t.liquid.kindAt x y).toUInt16 mask ∧ t.WetAt x y z
  · rw [liquidAt_of_wet h.1 h.2]
    exact iff_of_true (LiquidState.ofDepth_ne_none _) h
  · rw [liquidAt_of_not h]
    exact iff_of_false (fun hstate => hstate rfl) h

end Tile

/-! ## The answers agree -/

/-- What a reading of the liquid over a point says is what the tile answers when it is asked for
it: the level and the ground over the point, and the kind and the entry of its area cell. -/
structure LiquidReading.Agrees (r : LiquidReading) (t : Tile) (x y : Single) (mask : UInt8) :
    Prop where
  level : r.level = t.liquid.levelAt x y
  ground : r.ground = t.heightAt x y
  kind_ne_zero : r.kind ≠ 0
  kind_mask : mask = 0 ∨ mask &&& r.kind ≠ 0
  cellKind : t.liquid.cells.isSome → r.kind = t.liquid.cellKindAt x y
  cell : ∀ cells, t.liquid.cells = some cells →
    cells.kinds[areaCell x y]? = some r.kind ∧ cells.entries[areaCell x y]? = some r.entry
  entry : t.liquid.cells = none → r.entry = 0

namespace Tile

variable {t : Tile} {x y z : Single} {mask : UInt8}

/-- The reading of a classified height agrees with all else that the tile answers. -/
theorem agrees_of_counts (ht : t.WellFormed) (hx : OnMap x) (hy : OnMap y)
    (hkind : KindCounts (t.liquid.kindAt x y).toUInt16 mask) :
    LiquidReading.Agrees ⟨t.liquid.kindAt x y, t.liquid.entryAt x y, t.liquid.levelAt x y,
      t.heightAt x y⟩ t x y mask := by
  obtain ⟨hpresent, hmask⟩ := kindCounts_toUInt16.1 hkind
  have hcell : ∀ cells, t.liquid.cells = some cells →
      cells.kinds[areaCell x y]? = some (t.liquid.kindAt x y) ∧
        cells.entries[areaCell x y]? = some (t.liquid.entryAt x y) := by
    intro cells hcells
    obtain ⟨hentries, hkinds⟩ := ht.liquidCells cells hcells
    have hlt := areaCell_lt x y
    simp only [LiquidLayer.kindAt, LiquidLayer.entryAt, hcells, cellAround_eq_areaCell hx hy]
    exact ⟨Checked.getElem?_eq_getD 0 (by omega), Checked.getElem?_eq_getD 0 (by omega)⟩
  refine ⟨rfl, rfl, hpresent, hmask, fun hcells => ?_, hcell, fun hcells => ?_⟩
  · obtain ⟨cells, hcells⟩ := Option.isSome_iff_exists.1 hcells
    simp only [LiquidLayer.kindAt, LiquidLayer.cellKindAt, hcells, cellAround_eq_areaCell hx hy]
  · simp only [LiquidLayer.entryAt, hcells]

/-- **Answers about liquid agree with each other.**  Take a tile that is read from a file, and a
point on the map.  There is a reading exactly if there is a state; and a reading has the level, the
ground, and the kind and the entry of the area cell that the tile answers when it is asked for them
alone, and a kind that the mask lets through. -/
theorem liquid_answers_agree {bytes : Bytes} (h : decode bytes = .ok t) (hx : OnMap x)
    (hy : OnMap y) (z : Single) (mask : UInt8) :
    ((t.liquidAt x y z mask).reading.isSome ↔ (t.liquidAt x y z mask).state ≠ .none) ∧
      ∀ r, (t.liquidAt x y z mask).reading = some r → r.Agrees t x y mask := by
  by_cases hcounts : KindCounts (t.liquid.kindAt x y).toUInt16 mask ∧ t.WetAt x y z
  case neg =>
    rw [liquidAt_of_not hcounts]
    exact ⟨iff_of_false nofun fun hstate => hstate rfl, nofun⟩
  obtain ⟨hkind, hwet⟩ := hcounts
  have hwellFormed : t.WellFormed := by
    rw [(holds_of_decode h).2]
    exact stored_wellFormed bytes
  rw [liquidAt_of_wet hkind hwet]
  refine ⟨iff_of_true rfl (LiquidState.ofDepth_ne_none _), ?_⟩
  rintro r ⟨⟩
  exact agrees_of_counts hwellFormed hx hy hkind

end Tile

/-- Flat ground at 10, under liquid of one kind up to 15. -/
def TilePlan.pond : TilePlan where
  build := 8606
  area := none
  height := some ⟨10, 10, .flat, none⟩
  liquid := some {
    kind := 8
    extent := ⟨0, 0, 128, 128⟩
    level := 15
    cells := some ⟨Array.replicate 256 3, Array.replicate 256 8⟩
    levels := none }

theorem TilePlan.pond_valid : pond.Valid where
  area _ h := by cases h
  surface := trivial
  flightBounds _ h := by cases h
  liquidCells cells h := by
    rw [← Option.some.inj h]
    exact ⟨Array.size_replicate, Array.size_replicate⟩
  liquidLevels _ h := by cases h

/-- One below the level of the pond. -/
theorem Tile.pond_answers_agree :
    decode TilePlan.pond.encode = .ok TilePlan.pond.tile ∧ OnMap 100 ∧
      TilePlan.pond.tile.liquidAt 100 100 14 0 = ⟨.inside, some ⟨8, 3, 15, 10⟩⟩ ∧
      LiquidReading.Agrees ⟨8, 3, 15, 10⟩ TilePlan.pond.tile 100 100 0 := by
  have h := (TilePlan.laidOut_encode TilePlan.pond_valid).decode_eq TilePlan.pond_valid
  have hmap : OnMap 100 := by decide +kernel
  have hanswer : TilePlan.pond.tile.liquidAt 100 100 14 0 = ⟨.inside, some ⟨8, 3, 15, 10⟩⟩ := by
    decide +kernel
  exact ⟨h, hmap, hanswer, (liquid_answers_agree h hmap hmap 14 0).2 _ (by rw [hanswer])⟩

/-! ## Liquid that a file declares -/

/-- The kinds of liquid that a file declares at a point: those of the area cell around its height
cell, or the one of the whole tile. -/
def LiquidLayer.declaredAt (l : LiquidLayer) (x y : Single) : UInt16 :=
  match l.cells with
  | some cells => (cells.kinds.getD (cellAround x y) 0).toUInt16
  | none => l.kind

/-- The tile has one kind for all its cells, and all bits of it are in the upper byte. -/
structure LiquidLayer.KindLost (l : LiquidLayer) : Prop where
  cells : l.cells = none
  kind_ne_zero : l.kind ≠ 0
  low : l.kind.toUInt8 = 0

/-- A height has a state against the liquid over a point exactly if the file declares a kind there
that counts, and the liquid comes into question for that height. -/
def Tile.WetAsDocumented (t : Tile) (x y z : Single) (mask : UInt8) : Prop :=
  (t.liquidAt x y z mask).state ≠ .none ↔
    KindCounts (t.liquid.declaredAt x y) mask ∧ t.WetAt x y z

/-- A mask only sees the lower byte of a kind. -/
theorem toUInt16_and_toUInt8 (mask : UInt8) (kind : UInt16) :
    (mask &&& kind.toUInt8).toUInt16 = mask.toUInt16 &&& kind := by
  apply UInt16.eq_of_toBitVec_eq
  simp only [UInt16.toBitVec_and, UInt8.toBitVec_and, UInt8.toBitVec_toUInt16,
    UInt16.toBitVec_toUInt8]
  ext i hi
  simp only [BitVec.getElem_and, BitVec.getElem_setWidth, BitVec.getLsbD_and,
    BitVec.getLsbD_setWidth, BitVec.getLsbD_eq_getElem hi]
  by_cases hlow : i < 8
  · simp only [hlow, decide_true, Bool.true_and]
  · simp only [BitVec.getLsbD_of_ge mask.toBitVec i (Nat.le_of_not_lt hlow), Bool.false_and]

/-- The lower byte of a kind counts if the kind does and its lower byte is not empty. -/
theorem kindCounts_toUInt8 {kind : UInt16} {mask : UInt8} :
    KindCounts kind.toUInt8.toUInt16 mask ↔ KindCounts kind mask ∧ kind.toUInt8 ≠ 0 := by
  have hmask : mask &&& kind.toUInt8 = 0 ↔ mask.toUInt16 &&& kind = 0 := by
    rw [← toUInt16_and_toUInt8, toUInt16_eq_zero_iff]
  have hkind : kind.toUInt8 ≠ 0 → kind ≠ 0 := by
    rintro hlow rfl
    exact hlow rfl
  rw [kindCounts_toUInt16, KindCounts, ne_eq (mask &&& _), hmask]
  constructor
  · rintro ⟨hlow, hbit⟩
    exact ⟨⟨hkind hlow, hbit⟩, hlow⟩
  · rintro ⟨⟨-, hbit⟩, hlow⟩
    exact ⟨hlow, hbit⟩

namespace LiquidLayer

variable {l : LiquidLayer} {x y : Single} {mask : UInt8}

/-- The kinds at a point are the lower byte of what the file declares there. -/
theorem kindAt_eq : l.kindAt x y = (l.declaredAt x y).toUInt8 := by
  unfold kindAt declaredAt
  cases l.cells with
  | none => rfl
  | some cells => exact (UInt8.toUInt8_toUInt16 _).symm

/-- A kind that counts has an empty lower byte only if it is the one kind of a tile, and lost, and
if the mask is empty. -/
theorem kindCounts_lost_iff :
    KindCounts (l.declaredAt x y) mask ∧ (l.declaredAt x y).toUInt8 = 0 ↔
      l.KindLost ∧ mask = 0 := by
  constructor
  · rintro ⟨⟨hdeclared, hmask⟩, hlow⟩
    have hempty : mask = 0 := by
      refine hmask.resolve_right fun hbit => hbit ?_
      rw [← toUInt16_and_toUInt8, hlow, UInt8.and_zero]
      rfl
    unfold declaredAt at hdeclared hlow
    cases hcells : l.cells with
    | none =>
      simp only [hcells] at hdeclared hlow
      exact ⟨⟨hcells, hdeclared, hlow⟩, hempty⟩
    | some cells =>
      -- the kind of a cell is one byte, so nothing of it is lost
      simp only [hcells, UInt8.toUInt8_toUInt16] at hdeclared hlow
      exact absurd (toUInt16_eq_zero_iff.2 hlow) hdeclared
  · rintro ⟨⟨hcells, hkind, hlow⟩, rfl⟩
    simp only [declaredAt, hcells]
    exact ⟨⟨hkind, Or.inl rfl⟩, hlow⟩

end LiquidLayer

namespace Tile

variable {t : Tile} {x y z : Single} {mask : UInt8}

/-- Where the file declares liquid that counts, it is found unless its kind is lost. -/
theorem wetAsDocumented_iff_kept : t.WetAsDocumented x y z mask ↔
    (KindCounts (t.liquid.declaredAt x y) mask → t.WetAt x y z →
      (t.liquid.declaredAt x y).toUInt8 ≠ 0) := by
  rw [WetAsDocumented, liquidAt_state_iff, LiquidLayer.kindAt_eq, kindCounts_toUInt8]
  constructor
  · intro h hcounts hwet
    exact (h.2 ⟨hcounts, hwet⟩).1.2
  · intro h
    constructor
    · rintro ⟨⟨hcounts, -⟩, hwet⟩
      exact ⟨hcounts, hwet⟩
    · rintro ⟨hcounts, hwet⟩
      exact ⟨⟨hcounts, h hcounts hwet⟩, hwet⟩

/-- **Where liquid is found.**  A height has a state exactly if the file declares a kind of liquid
that counts, the point lies in the rectangle of the liquid, its level is not below the ground, and
the height is not more than two below the ground; with one exception.  If the tile has one kind for
all its cells, with all its bits in the upper byte, an empty mask finds none of it. -/
theorem wetAsDocumented_iff :
    t.WetAsDocumented x y z mask ↔ ¬ (t.liquid.KindLost ∧ mask = 0 ∧ t.WetAt x y z) := by
  rw [wetAsDocumented_iff_kept, ← and_assoc,
    ← LiquidLayer.kindCounts_lost_iff (l := t.liquid) (x := x) (y := y)]
  constructor
  · rintro h ⟨⟨hcounts, hlow⟩, hwet⟩
    exact h hcounts hwet hlow
  · intro h hcounts hwet hlow
    exact h ⟨⟨hcounts, hlow⟩, hwet⟩

end Tile

/-- Liquid of the kind 256 all over a tile. -/
def TilePlan.brine : TilePlan where
  build := 8606
  area := none
  height := none
  liquid := some ⟨256, ⟨0, 0, 128, 128⟩, 30, none, none⟩

theorem TilePlan.brine_valid : brine.Valid where
  area _ h := by cases h
  surface := trivial
  flightBounds _ h := by cases h
  liquidCells _ h := by cases h
  liquidLevels _ h := by cases h

/-- On the surface of the brine a mask that takes any kind finds no liquid. -/
theorem Tile.not_wetAsDocumented_brine :
    ∃ t, decode TilePlan.brine.encode = .ok t ∧ ¬ t.WetAsDocumented 100 100 30 0 := by
  have h := (TilePlan.laidOut_encode TilePlan.brine_valid).decode_eq TilePlan.brine_valid
  refine ⟨_, h, fun hdocumented => ?_⟩
  have hcounts : KindCounts (TilePlan.brine.tile.liquid.declaredAt 100 100) 0 :=
    ⟨by decide, Or.inl rfl⟩
  have hwet : TilePlan.brine.tile.WetAt 100 100 30 := by
    refine ⟨?_, by decide +kernel, by decide +kernel⟩
    exact LiquidExtent.index?_isSome_iff.1 (by decide +kernel)
  exact wetAsDocumented_iff_kept.1 hdocumented hcounts hwet (by decide)

end Overland
