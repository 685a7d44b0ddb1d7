import Overland.Proofs.Mesh.Coverage

/-!
# Positions from which one square is swept and another is not

In the middle of a tile the two counts of a sweep agree, so a sweep from there reaches the square
itself and those next to it, and reads no other file.  For any two different squares there is
therefore a position from which the first is reached and the file of the second is not read
(`reaches_spot`, `misses_spot`): on an axis where they differ, one tile beyond the first as seen
from the second.

At the edge of the map this takes a tile beside the map.  Coordinates up to one tile beyond the edge
where the count of files starts are counted as if they were on the map, so the tile after next is
taken there.
-/

namespace Overland

/-! ## One axis -/

/-- The two counts of a sweep agree on a coordinate. -/
def Agrees (coordinate : Single) : Prop := gridIndex coordinate = 63 - meshIndex coordinate

instance (coordinate : Single) : Decidable (Agrees coordinate) :=
  inferInstanceAs (Decidable (_ = _))

/-- The coordinate in the middle of the tiles that have an index in the count of files. -/
def middle (index : Int) : Single := Single.ofInt (63 - 2 * index) * (tileSize / 2)

theorem indices_middle (i : Fin 65) :
    gridIndex (middle i) = Int32.ofNat i ∧ meshIndex (middle i) = 63 - Int32.ofNat i := by
  revert i
  decide +kernel

theorem indices_beyond : gridIndex (middle (-2)) = -1 ∧ meshIndex (middle (-2)) = 65 := by
  decide +kernel

theorem toInt_sub_step (i : Fin 65) {step : Int32} (hstep : step ∈ axisSteps) :
    (Int32.ofNat i - step).toInt = i - step.toInt ∧ -1 ≤ step.toInt ∧ step.toInt ≤ 1 := by
  revert i
  rcases mem_axisSteps.1 hstep with rfl | rfl | rfl <;> decide +kernel

/-- Along one axis, a sweep around the coordinate reaches the index. -/
def AxisReaches (coordinate : Single) (i : Fin 64) : Prop :=
  ∃ step ∈ axisSteps, onGrid? (gridIndex coordinate - step) = some i ∧
    ∀ j, onGrid? (63 - (meshIndex coordinate + step)) = some j → j = i

/-- Along one axis, a sweep around the coordinate does not read the index. -/
def AxisMisses (coordinate : Single) (i : Fin 64) : Prop :=
  ∀ step ∈ axisSteps, onGrid? (gridIndex coordinate - step) ≠ some i

/-- Where the counts agree, a step reads the file of the cell that it looks at. -/
theorem Agrees.axisReaches {coordinate : Single} (h : Agrees coordinate) {step : Int32}
    (hstep : step ∈ axisSteps) {i : Fin 64}
    (hi : onGrid? (63 - (meshIndex coordinate + step)) = some i) : AxisReaches coordinate i := by
  have hsame : gridIndex coordinate - step = 63 - (meshIndex coordinate + step) := by
    rw [h]
    grind
  refine ⟨step, hstep, hsame ▸ hi, fun j hj => ?_⟩
  rw [hi] at hj
  exact (Option.some.inj hj).symm

/-- In the middle of a tile, the indices up to one away are reached. -/
theorem axisReaches_middle (i : Fin 65) (j : Fin 64) (step : Int32) (hstep : step ∈ axisSteps)
    (h : Int32.ofNat i = Int32.ofNat j + step) : AxisReaches (middle i) j := by
  obtain ⟨hgrid, hmesh⟩ := indices_middle i
  have hagrees : Agrees (middle i) := by
    rw [Agrees, hgrid, hmesh]
    grind
  refine hagrees.axisReaches hstep ?_
  rw [onGrid?_eq_some_iff, hmesh, h]
  grind

/-- In the middle of a tile, the files of indices more than one away are not read. -/
theorem axisMisses_middle (i : Fin 65) (j : Fin 64)
    (h : (j : Nat) + 1 < i ∨ (i : Nat) + 1 < j) : AxisMisses (middle i) j := by
  intro step hstep hread
  obtain ⟨hint, hlow, hhigh⟩ := toInt_sub_step i hstep
  rw [onGrid?_eq_some_iff, (indices_middle i).1] at hread
  rw [hread, toInt_ofNat_fin] at hint
  omega

/-- A coordinate for reaching one index and missing another one, if they differ. -/
def beside (i avoid : Fin 64) : Single :=
  if avoid < i then middle (i + 1)
  else if i < avoid then (if i = 0 then middle (-2) else middle (i - 1))
  else middle i

theorem index_before {i : Fin 64} (h : 0 < (i : Nat)) :
    ((i : Nat) : Int) - 1 = ((⟨i - 1, by omega⟩ : Fin 65) : Nat) := by
  simp
  omega

theorem axisReaches_beside (i avoid : Fin 64) : AxisReaches (beside i avoid) i := by
  have hone : Int32.ofNat ((i : Nat) + 1) = Int32.ofNat i + 1 := Int32.ofNat_add _ _
  unfold beside
  by_cases hlt : avoid < i
  · rw [if_pos hlt]
    exact axisReaches_middle ⟨i + 1, by omega⟩ i 1 (by decide) hone
  · rw [if_neg hlt]
    by_cases hgt : i < avoid
    · rw [if_pos hgt]
      by_cases h0 : i = 0
      · subst h0
        rw [if_pos rfl]
        refine ⟨-1, by decide, ?_, ?_⟩
        · rw [indices_beyond.1]; decide
        · rw [indices_beyond.2]; decide
      · rw [if_neg h0]
        have hpos : 0 < (i : Nat) := Nat.pos_of_ne_zero fun h => h0 (Fin.ext h)
        have hback : Int32.ofNat ((i : Nat) - 1) = Int32.ofNat i + -1 := by
          have := Int32.ofNat_add ((i : Nat) - 1) 1
          rw [Nat.sub_add_cancel hpos] at this
          rw [this]
          grind
        rw [index_before hpos]
        exact axisReaches_middle ⟨i - 1, by omega⟩ i (-1) (by decide) hback
    · rw [if_neg hgt]
      exact axisReaches_middle ⟨i, by omega⟩ i 0 (by decide) (by grind)

theorem axisMisses_beside {i avoid : Fin 64} (h : i ≠ avoid) :
    AxisMisses (beside i avoid) avoid := by
  unfold beside
  by_cases hlt : avoid < i
  · rw [if_pos hlt]
    exact axisMisses_middle ⟨i + 1, by omega⟩ avoid (.inl (by simp; omega))
  · have hgt : i < avoid := by
      have := Fin.val_ne_of_ne h
      omega
    rw [if_neg hlt, if_pos hgt]
    by_cases h0 : i = 0
    · subst h0
      rw [if_pos rfl]
      intro step hstep hread
      rw [indices_beyond.1] at hread
      -- one step reads the first file, the others none
      have hnone : onGrid? (-1 - 0) = none ∧ onGrid? (-1 - 1) = none := by decide
      have hfirst : onGrid? (-1 - -1) = some 0 := by decide
      rcases mem_axisSteps.1 hstep with rfl | rfl | rfl
      · rw [hfirst] at hread
        exact h (Option.some.inj hread)
      · rw [hnone.1] at hread; cases hread
      · rw [hnone.2] at hread; cases hread
    · have hpos : 0 < (i : Nat) := Nat.pos_of_ne_zero fun h => h0 (Fin.ext h)
      rw [if_neg h0, index_before hpos]
      exact axisMisses_middle ⟨i - 1, by omega⟩ avoid (.inr (by simp; omega))

/-! ## Both axes -/

namespace Navigation

/-- A position for reaching one square and missing another one, if they differ. -/
def spot (q avoid : Square) : MeshPosition := ⟨beside q.y avoid.y, 0, beside q.x avoid.x⟩

/-- Reaching a square is reaching it along both axes. -/
theorem reaches_of_axes {position : MeshPosition} {q : Square}
    (hx : AxisReaches position.third q.x) (hy : AxisReaches position.first q.y) :
    (SweepCentre.extracted position).Reaches q := by
  obtain ⟨stepX, hstepX, hreadX, honlyX⟩ := hx
  obtain ⟨stepY, hstepY, hreadY, honlyY⟩ := hy
  refine ⟨(stepY, stepX), mem_neighbourhood.2 ⟨hstepY, hstepX⟩, ?_, fun other hother => ?_⟩
  · rw [onGrid?_eq_some_iff] at hreadX hreadY
    exact squareAt_eq_some_iff.2 ⟨hreadX, hreadY⟩
  · obtain ⟨hcellX, hcellY⟩ := squareAt_eq_some_iff.1 hother
    have hsameX := honlyX other.x (onGrid?_eq_some_iff.2 hcellX)
    have hsameY := honlyY other.y (onGrid?_eq_some_iff.2 hcellY)
    obtain ⟨x, y⟩ := other
    obtain ⟨x', y'⟩ := q
    simp only at hsameX hsameY
    rw [hsameX, hsameY]

/-- Where the counts agree on both axes, every cell around a position is reached. -/
theorem reaches_of_agrees {position : MeshPosition} (hfirst : Agrees position.first)
    (hthird : Agrees position.third) {step : Int32 × Int32} (hstep : step ∈ neighbourhood)
    {q : Square} (hq : squareOf ((SweepCentre.extracted position).cellAt step) = some q) :
    (SweepCentre.extracted position).Reaches q := by
  obtain ⟨hstepY, hstepX⟩ := mem_neighbourhood.1 hstep
  obtain ⟨hx, hy⟩ := squareAt_eq_some_iff.1 hq
  exact reaches_of_axes (hthird.axisReaches hstepX (onGrid?_eq_some_iff.2 hx))
    (hfirst.axisReaches hstepY (onGrid?_eq_some_iff.2 hy))

/-- From the spot for it a square is reached. -/
theorem reaches_spot (q avoid : Square) : (SweepCentre.extracted (spot q avoid)).Reaches q :=
  reaches_of_axes (axisReaches_beside q.x avoid.x) (axisReaches_beside q.y avoid.y)

/-- From the spot beside it a square's file is not read. -/
theorem misses_spot {q avoid : Square} (h : q ≠ avoid) {step : Int32 × Int32}
    (hstep : step ∈ neighbourhood) :
    (SweepCentre.extracted (spot q avoid)).squareAt step ≠ some avoid := by
  intro hread
  obtain ⟨hstepY, hstepX⟩ := mem_neighbourhood.1 hstep
  obtain ⟨hreadX, hreadY⟩ := squareAt_eq_some_iff.1 hread
  have hx : q.x = avoid.x := Classical.byContradiction fun hne =>
    axisMisses_beside hne step.2 hstepX (onGrid?_eq_some_iff.2 hreadX)
  have hy : q.y = avoid.y := Classical.byContradiction fun hne =>
    axisMisses_beside hne step.1 hstepY (onGrid?_eq_some_iff.2 hreadY)
  obtain ⟨x, y⟩ := q
  obtain ⟨x', y'⟩ := avoid
  exact h (by rw [Square.mk.injEq]; exact ⟨hx, hy⟩)

end Navigation

end Overland
