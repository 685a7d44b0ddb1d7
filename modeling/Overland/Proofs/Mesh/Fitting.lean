import Overland.Proofs.Mesh.Frame

/-!
# Where the sums of a sweep fit

A step of a sweep leads from the centre to a cell and to a file next to it, or stops where one of
the two is counted by a sum that is no word.

* `Inner` words are neither the first nor the last one, and can be stepped from in both directions.
  Around a centre of inner words no step stops, whatever the mesh (`fits_of_inner`).
* `Fits` says that a step does not stop: the sums for its cell fit, and those for its file do, or
  the cell has a tile already and they are not made.  A step that stops leaves the mesh and the
  library alone (`sweepTile_of_not_fits`).
* Around a centre that is not of inner words some step has a sum that does not fit
  (`exists_overflow`).
-/

namespace Overland

/-! ## Sums -/

namespace Arithmetic

variable {arithmetic : Arithmetic}

/-- What is in the range of words is not changed. -/
theorem word_of_range {exact : Int} (hlow : -2147483648 ≤ exact) (hhigh : exact ≤ 2147483647) :
    arithmetic.word exact = .ok (Int32.ofInt exact) := by
  have hmin : Int32.minValue.toInt = -2147483648 := rfl
  have hmax : Int32.maxValue.toInt = 2147483647 := rfl
  have hexact : (Int32.ofInt exact).toInt = exact :=
    Int32.toInt_ofInt_of_le (by omega) (by omega)
  exact if_neg fun hstop => hstop.2 hexact

theorem wrapping_add (a b : Int32) : wrapping.add a b = .ok (a + b) := by
  rw [add, word, if_neg (by simp), Int32.ofInt_add, Int32.ofInt_toInt, Int32.ofInt_toInt]

theorem wrapping_sub (a b : Int32) : wrapping.sub a b = .ok (a - b) := by
  rw [sub, word, if_neg (by simp), Int32.ofInt_sub, Int32.ofInt_toInt, Int32.ofInt_toInt]

/-- A result that is answered is the one that wraps around. -/
theorem word_cases (exact : Int) :
    arithmetic.word exact = .ok (Int32.ofInt exact) ∨ arithmetic.word exact = .error .overflow := by
  unfold word
  split
  · exact .inr rfl
  · exact .inl rfl

theorem add_cases (a b : Int32) :
    arithmetic.add a b = .ok (a + b) ∨ arithmetic.add a b = .error .overflow := by
  have h := arithmetic.word_cases (a.toInt + b.toInt)
  rwa [Int32.ofInt_add, Int32.ofInt_toInt, Int32.ofInt_toInt] at h

theorem sub_cases (a b : Int32) :
    arithmetic.sub a b = .ok (a - b) ∨ arithmetic.sub a b = .error .overflow := by
  have h := arithmetic.word_cases (a.toInt - b.toInt)
  rwa [Int32.ofInt_sub, Int32.ofInt_toInt, Int32.ofInt_toInt] at h

end Arithmetic

/-! ## Steps along one axis -/

/-- The steps of a sweep along one axis. -/
def axisSteps : List Int32 := [-1, 0, 1]

theorem mem_axisSteps {step : Int32} : step ∈ axisSteps ↔ step = -1 ∨ step = 0 ∨ step = 1 := by
  simp [axisSteps]

theorem toInt_step {step : Int32} (h : step ∈ axisSteps) : -1 ≤ step.toInt ∧ step.toInt ≤ 1 := by
  rcases mem_axisSteps.1 h with rfl | rfl | rfl <;> decide

/-- A word is neither the first nor the last one. -/
def Inner (a : Int32) : Prop := a ≠ Int32.minValue ∧ a ≠ Int32.maxValue

instance (a : Int32) : Decidable (Inner a) := inferInstanceAs (Decidable (_ ∧ _))

theorem Inner.toInt {a : Int32} (h : Inner a) : -2147483648 < a.toInt ∧ a.toInt < 2147483647 := by
  have hmin : Int32.minValue.toInt = -2147483648 := rfl
  have hmax : Int32.maxValue.toInt = 2147483647 := rfl
  obtain ⟨hlow, hhigh⟩ := h
  rw [Ne, ← Int32.toInt_inj] at hlow hhigh
  have := a.minValue_le_toInt
  have := a.toInt_le
  omega

/-- From an inner word every step leads to a word. -/
theorem Inner.add_step {a step : Int32} (ha : Inner a) (h : step ∈ axisSteps)
    (arithmetic : Arithmetic) : arithmetic.add a step = .ok (a + step) := by
  have := ha.toInt
  have := toInt_step h
  rw [Arithmetic.add, Arithmetic.word_of_range (by omega) (by omega), Int32.ofInt_add,
    Int32.ofInt_toInt, Int32.ofInt_toInt]

theorem Inner.sub_step {a step : Int32} (ha : Inner a) (h : step ∈ axisSteps)
    (arithmetic : Arithmetic) : arithmetic.sub a step = .ok (a - step) := by
  have := ha.toInt
  have := toInt_step h
  rw [Arithmetic.sub, Arithmetic.word_of_range (by omega) (by omega), Int32.ofInt_sub,
    Int32.ofInt_toInt, Int32.ofInt_toInt]

/-- From the first and the last word some step leads out of the words. -/
theorem exists_step_of_not_inner {a : Int32} (h : ¬ Inner a) :
    (∃ step ∈ axisSteps, Arithmetic.checked.add a step = .error .overflow) ∧
      ∃ step ∈ axisSteps, Arithmetic.checked.sub a step = .error .overflow := by
  have hends : a = Int32.minValue ∨ a = Int32.maxValue := by
    unfold Inner at h
    by_cases hlow : a = Int32.minValue
    · exact .inl hlow
    · exact .inr (Classical.byContradiction fun hhigh => h ⟨hlow, hhigh⟩)
  rcases hends with rfl | rfl
  · exact ⟨⟨-1, by decide, rfl⟩, 1, by decide, rfl⟩
  · exact ⟨⟨1, by decide, rfl⟩, -1, by decide, rfl⟩

namespace Navigation

theorem mem_neighbourhood {step : Int32 × Int32} :
    step ∈ neighbourhood ↔ step.1 ∈ axisSteps ∧ step.2 ∈ axisSteps := by
  obtain ⟨a, b⟩ := step
  simp only [neighbourhood, axisSteps, List.mem_cons, List.not_mem_nil, or_false, Prod.mk.injEq]
  grind

/-! ## The cells and files of a sweep -/

/-- All that a sweep counts from is inner. -/
structure InnerCentre (centre : SweepCentre) : Prop where
  column : Inner centre.column
  row : Inner centre.row
  gridX : Inner centre.gridX
  gridY : Inner centre.gridY

namespace SweepCentre

/-- The cell of the mesh that a step looks at, in words that wrap around. -/
def cellAt (c : SweepCentre) (step : Int32 × Int32) : Int32 × Int32 :=
  (c.column + step.1, c.row + step.2)

/-- The grid coordinates of the file that a step reads, in words that wrap around. -/
def fileAt (c : SweepCentre) (step : Int32 × Int32) : Int32 × Int32 :=
  (c.gridX - step.2, c.gridY - step.1)

variable (c : SweepCentre) (step : Int32 × Int32)

theorem cell_wrapping : c.cell .wrapping step = .ok (c.cellAt step) := by
  rw [cell, Arithmetic.wrapping_add, Arithmetic.wrapping_add]
  rfl

theorem file_wrapping : c.file .wrapping step = .ok (c.fileAt step) := by
  rw [file, Arithmetic.wrapping_sub, Arithmetic.wrapping_sub]
  rfl

theorem cell_cases (arithmetic : Arithmetic) :
    c.cell arithmetic step = .ok (c.cellAt step) ∨ c.cell arithmetic step = .error .overflow := by
  unfold cell
  rcases arithmetic.add_cases c.column step.1 with hcolumn | hcolumn <;> rw [hcolumn]
  · rcases arithmetic.add_cases c.row step.2 with hrow | hrow <;> rw [hrow]
    · exact .inl rfl
    · exact .inr rfl
  · exact .inr rfl

theorem file_cases (arithmetic : Arithmetic) :
    c.file arithmetic step = .ok (c.fileAt step) ∨ c.file arithmetic step = .error .overflow := by
  unfold file
  rcases arithmetic.sub_cases c.gridX step.2 with hx | hx <;> rw [hx]
  · rcases arithmetic.sub_cases c.gridY step.1 with hy | hy <;> rw [hy]
    · exact .inl rfl
    · exact .inr rfl
  · exact .inr rfl

end SweepCentre

namespace InnerCentre

variable {c : SweepCentre} {step : Int32 × Int32} (h : InnerCentre c)
  (hstep : step ∈ neighbourhood) (arithmetic : Arithmetic)
include h hstep

theorem cell : c.cell arithmetic step = .ok (c.cellAt step) := by
  obtain ⟨hfirst, hsecond⟩ := mem_neighbourhood.1 hstep
  rw [SweepCentre.cell, h.column.add_step hfirst, h.row.add_step hsecond]
  rfl

theorem file : c.file arithmetic step = .ok (c.fileAt step) := by
  obtain ⟨hfirst, hsecond⟩ := mem_neighbourhood.1 hstep
  rw [SweepCentre.file, h.gridX.sub_step hsecond, h.gridY.sub_step hfirst]
  rfl

end InnerCentre

/-- Around a centre that is not of inner words, a sum of some step does not fit. -/
theorem exists_overflow {c : SweepCentre} (h : ¬ InnerCentre c) :
    ∃ step ∈ neighbourhood,
      c.cell .checked step = .error .overflow ∨ c.file .checked step = .error .overflow := by
  have hzero : (0 : Int32) ∈ axisSteps := by decide
  by_cases hcolumn : Inner c.column
  case neg =>
    obtain ⟨⟨step, hstep, hstop⟩, -⟩ := exists_step_of_not_inner hcolumn
    refine ⟨(step, 0), mem_neighbourhood.2 ⟨hstep, hzero⟩, .inl ?_⟩
    rw [SweepCentre.cell, hstop]
    rfl
  by_cases hrow : Inner c.row
  case neg =>
    obtain ⟨⟨step, hstep, hstop⟩, -⟩ := exists_step_of_not_inner hrow
    refine ⟨(0, step), mem_neighbourhood.2 ⟨hzero, hstep⟩, .inl ?_⟩
    rw [SweepCentre.cell, hcolumn.add_step hzero, hstop]
    rfl
  by_cases hgridX : Inner c.gridX
  case neg =>
    obtain ⟨-, step, hstep, hstop⟩ := exists_step_of_not_inner hgridX
    refine ⟨(0, step), mem_neighbourhood.2 ⟨hzero, hstep⟩, .inr ?_⟩
    rw [SweepCentre.file, hstop]
    rfl
  by_cases hgridY : Inner c.gridY
  case neg =>
    obtain ⟨-, step, hstep, hstop⟩ := exists_step_of_not_inner hgridY
    refine ⟨(step, 0), mem_neighbourhood.2 ⟨hstep, hzero⟩, .inr ?_⟩
    rw [SweepCentre.file, hgridX.sub_step hzero, hstop]
    rfl
  exact absurd ⟨hcolumn, hrow, hgridX, hgridY⟩ h

/-! ## Steps that do not stop -/

section Fits

variable {σ τ μ : Type} (n : Navigation σ τ μ)

/-- A step does not stop: its cell can be counted, and so can its file, or the cell has a tile and
the file is not looked at. -/
def Fits (centre : SweepCentre) (step : Int32 × Int32) (mesh : μ) : Prop :=
  centre.cell n.arithmetic step = .ok (centre.cellAt step) ∧
    (n.library.hasTile mesh (centre.cellAt step).1 (centre.cellAt step).2 = true ∨
      centre.file n.arithmetic step = .ok (centre.fileAt step))

variable {n} {centre : SweepCentre} {step : Int32 × Int32} {mesh mesh' : μ}

theorem fits_of_inner (h : InnerCentre centre) (hstep : step ∈ neighbourhood) :
    n.Fits centre step mesh :=
  ⟨h.cell hstep n.arithmetic, .inr (h.file hstep n.arithmetic)⟩

/-- Only checked sums stop a step, and only around a centre that is not of inner words. -/
theorem of_not_fits (h : ¬ n.Fits centre step mesh) (hstep : step ∈ neighbourhood) :
    n.arithmetic = .checked ∧ ¬ InnerCentre centre := by
  refine ⟨?_, fun hinner => h (fits_of_inner hinner hstep)⟩
  cases harithmetic : n.arithmetic with
  | checked => rfl
  | wrapping =>
    refine absurd ⟨?_, .inr ?_⟩ h <;> rw [harithmetic]
    · exact centre.cell_wrapping step
    · exact centre.file_wrapping step

theorem of_not_fits_at (h : ¬ n.Fits centre step mesh) {taken rest : List (Int32 × Int32)}
    (hsteps : neighbourhood = taken ++ step :: rest) :
    n.arithmetic = .checked ∧ ¬ InnerCentre centre :=
  of_not_fits h (hsteps ▸ List.mem_append_right _ List.mem_cons_self)

/-- Around a centre that is not of inner words, some checked step stops if its cell is free. -/
theorem exists_not_fits (hchecked : n.arithmetic = .checked) (h : ¬ InnerCentre centre) :
    ∃ step ∈ neighbourhood, ∀ mesh,
      ¬ n.library.hasTile mesh (centre.cellAt step).1 (centre.cellAt step).2 = true →
        ¬ n.Fits centre step mesh := by
  obtain ⟨step, hstep, hstop⟩ := exists_overflow h
  refine ⟨step, hstep, fun mesh hfree => ?_⟩
  rintro ⟨hcell, hfile⟩
  rw [hchecked] at hcell hfile
  replace hfile := hfile.resolve_left hfree
  rcases hstop with hstop | hstop
  · rw [hstop] at hcell
    cases hcell
  · rw [hstop] at hfile
    cases hfile

/-- A step that does not stop does not stop for more tiles either. -/
theorem Fits.mono (h : n.Fits centre step mesh)
    (hkept : n.library.hasTile mesh (centre.cellAt step).1 (centre.cellAt step).2 = true →
      n.library.hasTile mesh' (centre.cellAt step).1 (centre.cellAt step).2 = true) :
    n.Fits centre step mesh' :=
  ⟨h.1, h.2.imp_left hkept⟩

/-- A step that stops leaves the mesh and the library alone. -/
theorem sweepTile_of_not_fits (h : ¬ n.Fits centre step mesh) (disk : Disk) (folder : String)
    (map : UInt32) (s : NavigationState σ τ μ) :
    ∃ ground, n.sweepTile disk folder map centre step mesh s
      = ((.error .overflow, mesh), ⟨ground, s.meshes, s.library⟩) := by
  unfold sweepTile
  rcases centre.cell_cases step n.arithmetic with hcell | hcell <;> rw [hcell]
  · have hfree : ¬ n.library.hasTile mesh (centre.cellAt step).1 (centre.cellAt step).2 = true :=
      fun htile => h ⟨hcell, .inl htile⟩
    have hfile : centre.file n.arithmetic step = .error .overflow :=
      (centre.file_cases step n.arithmetic).resolve_left fun hfile => h ⟨hcell, .inr hfile⟩
    dsimp only
    rw [if_neg hfree, hfile]
    exact ⟨_, rfl⟩
  · exact ⟨s.ground, rfl⟩

end Fits

end Navigation

end Overland
