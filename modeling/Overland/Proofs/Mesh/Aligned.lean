import Mathlib.Logic.Function.Basic
import Overland.Proofs.Ground.Isolation
import Overland.Proofs.Mesh.Growth

/-!
# Sweeps over aligned files

Where each file that a sweep reads has the tile of the cell that the sweep looks at, the nine steps
have nothing to do with each other: what becomes of a cell depends on whether it was free at the
start and on its own file, and on nothing else.

* `MeshLibrary.Accepting` is a library that takes every well-formed tile for a free cell.
* `Accepting.outcome` is what becomes of a cell, and `Told` says the same in terms of what stands in
  its file.
* `aligned_course` is the run of the nine steps, in which each step leaves the cells of the others
  alone; `aligned_sweep` is the sweep.
* `aligned_of_agrees` — the files of an extractor are aligned around every position at which the two
  counts of the sweep agree.
-/

namespace Overland

/-! ## Libraries that take well-formed tiles -/

/-- A library that takes every tile with a well-formed payload, if the cell that it names is free,
and rejects every other payload. -/
structure MeshLibrary.Accepting {τ μ : Type} (library : MeshLibrary τ μ) extends
    MeshLibrary.Keeping library where
  /-- The cell that a payload names, if it is well-formed. -/
  named : MeshTile → Option (Int32 × Int32)
  taken : ∀ {tile cell} mesh t, named tile = some cell → cell ∉ tiles mesh →
    ∃ ref mesh' t', library.addTile mesh tile t = ((.ok ref, mesh'), t') ∧
      tiles mesh' = (tiles mesh).insert cell ref
  refused : ∀ {tile} mesh t, named tile = none →
    ∃ status mesh' t', library.addTile mesh tile t = ((.error status, mesh'), t')

namespace MeshLibrary.Accepting

variable {τ μ : Type} {library : MeshLibrary τ μ} (accepting : library.Accepting)

/-- What becomes of a cell, by whether it is free and by what its file has. -/
def outcome (mesh : μ) (cell : Int32 × Int32) (file : Except MeshError (Option MeshTile)) :
    SweepOutcome :=
  if library.hasTile mesh cell.1 cell.2 then .skipped
  else match file with
    | .ok (some tile) => if (accepting.named tile).isSome then .added else .failed
    | .ok none => .skipped
    | .error _ => .failed

/-- A content that cannot be a tile of a mesh, whatever cell it is for. -/
inductive Faulty : Except DiskFault Bytes → Prop
  /-- There is something, but it cannot be read. -/
  | unreadable {fault : DiskFault} (h : fault ≠ .notFound) : Faulty (.error fault)
  /-- It is too short for a header, or has not the mark, or declares more than there is. -/
  | misshapen {bytes : Bytes} (h : MeshTile.Misshapen bytes) : Faulty (.ok bytes)
  /-- The library rejects the payload. -/
  | rejected {bytes : Bytes} (hshape : ¬ MeshTile.Misshapen bytes)
    (h : accepting.named (MeshTile.payloadIn bytes) = none) : Faulty (.ok bytes)

/-- What becomes of a cell, told from what stands in its file; there is no file for a cell beside
the map. -/
inductive Told (present : Prop) (file : Option (Except DiskFault Bytes)) : SweepOutcome → Prop
  | present (h : present) : Told present file .skipped
  | beside (h : ¬ present) (hfile : file = none) : Told present file .skipped
  | missing (h : ¬ present) (hfile : file = some (.error .notFound)) : Told present file .skipped
  | faulty (h : ¬ present) {content : Except DiskFault Bytes} (hfile : file = some content)
    (hcontent : accepting.Faulty content) : Told present file .failed
  | sound (h : ¬ present) {bytes : Bytes} {cell : Int32 × Int32} (hfile : file = some (.ok bytes))
    (hshape : ¬ MeshTile.Misshapen bytes)
    (hcell : accepting.named (MeshTile.payloadIn bytes) = some cell) : Told present file .added

end MeshLibrary.Accepting

namespace Navigation

variable {σ τ μ : Type}

/-! ## Files -/

namespace SweepCentre

/-- What the disk answers for the file of a step. -/
def contentAt (c : SweepCentre) (disk : Disk) (folder : String) (map : UInt32)
    (step : Int32 × Int32) : Option (Except DiskFault Bytes) :=
  (c.pathAt folder map step).map disk

theorem cellAt_injective (c : SweepCentre) : Function.Injective c.cellAt := by
  rintro ⟨column, row⟩ ⟨column', row'⟩ h
  obtain ⟨hcolumn, hrow⟩ := Prod.mk.inj h
  rw [Int32.add_right_inj] at hcolumn hrow
  exact Prod.ext hcolumn hrow

/-- Different steps read different files. -/
theorem pathAt_injective {c : SweepCentre} {folder : String} {map : UInt32}
    {step step' : Int32 × Int32} {path : String} (h : c.pathAt folder map step = some path)
    (h' : c.pathAt folder map step' = some path) : step = step' := by
  unfold pathAt at h h'
  rw [tilePath?_eq, Option.map_eq_some_iff] at h h'
  obtain ⟨q, hq, rfl⟩ := h
  obtain ⟨q', hq', hpath⟩ := h'
  rw [(Square.path_injective hpath).2] at hq'
  obtain ⟨hx, hy⟩ := squareAt_eq_some_iff.1 hq
  obtain ⟨hx', hy'⟩ := squareAt_eq_some_iff.1 hq'
  have hrow := hx.trans hx'.symm
  have hcolumn := hy.trans hy'.symm
  rw [Int32.sub_right_inj] at hrow hcolumn
  exact Prod.ext hcolumn hrow

/-- The file of a step is not the one that was changed for another step. -/
theorem tileFor_put_of_ne {c : SweepCentre} {folder : String} {map : UInt32}
    {step broken : Int32 × Int32} {path : String} (h : c.pathAt folder map broken = some path)
    (hne : step ≠ broken) (disk : Disk) (content : Except DiskFault Bytes) :
    c.tileFor (disk.put path content) folder map step = c.tileFor disk folder map step := by
  unfold tileFor
  cases hstep : c.pathAt folder map step with
  | none => rfl
  | some other =>
    have hother : other ≠ path := fun heq => hne (pathAt_injective hstep (heq ▸ h))
    unfold MeshTile.load Disk.put
    dsimp only
    rw [if_neg hother]

end SweepCentre

section Aligned

variable {library : MeshLibrary τ μ} (accepting : library.Accepting)

/-- What becomes of a cell of a sweep is told from its file. -/
theorem told_outcome (centre : SweepCentre) (disk : Disk) (folder : String) (map : UInt32)
    (step : Int32 × Int32) (mesh : μ) :
    accepting.Told (centre.cellAt step ∈ accepting.tiles mesh)
      (centre.contentAt disk folder map step)
      (accepting.outcome mesh (centre.cellAt step) (centre.tileFor disk folder map step)) := by
  have hhas := accepting.hasTile_iff mesh (centre.cellAt step).1 (centre.cellAt step).2
  unfold MeshLibrary.Accepting.outcome
  by_cases hcell : library.hasTile mesh (centre.cellAt step).1 (centre.cellAt step).2 = true
  · rw [if_pos hcell]
    exact .present (hhas.1 hcell)
  have hpresent : centre.cellAt step ∉ accepting.tiles mesh := mt hhas.2 hcell
  rw [if_neg hcell]
  unfold SweepCentre.contentAt SweepCentre.tileFor
  cases centre.pathAt folder map step with
  | none => exact .beside hpresent rfl
  | some path =>
    rw [Option.map_some]
    dsimp only
    rcases MeshTile.load_cases disk path with ⟨hread, hload⟩ | ⟨fault, e, hfault, hread, hload⟩
      | ⟨bytes, e, hread, hshape, hload⟩ | ⟨bytes, hread, hshape, hload⟩
    · rw [hload]
      exact .missing hpresent (congrArg some hread)
    · rw [hload]
      exact .faulty hpresent (congrArg some hread) (.unreadable hfault)
    · rw [hload]
      exact .faulty hpresent (congrArg some hread) (.misshapen hshape)
    · rw [hload]
      dsimp only
      cases hnamed : accepting.named (MeshTile.payloadIn bytes) with
      | none => exact .faulty hpresent (congrArg some hread) (.rejected hshape hnamed)
      | some cell => exact .sound hpresent (congrArg some hread) hshape hnamed

/-- **A step over an aligned file** does what the outcome of its cell says, and leaves every other
cell alone. -/
theorem Stepped.aligned {cell : Int32 × Int32} {file : Except MeshError (Option MeshTile)}
    {mesh mesh' : μ} {t t' : τ} {outcome : SweepOutcome}
    (h : Stepped library cell file mesh t outcome mesh' t')
    (haligned : ∀ tile named, file = .ok (some tile) → accepting.named tile = some named →
      named = cell) :
    outcome = accepting.outcome mesh cell file ∧
      ∀ other, other ∈ accepting.tiles mesh' ↔
        other ∈ accepting.tiles mesh ∨ (outcome = .added ∧ other = cell) := by
  have hhas := accepting.hasTile_iff mesh cell.1 cell.2
  unfold MeshLibrary.Accepting.outcome
  cases h with
  | present hcell =>
    rw [if_pos hcell]
    exact ⟨rfl, by simp⟩
  | missing hcell hfile =>
    rw [if_neg (Bool.eq_false_iff.1 hcell), hfile]
    exact ⟨rfl, by simp⟩
  | unfit hcell hfile =>
    rw [if_neg (Bool.eq_false_iff.1 hcell), hfile]
    exact ⟨rfl, by simp⟩
  | @accepted hcell tile ref _ _ hfile hadd =>
    have hfree : cell ∉ accepting.tiles mesh := mt hhas.2 (Bool.eq_false_iff.1 hcell)
    rw [if_neg (Bool.eq_false_iff.1 hcell), hfile]
    cases hnamed : accepting.named tile with
    | none =>
      obtain ⟨_, _, _, hrefused⟩ := accepting.refused mesh t hnamed
      rw [hadd] at hrefused
      cases hrefused
    | some named =>
      obtain rfl := haligned tile named hfile hnamed
      obtain ⟨ref', _, _, htaken, htiles⟩ := accepting.taken mesh t hnamed hfree
      rw [hadd] at htaken
      cases htaken
      refine ⟨by simp [hnamed], fun other => ?_⟩
      rw [htiles, Std.ExtHashMap.mem_insert, beq_iff_eq]
      simp [or_comm, eq_comm]
  | @rejected hcell tile _ _ _ hfile hadd =>
    have hfree : cell ∉ accepting.tiles mesh := mt hhas.2 (Bool.eq_false_iff.1 hcell)
    rw [if_neg (Bool.eq_false_iff.1 hcell), hfile]
    cases hnamed : accepting.named tile with
    | none =>
      rw [accepting.rejected hadd]
      exact ⟨by simp [hnamed], by simp⟩
    | some named =>
      obtain rfl := haligned tile named hfile hnamed
      obtain ⟨_, _, _, htaken, -⟩ := accepting.taken mesh t hnamed hfree
      rw [hadd] at htaken
      cases htaken

/-- What becomes of a cell depends on no tile but its own. -/
theorem outcome_congr {mesh mesh' : μ} {cell : Int32 × Int32}
    (h : cell ∈ accepting.tiles mesh' ↔ cell ∈ accepting.tiles mesh)
    (file : Except MeshError (Option MeshTile)) :
    accepting.outcome mesh' cell file = accepting.outcome mesh cell file := by
  have hhas : library.hasTile mesh' cell.1 cell.2 = library.hasTile mesh cell.1 cell.2 :=
    Bool.eq_iff_iff.2 ((accepting.hasTile_iff mesh' cell.1 cell.2).trans
      (h.trans (accepting.hasTile_iff mesh cell.1 cell.2).symm))
  unfold MeshLibrary.Accepting.outcome
  rw [hhas]

end Aligned

/-! ## Sweeps -/

section Sweep

variable {n : Navigation σ τ μ} (accepting : n.library.Accepting)

/-- **A course over aligned files.**  Each outcome is the one that its cell has in the mesh as it is
at the start, and the cells of the added tiles are new, and no others.  A step that does not stop
would not have stopped at the start. -/
theorem aligned_course {disk : Disk} {folder : String} {map : UInt32} {centre : SweepCentre}
    {steps : List (Int32 × Int32)} {mesh mesh' : μ} {t t' : τ} {outcomes : List SweepOutcome}
    (h : n.Course disk folder map centre steps mesh t outcomes mesh' t') (hsteps : steps.Nodup)
    (haligned : ∀ step ∈ steps, ∀ tile named,
      centre.tileFor disk folder map step = .ok (some tile) →
        accepting.named tile = some named → named = centre.cellAt step) :
    outcomes = steps.map (fun step =>
        accepting.outcome mesh (centre.cellAt step) (centre.tileFor disk folder map step)) ∧
      (∀ other, other ∈ accepting.tiles mesh' ↔ other ∈ accepting.tiles mesh ∨
        ∃ step ∈ steps, accepting.outcome mesh (centre.cellAt step)
          (centre.tileFor disk folder map step) = .added ∧ other = centre.cellAt step) ∧
      ∀ step ∈ steps, n.Fits centre step mesh := by
  induction h with
  | nil => exact ⟨rfl, by simp, nofun⟩
  | @cons step steps mesh mesh₁ mesh₂ _ _ _ outcome outcomes fits first rest ih =>
    obtain ⟨hfresh, hsteps⟩ := List.nodup_cons.1 hsteps
    obtain ⟨houtcome, hfirst⟩ := first.aligned accepting (haligned step List.mem_cons_self)
    obtain ⟨houtcomes, hrest, hfits⟩ :=
      ih hsteps fun later hlater => haligned later (List.mem_cons_of_mem _ hlater)
    -- the first step leaves the cells of all later ones alone
    have hcell : ∀ later ∈ steps, (centre.cellAt later ∈ accepting.tiles mesh₁ ↔
        centre.cellAt later ∈ accepting.tiles mesh) := by
      intro later hmem
      have hne : centre.cellAt later ≠ centre.cellAt step :=
        fun heq => hfresh (centre.cellAt_injective heq ▸ hmem)
      rw [hfirst]
      simp [hne]
    have hlater := fun later (hmem : later ∈ steps) =>
      outcome_congr accepting (hcell later hmem) (centre.tileFor disk folder map later)
    refine ⟨?_, fun other => ?_, ?_⟩
    · rw [List.map_cons, ← houtcome, houtcomes, List.map_congr_left hlater]
    · simp only [List.mem_cons, exists_eq_or_imp]
      rw [hrest, hfirst, or_assoc, ← houtcome]
      refine or_congr_right (or_congr_right ?_)
      constructor
      · rintro ⟨later, hmem, hadded, hother⟩
        exact ⟨later, hmem, hlater later hmem ▸ hadded, hother⟩
      · rintro ⟨later, hmem, hadded, hother⟩
        exact ⟨later, hmem, (hlater later hmem).trans hadded, hother⟩
    · intro other hother
      rcases List.mem_cons.1 hother with rfl | hother
      · exact fits
      · refine (hfits other hother).mono fun htile => ?_
        rw [accepting.hasTile_iff] at htile ⊢
        exact (hcell other hother).1 htile

/-- The files of a sweep are aligned: where a file that a step reads has a well-formed payload, it
is for the cell that the step looks at. -/
def Aligned (disk : Disk) (folder : String) (map : UInt32) (centre : SweepCentre) : Prop :=
  ∀ step ∈ neighbourhood, ∀ tile named, centre.tileFor disk folder map step = .ok (some tile) →
    accepting.named tile = some named → named = centre.cellAt step

/-- A sweep goes by the outcomes of its steps: it answers their counts, and loads the cells of the
added tiles and nothing else. -/
structure GoesBy (disk : Disk) (position : MeshPosition) (map owner : UInt32)
    (s : NavigationState σ τ μ) (mesh : μ) (outcome : Int32 × Int32 → SweepOutcome) (mesh' : μ) :
    Prop where
  answer : (n.sweep disk position map owner s).1
    = .ok (some (.ofOutcomes (neighbourhood.map outcome)))
  left : meshIn (n.sweep disk position map owner s).2 owner = some mesh'
  cells : ∀ cell, cell ∈ accepting.tiles mesh' ↔ cell ∈ accepting.tiles mesh ∨
    ∃ step ∈ neighbourhood, outcome step = .added ∧
      cell = (sweepCentre n.library mesh position).cellAt step
  /-- The tiles that were there keep their references. -/
  kept : ∀ (cell : Int32 × Int32) (ref : UInt64), (accepting.tiles mesh)[cell]? = some ref →
    (accepting.tiles mesh')[cell]? = some ref

section Sweep

variable {folder : String} (hfolder : n.meshFolder = some folder) {disk : Disk}
  {position : MeshPosition} {map owner : UInt32} {s : NavigationState σ τ μ} {mesh : μ}
  (hmesh : meshIn s owner = some mesh)
  (haligned : Aligned accepting disk folder map (sweepCentre n.library mesh position))
include hfolder hmesh haligned

/-- A sweep over aligned files stops, or none of its steps would have stopped at the start. -/
theorem stops_or_fits :
    (n.arithmetic = .checked ∧ ¬ InnerCentre (sweepCentre n.library mesh position) ∧
        (n.sweep disk position map owner s).1 = .error .overflow) ∨
      ∀ step ∈ neighbourhood, n.Fits (sweepCentre n.library mesh position) step mesh := by
  obtain ⟨taken, outcomes, mesh', t', hcourse, -, hend⟩ :=
    course_sweep disk map hfolder position hmesh
  rcases hend with ⟨rfl, -⟩ | ⟨step, rest, hsteps, hstop, hanswer⟩
  · exact .inr (aligned_course accepting hcourse (by decide) haligned).2.2
  · obtain ⟨hchecked, hinner⟩ := of_not_fits_at hstop hsteps
    exact .inl ⟨hchecked, hinner, hanswer⟩

theorem goesBy_of_aligned
    (hfits : ∀ step ∈ neighbourhood, n.Fits (sweepCentre n.library mesh position) step mesh) :
    ∃ mesh', GoesBy accepting disk position map owner s mesh
      (fun step => accepting.outcome mesh ((sweepCentre n.library mesh position).cellAt step)
        ((sweepCentre n.library mesh position).tileFor disk folder map step)) mesh' := by
  obtain ⟨taken, outcomes, mesh', t', hcourse, hmesh', hend⟩ :=
    course_sweep disk map hfolder position hmesh
  have hgrowth := hcourse.growth accepting.toKeeping
  rcases hend with ⟨rfl, hanswer⟩ | ⟨step, rest, hsteps, hstop, -⟩
  · obtain ⟨houtcomes, hcells, -⟩ := aligned_course accepting hcourse (by decide) haligned
    rw [houtcomes] at hanswer
    exact ⟨mesh', hanswer, hmesh', hcells, hgrowth.kept⟩
  · have hstep : step ∈ neighbourhood := hsteps ▸ List.mem_append_right _ List.mem_cons_self
    exact absurd ((hfits step hstep).mono hgrowth.hasTile) hstop

end Sweep

/-- **The files of an extractor are aligned** around a position if the two counts of the sweep agree
on both of its axes. -/
theorem aligned_of_agrees {disk : Disk} {folder : String} {map : UInt32} {position : MeshPosition}
    (hfiles : ∀ (q : Square) bytes, disk (q.path folder map) = .ok bytes →
      ∃ tile, MeshTile.decode (q.path folder map) bytes = .ok tile ∧
        accepting.named tile = some q.meshTile)
    (hfirst : Agrees position.first) (hthird : Agrees position.third) :
    Aligned accepting disk folder map (.extracted position) := by
  intro step _ tile named htile hnamed
  unfold SweepCentre.tileFor SweepCentre.pathAt at htile
  rw [tilePath?_eq] at htile
  cases hq : squareAt ((SweepCentre.extracted position).gridX - step.2)
      ((SweepCentre.extracted position).gridY - step.1) with
  | none =>
    rw [hq] at htile
    cases htile
  | some q =>
    rw [hq] at htile
    obtain ⟨bytes, hread, hdecode⟩ := MeshTile.decoded_of_load htile
    obtain ⟨tile', hdecode', hnamed'⟩ := hfiles q bytes hread
    rw [hdecode] at hdecode'
    cases hdecode'
    rw [hnamed] at hnamed'
    cases hnamed'
    -- the square of the file is the one of the cell
    obtain ⟨hx, hy⟩ := squareAt_eq_some_iff.1 hq
    unfold Agrees at hfirst hthird
    simp only [SweepCentre.extracted] at hx hy
    simp only [Square.meshTile, SweepCentre.cellAt, SweepCentre.extracted, ← hx, ← hy, hfirst,
      hthird]
    exact Prod.ext (by grind) (by grind)

/-- In a faulty content there is no well-formed payload. -/
theorem named_of_faulty {disk : Disk} {path : String} {tile : MeshTile}
    (hfaulty : accepting.Faulty (disk path)) (hload : MeshTile.load disk path = .ok (some tile)) :
    accepting.named tile = none := by
  rcases MeshTile.load_cases disk path with ⟨-, h⟩ | ⟨_, _, -, -, h⟩ | ⟨_, _, -, -, h⟩
    | ⟨bytes, hread, hshape, h⟩
  case inr.inr.inr =>
    rw [hload] at h
    cases h
    rw [hread] at hfaulty
    cases hfaulty with
    | misshapen hshape' => exact absurd hshape' hshape
    | rejected _ hnamed => exact hnamed
  all_goals
    rw [hload] at h
    cases h

/-- With a faulty content in the place of one of their files, the files are aligned as before. -/
theorem aligned_put {disk : Disk} {folder : String} {map : UInt32} {centre : SweepCentre}
    (h : Aligned accepting disk folder map centre) {broken : Int32 × Int32} {path : String}
    (hpath : centre.pathAt folder map broken = some path) {content : Except DiskFault Bytes}
    (hfaulty : accepting.Faulty content) :
    Aligned accepting (disk.put path content) folder map centre := by
  intro step hstep tile named htile hnamed
  by_cases hbroken : step = broken
  · subst hbroken
    unfold SweepCentre.tileFor at htile
    rw [hpath] at htile
    have hput : accepting.Faulty (disk.put path content path) := by
      rw [Disk.put, if_pos rfl]
      exact hfaulty
    rw [named_of_faulty accepting hput htile] at hnamed
    cases hnamed
  · rw [SweepCentre.tileFor_put_of_ne hpath hbroken] at htile
    exact h step hstep tile named htile hnamed

/-- A step over a faulty content fails, unless its cell has a tile already. -/
theorem outcome_of_faulty (centre : SweepCentre) {disk : Disk} {folder : String} {map : UInt32}
    {broken : Int32 × Int32} {path : String} (hpath : centre.pathAt folder map broken = some path)
    {content : Except DiskFault Bytes} (hfaulty : accepting.Faulty content) (mesh : μ) :
    accepting.outcome mesh (centre.cellAt broken)
        (centre.tileFor (disk.put path content) folder map broken)
      = if centre.cellAt broken ∈ accepting.tiles mesh then .skipped else .failed := by
  have htold := told_outcome accepting centre (disk.put path content) folder map broken mesh
  have hcontent : centre.contentAt (disk.put path content) folder map broken = some content := by
    rw [SweepCentre.contentAt, hpath, Option.map_some, Disk.put, if_pos rfl]
  rw [hcontent] at htold
  generalize accepting.outcome mesh (centre.cellAt broken)
    (centre.tileFor (disk.put path content) folder map broken) = outcome at htold ⊢
  cases htold with
  | present h => rw [if_pos h]
  | beside h hfile => cases hfile
  | missing h hfile =>
    cases hfile
    cases hfaulty with
    | unreadable hfault => exact absurd rfl hfault
  | faulty h _ _ => rw [if_neg h]
  | sound h hfile hshape hcell =>
    cases hfile
    cases hfaulty with
    | misshapen hshape' => exact absurd hshape' hshape
    | rejected _ hnamed =>
      rw [hcell] at hnamed
      cases hnamed

/-- Outcomes that differ at one step, which adds nothing now, differ in no cell but that of the
step. -/
theorem GoesBy.cells_update {disk disk' : Disk} {position : MeshPosition} {map owner : UInt32}
    {s : NavigationState σ τ μ} {mesh mesh' mesh'' : μ} {outcome : Int32 × Int32 → SweepOutcome}
    {broken : Int32 × Int32} {now : SweepOutcome}
    (h : GoesBy accepting disk position map owner s mesh outcome mesh')
    (hnow : GoesBy accepting disk' position map owner s mesh
      (Function.update outcome broken now) mesh'') (hadded : now ≠ .added) (cell : Int32 × Int32) :
    cell ∈ accepting.tiles mesh'' ↔ cell ∈ accepting.tiles mesh' ∧
      (cell = (sweepCentre n.library mesh position).cellAt broken →
        cell ∈ accepting.tiles mesh) := by
  rw [h.cells, hnow.cells]
  constructor
  · rintro (hold | ⟨step, hstep, hstepAdded, rfl⟩)
    · exact ⟨.inl hold, fun _ => hold⟩
    · have hne : step ≠ broken := by
        rintro rfl
        exact hadded ((Function.update_self step now outcome).symm.trans hstepAdded)
      rw [Function.update_of_ne hne] at hstepAdded
      refine ⟨.inr ⟨step, hstep, hstepAdded, rfl⟩, fun heq => absurd ?_ hne⟩
      exact (sweepCentre n.library mesh position).cellAt_injective heq
  · rintro ⟨hold | ⟨step, hstep, hstepAdded, rfl⟩, hbroken⟩
    · exact .inl hold
    · by_cases hne : step = broken
      · exact .inl (hbroken (congrArg _ hne))
      · refine .inr ⟨step, hstep, ?_, rfl⟩
        rw [Function.update_of_ne hne]
        exact hstepAdded

/-- **A sweep over aligned files,** into any mesh, around any position and over any contents of the
files.

What becomes of each of the nine cells is told from its own file, if the cell is free: a tile is
added if the file has a well-formed payload, the cell is skipped if there is no file, and any other
content fails.  The mesh has the cells that it had, with their references, and those of the added
tiles, and no more.  A faulty content in the place of one file changes what becomes of its own cell
and nothing else: that cell fails, unless it was not free.

Only where sums are checked, and around a centre that is not of inner words, can the sweep stop
before that. -/
theorem aligned_sweep (n : Navigation σ τ μ) (accepting : n.library.Accepting) {folder : String}
    (hfolder : n.meshFolder = some folder) (disk : Disk) (position : MeshPosition) (map : UInt32)
    {owner : UInt32} {s : NavigationState σ τ μ} {mesh : μ} (hmesh : meshIn s owner = some mesh)
    (haligned : Aligned accepting disk folder map (sweepCentre n.library mesh position)) :
    (n.arithmetic = .checked ∧ ¬ InnerCentre (sweepCentre n.library mesh position) ∧
      (n.sweep disk position map owner s).1 = .error .overflow) ∨
    ∃ outcome mesh', GoesBy accepting disk position map owner s mesh outcome mesh' ∧
      (∀ step ∈ neighbourhood, accepting.Told
        ((sweepCentre n.library mesh position).cellAt step ∈ accepting.tiles mesh)
        ((sweepCentre n.library mesh position).contentAt disk folder map step) (outcome step)) ∧
      ∀ broken ∈ neighbourhood, ∀ path content,
        (sweepCentre n.library mesh position).pathAt folder map broken = some path →
        accepting.Faulty content →
        ∃ mesh'', GoesBy accepting (disk.put path content) position map owner s mesh
            (Function.update outcome broken
              (if (sweepCentre n.library mesh position).cellAt broken ∈ accepting.tiles mesh
                then .skipped else .failed)) mesh'' ∧
          ∀ cell, cell ∈ accepting.tiles mesh'' ↔ cell ∈ accepting.tiles mesh' ∧
            (cell = (sweepCentre n.library mesh position).cellAt broken →
              cell ∈ accepting.tiles mesh) := by
  refine (stops_or_fits accepting hfolder hmesh haligned).imp_right fun hfits => ?_
  obtain ⟨mesh', hgoes⟩ := goesBy_of_aligned accepting hfolder hmesh haligned hfits
  refine ⟨_, mesh', hgoes, fun step _ => told_outcome accepting _ disk folder map step mesh, ?_⟩
  intro broken _ path content hpath hfaulty
  obtain ⟨mesh'', hbroken⟩ :=
    goesBy_of_aligned accepting hfolder hmesh (aligned_put accepting haligned hpath hfaulty) hfits
  -- the other steps read what they read before
  have houtcome : (fun step => accepting.outcome mesh
        ((sweepCentre n.library mesh position).cellAt step)
        ((sweepCentre n.library mesh position).tileFor (disk.put path content) folder map step))
      = Function.update (fun step => accepting.outcome mesh
          ((sweepCentre n.library mesh position).cellAt step)
          ((sweepCentre n.library mesh position).tileFor disk folder map step)) broken
        (if (sweepCentre n.library mesh position).cellAt broken ∈ accepting.tiles mesh
          then .skipped else .failed) := by
    funext step
    by_cases hne : step = broken
    · subst hne
      rw [Function.update_self]
      exact outcome_of_faulty accepting _ hpath hfaulty mesh
    · rw [Function.update_of_ne hne, SweepCentre.tileFor_put_of_ne hpath hne]
  rw [houtcome] at hbroken
  refine ⟨mesh'', hbroken, hgoes.cells_update accepting hbroken ?_⟩
  split <;> exact nofun

end Sweep

end Navigation

/-! ## Rosters -/

namespace Roster

theorem add_of_free {tile : MeshTile} {cell : Int32 × Int32} (roster : Roster) (t : Unit)
    (hnamed : named tile = some cell) (hfree : cell ∉ byCell roster.tiles) :
    ∃ ref roster' t', library.addTile roster tile t = ((.ok ref, roster'), t') ∧
      byCell roster'.tiles = (byCell roster.tiles).insert cell ref := by
  refine ⟨1, { roster with tiles := cell :: roster.tiles }, t, ?_, rfl⟩
  rcases roster.add_cases tile with ⟨status, -, htaken⟩ | ⟨cell', hnamed', -, h⟩
  · exact absurd (htaken cell hnamed) hfree
  · rw [hnamed] at hnamed'
    cases hnamed'
    exact congrArg (·, t) h

theorem add_of_unnamed {tile : MeshTile} (roster : Roster) (t : Unit) (hnamed : named tile = none) :
    ∃ status roster' t', library.addTile roster tile t = ((.error status, roster'), t') := by
  rcases roster.add_cases tile with ⟨status, h, -⟩ | ⟨cell, hnamed', -, h⟩
  · exact ⟨status, roster, t, congrArg (·, t) h⟩
  · rw [hnamed] at hnamed'
    cases hnamed'

/-- Rosters take every payload of eight bytes or more for a free cell. -/
def accepting : library.Accepting where
  toKeeping := keeping
  named := named
  taken := @add_of_free
  refused := @add_of_unnamed

end Roster

namespace Navigation

/-- The middle of a tile in the middle of the map. -/
def midland : MeshPosition := ⟨middle 31, 0, middle 31⟩

/-- Around the middle of a tile, the files of the full disk are aligned, so a sweep goes by what
stands in each of them. -/
theorem aligned_sweep_fullDisk :
    Aligned (n := rosterWays) Roster.accepting fullDisk "" 0
        (sweepCentre rosterWays.library .blank midland) ∧
      ∃ outcome mesh', GoesBy (n := rosterWays) Roster.accepting fullDisk midland 0 0
        (holding .blank) .blank outcome mesh' := by
  have hagrees : Agrees (middle 31) := by decide +kernel
  have hcentre : sweepCentre rosterWays.library .blank midland
      = .extracted midland := sweepCentre_eq Roster.plain ⟨rfl, rfl, rfl, rfl⟩ midland
  have haligned : Aligned (n := rosterWays) Roster.accepting fullDisk "" 0
      (sweepCentre rosterWays.library .blank midland) := by
    rw [hcentre]
    exact aligned_of_agrees (n := rosterWays) Roster.accepting (extracted_fullDisk.tile 0) hagrees
      hagrees
  rcases aligned_sweep rosterWays Roster.accepting rfl fullDisk midland 0
    (meshIn_holding Roster.blank) haligned with ⟨-, hinner, -⟩ | ⟨outcome, mesh', hgoes, -⟩
  · rw [hcentre] at hinner
    have hcolumn : Inner (meshIndex (middle 31)) := by decide +kernel
    have hgrid : Inner (gridIndex (middle 31)) := by decide +kernel
    exact absurd ⟨hcolumn, hcolumn, hgrid, hgrid⟩ hinner
  · exact ⟨haligned, outcome, mesh', hgoes⟩

end Navigation

end Overland
