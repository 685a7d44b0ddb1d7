import Overland.Proofs.Mesh.Frame
import Overland.Route

/-!
# What there is to find for a route

The corners of a route are searched by up to four queries to a mesh, each made only if those before
it found what they were to find.  `Findings` are the answers to all four, asked one after the other
(`Navigation.Asked`).  They decide what the search answers and after which query it ends
(`Navigation.findCorners_eq`).
-/

namespace Overland

variable {τ μ α β : Type}

/-- What the four queries for a route answer: the polygons nearest to both ends, the polygons from
one to the other, and the corners of a path through those. -/
structure Findings where
  start : Status × UInt64
  goal : Status × UInt64
  corridor : Status × List UInt64
  straight : Status × List MeshPosition
  deriving DecidableEq, Repr

namespace Findings

/-- A query failed, or did not find what it was to find. -/
def NoWay (f : Findings) : Prop :=
  (f.start.1.includes .failure ∨ f.start.2 = 0) ∨ (f.goal.1.includes .failure ∨ f.goal.2 = 0) ∨
    (f.corridor.1.includes .failure ∨ f.corridor.2 = []) ∨
    (f.straight.1.includes .failure ∨ f.straight.2.length < 2)
  deriving Decidable

/-- The goal was not reached, or a list did not fit its buffer. -/
def CutShort (f : Findings) : Prop :=
  (f.corridor.1.includes .partialResult ∨ f.corridor.1.includes .bufferTooSmall) ∨
    (f.straight.1.includes .partialResult ∨ f.straight.1.includes .bufferTooSmall)
  deriving Decidable

theorem decide_cutShort (f : Findings) :
    decide f.CutShort = (f.corridor.1.isPartial || f.straight.1.isPartial) := by
  rw [Bool.eq_iff_iff, decide_eq_true_iff]
  simp only [CutShort, Status.isPartial, Bool.or_eq_true]

/-- Of what there is after each of the queries, that which there is after the last one that the
search makes.  A start without a polygon is noticed after the second query only. -/
def atEnd (f : Findings) (first second third fourth : α) : α :=
  if f.start.1.failed then first
  else if f.goal.1.failed ∨ f.start.2 = 0 ∨ f.goal.2 = 0 then second
  else if f.corridor.1.failed ∨ f.corridor.2 = [] then third
  else fourth

theorem map_atEnd (f : Findings) (g : α → β) (first second third fourth : α) :
    g (f.atEnd first second third fourth) = f.atEnd (g first) (g second) (g third) (g fourth) := by
  unfold atEnd
  split
  · rfl
  split
  · rfl
  split <;> rfl

end Findings

namespace Navigation

/-- The four queries, asked one after the other. -/
structure Asked (library : MeshLibrary τ μ) (mesh : μ) (start goal : MeshPosition) (t : τ)
    (f : Findings) (t₁ t₂ t₃ t₄ : τ) : Prop where
  nearStart : library.nearest mesh start searchExtents t = (f.start, t₁)
  nearGoal : library.nearest mesh goal searchExtents t₁ = (f.goal, t₂)
  corridor : library.corridor mesh f.start.2 f.goal.2 start goal polygonLimit t₂
    = (f.corridor, t₃)
  straight : library.corners mesh start goal f.corridor.2 cornerLimit t₃ = (f.straight, t₄)

/-- What the four queries find. -/
def findings (library : MeshLibrary τ μ) (mesh : μ) (start goal : MeshPosition) :
    StateM τ Findings := do
  let fromStart ← library.nearest mesh start searchExtents
  let fromGoal ← library.nearest mesh goal searchExtents
  let corridor ← library.corridor mesh fromStart.2 fromGoal.2 start goal polygonLimit
  let straight ← library.corners mesh start goal corridor.2 cornerLimit
  return ⟨fromStart, fromGoal, corridor, straight⟩

theorem exists_asked (library : MeshLibrary τ μ) (mesh : μ) (start goal : MeshPosition) (t : τ) :
    ∃ t₁ t₂ t₃ t₄,
      Asked library mesh start goal t (findings library mesh start goal t).1 t₁ t₂ t₃ t₄ :=
  ⟨_, _, _, _, rfl, rfl, rfl, rfl⟩

/-- **What the search for corners does**, told from what there is to find. -/
theorem findCorners_eq {library : MeshLibrary τ μ} {mesh : μ} {start goal : MeshPosition}
    {t t₁ t₂ t₃ t₄ : τ} {f : Findings} (h : Asked library mesh start goal t f t₁ t₂ t₃ t₄) :
    findCorners library mesh start goal t
      = (if f.NoWay then none else some (f.straight.2, decide f.CutShort),
        f.atEnd t₁ t₂ t₃ t₄) := by
  unfold findCorners
  rw [bind_apply, h.nearStart]
  dsimp only
  by_cases hstart : f.start.1.failed = true
  · have hno : f.NoWay := .inl (.inl hstart)
    rw [if_pos hno, if_pos hstart, Findings.atEnd, if_pos hstart]
    rfl
  rw [if_neg hstart, bind_apply, h.nearGoal]
  dsimp only
  by_cases hgoal : f.goal.1.failed = true ∨ f.start.2 = 0 ∨ f.goal.2 = 0
  · have hno : f.NoWay := by
      rcases hgoal with hfailed | hzero | hzero
      · exact .inr (.inl (.inl hfailed))
      · exact .inl (.inr hzero)
      · exact .inr (.inl (.inr hzero))
    rw [if_pos hno, if_pos (by simpa [or_assoc] using hgoal), Findings.atEnd, if_neg hstart,
      if_pos hgoal]
    rfl
  rw [if_neg (by simpa [or_assoc] using hgoal), bind_apply, h.corridor]
  dsimp only
  by_cases hcorridor : f.corridor.1.failed = true ∨ f.corridor.2 = []
  · have hno : f.NoWay := .inr (.inr (.inl hcorridor))
    rw [if_pos hno, if_pos (by simpa using hcorridor), Findings.atEnd, if_neg hstart,
      if_neg hgoal, if_pos hcorridor]
    rfl
  rw [if_neg (by simpa using hcorridor), bind_apply, h.straight, Findings.atEnd, if_neg hstart,
    if_neg hgoal, if_neg hcorridor]
  dsimp only
  by_cases hstraight : f.straight.1.failed = true ∨ f.straight.2.length < 2
  · have hno : f.NoWay := .inr (.inr (.inr hstraight))
    rw [if_pos hno, if_pos (by simpa using hstraight)]
    rfl
  have hway : ¬ f.NoWay := by
    rintro (hno | hno | hno | hno)
    · exact hno.elim hstart fun hzero => hgoal (.inr (.inl hzero))
    · exact hno.elim (fun hfailed => hgoal (.inl hfailed)) fun hzero => hgoal (.inr (.inr hzero))
    · exact hcorridor hno
    · exact hstraight hno
  rw [if_neg hway, if_neg (by simpa using hstraight)]
  rw [f.decide_cutShort]
  rfl

end Navigation

end Overland
