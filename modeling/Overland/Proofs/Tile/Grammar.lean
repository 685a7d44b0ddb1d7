import Overland.Proofs.Tile.Layout

/-!
# Which files are tiles

A tile file has to meet six conditions, and they are checked in a fixed order: the header is there
as a whole, the two marks of the header are right, and each of the three sections is missing or fits
into the file.  Nothing else is asked: sections may lie anywhere, over each other and inside the
header.

* `SectionForm.Fits` is the condition on a section, `sectionAt_of_fits` and `sectionAt_of_not_fits`
  say that the reader decides it.
* `Tile.Condition` lists the conditions, and `decode_verdict` says what becomes of a file: if it
  meets all of them, it is the tile whose fields stand where the layout says; otherwise it is
  refused for the first condition that it violates.
* `decode_iff_conditions` is both directions at once: the files that are tiles, and the faults of
  all others.
-/

namespace Overland

/-! ## Sections -/

/-- What the format says of a section. -/
structure SectionForm where
  part : Section
  mark : Mark
  /-- Where the header holds its offset. -/
  offsetPlace : Nat
  /-- Number of bytes of the section at a place of a file. -/
  lengthAt : Bytes → Nat → Nat

namespace SectionForm

/-- The area section. -/
def area : SectionForm := ⟨.area, .area, 12, AreaLayer.lengthAt⟩

/-- The height section. -/
def height : SectionForm := ⟨.height, .height, 20, HeightLayer.lengthAt⟩

/-- The liquid section. -/
def liquid : SectionForm := ⟨.liquid, .liquid, 28, LiquidLayer.lengthAt⟩

variable (f : SectionForm) (bytes : Bytes)

/-- The offset of the section, zero if it is missing. -/
def offset : UInt32 := bytes.scalar f.offsetPlace

/-- The place of the section in its file. -/
def place : Nat := (f.offset bytes).toNat

/-- The section is missing, or it starts with its mark and fits into the file. -/
def Fits : Prop :=
  f.offset bytes = 0 ∨
    bytes.scalar (f.place bytes) = f.mark.word ∧
      f.place bytes + f.lengthAt bytes (f.place bytes) ≤ bytes.size

instance : Decidable (f.Fits bytes) := inferInstanceAs (Decidable (_ ∨ _))

/-- The content of the section, from what stands at a place and what stands for a missing one. -/
def content {α : Type} (absent : α) (stored : Bytes → Nat → α) : α :=
  if f.offset bytes = 0 then absent else stored bytes (f.place bytes)

end SectionForm

section SectionAt

variable {α : Type} {f : SectionForm} {bytes : Bytes} {reader : TileReader α}
  {stored : Bytes → Nat → α}

theorem sectionAt_of_fits
    (h : ∀ place, Marked f.part f.mark reader bytes place (f.lengthAt bytes place)
      (stored bytes place)) (absent : α) (hfits : f.Fits bytes) :
    sectionAt bytes (f.offset bytes) absent reader = .ok (f.content bytes absent stored) := by
  unfold sectionAt SectionForm.content
  by_cases hoffset : f.offset bytes = 0
  · rw [if_pos hoffset, if_pos hoffset]
  · rw [if_neg hoffset, if_neg hoffset]
    obtain ⟨hmark, hsize⟩ := hfits.resolve_left hoffset
    exact (h _).run_of_fits hmark hsize

theorem sectionAt_of_not_fits
    (h : ∀ place, Marked f.part f.mark reader bytes place (f.lengthAt bytes place)
      (stored bytes place)) (absent : α) (hfits : ¬ f.Fits bytes) :
    ∃ e, f.mark.Refuses f.part bytes (f.place bytes) e ∧
      sectionAt bytes (f.offset bytes) absent reader = .error e := by
  obtain ⟨hoffset, hnot⟩ := not_or.1 hfits
  rw [sectionAt, if_neg hoffset]
  exact (h _).refused hnot

end SectionAt

/-! ## The header -/

/-- A file that is shorter than a header is refused for that. -/
theorem headerOf_of_short {bytes : Bytes} (h : bytes.size < 44) :
    ∃ cause : ReadError, cause.RunsPast bytes.size ∧
      headerOf bytes = .error (.truncated .header cause) := by
  obtain ⟨cause, hcause, hrun⟩ := ((takes_readHeader bytes).inPart .header).past (Nat.zero_le _)
    (by omega)
  refine ⟨cause, hcause, ?_⟩
  simp only [headerOf, Buffer.ofBytes, StateT.run', bind, StateT.bind, hrun, Except.bind]
  rfl

/-- Any other header is refused for its first wrong mark. -/
theorem headerOf_of_le {bytes : Bytes} (h : 44 ≤ bytes.size) :
    headerOf bytes =
      if bytes.scalar 0 = Mark.file.word then
        if bytes.scalar 4 = Mark.version.word then .ok (.stored bytes)
        else .error (.wrongMark .version (bytes.scalar 4))
      else .error (.wrongMark .file (bytes.scalar 0)) := by
  have hrun := ((takes_readHeader bytes).inPart .header).ok (by omega)
  simp only [headerOf, Buffer.ofBytes, StateT.run', bind, StateT.bind, hrun, Except.bind,
    TileReader.expect, TileHeader.stored]
  by_cases hfile : bytes.scalar 0 = Mark.file.word
  · by_cases hversion : bytes.scalar 4 = Mark.version.word
    · simp only [if_pos hfile, if_pos hversion]
      rfl
    · simp only [if_pos hfile, if_neg hversion]
      rfl
  · simp only [if_neg hfile]
    rfl

/-! ## Files -/

namespace Tile

/-- The conditions that a tile file has to meet. -/
inductive Condition where
  | header
  | fileMark
  | versionMark
  | area
  | height
  | liquid
  deriving DecidableEq, Repr

namespace Condition

/-- What a condition asks of a file. -/
def Holds (bytes : Bytes) : Condition → Prop
  | header => 44 ≤ bytes.size
  | fileMark => bytes.scalar 0 = Mark.file.word
  | versionMark => bytes.scalar 4 = Mark.version.word
  | area => SectionForm.area.Fits bytes
  | height => SectionForm.height.Fits bytes
  | liquid => SectionForm.liquid.Fits bytes

instance (bytes : Bytes) (c : Condition) : Decidable (c.Holds bytes) := by
  cases c <;> unfold Holds <;> infer_instance

/-- The fault that a file is refused with for a condition. -/
def Refuses (bytes : Bytes) (c : Condition) (e : DecodeFault) : Prop :=
  match c with
  | header => ∃ cause : ReadError, cause.RunsPast bytes.size ∧ e = .truncated .header cause
  | fileMark => e = .wrongMark .file (bytes.scalar 0)
  | versionMark => e = .wrongMark .version (bytes.scalar 4)
  | area => Mark.area.Refuses .area bytes (SectionForm.area.place bytes) e
  | height => Mark.height.Refuses .height bytes (SectionForm.height.place bytes) e
  | liquid => Mark.liquid.Refuses .liquid bytes (SectionForm.liquid.place bytes) e

/-- The conditions in the order in which they are checked. -/
def order : List Condition := [header, fileMark, versionMark, area, height, liquid]

/-- The first condition that a file violates. -/
def firstViolated? (bytes : Bytes) : Option Condition :=
  order.find? fun c => ¬ c.Holds bytes

theorem mem_order (c : Condition) : c ∈ order := by
  cases c <;> decide

theorem firstViolated?_eq_none_iff (bytes : Bytes) :
    firstViolated? bytes = none ↔ ∀ c : Condition, c.Holds bytes := by
  simp [firstViolated?, List.find?_eq_none, mem_order]

/-- A condition is the first that is violated if all that are checked before it hold. -/
theorem firstViolated?_eq_some {bytes : Bytes} {c : Condition} (before : List Condition)
    {after : List Condition} (horder : order = before ++ c :: after)
    (hbefore : ∀ d ∈ before, d.Holds bytes) (hc : ¬ c.Holds bytes) :
    firstViolated? bytes = some c := by
  rw [firstViolated?, horder, List.find?_append, List.find?_eq_none.2 (by simpa using hbefore)]
  simp [hc]

end Condition

/-- The tile whose fields stand in a file where the layout says. -/
def stored (bytes : Bytes) : Tile where
  area := SectionForm.area.content bytes .absent AreaLayer.storedAt
  height := SectionForm.height.content bytes .absent HeightLayer.storedAt
  liquid := SectionForm.liquid.content bytes .absent LiquidLayer.storedAt

/-- A file with a right header is decided by its sections. -/
theorem decode_of_header {bytes : Bytes} (hheader : Condition.header.Holds bytes)
    (hfile : Condition.fileMark.Holds bytes) (hversion : Condition.versionMark.Holds bytes) :
    decode bytes = do
      let area ← sectionAt bytes (SectionForm.area.offset bytes) .absent readArea
      let height ← sectionAt bytes (SectionForm.height.offset bytes) .absent readHeight
      let liquid ← sectionAt bytes (SectionForm.liquid.offset bytes) .absent readLiquid
      return ⟨area, height, liquid⟩ := by
  have hrun : headerOf bytes = .ok (.stored bytes) := by
    rw [headerOf_of_le hheader]
    exact (if_pos hfile).trans (if_pos hversion)
  rw [decode, hrun]
  rfl

/-- **What becomes of a file.**  If it meets all conditions it is a tile, and otherwise it is
refused for the first condition that it violates. -/
theorem decode_verdict (bytes : Bytes) :
    match Condition.firstViolated? bytes with
    | none => decode bytes = .ok (stored bytes)
    | some c => ∃ e, c.Refuses bytes e ∧ decode bytes = .error e := by
  -- the conditions in their order: each either stops the reader or lets it go on
  by_cases hheader : Condition.header.Holds bytes
  case neg =>
    obtain ⟨cause, hcause, hrun⟩ := headerOf_of_short (Nat.lt_of_not_le hheader)
    rw [Condition.firstViolated?_eq_some [] rfl (by simp) hheader]
    exact ⟨_, ⟨cause, hcause, rfl⟩, by rw [decode, hrun]; rfl⟩
  by_cases hfile : Condition.fileMark.Holds bytes
  case neg =>
    have hrun := (headerOf_of_le hheader).trans (if_neg hfile)
    rw [Condition.firstViolated?_eq_some [.header] rfl (by simp [hheader]) hfile]
    exact ⟨_, rfl, by rw [decode, hrun]; rfl⟩
  by_cases hversion : Condition.versionMark.Holds bytes
  case neg =>
    have hrun := (headerOf_of_le hheader).trans ((if_pos hfile).trans (if_neg hversion))
    rw [Condition.firstViolated?_eq_some [.header, .fileMark] rfl (by simp [hheader, hfile])
      hversion]
    exact ⟨_, rfl, by rw [decode, hrun]; rfl⟩
  rw [decode_of_header hheader hfile hversion]
  by_cases harea : Condition.area.Holds bytes
  case neg =>
    obtain ⟨e, he, hsection⟩ := sectionAt_of_not_fits (marked_readArea bytes) .absent harea
    rw [Condition.firstViolated?_eq_some [.header, .fileMark, .versionMark] rfl
      (by simp [hheader, hfile, hversion]) harea]
    exact ⟨e, he, by rw [hsection]; rfl⟩
  rw [sectionAt_of_fits (marked_readArea bytes) .absent harea]
  by_cases hheight : Condition.height.Holds bytes
  case neg =>
    obtain ⟨e, he, hsection⟩ := sectionAt_of_not_fits (marked_readHeight bytes) .absent hheight
    rw [Condition.firstViolated?_eq_some [.header, .fileMark, .versionMark, .area] rfl
      (by simp [hheader, hfile, hversion, harea]) hheight]
    exact ⟨e, he, by rw [hsection]; rfl⟩
  rw [sectionAt_of_fits (marked_readHeight bytes) .absent hheight]
  by_cases hliquid : Condition.liquid.Holds bytes
  case neg =>
    obtain ⟨e, he, hsection⟩ := sectionAt_of_not_fits (marked_readLiquid bytes) .absent hliquid
    rw [Condition.firstViolated?_eq_some [.header, .fileMark, .versionMark, .area, .height] rfl
      (by simp [hheader, hfile, hversion, harea, hheight]) hliquid]
    exact ⟨e, he, by rw [hsection]; rfl⟩
  rw [sectionAt_of_fits (marked_readLiquid bytes) .absent hliquid,
    (Condition.firstViolated?_eq_none_iff bytes).2 (by intro c; cases c <;> assumption)]
  rfl

/-- A file that meets all conditions is a tile. -/
theorem decode_of_holds {bytes : Bytes} (h : ∀ c : Condition, c.Holds bytes) :
    decode bytes = .ok (stored bytes) := by
  have hverdict := decode_verdict bytes
  rw [(Condition.firstViolated?_eq_none_iff bytes).2 h] at hverdict
  exact hverdict

/-- A file that is a tile meets all conditions, and the fields of the tile stand in it. -/
theorem holds_of_decode {bytes : Bytes} {t : Tile} (h : decode bytes = .ok t) :
    (∀ c : Condition, c.Holds bytes) ∧ t = stored bytes := by
  have hverdict := decode_verdict bytes
  cases hfirst : Condition.firstViolated? bytes with
  | none =>
    rw [hfirst] at hverdict
    refine ⟨(Condition.firstViolated?_eq_none_iff bytes).1 hfirst, ?_⟩
    exact Except.ok.inj (h.symm.trans hverdict)
  | some c =>
    rw [hfirst] at hverdict
    obtain ⟨e, -, hrun⟩ := hverdict
    rw [h] at hrun
    cases hrun

/-- **Which files are tiles.**  A file is a tile exactly if it meets all conditions: it holds a
whole header with the two marks, and each section with an offset that is not zero starts there with
its own mark and fits into the file, wherever that is.  Any other file is refused for the first
condition that it violates: for another word in the place of a mark, and otherwise, naming the part,
for a read that runs past the end of the file. -/
theorem decode_iff_conditions (bytes : Bytes) :
    ((∃ t, decode bytes = .ok t) ↔ ∀ c : Condition, c.Holds bytes) ∧
      match Condition.firstViolated? bytes with
      | none => ∀ c : Condition, c.Holds bytes
      | some c => ¬ c.Holds bytes ∧ ∃ e, c.Refuses bytes e ∧ decode bytes = .error e := by
  constructor
  · constructor
    · rintro ⟨t, h⟩
      exact (holds_of_decode h).1
    · intro h
      exact ⟨_, decode_of_holds h⟩
  · have hverdict := decode_verdict bytes
    cases hfirst : Condition.firstViolated? bytes with
    | none => exact (Condition.firstViolated?_eq_none_iff bytes).1 hfirst
    | some c =>
      rw [hfirst] at hverdict
      exact ⟨by simpa using List.find?_some hfirst, hverdict⟩

end Tile

end Overland
