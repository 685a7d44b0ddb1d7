import Overland.Proofs.Bytes.Taking
import Overland.Tile.Format

/-!
# Reading a section of a tile file

A section starts with a mark, and behind it stands a row of fields that `Takes` knows.
`Marked.run_of_fits` and `Marked.refused` say what becomes of it: it is read if the mark is right
and all its bytes lie in the file, and otherwise refused for the one or the other.
-/

namespace Overland

variable {α : Type}

/-- A read inside a part of the file takes what it takes by itself. -/
theorem Takes.inPart {reader : Reader α} {bytes : Bytes} {place count : Nat} {a : α}
    (h : Takes id reader bytes place count a) (part : Section) :
    Takes (.truncated part) (TileReader.inPart part reader) bytes place count a := by
  constructor
  · intro hsize
    simp only [TileReader.inPart, h.ok hsize]
  · intro hplace hsize
    obtain ⟨e, he, hrun⟩ := h.past hplace hsize
    exact ⟨e, he, by simp only [TileReader.inPart, hrun, id_eq]⟩

/-- The reader of a section: its mark, and then the rest of it. -/
def markedReader (part : Section) (mark : Mark) (rest : TileReader α) : TileReader α := do
  let found ← TileReader.inPart part (Buffer.read UInt32)
  TileReader.expect mark found
  rest

/-- The fault that a section is refused with: its mark, if the file holds another word in its place,
and otherwise a read inside the section that runs past the end. -/
def Mark.Refuses (part : Section) (mark : Mark) (bytes : Bytes) (place : Nat) (e : DecodeFault) :
    Prop :=
  if place + 4 ≤ bytes.size ∧ bytes.scalar place ≠ mark.word then
    e = .wrongMark mark (bytes.scalar place)
  else ∃ cause, cause.RunsPast bytes.size ∧ e = .truncated part cause

/-- The reader of a section of `length` bytes: it wants its mark at the place, and then takes the
rest of the section and answers `a`. -/
def Marked (part : Section) (mark : Mark) (reader : TileReader α) (bytes : Bytes)
    (place length : Nat) (a : α) : Prop :=
  ∃ rest count, reader = markedReader part mark rest ∧ length = 4 + count ∧
    Takes (.truncated part) rest bytes (place + 4) count a

section Marked

variable {part : Section} {mark : Mark} {reader : TileReader α} {bytes : Bytes}
  {place length : Nat} {a : α}

/-- A file that holds a word where the mark should be is read on behind it, or refused for it. -/
theorem run_markedReader (rest : TileReader α) (hword : place + 4 ≤ bytes.size) :
    (markedReader part mark rest).run' ⟨bytes, place⟩
      = if bytes.scalar place = mark.word then rest.run' ⟨bytes, place + 4⟩
        else .error (.wrongMark mark (bytes.scalar place)) := by
  have hread := ((takes_read (α := UInt32) bytes place).inPart part).ok hword
  have hwidth : Scalar.width UInt32 = 4 := rfl
  rw [hwidth] at hread
  simp only [markedReader, StateT.run', bind, StateT.bind, hread, Except.bind, TileReader.expect]
  by_cases hmark : bytes.scalar place = mark.word
  · simp only [if_pos hmark]
  · simp only [if_neg hmark]
    rfl

/-- A section is read if its mark is right and all its bytes lie in the file. -/
theorem Marked.run_of_fits (h : Marked part mark reader bytes place length a)
    (hmark : bytes.scalar place = mark.word) (hsize : place + length ≤ bytes.size) :
    reader.run' ⟨bytes, place⟩ = .ok a := by
  obtain ⟨rest, count, rfl, rfl, htakes⟩ := h
  rw [run_markedReader rest (by omega), if_pos hmark, StateT.run', htakes.ok (by omega)]
  rfl

/-- Any other section is refused. -/
theorem Marked.refused (h : Marked part mark reader bytes place length a)
    (hnot : ¬ (bytes.scalar place = mark.word ∧ place + length ≤ bytes.size)) :
    ∃ e, mark.Refuses part bytes place e ∧ reader.run' ⟨bytes, place⟩ = .error e := by
  obtain ⟨rest, count, rfl, rfl, htakes⟩ := h
  unfold Mark.Refuses
  by_cases hword : place + 4 ≤ bytes.size
  · rw [run_markedReader rest hword]
    by_cases hmark : bytes.scalar place = mark.word
    · -- the mark is right, so the rest of the section is cut off
      have hcut : ¬ place + (4 + count) ≤ bytes.size := fun hsize => hnot ⟨hmark, hsize⟩
      obtain ⟨cause, hcause, hrun⟩ := htakes.past hword (by omega)
      refine ⟨.truncated part cause, ?_, ?_⟩
      · rw [if_neg fun hwrong => hwrong.2 hmark]
        exact ⟨cause, hcause, rfl⟩
      · rw [if_pos hmark, StateT.run', hrun]
        rfl
    · exact ⟨_, by rw [if_pos ⟨hword, hmark⟩], by rw [if_neg hmark]⟩
  · -- not even the mark lies in the file
    have hread : Buffer.read UInt32 ⟨bytes, place⟩ = .error (.pastEnd 4 place bytes.size) :=
      Buffer.read_of_lt (Nat.lt_of_not_le hword)
    refine ⟨.truncated part (.pastEnd 4 place bytes.size), ?_, ?_⟩
    · rw [if_neg fun hwrong => hword hwrong.1]
      exact ⟨_, ⟨4, place, Nat.lt_of_not_le hword, rfl⟩, rfl⟩
    · simp only [markedReader, StateT.run', bind, StateT.bind, TileReader.inPart, hread,
        Except.bind]
      rfl

end Marked

end Overland
