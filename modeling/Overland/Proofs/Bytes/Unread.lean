import Overland.Bytes.Buffer
import Overland.Proofs.Bytes.Placed

/-!
# What is left to read

The bytes between the position of a buffer and its end are what is left to read of it.  Writing adds
to them at the back, reading takes from them at the front (`Unread.write`, `Unread.read`), and there
are as many of them as the buffer says (`Unread.remaining`).
-/

namespace Overland.Buffer

open Bytes

variable {α : Type} [Scalar α] {b : Buffer} {content rest : List UInt8}

/-- From its position to its end the buffer holds these bytes. -/
def Unread (b : Buffer) (content : List UInt8) : Prop :=
  ∃ before : List UInt8, b.bytes = (before ++ content).toArray ∧ before.length = b.position

theorem unread_empty : empty.Unread [] := ⟨[], rfl, rfl⟩

/-- At the end of a buffer nothing is left. -/
theorem unread_seek_size (b : Buffer) : (b.seek b.size).Unread [] :=
  ⟨b.bytes.toList, by simp [seek], by simp [seek, size]⟩

namespace Unread

theorem remaining (h : b.Unread content) : b.remaining = content.length := by
  obtain ⟨before, hbytes, hposition⟩ := h
  simp [Buffer.remaining, size, hbytes, ← hposition]

theorem holds (h : b.Unread (content ++ rest)) : b.bytes.Holds b.position content := by
  obtain ⟨before, hbytes, hposition⟩ := h
  exact ⟨before, rest, hbytes, hposition⟩

/-! ## Writing -/

theorem append (h : b.Unread content) (bytes : Bytes) :
    (b.append bytes).Unread (content ++ bytes.toList) := by
  obtain ⟨before, hbytes, hposition⟩ := h
  exact ⟨before, by simp [Buffer.append, hbytes], hposition⟩

theorem write (h : b.Unread content) (a : α) : (b.write a).Unread (content ++ ofScalar a) := by
  obtain ⟨before, hbytes, hposition⟩ := h
  exact ⟨before, by simp [Buffer.write, hbytes], hposition⟩

/-! ## Reading -/

theorem seek (h : b.Unread (content ++ rest)) :
    (b.seek (b.position + content.length)).Unread rest := by
  obtain ⟨before, hbytes, hposition⟩ := h
  exact ⟨before ++ content, by simp [Buffer.seek, hbytes], by simp [Buffer.seek, hposition]⟩

/-- The scalar that is left first is read. -/
theorem read {a : α} (h : b.Unread (ofScalar a ++ rest)) :
    Attempt.read α b = (.ok a, b.seek (b.position + Scalar.width α)) := by
  have hsize := h.holds.le_size
  rw [length_ofScalar] at hsize
  rw [Attempt.read_of_le hsize, h.holds.scalar]

/-- The list of scalars that is left first is read. -/
theorem readMany {row : List α} (h : b.Unread (row.flatMap ofScalar ++ rest))
    (hcount : row.length * Scalar.width α < positionLimit) :
    Attempt.readMany α row.length b =
      (.ok row.toArray, b.seek (b.position + row.length * Scalar.width α)) := by
  have hsize := h.holds.le_size
  rw [length_flatMap_ofScalar] at hsize
  have hrow : b.bytes.scalars b.position row.length = row.toArray := Holds.scalars h.holds rfl
  rw [Attempt.readMany_of_le hcount hsize, ← hrow]
  rfl

end Unread

end Overland.Buffer
