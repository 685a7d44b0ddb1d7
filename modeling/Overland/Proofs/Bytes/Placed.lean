import Overland.Bytes.Word

/-!
# What stands at a place of a file

A file is written as one row of bytes after the other, and read at places.  `Bytes.Holds` connects
the two: the file holds a row of bytes from a place on, whatever stands before it and behind it.

* `Holds.left`, `Holds.right` take a row apart where it was put together;
* `Holds.scalar`, `Holds.scalars` read a scalar, or a list of them, back from where it was written;
  `Holds.scalar_append` and `Holds.scalars_append` do so and go on behind it.
-/

namespace Overland

open Bytes

variable {α : Type} [Scalar α]

/-! ## Rows of scalars -/

@[simp] theorem Bytes.length_ofScalar (a : α) : (ofScalar a).length = Scalar.width α :=
  length_wordBytes _ _

theorem Bytes.length_flatMap_ofScalar (row : List α) :
    (row.flatMap ofScalar).length = row.length * Scalar.width α := by
  induction row with
  | nil => simp
  | cons a row ih =>
    rw [List.flatMap_cons, List.length_append, length_ofScalar, ih, List.length_cons,
      Nat.succ_mul, Nat.add_comm]

theorem Bytes.length_ofScalars (row : Array α) :
    (ofScalars row).length = row.size * Scalar.width α :=
  length_flatMap_ofScalar row.toList

/-- The list of scalars stored one after the other from a place on. -/
def Bytes.scalars (bytes : Bytes) (start count : Nat) : Array α :=
  Array.ofFn fun i : Fin count => bytes.scalar (start + i * Scalar.width α)

@[simp] theorem Bytes.size_scalars (bytes : Bytes) (start count : Nat) :
    (bytes.scalars start count : Array α).size = count := by
  simp [scalars]

theorem Bytes.toNat_scalar (bytes : Bytes) (place : Nat) :
    (bytes.scalar place : UInt32).toNat = bytes.word place 4 :=
  UInt32.toNat_ofNat_of_lt' (word_lt ..)

theorem Bytes.scalar_uint8 (bytes : Bytes) (place : Nat) :
    (bytes.scalar place : UInt8) = bytes.getD place 0 := by
  simp [scalar, word, Scalar.ofWord]

/-- A list of bytes is a part of the file. -/
theorem Bytes.scalars_uint8 {bytes : Bytes} {start count : Nat} (h : start + count ≤ bytes.size) :
    (bytes.scalars start count : Array UInt8) = bytes.extract start (start + count) := by
  apply Array.ext
  · rw [size_scalars, Array.size_extract]
    omega
  · intro i hi hi'
    rw [size_scalars] at hi
    simp only [scalars, Array.getElem_ofFn, Array.getElem_extract, Scalar.width_uint8, Nat.mul_one,
      scalar_uint8]
    rw [← Array.getElem_eq_getD]

/-! ## Rows of bytes -/

/-- The file holds the row of bytes from the place on. -/
def Bytes.Holds (bytes : Bytes) (place : Nat) (content : List UInt8) : Prop :=
  ∃ before after, bytes = (before ++ (content ++ after)).toArray ∧ before.length = place

theorem Bytes.holds_toArray (content : List UInt8) : Bytes.Holds content.toArray 0 content :=
  ⟨[], [], by simp, rfl⟩

namespace Bytes.Holds

variable {bytes : Bytes} {place : Nat} {content rest : List UInt8}

theorem left (h : bytes.Holds place (content ++ rest)) : bytes.Holds place content := by
  obtain ⟨before, after, rfl, rfl⟩ := h
  exact ⟨before, rest ++ after, by rw [List.append_assoc], rfl⟩

theorem right (h : bytes.Holds place (content ++ rest)) :
    bytes.Holds (place + content.length) rest := by
  obtain ⟨before, after, rfl, rfl⟩ := h
  exact ⟨before ++ content, after, by simp only [List.append_assoc], List.length_append⟩

/-- What a file holds lies in it. -/
theorem le_size (h : bytes.Holds place content) : place + content.length ≤ bytes.size := by
  obtain ⟨before, after, rfl, rfl⟩ := h
  simp only [List.size_toArray, List.length_append]
  omega

/-- What a file holds can be cut out of it. -/
theorem extract (h : bytes.Holds place content) :
    bytes.extract place (place + content.length) = content.toArray := by
  obtain ⟨before, after, rfl, rfl⟩ := h
  rw [List.extract_toArray, List.extract_eq_take_drop, List.drop_left, Nat.add_sub_cancel_left,
    List.take_left]

/-! ### Scalars -/

/-- A scalar is read back from where it was written. -/
theorem scalar {a : α} (h : bytes.Holds place (ofScalar a)) : bytes.scalar place = a := by
  obtain ⟨before, after, rfl, rfl⟩ := h
  rw [Bytes.scalar, ofScalar, word_wordBytes before after (Scalar.toWord_lt a),
    Scalar.ofWord_toWord]

/-- The same, going on behind the scalar. -/
theorem scalar_append {a : α} (h : bytes.Holds place (ofScalar a ++ rest)) :
    bytes.scalar place = a ∧ bytes.Holds (place + Scalar.width α) rest := by
  refine ⟨h.left.scalar, ?_⟩
  have hrest := h.right
  rw [length_ofScalar] at hrest
  exact hrest

/-- Each scalar of a row is read back from its place in the row. -/
theorem scalar_getElem {row : List α} (h : bytes.Holds place (row.flatMap ofScalar)) (i : Nat)
    (hi : i < row.length) : bytes.scalar (place + i * Scalar.width α) = row[i] := by
  induction row generalizing place i with
  | nil => simp at hi
  | cons a row ih =>
    rw [List.flatMap_cons] at h
    obtain ⟨hfirst, hrest⟩ := h.scalar_append
    cases i with
    | zero => simpa using hfirst
    | succ i =>
      rw [Nat.succ_mul, Nat.add_comm (i * _), ← Nat.add_assoc]
      exact ih hrest i (Nat.lt_of_succ_lt_succ hi)

/-- A row of scalars is read back from where it was written. -/
theorem scalars {row : Array α} {count : Nat} (h : bytes.Holds place (ofScalars row))
    (hcount : row.size = count) : bytes.scalars place count = row := by
  subst hcount
  apply Array.ext
  · exact size_scalars ..
  · intro i _ hi
    simpa [Bytes.scalars] using h.scalar_getElem i hi

/-- The same, going on behind the row. -/
theorem scalars_append {row : Array α} {count : Nat}
    (h : bytes.Holds place (ofScalars row ++ rest)) (hcount : row.size = count) :
    bytes.scalars place count = row ∧ bytes.Holds (place + count * Scalar.width α) rest := by
  refine ⟨h.left.scalars hcount, ?_⟩
  have hrest := h.right
  rw [length_ofScalars, hcount] at hrest
  exact hrest

end Bytes.Holds

end Overland
