import Overland.Bytes.Buffer
import Overland.Proofs.Bytes.Placed

/-!
# Lists against single scalars

A list of scalars is read at once.  It could as well be read scalar by scalar, and where all of it
lies in the buffer nothing tells the two apart: the same scalars, the same position afterwards.

Where a part of it is missing, both fail, but not alike.  The list leaves the buffer as it was; the
single reads have moved past every scalar that is still there (`repeated_read_of_lt`).  The empty
list is the odd one: no single read is made for it, and still it is refused past the end.

* `repeated_read_of_le`, `repeated_read_of_lt` — what the single reads come to;
* `Gathers` — what it means that a list is read like its scalars;
* `readMany_gathers` — the lists that files are read by are.
-/

namespace Overland

variable {α : Type} [Scalar α]

/-- A row of scalars is the first one and the row behind it. -/
theorem Bytes.toList_scalars_succ (bytes : Bytes) (start count : Nat) :
    (bytes.scalars start (count + 1) : Array α).toList =
      bytes.scalar start :: (bytes.scalars (start + Scalar.width α) count).toList := by
  have hplace (i : Nat) :
      start + (i + 1) * Scalar.width α = start + Scalar.width α + i * Scalar.width α := by
    rw [Nat.succ_mul, Nat.add_assoc, Nat.add_comm (Scalar.width α)]
  simp [scalars, List.ofFn_succ, hplace]

namespace Attempt

/-! ## The single reads -/

/-- The same step so many times, one after the other. -/
def repeated {α : Type} (one : Attempt α) : Nat → Attempt (List α)
  | 0 => return []
  | count + 1 => do
    let a ← one
    let row ← repeated one count
    return a :: row

variable {count : Nat} {b : Buffer}

/-- Scalars that all lie in the buffer are read one after the other. -/
theorem repeated_read_of_le (h : b.position + count * Scalar.width α ≤ b.size) :
    (read α).repeated count b =
      (.ok (b.bytes.scalars b.position count).toList,
        b.seek (b.position + count * Scalar.width α)) := by
  induction count generalizing b with
  | zero =>
    rw [Nat.zero_mul, Nat.add_zero]
    rfl
  | succ count ih =>
    rw [Nat.succ_mul] at h ⊢
    have hrest := ih (b := b.seek (b.position + Scalar.width α)) (by
      show b.position + Scalar.width α + count * Scalar.width α ≤ b.size
      omega)
    rw [repeated, bind_of_ok (read_of_le (by omega)), bind_of_ok hrest, Bytes.toList_scalars_succ,
      Nat.add_comm (count * _), ← Nat.add_assoc]
    rfl

/-- If one of them is missing, the reads before it have moved the position. -/
theorem repeated_read_of_lt (hcount : 0 < count)
    (h : b.size < b.position + count * Scalar.width α) :
    ∃ k < count, (read α).repeated count b =
      (.error (.pastEnd (Scalar.width α) (b.position + k * Scalar.width α) b.size),
        b.seek (b.position + k * Scalar.width α)) := by
  induction count generalizing b with
  | zero => exact absurd hcount (Nat.lt_irrefl 0)
  | succ count ih =>
    rw [Nat.succ_mul] at h
    by_cases hfirst : b.position + Scalar.width α ≤ b.size
    · have hrest : 0 < count := by
        refine Nat.pos_of_ne_zero fun hzero => ?_
        rw [hzero, Nat.zero_mul] at h
        omega
      obtain ⟨k, hk, hrun⟩ := ih (b := b.seek (b.position + Scalar.width α)) hrest (by
        show b.size < b.position + Scalar.width α + count * Scalar.width α
        omega)
      refine ⟨k + 1, Nat.succ_lt_succ hk, ?_⟩
      rw [repeated, bind_of_ok (read_of_le hfirst), bind_of_error hrun, Nat.succ_mul,
        Nat.add_comm (k * _), ← Nat.add_assoc]
      rfl
    · refine ⟨0, Nat.succ_pos count, ?_⟩
      rw [repeated, bind_of_error (read_of_lt (Nat.lt_of_not_le hfirst)), Nat.zero_mul,
        Nat.add_zero]
      rfl

/-! ## The list -/

/-- A list of `count` scalars is read at once as it is read by `one`, scalar by scalar. -/
structure Gathers (one : Attempt α) (count : Nat) (b : Buffer) : Prop where
  /-- It is read exactly if all its bytes lie in the buffer. -/
  read_iff : (∃ row b', readMany α count b = (.ok row, b')) ↔
    b.position + count * Scalar.width α ≤ b.size
  /-- If it is read, the single reads answer the same scalars and stop at the same place. -/
  same : ∀ row b', readMany α count b = (.ok row, b') →
    row.size = count ∧ b' = b.seek (b.position + count * Scalar.width α) ∧
      one.repeated count b = (.ok row.toList, b')
  /-- If a byte is missing, nothing is moved, and a single read fails too, if one is made. -/
  refused : b.size < b.position + count * Scalar.width α →
    readMany α count b =
        (.error (.pastEnd (count * Scalar.width α) b.position b.size), b) ∧
      (0 < count → ∃ place, one.repeated count b =
        (.error (.pastEnd (Scalar.width α) place b.size), b.seek place))

/-- Single reads of the same type are what a list is read like. -/
theorem gathers_read (hcount : count * Scalar.width α < Buffer.positionLimit) :
    Gathers (read α) count b := by
  by_cases h : b.position + count * Scalar.width α ≤ b.size
  · have hmany := readMany_of_le hcount h
    constructor
    · exact ⟨fun _ => h, fun _ => ⟨_, _, hmany⟩⟩
    · intro row b' hrow
      obtain ⟨hanswer, rfl⟩ := Prod.mk.inj (hmany.symm.trans hrow)
      cases hanswer
      exact ⟨Bytes.size_scalars .., rfl, repeated_read_of_le h⟩
    · intro hpast
      exact absurd h (Nat.not_le_of_lt hpast)
  · have hpast := Nat.lt_of_not_le h
    have hmany := readMany_of_lt hcount hpast
    constructor
    · refine ⟨?_, fun hle => absurd hle h⟩
      rintro ⟨row, b', hrow⟩
      cases hmany.symm.trans hrow
    · intro row b' hrow
      cases hmany.symm.trans hrow
    · refine fun _ => ⟨hmany, fun hone => ?_⟩
      obtain ⟨k, -, hrun⟩ := repeated_read_of_lt hone hpast
      exact ⟨_, hrun⟩

/-- A signed half word is an unsigned one, taken the other way. -/
theorem read_int16 : (UInt16.toInt16 <$> read UInt16) = read Int16 := by
  funext b
  by_cases h : b.position + Scalar.width UInt16 ≤ b.size
  · rw [show read Int16 b = _ from read_of_le h, map_eq_pure_bind, bind_of_ok (read_of_le h)]
    rfl
  · have hpast := Nat.lt_of_not_le h
    rw [show read Int16 b = _ from read_of_lt hpast, map_eq_pure_bind,
      bind_of_error (read_of_lt hpast)]
    rfl

/-- **Lists are read like their scalars.**  Bytes, half words and singles are, from whatever place,
and signed half words as unsigned ones that are taken the other way. -/
theorem readMany_gathers (count : Nat) (b : Buffer) :
    (count < Buffer.positionLimit → Gathers (read UInt8) count b) ∧
    (count * 2 < Buffer.positionLimit → Gathers (read UInt16) count b ∧
      Gathers (UInt16.toInt16 <$> read UInt16) count b) ∧
    (count * 4 < Buffer.positionLimit → Gathers (read Single) count b) := by
  refine ⟨fun hcount => ?_, fun hcount => ⟨gathers_read hcount, ?_⟩,
    fun hcount => gathers_read hcount⟩
  · exact gathers_read (by rwa [Scalar.width_uint8, Nat.mul_one])
  · rw [read_int16]
    exact gathers_read hcount

/-- Two half words and a byte behind them. -/
def halfWords (position : Nat) : Buffer := ⟨#[1, 0, 0xfe, 0xff, 5], position⟩

/-- Both half words are read, a third one is not, and past the end not even no byte is. -/
theorem readMany_halfWords :
    (∃ row : Array Int16, ∃ b', readMany Int16 2 (halfWords 0) = (.ok row, b') ∧
      row.size = 2 ∧ b' = halfWords 4) ∧
    (¬ ∃ row b', readMany UInt16 3 (halfWords 0) = (.ok row, b')) ∧
    readMany Single 1 (halfWords 2) = (.error (.pastEnd 4 2 5), halfWords 2) ∧
    readMany UInt8 0 (halfWords 9) = (.error (.pastEnd 0 9 5), halfWords 9) := by
  refine ⟨?_, ?_, ?_, ?_⟩
  · have hgathers := ((readMany_gathers 2 (halfWords 0)).2.1 (by decide)).2
    obtain ⟨row, b', hrow⟩ := hgathers.read_iff.2 (by decide)
    obtain ⟨hsize, hplace, -⟩ := hgathers.same row b' hrow
    exact ⟨row, b', hrow, hsize, hplace⟩
  · exact mt ((readMany_gathers 3 (halfWords 0)).2.1 (by decide)).1.read_iff.1 (by decide)
  · exact (((readMany_gathers 1 (halfWords 2)).2.2 (by decide)).refused (by decide)).1
  · exact (((readMany_gathers 0 (halfWords 9)).1 (by decide)).refused (by decide)).1

end Attempt

end Overland
