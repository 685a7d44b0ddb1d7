import Overland.Proofs.Bytes.Placed

/-!
# Files that agree at a range of places

Two files agree at a range of places if they hold the same byte at each of them, or neither file
reaches that far.  Whatever is read from inside the range is then the same in both
(`AgreeAt.scalar`, `AgreeAt.scalars`).

A file and what it is continued by agree up to the end of the file (`agreeAt_append`).
-/

namespace Overland

/-- Both files hold the same bytes from the place `start` up to the place `stop`. -/
def Bytes.AgreeAt (bytes other : Bytes) (start stop : Nat) : Prop :=
  ∀ i, start ≤ i → i < stop → other[i]? = bytes[i]?

namespace Bytes

variable {bytes other : Bytes} {start stop : Nat}

/-- A file agrees with what it is continued by, up to its own end. -/
theorem agreeAt_append (more : Bytes) (h : stop ≤ bytes.size) :
    bytes.AgreeAt (bytes ++ more) start stop := by
  intro i _ hi
  exact Array.getElem?_append_left (by omega)

namespace AgreeAt

variable (h : bytes.AgreeAt other start stop)
include h

/-- Files that agree at a range agree at each part of it. -/
theorem mono {start' stop' : Nat} (hstart : start ≤ start') (hstop : stop' ≤ stop) :
    bytes.AgreeAt other start' stop' :=
  fun i hlow hhigh => h i (Nat.le_trans hstart hlow) (Nat.lt_of_lt_of_le hhigh hstop)

omit h in
/-- Files that agree at a row of bytes agree at what it starts with. -/
theorem head {place size rest : Nat} (hrow : bytes.AgreeAt other place (place + (size + rest))) :
    bytes.AgreeAt other place (place + size) :=
  hrow.mono (Nat.le_refl _) (by omega)

/-- If a range that is not empty lies in one file, it lies in the other. -/
theorem le_size (hrange : start < stop) (hsize : stop ≤ bytes.size) : stop ≤ other.size := by
  have hlast := h (stop - 1) (by omega) (by omega)
  rw [Array.getElem?_eq_getElem (show stop - 1 < bytes.size by omega)] at hlast
  have := (Array.getElem?_eq_some_iff.1 hlast).1
  omega

theorem word {place width : Nat} (hstart : start ≤ place) (hstop : place + width ≤ stop) :
    other.word place width = bytes.word place width := by
  induction width generalizing place with
  | zero => rfl
  | succ width ih =>
    have hrest : other.word (place + 1) width = bytes.word (place + 1) width :=
      ih (by omega) (by omega)
    have hfirst := h place hstart (by omega)
    simp only [Bytes.word, hrest, Array.getD_eq_getD_getElem?, hfirst]

variable {α : Type} [Scalar α]

/-- A scalar inside the range is the same in both files. -/
theorem scalar {place : Nat} (hstart : start ≤ place) (hstop : place + Scalar.width α ≤ stop) :
    (other.scalar place : α) = bytes.scalar place := by
  rw [Bytes.scalar, h.word hstart hstop, ← Bytes.scalar]

omit h in
/-- A field of a header that both files hold is the same in both. -/
theorem field {place offset size : Nat} (hhead : bytes.AgreeAt other place (place + size))
    (hsize : offset + Scalar.width α ≤ size) :
    (other.scalar (place + offset) : α) = bytes.scalar (place + offset) :=
  hhead.scalar (by omega) (by omega)

/-- A row of scalars inside the range is the same in both files. -/
theorem scalars {place count : Nat} (hstart : start ≤ place)
    (hstop : place + count * Scalar.width α ≤ stop) :
    (other.scalars place count : Array α) = bytes.scalars place count := by
  refine congrArg Array.ofFn (funext fun i => h.scalar (by omega) ?_)
  have hrow : (i + 1) * Scalar.width α ≤ count * Scalar.width α :=
    Nat.mul_le_mul_right _ (by omega)
  rw [Nat.succ_mul] at hrow
  omega

end AgreeAt

end Bytes

end Overland
