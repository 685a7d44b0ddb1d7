import Overland.Bytes.Buffer
import Overland.Proofs.Bytes.Placed

/-!
# What a reader takes from a file

A header is read by one short reader after the other.  `Takes` says all there is to say about one of
them at a place of a file: it wants the next `count` bytes and nothing else.  If they all lie in the
file, it answers and stands behind them; if not, it fails with a read that runs past the end.

* `takes_read`, `takes_readMany` — a scalar takes its width, a list the width of all its scalars;
* `Takes.bind` — one reader after the other takes what both take, so a header takes the sum of its
  fields.
-/

namespace Overland

variable {ε α β : Type}

/-- The error of a read that runs past the end of a file. -/
def ReadError.RunsPast (size : Nat) (e : ReadError) : Prop :=
  ∃ wanted position, size < position + wanted ∧ e = .pastEnd wanted position size

/-- From a place in a file the reader takes the next `count` bytes and answers `a`.  It fails
exactly if those do not all lie in the file, with a read that runs past the end. -/
structure Takes (fault : ReadError → ε) (reader : StateT Buffer (Except ε) α) (bytes : Bytes)
    (place count : Nat) (a : α) : Prop where
  ok : place + count ≤ bytes.size → reader ⟨bytes, place⟩ = .ok (a, ⟨bytes, place + count⟩)
  past : place ≤ bytes.size → bytes.size < place + count →
    ∃ e, e.RunsPast bytes.size ∧ reader ⟨bytes, place⟩ = .error (fault e)

section Takes

variable {fault : ReadError → ε} {bytes : Bytes} {place count : Nat} {a : α}

/-- The same reader, with its count and its answer said in another way. -/
theorem Takes.congr {reader : StateT Buffer (Except ε) α} {count' : Nat} {a' : α}
    (h : Takes fault reader bytes place count a) (hcount : count = count') (ha : a = a') :
    Takes fault reader bytes place count' a' := by
  subst hcount ha
  exact h

/-- A choice between two readers. -/
theorem Takes.ite {c : Prop} [Decidable c] {reader other : StateT Buffer (Except ε) α}
    {count' : Nat} {a' : α} (h : Takes fault reader bytes place count a)
    (h' : Takes fault other bytes place count' a') :
    Takes fault (if c then reader else other) bytes place (if c then count else count')
      (if c then a else a') := by
  split
  · exact h
  · exact h'

theorem takes_pure (a : α) : Takes fault (pure a) bytes place 0 a where
  ok _ := rfl
  past hplace h := absurd h (by omega)

/-- One reader after the other takes what both take. -/
theorem Takes.bind {reader : StateT Buffer (Except ε) α} {next : α → StateT Buffer (Except ε) β}
    {count' : Nat} {b : β} (h : Takes fault reader bytes place count a)
    (h' : Takes fault (next a) bytes (place + count) count' b) :
    Takes fault (reader >>= next) bytes place (count + count') b := by
  constructor
  · intro hsize
    show (reader ⟨bytes, place⟩ >>= fun r => next r.1 r.2) = _
    rw [h.ok (by omega), ← Nat.add_assoc]
    exact h'.ok (by omega)
  · intro hplace hsize
    show ∃ e, _ ∧ (reader ⟨bytes, place⟩ >>= fun r => next r.1 r.2) = _
    by_cases hfirst : place + count ≤ bytes.size
    · obtain ⟨e, he, hrun⟩ := h'.past hfirst (by omega)
      exact ⟨e, he, by rw [h.ok hfirst]; exact hrun⟩
    · obtain ⟨e, he, hrun⟩ := h.past hplace (by omega)
      exact ⟨e, he, by rw [hrun]; rfl⟩

end Takes

section Scalars

variable [Scalar α] (bytes : Bytes) (place : Nat)

/-- A scalar takes its width. -/
theorem takes_read :
    Takes id (Buffer.read α) bytes place (Scalar.width α) (bytes.scalar place) where
  ok h := Buffer.read_of_le h
  past _ h := ⟨_, ⟨_, _, h, rfl⟩, Buffer.read_of_lt h⟩

/-- A list takes the width of all its scalars. -/
theorem takes_readMany (count : Nat) (hcount : count * Scalar.width α < Buffer.positionLimit) :
    Takes id (Buffer.readMany α count) bytes place (count * Scalar.width α)
      (bytes.scalars place count) where
  ok h := Buffer.readMany_of_le hcount h
  past _ h := ⟨_, ⟨_, _, h, rfl⟩, Buffer.readMany_of_lt hcount h⟩

end Scalars

end Overland
