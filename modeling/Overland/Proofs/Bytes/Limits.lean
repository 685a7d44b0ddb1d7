import Overland.Bytes.Buffer

/-!
# Positions and counts at the limit of words

Positions and byte counts are words, and a sum or product of them that is none stops the read.  Over
the integers it is plain what a list of scalars and a skip should do wherever the position stands: a
list that does not lie in the buffer as a whole is refused, and skipping never goes back.  `ExactAt`
says that this is what happens for one buffer and one count, and that nothing stops.

* `refusesBeyond_iff` — a list is refused as it should be, unless its byte count is no word;
* `skipsAhead_iff` — skipping goes back from any position past the end, and stops wherever the sum
  is no word;
* `exactAt_iff` — so where the words agree with the integers;
* `not_exactAt_limits` — and three places where they do not.
-/

namespace Overland.Buffer

variable {α : Type} [Scalar α] {count : Nat} {b : Buffer}

/-- A list of `count` scalars that does not lie in the buffer as a whole is refused. -/
def RefusesBeyond (α : Type) [Scalar α] (count : Nat) (b : Buffer) : Prop :=
  b.size < b.position + count * Scalar.width α →
    ∃ wanted, Attempt.readMany α count b = (.error (.pastEnd wanted b.position b.size), b)

/-- Skipping never goes back: it ends at the end of the buffer; a position past the end stays. -/
def SkipsAhead (count : Nat) (b : Buffer) : Prop :=
  ∃ b', Attempt.skip count b = (.ok (), b') ∧ b.position ≤ b'.position ∧
    b'.position = if b.size < b.position then b.position else min (b.position + count) b.size

/-- Lists and skips go by exact sums and products. -/
structure ExactAt (count : Nat) (b : Buffer) : Prop where
  halfWords : RefusesBeyond UInt16 count b
  signed : RefusesBeyond Int16 count b
  singles : RefusesBeyond Single count b
  skip : SkipsAhead count b

/-- **When a list is refused as it should be:** if its byte count is a word.  Any other list does
not lie in the buffer either, but it stops. -/
theorem refusesBeyond_iff (hsize : b.size < positionLimit) :
    RefusesBeyond α count b ↔ count * Scalar.width α < positionLimit := by
  constructor
  · intro hrefused
    refine Nat.lt_of_not_le fun hlimit => ?_
    obtain ⟨wanted, h⟩ := hrefused (by omega)
    cases (Attempt.readMany_of_overflow hlimit).symm.trans h
  · intro hword hbeyond
    exact ⟨_, Attempt.readMany_of_lt hword hbeyond⟩

/-- **When skipping goes ahead:** from a position that is not past the end, by a count whose sum
with it is a word. -/
theorem skipsAhead_iff :
    SkipsAhead count b ↔ b.position ≤ b.size ∧ b.position + count < positionLimit := by
  rcases Nat.lt_or_ge (b.position + count) positionLimit with hsum | hsum
  · have hskip := Attempt.skip_of_lt hsum
    constructor
    · rintro ⟨b', h, hahead, -⟩
      obtain ⟨-, rfl⟩ := Prod.mk.inj (hskip.symm.trans h)
      exact ⟨Nat.le_trans hahead (Nat.min_le_right _ _), hsum⟩
    · rintro ⟨hin, -⟩
      refine ⟨_, hskip, Nat.le_min.2 ⟨Nat.le_add_right _ _, hin⟩, ?_⟩
      rw [if_neg (Nat.not_lt_of_le hin)]
      rfl
  · refine iff_of_false ?_ fun h => Nat.not_lt_of_le hsum h.2
    rintro ⟨b', h, -⟩
    cases (Attempt.skip_of_le hsum).symm.trans h

/-- **Where words do as the integers do.**  The position must not be past the end, its sum with the
count must be a word, and so must four times the count. -/
theorem exactAt_iff (hsize : b.size < positionLimit) :
    ExactAt count b ↔
      b.position ≤ b.size ∧ b.position + count < positionLimit ∧ count * 4 < positionLimit := by
  constructor
  · intro h
    obtain ⟨hin, hsum⟩ := skipsAhead_iff.1 h.skip
    exact ⟨hin, hsum, (refusesBeyond_iff hsize).1 h.singles⟩
  · rintro ⟨hin, hsum, hwords⟩
    have hhalf : count * 2 < positionLimit := by omega
    exact ⟨(refusesBeyond_iff hsize).2 hhalf, (refusesBeyond_iff hsize).2 hhalf,
      (refusesBeyond_iff hsize).2 hwords, skipsAhead_iff.2 ⟨hin, hsum⟩⟩

/-- Two bytes, read from a place. -/
def twoBytes (position : Nat) : Buffer := ⟨#[1, 2], position⟩

/-- From the second byte all is exact for the largest count whose fourfold is a word. -/
theorem exactAt_twoBytes :
    (twoBytes 1).size < positionLimit ∧ ExactAt (positionLimit / 4 - 1) (twoBytes 1) :=
  ⟨by decide, (exactAt_iff (by decide)).2 (by decide)⟩

/-- Skipping one byte goes back from a position past the end; skipping almost all words stops at the
second byte; and half of all words are not refused as a list of half words. -/
theorem not_exactAt_limits :
    ¬ ExactAt 1 (twoBytes 10) ∧ ¬ ExactAt (positionLimit - 1) (twoBytes 1) ∧
      ¬ ExactAt (positionLimit / 2) (twoBytes 0) := by
  refine ⟨fun h => ?_, fun h => ?_, fun h => ?_⟩
  · exact absurd (skipsAhead_iff.1 h.skip).1 (by decide)
  · exact absurd (skipsAhead_iff.1 h.skip).2 (by decide)
  · exact absurd ((refusesBeyond_iff (by decide)).1 h.halfWords) (by decide)

end Overland.Buffer
