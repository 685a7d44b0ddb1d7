import Overland.Single.Basic

/-!
# Little-endian words

Data files are rows of scalars, each stored with its lowest byte first.  `Scalar` says how many
bytes a type takes and which word a value is stored as; `word` reads a word from a place in a row of
bytes, and `wordBytes` is the other direction.

* `word_wordBytes`: what is written at a place is read back from it, whatever stands around it.
* `wordBytes_word`: reading a place and writing the result gives the same bytes again.
-/

namespace Overland

/-- The content of a file. -/
abbrev Bytes := Array UInt8

/-- How many words of `width` bytes there are. -/
def wordLimit : Nat → Nat
  | 0 => 1
  | width + 1 => 256 * wordLimit width

/-- A type whose values are stored as words of a fixed number of bytes. -/
class Scalar (α : Type) where
  /-- Number of bytes. -/
  width : Nat
  /-- The value stored as a word. -/
  ofWord : Nat → α
  /-- The word that a value is stored as. -/
  toWord : α → Nat
  toWord_lt : ∀ a, toWord a < wordLimit width
  ofWord_toWord : ∀ a, ofWord (toWord a) = a
  toWord_ofWord : ∀ n, n < wordLimit width → toWord (ofWord n) = n

namespace Bytes

/-- The word of `width` bytes at a place, lowest byte first. -/
def word (bytes : Bytes) (start : Nat) : Nat → Nat
  | 0 => 0
  | width + 1 => (bytes.getD start 0).toNat + 256 * word bytes (start + 1) width

/-- The bytes of a word, lowest byte first. -/
def wordBytes : Nat → Nat → List UInt8
  | 0, _ => []
  | width + 1, n => UInt8.ofNat n :: wordBytes width (n / 256)

/-- The scalar stored at a place. -/
def scalar {α : Type} [Scalar α] (bytes : Bytes) (start : Nat) : α :=
  Scalar.ofWord (bytes.word start (Scalar.width α))

/-- The bytes that a scalar is stored as. -/
def ofScalar {α : Type} [Scalar α] (a : α) : List UInt8 :=
  wordBytes (Scalar.width α) (Scalar.toWord a)

/-- The bytes of a row of scalars. -/
def ofScalars {α : Type} [Scalar α] (row : Array α) : List UInt8 :=
  row.toList.flatMap ofScalar

/-! ## The two directions -/

@[simp] theorem length_wordBytes (width n : Nat) : (wordBytes width n).length = width := by
  induction width generalizing n with
  | zero => rfl
  | succ width ih => simp [wordBytes, ih]

theorem word_lt (bytes : Bytes) (start width : Nat) : bytes.word start width < wordLimit width := by
  induction width generalizing start with
  | zero => simp [word, wordLimit]
  | succ width ih =>
    have h := ih (start + 1)
    have hb := (bytes.getD start 0).toNat_lt
    simp only [word, wordLimit]
    omega

/-- What is written at a place is read back from it. -/
theorem word_wordBytes (before after : List UInt8) {width n : Nat} (h : n < wordLimit width) :
    Bytes.word (before ++ (wordBytes width n ++ after)).toArray before.length width = n := by
  induction width generalizing before n with
  | zero => simp [wordLimit] at h; simp [word, h]
  | succ width ih =>
    have hn : n / 256 < wordLimit width := Nat.div_lt_of_lt_mul h
    have hrest := ih (before ++ [UInt8.ofNat n]) hn
    rw [List.length_append, List.append_assoc] at hrest
    simp only [word, wordBytes, List.cons_append] at hrest ⊢
    simp only [List.length_singleton, List.nil_append] at hrest
    rw [hrest]
    simp
    omega

/-- Reading a place and writing the result gives the same bytes again. -/
theorem wordBytes_word (bytes : Bytes) (start width : Nat) (h : start + width ≤ bytes.size) :
    wordBytes width (bytes.word start width) = (bytes.toList.drop start).take width := by
  induction width generalizing start with
  | zero => simp [wordBytes]
  | succ width ih =>
    have hlt : start < bytes.size := by omega
    have hlength : start < bytes.toList.length := by simpa using hlt
    have hget : bytes.getD start 0 = bytes.toList[start] := by simp [hlt]
    have hb := (bytes.getD start 0).toNat_lt
    rw [List.drop_eq_getElem_cons hlength, List.take_succ_cons, ← hget,
      ← ih (start + 1) (by omega)]
    have hdiv : ((bytes.getD start 0).toNat + 256 * bytes.word (start + 1) width) / 256
        = bytes.word (start + 1) width := by omega
    simp only [word, wordBytes, hdiv, List.cons.injEq, and_true]
    rw [← UInt8.toNat_inj, UInt8.toNat_ofNat']
    omega

end Bytes

/-! ## The stored types -/

instance : Scalar UInt8 where
  width := 1
  ofWord := UInt8.ofNat
  toWord := UInt8.toNat
  toWord_lt a := a.toNat_lt
  ofWord_toWord _ := UInt8.ofNat_toNat
  toWord_ofWord _ h := UInt8.toNat_ofNat_of_lt' h

instance : Scalar UInt16 where
  width := 2
  ofWord := UInt16.ofNat
  toWord := UInt16.toNat
  toWord_lt a := a.toNat_lt
  ofWord_toWord _ := UInt16.ofNat_toNat
  toWord_ofWord _ h := UInt16.toNat_ofNat_of_lt' h

instance : Scalar UInt32 where
  width := 4
  ofWord := UInt32.ofNat
  toWord := UInt32.toNat
  toWord_lt a := a.toNat_lt
  ofWord_toWord _ := UInt32.ofNat_toNat
  toWord_ofWord _ h := UInt32.toNat_ofNat_of_lt' h

instance : Scalar Int16 where
  width := 2
  ofWord n := (UInt16.ofNat n).toInt16
  toWord a := a.toUInt16.toNat
  toWord_lt a := a.toUInt16.toNat_lt
  ofWord_toWord a := by simp
  toWord_ofWord _ h := UInt16.toNat_ofNat_of_lt' h

instance : Scalar Int32 where
  width := 4
  ofWord n := (UInt32.ofNat n).toInt32
  toWord a := a.toUInt32.toNat
  toWord_lt a := a.toUInt32.toNat_lt
  ofWord_toWord a := by simp
  toWord_ofWord _ h := UInt32.toNat_ofNat_of_lt' h

instance : Scalar Single where
  width := 4
  ofWord n := ⟨UInt32.ofNat n⟩
  toWord a := a.bits.toNat
  toWord_lt a := a.bits.toNat_lt
  ofWord_toWord _ := congrArg Single.mk UInt32.ofNat_toNat
  toWord_ofWord _ h := UInt32.toNat_ofNat_of_lt' h

namespace Scalar

@[simp] theorem width_uint8 : width UInt8 = 1 := rfl

@[simp] theorem width_uint16 : width UInt16 = 2 := rfl

@[simp] theorem width_uint32 : width UInt32 = 4 := rfl

@[simp] theorem width_int16 : width Int16 = 2 := rfl

@[simp] theorem width_int32 : width Int32 = 4 := rfl

@[simp] theorem width_single : width Single = 4 := rfl

end Scalar

end Overland
