import Overland.Bytes.Word

/-!
# A buffer with a read position

A file is decoded by reading scalars one after the other from a position that may be moved anywhere,
also past the end; files are built by writing scalars at the end.  Writing never moves the position,
and reading never changes the bytes.

A read either lies inside the buffer as a whole or fails as a whole: `read_of_le`, `read_of_lt` and
their companions for lists give the exact condition.  Byte counts and positions are 64-bit words: a
list of scalars whose byte count is none stops with `overflow`, and so does a skip to a position
that is none.

There are two kinds of readers.  An `Attempt` leaves a buffer behind whether it answers or fails,
and says which one.  A `Reader` is for files, whose buffer is given up with the first read that
fails.
-/

namespace Overland

/-- A row of bytes with a position to read from. -/
structure Buffer where
  bytes : Bytes
  position : Nat
  deriving DecidableEq, Repr, Inhabited

/-- Why a read fails. -/
inductive ReadError where
  /-- The bytes wanted do not all lie in the buffer. -/
  | pastEnd (wanted position size : Nat)
  /-- A byte count or a position is no 64-bit word. -/
  | overflow
  deriving DecidableEq, Repr

/-- The text of a failed read. -/
def ReadError.message : ReadError → String
  | .pastEnd wanted position size =>
    s!"ByteBuffer read past end (wanted {wanted} bytes at {position}, size {size})"
  | .overflow => "arithmetic overflow"

/-- A step that reads from a buffer and moves its position.  It leaves a buffer behind also when it
fails. -/
abbrev Attempt (α : Type) := ExceptT ReadError (StateM Buffer) α

/-- A step that reads from a buffer that is given up when the step fails. -/
abbrev Reader (α : Type) := StateT Buffer (Except ReadError) α

/-- An attempt at a buffer that is given up if it fails. -/
def Attempt.reader {α : Type} (attempt : Attempt α) : Reader α := fun b =>
  match attempt b with
  | (.ok a, b) => .ok (a, b)
  | (.error e, _) => .error e

section Bind

variable {α β : Type} {attempt : Attempt α} {next : α → Attempt β} {b b' : Buffer}

theorem Attempt.bind_of_ok {a : α} (h : attempt b = (.ok a, b')) :
    (attempt >>= next) b = next a b' := by
  simp only [bind, ExceptT.bind, ExceptT.mk, StateT.bind, h]
  rfl

theorem Attempt.bind_of_error {e : ReadError} (h : attempt b = (.error e, b')) :
    (attempt >>= next) b = (.error e, b') := by
  simp only [bind, ExceptT.bind, ExceptT.mk, StateT.bind, h]
  rfl

end Bind

namespace Buffer

/-- The buffer to read a file from its start. -/
def ofBytes (bytes : Bytes) : Buffer := ⟨bytes, 0⟩

/-- The buffer without bytes. -/
def empty : Buffer := ofBytes #[]

/-- Number of bytes. -/
def size (b : Buffer) : Nat := b.bytes.size

/-- Number of bytes from the position to the end; none if the position is past the end. -/
def remaining (b : Buffer) : Nat := b.size - b.position

/-- How many positions there are: byte counts and positions are kept below this number. -/
def positionLimit : Nat := UInt64.size

/-- The buffer as it shows in messages. -/
def description (b : Buffer) : String := s!"ByteBuffer(size={b.size}, rpos={b.position})"

/-! ## Writing -/

/-- Writes bytes at the end. -/
def append (b : Buffer) (bytes : Bytes) : Buffer := { b with bytes := b.bytes ++ bytes }

/-- Writes a scalar at the end. -/
def write {α : Type} [Scalar α] (b : Buffer) (a : α) : Buffer :=
  { b with bytes := b.bytes ++ Bytes.ofScalar a }

/-! ## Moving -/

/-- Moves the position to a place that need not lie in the buffer. -/
def seek (position : Nat) (b : Buffer) : Buffer := { b with position }

end Buffer

/-! ## Reading -/

namespace Attempt

variable {α : Type} [Scalar α] {count : Nat} {b : Buffer}

/-- A byte count or a position, which must be a 64-bit word. -/
def word (n : Nat) : Attempt Nat := fun b =>
  if n < Buffer.positionLimit then (.ok n, b) else (.error .overflow, b)

/-- Moves the position ahead, but never past the end.  A position already past the end comes back to
it. -/
def skip (count : Nat) : Attempt Unit := do
  let position ← word ((← get).position + count)
  modify fun b => b.seek (min position b.size)

/-- Moves past `count` bytes and answers where they start. -/
def take (count : Nat) : Attempt Nat := fun b =>
  if b.position + count ≤ b.size then
    (.ok b.position, { b with position := b.position + count })
  else (.error (.pastEnd count b.position b.size), b)

/-- Reads one scalar. -/
def read (α : Type) [Scalar α] : Attempt α := do
  let start ← take (Scalar.width α)
  return (← get).bytes.scalar start

/-- Reads a list of scalars. -/
def readMany (α : Type) [Scalar α] (count : Nat) : Attempt (Array α) := do
  let length ← word (count * Scalar.width α)
  let start ← take length
  let b ← get
  return Array.ofFn fun i : Fin count => b.bytes.scalar (start + i * Scalar.width α)

/-! ## When a read succeeds -/

theorem word_of_lt {n : Nat} (h : n < Buffer.positionLimit) : word n b = (.ok n, b) := if_pos h

theorem word_of_le {n : Nat} (h : Buffer.positionLimit ≤ n) : word n b = (.error .overflow, b) :=
  if_neg (Nat.not_lt_of_le h)

/-- A skip to a position that is a word stops at the end of the buffer. -/
theorem skip_of_lt (h : b.position + count < Buffer.positionLimit) :
    skip count b = (.ok (), b.seek (min (b.position + count) b.size)) := by
  have hget : (get : Attempt Buffer) b = (.ok b, b) := rfl
  rw [skip, bind_of_ok hget, bind_of_ok (word_of_lt h)]
  rfl

/-- A skip to any other position moves nothing. -/
theorem skip_of_le (h : Buffer.positionLimit ≤ b.position + count) :
    skip count b = (.error .overflow, b) := by
  have hget : (get : Attempt Buffer) b = (.ok b, b) := rfl
  rw [skip, bind_of_ok hget, bind_of_error (word_of_le h)]

theorem take_of_le (h : b.position + count ≤ b.size) :
    take count b = (.ok b.position, b.seek (b.position + count)) := by
  rw [take, if_pos h]; rfl

theorem take_of_lt (h : b.size < b.position + count) :
    take count b = (.error (.pastEnd count b.position b.size), b) := by
  rw [take, if_neg (by omega)]

/-- A scalar is read exactly if all its bytes lie in the buffer. -/
theorem read_of_le (h : b.position + Scalar.width α ≤ b.size) :
    read α b = (.ok (b.bytes.scalar b.position), b.seek (b.position + Scalar.width α)) := by
  rw [read, bind_of_ok (take_of_le h)]; rfl

/-- A scalar that is not read moves nothing. -/
theorem read_of_lt (h : b.size < b.position + Scalar.width α) :
    read α b = (.error (.pastEnd (Scalar.width α) b.position b.size), b) := by
  rw [read, bind_of_error (take_of_lt h)]

/-- A list whose byte count is a word is read exactly if all its bytes lie in the buffer. -/
theorem readMany_of_le (hcount : count * Scalar.width α < Buffer.positionLimit)
    (h : b.position + count * Scalar.width α ≤ b.size) :
    readMany α count b =
      (.ok (Array.ofFn fun i : Fin count => b.bytes.scalar (b.position + i * Scalar.width α)),
        b.seek (b.position + count * Scalar.width α)) := by
  rw [readMany, bind_of_ok (word_of_lt hcount), bind_of_ok (take_of_le h)]
  rfl

/-- A list that is not read moves nothing. -/
theorem readMany_of_lt (hcount : count * Scalar.width α < Buffer.positionLimit)
    (h : b.size < b.position + count * Scalar.width α) :
    readMany α count b = (.error (.pastEnd (count * Scalar.width α) b.position b.size), b) := by
  rw [readMany, bind_of_ok (word_of_lt hcount), bind_of_error (take_of_lt h)]

/-- A list whose byte count is no word moves nothing. -/
theorem readMany_of_overflow (h : Buffer.positionLimit ≤ count * Scalar.width α) :
    readMany α count b = (.error .overflow, b) := by
  rw [readMany, bind_of_error (word_of_le h)]

end Attempt

namespace Buffer

/-- Reads one scalar of a file. -/
def read (α : Type) [Scalar α] : Reader α := (Attempt.read α).reader

/-- Moves the position in a file ahead. -/
def skip (count : Nat) : Reader Unit := (Attempt.skip count).reader

/-- Reads a list of scalars of a file. -/
def readMany (α : Type) [Scalar α] (count : Nat) : Reader (Array α) :=
  (Attempt.readMany α count).reader

theorem read_of_le {α : Type} [Scalar α] {b : Buffer}
    (h : b.position + Scalar.width α ≤ b.size) :
    read α b = .ok (b.bytes.scalar b.position, b.seek (b.position + Scalar.width α)) := by
  simp only [read, Attempt.reader, Attempt.read_of_le h]

theorem read_of_lt {α : Type} [Scalar α] {b : Buffer}
    (h : b.size < b.position + Scalar.width α) :
    read α b = .error (.pastEnd (Scalar.width α) b.position b.size) := by
  simp only [read, Attempt.reader, Attempt.read_of_lt h]

theorem skip_of_lt {count : Nat} {b : Buffer} (h : b.position + count < positionLimit) :
    skip count b = .ok ((), b.seek (min (b.position + count) b.size)) := by
  simp only [skip, Attempt.reader, Attempt.skip_of_lt h]

theorem readMany_of_le {α : Type} [Scalar α] {count : Nat} {b : Buffer}
    (hcount : count * Scalar.width α < positionLimit)
    (h : b.position + count * Scalar.width α ≤ b.size) :
    readMany α count b =
      .ok (Array.ofFn fun i : Fin count => b.bytes.scalar (b.position + i * Scalar.width α),
        b.seek (b.position + count * Scalar.width α)) := by
  simp only [readMany, Attempt.reader, Attempt.readMany_of_le hcount h]

theorem readMany_of_lt {α : Type} [Scalar α] {count : Nat} {b : Buffer}
    (hcount : count * Scalar.width α < positionLimit)
    (h : b.size < b.position + count * Scalar.width α) :
    readMany α count b = .error (.pastEnd (count * Scalar.width α) b.position b.size) := by
  simp only [readMany, Attempt.reader, Attempt.readMany_of_lt hcount h]

end Buffer

end Overland
