/-!
# Status words

The mesh library answers every operation with a word.  Its three highest bits say how the operation
went, its low bits give details, and bits that have no name here are kept as they are.  The bits are
independent: nothing keeps a word from saying both failure and success, in which case failure counts
first when the word is put into text.
-/

namespace Overland

/-- The answer of the mesh library to an operation. -/
structure Status where
  bits : UInt32
  deriving DecidableEq, Repr, Inhabited

namespace Status

/-- The operation failed. -/
def failure : Status := ⟨0x80000000⟩

/-- The operation succeeded. -/
def success : Status := ⟨0x40000000⟩

/-- The operation has not come to an end. -/
def inProgress : Status := ⟨0x20000000⟩

/-- The data are not in the format of the library. -/
def wrongMagic : Status := ⟨0x01⟩

/-- The data are in another version of the format. -/
def wrongVersion : Status := ⟨0x02⟩

/-- There was not enough memory. -/
def outOfMemory : Status := ⟨0x04⟩

/-- An argument was not valid. -/
def invalidParam : Status := ⟨0x08⟩

/-- The result did not fit its buffer and was cut off. -/
def bufferTooSmall : Status := ⟨0x10⟩

/-- The search ran out of nodes. -/
def outOfNodes : Status := ⟨0x20⟩

/-- The search did not reach its goal and answers a guess. -/
def partialResult : Status := ⟨0x40⟩

/-- The place of a tile is taken. -/
def alreadyOccupied : Status := ⟨0x80⟩

/-- The bits of both words. -/
def union (a b : Status) : Status := ⟨a.bits ||| b.bits⟩

instance : HOr Status Status Status := ⟨union⟩

/-- Whether a word has all the bits of another. -/
def includes (s detail : Status) : Bool := s.bits &&& detail.bits = detail.bits

/-- Whether the operation failed. -/
def failed (s : Status) : Bool := s.includes failure

/-- Whether the operation succeeded. -/
def succeeded (s : Status) : Bool := s.includes success

/-- Whether the operation goes on. -/
def isInProgress (s : Status) : Bool := s.includes inProgress

/-- Whether the result was cut short: the goal was not reached, or a buffer was too small. -/
def isPartial (s : Status) : Bool := s.includes partialResult || s.includes bufferTooSmall

/-- The details that have a name, in the order of their bits. -/
def details : List (Status × String) :=
  [(wrongMagic, "wrong magic"), (wrongVersion, "wrong version"), (outOfMemory, "out of memory"),
    (invalidParam, "invalid param"), (bufferTooSmall, "buffer too small"),
    (outOfNodes, "out of nodes"), (partialResult, "partial result"),
    (alreadyOccupied, "already occupied")]

/-- How the operation went, in a word. -/
def outcome (s : Status) : String :=
  if s.failed then "failure"
  else if s.isInProgress then "in progress"
  else if s.succeeded then "success"
  else "unknown"

/-- A status as text: the outcome, then every detail that has a name. -/
def description (s : Status) : String :=
  ", ".intercalate (s.outcome :: (details.filter fun d => s.includes d.1).map (·.2))

end Status

end Overland
