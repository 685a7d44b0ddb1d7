/-!
# How much is logged

Settings give the amount of logging as a number; the log itself knows five levels.  Numbers at or
below zero ask for the least, numbers above three for the most.
-/

namespace Overland

/-- The levels of the log, from the fewest messages to the most. -/
inductive Verbosity where
  | error
  | warn
  | info
  | debug
  | trace
  deriving DecidableEq, Repr

namespace Verbosity

/-- The level that a number asks for.  Zero, the least, still lets warnings through; one is for
errors alone. -/
def ofLevel (level : Int32) : Verbosity :=
  if level ≤ 0 then .warn
  else if level = 1 then .error
  else if level = 2 then .info
  else if level = 3 then .debug
  else .trace

/-- The name of a level. -/
def name : Verbosity → String
  | .error => "error"
  | .warn => "warn"
  | .info => "info"
  | .debug => "debug"
  | .trace => "trace"

end Verbosity

end Overland
