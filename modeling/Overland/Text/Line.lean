/-!
# Lines of a text

A line ends at a line feed, and a carriage return just before the line feed belongs to the line's
end.  What follows the last line feed is a line of its own if there is anything; a carriage return
at its end belongs to it.
-/

namespace Overland.Text

/-- A line whose line feed has been taken off, without the carriage return before it; the line is
given with its last character first. -/
def closeLine : List Char → List Char
  | '\r' :: front => front.reverse
  | line => line.reverse

/-- The lines of a text, where `line` holds what has been read of the first one, last character
first. -/
def linesFrom (line : List Char) : List Char → List (List Char)
  | [] => if line.isEmpty then [] else [line.reverse]
  | '\n' :: rest => closeLine line :: linesFrom [] rest
  | c :: rest => linesFrom (c :: line) rest

/-- The lines of a text. -/
def lines (s : List Char) : List (List Char) := linesFrom [] s

theorem linesFrom_append {line start : List Char} (h : '\n' ∉ start) (rest : List Char) :
    linesFrom line (start ++ rest) = linesFrom (start.reverse ++ line) rest := by
  induction start generalizing line with
  | nil => rfl
  | cons c start ih =>
    have hc : c ≠ '\n' := fun e => h (e ▸ List.mem_cons_self)
    have hs : '\n' ∉ start := fun e => h (List.mem_cons_of_mem _ e)
    rw [List.cons_append, linesFrom, ih hs]
    · simp
    · exact hc

/-- A text without a line feed before its first one: that much is the first line. -/
theorem lines_append {start : List Char} (h : '\n' ∉ start) (rest : List Char) :
    lines (start ++ '\n' :: rest) = closeLine start.reverse :: lines rest := by
  rw [lines, linesFrom_append h]
  simp [linesFrom, lines]

end Overland.Text
