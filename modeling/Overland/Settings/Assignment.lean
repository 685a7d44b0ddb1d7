import Overland.Text.Blank
import Overland.Text.Line

/-!
# Settings as text

A settings text is read line by line.  Blank characters around a line do not count; a line that is
empty, starts with `#`, `;` or `[`, or has no `=` says nothing.  Any other line assigns what stands
after its first `=` to what stands before it, both without blank characters around them, and a value
between two quotation marks loses those, but nothing inside them.

`assignment?` reads one line, `assignments` a text.
-/

namespace Overland.Settings

/-- A value without the pair of quotation marks around it, if there is one. -/
def unquote : List Char → List Char
  | '"' :: rest => if rest.getLast? = some '"' then rest.dropLast else '"' :: rest
  | value => value

/-- Whether a line, without blank characters around it, is a comment or the head of a section. -/
def isRemark : List Char → Bool
  | c :: _ => c = '#' || c = ';' || c = '['
  | [] => false

/-- The key and the value that a line assigns. -/
def assignment? (line : List Char) : Option (List Char × List Char) :=
  let content := Text.trim line
  if isRemark content then none
  else
    match content.dropWhile (· ≠ '=') with
    | [] => none
    | _ :: value =>
      some (Text.trim (content.takeWhile (· ≠ '=')), unquote (Text.trim value))

/-- The assignments of a text, in order. -/
def assignments (text : List Char) : List (List Char × List Char) :=
  (Text.lines text).filterMap assignment?

/-! ## Reading back what is written -/

@[simp] theorem unquote_quoted (value : List Char) : unquote ('"' :: (value ++ ['"'])) = value := by
  simp [unquote]

end Overland.Settings
