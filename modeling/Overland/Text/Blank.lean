/-!
# Blank characters

The characters with the white-space property, which is what is cut from both ends of a line, a key
or a value.  `isBlank_of_isWhitespace` ties the table to the ASCII class of the core library: it
holds all of that class, and more.
-/

namespace Overland.Text

/-- Whether a character has the white-space property: the ASCII controls from tab to carriage
return, the space, the next-line control, the no-break space, and the spaces and separators of the
other blocks. -/
def isBlank (c : Char) : Bool :=
  (9 ≤ c.val && c.val ≤ 13) || c.val = 0x20 || c.val = 0x85 || c.val = 0xA0 || c.val = 0x1680 ||
    (0x2000 ≤ c.val && c.val ≤ 0x200A) || c.val = 0x2028 || c.val = 0x2029 || c.val = 0x202F ||
    c.val = 0x205F || c.val = 0x3000

/-- A text without the blank characters at its two ends. -/
def trim (s : List Char) : List Char :=
  ((s.dropWhile isBlank).reverse.dropWhile isBlank).reverse

/-- White space in the sense of the core library is blank. -/
theorem isBlank_of_isWhitespace {c : Char} (h : c.isWhitespace = true) : isBlank c = true := by
  simp only [Char.isWhitespace, Bool.or_eq_true, decide_eq_true_eq] at h
  rcases h with ((rfl | rfl) | rfl) | rfl <;> decide

/-- A text that neither starts nor ends with a blank character is left as it is. -/
theorem trim_eq_self {s : List Char} (hfirst : ∀ c ∈ s.head?, isBlank c = false)
    (hlast : ∀ c ∈ s.getLast?, isBlank c = false) : trim s = s := by
  cases s with
  | nil => rfl
  | cons c rest =>
    have hc : isBlank c = false := hfirst c rfl
    have hd : (c :: rest).dropWhile isBlank = c :: rest := by simp [hc]
    rw [trim, hd]
    cases hr : (c :: rest).reverse with
    | nil => simp at hr
    | cons d front =>
      have hd' : isBlank d = false := by
        apply hlast
        rw [← List.head?_reverse, hr]; rfl
      have : (d :: front).dropWhile isBlank = d :: front := by simp [hd']
      rw [this, ← hr, List.reverse_reverse]

end Overland.Text
