import Overland.Text.Blank
import Overland.Text.Line
import Mathlib.Data.List.TakeWhile

/-!
# What trimming keeps

Blank characters at the two ends of a text do not show after trimming, and everything from the first
to the last character that is not blank does.  So a text around such a character is trimmed on
either side by itself (`trim_append_cons`), and the end of a line is never told from blank
characters behind it (`lines_ended`).
-/

namespace Overland.Text

/-- Only blank characters, or none at all. -/
def AllBlank (s : List Char) : Prop := ∀ c ∈ s, isBlank c = true

instance (s : List Char) : Decidable (AllBlank s) := List.decidableBAll _ s

theorem allBlank_nil : AllBlank [] := nofun

variable {s t : List Char} {c : Char}

/-- What is not blank ends the blank characters before it. -/
theorem dropBlank_append_cons (hc : isBlank c = false) :
    (s ++ c :: t).dropWhile isBlank = s.dropWhile isBlank ++ c :: t := by
  rw [List.dropWhile_append]
  split
  · next hnil => rw [List.isEmpty_iff.1 hnil, List.dropWhile_cons_of_neg (by simp [hc])]; rfl
  · rfl

/-- A character that is not blank stays, and so does all that stands between it and the others. -/
theorem trim_append_cons (hc : isBlank c = false) :
    trim (s ++ c :: t) = s.dropWhile isBlank ++ c :: (t.reverse.dropWhile isBlank).reverse := by
  rw [trim, dropBlank_append_cons hc, List.reverse_append, List.reverse_cons, List.append_assoc,
    List.singleton_append, dropBlank_append_cons hc]
  simp

theorem trim_blank_append (hs : AllBlank s) : trim (s ++ t) = trim t := by
  rw [trim, List.dropWhile_append_of_pos hs, trim]

theorem trim_eq_nil_iff : trim s = [] ↔ AllBlank s := by
  constructor
  · intro h d hd
    obtain ⟨before, after, rfl⟩ := List.append_of_mem hd
    rcases hblank : isBlank d with _ | _
    · rw [trim_append_cons hblank] at h
      simp at h
    · rfl
  · intro h
    rw [← List.append_nil s, trim_blank_append h]
    rfl

theorem trim_append_blank (ht : AllBlank t) : trim (s ++ t) = trim s := by
  have htail : t.reverse.dropWhile isBlank = [] :=
    List.dropWhile_eq_nil_iff.2 fun c hc => ht c (List.mem_reverse.1 hc)
  rw [trim, List.dropWhile_append]
  split
  · next hnil =>
    rw [List.dropWhile_eq_nil_iff.2 ht, trim, List.isEmpty_iff.1 hnil]
  · rw [List.reverse_append, List.dropWhile_append, if_pos (by rw [htail]; rfl), trim]

@[simp] theorem trim_dropBlank : trim (s.dropWhile isBlank) = trim s := by
  calc trim (s.dropWhile isBlank)
      = trim (s.takeWhile isBlank ++ s.dropWhile isBlank) :=
        (trim_blank_append fun _ => List.mem_takeWhile_imp).symm
    _ = trim s := by rw [List.takeWhile_append_dropWhile]

@[simp] theorem trim_dropBlank_reverse : trim (s.reverse.dropWhile isBlank).reverse = trim s := by
  calc trim (s.reverse.dropWhile isBlank).reverse
      = trim ((s.reverse.dropWhile isBlank).reverse ++ (s.reverse.takeWhile isBlank).reverse) :=
        (trim_append_blank fun _ hc => List.mem_takeWhile_imp (List.mem_reverse.1 hc)).symm
    _ = trim s := by
        rw [← List.reverse_append, List.takeWhile_append_dropWhile, List.reverse_reverse]

/-- A trimmed text does not start with a blank character. -/
theorem isBlank_of_trim_eq_cons (h : trim s = c :: t) : isBlank c = false := by
  cases hrest : s.dropWhile isBlank with
  | nil => simp [trim, hrest] at h
  | cons d rest =>
    have hd : isBlank d = false := by simpa [hrest] using List.head?_dropWhile_not isBlank s
    rw [← trim_dropBlank, hrest, ← List.nil_append (d :: rest), trim_append_cons hd] at h
    exact (List.cons.inj h).1 ▸ hd

/-! ## Ends of lines -/

/-- How a line ends. -/
inductive LineEnd where
  | feed
  | returnFeed
  deriving DecidableEq, Repr

/-- The characters of the end of a line. -/
def LineEnd.text : LineEnd → List Char
  | .feed => ['\n']
  | .returnFeed => ['\r', '\n']

/-- The carriage return that a line may lose to its end is blank. -/
theorem trim_closeLine : trim (closeLine s.reverse) = trim s := by
  rcases hs : s.reverse with _ | ⟨d, front⟩
  · rw [List.reverse_eq_nil_iff.1 hs]
    rfl
  · obtain rfl : s = front.reverse ++ [d] := by
      rw [← List.reverse_reverse s, hs, List.reverse_cons]
    by_cases hd : d = '\r'
    · subst hd
      exact (trim_append_blank (by decide)).symm
    · rw [closeLine]
      · simp
      · intro rest h
        exact hd (List.cons.inj h).1

/-- Up to its end a line is read alone, and but for blank characters as it stands. -/
theorem lines_ended (hs : '\n' ∉ s) (ending : LineEnd) (rest : List Char) :
    ∃ line, lines (s ++ ending.text ++ rest) = line :: lines rest ∧ trim line = trim s := by
  cases ending with
  | feed =>
    refine ⟨_, ?_, trim_closeLine⟩
    rw [List.append_assoc]
    exact lines_append hs rest
  | returnFeed =>
    -- The line is read up to the line feed, so its carriage return is still there to be closed.
    have hs' : '\n' ∉ s ++ ['\r'] := by simp [hs]
    refine ⟨closeLine (s ++ ['\r']).reverse, ?_, ?_⟩
    · rw [← lines_append hs']
      simp [LineEnd.text]
    · rw [trim_closeLine, trim_append_blank (by decide)]

end Overland.Text
