import Overland.Settings.Basic
import Overland.Proofs.Text.Trim

/-!
# What a text assigns

A line says what it says between its blank ends: nothing, if it is a remark or has no `=`, and
otherwise one key and one value (`assignment?_append_cons`).  Lines are read each by itself
(`assignments_ended`), and of all the assignments to a key the last one counts, in whatever table
they are entered (`getElem?_valuesOf`).
-/

namespace Overland.Settings

open Text

variable {line before after : List Char}

/-! ## One line -/

/-- What a line says is left by trimming. -/
theorem assignment?_congr {other : List Char} (h : trim line = trim other) :
    assignment? line = assignment? other := by
  simp only [assignment?, h]

/-- The characters that make a remark of the line they start. -/
def remarkMarks : List Char := ['#', ';', '[']

theorem isRemark_cons (c : Char) (rest : List Char) :
    isRemark (c :: rest) = decide (c ∈ remarkMarks) := by
  simp [isRemark, remarkMarks, Bool.or_assoc]

theorem assignment?_of_blank (h : AllBlank line) : assignment? line = none := by
  rw [assignment?, trim_eq_nil_iff.2 h]
  rfl

/-- A remark may be indented. -/
theorem assignment?_of_remark {indent rest : List Char} {mark : Char} (hindent : AllBlank indent)
    (hmark : mark ∈ remarkMarks) : assignment? (indent ++ mark :: rest) = none := by
  have hblank : isBlank mark = false := by
    simp only [remarkMarks, List.mem_cons, List.not_mem_nil, or_false] at hmark
    rcases hmark with rfl | rfl | rfl <;> decide
  rw [assignment?_congr (trim_blank_append hindent), ← List.nil_append (mark :: rest), assignment?,
    trim_append_cons hblank]
  exact if_pos ((isRemark_cons ..).trans (decide_eq_true hmark))

theorem assignment?_of_notMem (h : '=' ∉ line) : assignment? line = none := by
  have hcontent : '=' ∉ trim line := fun hmem => h (by
    rw [trim, List.mem_reverse] at hmem
    exact (List.dropWhile_sublist _).subset
      (List.mem_reverse.1 ((List.dropWhile_sublist _).subset hmem)))
  have hdrop : (trim line).dropWhile (· ≠ '=') = [] :=
    List.dropWhile_eq_nil_iff.2 fun c hc => decide_eq_true fun heq => hcontent (heq ▸ hc)
  simp only [assignment?, hdrop, ite_self]

/-- **What a line assigns.**  A line with an `=` that is no remark assigns what stands after the
first one to what stands before it. -/
theorem assignment?_append_cons (hbefore : '=' ∉ before)
    (hmark : ∀ c ∈ (before.dropWhile isBlank).head?, c ∉ remarkMarks) :
    assignment? (before ++ '=' :: after) = some (trim before, unquote (trim after)) := by
  have hkey : ∀ c ∈ before.dropWhile isBlank, (decide (c ≠ '=')) = true := fun c hc =>
    decide_eq_true fun heq => hbefore (heq ▸ (List.dropWhile_sublist _).subset hc)
  -- The `=` is not blank, so trimming keeps what is between it and the key's first character.
  have hremark : isRemark (trim (before ++ '=' :: after)) = false := by
    rw [trim_append_cons (by decide)]
    cases hstart : before.dropWhile isBlank with
    | nil => rfl
    | cons c rest =>
      rw [List.cons_append, isRemark_cons]
      exact decide_eq_false (hmark c (by rw [hstart]; rfl))
  simp only [assignment?, hremark, Bool.false_eq_true, if_false]
  rw [trim_append_cons (by decide), List.dropWhile_append_of_pos hkey,
    List.takeWhile_append_of_pos hkey]
  simp

/-! ## A text, line by line -/

/-- A line that ends assigns what it would assign alone. -/
theorem assignments_ended (hline : '\n' ∉ line) (ending : LineEnd) (rest : List Char) :
    assignments (line ++ ending.text ++ rest) = (assignment? line).toList ++ assignments rest := by
  obtain ⟨seen, hlines, htrim⟩ := lines_ended hline ending rest
  rw [assignments, hlines, List.filterMap_cons, assignment?_congr htrim]
  cases assignment? line <;> rfl

/-- The assignments of a text, in order. -/
def assigned (text : String) : List (String × String) :=
  (assignments text.toList).map fun a => (String.ofList a.1, String.ofList a.2)

/-- The value that a text assigns to a key last. -/
def assigned? (text key : String) : Option String := (assigned text).reverse.lookup key

/-- Entered one after the other, the last pair with a key gives its value. -/
theorem getElem?_foldl_insert (pairs : List (String × String)) (values : Std.HashMap String String)
    (key : String) :
    (pairs.foldl (fun values a => values.insert a.1 a.2) values)[key]? =
      (pairs.reverse.lookup key).or values[key]? := by
  induction pairs generalizing values with
  | nil => rfl
  | cons pair pairs ih =>
    rw [List.foldl_cons, ih, List.reverse_cons, List.lookup_append, Option.or_assoc,
      List.lookup_cons, Std.HashMap.getElem?_insert, BEq.comm]
    cases key == pair.1 <;> rfl

/-- **The last assignment counts.** -/
theorem getElem?_valuesOf (text key : String) : (valuesOf text)[key]? = assigned? text key := by
  have hvalues :
      valuesOf text = (assigned text).foldl (fun values a => values.insert a.1 a.2) ∅ := by
    rw [assigned, List.foldl_map]
    rfl
  rw [hvalues, getElem?_foldl_insert, Std.HashMap.getElem?_empty, Option.or_none]
  rfl

end Overland.Settings
