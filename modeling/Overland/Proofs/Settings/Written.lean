import Overland.Proofs.Settings.Assigned

/-!
# Settings that are written and read back

A settings text is written line by line: an assignment has its key, an `=` and its value between
quotation marks, and anywhere between the assignments there may be lines that say nothing.
`Written` relates pairs of keys and values to every text they can be written as; indentation, the
ends of lines and the silent lines are free.

* `assigned_of_written` — such a text assigns just these pairs, in order;
* `values_of_written` — so a key has the value of its last pair, and no other key has one.

A value may hold anything but a line feed: the quotation marks around it keep blank characters, and
those inside it count as characters of the value.  A key is not quoted, so it must be trimmed and
must not look like a remark.
-/

namespace Overland.Settings

open Text

/-! ## Written texts -/

/-- A key that can be written. -/
structure Writable (key : String) : Prop where
  trimmed : trim key.toList = key.toList
  noEquals : '=' ∉ key.toList
  noFeed : '\n' ∉ key.toList
  noMark : ∀ c ∈ key.toList.head?, c ∉ remarkMarks

instance (key : String) : Decidable (Writable key) :=
  have : Decidable (∀ c ∈ key.toList.head?, c ∉ remarkMarks) := Option.decidableForallMem _
  decidable_of_iff (trim key.toList = key.toList ∧ '=' ∉ key.toList ∧ '\n' ∉ key.toList ∧
      ∀ c ∈ key.toList.head?, c ∉ remarkMarks)
    ⟨fun ⟨trimmed, noEquals, noFeed, noMark⟩ => ⟨trimmed, noEquals, noFeed, noMark⟩,
      fun h => ⟨h.trimmed, h.noEquals, h.noFeed, h.noMark⟩⟩

/-- A line that says nothing. -/
inductive Silent : List Char → Prop where
  | blank {line : List Char} (h : AllBlank line) : Silent line
  | remark {indent rest : List Char} {mark : Char} (hindent : AllBlank indent)
      (hmark : mark ∈ remarkMarks) : Silent (indent ++ mark :: rest)
  | plain {line : List Char} (h : '=' ∉ line) : Silent line

/-- The line that assigns a value to a key. -/
def assignmentLine (key value : String) : List Char :=
  key.toList ++ [' ', '=', ' ', '"'] ++ value.toList ++ ['"']

/-- A text that these pairs can be written as, in this order. -/
inductive Written : List (String × String) → List Char → Prop where
  | nil : Written [] []
  | assignment {pairs : List (String × String)} {indent rest : List Char} {key value : String}
      (hindent : AllBlank indent) (hfeed : '\n' ∉ indent) (hkey : Writable key)
      (hvalue : '\n' ∉ value.toList) (ending : LineEnd) (h : Written pairs rest) :
      Written ((key, value) :: pairs)
        (indent ++ assignmentLine key value ++ ending.text ++ rest)
  | silent {pairs : List (String × String)} {line rest : List Char} (hfeed : '\n' ∉ line)
      (hsilent : Silent line) (ending : LineEnd) (h : Written pairs rest) :
      Written pairs (line ++ ending.text ++ rest)

/-! ## Reading them -/

theorem assignment?_of_silent {line : List Char} (h : Silent line) : assignment? line = none := by
  cases h with
  | blank h => exact assignment?_of_blank h
  | remark hindent hmark => exact assignment?_of_remark hindent hmark
  | plain h => exact assignment?_of_notMem h

variable {indent : List Char} {key value : String}

/-- A key behind its indentation starts with its own first character. -/
theorem Writable.head?_dropBlank (hkey : Writable key) (hindent : AllBlank indent) :
    ∀ c ∈ ((indent ++ key.toList ++ [' ']).dropWhile isBlank).head?, c ∉ remarkMarks := by
  intro c hc
  rw [List.append_assoc, List.dropWhile_append_of_pos hindent] at hc
  cases hchars : key.toList with
  | nil =>
    -- Behind an empty key there is only the space before the `=`.
    rw [hchars] at hc
    simp [isBlank] at hc
  | cons d rest =>
    have hd : isBlank d = false := isBlank_of_trim_eq_cons (hkey.trimmed.trans hchars)
    rw [hchars, List.cons_append, List.dropWhile_cons_of_neg (by simp [hd])] at hc
    exact hkey.noMark c (by rw [hchars]; exact hc)

/-- What stands between quotation marks is not trimmed. -/
theorem trim_quoted (value : List Char) :
    trim (' ' :: '"' :: (value ++ ['"'])) = '"' :: (value ++ ['"']) := by
  have hblank : AllBlank [' '] := by decide
  rw [← List.singleton_append, trim_blank_append hblank]
  refine trim_eq_self ?_ ?_
  · intro c hc
    cases hc
    decide
  · intro c hc
    rw [← List.cons_append, List.getLast?_concat] at hc
    cases hc
    decide

/-- A written assignment is read as it was meant. -/
theorem assignment?_assignmentLine (hindent : AllBlank indent) (hkey : Writable key) :
    assignment? (indent ++ assignmentLine key value) = some (key.toList, value.toList) := by
  have hequals : '=' ∉ indent ++ key.toList ++ [' '] := by
    have hblank : '=' ∉ indent := fun h => absurd (hindent _ h) (by decide)
    simp [hblank, hkey.noEquals]
  have hline : indent ++ assignmentLine key value =
      indent ++ key.toList ++ [' '] ++ '=' :: ' ' :: '"' :: (value.toList ++ ['"']) := by
    simp [assignmentLine]
  rw [hline, assignment?_append_cons hequals (hkey.head?_dropBlank hindent),
    trim_append_blank (by decide), trim_blank_append hindent, hkey.trimmed, trim_quoted,
    unquote_quoted]

/-- An assignment is written on one line. -/
theorem notMem_assignmentLine (hfeed : '\n' ∉ indent) (hkey : Writable key)
    (hvalue : '\n' ∉ value.toList) : '\n' ∉ indent ++ assignmentLine key value := by
  simp [assignmentLine, hfeed, hkey.noFeed, hvalue]

/-- The assignments of a written text are its pairs. -/
theorem assignments_of_written {pairs : List (String × String)} {text : List Char}
    (h : Written pairs text) :
    assignments text = pairs.map fun pair => (pair.1.toList, pair.2.toList) := by
  induction h with
  | nil => rfl
  | assignment hindent hfeed hkey hvalue ending _ ih =>
    rw [assignments_ended (notMem_assignmentLine hfeed hkey hvalue),
      assignment?_assignmentLine hindent hkey, ih]
    rfl
  | silent hfeed hsilent ending _ ih =>
    rw [assignments_ended hfeed, assignment?_of_silent hsilent, ih]
    rfl

/-- **A text assigns what was written,** in the same order. -/
theorem assigned_of_written {pairs : List (String × String)} {text : String}
    (h : Written pairs text.toList) : assigned text = pairs := by
  rw [assigned, assignments_of_written h, List.map_map]
  simp [Function.comp_def]

/-- **Settings are read back.**  Whatever they were before, after a written text has been read each
key has the value of its last pair, and no other key has a value. -/
theorem values_of_written {pairs : List (String × String)} {text : String}
    (h : Written pairs text.toList) (s : Settings) (key : String) :
    (s.parse text).values[key]? = pairs.reverse.lookup key := by
  rw [parse, getElem?_valuesOf, assigned?, assigned_of_written h]

/-- Two assignments to one key and one of a lone quotation mark, between a remark that looks like an
assignment, the head of a section, an empty line and one without an `=`. -/
def motleyText : List Char :=
  "# a b = 1".toList ++ LineEnd.returnFeed.text ++
    ("  ".toList ++ assignmentLine "a b" "x=\"#1\" " ++ LineEnd.feed.text ++
      ("[s]".toList ++ LineEnd.feed.text ++
        ([] ++ assignmentLine "k" "\"" ++ LineEnd.returnFeed.text ++
          ([] ++ LineEnd.feed.text ++
            ("plain".toList ++ LineEnd.feed.text ++
              ("\t".toList ++ assignmentLine "a b" "" ++ LineEnd.feed.text ++ []))))))

/-- The pairs of `motleyText`. -/
def motleyPairs : List (String × String) := [("a b", "x=\"#1\" "), ("k", "\""), ("a b", "")]

theorem written_motleyText : Written motleyPairs motleyText := by
  have hkey : Writable "a b" := by decide
  have hother : Writable "k" := by decide
  refine .silent (by decide) (.remark allBlank_nil (by decide)) _ ?_
  refine .assignment (by decide) (by decide) hkey (by decide) _ ?_
  refine .silent (by decide) (.remark allBlank_nil (by decide)) _ ?_
  refine .assignment (by decide) (by decide) hother (by decide) _ ?_
  refine .silent (by decide) (.blank (by decide)) _ ?_
  refine .silent (by decide) (.plain (by decide)) _ ?_
  exact .assignment (by decide) (by decide) hkey (by decide) _ .nil

theorem values_of_motleyText :
    Written motleyPairs (String.ofList motleyText).toList ∧
      (empty.parse (String.ofList motleyText)).values["a b"]? = some "" ∧
      (empty.parse (String.ofList motleyText)).values["k"]? = some "\"" ∧
      (empty.parse (String.ofList motleyText)).values["plain"]? = none := by
  have hwritten : Written motleyPairs (String.ofList motleyText).toList := by
    rw [String.toList_ofList]
    exact written_motleyText
  refine ⟨hwritten, ?_, ?_, ?_⟩
  · rw [values_of_written hwritten]; decide
  · rw [values_of_written hwritten]; decide
  · rw [values_of_written hwritten]; decide

end Overland.Settings
