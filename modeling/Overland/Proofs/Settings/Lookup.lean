import Overland.Proofs.Settings.Assigned

/-!
# What a lookup sees

A lookup turns to the environment, unless the mark of overriding variables is empty, and then to
what the text assigned last.  A variable that is not set and one whose value is not UTF-8 are the
same to it; one that is set to nothing hides the text's assignment all the same.

* `look_parse`, `sees_look` — the answer after a text has been read, as a function and as a choice
  of three cases;
* `look_congr` — it depends on one variable and one key.
-/

namespace Overland

/-- A file holds a text. -/
def Disk.Holds (disk : Disk) (path text : String) : Prop :=
  ∃ bytes, disk path = .ok bytes ∧ String.fromUTF8? ⟨bytes⟩ = some text

theorem Disk.readText_eq_ok_iff {disk : Disk} {path text : String} :
    disk.readText path = .ok text ↔ disk.Holds path text := by
  rw [readText, Holds]
  cases disk path with
  | error fault => simp
  | ok bytes => cases h : String.fromUTF8? ⟨bytes⟩ <;> simp [h]

/-- A file with the bytes of a text holds it. -/
theorem Disk.holds_of_toUTF8 {disk : Disk} {path text : String}
    (h : disk path = .ok text.toUTF8.data) : disk.Holds path text :=
  ⟨_, h, dif_pos text.isValidUTF8⟩

/-- A variable is set to a text. -/
def Environment.Sets (environment : Environment) (name value : String) : Prop :=
  ∃ bytes, environment name = some bytes ∧ String.fromUTF8? ⟨bytes⟩ = some value

theorem Environment.text?_eq_some_iff {environment : Environment} {name value : String} :
    environment.text? name = some value ↔ environment.Sets name value :=
  Option.bind_eq_some_iff

namespace Settings

variable {environment environment' : Environment} {mark text text' key value : String}

/-- The value of the variable that overrides a key, if variables are looked at and it has one. -/
def override? (environment : Environment) (mark key : String) : Option String :=
  if mark = "" then none else environment.text? (variableName mark key)

theorem override?_eq_some_iff : override? environment mark key = some value ↔
    mark ≠ "" ∧ environment.Sets (variableName mark key) value := by
  rw [override?, ← Environment.text?_eq_some_iff]
  split <;> simp_all

theorem override?_eq_none_iff : override? environment mark key = none ↔
    mark = "" ∨ ∀ value, ¬ environment.Sets (variableName mark key) value := by
  simp only [Option.eq_none_iff_forall_ne_some, ne_eq, override?_eq_some_iff, not_and]
  by_cases hmark : mark = "" <;> simp [hmark]

/-- A lookup turns to the environment first. -/
theorem look?_eq (environment : Environment) (s : Settings) (key : String) :
    s.look? environment key = (override? environment s.environmentMark key).or s.values[key]? := by
  simp only [look?, override?, String.isEmpty_iff]
  cases (if s.environmentMark = "" then none
    else environment.text? (variableName s.environmentMark key)) <;> rfl

theorem look_parse (environment : Environment) (mark text key : String) (s : Settings) :
    ((s.setMark mark).parse text).look environment key =
      ((override? environment mark key).or (assigned? text key)).getD "" := by
  rw [look, look?_eq]
  simp only [parse, setMark, getElem?_valuesOf]

/-- What a lookup sees of a key: a variable before the text's last assignment, and nothing without
either. -/
inductive Sees (environment : Environment) (mark text key : String) : String → Prop where
  | override {value : String} (hmark : mark ≠ "")
      (h : environment.Sets (variableName mark key) value) : Sees environment mark text key value
  | assignment {value : String}
      (hunset : mark = "" ∨ ∀ other, ¬ environment.Sets (variableName mark key) other)
      (h : assigned? text key = some value) : Sees environment mark text key value
  | nothing (hunset : mark = "" ∨ ∀ other, ¬ environment.Sets (variableName mark key) other)
      (h : assigned? text key = none) : Sees environment mark text key ""

/-- **What a lookup answers** after a text has been read. -/
theorem sees_look (environment : Environment) (mark text key : String) (s : Settings) :
    Sees environment mark text key (((s.setMark mark).parse text).look environment key) := by
  rw [look_parse]
  cases hvariable : override? environment mark key with
  | some value =>
    obtain ⟨hmark, hset⟩ := override?_eq_some_iff.1 hvariable
    exact .override hmark hset
  | none =>
    have hunset := override?_eq_none_iff.1 hvariable
    cases hassigned : assigned? text key with
    | some value => exact .assignment hunset hassigned
    | none => exact .nothing hunset hassigned

/-- A lookup depends on the variable and on the last assignment of its own key. -/
theorem look_congr
    (hvariable : environment' (variableName mark key) = environment (variableName mark key))
    (htext : assigned? text' key = assigned? text key) (s s' : Settings) :
    ((s'.setMark mark).parse text').look environment' key =
      ((s.setMark mark).parse text).look environment key := by
  rw [look_parse, look_parse, htext]
  simp only [override?, Environment.text?, hvariable]

end Settings

end Overland
