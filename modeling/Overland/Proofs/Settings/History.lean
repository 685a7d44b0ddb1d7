import Overland.Proofs.Settings.Lookup

/-!
# Settings over time

Settings are read, reloaded and looked up while files and variables change around them.  A history
is a list of moments, the latest one first, each with the disk and the environment as they are by
then.

Three things can be told from a history without following the settings through it: the file that was
named last, the mark that was set last, and the text that was read last (`lastText?`).  A file that
cannot be read as text adds nothing to the last of these, but it was named all the same.

* `make_toldBy` — one call, told from what is known before it;
* `after_eq` — the settings after a history, told from those three things;
* `after_last_text` — what the values are by then, what every call answers, and what a file that
  cannot be read leaves alone.
-/

namespace Overland.Settings

/-! ## Calls and moments -/

/-- What settings are asked to do. -/
inductive Call where
  | parse (text : String)
  | load (source mark : String)
  | reload
  | setMark (mark : String)
  | look (key : String)
  deriving DecidableEq, Repr

/-- What a call answers. -/
inductive Answer where
  | done
  | failed (failure : Failure)
  | value (value : String)
  deriving DecidableEq, Repr

/-- The answer of a call that may fail. -/
def Answer.ofExcept {α : Type} : Except Failure α → Answer
  | .ok _ => .done
  | .error failure => .failed failure

/-- A call, with the disk and the environment of its moment. -/
structure Moment where
  disk : Disk
  environment : Environment
  call : Call

/-- Makes a call. -/
def Moment.make (m : Moment) (s : Settings) : Answer × Settings :=
  match m.call with
  | .parse text => (.done, s.parse text)
  | .load source mark =>
    let (answer, s) := s.load m.disk source mark
    (.ofExcept answer, s)
  | .reload =>
    let (answer, s) := s.reload m.disk
    (.ofExcept answer, s)
  | .setMark mark => (.done, s.setMark mark)
  | .look key => (.value (s.look m.environment key), s)

/-- The settings after a history. -/
def after : List Moment → Settings
  | [] => empty
  | m :: earlier => (m.make (after earlier)).2

/-! ## What a history tells -/

/-- The file that a call names. -/
def Call.source? : Call → Option String
  | .load source _ => some source
  | _ => none

/-- The mark that a call sets. -/
def Call.mark? : Call → Option String
  | .load _ mark | .setMark mark => some mark
  | _ => none

/-- The file that was named last. -/
def lastSource? (history : List Moment) : Option String := history.findSome? (·.call.source?)

/-- The mark that was set last. -/
def lastMark (history : List Moment) : String := (history.findSome? (·.call.mark?)).getD ""

/-- The file that a call reads after a history. -/
def Moment.reads? (m : Moment) (history : List Moment) : Option String :=
  match m.call with
  | .load source _ => some source
  | .reload => lastSource? history
  | _ => none

/-- The text in a file, if one is named and can be read. -/
def textIn (disk : Disk) : Option String → Except Failure String
  | none => .error (.unreadable "" .notFound)
  | some source => (disk.readText source).mapError (.unreadable source)

/-- The text that a call reads, after a history. -/
def Moment.text? (m : Moment) (history : List Moment) : Option String :=
  match m.call with
  | .parse text => some text
  | .load _ _ | .reload => (textIn m.disk (m.reads? history)).toOption
  | .setMark _ | .look _ => none

/-- The text that was read last. -/
def lastText? : List Moment → Option String
  | [] => none
  | m :: earlier => (m.text? earlier).or (lastText? earlier)

/-- What a call answers after a history. -/
def Moment.told (m : Moment) (history : List Moment) : Answer :=
  match m.call with
  | .parse _ | .setMark _ => .done
  | .load _ _ | .reload => .ofExcept (textIn m.disk (m.reads? history))
  | .look key =>
    .value (((override? m.environment (lastMark history) key).or
      ((lastText? history).bind (assigned? · key))).getD "")

/-! ## Following the settings -/

/-- The values of the text that was read last. -/
def lastValues (text? : Option String) : Std.HashMap String String := text?.elim ∅ valuesOf

/-- Settings as a history tells them. -/
def toldBy (history : List Moment) : Settings :=
  ⟨lastValues (lastText? history), lastSource? history, lastMark history⟩

theorem getElem?_lastValues (text? : Option String) (key : String) :
    (lastValues text?)[key]? = text?.bind (assigned? · key) := by
  cases text? with
  | none => exact Std.HashMap.getElem?_empty
  | some text => exact getElem?_valuesOf text key

/-- Reading a file takes its text in, or changes nothing. -/
theorem reload_eq (disk : Disk) (s : Settings) :
    s.reload disk = match textIn disk s.source with
      | .ok text => (.ok (), s.parse text)
      | .error failure => (.error failure, s) := by
  rw [reload]
  cases s.source with
  | none => rfl
  | some source =>
    simp only [textIn]
    cases disk.readText source <;> rfl

theorem lastSource?_cons (m : Moment) (earlier : List Moment) :
    lastSource? (m :: earlier) = m.call.source?.or (lastSource? earlier) := by
  rw [lastSource?, List.findSome?_cons]
  cases m.call.source? <;> rfl

theorem lastMark_cons (m : Moment) (earlier : List Moment) :
    lastMark (m :: earlier) = m.call.mark?.getD (lastMark earlier) := by
  rw [lastMark, List.findSome?_cons]
  cases m.call.mark? <;> rfl

/-- **One call.**  Settings that are as a history tells them answer as it tells, and are as the
longer history tells afterwards. -/
theorem make_toldBy (m : Moment) (history : List Moment) :
    m.make (toldBy history) = (m.told history, toldBy (m :: history)) := by
  obtain ⟨disk, environment, call⟩ := m
  simp only [toldBy, lastSource?_cons, lastMark_cons, lastText?]
  cases call with
  | parse text => rfl
  | load source mark =>
    simp only [Moment.make, Moment.told, Moment.text?, Moment.reads?, load, reload_eq]
    cases textIn disk (some source) <;> rfl
  | reload =>
    simp only [Moment.make, Moment.told, Moment.text?, Moment.reads?, reload_eq]
    cases textIn disk (lastSource? history) <;> rfl
  | setMark mark => rfl
  | look key =>
    simp only [Moment.make, Moment.told, look, look?_eq, getElem?_lastValues]
    rfl

/-- **Any number of calls.** -/
theorem after_eq (history : List Moment) : after history = toldBy history := by
  induction history with
  | nil => rfl
  | cons m earlier ih => rw [after, ih, make_toldBy]

/-! ## Files that cannot be read -/

/-- A file has no text: it is missing, or it cannot be read, or what it holds is not UTF-8. -/
def Unreadable (disk : Disk) (source : String) : Prop := ∀ text, ¬ disk.Holds source text

theorem textIn_of_unreadable {disk : Disk} {source : String} (h : Unreadable disk source) :
    ∃ fault, textIn disk (some source) = .error (.unreadable source fault) := by
  rw [textIn]
  cases hread : disk.readText source with
  | error fault => exact ⟨fault, rfl⟩
  | ok text => exact absurd (Disk.readText_eq_ok_iff.1 hread) (h text)

variable {m : Moment} {history : List Moment} {source : String}

/-- The file that a call reads is the one that was named last when it is done. -/
theorem lastSource?_of_reads (h : m.reads? history = some source) :
    lastSource? (m :: history) = some source := by
  rw [lastSource?_cons]
  revert h
  rw [Moment.reads?]
  cases m.call <;> simp [Call.source?]

theorem told_of_reads (h : m.reads? history = some source) :
    m.told history = .ofExcept (textIn m.disk (some source)) ∧
      m.text? history = (textIn m.disk (some source)).toOption := by
  rw [← h]
  obtain ⟨disk, environment, call⟩ := m
  cases call with
  | load | reload => exact ⟨rfl, rfl⟩
  | parse | setMark | look => cases h

/-- **The values are those of the last text.**  After any history, whatever became of files and
variables meanwhile, the values are exactly those of the text that was read last, and the file to
reload is the one that was named last; this decides all answers.  A call whose file cannot be read
as text says so and changes no value, and the next reload turns to that file again. -/
theorem after_last_text (history : List Moment) :
    (after history).values = lastValues (lastText? history) ∧
    (after history).source = lastSource? history ∧
    (∀ m : Moment, (m.make (after history)).1 = m.told history) ∧
    ∀ (m : Moment) (source : String), m.reads? history = some source → Unreadable m.disk source →
      (∃ fault, (m.make (after history)).1 = .failed (.unreadable source fault)) ∧
      (after (m :: history)).values = (after history).values ∧
      ∀ (disk : Disk) (text : String), disk.Holds source text →
        (after (m :: history)).reload disk = (.ok (), (after (m :: history)).parse text) := by
  refine ⟨by rw [after_eq]; rfl, by rw [after_eq]; rfl, fun m => ?_,
    fun m source hreads hfile => ?_⟩
  · rw [after_eq, make_toldBy]
  · obtain ⟨fault, htext⟩ := textIn_of_unreadable hfile
    obtain ⟨htold, hnone⟩ := told_of_reads hreads
    rw [htext] at htold hnone
    refine ⟨⟨fault, ?_⟩, ?_, fun disk text hholds => ?_⟩
    · rw [after_eq, make_toldBy, htold]
      rfl
    · -- The failed call adds no text, and the values depend on nothing else.
      have hlast : lastText? (m :: history) = lastText? history := by
        rw [lastText?, hnone]
        rfl
      rw [after_eq, after_eq, toldBy, toldBy, hlast]
    · have hsource : (after (m :: history)).source = some source := by
        rw [after_eq]
        exact lastSource?_of_reads hreads
      have hfound : textIn disk (after (m :: history)).source = .ok text := by
        rw [hsource, textIn, Disk.readText_eq_ok_iff.2 hholds]
        rfl
      rw [reload_eq, hfound]

/-- A file with a text, a file with a byte that is none, and no other. -/
def mixedFiles : Disk := fun path =>
  if path = "plain" then .ok "k = v".toUTF8.data
  else if path = "garbled" then .ok #[0xff]
  else .error .notFound

/-- A text that is given, one that is loaded in its place, and a file that is no text. -/
def mixedHistory : List Moment :=
  [⟨mixedFiles, fun _ => none, .load "garbled" ""⟩, ⟨mixedFiles, fun _ => none, .load "plain" "P_"⟩,
    ⟨mixedFiles, fun _ => none, .parse "old = 1"⟩]

/-- A reload of the garbled file leaves the values of the plain one. -/
theorem after_mixedHistory :
    (after mixedHistory).values = valuesOf "k = v" ∧
    (after mixedHistory).source = some "garbled" ∧
    Unreadable mixedFiles "garbled" ∧
    (after (⟨mixedFiles, fun _ => none, .reload⟩ :: mixedHistory)).values = valuesOf "k = v" := by
  have hgarbled : Unreadable mixedFiles "garbled" := by
    rintro text ⟨bytes, hbytes, htext⟩
    obtain rfl : #[0xff] = bytes := Except.ok.inj hbytes
    revert htext
    exact nofun
  obtain ⟨hvalues, hsource, -, hfails⟩ := after_last_text mixedHistory
  have hlast : lastText? mixedHistory = some "k = v" := by decide
  obtain ⟨-, hkept, -⟩ :=
    hfails ⟨mixedFiles, fun _ => none, .reload⟩ "garbled" rfl hgarbled
  rw [hlast] at hvalues
  exact ⟨hvalues, hsource, hgarbled, hkept.trans hvalues⟩

end Overland.Settings
