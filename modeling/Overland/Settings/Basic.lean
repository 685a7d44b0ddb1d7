import Std.Data.HashMap
import Overland.Disk
import Overland.Settings.Assignment

/-!
# Settings

Settings are the values of the last text that was read, together with the file they come from and
the mark that environment variables with precedence start with.  Reading a text replaces all values;
a file that cannot be read leaves them as they are, but is still the one that `reload` turns to.
Before any file is named, `reload` finds none.

A key is looked up first as an environment variable, unless the mark is empty, and then among the
values (`look?`, `look`).
-/

namespace Overland

/-- The value of each environment variable that is set, as bytes. -/
abbrev Environment := String → Option (Array UInt8)

/-- A variable's value, if it is valid UTF-8. -/
def Environment.text? (environment : Environment) (name : String) : Option String :=
  (environment name).bind fun bytes => String.fromUTF8? ⟨bytes⟩

/-- Settings in force. -/
structure Settings where
  values : Std.HashMap String String
  /-- The file that `reload` reads, once one was named. -/
  source : Option String
  /-- What the names of overriding environment variables start with. -/
  environmentMark : String

namespace Settings

/-- No values, no file, no overriding variables. -/
def empty : Settings := ⟨∅, none, ""⟩

/-- Why settings or folders cannot be had. -/
inductive Failure where
  /-- The named file cannot be read as text. -/
  | unreadable (source : String) (fault : DiskFault)
  /-- The named file was read, and no folder of tiles or meshes follows from it. -/
  | noFolder (source : String)
  deriving DecidableEq, Repr

/-- The text of a failure. -/
def Failure.message : Failure → String
  | .unreadable source _ => s!"cannot read config file '{source}'"
  | .noFolder source => s!"'{source}' configures neither DataDir, MapsDir nor MMapsDir"

/-- The texts of a failure and of its cause, outermost first. -/
def Failure.chain (failure : Failure) : List String :=
  match failure with
  | .unreadable _ fault => [failure.message, fault.message]
  | .noFolder _ => [failure.message]

/-- The values of a text: each key has the value of its last assignment. -/
def valuesOf (text : String) : Std.HashMap String String :=
  (assignments text.toList).foldl
    (fun values a => values.insert (String.ofList a.1) (String.ofList a.2)) ∅

/-- Takes the values of a text in place of those there were. -/
def parse (text : String) (s : Settings) : Settings := { s with values := valuesOf text }

/-- Changes the mark of overriding variables. -/
def setMark (mark : String) (s : Settings) : Settings := { s with environmentMark := mark }

/-- Reads the source again.  Without a source the file of no name is missing. -/
def reload (disk : Disk) (s : Settings) : Except Failure Unit × Settings :=
  match s.source with
  | none => (.error (.unreadable "" .notFound), s)
  | some source =>
    match disk.readText source with
    | .ok text => (.ok (), s.parse text)
    | .error fault => (.error (.unreadable source fault), s)

/-- Turns to another source and reads it. -/
def load (disk : Disk) (source mark : String) (s : Settings) : Except Failure Unit × Settings :=
  { s with source := some source, environmentMark := mark }.reload disk

/-! ## Looking up -/

/-- The environment variable that overrides a key. -/
def variableName (mark key : String) : String :=
  mark ++ String.ofList (key.toList.map fun c => if c = '.' then '_' else c)

/-- The value of a key, the environment first. -/
def look? (environment : Environment) (s : Settings) (key : String) : Option String :=
  let override :=
    if s.environmentMark.isEmpty then none
    else environment.text? (variableName s.environmentMark key)
  override <|> s.values[key]?

/-- The value of a key, empty if it has none. -/
def look (environment : Environment) (s : Settings) (key : String) : String :=
  (s.look? environment key).getD ""

end Settings

end Overland
