import Overland.Disk

/-!
# A disk in memory

A tree of folders and files, kept as a list of the paths that exist, each path being the names from
the root down.  `Tree.toDisk` is what it answers to a path in the usual notation: every name on the
way must be a folder, `.` and empty names stay where they are, `..` goes one folder up.

A path is first judged as a text: it holds no NUL and is not longer than `pathLimit`.  Only then are
its names followed, and one longer than `nameLimit` is refused when its folder has been reached.
-/

namespace Overland.Disk

/-- What stands at a path. -/
inductive Entry where
  | file (content : Array UInt8)
  | folder
  deriving DecidableEq, Repr

/-- The entries below the root, which is always a folder. -/
structure Tree where
  entries : List (List String × Entry)
  deriving Repr, Inhabited

namespace Tree

/-- The tree with nothing below its root. -/
def empty : Tree := ⟨[]⟩

/-- What stands at a path. -/
def entry? (t : Tree) (path : List String) : Option Entry :=
  if path.isEmpty then some .folder else t.entries.lookup path

/-- The names of a path in the usual notation, as far as they name anything. -/
def names (path : String) : List String :=
  (path.splitOn "/").filter fun name => name ≠ "" ∧ name ≠ "."

/-- The most bytes a name has. -/
def nameLimit : Nat := 255

/-- The most bytes a path from the root has.  A whole path has at most 4095, and 16 of them are kept
for the path of the root itself. -/
def pathLimit : Nat := 4079

/-- Follows a path from a folder, given with its last name first. -/
def follow (t : Tree) : List String → List String → Except DiskFault (List String)
  | place, [] => .ok place
  | place, name :: rest =>
    match t.entry? place.reverse with
    | none => .error .notFound
    | some (.file _) => .error .notFolder
    | some .folder =>
      if name = "" ∨ name = "." then t.follow place rest
      else if name = ".." then t.follow place.tail rest
      else if nameLimit < name.utf8ByteSize then .error .nameTooLong
      else t.follow (name :: place) rest

/-- The answer to a path.  The path without any name leads to the root. -/
def toDisk (t : Tree) : Disk := fun path =>
  if '\x00' ∈ path.toList then .error .nulInPath
  else if pathLimit < path.utf8ByteSize then .error .nameTooLong
  else
    match t.follow [] (path.splitOn "/") with
    | .error fault => .error fault
    | .ok place =>
      match t.entry? place.reverse with
      | none => .error .notFound
      | some .folder => .error .isFolder
      | some (.file content) => .ok content

/-- Removes a path and all that is below it. -/
def remove (t : Tree) (path : String) : Tree :=
  ⟨t.entries.filter fun e => !(names path).isPrefixOf e.1⟩

/-- The folders above a path that are still missing. -/
def missingFolders (t : Tree) (path : List String) : List (List String × Entry) :=
  (List.range path.length).filterMap fun depth =>
    if (t.entry? (path.take depth)).isSome then none else some (path.take depth, .folder)

/-- Puts an entry at a path, in place of whatever was there, with all folders above it. -/
def write (t : Tree) (path : String) (e : Entry) : Tree :=
  let t := t.remove path
  ⟨(names path, e) :: t.missingFolders (names path) ++ t.entries⟩

end Tree

end Overland.Disk
