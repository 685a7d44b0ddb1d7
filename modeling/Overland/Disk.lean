/-!
# What a disk answers

The caches, the mesh table and the settings never look at a disk themselves: each operation that may
read is given the `Disk` as it is at that moment, a function from paths to contents or faults.
Files that change between two operations are two different disks.

A missing file is a fault of its own, since for tiles it is no fault at all; `joinPath` is how the
path of a file in a folder is written.
-/

namespace Overland

/-- Why a path cannot be read. -/
inductive DiskFault where
  /-- Nothing is there, or a folder on the way is missing. -/
  | notFound
  /-- A file stands on the way where a folder is needed. -/
  | notFolder
  /-- The path leads to a folder. -/
  | isFolder
  /-- The path, or a name in it, has more bytes than a path or a name may have. -/
  | nameTooLong
  /-- The path holds the character that ends a path. -/
  | nulInPath
  /-- The content was wanted as text and is not valid UTF-8. -/
  | notText
  deriving DecidableEq, Repr

/-- The text of a fault. -/
def DiskFault.message : DiskFault → String
  | .notFound => "No such file or directory (os error 2)"
  | .notFolder => "Not a directory (os error 20)"
  | .isFolder => "Is a directory (os error 21)"
  | .nameTooLong => "File name too long (os error 36)"
  | .nulInPath => "file name contained an unexpected NUL byte"
  | .notText => "stream did not contain valid UTF-8"

/-- The answer of a disk to each path, at one moment. -/
abbrev Disk := String → Except DiskFault (Array UInt8)

/-- The content of a file as text. -/
def Disk.readText (disk : Disk) (path : String) : Except DiskFault String :=
  match disk path with
  | .error fault => .error fault
  | .ok bytes =>
    match String.fromUTF8? ⟨bytes⟩ with
    | some text => .ok text
    | none => .error .notText

/-- The path of `name` in `folder`.  A separator is added unless the folder already ends in one or
has no name. -/
def joinPath (folder name : String) : String :=
  if folder.isEmpty || folder.endsWith "/" then folder ++ name else folder ++ "/" ++ name

end Overland
