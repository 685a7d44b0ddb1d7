import Overland.Settings.Basic

/-!
# Where the data lies

Three kinds of data are read from folders: terrain tiles, collision geometry and navigation meshes.
Each kind has a key of its own for its folder, and a subfolder of the common data folder otherwise.
A blank value counts as none, so it falls through to the common folder.

`DataFolders.of` resolves the three independently of each other.
-/

namespace Overland

/-- The kinds of data that have a folder. -/
inductive DataKind where
  | tiles
  | collision
  | meshes
  deriving DecidableEq, Repr

/-- The key of a kind's own folder. -/
def DataKind.key : DataKind → String
  | .tiles => "MapsDir"
  | .collision => "VMapsDir"
  | .meshes => "MMapsDir"

/-- The name of a kind's folder inside the common one. -/
def DataKind.subfolder : DataKind → String
  | .tiles => "maps"
  | .collision => "vmaps"
  | .meshes => "mmaps"

/-- The key of the common data folder. -/
def commonFolderKey : String := "DataDir"

namespace Settings

/-- A value without blank characters around it, if anything is left. -/
def nonBlank? (value : String) : Option String :=
  match Text.trim value.toList with
  | [] => none
  | trimmed => some (String.ofList trimmed)

/-- The folder of a kind of data. -/
def folder? (environment : Environment) (s : Settings) (kind : DataKind) : Option String :=
  nonBlank? (s.look environment kind.key) <|>
    (nonBlank? (s.look environment commonFolderKey)).map fun common =>
      joinPath common kind.subfolder

end Settings

/-- The folder of each kind of data; a kind without one is not configured. -/
structure DataFolders where
  tiles : Option String
  collision : Option String
  meshes : Option String
  deriving DecidableEq, Repr

namespace DataFolders

/-- The folders that settings name. -/
def of (environment : Environment) (s : Settings) : DataFolders where
  tiles := s.folder? environment .tiles
  collision := s.folder? environment .collision
  meshes := s.folder? environment .meshes

/-- The folders that a settings file names; that of tiles or that of meshes must be among them. -/
def load (disk : Disk) (environment : Environment) (source mark : String) :
    Except Settings.Failure DataFolders := do
  let (answer, settings) := Settings.empty.load disk source mark
  answer
  let folders := of environment settings
  if folders.tiles.isNone && folders.meshes.isNone then .error (.noFolder source)
  else .ok folders

end DataFolders

end Overland
