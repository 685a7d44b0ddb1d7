import Std.Data.HashMap
import Overland.Ground
import Overland.Mesh.Library

/-!
# The meshes of all maps

Each map has at most one mesh.  It is created from the map's header file when it is first asked for,
without any tiles, and stays from then on; an attempt that fails leaves no trace, so the next one
reads the file again.

A `Navigation` is the fixed part of all this: the ground to walk on, the folder of meshes, if there
is one, the mesh library, and the arithmetic that tiles are counted in.  `Navigation.loadMesh` and
`Navigation.mesh?` are the two ways to ask for a mesh.
-/

namespace Overland

/-! ## Sums of words -/

/-- Why a request comes to a stop instead of to its end. -/
inductive Stop where
  /-- A sum of two words is no word. -/
  | overflow
  deriving DecidableEq, Repr

/-- What is done about a sum of two words that is no word. -/
inductive Arithmetic where
  /-- It is checked for, and is a stop. -/
  | checked
  /-- It wraps around to a word. -/
  | wrapping
  deriving DecidableEq, Repr

namespace Arithmetic

/-- The word for an exact result. -/
def word (arithmetic : Arithmetic) (exact : Int) : Except Stop Int32 :=
  if arithmetic = .checked ∧ (Int32.ofInt exact).toInt ≠ exact then .error .overflow
  else .ok (Int32.ofInt exact)

/-- The sum of two words. -/
def add (arithmetic : Arithmetic) (a b : Int32) : Except Stop Int32 :=
  arithmetic.word (a.toInt + b.toInt)

/-- The difference of two words. -/
def sub (arithmetic : Arithmetic) (a b : Int32) : Except Stop Int32 :=
  arithmetic.word (a.toInt - b.toInt)

end Arithmetic

/-! ## Meshes -/

/-- What answers questions about ways: the ground, a folder of meshes, the mesh library and the
arithmetic that tiles are counted in. -/
structure Navigation (σ τ μ : Type) where
  ground : Ground σ
  meshFolder : Option String
  library : MeshLibrary τ μ
  arithmetic : Arithmetic

/-- What is remembered: what the ground remembers, the mesh of each map that has one, and the state
of the mesh library. -/
structure NavigationState (σ τ μ : Type) where
  ground : GroundState σ
  meshes : Std.HashMap UInt32 μ
  library : τ

/-- A question that may load tiles and meshes. -/
abbrev NavigationM (σ τ μ α : Type) := StateM (NavigationState σ τ μ) α

namespace Navigation

variable {σ τ μ : Type}

/-- Maps with numbers below this one have a place for a mesh. -/
def mapLimit : UInt32 := 725

/-- A question to the ground alone. -/
def askGround {α : Type} (question : GroundM σ α) : NavigationM σ τ μ α :=
  fun ⟨ground, meshes, library⟩ =>
    let (answer, ground) := question ground
    (answer, ⟨ground, meshes, library⟩)

/-- A question to the mesh library alone. -/
def askLibrary {α : Type} (question : StateM τ α) : NavigationM σ τ μ α :=
  fun ⟨ground, meshes, library⟩ =>
    let (answer, library) := question library
    (answer, ⟨ground, meshes, library⟩)

/-- Remembers the mesh of a map. -/
def putMesh (map : UInt32) (mesh : μ) : NavigationM σ τ μ Unit := fun ⟨ground, meshes, library⟩ =>
  ((), ⟨ground, meshes.insert map mesh, library⟩)

/-- The header in the content of a file; the path is for the error only. -/
def headerOf (path : String) (bytes : Bytes) : Except MeshError MeshHeader :=
  match MeshHeader.read (Buffer.ofBytes bytes) with
  | .ok (header, _) => .ok header
  | .error _ => .error (.headerTooShort path bytes.size MeshHeader.byteCount)

/-- The header in a map's file. -/
def loadHeader (disk : Disk) (folder : String) (map : UInt32) : Except MeshError MeshHeader :=
  let path := joinPath folder (meshFileName map.toNat)
  match disk path with
  | .error fault => .error (.unreadable path (.disk fault))
  | .ok bytes => headerOf path bytes

/-- A new mesh for a map. -/
def createMesh (n : Navigation σ τ μ) (disk : Disk) (folder : String) (map : UInt32) :
    NavigationM σ τ μ (Except MeshError μ) := do
  match loadHeader disk folder map with
  | .error e => return .error e
  | .ok header =>
    match ← askLibrary (n.library.create header) with
    | .error status => return .error (.rejected "navmesh params" status)
    | .ok mesh =>
      putMesh map mesh
      return .ok mesh

/-- The mesh of a map, if it has been loaded. -/
def mesh? (map : UInt32) : NavigationM σ τ μ (Option μ) := fun s =>
  (if map < mapLimit then s.meshes[map]? else none, s)

/-- The mesh of a map, created if there is none so far. -/
def loadMesh (n : Navigation σ τ μ) (disk : Disk) (map : UInt32) :
    NavigationM σ τ μ (Except MeshError μ) := do
  match n.meshFolder with
  | none => return .error .unconfigured
  | some folder =>
    if map < mapLimit then
      match ← mesh? map with
      | some mesh => return .ok mesh
      | none => n.createMesh disk folder map
    else return .error (.mapOutOfRange map)

end Navigation

end Overland
