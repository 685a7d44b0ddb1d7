import Mathlib.Data.List.Basic
import Overland.Tile.Grid

/-!
# Names of files

The files of all maps may lie side by side in one folder, so a name has to tell everything about its
file: the map, the tile, and what the file holds.  It is made of digits, a point and an extension.

* The digits hold no point, so a name comes apart at its point, and the extension tells what the
  file holds (`MapFile.name_parts`).
* The digits are the number of the map, at least three of them, and the coordinates, two digits
  each, with nothing between them.  The number of a map has up to ten digits, so they cannot be read
  from the front, but they can from the back (`tileDigits_injective`).

Together a name belongs to one file only (`MapFile.name_inj`, `fileNames_identify`).
-/

namespace Overland

/-! ## Digits -/

theorem padded_injective {width n n' : Nat} (h : Text.padded width n = Text.padded width n') :
    n = n' := by
  rw [← Text.readDigits_padded width n, h, Text.readDigits_padded]

theorem length_padded_two (i : Fin 64) : (Text.padded 2 i).length = 2 := by
  revert i
  decide

theorem point_notMem_padded (width n : Nat) : '.' ∉ Text.padded width n := by
  intro hmem
  rcases List.mem_append.1 hmem with hzero | hdigit
  · exact absurd (List.eq_of_mem_replicate hzero) (by decide)
  · have hpoint := Nat.isDigit_of_mem_toDigits (by decide) (by decide) hdigit
    exact absurd hpoint (by decide)

theorem point_notMem_tileDigits (map x y : Nat) : '.' ∉ tileDigits map x y := by
  intro hmem
  rcases List.mem_append.1 hmem with hmapx | hy
  · rcases List.mem_append.1 hmapx with hmap | hx
    · exact point_notMem_padded 3 map hmap
    · exact point_notMem_padded 2 x hx
  · exact point_notMem_padded 2 y hy

/-- The digits of a tile's files say which tile it is. -/
theorem tileDigits_injective {map map' : Nat} {x y x' y' : Fin 64}
    (h : tileDigits map x y = tileDigits map' x' y') : map = map' ∧ x = x' ∧ y = y' := by
  unfold tileDigits at h
  -- the coordinates have a fixed width, so the digits come apart from the back
  obtain ⟨hmapx, hy⟩ := List.append_inj' h (by rw [length_padded_two, length_padded_two])
  obtain ⟨hmap, hx⟩ := List.append_inj' hmapx (by rw [length_padded_two, length_padded_two])
  exact ⟨padded_injective hmap, Fin.ext (padded_injective hx), Fin.ext (padded_injective hy)⟩

theorem TileKey.eq_of_tileDigits {key key' : TileKey}
    (h : tileDigits key.map.toNat key.x key.y = tileDigits key'.map.toNat key'.x key'.y) :
    key = key' := by
  obtain ⟨hmap, hx, hy⟩ := tileDigits_injective h
  obtain ⟨map, x, y⟩ := key
  obtain ⟨map', x', y'⟩ := key'
  simp only [TileKey.mk.injEq]
  exact ⟨UInt32.toNat.inj hmap, hx, hy⟩

/-! ## Whole names -/

/-- A file of a map. -/
inductive MapFile where
  /-- A terrain tile. -/
  | tile (key : TileKey)
  /-- The header of the map's navigation mesh. -/
  | mesh (map : UInt32)
  /-- The part of the mesh that covers a tile. -/
  | meshTile (key : TileKey)

namespace MapFile

/-- The name of a file. -/
def name : MapFile → String
  | tile key => key.fileName
  | mesh map => meshFileName map.toNat
  | meshTile key => meshTileFileName key.map.toNat key.x key.y

/-- What stands before the point of a name. -/
def digits : MapFile → List Char
  | tile key => tileDigits key.map.toNat key.x key.y
  | mesh map => Text.padded 3 map.toNat
  | meshTile key => tileDigits key.map.toNat key.x key.y

/-- What stands behind the point of a name. -/
def extension : MapFile → String
  | tile _ => "map"
  | mesh _ => "mmap"
  | meshTile _ => "mmtile"

theorem toList_name (file : MapFile) :
    file.name.toList = file.digits ++ '.' :: file.extension.toList := by
  cases file with
  | tile key => simp [name, TileKey.fileName, tileFileName, digits, extension]
  | mesh map => simp [name, meshFileName, digits, extension]
  | meshTile key => simp [name, meshTileFileName, digits, extension]

theorem point_notMem_digits (file : MapFile) : '.' ∉ file.digits := by
  cases file with
  | tile key => exact point_notMem_tileDigits _ _ _
  | mesh map => exact point_notMem_padded _ _
  | meshTile key => exact point_notMem_tileDigits _ _ _

theorem point_notMem_extension (file : MapFile) : '.' ∉ file.extension.toList := by
  cases file <;> simp [extension]

/-- A name comes apart at its only point. -/
theorem name_parts {file file' : MapFile} (h : file.name = file'.name) :
    file.digits = file'.digits ∧ file.extension = file'.extension := by
  have hchars : file.digits ++ '.' :: file.extension.toList
      = file'.digits ++ '.' :: file'.extension.toList := by
    rw [← toList_name, h, toList_name]
  obtain ⟨hdigits, -, hextension⟩ := (List.append_cons_inj_of_notMem
    file.point_notMem_digits file.point_notMem_extension).1 hchars
  exact ⟨hdigits, String.toList_injective hextension⟩

/-- Different files, of whatever maps, have different names. -/
theorem name_injective {file file' : MapFile} (h : file.name = file'.name) : file = file' := by
  obtain ⟨hdigits, hextension⟩ := name_parts h
  -- files of one kind differ in the digits, files of two kinds in the extension
  cases file with
  | tile key =>
    cases file' with
    | tile key' => rw [TileKey.eq_of_tileDigits hdigits]
    | mesh _ | meshTile _ => simp [extension] at hextension
  | mesh map =>
    cases file' with
    | mesh map' => rw [UInt32.toNat.inj (padded_injective hdigits)]
    | tile _ | meshTile _ => simp [extension] at hextension
  | meshTile key =>
    cases file' with
    | meshTile key' => rw [TileKey.eq_of_tileDigits hdigits]
    | tile _ | mesh _ => simp [extension] at hextension

theorem name_inj (file file' : MapFile) : file.name = file'.name ↔ file = file' :=
  ⟨name_injective, congrArg name⟩

end MapFile

/-- **The name of a file says which file it is.**  Two terrain tiles have the same name only if they
are the same tile of the same map, and so have two mesh tiles; two meshes have the same name only if
they are those of the same map; and files of two kinds never have the same name. -/
theorem fileNames_identify (map map' : UInt32) (x y x' y' : Fin 64) :
    (tileFileName map.toNat x y = tileFileName map'.toNat x' y' ↔
      (map, x, y) = (map', x', y')) ∧
    (meshTileFileName map.toNat x y = meshTileFileName map'.toNat x' y' ↔
      (map, x, y) = (map', x', y')) ∧
    (meshFileName map.toNat = meshFileName map'.toNat ↔ map = map') ∧
    tileFileName map.toNat x y ≠ meshFileName map'.toNat ∧
    tileFileName map.toNat x y ≠ meshTileFileName map'.toNat x' y' ∧
    meshFileName map.toNat ≠ meshTileFileName map'.toNat x' y' := by
  have htile := MapFile.name_inj (.tile ⟨map, x, y⟩) (.tile ⟨map', x', y'⟩)
  have hmeshTile := MapFile.name_inj (.meshTile ⟨map, x, y⟩) (.meshTile ⟨map', x', y'⟩)
  have hmesh := MapFile.name_inj (.mesh map) (.mesh map')
  have hne : ∀ file file' : MapFile, file ≠ file' → file.name ≠ file'.name := fun file file' =>
    mt MapFile.name_injective
  refine ⟨?_, ?_, ?_, ?_, ?_, ?_⟩
  · simpa [MapFile.name, TileKey.fileName] using htile
  · simpa [MapFile.name] using hmeshTile
  · simpa [MapFile.name] using hmesh
  · exact hne (.tile ⟨map, x, y⟩) (.mesh map') nofun
  · exact hne (.tile ⟨map, x, y⟩) (.meshTile ⟨map', x', y'⟩) nofun
  · exact hne (.mesh map) (.meshTile ⟨map', x', y'⟩) nofun

-- Off the grid it is different: a coordinate of three digits runs into the digits before it.
example : tileFileName 100 10 100 = tileFileName 1001 1 0 := by decide

end Overland
