import Overland.Proofs.Tile.FileNames
import Overland.TileCache

/-!
# What a tile key stands for

A key stands for a pair of grid coordinates and for a file, and both give the key back.

* `onGrid?_eq_some_iff`, `TileKey.of?_coordinates` — the coordinates that lie on the map are those
  of the keys.
* `TileCache.path_injective` — different tiles have different files, since a name of a file says
  which file it is (`MapFile.name_injective`).
-/

namespace Overland

/-! ## Grid coordinates -/

theorem toInt_ofNat_fin (i : Fin 64) : (Int32.ofNat i).toInt = i :=
  Int32.toInt_ofNat_of_lt (by omega)

theorem onGrid?_eq_some_iff {index : Int32} {i : Fin 64} :
    onGrid? index = some i ↔ index = Int32.ofNat i := by
  unfold onGrid?
  constructor
  · intro h
    split at h
    · rename_i hrange
      cases h
      apply Int32.toInt.inj
      rw [toInt_ofNat_fin]
      exact (Int.toNat_of_nonneg hrange.1).symm
    · cases h
  · rintro rfl
    have := toInt_ofNat_fin i
    rw [dif_pos (by omega)]
    simp [this]

/-- A key is the one at its own grid coordinates. -/
theorem TileKey.of?_coordinates (key : TileKey) :
    TileKey.of? key.map (Int32.ofNat key.x) (Int32.ofNat key.y) = some key := by
  rw [TileKey.of?, onGrid?_eq_some_iff.2 rfl, onGrid?_eq_some_iff.2 rfl]

/-! ## Files -/

theorem joinPath_injective {folder name name' : String}
    (h : joinPath folder name = joinPath folder name') : name = name' := by
  unfold joinPath at h
  split at h
  · exact String.append_right_inj _ |>.1 h
  · rw [String.append_assoc, String.append_assoc] at h
    exact String.append_right_inj _ |>.1 (String.append_right_inj _ |>.1 h)

/-- Different tiles, also those of different maps, have different files. -/
theorem TileCache.path_injective {folder : String} {key key' : TileKey}
    (h : path folder key = path folder key') : key = key' := by
  have hname : (MapFile.tile key).name = (MapFile.tile key').name := joinPath_injective h
  exact MapFile.tile.inj (MapFile.name_injective hname)

end Overland
