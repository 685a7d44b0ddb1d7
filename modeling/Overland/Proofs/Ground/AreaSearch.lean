import Overland.Proofs.Ground.Isolation
import Overland.Proofs.Ground.Transparency
import Overland.Proofs.Tile.Centre
import Overland.Proofs.Tile.Integrity

/-!
# The search for an area

The search for an area goes through the tiles of a map, row by row, and through the cells of each
tile.  It finds the area if any tile has a cell with it, and then in the first such cell of the
first such tile; and the place that it answers, the centre of the cell as a world coordinate, is in
that tile and that cell again, so the area there is the one that was looked for
(`findArea_first`).  A tile that cannot be had, or that does not tell its cells apart, is passed
over like one that has only other areas.

* `TileKey.Before` is the order of the search, `HasArea` and `FirstCell` say what is looked for.
* `AreaLayer.find?_place` — where the centre of a cell lies.
* `centreOf_eq_some` — the search over fixed tiles, and `place_findArea` — over the files.
-/

namespace Overland

/-! ## Inside a tile -/

/-- The first cell with an area. -/
structure FirstCell (cells : Array UInt16) (area : UInt16) (index : Nat) : Prop where
  found : cells[index]? = some area
  first : ∀ earlier < index, cells[earlier]? ≠ some area

namespace AreaLayer

variable {a : AreaLayer} {area : UInt16}

theorem firstCell?_eq_some {index : Nat} (h : a.firstCell? area = some index) :
    ∃ cells, a.cells = some cells ∧ FirstCell cells area index := by
  obtain ⟨cells, hcells, hindex⟩ := Option.bind_eq_some_iff.1 h
  obtain ⟨hlt, hfound, hfirst⟩ := Array.findIdx?_eq_some_iff_getElem.1 hindex
  refine ⟨cells, hcells, ⟨?_, fun earlier hearlier => ?_⟩⟩
  · rw [Array.getElem?_eq_getElem hlt]
    exact congrArg some (of_decide_eq_true hfound)
  · rw [Array.getElem?_eq_getElem (Nat.lt_trans hearlier hlt)]
    intro heq
    exact hfirst earlier hearlier (decide_eq_true (Option.some.inj heq))

/-- A cell with the area is found if there is one. -/
theorem isSome_firstCell? :
    (a.firstCell? area).isSome ↔ ∃ cells, a.cells = some cells ∧ area ∈ cells := by
  unfold firstCell?
  cases a.cells with
  | none => simp
  | some cells => simp [Array.mem_iff_getElem]

/-- Cells of the whole map are counted without overflow. -/
theorem toNat_mapCell {cell : Nat} (hcell : cell < 16) (grid : Fin 64) :
    (UInt32.ofNat cell + UInt32.ofNat grid * 16).toNat = grid * 16 + cell := by
  simp only [UInt32.toNat_ofNat', UInt32.toNat_add, UInt32.toNat_mul, UInt32.reduceToNat]
  omega

/-- Along an axis the centre of a cell lies in the tile and in the cell. -/
theorem mapCell_place {cell : Nat} (hcell : cell < 16) (grid : Fin 64) :
    (gridIndex (cellCentre (UInt32.ofNat cell + UInt32.ofNat grid * 16))).toInt = grid ∧
      coarseCell (cellCentre (UInt32.ofNat cell + UInt32.ofNat grid * 16)) = cell := by
  have hword := toNat_mapCell hcell grid
  rw [gridIndex_cellCentre (by omega), coarseCell_cellCentre (by omega), hword]
  omega

/-- **Where the place that a tile offers lies:** in the tile, and in the first cell with the
area. -/
theorem find?_place (hsize : ∀ cells, a.cells = some cells → cells.size = 256)
    {gridX gridY : Fin 64} {x y : Single}
    (h : a.find? area (UInt32.ofNat gridX) (UInt32.ofNat gridY) = some (x, y)) :
    ∃ cells index, a.cells = some cells ∧ FirstCell cells area index ∧
      (gridIndex x).toInt = gridX ∧ (gridIndex y).toInt = gridY ∧ areaCell x y = index := by
  obtain ⟨index, hindex, hcentre⟩ := Option.map_eq_some_iff.1 h
  obtain ⟨rfl, rfl⟩ := Prod.mk.inj hcentre
  obtain ⟨cells, hcells, hfirst⟩ := firstCell?_eq_some hindex
  have hlt : index < 256 := by
    rw [← hsize cells hcells]
    exact (Array.getElem?_eq_some_iff.1 hfirst.found).1
  have hrowLt : index / coarseCells < 16 := Nat.div_lt_of_lt_mul hlt
  have hcolumnLt : index % coarseCells < 16 := Nat.mod_lt _ (by decide)
  obtain ⟨hx, hrow⟩ := mapCell_place hrowLt gridX
  obtain ⟨hy, hcolumn⟩ := mapCell_place hcolumnLt gridY
  refine ⟨cells, index, hcells, hfirst, hx, hy, ?_⟩
  rw [areaCell, hrow, hcolumn, Nat.mul_comm, Nat.div_add_mod]

end AreaLayer

/-- Over a cell the area of a tile is that of the cell. -/
theorem FirstCell.areaAt_eq {tile : Tile} {cells : Array UInt16} {area : UInt16} {index : Nat}
    {x y : Single} (h : FirstCell cells area index) (hcells : tile.area.cells = some cells)
    (hcell : areaCell x y = index) : tile.areaAt x y = area := by
  rw [Tile.areaAt, AreaLayer.at, hcells, hcell]
  simp only [Array.getD_eq_getD_getElem?, h.found, Option.getD_some]

/-! ## From tile to tile -/

/-- There is a tile, and a cell of it has the area. -/
def HasArea (answer : Except TileError Tile) (area : UInt16) : Prop :=
  ∃ tile cells, answer = .ok tile ∧ tile.area.cells = some cells ∧ area ∈ cells

namespace TileKey

/-- One tile comes before another in the order of rows. -/
def Before (key other : TileKey) : Prop := key.x < other.x ∨ key.x = other.x ∧ key.y < other.y

theorem Before.asymm {key other : TileKey} (h : key.Before other) : ¬ other.Before key := by
  unfold Before at *
  omega

/-- A place in a tile leads to that tile. -/
theorem of?_gridIndex {key : TileKey} {x y : Single} (hx : (gridIndex x).toInt = key.x)
    (hy : (gridIndex y).toInt = key.y) : of? key.map (gridIndex x) (gridIndex y) = some key := by
  rw [Int32.toInt.inj (hx.trans (toInt_ofNat_fin key.x).symm),
    Int32.toInt.inj (hy.trans (toInt_ofNat_fin key.y).symm)]
  exact key.of?_coordinates

theorem mem_all {map : UInt32} {key : TileKey} : key ∈ all map ↔ key.map = map := by
  obtain ⟨map', x, y⟩ := key
  simp only [all, List.mem_flatMap, List.mem_map, List.mem_finRange, true_and, TileKey.mk.injEq]
  constructor
  · rintro ⟨_, _, rfl, -, -⟩
    rfl
  · rintro rfl
    exact ⟨x, y, rfl, rfl, rfl⟩

/-- The tiles of a map are listed in the order of rows. -/
theorem pairwise_all (map : UInt32) : (all map).Pairwise Before := by
  refine List.pairwise_flatMap.2 ⟨fun x _ => ?_, ?_⟩
  · exact List.pairwise_map.2 ((List.pairwise_lt_finRange 64).imp fun h => .inr ⟨rfl, h⟩)
  · refine (List.pairwise_lt_finRange 64).imp fun {x x'} h => ?_
    rintro key hkey other hother
    obtain ⟨_, -, rfl⟩ := List.mem_map.1 hkey
    obtain ⟨_, -, rfl⟩ := List.mem_map.1 hother
    exact .inl h

end TileKey

namespace Ground

variable {σ : Type}

section Tiles

variable {tiles : TileKey → Except TileError Tile} {map : UInt32} {area : UInt16}

/-- The centre that a tile offers, if it can be had. -/
def centreIn (tiles : TileKey → Except TileError Tile) (area : UInt16) (key : TileKey) :
    Option (Single × Single) :=
  match tiles key with
  | .ok tile => tile.area.find? area (UInt32.ofNat key.x) (UInt32.ofNat key.y)
  | .error _ => none

theorem centreOf_eq : centreOf tiles map area = (TileKey.all map).findSome? (centreIn tiles area) :=
  rfl

/-- A tile offers a centre if it has the area. -/
theorem isSome_centreIn (key : TileKey) :
    (centreIn tiles area key).isSome ↔ HasArea (tiles key) area := by
  unfold centreIn HasArea
  cases tiles key with
  | error e => simp
  | ok tile =>
    simp only [AreaLayer.find?, Option.isSome_map, AreaLayer.isSome_firstCell?]
    simp

/-- The search finds an area if a tile has it. -/
theorem isSome_centreOf :
    (centreOf tiles map area).isSome ↔ ∃ key, key.map = map ∧ HasArea (tiles key) area := by
  simp only [centreOf_eq, List.findSome?_isSome_iff, TileKey.mem_all, isSome_centreIn]

/-- **What the search finds** is a centre in the first tile that has the area. -/
theorem centreOf_eq_some {centre : Single × Single} (h : centreOf tiles map area = some centre) :
    ∃ key tile, key.map = map ∧ tiles key = .ok tile ∧
      tile.area.find? area (UInt32.ofNat key.x) (UInt32.ofNat key.y) = some centre ∧
      ∀ earlier, earlier.map = map → earlier.Before key → ¬ HasArea (tiles earlier) area := by
  rw [centreOf_eq] at h
  obtain ⟨before, key, after, hall, hfound, hnone⟩ := List.findSome?_eq_some_iff.1 h
  have hkey : key ∈ TileKey.all map := hall ▸ List.mem_append_right _ List.mem_cons_self
  have hsorted : (before ++ key :: after).Pairwise TileKey.Before := hall ▸ TileKey.pairwise_all map
  -- what comes before the tile in the order of rows was looked at before it
  have hbefore : ∀ earlier, earlier.map = map → earlier.Before key → earlier ∈ before := by
    intro earlier hmap hlt
    have hmem : earlier ∈ before ++ key :: after := hall ▸ TileKey.mem_all.2 hmap
    rcases List.mem_append.1 hmem with hmem | hmem
    · exact hmem
    · rcases List.mem_cons.1 hmem with rfl | hmem
      · exact absurd hlt hlt.asymm
      · have hrest := (List.pairwise_append.1 hsorted).2.1
        exact absurd hlt (List.rel_of_pairwise_cons hrest hmem).asymm
  have hskipped : ∀ earlier, earlier.map = map → earlier.Before key →
      ¬ HasArea (tiles earlier) area := by
    intro earlier hmap hlt harea
    have hsome := (isSome_centreIn earlier).2 harea
    rw [hnone earlier (hbefore earlier hmap hlt)] at hsome
    cases hsome
  rw [centreIn] at hfound
  cases htile : tiles key with
  | error e =>
    rw [htile] at hfound
    cases hfound
  | ok tile =>
    rw [htile] at hfound
    exact ⟨key, tile, TileKey.mem_all.1 hkey, htile, hfound, hskipped⟩

end Tiles

/-! ## Over the files -/

section Files

variable (g : Ground σ) (disk : Disk) (map : UInt32) (area : UInt16) (s : GroundState σ)

theorem findAreaIn_answer (keys : List TileKey) :
    (g.findAreaIn disk area keys s).1 = keys.findSome? (centreIn (g.look disk s) area) := by
  induction keys generalizing s with
  | nil => rfl
  | cons key rest ih =>
    have hanswer := g.tile_answer disk key s
    have hlook := g.look_tile disk key s
    rcases htile : g.tile disk key s with ⟨answer, s'⟩
    rw [htile] at hanswer hlook
    have hrest := ih s'
    rw [hlook] at hrest
    simp only [findAreaIn, bind, StateT.bind, htile, List.findSome?_cons, centreIn, ← hanswer]
    cases answer with
    | error e => exact hrest
    | ok tile =>
      dsimp only
      cases tile.area.find? area (UInt32.ofNat key.x) (UInt32.ofNat key.y) with
      | some centre => rfl
      | none => exact hrest

/-- The place that is found is the centre that the tiles lead to, whatever height there is. -/
theorem place_findArea :
    ((g.findArea disk map area s).1.map fun p => (p.x, p.y))
      = centreOf (g.look disk s) map area := by
  have hcentre := g.findAreaIn_answer disk area s (TileKey.all map)
  rw [← centreOf_eq] at hcentre
  rcases hfound : g.findAreaIn disk area (TileKey.all map) s with ⟨found, s'⟩
  rw [hfound] at hcentre
  rw [← hcentre]
  simp only [findArea, bind, StateT.bind, hfound]
  cases found <;> rfl

/-- The search changes nothing about what visits answer. -/
theorem look_findArea : g.look disk (g.findArea disk map area s).2 = g.look disk s := by
  have hrun := g.run_inquiry disk (.findArea map area)
  rw [Call.ask] at hrun
  rw [← hrun]
  exact g.look_run disk _ s

variable {g disk map s}

/-- The area at a point is read from the tile over it. -/
theorem area?_of_look {x y : Single} {key : TileKey} {tile : Tile}
    (hkey : TileKey.of? map (gridIndex x) (gridIndex y) = some key)
    (htile : g.look disk s key = .ok tile) :
    (g.area? disk map x y s).1 = some (tile.areaAt x y) := by
  have hanswer := (g.tile_answer disk key s).trans htile
  rcases hvisit : g.tile disk key s with ⟨answer, s'⟩
  rw [hvisit] at hanswer
  simp only at hanswer
  simp only [area?, tileOver, tileAt, hkey, bind, StateT.bind, hvisit, hanswer]
  rfl

end Files

/-- A tile that is read from its file has rows of the right lengths. -/
theorem wellFormed_of_decoded {folder : Option String} {disk : Disk} {key : TileKey} {tile : Tile}
    (h : decoded folder disk key = .ok tile) : tile.WellFormed := by
  unfold decoded at h
  cases folder with
  | none =>
    cases h
    exact Tile.blank_wellFormed
  | some folder =>
    dsimp only at h
    split at h
    · rename_i bytes hread
      cases hdecode : Tile.decode bytes with
      | ok found =>
        rw [hdecode] at h
        cases h
        rw [(Tile.holds_of_decode hdecode).2]
        exact Tile.stored_wellFormed bytes
      | error fault =>
        rw [hdecode] at h
        cases h
    · cases h
      exact Tile.blank_wellFormed
    · cases h

/-- **The search for an area is complete, and what it finds is first and true.**

Let files stay the same over a history of questions.  Then a search for an area finds a place if and
only if some tile of the map can be read from its file and has a cell with the area.  The place lies
in the first such tile, row by row, and in the first such cell of it; and when the area at the place
is asked for, at any later time, it is the one that was looked for.  All other tiles, also those
whose files cannot be read, are no tiles, or do not tell cells apart, make no difference. -/
theorem findArea_first {g : Ground σ} {disk : Disk} {history : List Moment}
    (hdisk : ∀ m ∈ history, m.disk = disk) (start : σ) (map : UInt32) (area : UInt16) :
    let found := g.findArea disk map area (g.reached history ⟨.empty, start⟩)
    (found.1.isSome ↔ ∃ key, key.map = map ∧ HasArea (decoded g.tileFolder disk key) area) ∧
    ∀ p, found.1 = some p → ∃ key tile cells index,
      -- the first tile
      key.map = map ∧ decoded g.tileFolder disk key = .ok tile ∧ tile.area.cells = some cells ∧
      (∀ earlier, earlier.map = map → earlier.Before key →
        ¬ HasArea (decoded g.tileFolder disk earlier) area) ∧
      -- the first cell
      FirstCell cells area index ∧
      -- the place
      (gridIndex p.x).toInt = key.x ∧ (gridIndex p.y).toInt = key.y ∧ areaCell p.x p.y = index ∧
      ∀ later, (∀ m ∈ later, m.disk = disk) →
        (g.area? disk map p.x p.y (g.reached later found.2)).1 = some area := by
  intro found
  have hlook : g.look disk (g.reached history ⟨.empty, start⟩) = decoded g.tileFolder disk :=
    (look_reached hdisk _).trans (g.look_start disk start)
  have hplace := g.place_findArea disk map area (g.reached history ⟨.empty, start⟩)
  rw [hlook] at hplace
  constructor
  · rw [← isSome_centreOf, ← hplace, Option.isSome_map]
  · intro p hp
    have hcentre : centreOf (decoded g.tileFolder disk) map area = some (p.x, p.y) := by
      rw [← hplace]
      exact congrArg (Option.map _) hp
    obtain ⟨key, tile, hmap, htile, hoffered, hskipped⟩ := centreOf_eq_some hcentre
    obtain ⟨cells, index, hcells, hfirst, hx, hy, hcell⟩ :=
      AreaLayer.find?_place (wellFormed_of_decoded htile).area hoffered
    refine ⟨key, tile, cells, index, hmap, htile, hcells, hskipped, hfirst, hx, hy, hcell, ?_⟩
    intro later hlater
    have htile' : g.look disk (g.reached later found.2) key = .ok tile := by
      rw [look_reached hlater, look_findArea, hlook, htile]
    rw [area?_of_look (hmap ▸ TileKey.of?_gridIndex hx hy) htile',
      hfirst.areaAt_eq hcells hcell]

section Lakeside

variable {key other : TileKey}

/-- A disk with the tile by the lake for one tile, and empty files for all others. -/
def lakesideFiles (key : TileKey) : Disk :=
  emptyFiles.put (TileCache.path "maps" key) (.ok TilePlan.lakeside.encode)

theorem decoded_lakesideFiles :
    decoded (some "maps") (lakesideFiles key) key = .ok TilePlan.lakeside.tile := by
  have hvalid := TilePlan.lakeside_valid
  have hdecode := (TilePlan.laidOut_encode hvalid).decode_eq hvalid
  have hread : lakesideFiles key (TileCache.path "maps" key) = .ok TilePlan.lakeside.encode :=
    if_pos rfl
  simp only [decoded, hread, hdecode]
  rfl

theorem eq_of_decoded_lakesideFiles {tile : Tile}
    (h : decoded (some "maps") (lakesideFiles key) other = .ok tile) : other = key := by
  by_contra hne
  have hread : lakesideFiles key (TileCache.path "maps" other) = .ok #[] :=
    if_neg fun hpath => hne (TileCache.path_injective hpath)
  have hdecode : Tile.decode #[] = .error (.truncated .header (.pastEnd 4 0 0)) := rfl
  simp only [decoded, hread, hdecode] at h
  cases h

end Lakeside

/-- The tile by the lake is found behind two thousand files that are no tiles. -/
theorem findArea_first_lakeside :
    let disk := lakesideFiles ⟨0, 31, 32⟩
    let history : List Moment := [⟨disk, .loadTile 0 0 0⟩]
    let found := levelGround.findArea disk 0 1037 (levelGround.reached history ⟨.empty, 0⟩)
    (∀ m ∈ history, m.disk = disk) ∧
      ∃ p, found.1 = some p ∧ (gridIndex p.x).toInt = 31 ∧ (gridIndex p.y).toInt = 32 ∧
        areaCell p.x p.y = 37 ∧
        (levelGround.area? disk 0 p.x p.y found.2).1 = some 1037 := by
  intro disk history found
  have hdisk : ∀ m ∈ history, m.disk = disk := by simp [history]
  obtain ⟨hsome, hfirst⟩ := findArea_first (g := levelGround) hdisk 0 0 1037
  have harea : HasArea (decoded levelGround.tileFolder disk ⟨0, 31, 32⟩) 1037 :=
    ⟨_, _, decoded_lakesideFiles, rfl, Array.mem_ofFn.2 ⟨37, rfl⟩⟩
  obtain ⟨p, hp⟩ := Option.isSome_iff_exists.1 (hsome.2 ⟨_, rfl, harea⟩)
  obtain ⟨key, tile, cells, index, -, htile, hcells, -, hcell, hx, hy, hindex, hlater⟩ :=
    hfirst p hp
  obtain rfl := eq_of_decoded_lakesideFiles htile
  cases htile.symm.trans decoded_lakesideFiles
  have hindex37 : index = 37 := by
    have hfound := hcell.found
    rw [← Option.some.inj hcells, Array.getElem?_ofFn] at hfound
    split at hfound
    · have hword : (1000 + index) % 65536 = 1037 :=
        congrArg UInt16.toNat (Option.some.inj hfound)
      omega
    · cases hfound
  exact ⟨hdisk, p, hp, hx, hy, hindex.trans hindex37, hlater [] (by simp)⟩

end Ground

end Overland
