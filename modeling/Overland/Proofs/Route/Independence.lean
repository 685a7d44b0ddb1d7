import Overland.Proofs.Mesh.Roster

/-!
# Does a route depend on earlier requests?

Meshes grow with every request, and a route is looked for in what there is of a mesh after a sweep
around each of its ends.  `HistoryFree` says that this makes no difference: whatever was asked
before, the route between two positions is the one that a new state gives.

`historyFree_iff` says for which positions that is true.  The tiles of both ends must be reached by
one of the two sweeps (`Unambiguous`), as they are where the two counts of a sweep agree.  Then the
tiles of the ends are in the mesh exactly if they have files, however the mesh came about
(`findLine_of_backed`); otherwise the mesh can be prepared so that the tile of an end is kept out of
it (`reached_of_historyFree`).  Whether a sweep stops is never a matter of history (`Stops`).

Where four tiles meet, an end is not reached by its own sweep, and the route from it to itself comes
and goes with what was asked before (`not_historyFree_origin`).
-/

namespace Overland.Navigation

variable {σ τ μ : Type}

/-! ## The tile of a position -/

/-- The cell of an extracted mesh that a position lies in. -/
def cellOf (position : MeshPosition) : Int32 × Int32 :=
  (meshIndex position.first, meshIndex position.third)

theorem tileOf_extracted {library : MeshLibrary τ μ} (plain : library.Plain) {mesh : μ}
    (h : (plain.header mesh).IsExtracted) (position : MeshPosition) :
    library.tileOf mesh position = cellOf position := by
  rw [plain.tileOf_eq, h.tileOf_eq, cellOf]

/-- It is the cell in the middle of a sweep. -/
theorem cellAt_zero (position : MeshPosition) :
    (SweepCentre.extracted position).cellAt (0, 0) = cellOf position := by
  simp [SweepCentre.cellAt, SweepCentre.extracted, cellOf]

/-! ## Sweeps that stop -/

/-- A sweep around one of two positions stops, as sums are checked and the position is too far away
for them. -/
def Stops (n : Navigation σ τ μ) (start goal : MeshPosition) : Prop :=
  n.arithmetic = .checked ∧ (¬ InnerCentre (.extracted start) ∨ ¬ InnerCentre (.extracted goal))

theorem inner_of_onMap {position : MeshPosition} {q : Square} (h : cellOf position = q.meshTile) :
    InnerCentre (.extracted position) := by
  refine Classical.byContradiction fun hinner => ?_
  have hmiddle : ((0, 0) : Int32 × Int32) ∈ neighbourhood := by decide
  have hbeyond := (beyond_of_not_inner hinner hmiddle).2
  rw [cellAt_zero, squareOf_eq_some_iff.2 h] at hbeyond
  cases hbeyond

/-- Between two positions on the map no sweep stops. -/
theorem not_stops_of_onMap {n : Navigation σ τ μ} {start goal : MeshPosition} {q q' : Square}
    (hstart : cellOf start = q.meshTile) (hgoal : cellOf goal = q'.meshTile) :
    ¬ n.Stops start goal :=
  fun h => h.2.elim (absurd (inner_of_onMap hstart)) (absurd (inner_of_onMap hgoal))

/-! ## The line that is found -/

section Line

variable {n : Navigation σ τ μ} {plain : n.library.Plain} {folder : String} {disk : Disk}
  {map : UInt32} {start goal : Position} {mesh : μ}

/-- The line in a mesh: the passage between both ends, if their tiles are there. -/
def lineIn {library : MeshLibrary τ μ} (plain : library.Plain) (mesh : μ)
    (start goal : MeshPosition) : Option (List MeshPosition × Bool) :=
  if plain.Has mesh (cellOf start) ∧ plain.Has mesh (cellOf goal) then plain.passage start goal
  else none

/-- What a sweep of an extracted mesh does if it does not stop, and when it stops. -/
theorem swept_or_stops (hfiles : Extracted plain folder disk)
    (hfolder : n.meshFolder = some folder) (hmap : map < mapLimit) {s : NavigationState σ τ μ}
    (hmesh : s.meshes[map]? = some mesh) (hlaid : Laid plain mesh) (position : MeshPosition) :
    (n.arithmetic = .checked ∧ ¬ InnerCentre (.extracted position) ∧
      ∃ t, n.sweep disk position map map s = (.error .overflow, t)) ∨
    (¬ (n.arithmetic = .checked ∧ ¬ InnerCentre (.extracted position)) ∧
      ∃ count t swept, n.sweep disk position map map s = (.ok count, t) ∧
        t.meshes[map]? = some swept ∧ Laid plain swept ∧
        Swept plain disk folder map (.extracted position) neighbourhood mesh swept) := by
  have hstops := sweep_stops_iff hfiles hfolder (meshIn_eq_some_iff.2 ⟨hmap, hmesh⟩)
    hlaid.extracted hlaid.onMap position map
  obtain ⟨swept, hswept, hmeshes⟩ :=
    swept_sweep hfiles hfolder hmap hmesh hlaid.extracted position map
  rcases hanswer : n.sweep disk position map map s with ⟨_ | count, t⟩ <;>
    rw [hanswer] at hstops hmeshes
  · obtain ⟨hchecked, hinner⟩ := hstops.1 rfl
    exact .inl ⟨hchecked, hinner, t, rfl⟩
  · refine .inr ⟨mt hstops.2 nofun, count, t, swept, rfl, ?_, ?_, hswept⟩
    · rw [hmeshes, Std.HashMap.getElem?_insert_self]
    · exact (lasting_laid hfiles).swept position map map mesh swept trivial hlaid hswept

/-- The line in a mesh that is there is the line in what two sweeps make of it, if they do not
stop. -/
theorem findLine_of_mesh (hfiles : Extracted plain folder disk)
    (hfolder : n.meshFolder = some folder) (hmap : map < mapLimit) (start goal : Position)
    {s t : NavigationState σ τ μ} (hload : n.loadMesh disk map s = (.ok mesh, t))
    (hmesh : t.meshes[map]? = some mesh) (hlaid : Laid plain mesh) :
    (n.Stops start.toMesh goal.toMesh ∧
      (n.findLine disk map start goal s).1 = .error .overflow) ∨
    (¬ n.Stops start.toMesh goal.toMesh ∧ ∃ first second,
      Swept plain disk folder map (.extracted start.toMesh) neighbourhood mesh first ∧
      Swept plain disk folder map (.extracted goal.toMesh) neighbourhood first second ∧
      (n.findLine disk map start goal s).1
        = .ok (lineIn plain second start.toMesh goal.toMesh)) := by
  rcases swept_or_stops hfiles hfolder hmap hmesh hlaid start.toMesh with
    ⟨hchecked, hinner, t', hstart⟩ | ⟨hruns, _, t', first, hstart, hfound, hlaid', hfirst⟩
  · refine .inl ⟨⟨hchecked, .inl hinner⟩, ?_⟩
    rw [findLine_of_stop hload (sweepEnds_of_error hstart goal.toMesh)]
  rcases swept_or_stops hfiles hfolder hmap hfound hlaid' goal.toMesh with
    ⟨hchecked, hinner, t'', hgoal⟩ | ⟨hruns', _, t'', second, hgoal, hfound', hlaid'', hsecond⟩
  · refine .inl ⟨⟨hchecked, .inr hinner⟩, ?_⟩
    have hends := sweepEnds_of_ok hstart goal.toMesh
    rw [hgoal] at hends
    rw [findLine_of_stop hload hends]
  · refine .inr ⟨fun h => h.2.elim (fun hinner => hruns ⟨h.1, hinner⟩)
      (fun hinner => hruns' ⟨h.1, hinner⟩), first, second, hfirst, hsecond, ?_⟩
    have hends := sweepEnds_of_ok hstart goal.toMesh
    rw [hgoal] at hends
    have hline := plain.findCorners_eq second start.toMesh goal.toMesh t''.library
    rw [tileOf_extracted plain hlaid''.extracted, tileOf_extracted plain hlaid''.extracted] at hline
    rw [findLine_of_swept hload hends (meshIn_eq_some_iff.2 ⟨hmap, hfound'⟩)]
    exact congrArg Except.ok hline

/-- A mesh that is there is not created again. -/
theorem loadMesh_of_mesh (plain : n.library.Plain) (hfolder : n.meshFolder = some folder)
    (hmap : map < mapLimit) {s : NavigationState σ τ μ} (hmesh : s.meshes[map]? = some mesh) :
    n.loadMesh disk map s = (.ok mesh, s) := by
  rcases loadMesh_cases plain hfolder disk map s with ⟨hnot, -⟩ | ⟨found, -, hfound, h⟩ |
    ⟨_, -, hnone, -⟩ | ⟨_, _, _, -, hnone, -⟩
  · exact absurd hmap hnot
  · rw [hmesh, Option.some.injEq] at hfound
    rw [h, hfound]
  · rw [hmesh] at hnone; cases hnone
  · rw [hmesh] at hnone; cases hnone

end Line

/-! ## Where the history makes no difference -/

/-- The tile of a square is loaded by a sweep around one of two positions. -/
def ReachedFromEither (start goal : MeshPosition) (q : Square) : Prop :=
  (SweepCentre.extracted start).Reaches q ∨ (SweepCentre.extracted goal).Reaches q

/-- Both ends of a route are reached by the sweeps around them, if they are on the map. -/
def Unambiguous (start goal : Position) : Prop :=
  ∀ q q', squareOf (cellOf start.toMesh) = some q → squareOf (cellOf goal.toMesh) = some q' →
    ReachedFromEither start.toMesh goal.toMesh q ∧ ReachedFromEither start.toMesh goal.toMesh q'

/-- Ends on whose coordinates the two counts of a sweep agree are reached. -/
theorem unambiguous_of_agrees {start goal : Position}
    (hstart : Agrees start.toMesh.first ∧ Agrees start.toMesh.third)
    (hgoal : Agrees goal.toMesh.first ∧ Agrees goal.toMesh.third) : Unambiguous start goal := by
  intro q q' hq hq'
  rw [← cellAt_zero] at hq hq'
  exact ⟨.inl (reaches_of_agrees hstart.1 hstart.2 (by decide) hq),
    .inr (reaches_of_agrees hgoal.1 hgoal.2 (by decide) hq')⟩

/-- The tile of a position has a file. -/
def HasFileAt (disk : Disk) (folder : String) (map : UInt32) (position : MeshPosition) : Prop :=
  ∃ q, squareOf (cellOf position) = some q ∧ HasFile disk folder map q

/-- A map has a header. -/
def HasHeader (disk : Disk) (folder : String) (map : UInt32) : Prop :=
  map < mapLimit ∧ ∃ header, storedHeader disk folder map = .ok header

section Unambiguous

variable {n : Navigation σ τ μ} {plain : n.library.Plain} {folder : String} {disk : Disk}
  {map : UInt32} {start goal : Position}

/-- Where both ends are reached, their tiles are there after the two sweeps exactly if they have
files. -/
theorem has_ends_iff (hfiles : Extracted plain folder disk) (hreach : Unambiguous start goal)
    {mesh first second : μ} (hbacked : Backed plain folder disk map mesh)
    (hfirst : Swept plain disk folder map (.extracted start.toMesh) neighbourhood mesh first)
    (hsecond : Swept plain disk folder map (.extracted goal.toMesh) neighbourhood first second) :
    (plain.Has second (cellOf start.toMesh) ∧ plain.Has second (cellOf goal.toMesh)) ↔
      (HasFileAt disk folder map start.toMesh ∧ HasFileAt disk folder map goal.toMesh) := by
  have hbacked' := (lasting_backed hfiles).swept _ _ _ _ _ rfl hbacked hfirst
  have hbacked'' := (lasting_backed hfiles).swept _ _ _ _ _ rfl hbacked' hsecond
  have hfile : ∀ position, plain.Has second (cellOf position) →
      HasFileAt disk folder map position := by
    intro position hhas
    obtain ⟨q, hcell, hfile⟩ := hbacked''.backed _ hhas
    exact ⟨q, squareOf_eq_some_iff.2 hcell, hfile⟩
  have hhas : ∀ q, ReachedFromEither start.toMesh goal.toMesh q → HasFile disk folder map q →
      plain.Has second q.meshTile := by
    rintro q (hq | hq) hfile
    · exact hsecond.kept _ (has_of_reaches hfirst hbacked'.laid.onMap hq hfile)
    · exact has_of_reaches hsecond hbacked''.laid.onMap hq hfile
  constructor
  · rintro ⟨hstart, hgoal⟩
    exact ⟨hfile _ hstart, hfile _ hgoal⟩
  · rintro ⟨⟨q, hq, hstart⟩, ⟨q', hq', hgoal⟩⟩
    obtain ⟨hreached, hreached'⟩ := hreach q q' hq hq'
    rw [squareOf_eq_some_iff.1 hq, squareOf_eq_some_iff.1 hq']
    exact ⟨hhas q hreached hstart, hhas q' hreached' hgoal⟩

open Classical in
/-- What is answered for a line depends on the files only, if both ends are reached and no mesh has
tiles without files. -/
theorem findLine_of_backed (hfiles : Extracted plain folder disk)
    (hfolder : n.meshFolder = some folder) (hreach : Unambiguous start goal)
    {s : NavigationState σ τ μ} (hbacked : AllMeshes (Backed plain folder disk) s)
    (map : UInt32) :
    (n.findLine disk map start goal s).1
      = if ¬ HasHeader disk folder map then .ok none
        else if n.Stops start.toMesh goal.toMesh then .error .overflow
        else if HasFileAt disk folder map start.toMesh ∧ HasFileAt disk folder map goal.toMesh
        then .ok (plain.passage start.toMesh goal.toMesh)
        else .ok none := by
  -- once there is a mesh, it does not matter whether it was there before
  have hmeshed : ∀ mesh t, map < mapLimit → n.loadMesh disk map s = (.ok mesh, t) →
      t.meshes[map]? = some mesh → Backed plain folder disk map mesh →
      (n.findLine disk map start goal s).1
        = if ¬ HasHeader disk folder map then .ok none
          else if n.Stops start.toMesh goal.toMesh then .error .overflow
          else if HasFileAt disk folder map start.toMesh ∧ HasFileAt disk folder map goal.toMesh
          then .ok (plain.passage start.toMesh goal.toMesh)
          else .ok none := by
    intro mesh t hmap hload hmesh hb
    have hheader : HasHeader disk folder map := ⟨hmap, hb.header⟩
    rw [if_neg (not_not_intro hheader)]
    rcases findLine_of_mesh hfiles hfolder hmap start goal hload hmesh hb.laid with
      ⟨hstops, hline⟩ | ⟨hruns, first, second, hfirst, hsecond, hline⟩
    · rw [if_pos hstops, hline]
    · rw [if_neg hruns, hline, lineIn, apply_ite Except.ok]
      simp only [has_ends_iff hfiles hreach hb hfirst hsecond]
  rcases loadMesh_cases plain hfolder disk map s with ⟨hnot, h⟩ | ⟨mesh, hmap, hmesh, h⟩ |
    ⟨e, -, -, herror, h⟩ | ⟨header, mesh, t, hmap, -, hheader, hcreated, hempty, h⟩
  · rw [findLine_of_error h, if_pos fun hheader => hnot hheader.1]
  · exact hmeshed mesh s hmap h hmesh (hbacked map mesh hmesh)
  · rw [findLine_of_error h, if_pos]
    rintro ⟨-, header, hheader⟩
    rw [herror] at hheader
    cases hheader
  · exact hmeshed mesh _ hmap h (Std.HashMap.getElem?_insert_self)
      ((lasting_backed hfiles).created map header mesh hheader hcreated hempty)

end Unambiguous

/-! ## Histories -/

/-- A sweep goes into the mesh of the map whose files it reads. -/
def Request.Own : Request → Prop
  | .loadMesh _ => True
  | .sweep _ map owner => map = owner
  | .findRoute _ _ _ => True

/-- The route from one position to another is the same after any requests as in a new state. -/
def HistoryFree (start goal : Position) : Prop :=
  ∀ {σ τ μ : Type} (n : Navigation σ τ μ) (plain : n.library.Plain) (folder : String)
    (surface : UInt32 → Position → Single → Single) (disk : Disk) (map : UInt32)
    (requests : List Request) (collision : σ) (library : τ),
    n.meshFolder = some folder → n.ground.collision.Fixed surface → Extracted plain folder disk →
    (∀ request ∈ requests, request.Own) →
    (n.findRoute disk map start goal (n.afterAll disk requests (fresh collision library))).1
      = (n.findRoute disk map start goal (fresh collision library)).1

section History

variable {n : Navigation σ τ μ} {plain : n.library.Plain} {folder : String} {disk : Disk}
  {surface : UInt32 → Position → Single → Single} {requests : List Request}

/-- Requests change nothing about what visits to the tiles of the ground answer. -/
theorem look_afterAll (hfixed : n.ground.collision.Fixed surface) (s : NavigationState σ τ μ) :
    n.look disk (n.afterAll disk requests s) = n.look disk s := by
  refine preserves_after (I := fun t => n.look disk t = n.look disk s) ?_ rfl
  intro moment hmoment
  obtain ⟨request, -, rfl⟩ := List.mem_map.1 hmoment
  refine preserves_make (n.look_loadMesh disk _) (fun _ _ => True) (fun _ => trivial)
    (fun position map owner _ => n.look_sweep disk _ position map owner) (fun _ _ ht => ht) ?_
    fun _ _ _ _ => trivial
  intro map line t ht
  exact (walk_over hfixed disk map line t).2.trans ht

/-- Requests of a map's own files leave no tiles without files. -/
theorem backed_afterAll (hfiles : Extracted plain folder disk)
    (hfolder : n.meshFolder = some folder) (hown : ∀ request ∈ requests, request.Own)
    (collision : σ) (library : τ) :
    AllMeshes (Backed plain folder disk) (n.afterAll disk requests (fresh collision library)) := by
  refine preserves_after ?_ (allMeshes_fresh _ collision library)
  intro moment hmoment
  obtain ⟨request, hrequest, rfl⟩ := List.mem_map.1 hmoment
  refine allMeshes_make (lasting_backed hfiles) hfolder hfiles ?_
  rintro position map owner rfl
  exact hown _ hrequest

end History

/-- Where both ends are reached, the history makes no difference. -/
theorem historyFree_of_unambiguous {start goal : Position} (h : Unambiguous start goal) :
    HistoryFree start goal := by
  intro σ τ μ n plain folder surface disk map requests collision library hfolder hfixed hfiles hown
  have hline := findLine_of_backed hfiles hfolder h
    (backed_afterAll hfiles hfolder hown collision library) map
  have hline' := findLine_of_backed hfiles hfolder h
    (allMeshes_fresh (Backed plain folder disk) collision library) map
  rw [(findRoute_over hfixed disk map start goal _).1,
    (findRoute_over hfixed disk map start goal _).1, look_afterAll hfixed, hline, hline']

/-! ## Where it makes a difference -/

section Ambiguous

variable {n : Navigation σ τ μ} {plain : n.library.Plain} {folder : String} {disk : Disk}
  {map : UInt32} {start goal : Position} {mesh : μ} {s : NavigationState σ τ μ}

/-- If the tiles of both ends are there beforehand, the line is the passage between the ends. -/
theorem findLine_of_has (hfiles : Extracted plain folder disk)
    (hfolder : n.meshFolder = some folder) (hmap : map < mapLimit)
    (hmesh : s.meshes[map]? = some mesh) (hlaid : Laid plain mesh)
    (hruns : ¬ n.Stops start.toMesh goal.toMesh)
    (hstart : plain.Has mesh (cellOf start.toMesh)) (hgoal : plain.Has mesh (cellOf goal.toMesh)) :
    (n.findLine disk map start goal s).1 = .ok (plain.passage start.toMesh goal.toMesh) := by
  obtain ⟨-, first, second, hfirst, hsecond, hline⟩ := (findLine_of_mesh hfiles hfolder hmap
    start goal (loadMesh_of_mesh plain hfolder hmap hmesh) hmesh hlaid).resolve_left
      fun h => hruns h.1
  have hkept : ∀ cell, plain.Has mesh cell → plain.Has second cell :=
    fun cell h => hsecond.kept cell (hfirst.kept cell h)
  rw [hline, lineIn, if_pos ⟨hkept _ hstart, hkept _ hgoal⟩]

/-- The squares that keep a square out of the mesh in both sweeps. -/
def blockersOfBoth (start goal : MeshPosition) (q : Square) : List Square :=
  (SweepCentre.extracted start).blockers q ++ (SweepCentre.extracted goal).blockers q

theorem ne_of_mem_blockersOfBoth {q other : Square}
    (hnot : ¬ ReachedFromEither start.toMesh goal.toMesh q)
    (h : other ∈ blockersOfBoth start.toMesh goal.toMesh q) : other ≠ q := by
  obtain ⟨hstart, hgoal⟩ := not_or.1 hnot
  rcases List.mem_append.1 h with h | h
  · exact (SweepCentre.blocked_of_not_reaches hstart).1 other h
  · exact (SweepCentre.blocked_of_not_reaches hgoal).1 other h

/-- If the tile of an end is kept out by those of other squares, there is no line. -/
theorem findLine_of_blocked (hfiles : Extracted plain folder disk)
    (hfolder : n.meshFolder = some folder) (hmap : map < mapLimit)
    (hmesh : s.meshes[map]? = some mesh) (hlaid : Laid plain mesh)
    (hruns : ¬ n.Stops start.toMesh goal.toMesh) {q : Square}
    (hnot : ¬ ReachedFromEither start.toMesh goal.toMesh q)
    (hend : cellOf start.toMesh = q.meshTile ∨ cellOf goal.toMesh = q.meshTile)
    (hmissed : ¬ plain.Has mesh q.meshTile)
    (hhas : ∀ other ∈ blockersOfBoth start.toMesh goal.toMesh q, plain.Has mesh other.meshTile) :
    (n.findLine disk map start goal s).1 = .ok none := by
  obtain ⟨-, first, second, hfirst, hsecond, hline⟩ := (findLine_of_mesh hfiles hfolder hmap
    start goal (loadMesh_of_mesh plain hfolder hmap hmesh) hmesh hlaid).resolve_left
      fun h => hruns h.1
  obtain ⟨hstart, hgoal⟩ := not_or.1 hnot
  have hmissed' : ¬ plain.Has first q.meshTile := by
    refine not_has_of_blocked hfirst hmissed fun step hstep hread => ?_
    obtain ⟨other, hother, hcell⟩ :=
      (SweepCentre.blocked_of_not_reaches hstart).2 step hstep hread
    rw [hcell]
    exact hhas other (List.mem_append_left _ hother)
  have hmissed'' : ¬ plain.Has second q.meshTile := by
    refine not_has_of_blocked hsecond hmissed' fun step hstep hread => ?_
    obtain ⟨other, hother, hcell⟩ :=
      (SweepCentre.blocked_of_not_reaches hgoal).2 step hstep hread
    rw [hcell]
    exact hfirst.kept _ (hhas other (List.mem_append_right _ hother))
  rw [hline, lineIn, if_neg]
  rintro ⟨hcell, hcell'⟩
  rcases hend with hend | hend
  · exact hmissed'' (hend ▸ hcell)
  · exact hmissed'' (hend ▸ hcell')

end Ambiguous

/-- Preparing a mesh takes sweeps of the map's own files only. -/
theorem own_preparing (map : UInt32) (place : Square → MeshPosition) (qs : List Square) :
    ∀ request ∈ preparing map place qs, request.Own := by
  intro request hrequest
  rcases List.mem_cons.1 hrequest with rfl | hrequest
  · trivial
  · obtain ⟨q, -, rfl⟩ := List.mem_map.1 hrequest
    rfl

theorem kind_routeOver {tiles : TileKey → Except TileError Tile}
    {surface : UInt32 → Position → Single → Single} {map : UInt32}
    {line : Option (List MeshPosition × Bool)} :
    (routeOver tiles surface map line).kind = .none ↔ line = none := by
  cases line with
  | none => simp [routeOver, Route.missing]
  | some line =>
    obtain ⟨corners, cutShort⟩ := line
    cases cutShort <;> simp [routeOver]

/-- In the world with every tile some histories leave the tiles of both ends, and others keep out an
end that is not reached. -/
theorem reached_of_historyFree {start goal : Position} (h : HistoryFree start goal)
    {q q' k : Square} (hstart : cellOf start.toMesh = q.meshTile)
    (hgoal : cellOf goal.toMesh = q'.meshTile) (hk : k = q ∨ k = q') :
    ReachedFromEither start.toMesh goal.toMesh k := by
  refine Classical.byContradiction fun hnot => ?_
  have hend : cellOf start.toMesh = k.meshTile ∨ cellOf goal.toMesh = k.meshTile := by
    rcases hk with rfl | rfl
    · exact .inl hstart
    · exact .inr hgoal
  have hmap : (0 : UInt32) < mapLimit := by decide
  have hruns : ¬ rosterWays.Stops start.toMesh goal.toMesh := not_stops_of_onMap hstart hgoal
  have hfixed : rosterWays.ground.collision.Fixed fun _ _ _ => Collision.noSurface :=
    fun _ _ _ _ => rfl
  -- the one history sweeps around both ends
  obtain ⟨mesh, hmesh, hlaid, hhas, -⟩ := prepared_fullDisk [q, q'] k
  have hhasStart : Roster.plain.Has mesh (cellOf start.toMesh) := hstart ▸ hhas q (by simp)
  have hhasGoal : Roster.plain.Has mesh (cellOf goal.toMesh) := hgoal ▸ hhas q' (by simp)
  have hfound := findLine_of_has (n := rosterWays) extracted_fullDisk rfl hmap hmesh
    hlaid hruns hhasStart hhasGoal
  -- the other one sweeps around all that stands in the way of the end
  obtain ⟨mesh', hmesh', hlaid', hhas', hmissed⟩ :=
    prepared_fullDisk (blockersOfBoth start.toMesh goal.toMesh k) k
  have hmissing := findLine_of_blocked (n := rosterWays) extracted_fullDisk rfl hmap hmesh'
    hlaid' hruns hnot hend (hmissed fun hmem => ne_of_mem_blockersOfBoth hnot hmem rfl) hhas'
  -- the routes after both are the one in a new state, but only one of them is a route
  have hroute := h rosterWays Roster.plain "" _ fullDisk 0 _ () () rfl hfixed extracted_fullDisk
    (own_preparing 0 (spot · k) [q, q'])
  have hroute' := h rosterWays Roster.plain "" _ fullDisk 0 _ () () rfl hfixed extracted_fullDisk
    (own_preparing 0 (spot · k) (blockersOfBoth start.toMesh goal.toMesh k))
  rw [← hroute', (findRoute_over hfixed fullDisk 0 start goal _).1,
    (findRoute_over hfixed fullDisk 0 start goal _).1, hfound, hmissing] at hroute
  have hnone := kind_routeOver.1 (congrArg Route.kind (Except.ok.inj hroute))
  exact absurd ((Roster.passage_eq start.toMesh goal.toMesh).symm.trans hnone)
    (Option.some_ne_none _)

/-- **When a route does not depend on earlier requests:** exactly if the tiles of both its ends are
reached by the sweeps around them. -/
theorem historyFree_iff (start goal : Position) :
    HistoryFree start goal ↔ Unambiguous start goal := by
  constructor
  · intro h q q' hq hq'
    rw [squareOf_eq_some_iff] at hq hq'
    exact ⟨reached_of_historyFree h hq hq' (.inl rfl), reached_of_historyFree h hq hq' (.inr rfl)⟩
  · exact historyFree_of_unambiguous

/-- From the origin to itself the route depends on earlier requests: the file of the tile that the
origin is in is only read while another cell is looked at. -/
theorem not_historyFree_origin : ¬ HistoryFree ⟨0, 0, 0⟩ ⟨0, 0, 0⟩ := by
  intro h
  have hcell : cellOf (Position.toMesh ⟨0, 0, 0⟩) = (⟨31, 31⟩ : Square).meshTile := by
    decide +kernel
  have hgrid : gridIndex 0 = 32 := by decide +kernel
  have hmesh : meshIndex 0 = 32 := by decide +kernel
  have hreached := reached_of_historyFree h hcell hcell (.inl rfl)
  rw [ReachedFromEither, or_self] at hreached
  obtain ⟨step, -, hq, honly⟩ := hreached
  have hx : gridIndex 0 - step.2 = 31 := (squareAt_eq_some_iff.1 hq).1
  have hy : gridIndex 0 - step.1 = 31 := (squareAt_eq_some_iff.1 hq).2
  rw [hgrid] at hx hy
  have hother : squareOf ((SweepCentre.extracted (Position.toMesh ⟨0, 0, 0⟩)).cellAt step)
      = some ⟨30, 30⟩ := by
    refine squareAt_eq_some_iff.2 ⟨?_, ?_⟩
    · show 63 - (meshIndex 0 + step.2) = 30
      grind
    · show 63 - (meshIndex 0 + step.1) = 30
      grind
  exact absurd (honly _ hother) (by decide)

end Overland.Navigation
