import Overland.Proofs.Mesh.Roster
import Overland.Proofs.Route.Line
import Overland.Proofs.Single.Exact

/-!
# Finding a route without overflow

Where sums are checked, finding a route stops if a sweep around one of its ends makes a sum that is
no word.  `NeverOverflows` says of two positions that this does not happen, whatever else there is.

* A coordinate is cut to an inner word unless it is 2³¹ tiles away from the corner of the grid
  (`inner_gridIndex`).
* `neverOverflows_iff` — a route is always found without a stop exactly if the tiles of both of its
  ends are inner ones, in the count of the mesh and in that of the files.  The library answers the
  former, so its answer can lead to a stop at any position (`not_neverOverflows_far_and_thin`).
-/

namespace Overland.Navigation

/-! ## Meshes without tiles -/

/-- A library whose meshes never have a tile, whatever is added to them. -/
def barren (tileOf : MeshPosition → Int32 × Int32) : MeshLibrary Unit Unit where
  create _ := pure (.ok ())
  tileOf _ := tileOf
  hasTile _ _ _ := false
  addTile _ _ := pure (.error .failure, ())
  nearest _ _ _ := pure (.failure, 0)
  corridor _ _ _ _ _ _ := pure (.failure, [])
  corners _ _ _ _ _ := pure (.failure, [])

/-- Ways over a barren library, with checked sums, on ground without terrain and without collision
geometry. -/
def barrenWays (tileOf : MeshPosition → Int32 × Int32) : Navigation Unit Unit Unit :=
  ⟨⟨none, .absent⟩, some "", barren tileOf, .checked⟩

section Barren

variable {tileOf : MeshPosition → Int32 × Int32} (disk : Disk)

/-- In a mesh without tiles each step makes all of its sums. -/
theorem sweep_barren {position : MeshPosition}
    (h : ¬ InnerCentre (sweepCentre (barren tileOf) () position)) (map : UInt32) {owner : UInt32}
    {s : NavigationState Unit Unit Unit} (hmesh : meshIn s owner = some ()) :
    ((barrenWays tileOf).sweep disk position map owner s).1 = .error .overflow := by
  have hfolder : (barrenWays tileOf).meshFolder = some "" := rfl
  obtain ⟨taken, outcomes, mesh', t', hcourse, -, hend⟩ :=
    course_sweep disk map hfolder position hmesh
  rcases hend with ⟨rfl, -⟩ | ⟨-, -, -, -, hanswer⟩
  · obtain ⟨step, hstep, hstops⟩ := exists_not_fits (n := barrenWays tileOf) rfl h
    obtain ⟨found, hfits⟩ := hcourse.exists_fits hstep
    exact absurd hfits (hstops found Bool.false_ne_true)
  · exact hanswer

/-- If one of the two ends has a centre that is not of inner words, a route over a mesh without
tiles is not found. -/
theorem findRoute_barren {start goal : Position}
    (h : ¬ InnerCentre (sweepCentre (barren tileOf) () start.toMesh) ∨
      ¬ InnerCentre (sweepCentre (barren tileOf) () goal.toMesh)) :
    ((barrenWays tileOf).findRoute disk 0 start goal (holding ())).1 = .error .overflow := by
  have hload := loadMesh_of_meshIn (n := barrenWays tileOf) rfl disk (meshIn_holding ())
  rw [findRoute_stops_iff, hload]
  refine ⟨⟨(), rfl⟩, ?_⟩
  rcases hfirst : (barrenWays tileOf).sweep disk start.toMesh 0 0 (holding ()) with
    ⟨stop | count, t⟩
  · cases stop
    rw [sweepEnds_of_error hfirst]
  · have hstart : InnerCentre (sweepCentre (barren tileOf) () start.toMesh) := by
      refine Classical.byContradiction fun hstart => ?_
      cases (congrArg Prod.fst hfirst).symm.trans (sweep_barren disk hstart 0 (meshIn_holding ()))
    obtain ⟨now, hnow, -⟩ := ((barrenWays tileOf).grew_sweep disk start.toMesh 0 0
      (holding ())).exists_after (meshIn_holding ())
    rw [hfirst] at hnow
    rw [sweepEnds_of_ok hfirst]
    dsimp only
    rw [sweep_barren disk (h.resolve_left (not_not_intro hstart)) 0 hnow]
    rfl

end Barren

/-! ## When a route is found without overflow -/

/-- Finding a route between two positions never stops: on any ground, over any files, in any state
and with any mesh library that puts positions into these tiles, there is an answer. -/
def NeverOverflows (tileOf : MeshPosition → Int32 × Int32) (start goal : Position) : Prop :=
  ∀ {σ τ μ : Type} (n : Navigation σ τ μ) (disk : Disk) (map : UInt32) (s : NavigationState σ τ μ),
    (∀ mesh position, n.library.tileOf mesh position = tileOf position) →
    ∃ route, (n.findRoute disk map start goal s).1 = .ok route

/-- A position lies well within what words can count: the library puts it into a tile that is not in
the first or last column or row of all, and its coordinates on the ground are less than 2³¹ tiles
away from the corner of the grid, or no numbers, which are cut to zero. -/
structure WellWithin (tileOf : MeshPosition → Int32 × Int32) (p : Position) : Prop where
  column : Inner (tileOf p.toMesh).1
  row : Inner (tileOf p.toMesh).2
  x : (gridScale p.x).isNaN = true ∨ (-2147483648 < gridScale p.x ∧ gridScale p.x < 2147483648)
  y : (gridScale p.y).isNaN = true ∨ (-2147483648 < gridScale p.y ∧ gridScale p.y < 2147483648)

theorem inner_gridIndex (coordinate : Single) : Inner (gridIndex coordinate) ↔
    (gridScale coordinate).isNaN = true ∨
      (-2147483648 < gridScale coordinate ∧ gridScale coordinate < 2147483648) :=
  (gridScale coordinate).toInt32_inside_iff

theorem innerCentre_iff {τ μ : Type} {library : MeshLibrary τ μ} {mesh : μ}
    {tileOf : MeshPosition → Int32 × Int32} {p : Position}
    (h : library.tileOf mesh p.toMesh = tileOf p.toMesh) :
    InnerCentre (sweepCentre library mesh p.toMesh) ↔ WellWithin tileOf p := by
  rw [sweepCentre, h]
  constructor
  · rintro ⟨hcolumn, hrow, hx, hy⟩
    exact ⟨hcolumn, hrow, (inner_gridIndex p.x).1 hx, (inner_gridIndex p.y).1 hy⟩
  · rintro ⟨hcolumn, hrow, hx, hy⟩
    exact ⟨hcolumn, hrow, (inner_gridIndex p.x).2 hx, (inner_gridIndex p.y).2 hy⟩

section NeverOverflows

variable {tileOf : MeshPosition → Int32 × Int32} {start goal : Position}

theorem neverOverflows_of_within (hstart : WellWithin tileOf start)
    (hgoal : WellWithin tileOf goal) : NeverOverflows tileOf start goal := by
  intro σ τ μ n disk map s htile
  cases hanswer : (n.findRoute disk map start goal s).1 with
  | ok route => exact ⟨route, rfl⟩
  | error stop =>
    obtain ⟨-, hends⟩ := findRoute_stops_iff.1 hanswer
    obtain ⟨-, mesh, hinner⟩ := sweepEnds_of_stop hends
    rw [innerCentre_iff (htile mesh _), innerCentre_iff (htile mesh _)] at hinner
    exact absurd hinner (not_or.2 ⟨not_not_intro hstart, not_not_intro hgoal⟩)

/-- Where finding a route never stops, both ends lie well within: over a mesh without tiles all sums
are made. -/
theorem within_of_neverOverflows (h : NeverOverflows tileOf start goal) :
    WellWithin tileOf start ∧ WellWithin tileOf goal := by
  obtain ⟨route, hroute⟩ :=
    h (barrenWays tileOf) (fun _ => .error .notFound) 0 (holding ()) fun _ _ => rfl
  refine Classical.byContradiction fun hnot => ?_
  have hcentre (p : Position) :
      InnerCentre (sweepCentre (barren tileOf) () p.toMesh) ↔ WellWithin tileOf p :=
    innerCentre_iff rfl
  rw [Classical.not_and_iff_not_or_not, ← hcentre, ← hcentre] at hnot
  rw [findRoute_barren _ hnot] at hroute
  cases hroute

/-- **When a route is found without overflow:** exactly if both of its ends lie well within. -/
theorem neverOverflows_iff (tileOf : MeshPosition → Int32 × Int32) (start goal : Position) :
    NeverOverflows tileOf start goal ↔ WellWithin tileOf start ∧ WellWithin tileOf goal :=
  ⟨within_of_neverOverflows, fun h => neverOverflows_of_within h.1 h.2⟩

end NeverOverflows

/-- A header like that of an extractor, but with tiles of hardly any width. -/
def thinHeader : MeshHeader := { extractedHeader with tileWidth := ⟨0x0d800000⟩ }

/-- Sums overflow far away from a map as extractors make it, and on the map if its tiles are too
thin. -/
theorem not_neverOverflows_far_and_thin :
    ¬ NeverOverflows extractedHeader.tileOf ⟨4398046511104, 0, 10⟩ ⟨0, 0, 10⟩ ∧
      ¬ NeverOverflows thinHeader.tileOf ⟨100, 100, 10⟩ ⟨100, 100, 10⟩ := by
  constructor
  · intro h
    have hrow : ¬ Inner (extractedHeader.tileOf ⟨0, 10, 4398046511104⟩).2 := by decide +kernel
    exact hrow (within_of_neverOverflows h).1.row
  · intro h
    have hcolumn : ¬ Inner (thinHeader.tileOf ⟨100, 10, 100⟩).1 := by decide +kernel
    exact hcolumn (within_of_neverOverflows h).1.column

end Overland.Navigation
