import Overland.Proofs.Ground.Visits
import Overland.Proofs.Tile.Key

/-!
# Tiles do not disturb each other

A run is a list of events: a file changes, or the ground is asked a question.  This module is about
what one tile answers in a run, and about everything else that happens meanwhile.

* `replay` is what a tile answers to a row of visits, told from what its file holds at each of them;
  `answersOf_linked` says that this is what it answers in any linked list of visits.
* `only` is what is left of a run if everything is deleted that is not about one tile: the changes
  of other files, and the visits to other tiles.
* `tile_isolated` — the answers of the tile are the same in both runs.
-/

namespace Overland

/-- The disk with another answer to one path. -/
def Disk.put (disk : Disk) (path : String) (content : Except DiskFault (Array UInt8)) : Disk :=
  fun other => if other = path then content else disk other

namespace Ground

variable {σ : Type}

/-! ## Runs -/

/-- What happens in a run: the disk changes what it answers to one path, or a question is asked. -/
inductive Event where
  | change (path : String) (content : Except DiskFault (Array UInt8))
  | ask {α : Type} (call : Call α)

/-- The questions of a run, each with the disk as it is by then. -/
def moments : List Event → Disk → List Moment
  | [], _ => []
  | .change path content :: run, disk => moments run (disk.put path content)
  | .ask call :: run, disk => ⟨disk, call⟩ :: moments run disk

/-- The visits to one tile among others. -/
def visitsTo (key : TileKey) (vs : List (Visit σ)) : List (Visit σ) := vs.filter (·.key = key)

/-- What a tile answers in a list of visits, visit by visit. -/
def answersOf (key : TileKey) (vs : List (Visit σ)) : List (Except TileError Tile) :=
  (visitsTo key vs).map (·.answer)

theorem visitsTo_cons_self (g : Ground σ) (disk : Disk) (key : TileKey) (s : GroundState σ)
    (vs : List (Visit σ)) :
    visitsTo key (g.visit disk key s :: vs) = g.visit disk key s :: visitsTo key vs := by
  simp [visitsTo, visit]

theorem visitsTo_cons_of_ne (g : Ground σ) (disk : Disk) {key other : TileKey} (hne : other ≠ key)
    (s : GroundState σ) (vs : List (Visit σ)) :
    visitsTo key (g.visit disk other s :: vs) = visitsTo key vs := by
  simp [visitsTo, visit, hne]

theorem visitsTo_append (key : TileKey) (vs ws : List (Visit σ)) :
    visitsTo key (vs ++ ws) = visitsTo key vs ++ visitsTo key ws := List.filter_append ..

/-- The access to one tile. -/
def Event.access (key : TileKey) : Event :=
  .ask (.tileAt key.map (Int32.ofNat key.x) (Int32.ofNat key.y))

/-- The path is the one of a tile's own file. -/
def OwnFile (g : Ground σ) (key : TileKey) (path : String) : Prop :=
  g.tileFolder.map (TileCache.path · key) = some path

instance (g : Ground σ) (key : TileKey) (path : String) : Decidable (g.OwnFile key path) :=
  inferInstanceAs (Decidable (_ = _))

/-- What is left of a run when everything is deleted but the changes of a tile's own file and the
visits to the tile, those that questions make among them. -/
def only (g : Ground σ) (key : TileKey) : List Event → Disk → GroundState σ → List Event
  | [], _, _ => []
  | .change path content :: run, disk, s =>
    let rest := g.only key run (disk.put path content) s
    if g.OwnFile key path then .change path content :: rest else rest
  | .ask call :: run, disk, s =>
    List.replicate (visitsTo key (call.inquiry.visits g disk s)).length (.access key)
      ++ g.only key run disk (call.ask g disk s).2

/-- An event of a run that is about one tile alone. -/
def Event.Concerns (g : Ground σ) (key : TileKey) (e : Event) : Prop :=
  e = .access key ∨ ∃ path content, g.OwnFile key path ∧ e = .change path content

/-! ## The answers of one tile -/

/-- What visits to a tile find in its file. -/
def foundBy (g : Ground σ) (key : TileKey) (vs : List (Visit σ)) :
    List (Except DiskFault TileContent) :=
  (visitsTo key vs).map fun v => TileCache.attempt g.tileFolder v.disk key

/-- What a tile answers to a row of visits, told from what is in its slot at first and from what
each visit would find in its file. -/
def replay (g : Ground σ) (key : TileKey) :
    Option TileContent → List (Except DiskFault TileContent) → List (Except TileError Tile)
  | _, [] => []
  | some content, _ :: later => TileCache.answer key content :: g.replay key (some content) later
  | none, .ok content :: later => TileCache.answer key content :: g.replay key (some content) later
  | none, .error fault :: later =>
    .error (.unreadable (TileCache.path (g.tileFolder.getD "") key) fault)
      :: g.replay key none later

/-- A visit to the tile answers as in a replay, and leaves the slot as the replay goes on. -/
theorem replay_tile (g : Ground σ) (disk : Disk) (key : TileKey) (s : GroundState σ)
    (later : List (Except DiskFault TileContent)) :
    g.replay key s.tiles.slots[key.slot]? (TileCache.attempt g.tileFolder disk key :: later)
      = (g.tile disk key s).1
        :: g.replay key (g.tile disk key s).2.tiles.slots[key.slot]? later := by
  cases hslot : s.tiles.slots[key.slot]? with
  | some content => simp [replay, tile, TileCache.access, hslot]
  | none =>
    cases hattempt : TileCache.attempt g.tileFolder disk key with
    | ok content => simp [replay, tile, TileCache.access, hslot, hattempt]
    | error fault => simp [replay, tile, TileCache.access, hslot, hattempt]

/-- A visit to another tile leaves the slot as it is. -/
theorem slot_tile_of_ne (g : Ground σ) (disk : Disk) {key other : TileKey} (hne : other ≠ key)
    (s : GroundState σ) :
    (g.tile disk other s).2.tiles.slots[key.slot]? = s.tiles.slots[key.slot]? := by
  rcases g.tile_cases disk other s with ⟨_, _, h⟩ | ⟨_, _, _, h⟩ | ⟨_, _, h⟩
  · rw [h]
  · simp [h, Std.HashMap.getElem?_insert, hne]
  · rw [h]

/-- **What a tile answers is told from its own file alone.** -/
theorem answersOf_linked {g : Ground σ} {c d : TileCache} {vs : List (Visit σ)}
    (h : Linked g c vs d) (key : TileKey) :
    answersOf key vs = g.replay key c.slots[key.slot]? (g.foundBy key vs) := by
  induction h with
  | nil c => cases c.slots[key.slot]? <;> rfl
  | cons disk other s _ ih =>
    unfold answersOf foundBy at ih ⊢
    by_cases hkey : other = key
    · subst hkey
      rw [visitsTo_cons_self, List.map_cons, List.map_cons, ih]
      exact (g.replay_tile disk other s _).symm
    · rw [visitsTo_cons_of_ne g disk hkey, ih, ← g.slot_tile_of_ne disk hkey s]
      rfl

/-! ## What is left of a run -/

theorem concerns_of_mem_only (g : Ground σ) (key : TileKey) (run : List Event) (disk : Disk)
    (s : GroundState σ) : ∀ e ∈ g.only key run disk s, e.Concerns g key := by
  induction run generalizing disk s with
  | nil => simp [only]
  | cons event run ih =>
    cases event with
    | change path content =>
      simp only [only]
      by_cases hown : g.OwnFile key path
      · rw [if_pos hown]
        rintro e (_ | ⟨_, he⟩)
        · exact .inr ⟨path, content, hown, rfl⟩
        · exact ih _ _ e he
      · rw [if_neg hown]
        exact ih _ _
    | ask call =>
      intro e he
      rcases List.mem_append.1 he with he | he
      · exact .inl (List.eq_of_mem_replicate he)
      · exact ih _ _ e he

/-- A change of another file does not show in the tile's own one. -/
theorem attempt_put_of_not_own {g : Ground σ} {key : TileKey} {path : String}
    (h : ¬ g.OwnFile key path) (disk : Disk) (content : Except DiskFault (Array UInt8)) :
    TileCache.attempt g.tileFolder (disk.put path content) key
      = TileCache.attempt g.tileFolder disk key := by
  unfold OwnFile at h
  unfold TileCache.attempt Tile.contentAt Disk.put
  cases hfolder : g.tileFolder with
  | none => rfl
  | some folder =>
    have hne : TileCache.path folder key ≠ path := by simpa [hfolder] using h
    simp only [hne, if_false]

/-- After a change of the tile's own file, the file says just that. -/
theorem attempt_put_of_own {g : Ground σ} {key : TileKey} {path : String}
    (h : g.OwnFile key path) (disk disk' : Disk) (content : Except DiskFault (Array UInt8)) :
    TileCache.attempt g.tileFolder (disk.put path content) key
      = TileCache.attempt g.tileFolder (disk'.put path content) key := by
  unfold OwnFile at h
  unfold TileCache.attempt Tile.contentAt Disk.put
  cases hfolder : g.tileFolder with
  | none => rfl
  | some folder =>
    have heq : TileCache.path folder key = path := by simpa [hfolder] using h
    simp only [heq, if_true]

/-- The visits that a question makes all find the same in the tile's file. -/
theorem foundBy_visits (g : Ground σ) (disk : Disk) (key : TileKey) {α : Type} (q : Inquiry α)
    (s : GroundState σ) :
    g.foundBy key (q.visits g disk s)
      = List.replicate (visitsTo key (q.visits g disk s)).length
          (TileCache.attempt g.tileFolder disk key) := by
  induction q generalizing s with
  | done answer => rfl
  | ask other next ih =>
    unfold foundBy at ih ⊢
    rw [Inquiry.visits]
    by_cases hkey : other = key
    · subst hkey
      rw [visitsTo_cons_self, List.map_cons, ih, List.length_cons, List.replicate_succ]
      rfl
    · rw [visitsTo_cons_of_ne g disk hkey, ih]
  | probe map point next ih => exact ih _ _

theorem foundBy_append (g : Ground σ) (key : TileKey) (vs ws : List (Visit σ)) :
    g.foundBy key (vs ++ ws) = g.foundBy key vs ++ g.foundBy key ws := by
  rw [foundBy, visitsTo_append, List.map_append]
  rfl

/-- An access to a tile is a visit to it. -/
theorem visits_access (g : Ground σ) (disk : Disk) (key : TileKey) (s : GroundState σ) :
    (Inquiry.tileAt key.map (Int32.ofNat key.x) (Int32.ofNat key.y)).visits g disk s
      = [g.visit disk key s] := by
  rw [Inquiry.tileAt, key.of?_coordinates]
  rfl

/-- Accesses to a tile find what is in its file. -/
theorem foundBy_accesses (g : Ground σ) (key : TileKey) (count : Nat) (run : List Event)
    (disk : Disk) (s : GroundState σ) :
    ∃ t, g.foundBy key (g.record (moments (List.replicate count (.access key) ++ run) disk) s)
      = List.replicate count (TileCache.attempt g.tileFolder disk key)
          ++ g.foundBy key (g.record (moments run disk) t) := by
  induction count generalizing s with
  | zero => exact ⟨s, rfl⟩
  | succ count ih =>
    obtain ⟨t, ht⟩ := ih (g.tileAt disk key.map (Int32.ofNat key.x) (Int32.ofNat key.y) s).2
    refine ⟨t, ?_⟩
    have hfirst : g.foundBy key [g.visit disk key s]
        = [TileCache.attempt g.tileFolder disk key] := by
      rw [foundBy, visitsTo_cons_self]
      rfl
    rw [List.replicate_succ, List.cons_append, Event.access, moments, record, Call.inquiry,
      visits_access, foundBy_append, hfirst, List.replicate_succ]
    exact congrArg (_ :: ·) ht

/-- The visits to the tile find the same in its file, whether or not the rest of the run is
deleted. -/
theorem foundBy_only (g : Ground σ) (key : TileKey) (run : List Event) {disk disk' : Disk}
    (hdisk : TileCache.attempt g.tileFolder disk key = TileCache.attempt g.tileFolder disk' key)
    (s t : GroundState σ) :
    g.foundBy key (g.record (moments (g.only key run disk s) disk') t)
      = g.foundBy key (g.record (moments run disk) s) := by
  induction run generalizing disk disk' s t with
  | nil => rfl
  | cons event run ih =>
    cases event with
    | change path content =>
      simp only [only, moments]
      by_cases hown : g.OwnFile key path
      · rw [if_pos hown, moments]
        exact ih (attempt_put_of_own hown disk disk' content) s t
      · rw [if_neg hown]
        exact ih ((attempt_put_of_not_own hown disk content).trans hdisk) s t
    | ask call =>
      obtain ⟨u, hu⟩ := g.foundBy_accesses key
        (visitsTo key (call.inquiry.visits g disk s)).length
        (g.only key run disk (call.ask g disk s).2) disk' t
      simp only [only, moments, record]
      rw [hu, foundBy_append, foundBy_visits, ih hdisk, hdisk]

/-- **Tiles do not disturb each other.**  Take any run of questions and of changes of files, and one
tile.  Its answers, in order, stay the same when everything is deleted from the run that is not
about the tile; what is left are accesses to the tile and changes of its own file; and its own file
is the file of no other tile, on whatever map. -/
theorem tile_isolated (g : Ground σ) (key : TileKey) (run : List Event) (disk : Disk) (start : σ) :
    answersOf key (g.record (moments (g.only key run disk ⟨.empty, start⟩) disk) ⟨.empty, start⟩)
        = answersOf key (g.record (moments run disk) ⟨.empty, start⟩) ∧
      (∀ e ∈ g.only key run disk ⟨.empty, start⟩, e.Concerns g key) ∧
      ∀ other folder, g.tileFolder = some folder → other ≠ key →
        ¬ g.OwnFile key (TileCache.path folder other) := by
  refine ⟨?_, g.concerns_of_mem_only key run disk _, ?_⟩
  · obtain ⟨c, hall⟩ := g.linked_record (moments run disk) ⟨.empty, start⟩
    obtain ⟨d, honly⟩ :=
      g.linked_record (moments (g.only key run disk ⟨.empty, start⟩) disk) ⟨.empty, start⟩
    rw [answersOf_linked hall, answersOf_linked honly, g.foundBy_only key run rfl]
  · intro other folder hfolder hne hown
    have hpath : TileCache.path folder key = TileCache.path folder other := by
      simpa [OwnFile, hfolder] using hown
    exact hne (TileCache.path_injective hpath).symm

end Ground

end Overland
