import Overland.Proofs.Ground.Visits

/-!
# What loading costs

Each slot that is filled costs one load and one request for the collision geometry of its tile; a
file that cannot be read costs a load and no request; everything else is free.

* `Collision.recorded` is a collision library with a record of the tiles that it was asked to load.
* `Accounted` ties that record and the count of loads to the visits made so far; `accounted_visit`
  is the step lemma, and `accounted_visits` and `accounted_record` carry it over questions and over
  histories.
* `loads_accounted` says what this comes to in every state that a history leads to.
-/

namespace Overland

variable {σ : Type}

/-- The library with a record of the tiles that it was asked to load, in order. -/
def Collision.recorded (c : Collision σ) : Collision (List TileKey × σ) where
  loadTile key := fun (asked, s) => ((), asked ++ [key], (c.loadTile key s).2)
  probe map point reach := fun (asked, s) =>
    ((c.probe map point reach s).1, asked, (c.probe map point reach s).2)

namespace Ground

/-- The ground over the recorded collision library. -/
def recorded (g : Ground σ) : Ground (List TileKey × σ) := ⟨g.tileFolder, g.collision.recorded⟩

/-- A state without the record. -/
def unrecorded (s : GroundState (List TileKey × σ)) : GroundState σ := ⟨s.tiles, s.collision.2⟩

theorem run_unrecorded (g : Ground σ) (disk : Disk) {α : Type} (q : Inquiry α)
    (s : GroundState (List TileKey × σ)) :
    q.run g disk (unrecorded s)
      = ((q.run g.recorded disk s).1, unrecorded (q.run g.recorded disk s).2) := by
  induction q generalizing s with
  | done answer => rfl
  | ask key next ih =>
    have htile : g.tile disk key (unrecorded s)
        = ((g.recorded.tile disk key s).1, unrecorded (g.recorded.tile disk key s).2) := by
      obtain ⟨tiles, asked, collision⟩ := s
      simp only [tile, unrecorded, recorded, Collision.recorded]
      by_cases hfilled : (tiles.access g.tileFolder disk key).filled = true <;> simp [hfilled]
    change (next (g.tile disk key (unrecorded s)).1).run g disk
      (g.tile disk key (unrecorded s)).2 = _
    rw [htile]
    exact ih _ _
  | probe map point next ih =>
    let asked := g.recorded.collision.surfaceNear map point s.collision
    exact ih asked.1 ⟨s.tiles, asked.2⟩

/-- **The record changes nothing** in whole histories. -/
theorem reached_unrecorded (g : Ground σ) (history : List Moment)
    (s : GroundState (List TileKey × σ)) :
    g.reached history (unrecorded s) = unrecorded (g.recorded.reached history s) := by
  induction history generalizing s with
  | nil => rfl
  | cons m history ih =>
    rw [reached, reached, ← run_inquiry, ← run_inquiry, run_unrecorded]
    exact ih _

/-- The visit fills the slot of its tile. -/
def Visit.Fills (v : Visit σ) : Prop :=
  v.key.slot ∉ v.before.tiles.slots ∧ v.key.slot ∈ v.after.tiles.slots

instance (v : Visit σ) : Decidable v.Fills := inferInstanceAs (Decidable (_ ∧ _))

/-- The tiles whose slots are filled by visits, in the order in which that happens. -/
def filledBy (vs : List (Visit σ)) : List TileKey := (vs.filter (·.Fills)).map (·.key)

instance (answer : Except TileError Tile) : Decidable (Unread answer) :=
  match answer with
  | .error (.unreadable path fault) => .isTrue ⟨path, fault, rfl⟩
  | .ok _ => .isFalse nofun
  | .error (.undecodable _) => .isFalse nofun
  | .error (.offGrid _ _) => .isFalse nofun
  | .error (.unusable _ _) => .isFalse nofun

/-- How many visits could not read the file of their tile. -/
def unreadCount (vs : List (Visit σ)) : Nat := vs.countP fun v => Unread v.answer

/-- Requests and loads are accounted for by the visits that were made. -/
structure Accounted (vs : List (Visit (List TileKey × σ))) (s : GroundState (List TileKey × σ)) :
    Prop where
  asked : s.collision.1 = filledBy vs
  nodup : s.collision.1.Nodup
  filled : ∀ key, key ∈ s.collision.1 ↔ key.slot ∈ s.tiles.slots
  size : s.tiles.slots.size = s.collision.1.length
  loads : s.tiles.loads = s.tiles.slots.size + unreadCount vs

theorem accounted_start (start : σ) :
    Accounted [] (⟨.empty, ([], start)⟩ : GroundState (List TileKey × σ)) := by
  constructor <;> simp [filledBy, unreadCount, TileCache.empty]

theorem filledBy_concat (vs : List (Visit σ)) (v : Visit σ) :
    filledBy (vs ++ [v]) = if v.Fills then filledBy vs ++ [v.key] else filledBy vs := by
  by_cases h : v.Fills <;> simp [filledBy, h]

theorem unreadCount_concat (vs : List (Visit σ)) (v : Visit σ) :
    unreadCount (vs ++ [v]) = unreadCount vs + if Unread v.answer then 1 else 0 := by
  by_cases h : Unread v.answer <;> simp [unreadCount, h]

section Step

variable {vs : List (Visit (List TileKey × σ))} {s t : GroundState (List TileKey × σ)}
  {v : Visit (List TileKey × σ)}

/-- A visit that fills no slot makes no request. -/
theorem Accounted.of_not_fills (h : Accounted vs s) (hfills : ¬ v.Fills)
    (hasked : t.collision.1 = s.collision.1) (hslots : t.tiles.slots = s.tiles.slots)
    (hloads : t.tiles.loads = s.tiles.loads + if Unread v.answer then 1 else 0) :
    Accounted (vs ++ [v]) t where
  asked := by rw [filledBy_concat, if_neg hfills, hasked, h.asked]
  nodup := hasked ▸ h.nodup
  filled key := by rw [hasked, hslots, h.filled]
  size := by rw [hasked, hslots, h.size]
  loads := by rw [unreadCount_concat, hloads, hslots, h.loads, Nat.add_assoc]

/-- A visit that fills a slot makes one request and counts as a load. -/
theorem Accounted.of_fills (h : Accounted vs s) (hfills : v.Fills) (hread : ¬ Unread v.answer)
    (hnew : v.key.slot ∉ s.tiles.slots) (hasked : t.collision.1 = s.collision.1 ++ [v.key])
    (content : TileContent) (hslots : t.tiles.slots = s.tiles.slots.insert v.key.slot content)
    (hloads : t.tiles.loads = s.tiles.loads + 1) : Accounted (vs ++ [v]) t where
  asked := by rw [filledBy_concat, if_pos hfills, hasked, h.asked]
  nodup := by
    rw [hasked]
    refine List.nodup_append.2 ⟨h.nodup, List.pairwise_singleton _ _, ?_⟩
    intro key hkey other hother heq
    rw [heq, List.mem_singleton.1 hother, h.filled] at hkey
    exact hnew hkey
  filled key := by
    rw [hasked, hslots, List.mem_append, h.filled, List.mem_singleton, Std.HashMap.mem_insert,
      beq_iff_eq, TileKey.slot_inj, or_comm, eq_comm]
  size := by rw [hasked, hslots, Std.HashMap.size_insert, if_neg hnew, h.size, List.length_append,
    List.length_singleton]
  loads := by
    rw [unreadCount_concat, if_neg hread, hloads, hslots, Std.HashMap.size_insert, if_neg hnew,
      h.loads]
    omega

/-- One more visit is accounted for. -/
theorem accounted_visit (g : Ground σ) (h : Accounted vs s) (disk : Disk) (key : TileKey) :
    Accounted (vs ++ [g.recorded.visit disk key s]) (g.recorded.tile disk key s).2 := by
  rcases g.recorded.tile_cases disk key s with ⟨content, hslot, hv⟩ | ⟨content, hslot, -, hv⟩
    | ⟨hslot, hunread, hv⟩
  · have hread : ¬ Unread (TileCache.answer key content) := not_unread_answer key content
    refine h.of_not_fills ?_ ?_ ?_ ?_
    · rintro ⟨hbefore, -⟩
      exact hbefore (Std.HashMap.mem_iff_isSome_getElem?.2 (by simp [visit, hslot]))
    · rw [hv]
    · rw [hv]
    · rw [visit, hv, if_neg hread]
      rfl
  · have hnew : key.slot ∉ s.tiles.slots := by simp [Std.HashMap.mem_iff_isSome_getElem?, hslot]
    refine h.of_fills ⟨hnew, ?_⟩ ?_ hnew ?_ content ?_ ?_
    · simp [visit, hv]
    · rw [visit, hv]
      exact not_unread_answer key content
    · rw [hv]
      rfl
    · rw [hv]
      rfl
    · rw [hv]
  · have hempty : key.slot ∉ s.tiles.slots := by simp [Std.HashMap.mem_iff_isSome_getElem?, hslot]
    refine h.of_not_fills ?_ ?_ ?_ ?_
    · rintro ⟨-, hafter⟩
      rw [visit, hv] at hafter
      exact hempty hafter
    · rw [hv]
    · rw [hv]
    · rw [visit, hv, if_pos hunread]

end Step

/-- The visits of a question are accounted for. -/
theorem accounted_visits (g : Ground σ) (disk : Disk) {α : Type} (q : Inquiry α)
    {vs : List (Visit (List TileKey × σ))} {s : GroundState (List TileKey × σ)}
    (h : Accounted vs s) :
    Accounted (vs ++ q.visits g.recorded disk s) (q.run g.recorded disk s).2 := by
  induction q generalizing vs s with
  | done answer =>
    rw [Inquiry.visits, List.append_nil]
    exact h
  | ask key next ih =>
    have hrest := ih (g.recorded.tile disk key s).1 (g.accounted_visit h disk key)
    rw [List.append_assoc] at hrest
    exact hrest
  | probe map point next ih =>
    -- a probe makes no request for geometry, and the tiles stay as they are
    exact ih _ ⟨h.asked, h.nodup, h.filled, h.size, h.loads⟩

/-- The visits of a history are accounted for. -/
theorem accounted_record (g : Ground σ) (history : List Moment)
    {vs : List (Visit (List TileKey × σ))} {s : GroundState (List TileKey × σ)}
    (h : Accounted vs s) :
    Accounted (vs ++ g.recorded.record history s) (g.recorded.reached history s) := by
  induction history generalizing vs s with
  | nil =>
    rw [record, List.append_nil]
    exact h
  | cons m history ih =>
    have hfirst := g.accounted_visits m.disk m.call.inquiry h
    rw [run_inquiry] at hfirst
    have hrest := ih hfirst
    rw [List.append_assoc] at hrest
    exact hrest

/-- A visit never answers that it is off the map. -/
theorem tile_ne_offGrid (g : Ground σ) (disk : Disk) (key : TileKey) (s : GroundState σ)
    (x y : Int32) : (g.tile disk key s).1 ≠ .error (.offGrid x y) := by
  have hanswer (content : TileContent) : TileCache.answer key content ≠ .error (.offGrid x y) := by
    cases content <;> exact nofun
  rcases g.tile_cases disk key s with ⟨content, _, hv⟩ | ⟨content, _, _, hv⟩
    | ⟨_, ⟨path, fault, hunread⟩, hv⟩
  · rw [hv]
    exact hanswer content
  · rw [hv]
    exact hanswer content
  · rw [hv, hunread]
    exact nofun

/-- An access that is answered to be off the map changes nothing. -/
theorem tileAt_of_offGrid {g : Ground σ} {disk : Disk} {map : UInt32} {x y a b : Int32}
    {s : GroundState σ} (h : (g.tileAt disk map x y s).1 = .error (.offGrid a b)) :
    (g.tileAt disk map x y s).2 = s := by
  unfold tileAt at h ⊢
  cases hkey : TileKey.of? map x y with
  | none => rfl
  | some key =>
    rw [hkey] at h
    exact absurd h (g.tile_ne_offGrid disk key s a b)

/-- **Loads and requests are accounted for.**  After any history of questions, over any changes of
the files, the collision library has been asked for just the tiles whose slots are filled, each of
them once and in the order in which they were filled; loads were counted for these and for the
visits that could not read a file; and an access that is answered to be off the map changes nothing,
in whatever state it is made.  The record that says so changes nothing either: without it the
history leads to the same state. -/
theorem loads_accounted (g : Ground σ) (start : σ) (history : List Moment) :
    (let visits := g.recorded.record history ⟨.empty, ([], start)⟩
      let s := g.recorded.reached history ⟨.empty, ([], start)⟩
      s.collision.1 = filledBy visits ∧ s.collision.1.Nodup ∧
        (∀ key, key ∈ s.collision.1 ↔ key.slot ∈ s.tiles.slots) ∧
        s.tiles.slots.size = s.collision.1.length ∧
        s.tiles.loads = s.tiles.slots.size + unreadCount visits ∧
        g.reached history ⟨.empty, start⟩ = unrecorded s) ∧
    ∀ disk map s,
      (∀ x y a b, (g.recorded.tileAt disk map x y s).1 = .error (.offGrid a b) →
        (g.recorded.tileAt disk map x y s).2 = s) ∧
      (∀ x y a b, (g.recorded.tileOver disk map x y s).1 = .error (.offGrid a b) →
        (g.recorded.tileOver disk map x y s).2 = s) := by
  have h := g.accounted_record history (accounted_start start)
  rw [List.nil_append] at h
  refine ⟨⟨h.asked, h.nodup, h.filled, h.size, h.loads, ?_⟩, fun disk map s => ⟨?_, ?_⟩⟩
  · exact g.reached_unrecorded history ⟨.empty, ([], start)⟩
  · intro x y a b
    exact tileAt_of_offGrid
  · intro x y a b
    exact tileAt_of_offGrid

end Ground

end Overland
