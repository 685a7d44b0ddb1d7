import Overland.Proofs.Ground.Inquiry

/-!
# What becomes of a slot over a whole history

A history is a list of questions to the ground, each asked of the disk as it is at that moment, so
files may be written and removed at will between two of them.  `record` is the list of all visits to
tiles that the questions of a history make, in order.

* `tile_cases` says once what a visit can do: find the slot filled, fill it, or fail to read the
  file and leave it empty.
* `Linked` says that each visit finds the tiles as the one before it left them; `linked_record` is
  the run lemma, and the two invariants over a linked list are that a filled slot stays as it is
  (`Linked.slot_of_filled`) and that a slot is empty as long as its file was never read
  (`Linked.slot_of_unread`).
* `slot_stable` puts them together: the first visit that can tell what a tile is decides every later
  one, and until then each visit reads the file as it is at that moment.
-/

namespace Overland.Ground

variable {σ α : Type}

/-! ## Visits -/

/-- A request for a tile: the disk and the state that it finds, its answer and the state that it
leaves. -/
structure Visit (σ : Type) where
  disk : Disk
  key : TileKey
  before : GroundState σ
  answer : Except TileError Tile
  after : GroundState σ

/-- The visit of a tile in a given state. -/
def visit (g : Ground σ) (disk : Disk) (key : TileKey) (s : GroundState σ) : Visit σ :=
  ⟨disk, key, s, (g.tile disk key s).1, (g.tile disk key s).2⟩

/-- The visits that an inquiry makes, one after the other. -/
def Inquiry.visits (g : Ground σ) (disk : Disk) : Inquiry α → GroundState σ → List (Visit σ)
  | .done _, _ => []
  | .ask key next, s =>
    g.visit disk key s :: (next (g.tile disk key s).1).visits g disk (g.tile disk key s).2
  | .probe map point next, s =>
    let (height, s) := askCollision (g.collision.surfaceNear map point) s
    (next height).visits g disk s

/-- A question, and the disk at the moment when it is asked. -/
structure Moment where
  disk : Disk
  {α : Type}
  call : Call α

/-- The visits that the questions of a history make, one after the other. -/
def record (g : Ground σ) : List Moment → GroundState σ → List (Visit σ)
  | [], _ => []
  | m :: history, s =>
    m.call.inquiry.visits g m.disk s ++ g.record history (m.call.ask g m.disk s).2

/-- The state that the questions of a history lead to, one after the other. -/
def reached (g : Ground σ) : List Moment → GroundState σ → GroundState σ
  | [], s => s
  | m :: history, s => g.reached history (m.call.ask g m.disk s).2

/-- The file of the tile could not be read, which tells nothing about the tile. -/
def Unread (answer : Except TileError Tile) : Prop :=
  ∃ path fault, answer = .error (.unreadable path fault)

/-- The tile of a key as its file says: what the decoder makes of it, or its fault.  A missing file
is a blank tile, and so is every tile if no folder is configured. -/
def decoded (folder : Option String) (disk : Disk) (key : TileKey) : Except TileError Tile :=
  match folder with
  | none => .ok .blank
  | some folder =>
    match disk (TileCache.path folder key) with
    | .ok bytes => (Tile.decode bytes).mapError (.unusable key)
    | .error .notFound => .ok .blank
    | .error fault => .error (.unreadable (TileCache.path folder key) fault)

/-! ## What a visit does -/

/-- What one try to load a tile comes to is what its file says. -/
theorem decoded_eq (folder : Option String) (disk : Disk) (key : TileKey) :
    decoded folder disk key = match TileCache.attempt folder disk key with
      | .ok content => TileCache.answer key content
      | .error fault => .error (.unreadable (TileCache.path (folder.getD "") key) fault) := by
  cases folder with
  | none => rfl
  | some folder =>
    simp only [decoded, TileCache.attempt, Tile.contentAt, Option.getD_some]
    cases disk (TileCache.path folder key) with
    | ok bytes => rfl
    | error fault => cases fault <;> rfl

theorem not_unread_answer (key : TileKey) (content : TileContent) :
    ¬ Unread (TileCache.answer key content) := by
  rintro ⟨path, fault, h⟩
  cases content <;> cases h

/-- **What a visit does.**  It finds the slot filled and changes nothing, or it finds the slot empty
and reads the file: then it fills the slot and has the collision geometry loaded, or the file cannot
be read and the slot stays empty. -/
theorem tile_cases (g : Ground σ) (disk : Disk) (key : TileKey) (s : GroundState σ) :
    (∃ content, s.tiles.slots[key.slot]? = some content ∧
      g.tile disk key s = (TileCache.answer key content, s)) ∨
    (∃ content, s.tiles.slots[key.slot]? = none ∧
      decoded g.tileFolder disk key = TileCache.answer key content ∧
      g.tile disk key s = (TileCache.answer key content,
        ⟨⟨s.tiles.slots.insert key.slot content, s.tiles.loads + 1⟩,
          (g.collision.loadTile key s.collision).2⟩)) ∨
    (s.tiles.slots[key.slot]? = none ∧ Unread (decoded g.tileFolder disk key) ∧
      g.tile disk key s = (decoded g.tileFolder disk key,
        ⟨⟨s.tiles.slots, s.tiles.loads + 1⟩, s.collision⟩)) := by
  cases hslot : s.tiles.slots[key.slot]? with
  | some content =>
    refine .inl ⟨content, rfl, ?_⟩
    simp [tile, TileCache.access_of_filled hslot]
  | none =>
    have hdecoded := decoded_eq g.tileFolder disk key
    cases hload : TileCache.attempt g.tileFolder disk key with
    | ok content =>
      rw [hload] at hdecoded
      refine .inr (.inl ⟨content, rfl, hdecoded, ?_⟩)
      simp [tile, TileCache.access, hslot, hload]
    | error fault =>
      rw [hload] at hdecoded
      refine .inr (.inr ⟨rfl, ⟨_, fault, hdecoded⟩, ?_⟩)
      simp [tile, TileCache.access, hslot, hload, hdecoded]

/-! ## Linked visits -/

/-- Visits that follow each other: each finds the tiles as the one before it left them.  Between two
of them only the collision library may have been asked. -/
inductive Linked (g : Ground σ) : TileCache → List (Visit σ) → TileCache → Prop
  | nil (c : TileCache) : Linked g c [] c
  | cons (disk : Disk) (key : TileKey) (s : GroundState σ) {vs : List (Visit σ)} {c : TileCache} :
      Linked g (g.visit disk key s).after.tiles vs c →
      Linked g s.tiles (g.visit disk key s :: vs) c

namespace Linked

variable {g : Ground σ} {c d e : TileCache} {vs ws : List (Visit σ)}

theorem append (h : Linked g c vs d) (h' : Linked g d ws e) : Linked g c (vs ++ ws) e := by
  induction h with
  | nil c => exact h'
  | cons disk key s _ ih => exact .cons disk key s (ih h')

/-- The visits before and from any place in a linked list are linked themselves. -/
theorem of_append (h : Linked g c (vs ++ ws) e) : ∃ d, Linked g c vs d ∧ Linked g d ws e := by
  induction vs generalizing c with
  | nil => exact ⟨c, .nil c, h⟩
  | cons v vs ih =>
    cases h with
    | cons disk key s hrest =>
      obtain ⟨d, hvs, hws⟩ := ih hrest
      exact ⟨d, .cons disk key s hvs, hws⟩

/-- A filled slot stays as it is. -/
theorem slot_of_filled (h : Linked g c vs d) {key : TileKey} {content : TileContent}
    (hc : c.slots[key.slot]? = some content) : d.slots[key.slot]? = some content := by
  induction h with
  | nil c => exact hc
  | cons disk k s _ ih =>
    apply ih
    rcases g.tile_cases disk k s with ⟨_, _, h⟩ | ⟨_, hk, _, h⟩ | ⟨_, _, h⟩
    · simpa [visit, h] using hc
    · -- only an empty slot is filled, so the key is another one
      have hne : k ≠ key := by
        rintro rfl
        rw [hk] at hc
        cases hc
      simpa [visit, h, Std.HashMap.getElem?_insert, hne] using hc
    · simpa [visit, h] using hc

/-- Every visit to a filled slot answers from the slot and changes nothing. -/
theorem visit_of_filled (h : Linked g c vs d) {v : Visit σ} (hv : v ∈ vs) {content : TileContent}
    (hc : c.slots[v.key.slot]? = some content) :
    v.answer = TileCache.answer v.key content ∧ v.after = v.before := by
  induction h with
  | nil c => simp at hv
  | cons disk key s hrest ih =>
    rcases List.mem_cons.1 hv with rfl | hv
    · rcases g.tile_cases disk key s with ⟨found, hk, h⟩ | ⟨_, hk, -⟩ | ⟨hk, -⟩
      · have hsame : found = content := by
          simpa [visit, hk] using hc
        simp [visit, h, hsame]
      · simp [visit, hk] at hc
      · simp [visit, hk] at hc
    · exact ih hv (slot_of_filled (.cons disk key s (.nil _)) hc)

/-- A slot stays empty as long as its file cannot be read. -/
theorem slot_of_unread (h : Linked g c vs d) {key : TileKey} (hc : c.slots[key.slot]? = none)
    (hvs : ∀ v ∈ vs, v.key = key → Unread v.answer) : d.slots[key.slot]? = none := by
  induction h with
  | nil c => exact hc
  | cons disk k s _ ih =>
    refine ih ?_ fun v hv => hvs v (List.mem_cons_of_mem _ hv)
    rcases g.tile_cases disk k s with ⟨_, _, h⟩ | ⟨content, _, _, h⟩ | ⟨_, _, h⟩
    · simpa [visit, h] using hc
    · -- this visit fills a slot, which for the key would be an answer
      have hne : k ≠ key := by
        intro hk
        have hunread := hvs _ List.mem_cons_self hk
        simp only [visit, h] at hunread
        exact not_unread_answer k content hunread
      simpa [visit, h, Std.HashMap.getElem?_insert, hne] using hc
    · simpa [visit, h] using hc

end Linked

/-- The visits of an inquiry lead from the tiles it finds to the tiles it leaves. -/
theorem Inquiry.linked_visits (g : Ground σ) (disk : Disk) (q : Inquiry α) (s : GroundState σ) :
    Linked g s.tiles (q.visits g disk s) (q.run g disk s).2.tiles := by
  induction q generalizing s with
  | done answer => exact .nil s.tiles
  | ask key next ih => exact .cons disk key s (ih _ _)
  | probe map point next ih =>
    -- the collision library is asked without a look at the tiles
    let asked := g.collision.surfaceNear map point s.collision
    exact ih asked.1 ⟨s.tiles, asked.2⟩

/-- The visits of a history follow each other. -/
theorem linked_record (g : Ground σ) (history : List Moment) (s : GroundState σ) :
    ∃ c, Linked g s.tiles (g.record history s) c := by
  induction history generalizing s with
  | nil => exact ⟨s.tiles, .nil _⟩
  | cons m history ih =>
    obtain ⟨c, hc⟩ := ih (m.call.ask g m.disk s).2
    have hm := m.call.inquiry.linked_visits g m.disk s
    rw [run_inquiry] at hm
    exact ⟨c, hm.append hc⟩

/-! ## Whole histories -/

/-- A visit to an empty slot answers what the file says at that moment, and counts as a load. -/
theorem visit_of_empty (g : Ground σ) (disk : Disk) (key : TileKey) (s : GroundState σ)
    (h : s.tiles.slots[key.slot]? = none) :
    (g.tile disk key s).1 = decoded g.tileFolder disk key ∧
      (g.tile disk key s).2.tiles.loads = s.tiles.loads + 1 := by
  rcases g.tile_cases disk key s with ⟨_, hk, -⟩ | ⟨_, _, hdecoded, hv⟩ | ⟨_, _, hv⟩
  · rw [h] at hk; cases hk
  · rw [hv]; exact ⟨hdecoded.symm, rfl⟩
  · rw [hv]; exact ⟨rfl, rfl⟩

/-- A visit that could tell what its tile is leaves the slot filled with just that. -/
theorem filled_of_visit (g : Ground σ) (disk : Disk) (key : TileKey) (s : GroundState σ)
    (h : ¬ Unread (g.tile disk key s).1) :
    ∃ content, (g.tile disk key s).2.tiles.slots[key.slot]? = some content ∧
      (g.tile disk key s).1 = TileCache.answer key content := by
  rcases g.tile_cases disk key s with ⟨content, hk, hv⟩ | ⟨content, _, _, hv⟩ | ⟨_, hunread, hv⟩
  · exact ⟨content, by rw [hv]; exact hk, by rw [hv]⟩
  · exact ⟨content, by simp [hv], by rw [hv]⟩
  · rw [hv] at h; exact absurd hunread h

/-- In a linked list, a visit that could tell what its tile is decides all later ones. -/
theorem Linked.pairwise {g : Ground σ} {c d : TileCache} {vs : List (Visit σ)}
    (h : Linked g c vs d) :
    vs.Pairwise fun earlier later => earlier.key = later.key → ¬ Unread earlier.answer →
      later.answer = earlier.answer ∧ later.after = later.before := by
  induction h with
  | nil c => exact List.Pairwise.nil
  | cons disk key s hrest ih =>
    refine List.pairwise_cons.2 ⟨?_, ih⟩
    intro later hlater hkey hread
    obtain ⟨content, hslot, hanswer⟩ := g.filled_of_visit disk key s hread
    obtain ⟨h, hsame⟩ := hrest.visit_of_filled hlater (by rw [← hkey]; exact hslot)
    refine ⟨?_, hsame⟩
    rw [h, ← hkey]
    exact hanswer.symm

/-- **A slot is decided once.**  Take any history of questions, over any changes of the files, from
the start.  Once a visit to a tile has answered anything but that its file cannot be read, every
later visit to that tile gives the same answer and leaves the whole state as it finds it: nothing is
loaded and no collision geometry is asked for.  And as long as all visits to a tile could not read
its file, the next one reads the file again and answers what it says at that moment. -/
theorem slot_stable (g : Ground σ) (start : σ) (history : List Moment) :
    ((g.record history ⟨.empty, start⟩).Pairwise fun earlier later =>
      earlier.key = later.key → ¬ Unread earlier.answer →
        later.answer = earlier.answer ∧ later.after = later.before) ∧
    (∀ earlier v later, g.record history ⟨.empty, start⟩ = earlier ++ v :: later →
      (∀ w ∈ earlier, w.key = v.key → Unread w.answer) →
        v.answer = decoded g.tileFolder v.disk v.key ∧
          v.after.tiles.loads = v.before.tiles.loads + 1) := by
  obtain ⟨c, hlinked⟩ := g.linked_record history ⟨.empty, start⟩
  refine ⟨hlinked.pairwise, ?_⟩
  intro earlier v later heq hunread
  rw [heq] at hlinked
  obtain ⟨d, hearlier, hrest⟩ := hlinked.of_append
  cases hrest with
  | cons disk key s _ =>
    have hempty : s.tiles.slots[key.slot]? = none :=
      hearlier.slot_of_unread (by simp [TileCache.empty]) hunread
    exact g.visit_of_empty disk key s hempty

end Overland.Ground
