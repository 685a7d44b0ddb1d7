import Overland.Proofs.Ground.Visits

/-!
# Questions over files that stay the same

On a disk that does not change, a visit to a tile answers the same whenever it is made: what is in
the slot, or what the file says (`look`), and no visit changes that (`look_tile`).  If the collision
library answers each probe as before as well, the whole ground is a fixed function of the question:

* `Inquiry.evaluate` reads off the answer of an inquiry from fixed answers to its requests;
* `evaluate_run`, `look_run`, `answers_run` — this is what the inquiry answers in a state, and it
  leaves a state in which visits and probes answer as before;
* `run_evaluate` says the same of a library that has one answer to each probe;
* `heightOver` is what comes out for the height of the ground.
-/

namespace Overland

variable {σ α β : Type}

namespace Collision

/-- The library has one answer to each probe, whatever it has been asked before. -/
def Fixed (c : Collision σ) (surface : UInt32 → Position → Single → Single) : Prop :=
  ∀ map point reach s, (c.probe map point reach s).1 = surface map point reach

/-- What the library answers to probes in a state. -/
def answers (c : Collision σ) (s : σ) (map : UInt32) (point : Position) (reach : Single) : Single :=
  (c.probe map point reach s).1

/-- The library answers probes as before after it has loaded a tile, and after it was probed. -/
structure Unmoved (c : Collision σ) : Prop where
  load : ∀ key s, c.answers (c.loadTile key s).2 = c.answers s
  probe : ∀ map point reach s, c.answers (c.probe map point reach s).2 = c.answers s

theorem Fixed.answers_eq {c : Collision σ} {surface : UInt32 → Position → Single → Single}
    (h : c.Fixed surface) (s : σ) : c.answers s = surface := by
  funext map point reach
  exact h map point reach s

theorem Fixed.unmoved {c : Collision σ} {surface : UInt32 → Position → Single → Single}
    (h : c.Fixed surface) : c.Unmoved where
  load _ _ := by rw [h.answers_eq, h.answers_eq]
  probe _ _ _ _ := by rw [h.answers_eq, h.answers_eq]

end Collision

namespace Ground

/-! ## Tiles -/

/-- What a visit to a tile answers: what is in its slot, or else what its file says. -/
def look (g : Ground σ) (disk : Disk) (s : GroundState σ) (key : TileKey) :
    Except TileError Tile :=
  match s.tiles.slots[key.slot]? with
  | some content => TileCache.answer key content
  | none => decoded g.tileFolder disk key

theorem tile_answer (g : Ground σ) (disk : Disk) (key : TileKey) (s : GroundState σ) :
    (g.tile disk key s).1 = g.look disk s key := by
  unfold look
  rcases g.tile_cases disk key s with ⟨content, hslot, h⟩ | ⟨content, hslot, hdecoded, h⟩
    | ⟨hslot, -, h⟩
  · rw [h, hslot]
  · rw [h, hslot, hdecoded]
  · rw [h, hslot]

/-- A visit changes nothing about what visits answer. -/
theorem look_tile (g : Ground σ) (disk : Disk) (key : TileKey) (s : GroundState σ) :
    g.look disk (g.tile disk key s).2 = g.look disk s := by
  funext other
  rcases g.tile_cases disk key s with ⟨content, hslot, h⟩ | ⟨content, hslot, hdecoded, h⟩
    | ⟨hslot, -, h⟩
  · rw [h]
  · rw [h]
    by_cases hkey : key = other
    · subst hkey
      simp [look, hslot, hdecoded]
    · simp [look, Std.HashMap.getElem?_insert, hkey]
  · rw [h]
    rfl

/-! ## Inquiries -/

/-- The land as it counts for a probe from a height: land above the probe is no surface. -/
def landBelow (land probe : Single) : Single :=
  if land < probe then land else Collision.noSurface

/-- The answer of an inquiry over fixed answers to its requests. -/
def Inquiry.evaluate (tiles : TileKey → Except TileError Tile)
    (surface : UInt32 → Position → Single → Single) : Inquiry α → α
  | .done answer => answer
  | .ask key next => (next (tiles key)).evaluate tiles surface
  | .probe map point next =>
    (next (surface map { point with z := point.z + Collision.probeLift }
      Collision.probeReach)).evaluate tiles surface

section Evaluate

variable (tiles : TileKey → Except TileError Tile)
  (surface : UInt32 → Position → Single → Single)

@[simp] theorem Inquiry.evaluate_pure (answer : α) :
    (pure answer : Inquiry α).evaluate tiles surface = answer := rfl

@[simp] theorem Inquiry.evaluate_bind (q : Inquiry α) (rest : α → Inquiry β) :
    (q >>= rest).evaluate tiles surface
      = (rest (q.evaluate tiles surface)).evaluate tiles surface := by
  induction q with
  | done answer => rfl
  | ask key next ih => exact ih (tiles key)
  | probe map point next ih => exact ih _

/-- The height of the land over fixed tiles. -/
def landOver (map : UInt32) (x y : Single) : Single :=
  match (TileKey.of? map (gridIndex x) (gridIndex y)).map tiles with
  | some (.ok tile) => tile.heightAt x y
  | _ => noHeight

/-- The height of the ground over fixed tiles and surfaces. -/
def heightOver (map : UInt32) (p : Position) : Single :=
  reconcile (landBelow (landOver tiles map p.x p.y) (p.z + Collision.probeLift))
    (surface map { p with z := p.z + Collision.probeLift } Collision.probeReach) p.z

theorem Inquiry.evaluate_landHeight (map : UInt32) (x y : Single) :
    (Inquiry.landHeight map x y).evaluate tiles surface = landOver tiles map x y := by
  unfold Inquiry.landHeight landOver Inquiry.tileOver Inquiry.tileAt
  rw [evaluate_bind]
  generalize TileKey.of? map (gridIndex x) (gridIndex y) = found
  cases found with
  | none => simp only [evaluate_pure, Option.map_none]
  | some key =>
    simp only [askTile, evaluate, Option.map_some]
    cases tiles key <;> simp only [evaluate_pure]

theorem Inquiry.evaluate_height (map : UInt32) (p : Position) :
    (Inquiry.height map p).evaluate tiles surface = heightOver tiles surface map p := by
  rw [Inquiry.height, evaluate_bind, evaluate_landHeight]
  rfl

end Evaluate

/-- No inquiry changes anything about what visits answer. -/
theorem look_run (g : Ground σ) (disk : Disk) (q : Inquiry α) (s : GroundState σ) :
    g.look disk (q.run g disk s).2 = g.look disk s := by
  induction q generalizing s with
  | done answer => rfl
  | ask key next ih => exact (ih _ _).trans (g.look_tile disk key s)
  | probe map point next ih =>
    -- the collision library is asked without a look at the tiles
    let asked := g.collision.surfaceNear map point s.collision
    exact ih asked.1 ⟨s.tiles, asked.2⟩

/-- A visit changes nothing about what probes answer. -/
theorem answers_tile {g : Ground σ} (h : g.collision.Unmoved) (disk : Disk) (key : TileKey)
    (s : GroundState σ) :
    g.collision.answers (g.tile disk key s).2.collision = g.collision.answers s.collision := by
  rcases g.tile_cases disk key s with ⟨_, _, hv⟩ | ⟨_, _, _, hv⟩ | ⟨_, _, hv⟩
  · rw [hv]
  · rw [hv]
    exact h.load key s.collision
  · rw [hv]

/-- No inquiry changes anything about what probes answer. -/
theorem answers_run {g : Ground σ} (h : g.collision.Unmoved) (disk : Disk) (q : Inquiry α)
    (s : GroundState σ) :
    g.collision.answers (q.run g disk s).2.collision = g.collision.answers s.collision := by
  induction q generalizing s with
  | done answer => rfl
  | ask key next ih => exact (ih _ _).trans (answers_tile h disk key s)
  | probe map point next ih =>
    let asked := g.collision.surfaceNear map point s.collision
    exact (ih asked.1 ⟨s.tiles, asked.2⟩).trans (h.probe map _ _ s.collision)

/-- **Over files that stay the same an inquiry answers as visits and probes do at its start.** -/
theorem evaluate_run {g : Ground σ} (h : g.collision.Unmoved) (disk : Disk) (q : Inquiry α)
    (s : GroundState σ) :
    (q.run g disk s).1 = q.evaluate (g.look disk s) (g.collision.answers s.collision) := by
  induction q generalizing s with
  | done answer => rfl
  | ask key next ih =>
    have hanswer := ih (g.tile disk key s).1 (g.tile disk key s).2
    rw [g.look_tile, answers_tile h] at hanswer
    rw [Inquiry.evaluate, ← tile_answer]
    exact hanswer
  | probe map point next ih =>
    let asked := g.collision.surfaceNear map point s.collision
    have hanswer := ih asked.1 ⟨s.tiles, asked.2⟩
    have hasked : g.collision.answers asked.2 = g.collision.answers s.collision :=
      h.probe map _ _ s.collision
    rw [hasked] at hanswer
    exact hanswer

/-- **Over files that stay the same an inquiry has one answer.** -/
theorem run_evaluate {g : Ground σ} {surface : UInt32 → Position → Single → Single}
    (hfixed : g.collision.Fixed surface) (disk : Disk) (q : Inquiry α) (s : GroundState σ) :
    (q.run g disk s).1 = q.evaluate (g.look disk s) surface := by
  rw [evaluate_run hfixed.unmoved, hfixed.answers_eq]

/-- The height of the ground over files that stay the same. -/
theorem height_eq {g : Ground σ} {surface : UInt32 → Position → Single → Single}
    (hfixed : g.collision.Fixed surface) (disk : Disk) (map : UInt32) (p : Position)
    (s : GroundState σ) :
    (g.height disk map p s).1 = heightOver (g.look disk s) surface map p ∧
      g.look disk (g.height disk map p s).2 = g.look disk s := by
  rw [← run_height, ← Inquiry.evaluate_height]
  exact ⟨run_evaluate hfixed disk _ s, g.look_run disk _ s⟩

/-- Loading a tile changes nothing about what visits answer. -/
theorem look_loadTile (g : Ground σ) (disk : Disk) (map : UInt32) (x y : Int32)
    (s : GroundState σ) : g.look disk (g.loadTile disk map x y s).2 = g.look disk s := by
  have hrun := g.run_inquiry disk (.loadTile map x y)
  rw [Call.ask] at hrun
  rw [← hrun]
  exact g.look_run disk _ s

end Ground

end Overland
