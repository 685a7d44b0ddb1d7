import Overland.Proofs.Ground.Steady

/-!
# The tile cache does not show

Over files that stay the same, nobody who asks about the ground can tell that tiles are kept: every
question is answered as if each tile it needs were decoded from its file there and then.

* `Call.direct` is what a question comes to over given tiles, such as those that are `decoded` there
  and then.
* `evaluate_inquiry` — the requests of a question, answered by fixed tiles and surfaces, lead to
  that answer; `look_reached` — a history of questions changes nothing about what visits answer.
* `ask_direct` puts them together: after any history a question is answered as at the start, and
  that is its direct answer, errors included.
-/

namespace Overland.Ground

variable {σ α : Type}

/-! ## Answers over given tiles -/

section Direct

variable (tiles : TileKey → Except TileError Tile)
  (surface : UInt32 → Position → Single → Single)

/-- The tile at grid coordinates, which may be off the map. -/
def tileOn (map : UInt32) (x y : Int32) : Except TileError Tile :=
  match TileKey.of? map x y with
  | some key => tiles key
  | none => .error (.offGrid x y)

/-- The centre of the first cell with an area on a map.  Tiles that cannot be had are left out. -/
def centreOf (map : UInt32) (area : UInt16) : Option (Single × Single) :=
  (TileKey.all map).findSome? fun key =>
    match tiles key with
    | .ok tile => tile.area.find? area (UInt32.ofNat key.x) (UInt32.ofNat key.y)
    | .error _ => none

/-- The answer of a question over given tiles and surfaces. -/
def Call.direct : Call α → α
  | .tileAt map x y => tileOn tiles map x y
  | .tileOver map x y => tileOn tiles map (gridIndex x) (gridIndex y)
  | .loadTile map x y =>
    match tileOn tiles map x y with
    | .ok _ => true
    | .error _ => false
  | .landHeight map x y => landOver tiles map x y
  | .height map p => heightOver tiles surface map p
  | .area map x y =>
    match tileOn tiles map (gridIndex x) (gridIndex y) with
    | .ok tile => some (tile.areaAt x y)
    | .error _ => none
  | .findArea map wanted =>
    (centreOf tiles map wanted).map fun (x, y) =>
      ⟨x, y, heightOver tiles surface map ⟨x, y, skyHeight⟩⟩
  | .liquid map p mask =>
    match tileOn tiles map (gridIndex p.x) (gridIndex p.y) with
    | .ok tile => tile.liquidAt p.x p.y p.z mask
    | .error _ => .dry

/-! ## The requests of a question lead to its direct answer -/

theorem evaluate_tileAt (map : UInt32) (x y : Int32) :
    (Inquiry.tileAt map x y).evaluate tiles surface = tileOn tiles map x y := by
  unfold Inquiry.tileAt tileOn
  cases TileKey.of? map x y <;> rfl

theorem evaluate_findAreaIn (area : UInt16) (keys : List TileKey) :
    (Inquiry.findAreaIn area keys).evaluate tiles surface
      = keys.findSome? fun key =>
          match tiles key with
          | .ok tile => tile.area.find? area (UInt32.ofNat key.x) (UInt32.ofNat key.y)
          | .error _ => none := by
  induction keys with
  | nil => rfl
  | cons key rest ih =>
    rw [Inquiry.findAreaIn, Inquiry.evaluate_bind, List.findSome?_cons]
    simp only [Inquiry.askTile, Inquiry.evaluate]
    cases tiles key with
    | error e => exact ih
    | ok tile =>
      dsimp only
      cases tile.area.find? area (UInt32.ofNat key.x) (UInt32.ofNat key.y) with
      | some centre => rfl
      | none => exact ih

theorem evaluate_findArea (map : UInt32) (area : UInt16) :
    (Inquiry.findArea map area).evaluate tiles surface
      = (centreOf tiles map area).map fun (x, y) =>
          ⟨x, y, heightOver tiles surface map ⟨x, y, skyHeight⟩⟩ := by
  unfold Inquiry.findArea
  rw [Inquiry.evaluate_bind, evaluate_findAreaIn, ← centreOf]
  cases centreOf tiles map area with
  | none => rfl
  | some centre =>
    simp only [Inquiry.evaluate_bind, Inquiry.evaluate_height, Inquiry.evaluate_pure]
    rfl

/-- What follows the tile at grid coordinates is decided by what is there. -/
theorem evaluate_bind_tile (map : UInt32) (x y : Int32) (found : Tile → α) (missing : α) :
    (Inquiry.tileAt map x y >>= fun answer => match answer with
      | .ok tile => pure (found tile)
      | .error _ => pure missing).evaluate tiles surface
      = match tileOn tiles map x y with
        | .ok tile => found tile
        | .error _ => missing := by
  rw [Inquiry.evaluate_bind, evaluate_tileAt]
  cases tileOn tiles map x y <;> rfl

/-- **The requests of a question lead to its direct answer.** -/
theorem evaluate_inquiry (call : Call α) :
    call.inquiry.evaluate tiles surface = call.direct tiles surface := by
  cases call with
  | tileAt map x y => exact evaluate_tileAt tiles surface map x y
  | tileOver map x y => exact evaluate_tileAt tiles surface map (gridIndex x) (gridIndex y)
  | loadTile map x y => exact evaluate_bind_tile tiles surface map x y (fun _ => true) false
  | landHeight map x y => exact Inquiry.evaluate_landHeight tiles surface map x y
  | height map p => exact Inquiry.evaluate_height tiles surface map p
  | area map x y =>
    exact evaluate_bind_tile tiles surface map (gridIndex x) (gridIndex y)
      (fun tile => some (tile.areaAt x y)) none
  | findArea map wanted => exact evaluate_findArea tiles surface map wanted
  | liquid map p mask =>
    exact evaluate_bind_tile tiles surface map (gridIndex p.x) (gridIndex p.y)
      (fun tile => tile.liquidAt p.x p.y p.z mask) .dry

end Direct

/-! ## Histories -/

section Histories

variable {g : Ground σ} {disk : Disk} {history : List Moment}

/-- Over files that stay the same, a history changes nothing about what visits answer. -/
theorem look_reached (hdisk : ∀ m ∈ history, m.disk = disk) (s : GroundState σ) :
    g.look disk (g.reached history s) = g.look disk s := by
  induction history generalizing s with
  | nil => rfl
  | cons m history ih =>
    obtain ⟨hm, hrest⟩ := List.forall_mem_cons.1 hdisk
    rw [reached, ih hrest, hm, ← run_inquiry, look_run]

/-- A history changes nothing about what probes answer. -/
theorem answers_reached (h : g.collision.Unmoved) (history : List Moment) (s : GroundState σ) :
    g.collision.answers (g.reached history s).collision = g.collision.answers s.collision := by
  induction history generalizing s with
  | nil => rfl
  | cons m history ih => rw [reached, ih, ← run_inquiry, answers_run h]

/-- At the start a visit answers what the file says. -/
theorem look_start (g : Ground σ) (disk : Disk) (start : σ) :
    g.look disk ⟨.empty, start⟩ = decoded g.tileFolder disk := by
  funext key
  simp [look, TileCache.empty]

/-- **The cache does not show.**  Over files that stay the same, and a collision library whose
answers do not depend on what it has loaded or was probed for, every question after any history of
questions is answered as at the start.  The answer is the direct one, over tiles that are decoded
from their files: the value, or that the grid coordinates are off the map, that the file cannot be
read, or that it is no tile, with the fault that the decoder finds in it. -/
theorem ask_direct (hlibrary : g.collision.Unmoved) (hdisk : ∀ m ∈ history, m.disk = disk)
    (start : σ) (call : Call α) :
    (call.ask g disk (g.reached history ⟨.empty, start⟩)).1
        = (call.ask g disk ⟨.empty, start⟩).1 ∧
      (call.ask g disk ⟨.empty, start⟩).1
        = call.direct (decoded g.tileFolder disk) (g.collision.answers start) := by
  have hanswer (s : GroundState σ) : (call.ask g disk s).1
      = call.inquiry.evaluate (g.look disk s) (g.collision.answers s.collision) := by
    rw [← run_inquiry]
    exact evaluate_run hlibrary disk _ s
  rw [hanswer, hanswer, look_reached hdisk, answers_reached hlibrary]
  refine ⟨rfl, ?_⟩
  rw [look_start, evaluate_inquiry]

end Histories

/-- A collision library that counts the tiles it loads, over level ground. -/
def counting : Collision Nat where
  loadTile _ := modify (· + 1)
  probe _ _ _ := return 12

theorem counting_unmoved : counting.Unmoved where
  load _ _ := rfl
  probe _ _ _ _ := rfl

/-- Ground whose tile files are looked up in a folder. -/
def levelGround : Ground Nat := ⟨some "maps", counting⟩

/-- A disk on which every file is empty. -/
def emptyFiles : Disk := fun _ => .ok #[]

/-- A tile is loaded, and asked for its area and for itself. -/
def threeQuestions : List Moment :=
  [⟨emptyFiles, .loadTile 0 31 32⟩, ⟨emptyFiles, .area 0 10 (-20)⟩, ⟨emptyFiles, .tileAt 0 31 32⟩]

/-- An empty file is no tile, and is reported as such however often it has been asked for. -/
theorem ask_direct_emptyFiles :
    ((Call.tileAt 0 31 32).ask levelGround emptyFiles
      (levelGround.reached threeQuestions ⟨.empty, 0⟩)).1
      = .error (.unusable ⟨0, 31, 32⟩ (.truncated .header (.pastEnd 4 0 0))) := by
  have hdisk : ∀ m ∈ threeQuestions, m.disk = emptyFiles := by simp [threeQuestions]
  obtain ⟨hsame, hdirect⟩ :=
    ask_direct (g := levelGround) counting_unmoved hdisk 0 (.tileAt 0 31 32)
  rw [hsame, hdirect]
  rfl

end Overland.Ground
