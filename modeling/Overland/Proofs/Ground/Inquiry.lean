import Overland.Ground

/-!
# Questions to the ground, request by request

Whatever is asked about the ground comes down to two requests: the tile of a key, and the collision
surface near a point.  An `Inquiry` is a question written out as the requests that it makes one
after the other, each of which may depend on the answers to those before it.

* `Call` lists the questions that can be asked, `Call.ask` asks one, and `run_inquiry` says
  that asking it is the same as making the requests of `Call.inquiry`.
* `Inquiry.visits` is the record of the tiles that an inquiry asks for: the disk and the state it
  finds, the answer it gets and the state it leaves.

What holds of the two requests therefore holds of every question, by one induction on inquiries.
-/

namespace Overland.Ground

variable {σ α β : Type}

/-! ## Inquiries -/

/-- A question, written out as the requests that lead to its answer. -/
inductive Inquiry (α : Type) where
  /-- The answer is known. -/
  | done (answer : α)
  /-- The tile of a key is asked for. -/
  | ask (key : TileKey) (next : Except TileError Tile → Inquiry α)
  /-- The collision surface near a point is asked for. -/
  | probe (map : UInt32) (point : Position) (next : Single → Inquiry α)

namespace Inquiry

/-- One inquiry after the other. -/
def andThen : Inquiry α → (α → Inquiry β) → Inquiry β
  | done answer, rest => rest answer
  | ask key next, rest => ask key fun answer => (next answer).andThen rest
  | probe map point next, rest => probe map point fun answer => (next answer).andThen rest

instance : Monad Inquiry where
  pure := done
  bind := andThen

/-- The inquiry that asks for one tile and answers what it gets. -/
def askTile (key : TileKey) : Inquiry (Except TileError Tile) := ask key done

/-- The inquiry that asks for one collision surface and answers its height. -/
def askSurface (map : UInt32) (point : Position) : Inquiry Single := probe map point done

/-- Makes the requests of an inquiry, on a disk that stays as it is meanwhile. -/
def run (g : Ground σ) (disk : Disk) : Inquiry α → GroundM σ α
  | done answer => pure answer
  | ask key next => fun s =>
    let (answer, s) := g.tile disk key s
    (next answer).run g disk s
  | probe map point next => fun s =>
    let (answer, s) := askCollision (g.collision.surfaceNear map point) s
    (next answer).run g disk s

@[simp] theorem run_pure (g : Ground σ) (disk : Disk) (answer : α) :
    (pure answer : Inquiry α).run g disk = pure answer := rfl

@[simp] theorem run_askTile (g : Ground σ) (disk : Disk) (key : TileKey) :
    (askTile key).run g disk = g.tile disk key := rfl

@[simp] theorem run_askSurface (g : Ground σ) (disk : Disk) (map : UInt32) (point : Position) :
    (askSurface map point).run g disk = askCollision (g.collision.surfaceNear map point) := rfl

/-- One inquiry after the other makes the requests of both. -/
@[simp] theorem run_bind (g : Ground σ) (disk : Disk) (q : Inquiry α) (rest : α → Inquiry β) :
    (q >>= rest).run g disk = q.run g disk >>= fun answer => (rest answer).run g disk := by
  induction q with
  | done answer => rfl
  | ask key next ih =>
    funext s
    exact congrFun (ih (g.tile disk key s).1) (g.tile disk key s).2
  | probe map point next ih =>
    funext s
    exact congrFun (ih _) _

end Inquiry

/-! ## The questions -/

/-- The questions about the ground, each with the type of its answer. -/
inductive Call : Type → Type where
  | tileAt (map : UInt32) (x y : Int32) : Call (Except TileError Tile)
  | tileOver (map : UInt32) (x y : Single) : Call (Except TileError Tile)
  | loadTile (map : UInt32) (x y : Int32) : Call Bool
  | landHeight (map : UInt32) (x y : Single) : Call Single
  | height (map : UInt32) (p : Position) : Call Single
  | area (map : UInt32) (x y : Single) : Call (Option UInt16)
  | findArea (map : UInt32) (area : UInt16) : Call (Option Position)
  | liquid (map : UInt32) (p : Position) (mask : UInt8) : Call LiquidAnswer

/-- Asks a question. -/
def Call.ask (g : Ground σ) (disk : Disk) : Call α → GroundM σ α
  | .tileAt map x y => g.tileAt disk map x y
  | .tileOver map x y => g.tileOver disk map x y
  | .loadTile map x y => g.loadTile disk map x y
  | .landHeight map x y => g.landHeight disk map x y
  | .height map p => g.height disk map p
  | .area map x y => g.area? disk map x y
  | .findArea map wanted => g.findArea disk map wanted
  | .liquid map p mask => g.liquid disk map p mask

namespace Inquiry

/-- Asks for the tile at grid coordinates.  Off the map no request is made. -/
def tileAt (map : UInt32) (x y : Int32) : Inquiry (Except TileError Tile) :=
  match TileKey.of? map x y with
  | some key => askTile key
  | none => pure (.error (.offGrid x y))

/-- Asks for the tile over a point of the world. -/
def tileOver (map : UInt32) (x y : Single) : Inquiry (Except TileError Tile) :=
  tileAt map (gridIndex x) (gridIndex y)

/-- Asks for the height of the land alone. -/
def landHeight (map : UInt32) (x y : Single) : Inquiry Single := do
  match ← tileOver map x y with
  | .ok tile => return tile.heightAt x y
  | .error _ => return noHeight

/-- Asks for the land, then for the collision surface, and decides between them. -/
def height (map : UInt32) (p : Position) : Inquiry Single := do
  let land ← landHeight map p.x p.y
  let below := if land < p.z + Collision.probeLift then land else Collision.noSurface
  let collision ← askSurface map p
  return reconcile below collision p.z

/-- Asks for one tile after the other until one has the area. -/
def findAreaIn (area : UInt16) : List TileKey → Inquiry (Option (Single × Single))
  | [] => return none
  | key :: rest => do
    match ← askTile key with
    | .error _ => findAreaIn area rest
    | .ok tile =>
      match tile.area.find? area (UInt32.ofNat key.x) (UInt32.ofNat key.y) with
      | some centre => return some centre
      | none => findAreaIn area rest

/-- Asks for the tiles of a map up to the first with the area, then for the height there. -/
def findArea (map : UInt32) (area : UInt16) : Inquiry (Option Position) := do
  match ← findAreaIn area (TileKey.all map) with
  | none => return none
  | some (x, y) =>
    let z ← height map ⟨x, y, skyHeight⟩
    return some ⟨x, y, z⟩

end Inquiry

/-- The requests of a question. -/
def Call.inquiry : Call α → Inquiry α
  | .tileAt map x y => .tileAt map x y
  | .tileOver map x y => .tileOver map x y
  | .loadTile map x y => do
    match ← Inquiry.tileAt map x y with
    | .ok _ => return true
    | .error _ => return false
  | .landHeight map x y => .landHeight map x y
  | .height map p => .height map p
  | .area map x y => do
    match ← Inquiry.tileOver map x y with
    | .ok tile => return some (tile.areaAt x y)
    | .error _ => return none
  | .findArea map wanted => .findArea map wanted
  | .liquid map p mask => do
    match ← Inquiry.tileOver map p.x p.y with
    | .ok tile => return tile.liquidAt p.x p.y p.z mask
    | .error _ => return .dry

/-! ## Asking is making the requests -/

section Run

variable (g : Ground σ) (disk : Disk)

theorem run_tileAt (map : UInt32) (x y : Int32) :
    (Inquiry.tileAt map x y).run g disk = g.tileAt disk map x y := by
  unfold Inquiry.tileAt tileAt
  cases TileKey.of? map x y <;> rfl

theorem run_tileOver (map : UInt32) (x y : Single) :
    (Inquiry.tileOver map x y).run g disk = g.tileOver disk map x y :=
  run_tileAt g disk map (gridIndex x) (gridIndex y)

/-- What follows the tile over a point may be decided by cases, before or after the requests. -/
theorem run_bind_tile (q : Inquiry (Except TileError Tile)) (found : Tile → Inquiry α)
    (missing : TileError → Inquiry α) :
    (q >>= fun answer => match answer with
      | .ok tile => found tile
      | .error e => missing e).run g disk
      = q.run g disk >>= fun answer => match answer with
        | .ok tile => (found tile).run g disk
        | .error e => (missing e).run g disk := by
  rw [Inquiry.run_bind]
  congr 1
  funext answer
  cases answer <;> rfl

theorem run_landHeight (map : UInt32) (x y : Single) :
    (Inquiry.landHeight map x y).run g disk = g.landHeight disk map x y := by
  unfold Inquiry.landHeight landHeight
  rw [← run_tileOver]
  exact run_bind_tile g disk _ _ _

theorem run_height (map : UInt32) (p : Position) :
    (Inquiry.height map p).run g disk = g.height disk map p := by
  unfold Inquiry.height height
  rw [← run_landHeight]
  simp only [Inquiry.run_bind, Inquiry.run_askSurface, Inquiry.run_pure]

theorem run_findAreaIn (area : UInt16) (keys : List TileKey) :
    (Inquiry.findAreaIn area keys).run g disk = g.findAreaIn disk area keys := by
  induction keys with
  | nil => rfl
  | cons key rest ih =>
    unfold Inquiry.findAreaIn findAreaIn
    rw [Inquiry.run_bind]
    congr 1
    funext answer
    cases answer with
    | error e => exact ih
    | ok tile =>
      dsimp only
      cases tile.area.find? area (UInt32.ofNat key.x) (UInt32.ofNat key.y) with
      | some centre => rfl
      | none => exact ih

theorem run_findArea (map : UInt32) (area : UInt16) :
    (Inquiry.findArea map area).run g disk = g.findArea disk map area := by
  unfold Inquiry.findArea findArea
  rw [← run_findAreaIn, Inquiry.run_bind]
  congr 1
  funext found
  cases found with
  | none => rfl
  | some centre => simp only [Inquiry.run_bind, run_height, Inquiry.run_pure]

/-- **Asking a question is making its requests.** -/
theorem run_inquiry (call : Call α) : call.inquiry.run g disk = call.ask g disk := by
  cases call with
  | tileAt map x y => exact run_tileAt g disk map x y
  | tileOver map x y => exact run_tileOver g disk map x y
  | landHeight map x y => exact run_landHeight g disk map x y
  | height map p => exact run_height g disk map p
  | findArea map wanted => exact run_findArea g disk map wanted
  | loadTile map x y =>
    simp only [Call.inquiry, Call.ask, loadTile, ← run_tileAt]
    exact run_bind_tile g disk _ _ _
  | area map x y =>
    simp only [Call.inquiry, Call.ask, area?, ← run_tileOver]
    exact run_bind_tile g disk _ _ _
  | liquid map p mask =>
    simp only [Call.inquiry, Call.ask, liquid, ← run_tileOver]
    exact run_bind_tile g disk _ _ _

end Run

end Overland.Ground
