import Overland.Proofs.Tile.Checked
import Overland.Proofs.Tile.RoundTrip

/-!
# Tiles that come out of files

Whatever a file holds, the tile that is read from it has rows of the right lengths: each row is read
with the count that its flags call for, and no row is read without the other rows of its block.  So
no question to a tile that was read from a file can go wrong, wherever it is asked.

* `wellFormed_area`, `wellFormed_height`, `wellFormed_liquid` — the fields that the layout names in
  a file make a well-formed layer, and `stored_wellFormed` — together they make a well-formed tile;
* `sound_of_decode` — a tile that is read is well-formed, and safe to ask.
-/

namespace Overland

namespace Tile

/-! ## Sections -/

/-- The content of a block that is there only if a flag says so. -/
theorem eq_of_optional {α : Type} {flag : Prop} [Decidable flag] {read content : α}
    (h : (if flag then some read else none) = some content) : read = content := by
  split at h
  · exact Option.some.inj h
  · cases h

/-- A stored area layer alone makes a well-formed tile. -/
theorem wellFormed_area (bytes : Bytes) (place : Nat) :
    WellFormed ⟨AreaLayer.storedAt bytes place, .absent, .absent⟩ where
  area cells h := by
    rw [← eq_of_optional h, Bytes.size_scalars]
  surface := blank_wellFormed.surface
  flightBounds := blank_wellFormed.flightBounds
  liquidCells := blank_wellFormed.liquidCells
  liquidLevels := blank_wellFormed.liquidLevels

/-- A stored height layer alone makes a well-formed tile, in any mode of its samples. -/
theorem wellFormed_height (bytes : Bytes) (place : Nat) :
    WellFormed ⟨.absent, HeightLayer.storedAt bytes place, .absent⟩ where
  area := blank_wellFormed.area
  surface := by
    simp only [HeightLayer.storedAt]
    cases HeightMode.ofFlags (HeightLayer.flagsAt bytes place) with
    | flat => trivial
    | float | int8 | int16 => exact ⟨Bytes.size_scalars .., Bytes.size_scalars ..⟩
  flightBounds bounds h := by
    rw [← eq_of_optional h]
    simp only [Bytes.size_scalars, and_self]
  liquidCells := blank_wellFormed.liquidCells
  liquidLevels := blank_wellFormed.liquidLevels

/-- A stored liquid layer alone makes a well-formed tile: it has as many levels as the rectangle
that stands beside them has cells. -/
theorem wellFormed_liquid (bytes : Bytes) (place : Nat) :
    WellFormed ⟨.absent, .absent, LiquidLayer.storedAt bytes place⟩ where
  area := blank_wellFormed.area
  surface := blank_wellFormed.surface
  flightBounds := blank_wellFormed.flightBounds
  liquidCells cells h := by
    rw [← eq_of_optional h]
    simp only [Bytes.size_scalars, and_self]
  liquidLevels levels h := by
    rw [← eq_of_optional h, Bytes.size_scalars]
    rfl

/-! ## Tiles -/

/-- Layers that make well-formed tiles by themselves make one together. -/
theorem WellFormed.ofLayers {area : AreaLayer} {height : HeightLayer Single} {liquid : LiquidLayer}
    (ha : WellFormed ⟨area, .absent, .absent⟩) (hh : WellFormed ⟨.absent, height, .absent⟩)
    (hl : WellFormed ⟨.absent, .absent, liquid⟩) : WellFormed ⟨area, height, liquid⟩ where
  area := ha.area
  surface := hh.surface
  flightBounds := hh.flightBounds
  liquidCells := hl.liquidCells
  liquidLevels := hl.liquidLevels

/-- What is so with a section missing, and with what stands at its place, is so with its content. -/
theorem content_wellFormed {α : Type} (f : SectionForm) (bytes : Bytes) {absent : α}
    {stored : Bytes → Nat → α} (tileOf : α → Tile) (habsent : (tileOf absent).WellFormed)
    (hstored : ∀ place, (tileOf (stored bytes place)).WellFormed) :
    (tileOf (f.content bytes absent stored)).WellFormed := by
  unfold SectionForm.content
  split
  · exact habsent
  · exact hstored _

/-- The fields that the layout names in a file make a well-formed tile. -/
theorem stored_wellFormed (bytes : Bytes) : (stored bytes).WellFormed := by
  have harea := content_wellFormed .area bytes (fun a => ⟨a, .absent, .absent⟩) blank_wellFormed
    (wellFormed_area bytes)
  have hheight := content_wellFormed .height bytes (fun h => ⟨.absent, h, .absent⟩)
    blank_wellFormed (wellFormed_height bytes)
  have hliquid := content_wellFormed .liquid bytes (fun l => ⟨.absent, .absent, l⟩)
    blank_wellFormed (wellFormed_liquid bytes)
  exact harea.ofLayers hheight hliquid

/-- **A tile that is read from a file is sound.**  Its rows have the lengths that its layers
promise, and no question to it goes wrong at any point: no index is outside its row and no integer
outgrows its width. -/
theorem sound_of_decode {bytes : Bytes} {t : Tile} (h : decode bytes = .ok t) :
    t.WellFormed ∧ t.Safe := by
  have hwellFormed : t.WellFormed := by
    rw [(holds_of_decode h).2]
    exact stored_wellFormed bytes
  exact ⟨hwellFormed, safe_of_wellFormed hwellFormed⟩

/-- The tile by the lake is read from its file, so it is sound. -/
theorem lakeside_sound : decode TilePlan.lakeside.encode = .ok TilePlan.lakeside.tile ∧
    TilePlan.lakeside.tile.WellFormed ∧ TilePlan.lakeside.tile.Safe := by
  have h := (TilePlan.laidOut_encode TilePlan.lakeside_valid).decode_eq TilePlan.lakeside_valid
  exact ⟨h, sound_of_decode h⟩

end Tile

end Overland
