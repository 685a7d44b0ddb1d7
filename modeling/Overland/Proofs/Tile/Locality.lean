import Overland.Proofs.Bytes.Agreement
import Overland.Proofs.Tile.RoundTrip

/-!
# The bytes that a tile is read from

A tile is read from the two marks and the three offsets in the header of its file, and from the
bytes of the sections that are there.  All the rest may be anything: the build number, the sizes and
the offset of the unused section, and whatever lies before, between and behind the sections.

* `SectionForm.Local` — the length and the content of a section are read from the bytes of the
  section alone; `AreaLayer.isLocal`, `HeightLayer.isLocal` and `LiquidLayer.isLocal` say so of the
  three sections, wherever they lie.
* `SectionForm.SameIn` — two files hold the same section, and `Tile.SameWhereRead` — they hold the
  same bytes in all the places that count.  Then they are read as the same tile (`decode_of_same`).
* `decode_append` — bytes behind a tile file change nothing, and `decode_cut` — a file that was cut
  off is read as the same tile or refused for being too short.  It is never another tile, and never
  refused for a mark.  `decode_local` says all of it together.
-/

namespace Overland

open Bytes

/-! ## Sections -/

/-- The length and the content of a section are read from the bytes of the section alone. -/
structure SectionForm.Local {α : Type} (f : SectionForm) (stored : Bytes → Nat → α) : Prop where
  mark_le : ∀ (bytes : Bytes) (place : Nat), 4 ≤ f.lengthAt bytes place
  length : ∀ {bytes other : Bytes} {place : Nat},
    bytes.AgreeAt other place (place + f.lengthAt bytes place) →
      f.lengthAt other place = f.lengthAt bytes place
  stored : ∀ {bytes other : Bytes} {place : Nat},
    bytes.AgreeAt other place (place + f.lengthAt bytes place) →
      stored other place = stored bytes place

/-- A block that is there only if a flag says so is the same if it is the same where it is there. -/
theorem optional_congr {α : Type} {flag : Prop} [Decidable flag] {a b : α} (h : flag → a = b) :
    (if flag then some a else none) = if flag then some b else none :=
  ite_congr rfl (fun hflag => congrArg some (h hflag)) fun _ => rfl

/-! ### Areas -/

namespace AreaLayer

variable {bytes other : Bytes} {place : Nat}

theorem flagsAt_congr (h : bytes.AgreeAt other place (place + 8)) :
    flagsAt other place = flagsAt bytes place :=
  h.field (by decide)

theorem storedAt_congr (h : bytes.AgreeAt other place (place + lengthAt bytes place)) :
    storedAt other place = storedAt bytes place := by
  have hhead : bytes.AgreeAt other place (place + 8) := h.head
  have harea : (other.scalar (place + 6) : UInt16) = bytes.scalar (place + 6) :=
    hhead.field (by decide)
  rw [storedAt, storedAt, flagsAt_congr hhead, harea]
  refine congrArg (AreaLayer.mk _) (optional_congr fun hcells => h.scalars (by omega) ?_)
  have hlength : lengthAt bytes place = 8 + 2 * 256 := by rw [lengthAt, if_pos hcells]
  have hwidth := Scalar.width_uint16
  omega

theorem isLocal : SectionForm.area.Local storedAt where
  mark_le _ _ := Nat.le_add_right_of_le (by decide : 4 ≤ 8)
  length {bytes other place} h := by
    show lengthAt other place = lengthAt bytes place
    rw [lengthAt, flagsAt_congr h.head, ← lengthAt]
  stored := storedAt_congr

end AreaLayer

/-! ### Heights -/

/-- Files that agree at two rows of samples hold the same samples there. -/
theorem samples_congr {α : Type} [Scalar α] {bytes other : Bytes} {place : Nat}
    (h : bytes.AgreeAt other place (place + Scalar.width α * (129 * 129 + 128 * 128)))
    (surface : Array α → Array α → Surface Single) :
    surface (other.scalars place cornerCount)
        (other.scalars (place + cornerCount * Scalar.width α) centreCount)
      = surface (bytes.scalars place cornerCount)
        (bytes.scalars (place + cornerCount * Scalar.width α) centreCount) := by
  have hcorners : cornerCount * Scalar.width α = 129 * 129 * Scalar.width α := rfl
  have hcentres : centreCount * Scalar.width α = 128 * 128 * Scalar.width α := rfl
  rw [h.scalars (by omega) (by omega), h.scalars (by omega) (by omega)]

/-- The samples of a surface are read from their own bytes, in any mode. -/
theorem Surface.storedAt_congr (flags : UInt32) (base top : Single) {bytes other : Bytes}
    {place : Nat}
    (h : bytes.AgreeAt other place (place + sampleWidth flags * (129 * 129 + 128 * 128))) :
    storedAt (.ofFlags flags) base top other place
      = storedAt (.ofFlags flags) base top bytes place := by
  unfold sampleWidth at h
  unfold HeightMode.ofFlags
  by_cases hflat : flags &&& noHeights ≠ 0
  · rw [if_pos hflat]
    rfl
  rw [if_neg hflat] at h ⊢
  by_cases hint16 : flags &&& heightsInt16 ≠ 0
  · rw [if_pos hint16] at h ⊢
    exact samples_congr (α := UInt16) h fun corners centres =>
      .int16 corners centres ((top - base) / 65535)
  rw [if_neg hint16] at h ⊢
  by_cases hint8 : flags &&& heightsInt8 ≠ 0
  · rw [if_pos hint8] at h ⊢
    exact samples_congr (α := UInt8) h fun corners centres =>
      .int8 corners centres ((top - base) / 255)
  · rw [if_neg hint8] at h ⊢
    exact samples_congr (α := Single) h .float

namespace HeightLayer

variable {bytes other : Bytes} {place : Nat}

theorem flagsAt_congr (h : bytes.AgreeAt other place (place + 16)) :
    flagsAt other place = flagsAt bytes place :=
  h.field (by decide)

theorem samplesLengthAt_congr (h : bytes.AgreeAt other place (place + 16)) :
    samplesLengthAt other place = samplesLengthAt bytes place := by
  rw [samplesLengthAt, flagsAt_congr h, ← samplesLengthAt]

theorem flightBoundsAt_congr (h : bytes.AgreeAt other place (place + lengthAt bytes place)) :
    flightBoundsAt other place = flightBoundsAt bytes place := by
  rw [flightBoundsAt, flightBoundsAt, flagsAt_congr h.head, samplesLengthAt_congr h.head]
  refine optional_congr fun hbounds => ?_
  have hend : place + 16 + samplesLengthAt bytes place + 18 + 9 * Scalar.width Int16
      ≤ place + lengthAt bytes place := by
    rw [lengthAt, if_pos hbounds, Scalar.width_int16]
    omega
  rw [h.scalars (by omega) (by omega), h.scalars (by omega) hend]

theorem storedAt_congr (h : bytes.AgreeAt other place (place + lengthAt bytes place)) :
    storedAt other place = storedAt bytes place := by
  have hhead : bytes.AgreeAt other place (place + 16) := h.head
  have hbase : (other.scalar (place + 8) : Single) = bytes.scalar (place + 8) :=
    hhead.field (by decide)
  have htop : (other.scalar (place + 12) : Single) = bytes.scalar (place + 12) :=
    hhead.field (by decide)
  have hsamples : bytes.AgreeAt other (place + 16) (place + 16 + samplesLengthAt bytes place) :=
    h.mono (by omega) (by rw [lengthAt]; omega)
  have hsurface := Surface.storedAt_congr (flagsAt bytes place) (bytes.scalar (place + 8))
    (bytes.scalar (place + 12)) hsamples
  rw [storedAt, flagsAt_congr hhead, hbase, htop, hsurface, flightBoundsAt_congr h, ← storedAt]

theorem isLocal : SectionForm.height.Local storedAt where
  mark_le _ _ := Nat.le_add_right_of_le (by decide : 4 ≤ 16)
  length {bytes other place} h := by
    show lengthAt other place = lengthAt bytes place
    rw [lengthAt, flagsAt_congr h.head, samplesLengthAt_congr h.head, ← lengthAt]
  stored := storedAt_congr

end HeightLayer

/-! ### Liquids -/

namespace LiquidLayer

variable {bytes other : Bytes} {place : Nat}

theorem flagsAt_congr (h : bytes.AgreeAt other place (place + 16)) :
    flagsAt other place = flagsAt bytes place :=
  h.field (by decide)

theorem extentAt_congr (h : bytes.AgreeAt other place (place + 16)) :
    extentAt other place = extentAt bytes place := by
  have hside {i : Nat} (hi : i + 1 ≤ 16) :
      (other.scalar (place + i) : UInt8) = bytes.scalar (place + i) := h.field hi
  rw [extentAt, hside (by decide), hside (by decide), hside (by decide), hside (by decide),
    ← extentAt]

theorem levelCountAt_congr (h : bytes.AgreeAt other place (place + 16)) :
    levelCountAt other place = levelCountAt bytes place := by
  rw [levelCountAt, extentAt_congr h, ← levelCountAt]

theorem cellsLengthAt_congr (h : bytes.AgreeAt other place (place + 16)) :
    cellsLengthAt other place = cellsLengthAt bytes place := by
  rw [cellsLengthAt, flagsAt_congr h, ← cellsLengthAt]

theorem cells_congr (h : bytes.AgreeAt other place (place + lengthAt bytes place)) :
    (storedAt other place).cells = (storedAt bytes place).cells := by
  simp only [storedAt, flagsAt_congr h.head]
  refine optional_congr fun hcells => ?_
  have hend : place + 16 + 768 ≤ place + lengthAt bytes place := by
    rw [lengthAt, cellsLengthAt, if_pos hcells]
    omega
  rw [h.scalars (by omega) (Nat.le_trans (by simp) hend), h.scalars (by omega) hend]

theorem levels_congr (h : bytes.AgreeAt other place (place + lengthAt bytes place)) :
    (storedAt other place).levels = (storedAt bytes place).levels := by
  simp only [storedAt, flagsAt_congr h.head, cellsLengthAt_congr h.head,
    levelCountAt_congr h.head]
  refine optional_congr fun hlevels => h.scalars (by omega) ?_
  rw [lengthAt, if_pos hlevels, Scalar.width_single]
  omega

theorem storedAt_congr (h : bytes.AgreeAt other place (place + lengthAt bytes place)) :
    storedAt other place = storedAt bytes place := by
  have hhead : bytes.AgreeAt other place (place + 16) := h.head
  have hkind : (other.scalar (place + 6) : UInt16) = bytes.scalar (place + 6) :=
    hhead.field (by decide)
  have hlevel : (other.scalar (place + 12) : Single) = bytes.scalar (place + 12) :=
    hhead.field (by decide)
  calc storedAt other place
      = ⟨other.scalar (place + 6), extentAt other place, other.scalar (place + 12),
          (storedAt other place).cells, (storedAt other place).levels⟩ := rfl
    _ = storedAt bytes place := by
        rw [hkind, extentAt_congr hhead, hlevel, cells_congr h, levels_congr h, storedAt]

theorem isLocal : SectionForm.liquid.Local storedAt where
  mark_le _ _ := Nat.le_add_right_of_le (by decide : 4 ≤ 16)
  length {bytes other place} h := by
    show lengthAt other place = lengthAt bytes place
    rw [lengthAt, flagsAt_congr h.head, cellsLengthAt_congr h.head, levelCountAt_congr h.head,
      ← lengthAt]
  stored := storedAt_congr

end LiquidLayer

/-! ## The same section in two files -/

/-- Two files hold the same section: the same offset in their headers and, unless the section is
missing, the same bytes from there on. -/
structure SectionForm.SameIn (f : SectionForm) (bytes other : Bytes) : Prop where
  offset : bytes.AgreeAt other f.offsetPlace (f.offsetPlace + 4)
  extent : f.offset bytes ≠ 0 →
    bytes.AgreeAt other (f.place bytes) (f.place bytes + f.lengthAt bytes (f.place bytes))

namespace SectionForm.SameIn

variable {α : Type} {f : SectionForm} {stored : Bytes → Nat → α} {bytes other : Bytes}

theorem offset_eq (h : f.SameIn bytes other) : f.offset other = f.offset bytes :=
  h.offset.scalar (Nat.le_refl _) (Nat.le_refl _)

theorem place_eq (h : f.SameIn bytes other) : f.place other = f.place bytes := by
  rw [SectionForm.place, h.offset_eq, ← SectionForm.place]

/-- A section that fits into the one file fits into the other. -/
theorem fits (h : f.SameIn bytes other) (hf : f.Local stored) (hfits : f.Fits bytes) :
    f.Fits other := by
  by_cases hoffset : f.offset bytes = 0
  · exact Or.inl (h.offset_eq.trans hoffset)
  obtain ⟨hmark, hsize⟩ := hfits.resolve_left hoffset
  have hextent := h.extent hoffset
  have hmin := hf.mark_le bytes (f.place bytes)
  have hword : (other.scalar (f.place bytes) : UInt32) = bytes.scalar (f.place bytes) :=
    hextent.scalar (Nat.le_refl _) (by rw [Scalar.width_uint32]; omega)
  refine Or.inr ?_
  rw [h.place_eq, hword, hf.length hextent]
  exact ⟨hmark, hextent.le_size (by omega) hsize⟩

/-- A section that is the same in two files has the same content in both. -/
theorem content_eq (h : f.SameIn bytes other) (hf : f.Local stored) (absent : α) :
    f.content other absent stored = f.content bytes absent stored := by
  unfold content
  rw [h.offset_eq, h.place_eq]
  exact ite_congr rfl (fun _ => rfl) fun hoffset => hf.stored (h.extent hoffset)

/-- A section of a file stays the same when bytes are put behind the file. -/
theorem append (hplace : f.offsetPlace + 4 ≤ bytes.size) (hfits : f.Fits bytes) (more : Bytes) :
    f.SameIn bytes (bytes ++ more) where
  offset := agreeAt_append more hplace
  extent hoffset := agreeAt_append more (hfits.resolve_left hoffset).2

end SectionForm.SameIn

/-! ## The same tile from two files -/

namespace Tile

/-- Two files hold the same bytes wherever a tile is read from the first: the marks and the offsets
of its header and the sections that are there.  The second is long enough for a header. -/
structure SameWhereRead (bytes other : Bytes) : Prop where
  header : 44 ≤ other.size
  marks : bytes.AgreeAt other 0 8
  area : SectionForm.area.SameIn bytes other
  height : SectionForm.height.SameIn bytes other
  liquid : SectionForm.liquid.SameIn bytes other

variable {bytes other : Bytes} {t : Tile}

/-- A file that is the same wherever a tile is read from is read as the same tile. -/
theorem decode_of_same (h : decode bytes = .ok t) (hsame : SameWhereRead bytes other) :
    decode other = .ok t := by
  obtain ⟨hholds, rfl⟩ := holds_of_decode h
  have hother : ∀ c : Condition, c.Holds other := by
    intro c
    cases c
    case header => exact hsame.header
    case fileMark =>
      exact (hsame.marks.scalar (Nat.le_refl 0) (by decide)).trans (hholds .fileMark)
    case versionMark =>
      exact (hsame.marks.scalar (by decide) (by decide)).trans (hholds .versionMark)
    case area => exact hsame.area.fits AreaLayer.isLocal (hholds .area)
    case height => exact hsame.height.fits HeightLayer.isLocal (hholds .height)
    case liquid => exact hsame.liquid.fits LiquidLayer.isLocal (hholds .liquid)
  rw [decode_of_holds hother, stored, hsame.area.content_eq AreaLayer.isLocal,
    hsame.height.content_eq HeightLayer.isLocal, hsame.liquid.content_eq LiquidLayer.isLocal,
    ← stored]

/-- Bytes behind a tile file change nothing. -/
theorem decode_append (h : decode bytes = .ok t) (more : Bytes) :
    decode (bytes ++ more) = .ok t := by
  have hholds := (holds_of_decode h).1
  have hheader : 44 ≤ bytes.size := hholds .header
  refine decode_of_same h {
    header := ?_
    marks := agreeAt_append more (by omega)
    area := .append (Nat.le_trans (by decide) hheader) (hholds .area) more
    height := .append (Nat.le_trans (by decide) hheader) (hholds .height) more
    liquid := .append (Nat.le_trans (by decide) hheader) (hholds .liquid) more }
  rw [Array.size_append]
  omega

end Tile

/-! ## Files that were cut off -/

/-- A section whose mark is right as far as the file goes is refused only because the file ends
inside it. -/
theorem Mark.Refuses.runsPast {part : Section} {mark : Mark} {bytes : Bytes} {place : Nat}
    {e : DecodeFault} (h : mark.Refuses part bytes place e)
    (hmark : place + 4 ≤ bytes.size → bytes.scalar place = mark.word) :
    ∃ part, ∃ cause : ReadError, cause.RunsPast bytes.size ∧ e = .truncated part cause := by
  unfold Mark.Refuses at h
  rw [if_neg fun hwrong => hwrong.2 (hmark hwrong.1)] at h
  exact ⟨part, h⟩

/-- A section that fits into a file, and no longer after the file was cut off behind the header, has
its mark as far as what is left goes. -/
theorem SectionForm.Fits.mark_of_cut {f : SectionForm} {cut rest : Bytes}
    (hplace : f.offsetPlace + 4 ≤ cut.size) (hfits : f.Fits (cut ++ rest)) (hcut : ¬ f.Fits cut)
    (hword : f.place cut + 4 ≤ cut.size) : cut.scalar (f.place cut) = f.mark.word := by
  have hoffset : f.offset (cut ++ rest) = f.offset cut :=
    (agreeAt_append rest hplace).scalar (Nat.le_refl _) (Nat.le_refl _)
  have hmark : ((cut ++ rest).scalar (f.place cut) : UInt32) = cut.scalar (f.place cut) :=
    (agreeAt_append rest hword).scalar (Nat.le_refl _) (Nat.le_refl _)
  unfold Fits at hfits
  rw [place, hoffset, ← place, hmark] at hfits
  exact (hfits.resolve_left (not_or.1 hcut).1).1

namespace Tile

/-- What is left of a tile file that was cut off is the same tile, or too short for one. -/
theorem decode_cut {cut rest : Bytes} {t : Tile} (h : decode (cut ++ rest) = .ok t) :
    decode cut = .ok t ∨ ∃ part, ∃ cause : ReadError,
      cause.RunsPast cut.size ∧ decode cut = .error (.truncated part cause) := by
  by_cases hheader : 44 ≤ cut.size
  case neg =>
    obtain ⟨cause, hcause, hrun⟩ := headerOf_of_short (Nat.lt_of_not_le hheader)
    exact Or.inr ⟨.header, cause, hcause, by rw [decode, hrun]; rfl⟩
  have hholds := (holds_of_decode h).1
  have hmarks : cut.AgreeAt (cut ++ rest) 0 8 := agreeAt_append rest (by omega)
  have hverdict := decode_verdict cut
  cases hfirst : Condition.firstViolated? cut with
  | none =>
    rw [hfirst] at hverdict
    exact Or.inl (hverdict.trans ((decode_append hverdict rest).symm.trans h))
  | some c =>
    rw [hfirst] at hverdict
    obtain ⟨e, hrefuses, hrun⟩ := hverdict
    have hviolated : ¬ c.Holds cut := by simpa using List.find?_some hfirst
    -- the header is all there, so only a section can be cut off
    have hcut : ∃ part, ∃ cause : ReadError,
        cause.RunsPast cut.size ∧ e = .truncated part cause := by
      cases c
      case header => exact absurd hheader hviolated
      case fileMark =>
        exact absurd ((hmarks.scalar (Nat.le_refl 0) (by decide)).symm.trans (hholds .fileMark))
          hviolated
      case versionMark =>
        exact absurd ((hmarks.scalar (by decide) (by decide)).symm.trans (hholds .versionMark))
          hviolated
      case area =>
        exact hrefuses.runsPast (SectionForm.Fits.mark_of_cut
          (Nat.le_trans (by decide) hheader) (hholds .area) hviolated)
      case height =>
        exact hrefuses.runsPast (SectionForm.Fits.mark_of_cut
          (Nat.le_trans (by decide) hheader) (hholds .height) hviolated)
      case liquid =>
        exact hrefuses.runsPast (SectionForm.Fits.mark_of_cut
          (Nat.le_trans (by decide) hheader) (hholds .liquid) hviolated)
    obtain ⟨part, cause, hcause, rfl⟩ := hcut
    exact Or.inr ⟨part, cause, hcause, hrun⟩

/-- **A tile is read from its own bytes and from nothing else.**  Any file of at least the length of
a header that holds the same marks, the same offsets and the same bytes of the sections that are
there is read as the same tile, and so is the file with anything put behind it.  What is left of the
file when it is cut off anywhere is read as the same tile or refused because it ends inside a part
of it: it is never read as another tile, and never refused for a mark. -/
theorem decode_local {bytes : Bytes} {t : Tile} (h : decode bytes = .ok t) :
    (∀ other, SameWhereRead bytes other → decode other = .ok t) ∧
      (∀ more, decode (bytes ++ more) = .ok t) ∧
      ∀ cut rest, cut ++ rest = bytes →
        decode cut = .ok t ∨ ∃ part, ∃ cause : ReadError,
          cause.RunsPast cut.size ∧ decode cut = .error (.truncated part cause) := by
  refine ⟨fun other => decode_of_same h, decode_append h, ?_⟩
  rintro cut rest rfl
  exact decode_cut h

/-- The file of the tile by the lake, with a byte behind it and cut off behind its header. -/
theorem lakeside_local :
    decode TilePlan.lakeside.encode = .ok TilePlan.lakeside.tile ∧
      decode (TilePlan.lakeside.encode ++ #[0]) = .ok TilePlan.lakeside.tile ∧
      (decode (TilePlan.lakeside.encode.extract 0 44) = .ok TilePlan.lakeside.tile ∨
        ∃ part, ∃ cause : ReadError,
          cause.RunsPast (TilePlan.lakeside.encode.extract 0 44).size ∧
          decode (TilePlan.lakeside.encode.extract 0 44) = .error (.truncated part cause)) := by
  have hlaid := TilePlan.laidOut_encode TilePlan.lakeside_valid
  have h := hlaid.decode_eq TilePlan.lakeside_valid
  have hwhole : TilePlan.lakeside.encode.extract 0 44 ++ TilePlan.lakeside.encode.extract 44
      = TilePlan.lakeside.encode := by
    rw [Array.extract_append_extract, Nat.zero_min, Nat.max_eq_right hlaid.header,
      Array.extract_size]
  exact ⟨h, (decode_local h).2.1 #[0], (decode_local h).2.2 _ _ hwhole⟩

end Tile

end Overland
