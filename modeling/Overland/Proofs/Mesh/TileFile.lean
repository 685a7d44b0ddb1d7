import Overland.Mesh.TileFile
import Overland.Proofs.Bytes.Taking

/-!
# Writing and reading tile files

The header of a tile file is read field by field, and the payload behind it.  `decode_eq` says what
comes of that, with every field in its place: three checks, one after the other, and the bytes that
follow the header.

The payload of a tile file is read back from the file that was made of it (`decode_encode`): the
fields of the file are what it holds at their places.

`Misshapen` lists what is wrong with a content that has no payload, and `decode_cases` says that
nothing else is.
-/

namespace Overland

/-! ## The header -/

/-- Where the mark stands. -/
def MeshTile.markPlace : Nat := 0

/-- Where the length of the payload stands. -/
def MeshTile.lengthPlace : Nat := 12

/-- The content of the header: its five fields. -/
def MeshTileHeader.stored (bytes : Bytes) : MeshTileHeader where
  mark := bytes.scalar MeshTile.markPlace
  formatVersion := bytes.scalar 4
  version := bytes.scalar 8
  length := bytes.scalar MeshTile.lengthPlace
  liquids := (bytes.scalar 16 : UInt8) ≠ 0

namespace MeshTile

/-- The header of a content that is long enough is read as a whole, its padding included. -/
theorem readHeader_of_le {bytes : Bytes} (h : headerSize ≤ bytes.size) :
    readHeader (Buffer.ofBytes bytes) = .ok (.stored bytes, ⟨bytes, headerSize⟩) := by
  have hread {α : Type} [Scalar α] (place : Nat) (hplace : place + Scalar.width α ≤ headerSize) :
      Buffer.read α ⟨bytes, place⟩ = .ok (bytes.scalar place, ⟨bytes, place + Scalar.width α⟩) :=
    (takes_read bytes place).ok (Nat.le_trans hplace h)
  have hmark : Buffer.read UInt32 ⟨bytes, 0⟩ = .ok (bytes.scalar 0, ⟨bytes, 4⟩) :=
    hread 0 (by decide)
  have hformat : Buffer.read UInt32 ⟨bytes, 4⟩ = .ok (bytes.scalar 4, ⟨bytes, 8⟩) :=
    hread 4 (by decide)
  have hversion : Buffer.read UInt32 ⟨bytes, 8⟩ = .ok (bytes.scalar 8, ⟨bytes, 12⟩) :=
    hread 8 (by decide)
  have hlength : Buffer.read UInt32 ⟨bytes, 12⟩ = .ok (bytes.scalar 12, ⟨bytes, 16⟩) :=
    hread 12 (by decide)
  have hliquids : Buffer.read UInt8 ⟨bytes, 16⟩ = .ok (bytes.scalar 16, ⟨bytes, 17⟩) :=
    hread 16 (by decide)
  -- the file is long enough, so the skip over the padding is not cut short
  have hskip : Buffer.skip padding ⟨bytes, 17⟩ = .ok ((), ⟨bytes, headerSize⟩) := by
    have hplace : 17 + padding < Buffer.positionLimit := by decide
    rw [Buffer.skip_of_lt hplace]
    exact congrArg (fun place => Except.ok ((), Buffer.mk bytes place)) (Nat.min_eq_left h)
  simp only [readHeader, Buffer.ofBytes, bind, StateT.bind, Except.bind, hmark, hformat, hversion,
    hlength, hliquids, hskip]
  rfl

/-! ## Any content -/

/-- What is wrong with a content that is no tile file. -/
inductive Misshapen (bytes : Bytes) : Prop
  /-- It is shorter than the header. -/
  | short (h : bytes.size < headerSize)
  /-- Another word stands where the mark should be. -/
  | wrongMark (h : (bytes.scalar markPlace : UInt32) ≠ mark)
  /-- Less is left of it than the header declares. -/
  | overDeclared (h : bytes.size < headerSize + (bytes.scalar lengthPlace : UInt32).toNat)

/-- The payload of a content that is a tile file. -/
def payloadIn (bytes : Bytes) : MeshTile :=
  ⟨bytes.extract headerSize (headerSize + (bytes.scalar lengthPlace : UInt32).toNat)⟩

/-- The payload behind a header that does not declare too much. -/
theorem readPayload_of_le {bytes : Bytes} {declared : UInt32}
    (h : headerSize + declared.toNat ≤ bytes.size) :
    Buffer.readMany UInt8 declared.toNat ⟨bytes, headerSize⟩ =
      .ok (bytes.extract headerSize (headerSize + declared.toNat),
        ⟨bytes, headerSize + declared.toNat⟩) := by
  have hword : declared.toNat < 4294967296 := declared.toNat_lt
  have hlimit : Buffer.positionLimit = 18446744073709551616 := rfl
  have hcount : declared.toNat * Scalar.width UInt8 < Buffer.positionLimit := by
    rw [Scalar.width_uint8, Nat.mul_one, hlimit]
    omega
  have hread : Buffer.readMany UInt8 declared.toNat ⟨bytes, headerSize⟩ =
      .ok (bytes.scalars headerSize declared.toNat,
        ⟨bytes, headerSize + declared.toNat * Scalar.width UInt8⟩) :=
    Buffer.readMany_of_le hcount (by rw [Scalar.width_uint8, Nat.mul_one]; exact h)
  rw [hread, Bytes.scalars_uint8 h, Scalar.width_uint8, Nat.mul_one]

/-- **What reading a content comes down to:** three checks and the bytes behind the header. -/
theorem decode_eq (path : String) (bytes : Bytes) :
    decode path bytes =
      if bytes.size < headerSize then .error (.headerTooShort path bytes.size headerSize)
      else if (bytes.scalar markPlace : UInt32) ≠ mark then
        .error (.wrongMark path mark (bytes.scalar markPlace))
      else if bytes.size - headerSize < (bytes.scalar lengthPlace : UInt32).toNat then
        .error (.payloadTooLong path (bytes.scalar lengthPlace : UInt32).toNat
          (bytes.size - headerSize))
      else .ok (payloadIn bytes) := by
  unfold decode
  by_cases hshort : bytes.size < headerSize
  · rw [if_pos hshort, if_pos hshort]
  rw [if_neg hshort, if_neg hshort, readHeader_of_le (Nat.le_of_not_lt hshort)]
  dsimp only [MeshTileHeader.stored, Buffer.remaining, Buffer.size]
  by_cases hmark : (bytes.scalar markPlace : UInt32) ≠ mark
  · rw [if_pos hmark, if_pos hmark]
  rw [if_neg hmark, if_neg hmark]
  by_cases hlength : bytes.size - headerSize < (bytes.scalar lengthPlace : UInt32).toNat
  · rw [if_pos hlength, if_pos hlength]
  · rw [if_neg hlength, if_neg hlength, readPayload_of_le (by omega)]
    rfl

/-! ## What is accepted -/

/-- A content that is a tile file: the header is there, it starts with the mark, and what it
declares follows it. -/
def WellShaped (bytes : Bytes) : Prop :=
  20 ≤ bytes.size ∧ bytes.word 0 4 = 0x4d4d4150 ∧ 20 + bytes.word 12 4 ≤ bytes.size

instance (bytes : Bytes) : Decidable (WellShaped bytes) :=
  inferInstanceAs (Decidable (_ ∧ _ ∧ _))

/-- What any other content is refused with: the first of the three that it lacks. -/
def refusal (path : String) (bytes : Bytes) : MeshError :=
  if bytes.size < 20 then .headerTooShort path bytes.size 20
  else if bytes.word 0 4 ≠ 0x4d4d4150 then
    .wrongMark path 0x4d4d4150 (UInt32.ofNat (bytes.word 0 4))
  else .payloadTooLong path (bytes.word 12 4) (bytes.size - 20)

theorem scalar_eq_mark_iff (bytes : Bytes) :
    (bytes.scalar markPlace : UInt32) = mark ↔ bytes.word 0 4 = 0x4d4d4150 := by
  rw [← UInt32.toNat_inj, Bytes.toNat_scalar]
  rfl

theorem misshapen_iff (bytes : Bytes) : Misshapen bytes ↔ ¬ WellShaped bytes := by
  have hsize : headerSize = 20 := rfl
  have hmark := scalar_eq_mark_iff bytes
  have hlength : (bytes.scalar lengthPlace : UInt32).toNat = bytes.word 12 4 :=
    bytes.toNat_scalar 12
  constructor
  · rintro (hshort | hwrong | hdeclared) ⟨hheader, hword, hpayload⟩
    · omega
    · exact hwrong (hmark.2 hword)
    · omega
  · intro hnot
    by_cases hshort : bytes.size < headerSize
    · exact .short hshort
    by_cases hword : bytes.word 0 4 = 0x4d4d4150
    · refine .overDeclared (Nat.lt_of_not_le fun hpayload => hnot ⟨by omega, hword, by omega⟩)
    · exact .wrongMark (mt hmark.1 hword)

theorem WellShaped.not_misshapen {bytes : Bytes} (h : WellShaped bytes) : ¬ Misshapen bytes :=
  fun hshape => (misshapen_iff bytes).1 hshape h

theorem decode_of_wellShaped (path : String) {bytes : Bytes} (h : WellShaped bytes) :
    decode path bytes = .ok (payloadIn bytes) := by
  have hshape := h.not_misshapen
  rw [decode_eq, if_neg (mt .short hshape), if_neg (mt .wrongMark hshape), if_neg]
  intro hlength
  exact hshape (.overDeclared (by omega))

theorem decode_of_not_wellShaped (path : String) {bytes : Bytes} (h : ¬ WellShaped bytes) :
    decode path bytes = .error (refusal path bytes) := by
  have hsize : headerSize = 20 := rfl
  have hmark := scalar_eq_mark_iff bytes
  have hlength : (bytes.scalar lengthPlace : UInt32).toNat = bytes.word 12 4 :=
    bytes.toNat_scalar 12
  rw [decode_eq, refusal, hsize, hlength]
  by_cases hshort : bytes.size < 20
  · rw [if_pos hshort, if_pos hshort]
  rw [if_neg hshort, if_neg hshort]
  by_cases hword : bytes.word 0 4 = 0x4d4d4150
  · have hdeclared : bytes.size - 20 < bytes.word 12 4 :=
      Nat.lt_of_not_le fun hpayload => h ⟨by omega, hword, by omega⟩
    rw [if_neg (fun hwrong => hwrong (hmark.2 hword)), if_pos hdeclared,
      if_neg (fun hwrong => hwrong hword)]
  · rw [if_pos (mt hmark.1 hword), if_pos hword]
    rfl

/-- **A content is misshapen, or it is a tile file.** -/
theorem decode_cases (path : String) (bytes : Bytes) :
    (Misshapen bytes ∧ ∃ e, decode path bytes = .error e) ∨
      ¬ Misshapen bytes ∧ decode path bytes = .ok (payloadIn bytes) := by
  by_cases h : WellShaped bytes
  · exact .inr ⟨h.not_misshapen, decode_of_wellShaped path h⟩
  · exact .inl ⟨(misshapen_iff bytes).2 h, _, decode_of_not_wellShaped path h⟩

/-! ## Files -/

/-- **What is found at a path:** nothing, or something that is no tile file, or a payload. -/
theorem load_cases (disk : Disk) (path : String) :
    (disk path = .error .notFound ∧ load disk path = .ok none) ∨
    (∃ fault e, fault ≠ .notFound ∧ disk path = .error fault ∧ load disk path = .error e) ∨
    (∃ bytes e, disk path = .ok bytes ∧ Misshapen bytes ∧ load disk path = .error e) ∨
    ∃ bytes, disk path = .ok bytes ∧ ¬ Misshapen bytes ∧
      load disk path = .ok (some (payloadIn bytes)) := by
  unfold load
  cases disk path with
  | error fault =>
    cases fault with
    | notFound => exact .inl ⟨rfl, rfl⟩
    | _ => exact .inr (.inl ⟨_, _, by decide, rfl, rfl⟩)
  | ok bytes =>
    rcases decode_cases path bytes with ⟨hshape, e, hdecode⟩ | ⟨hshape, hdecode⟩
    · refine .inr (.inr (.inl ⟨bytes, e, rfl, hshape, ?_⟩))
      dsimp only
      rw [hdecode]
      rfl
    · refine .inr (.inr (.inr ⟨bytes, rfl, hshape, ?_⟩))
      dsimp only
      rw [hdecode]
      rfl

theorem decoded_of_load {disk : Disk} {path : String} {tile : MeshTile}
    (h : load disk path = .ok (some tile)) :
    ∃ bytes, disk path = .ok bytes ∧ decode path bytes = .ok tile := by
  unfold load at h
  cases hread : disk path with
  | error fault =>
    rw [hread] at h
    cases fault <;> cases h
  | ok bytes =>
    rw [hread] at h
    dsimp only at h
    refine ⟨bytes, rfl, ?_⟩
    cases hdecode : decode path bytes with
    | error e =>
      rw [hdecode] at h
      cases h
    | ok found =>
      rw [hdecode] at h
      cases h
      rfl

/-! ## Reading back what is written -/

/-- A payload is read back from its file, whatever follows it there. -/
theorem decode_encode_append (path : String) (t : MeshTile) (formatVersion version : UInt32)
    (liquids : UInt8) (following : Bytes) (h : t.payload.size < UInt32.size) :
    decode path (t.encode formatVersion version liquids ++ following) = .ok t := by
  have hholds : (t.encode formatVersion version liquids ++ following).Holds 0
      (t.encode formatVersion version liquids).toList :=
    ⟨[], following.toList, by simp, rfl⟩
  generalize t.encode formatVersion version liquids ++ following = file at hholds
  -- the fields of the file, from its mark on
  simp only [encode, List.append_assoc] at hholds
  obtain ⟨hmark, hversions⟩ := hholds.scalar_append
  obtain ⟨-, hversion⟩ := hversions.scalar_append
  obtain ⟨-, hdeclared⟩ := hversion.scalar_append
  obtain ⟨hlength, hliquids⟩ := hdeclared.scalar_append
  have hpayload : file.Holds headerSize t.payload.toList := hliquids.scalar_append.2.right
  have hword : file.word 0 4 = 0x4d4d4150 := (scalar_eq_mark_iff file).1 hmark
  have hcount : file.word 12 4 = t.payload.size := by
    rw [← Bytes.toNat_scalar, show file.scalar 12 = _ from hlength]
    exact UInt32.toNat_ofNat_of_lt' h
  have hsize : headerSize + t.payload.size ≤ file.size := by simpa using hpayload.le_size
  have hshape : WellShaped file :=
    ⟨Nat.le_trans (Nat.le_add_right _ _) hsize, hword, by rw [hcount]; exact hsize⟩
  have hcut := hpayload.extract
  rw [Array.length_toList, Array.toArray_toList] at hcut
  rw [decode_of_wellShaped path hshape, payloadIn, Bytes.toNat_scalar, lengthPlace, hcount, hcut]

/-- **A payload is read back from its file.** -/
theorem decode_encode (path : String) (t : MeshTile) (formatVersion version : UInt32)
    (liquids : UInt8) (h : t.payload.size < UInt32.size) :
    decode path (t.encode formatVersion version liquids) = .ok t := by
  simpa using decode_encode_append path t formatVersion version liquids #[] h

/-! ## The whole verdict -/

theorem payload_payloadIn (bytes : Bytes) :
    (payloadIn bytes).payload = bytes.extract 20 (20 + bytes.word 12 4) := by
  rw [payloadIn, Bytes.toNat_scalar]
  rfl

/-- **What is read at a path.**  If there is no file, there is no tile.  A file gives a tile exactly
if its content is well shaped, and then the payload is what its header declares, byte for byte; any
other content is refused with the first thing that is wrong with it.  So a payload whose length is a
word is read back from the file that was made of it, whatever follows it there. -/
theorem load_classified (disk : Disk) (path : String) :
    (disk path = .error .notFound → load disk path = .ok none) ∧
    (∀ bytes : Bytes, disk path = .ok bytes →
      (∀ t, load disk path = .ok (some t) ↔
        WellShaped bytes ∧ t.payload = bytes.extract 20 (20 + bytes.word 12 4)) ∧
      (¬ WellShaped bytes → load disk path = .error (refusal path bytes))) ∧
    ∀ (t : MeshTile) (formatVersion version : UInt32) (liquids : UInt8) (following : Bytes),
      t.payload.size < UInt32.size →
      disk path = .ok (t.encode formatVersion version liquids ++ following) →
        load disk path = .ok (some t) := by
  refine ⟨?_, ?_, ?_⟩
  · intro habsent
    rw [load, habsent]
  · intro bytes hread
    have hload : load disk path = (decode path bytes).map some := by rw [load, hread]
    rw [hload]
    refine ⟨fun t => ?_, fun hnot => by rw [decode_of_not_wellShaped path hnot]; rfl⟩
    by_cases hshape : WellShaped bytes
    · have htile : t = payloadIn bytes ↔
          t.payload = bytes.extract 20 (20 + Bytes.word bytes 12 4) := by
        rw [← payload_payloadIn]
        exact ⟨congrArg payload, congrArg MeshTile.mk⟩
      rw [decode_of_wellShaped path hshape, ← htile]
      simp [Except.map, hshape, eq_comm]
    · rw [decode_of_not_wellShaped path hshape]
      simp [Except.map, hshape]
  · intro t formatVersion version liquids following hsize hread
    rw [load, hread]
    simp only [decode_encode_append path t formatVersion version liquids following hsize]
    rfl

/-- A disk with a tile of three bytes and two more behind it, and a tile that is cut short. -/
def twoTiles : Disk := fun path =>
  if path = "whole" then .ok (encode ⟨#[7, 8, 9]⟩ 1 2 0 ++ #[5, 5])
  else if path = "cut" then .ok ((encode ⟨#[7, 8, 9]⟩ 1 2 0).pop)
  else .error .notFound

theorem load_twoTiles :
    load twoTiles "whole" = .ok (some ⟨#[7, 8, 9]⟩) ∧
      load twoTiles "cut" = .error (.payloadTooLong "cut" 3 2) ∧
      load twoTiles "other" = .ok none :=
  ⟨(load_classified twoTiles "whole").2.2 ⟨#[7, 8, 9]⟩ 1 2 0 #[5, 5] (by decide) rfl,
    ((load_classified twoTiles "cut").2.1 _ rfl).2 (by decide),
    (load_classified twoTiles "other").1 rfl⟩

end MeshTile

end Overland
