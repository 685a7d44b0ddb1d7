import Overland.Mesh.Table
import Overland.Proofs.Bytes.Taking
import Overland.Proofs.Bytes.Unread

/-!
# Reading and writing the header of a mesh

A header is seven words, and both ways it is nothing but these: a buffer from which at least 28
bytes are left to read is read, exactly these 28 bytes are passed, and writing what was read puts
the same 28 bytes down again; and what was written is read back, whatever follows it.  Words that
are no number are no exception, since a number is its word.

`storedHeader` is what the header file of a map says, told from its bytes; `loadHeader_eq` says that
this is what is loaded.
-/

namespace Overland

open Bytes

/-! ## Copying a scalar -/

section Copying

variable {α : Type} [Scalar α] {bytes : Bytes} {place : Nat}

/-- The bytes of a scalar that was read are the ones that it was read from. -/
theorem Bytes.ofScalar_scalar (h : place + Scalar.width α ≤ bytes.size) :
    ofScalar (bytes.scalar place : α) = (bytes.extract place (place + Scalar.width α)).toList := by
  rw [ofScalar, scalar, Scalar.toWord_ofWord _ (word_lt ..), wordBytes_word _ _ _ h,
    Array.toList_extract, List.extract_eq_take_drop, Nat.add_sub_cancel_left]

/-- Writing a scalar that was read copies its bytes. -/
theorem Buffer.write_scalar (b : Buffer) (h : place + Scalar.width α ≤ bytes.size) :
    b.write (bytes.scalar place : α) = b.append (bytes.extract place (place + Scalar.width α)) := by
  rw [Buffer.write, Buffer.append, ofScalar_scalar h]
  exact congrArg (Buffer.mk · b.position) (Array.ext' (by simp))

/-- A copy goes on where it ended. -/
theorem Buffer.write_scalar_append (b : Buffer) {start : Nat} (hstart : start ≤ place)
    (h : place + Scalar.width α ≤ bytes.size) :
    (b.append (bytes.extract start place)).write (bytes.scalar place : α) =
      b.append (bytes.extract start (place + Scalar.width α)) := by
  have hcopy : bytes.extract start place ++ bytes.extract place (place + Scalar.width α) =
      bytes.extract start (place + Scalar.width α) := by
    rw [Array.extract_append_extract, Nat.min_eq_left hstart, Nat.max_eq_right (by omega)]
  rw [Buffer.write_scalar _ h]
  simp only [Buffer.append, Array.append_assoc, hcopy]

end Copying

namespace MeshHeader

/-- The header that stands at a place of a file. -/
def storedAt (bytes : Bytes) (place : Nat) : MeshHeader where
  origin := ⟨bytes.scalar place, bytes.scalar (place + 4), bytes.scalar (place + 8)⟩
  tileWidth := bytes.scalar (place + 12)
  tileHeight := bytes.scalar (place + 16)
  maxTiles := bytes.scalar (place + 20)
  maxPolygons := bytes.scalar (place + 24)

/-- A header has 28 bytes. -/
theorem takes_header (bytes : Bytes) (place : Nat) :
    Takes id MeshHeader.read bytes place byteCount (storedAt bytes place) := by
  have hsingle (place : Nat) := takes_read (α := Single) bytes place
  have hint (place : Nat) := takes_read (α := Int32) bytes place
  exact Takes.congr ((hsingle _).bind ((hsingle _).bind ((hsingle _).bind ((hsingle _).bind
    ((hsingle _).bind ((hint _).bind ((hint _).bind (takes_pure _)))))))) rfl rfl

/-- A header of which some bytes are missing is not read. -/
theorem read_of_remaining_lt {b : Buffer} (h : b.remaining < byteCount) :
    ∃ e, e.RunsPast b.size ∧ MeshHeader.read b = .error e := by
  have hcount : byteCount = 28 := rfl
  unfold Buffer.remaining Buffer.size at h
  by_cases hplace : b.position ≤ b.bytes.size
  · exact (takes_header b.bytes b.position).past hplace (by omega)
  · -- from past the end not even the first word is read
    have hpast : b.size < b.position + 4 := Nat.lt_add_right 4 (Nat.lt_of_not_le hplace)
    have hfirst : Buffer.read Single b = .error (.pastEnd 4 b.position b.size) :=
      Buffer.read_of_lt hpast
    refine ⟨_, ⟨4, b.position, hpast, rfl⟩, ?_⟩
    simp only [MeshHeader.read, bind, StateT.bind, hfirst]
    rfl

/-! ## Writing what was read -/

/-- Writing a header that was read copies its bytes. -/
theorem write_storedAt {bytes : Bytes} {place : Nat} (h : place + byteCount ≤ bytes.size)
    (out : Buffer) :
    (storedAt bytes place).write out = out.append (bytes.extract place (place + byteCount)) := by
  have hcount : byteCount = 28 := rfl
  have hfirst : out.write (bytes.scalar place : Single) =
      out.append (bytes.extract place (place + 4)) :=
    out.write_scalar (by rw [Scalar.width_single]; omega)
  have hsingle (done : Nat) (hdone : done ≤ 24) :
      (out.append (bytes.extract place (place + done))).write
        (bytes.scalar (place + done) : Single) =
        out.append (bytes.extract place (place + done + 4)) :=
    out.write_scalar_append (by omega) (by rw [Scalar.width_single]; omega)
  have hint (done : Nat) (hdone : done ≤ 24) :
      (out.append (bytes.extract place (place + done))).write
        (bytes.scalar (place + done) : Int32) =
        out.append (bytes.extract place (place + done + 4)) :=
    out.write_scalar_append (by omega) (by rw [Scalar.width_int32]; omega)
  simp only [write, storedAt, hfirst, hsingle 4 (by omega), hsingle 8 (by omega),
    hsingle 12 (by omega), hsingle 16 (by omega), hint 20 (by omega), hint 24 (by omega)]
  exact congrArg (fun stop => out.append (bytes.extract place stop)) (by omega)

/-! ## Reading what was written -/

/-- The bytes of a header. -/
def content (h : MeshHeader) : List UInt8 :=
  ofScalar h.origin.first ++ (ofScalar h.origin.second ++ (ofScalar h.origin.third ++
    (ofScalar h.tileWidth ++ (ofScalar h.tileHeight ++ (ofScalar h.maxTiles ++
      ofScalar h.maxPolygons)))))

theorem length_content (h : MeshHeader) : h.content.length = byteCount := by
  simp [content, byteCount]

/-- Writing a header adds its bytes to what is left to read. -/
theorem unread_write (h : MeshHeader) {b : Buffer} {unread : List UInt8} (hb : b.Unread unread) :
    (h.write b).Unread (unread ++ h.content) := by
  have hwords := ((((((hb.write h.origin.first).write h.origin.second).write h.origin.third).write
    h.tileWidth).write h.tileHeight).write h.maxTiles).write h.maxPolygons
  simp only [List.append_assoc] at hwords
  exact hwords

/-- A header stands where its bytes are held. -/
theorem storedAt_of_holds {h : MeshHeader} {bytes : Bytes} {place : Nat}
    (hholds : bytes.Holds place h.content) : storedAt bytes place = h := by
  obtain ⟨hfirst, hholds⟩ := hholds.scalar_append
  obtain ⟨hsecond, hholds⟩ := hholds.scalar_append
  obtain ⟨hthird, hholds⟩ := hholds.scalar_append
  obtain ⟨hwidth, hholds⟩ := hholds.scalar_append
  obtain ⟨hheight, hholds⟩ := hholds.scalar_append
  obtain ⟨htiles, hholds⟩ := hholds.scalar_append
  have hpolygons := hholds.scalar
  simp only [Scalar.width_single, Scalar.width_int32, Nat.add_assoc, Nat.reduceAdd] at *
  simp only [storedAt, hfirst, hsecond, hthird, hwidth, hheight, htiles, hpolygons]

/-- A header that is left first is read. -/
theorem read_of_unread {h : MeshHeader} {b : Buffer} {rest : List UInt8}
    (hb : b.Unread (h.content ++ rest)) :
    MeshHeader.read b = .ok (h, b.seek (b.position + byteCount)) := by
  have hsize := hb.holds.le_size
  rw [length_content] at hsize
  have hread := (takes_header b.bytes b.position).ok hsize
  rw [storedAt_of_holds hb.holds] at hread
  exact hread

/-- **Reading and writing a header are inverse to each other,** on any 28 bytes and on any header.
If at least 28 bytes are left to read, exactly these are passed, and what is read is written as the
same 28 bytes; with fewer of them nothing is read.  What is written is read back, whatever bytes
follow it. -/
theorem read_write_inverse :
    (∀ b : Buffer,
      if 28 ≤ b.remaining then
        ∃ h, MeshHeader.read b = .ok (h, b.seek (b.position + 28)) ∧
          ∀ out, h.write out = out.append (b.bytes.extract b.position (b.position + 28))
      else ∃ e, e.RunsPast b.size ∧ MeshHeader.read b = .error e) ∧
    ∀ (h : MeshHeader) (b : Buffer) (following : Bytes),
      MeshHeader.read (((h.write b).append following).seek b.size) =
        .ok (h, ((h.write b).append following).seek (b.size + 28)) := by
  constructor
  · intro b
    split
    case isTrue hremaining =>
      have hsize : b.position + 28 ≤ b.bytes.size := by
        unfold Buffer.remaining Buffer.size at hremaining
        omega
      exact ⟨_, (takes_header b.bytes b.position).ok hsize, write_storedAt hsize⟩
    case isFalse hremaining => exact read_of_remaining_lt (Nat.lt_of_not_le hremaining)
  · intro h b following
    have hwritten := (h.unread_write b.unread_seek_size).append following
    rw [List.nil_append] at hwritten
    exact read_of_unread hwritten

end MeshHeader

/-! ## Header files -/

namespace Navigation

/-- The header in the file of a map: it stands in the first 28 bytes, and whatever follows is not
looked at. -/
def storedHeader (disk : Disk) (folder : String) (map : UInt32) : Except MeshError MeshHeader :=
  let path := joinPath folder (meshFileName map.toNat)
  match disk path with
  | .error fault => .error (.unreadable path (.disk fault))
  | .ok bytes =>
    if bytes.size < 28 then .error (.headerTooShort path bytes.size 28)
    else .ok (.storedAt bytes 0)

/-- **The header that is loaded is the one in the file.** -/
theorem loadHeader_eq (disk : Disk) (folder : String) (map : UInt32) :
    loadHeader disk folder map = storedHeader disk folder map := by
  simp only [loadHeader, storedHeader, headerOf]
  cases disk (joinPath folder (meshFileName map.toNat)) with
  | error fault => rfl
  | ok bytes =>
    dsimp only
    by_cases hshort : bytes.size < 28
    · obtain ⟨e, -, hread⟩ :=
        MeshHeader.read_of_remaining_lt (b := Buffer.ofBytes bytes) (Nat.lt_of_le_of_lt
          (Nat.sub_le _ _) hshort)
      rw [hread, if_pos hshort]
      rfl
    · have hread : MeshHeader.read (Buffer.ofBytes bytes) = _ :=
        (MeshHeader.takes_header bytes 0).ok (by rw [Nat.zero_add]; exact Nat.le_of_not_lt hshort)
      rw [hread, if_neg hshort]

end Navigation

end Overland
