import Overland.Proofs.Bytes.Unread

/-!
# A buffer as a queue

A buffer that is written and read in turns hands out what was put into it, in the same order.  The
types of the values are not stored: a read gets the value that was written if it asks for the type
that was written, and `Matched` says that all reads do.

* `Attempt.ReadOnly` — reads change no byte;
* `Item`, `Step` — a value of one of the stored types, and what is done to a buffer;
* `Unread.step` — one step, on the bytes that are left to read;
* `Unread.runAll` — any number of steps, one after the other;
* `runAll_fifo` — what comes of them on a buffer that starts out empty.
-/

namespace Overland

open Bytes

/-! ## Reading changes no byte -/

namespace Attempt

variable {α β : Type}

/-- A step that changes no byte, also if it fails. -/
def ReadOnly (attempt : Attempt α) : Prop := ∀ b, (attempt b).2.bytes = b.bytes

theorem readOnly_pure (a : α) : ReadOnly (pure a) := fun _ => rfl

theorem readOnly_get : ReadOnly get := fun _ => rfl

theorem ReadOnly.bind {attempt : Attempt α} {next : α → Attempt β} (h : ReadOnly attempt)
    (h' : ∀ a, ReadOnly (next a)) : ReadOnly (attempt >>= next) := by
  intro b
  rcases hrun : attempt b with ⟨answer, b'⟩
  have hbytes : b'.bytes = b.bytes := by
    rw [← h b, hrun]
  cases answer with
  | ok a => rw [bind_of_ok hrun, h' a b', hbytes]
  | error e => rw [bind_of_error hrun, hbytes]

theorem readOnly_word (n : Nat) : ReadOnly (word n) := by
  intro b
  rw [word]
  split <;> rfl

theorem readOnly_take (count : Nat) : ReadOnly (take count) := by
  intro b
  rw [take]
  split <;> rfl

theorem readOnly_read [Scalar α] : ReadOnly (read α) :=
  (readOnly_take _).bind fun _ => readOnly_get.bind fun _ => readOnly_pure _

theorem readOnly_readMany [Scalar α] {count : Nat} : ReadOnly (readMany α count) :=
  (readOnly_word _).bind fun _ => (readOnly_take _).bind fun _ => readOnly_get.bind fun _ =>
    readOnly_pure _

end Attempt

namespace Buffer

/-! ## Values and steps -/

/-- The types that buffers are written in. -/
inductive Kind where
  | uint8
  | uint16
  | int16
  | uint32
  | int32
  | single
  deriving DecidableEq, Repr

/-- The values of a type. -/
def Kind.Value : Kind → Type
  | .uint8 => UInt8
  | .uint16 => UInt16
  | .int16 => Int16
  | .uint32 => UInt32
  | .int32 => Int32
  | .single => Single

instance (kind : Kind) : Scalar kind.Value :=
  match kind with
  | .uint8 => inferInstanceAs (Scalar UInt8)
  | .uint16 => inferInstanceAs (Scalar UInt16)
  | .int16 => inferInstanceAs (Scalar Int16)
  | .uint32 => inferInstanceAs (Scalar UInt32)
  | .int32 => inferInstanceAs (Scalar Int32)
  | .single => inferInstanceAs (Scalar Single)

/-- A value with its type. -/
structure Item where
  kind : Kind
  value : kind.Value

/-- A byte. -/
def Item.byte (value : UInt8) : Item := ⟨.uint8, value⟩

/-- The bytes that a value is stored as. -/
def Item.stored (item : Item) : List UInt8 := ofScalar item.value

@[simp] theorem Item.stored_byte (value : UInt8) : (byte value).stored = [value] := by
  show ofScalar (α := UInt8) value = [value]
  simp [ofScalar, wordBytes, Scalar.toWord]

theorem Item.flatMap_stored_byte (values : List UInt8) :
    (values.map byte).flatMap stored = values := by
  simp [List.flatMap_map]

theorem Item.flatMap_stored_mk (kind : Kind) (row : List kind.Value) :
    (row.map (mk kind)).flatMap stored = row.flatMap ofScalar := by
  rw [List.flatMap_map]
  rfl

/-- What is done to a buffer. -/
inductive Step where
  | append (bytes : Bytes)
  | write (item : Item)
  | read (kind : Kind)
  | readMany (kind : Kind) (count : Nat)

/-- A step answers the values that it reads. -/
def Step.run : Step → Attempt (List Item)
  | .append bytes => do
    modify fun b => b.append bytes
    return []
  | .write item => do
    modify fun b => b.write item.value
    return []
  | .read kind => do
    let value ← Attempt.read kind.Value
    return [⟨kind, value⟩]
  | .readMany kind count => do
    let row ← Attempt.readMany kind.Value count
    return row.toList.map (Item.mk kind)

/-- Steps one after the other, also after one that fails: what they answer and the buffer they
leave. -/
def runAll : List Step → Buffer → List (Except ReadError (List Item)) × Buffer
  | [], b => ([], b)
  | step :: steps, b =>
    let (answer, b) := step.run b
    let (answers, b) := runAll steps b
    (answer :: answers, b)

/-! ## What is put in and what is asked for -/

/-- The values that a step puts in. -/
def Step.put : Step → List Item
  | .append bytes => bytes.toList.map .byte
  | .write item => [item]
  | .read _ | .readMany _ _ => []

/-- The types of the values that a step asks for. -/
def Step.wanted : Step → List Kind
  | .append _ | .write _ => []
  | .read kind => [kind]
  | .readMany kind count => List.replicate count kind

/-- All the values that are put in. -/
def written (steps : List Step) : List Item := steps.flatMap Step.put

/-- All the types that are asked for. -/
def asked (steps : List Step) : List Kind := steps.flatMap Step.wanted

@[simp] theorem written_cons (step : Step) (steps : List Step) :
    written (step :: steps) = step.put ++ written steps :=
  List.flatMap_cons

@[simp] theorem asked_cons (step : Step) (steps : List Step) :
    asked (step :: steps) = step.wanted ++ asked steps :=
  List.flatMap_cons

/-- At any time what was asked for are the types of what was there, from its start. -/
def Matched (queue : List Item) (steps : List Step) : Prop :=
  ∀ n ≤ steps.length, asked (steps.take n) <+: (queue ++ written (steps.take n)).map Item.kind

instance (queue : List Item) (steps : List Step) : Decidable (Matched queue steps) :=
  inferInstanceAs (Decidable (∀ n ≤ steps.length, _))

/-- A queue that starts with values of these types. -/
theorem exists_append_of_prefix {queue : List Item} {kinds : List Kind}
    (h : kinds <+: queue.map Item.kind) :
    ∃ front rest, queue = front ++ rest ∧ front.map Item.kind = kinds := by
  obtain ⟨others, hkinds⟩ := h
  obtain ⟨front, rest, rfl, hfront, -⟩ := List.map_eq_append_iff.1 hkinds.symm
  exact ⟨front, rest, rfl, hfront⟩

/-- Values of one type are a row of that type. -/
theorem exists_row_of_replicate {kind : Kind} {front : List Item} {count : Nat}
    (h : front.map Item.kind = List.replicate count kind) :
    ∃ row : List kind.Value, row.length = count ∧ front = row.map (Item.mk kind) := by
  induction count generalizing front with
  | zero => exact ⟨[], rfl, List.map_eq_nil_iff.1 h⟩
  | succ count ih =>
    obtain ⟨⟨_, value⟩, others, rfl, rfl, hothers⟩ := List.map_eq_cons_iff.1 h
    obtain ⟨row, hrow, rfl⟩ := ih hothers
    exact ⟨value :: row, congrArg Nat.succ hrow, rfl⟩

theorem Matched.head {queue : List Item} {step : Step} {steps : List Step}
    (h : Matched queue (step :: steps)) : step.wanted <+: (queue ++ step.put).map Item.kind := by
  simpa [written, asked] using h 1 (Nat.succ_le_succ (Nat.zero_le _))

/-- After a step the rest of the steps match what it leaves. -/
theorem Matched.tail {queue front rest : List Item} {step : Step} {steps : List Step}
    (h : Matched queue (step :: steps)) (hqueue : queue ++ step.put = front ++ rest)
    (hfront : front.map Item.kind = step.wanted) : Matched rest steps := by
  intro n hn
  have hprefix := h (n + 1) (Nat.succ_le_succ hn)
  rw [List.take_succ_cons, asked_cons, written_cons, ← List.append_assoc, hqueue,
    List.append_assoc, List.map_append, hfront] at hprefix
  exact (List.prefix_append_right_inj _).1 hprefix

/-! ## One step -/

variable {b : Buffer} {queue : List Item}

/-- **A step takes from the front and puts at the back.**  If it asks for what is there, it answers
the first values that are left and leaves the others, with its own behind them. -/
theorem Unread.step {step : Step} (hb : b.Unread (queue.flatMap Item.stored))
    (hsize : b.size < positionLimit)
    (hwanted : step.wanted <+: (queue ++ step.put).map Item.kind) :
    ∃ answer rest b', step.run b = (.ok answer, b') ∧ answer.map Item.kind = step.wanted ∧
      queue ++ step.put = answer ++ rest ∧ b'.Unread (rest.flatMap Item.stored) ∧
      b'.size = b.size + (step.put.flatMap Item.stored).length := by
  cases step with
  | append bytes =>
    refine ⟨[], queue ++ bytes.toList.map .byte, b.append bytes, rfl, rfl, rfl, ?_, ?_⟩
    · rw [List.flatMap_append, Item.flatMap_stored_byte]
      exact hb.append bytes
    · rw [Step.put, Item.flatMap_stored_byte]
      exact Array.size_append
  | write item =>
    refine ⟨[], queue ++ [item], b.write item.value, rfl, rfl, rfl, ?_, ?_⟩
    · rw [List.flatMap_append, List.flatMap_singleton]
      exact hb.write item.value
    · rw [Step.put, List.flatMap_singleton]
      simp [size, Buffer.write, ← Array.length_toList, Item.stored]
  | read kind =>
    obtain ⟨front, rest, hqueue, hfront⟩ := exists_append_of_prefix hwanted
    obtain ⟨⟨_, value⟩, _, rfl, rfl, hnil⟩ := List.map_eq_cons_iff.1 hfront
    obtain rfl := List.map_eq_nil_iff.1 hnil
    rw [Step.put, List.append_nil] at hqueue
    subst hqueue
    rw [List.cons_append, List.flatMap_cons] at hb
    have hmoved := hb.seek
    rw [Item.stored, length_ofScalar] at hmoved
    refine ⟨[⟨_, value⟩], rest, _, ?_, rfl, by simp [Step.put], hmoved, rfl⟩
    rw [Step.run, Attempt.bind_of_ok (hb.read)]
    rfl
  | readMany kind count =>
    obtain ⟨front, rest, hqueue, hfront⟩ := exists_append_of_prefix hwanted
    obtain ⟨row, rfl, rfl⟩ := exists_row_of_replicate hfront
    rw [Step.put, List.append_nil] at hqueue
    subst hqueue
    rw [List.flatMap_append, Item.flatMap_stored_mk] at hb
    have hmoved := hb.seek
    have hheld := hb.holds.le_size
    rw [length_flatMap_ofScalar] at hmoved hheld
    have hcount : row.length * Scalar.width kind.Value < positionLimit :=
      Nat.lt_of_le_of_lt (Nat.le_trans (Nat.le_add_left _ _) hheld) hsize
    refine ⟨row.map (Item.mk kind), rest, _, ?_, hfront, by simp [Step.put], hmoved, rfl⟩
    rw [Step.run, Attempt.bind_of_ok (hb.readMany hcount)]
    rfl

/-! ## Any number of steps -/

/-- **Steps that ask for what is there** answer the first values that are left, each as many and of
the types as it asked for, and leave the others. -/
theorem Unread.runAll {steps : List Step} (hb : b.Unread (queue.flatMap Item.stored))
    (hsize : b.size + ((written steps).flatMap Item.stored).length < positionLimit)
    (hmatched : Matched queue steps) :
    ∃ (answers : List (List Item)) (rest : List Item),
      (Buffer.runAll steps b).1 = answers.map .ok ∧
      answers.map (List.map Item.kind) = steps.map Step.wanted ∧
      queue ++ written steps = answers.flatten ++ rest ∧
      (Buffer.runAll steps b).2.Unread (rest.flatMap Item.stored) := by
  induction steps generalizing b queue with
  | nil => exact ⟨[], queue, rfl, rfl, by simp [written], hb⟩
  | cons step steps ih =>
    rw [written_cons, List.flatMap_append, List.length_append] at hsize
    obtain ⟨answer, left, b', hrun, hkinds, hqueue, hb', hsize'⟩ :=
      hb.step (by omega) hmatched.head
    obtain ⟨answers, rest, hanswers, hall, hrest, hend⟩ :=
      ih hb' (by omega) (hmatched.tail hqueue hkinds)
    refine ⟨answer :: answers, rest, ?_, ?_, ?_, ?_⟩
    · simp only [Buffer.runAll, hrun, hanswers, List.map_cons]
    · rw [List.map_cons, List.map_cons, hkinds, hall]
    · rw [written_cons, ← List.append_assoc, hqueue, List.append_assoc, hrest,
        List.flatten_cons, List.append_assoc]
    · simpa only [Buffer.runAll, hrun] using hend

/-- As many values are answered as were asked for. -/
theorem length_flatten_of_kinds {answers : List (List Item)} {steps : List Step}
    (h : answers.map (List.map Item.kind) = steps.map Step.wanted) :
    answers.flatten.length = (asked steps).length := by
  have hkinds : answers.flatten.map Item.kind = asked steps := by
    rw [List.map_flatten, h]
    rfl
  rw [← hkinds, List.length_map]

/-! ## The whole queue -/

/-- **A buffer is a queue.**  Whatever is written and read in turns, starting from nothing: if every
read asks for the types of what is left, each gets as many values as it asked for, and all of them,
one after the other, are the first that were put in.  What is left then is what was not asked for,
so nothing if all of it was.  The only limit is the one of any buffer, whose size is a word.  And
whatever the steps are, writing moves no position and reading changes no byte. -/
theorem runAll_fifo (steps : List Step) :
    (Matched [] steps → ((written steps).flatMap Item.stored).length < positionLimit →
      ∃ answers : List (List Item),
        (runAll steps empty).1 = answers.map .ok ∧
        answers.map (List.map Item.kind) = steps.map Step.wanted ∧
        answers.flatten = (written steps).take (asked steps).length ∧
        (runAll steps empty).2.remaining =
          (((written steps).drop (asked steps).length).flatMap Item.stored).length ∧
        ((written steps).length = (asked steps).length → (runAll steps empty).2.remaining = 0)) ∧
    ∀ b : Buffer,
      (∀ bytes, ((Step.append bytes).run b).2.position = b.position) ∧
      (∀ item, ((Step.write item).run b).2.position = b.position) ∧
      (∀ kind, ((Step.read kind).run b).2.bytes = b.bytes) ∧
      ∀ kind count, ((Step.readMany kind count).run b).2.bytes = b.bytes := by
  refine ⟨fun hmatched hsize => ?_, fun b => ⟨fun _ => rfl, fun _ => rfl, ?_, ?_⟩⟩
  · have hstart : empty.Unread (([] : List Item).flatMap Item.stored) := unread_empty
    obtain ⟨answers, rest, hanswers, hkinds, hwritten, hend⟩ :=
      hstart.runAll (by simpa [empty, ofBytes, size] using hsize) hmatched
    have hlength := length_flatten_of_kinds hkinds
    rw [List.nil_append] at hwritten
    have hrest : rest = (written steps).drop (asked steps).length := by
      rw [hwritten, ← hlength, List.drop_left]
    refine ⟨answers, hanswers, hkinds, ?_, ?_, fun hall => ?_⟩
    · rw [hwritten, ← hlength, List.take_left]
    · rw [hend.remaining, hrest]
    · rw [hend.remaining, hrest, ← hall, List.drop_length]
      rfl
  · intro kind
    exact (Attempt.readOnly_read.bind fun _ => Attempt.readOnly_pure _) b
  · intro kind count
    exact (Attempt.readOnly_readMany.bind fun _ => Attempt.readOnly_pure _) b

/-- Bytes, a negative half word and a single that is no number, written and read in turns. -/
def mixedSteps : List Step :=
  [.append #[1, 2], .write ⟨.int16, (-3 : Int16)⟩, .read .uint8, .write ⟨.single, ⟨0x7fc00001⟩⟩,
    .readMany .uint8 1, .readMany .int16 1, .read .single]

theorem runAll_mixedSteps :
    Matched [] mixedSteps ∧ ((written mixedSteps).flatMap Item.stored).length < positionLimit ∧
      ∃ answers : List (List Item), (runAll mixedSteps empty).1 = answers.map .ok ∧
        answers.flatten = written mixedSteps ∧ (runAll mixedSteps empty).2.remaining = 0 := by
  have hmatched : Matched [] mixedSteps := by decide
  have hsize : ((written mixedSteps).flatMap Item.stored).length < positionLimit := by decide
  obtain ⟨answers, hanswers, -, htaken, -, hall⟩ := (runAll_fifo mixedSteps).1 hmatched hsize
  exact ⟨hmatched, hsize, answers, hanswers, htaken, hall rfl⟩

end Buffer

end Overland
