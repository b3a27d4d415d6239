import Netsystem.Api.RoundTrip

/-!
# Measuring and writing

`serialized_len`, `serialize` and `serialize_uninit` run the same calls on a `Serializer`, the
first one without an output. A `CallTree` is the tree of the calls that an implementation of
`Serialize` makes, whatever its type: also sequences with or without a length, and the calls that
the codec refuses. `serialize_agrees_serializedLen` says that the passes agree on every tree and
every output, and that no run ends in a subtraction below zero. `Shape.follows` places the shapes
among the trees.
-/

namespace Netsystem.Api

/-! ## Trees of calls -/

mutual

/-- The calls of one `Serialize::serialize`; an `f64` is its bits. -/
inductive CallTree : Type where
  | int (kind : Integer) (value : BitVec (8 * kind.size))
  | bool (value : Bool)
  | f64 (bits : BitVec 64)
  | str (value : String)
  | bytes (value : Bytes)
  | unit
  | newtype (inner : CallTree)
  | seq (length : Option Nat) (elements : Parts)
  | tuple (elements : Parts)
  | tupleStruct (elements : Parts)
  | struct (fields : Parts)
  | refused (message : String)

/-- The fields of a struct, or elements, whose labels nothing reads. -/
inductive Parts : Type where
  | nil
  | cons (name : String) (value : CallTree) (rest : Parts)

end

/-! ## Running them -/

/-- How a run ends early: with an error, or in a panic at an arithmetic overflow. -/
inductive Failure : Type where
  | error (reason : Error)
  | panic
  deriving DecidableEq

abbrev Encoding : Type → Type := EStateM Failure Serializer

/-- A text that cannot panic. -/
def unpanicked {α : Type} (text : Encode α) : Encoding α := fun serializer =>
  match text serializer with
  | .ok value after => .ok value after
  | .error reason after => .error (.error reason) after

/-- `left - right` of two `usize`. -/
def minus (left right : Nat) : Encoding Nat :=
  if left < right then throw .panic else pure (left - right)

/-- The guard of `serialize_bytes`: with an output, there is room for the length and the bytes. -/
def requireRoom (length : Nat) : Encoding Unit := do
  let serializer ← get
  match serializer.output with
  | none => pure ()
  | some output => do
      let room ← minus output.length serializer.offset
      if room < 4 then
        throw (.error (.custom "API output slice is too short"))
      let behind ← minus room 4
      if behind < length then
        throw (.error (.custom "API output slice is too short"))

/-- `serialize_bytes`, with its subtractions. -/
def callBytes (value : Bytes) : Encoding Unit := do
  if 2 ^ 32 ≤ value.length then
    throw (.error (.tryFromInt))
  requireRoom value.length
  unpanicked (write (beBytes 4 value.length))
  unpanicked (write value)

/-- `SerializeStruct::serialize_field`. -/
def callField (name : String) (field : Encoding Unit) : Encoding Unit := fun serializer =>
  match field { serializer with isOpaque := name = "client_index" } with
  | .ok value after => .ok value { after with isOpaque := serializer.isOpaque }
  | .error reason after => .error reason { after with isOpaque := serializer.isOpaque }

mutual

def CallTree.calls : CallTree → Encoding Unit
  | .int kind value => unpanicked (serializeInteger kind value)
  | .bool value => unpanicked (serializeBool value)
  | .f64 bits => unpanicked (write (leBytes 8 bits.toNat))
  | .str value => callBytes (toUtf8 value)
  | .bytes value => callBytes value
  | .unit => pure ()
  | .newtype inner => inner.calls
  | .seq none _ => throw (.error (.custom "API array requires a length"))
  | .seq (some _) elements => elements.callElements
  | .tuple elements => elements.callElements
  | .tupleStruct elements => elements.callElements
  | .struct fields => fields.callFields
  | .refused message => throw (.error (.custom message))

/-- `serialize_element`, once for each of them. -/
def Parts.callElements : Parts → Encoding Unit
  | .nil => pure ()
  | .cons _ value rest => do
      value.calls
      rest.callElements

def Parts.callFields : Parts → Encoding Unit
  | .nil => pure ()
  | .cons name value rest => do
      callField name value.calls
      rest.callFields

end

/-- The bytes behind a `&mut [u8]` or a `&mut [MaybeUninit<u8>]`: their number is a `usize`, and
one that is not initialised has some value that nothing reads. -/
structure Slice : Type where
  bytes : Bytes
  usize : bytes.length < 2 ^ 64

/-- `serialize_uninit`: how it ends, and what is then in the output. -/
def CallTree.serializeUninit (value : CallTree) (output : Slice) :
    Except Failure Nat × Option Bytes :=
  match value.calls { output := some output.bytes, offset := 0, isOpaque := false } with
  | .ok _ serializer => (.ok serializer.offset, serializer.output)
  | .error reason serializer => (.error reason, serializer.output)

/-- `Serializer::new`: the bytes as ones that may not be initialised. -/
def Serializer.new (output : Slice) : Serializer :=
  { output := some output.bytes, offset := 0, isOpaque := false }

/-- `serialize`. -/
def CallTree.serialize (value : CallTree) (output : Slice) : Except Failure Nat × Option Bytes :=
  match value.calls (Serializer.new output) with
  | .ok _ serializer => (.ok serializer.offset, serializer.output)
  | .error reason serializer => (.error reason, serializer.output)

/-- `serialized_len`. -/
def CallTree.serializedLen (value : CallTree) : Except Failure Nat :=
  match value.calls { output := none, offset := 0, isOpaque := false } with
  | .ok _ serializer => .ok serializer.offset
  | .error reason _ => .error reason

/-! ## The bytes of a tree -/

mutual

/-- The bytes written under the flag `isOpaque`, unless a part has no encoding. -/
def CallTree.encode : CallTree → (isOpaque : Bool) → Option Bytes
  | .int kind value, isOpaque =>
      some (if isOpaque then leBytes kind.size value.toNat else beBytes kind.size value.toNat)
  | .bool value, _ => some [boolByte value]
  | .f64 bits, _ => some (leBytes 8 bits.toNat)
  | .str value, _ =>
      if (toUtf8 value).length < 2 ^ 32 then some (encodeBytes (toUtf8 value)) else none
  | .bytes value, _ => if value.length < 2 ^ 32 then some (encodeBytes value) else none
  | .unit, _ => some []
  | .newtype inner, isOpaque => inner.encode isOpaque
  | .seq none _, _ => none
  | .seq (some _) elements, isOpaque => elements.encodeElements isOpaque
  | .tuple elements, isOpaque => elements.encodeElements isOpaque
  | .tupleStruct elements, isOpaque => elements.encodeElements isOpaque
  | .struct fields, _ => fields.encodeFields
  | .refused _, _ => none

def Parts.encodeElements : Parts → (isOpaque : Bool) → Option Bytes
  | .nil, _ => some []
  | .cons _ value rest, isOpaque => do
      let head ← value.encode isOpaque
      let tail ← rest.encodeElements isOpaque
      pure (head ++ tail)

def Parts.encodeFields : Parts → Option Bytes
  | .nil => some []
  | .cons name value rest => do
      let head ← value.encode (name = "client_index")
      let tail ← rest.encodeFields
      pure (head ++ tail)

end

/-! ## Room -/

namespace Serializer

/-- The largest offset: that of a full output, or of a full `usize`. -/
def limit (serializer : Serializer) : Nat :=
  match serializer.output with
  | none => 2 ^ 64 - 1
  | some output => output.length

/-- The serializer behind `bytes`. -/
def put (serializer : Serializer) (bytes : Bytes) : Serializer :=
  { serializer with
    output := serializer.output.map fun output => splice output serializer.offset bytes
    offset := serializer.offset + bytes.length }

/-- The bytes outside the output are none of the serializer's. -/
def SameRoom (serializer after : Serializer) : Prop :=
  after.output.map List.length = serializer.output.map List.length

structure Valid (serializer : Serializer) : Prop where
  inside : serializer.offset ≤ serializer.limit
  usize : serializer.limit < 2 ^ 64

variable {serializer : Serializer} {bytes left right : Bytes}

@[simp] theorem put_offset : (serializer.put bytes).offset = serializer.offset +
    bytes.length := rfl

@[simp] theorem put_isOpaque : (serializer.put bytes).isOpaque = serializer.isOpaque := rfl

theorem put_nil : serializer.put [] = serializer := by
  obtain ⟨output, offset, flag⟩ := serializer
  cases output with
  | none => rfl
  | some output => simp only [put, Option.map_some, splice_nil, List.length_nil, Nat.add_zero]

theorem sameRoom_put (room : serializer.offset + bytes.length ≤ serializer.limit) :
    serializer.SameRoom (serializer.put bytes) := by
  obtain ⟨output, offset, flag⟩ := serializer
  cases output with
  | none => rfl
  | some output => exact congrArg some (length_splice room)

theorem SameRoom.limit_eq {after : Serializer} (same : serializer.SameRoom after) :
    after.limit = serializer.limit := by
  obtain ⟨output, offset, flag⟩ := serializer
  obtain ⟨output', offset', flag'⟩ := after
  unfold SameRoom at same
  cases output with
  | none =>
      cases output' with
      | none => rfl
      | some output' => cases same
  | some output =>
      cases output' with
      | none => cases same
      | some output' => exact Option.some.inj same

theorem put_put (room : serializer.offset + left.length ≤ serializer.limit) :
    (serializer.put left).put right = serializer.put (left ++ right) := by
  obtain ⟨output, offset, flag⟩ := serializer
  cases output with
  | none => simp only [put, Option.map_none, List.length_append, Nat.add_assoc]
  | some output =>
      have joined : splice (splice output offset left) (offset + left.length) right =
          splice output offset (left ++ right) :=
        splice_splice left right (Nat.le_of_add_right_le room)
      simp only [put, Option.map_some, joined, List.length_append, Nat.add_assoc]

theorem Valid.put (valid : serializer.Valid)
    (room : serializer.offset + bytes.length ≤ serializer.limit) :
    (serializer.put bytes).Valid := by
  have limit := (sameRoom_put room).limit_eq
  exact ⟨by rw [limit]; exact room, by rw [limit]; exact valid.usize⟩

end Serializer

/-! ## What a call does -/

section Calls

variable {flag : Bool} {serializer : Serializer} {bytes : Bytes}

/-- Under the flag, the calls put the bytes wherever there is room for all of them. Without room,
or without bytes, they end in an error. -/
def Encodes (calls : Encoding Unit) (flag : Bool) (encoded : Option Bytes) : Prop :=
  ∀ serializer : Serializer, serializer.Valid → serializer.isOpaque = flag →
    (∃ bytes, encoded = some bytes ∧ serializer.offset + bytes.length ≤ serializer.limit ∧
      calls serializer = .ok () (serializer.put bytes)) ∨
    (∀ bytes, encoded = some bytes → serializer.limit < serializer.offset + bytes.length) ∧
      ∃ reason after, calls serializer = .error (.error reason) after ∧ serializer.SameRoom after

theorem write_put (valid : serializer.Valid)
    (room : serializer.offset + bytes.length ≤ serializer.limit) :
    unpanicked (write bytes) serializer = .ok () (serializer.put bytes) := by
  have usize := valid.usize
  have below : ¬ 2 ^ 64 ≤ serializer.offset + bytes.length := by omega
  obtain ⟨output, offset, isOpaque⟩ := serializer
  cases output with
  | none => simp only [unpanicked, write, if_neg below, Serializer.put, Option.map_none]
  | some output =>
      have inside : ¬ output.length < offset + bytes.length := Nat.not_lt.mpr room
      simp only [unpanicked, write, if_neg below, if_neg inside, Serializer.put, Option.map_some]

theorem write_full (full : serializer.limit < serializer.offset + bytes.length) :
    ∃ reason, unpanicked (write bytes) serializer = .error (.error reason) serializer := by
  obtain ⟨output, offset, isOpaque⟩ := serializer
  cases output with
  | none =>
      have above : 2 ^ 64 ≤ offset + bytes.length := by
        have past : 2 ^ 64 - 1 < offset + bytes.length := full
        omega
      refine ⟨.custom "API encoded length overflow", ?_⟩
      simp only [unpanicked, write, if_pos above]
  | some output =>
      by_cases above : 2 ^ 64 ≤ offset + bytes.length
      · refine ⟨.custom "API encoded length overflow", ?_⟩
        simp only [unpanicked, write, if_pos above]
      · have short : output.length < offset + bytes.length := full
        refine ⟨.custom "API output slice is too short", ?_⟩
        simp only [unpanicked, write, if_neg above, if_pos short]

theorem encodes_write (bytes : Bytes) : Encodes (unpanicked (write bytes)) flag (some bytes) := by
  intro serializer valid _
  by_cases room : serializer.offset + bytes.length ≤ serializer.limit
  · exact .inl ⟨bytes, rfl, room, write_put valid room⟩
  · have full := Nat.lt_of_not_le room
    obtain ⟨reason, run⟩ := write_full full
    refine .inr ⟨fun other same => ?_, reason, serializer, run, rfl⟩
    rwa [← Option.some.inj same]

theorem encodes_nil : Encodes (pure ()) flag (some []) := by
  intro serializer valid _
  refine .inl ⟨[], rfl, valid.inside, ?_⟩
  rw [Serializer.put_nil]
  rfl

theorem encodes_refused (reason : Error) : Encodes (throw (.error reason)) flag none := by
  intro serializer _ _
  exact .inr ⟨fun _ none_ => (by cases none_), reason, serializer, rfl, rfl⟩

theorem encodes_int (kind : Integer) (value : BitVec (8 * kind.size)) :
    Encodes (unpanicked (serializeInteger kind value)) flag
      (some (if flag then leBytes kind.size value.toNat else beBytes kind.size value.toNat)) := by
  intro serializer valid same
  subst same
  exact encodes_write _ serializer valid rfl

/-- The second calls run behind the bytes of the first ones. -/
theorem Encodes.append {first second : Encoding Unit} {left right : Option Bytes}
    (before : Encodes first flag left) (after : Encodes second flag right) :
    Encodes (do first; second) flag (do
      let head ← left
      let tail ← right
      pure (head ++ tail)) := by
  intro serializer valid same
  obtain ⟨head, rfl, room, ran⟩ | ⟨full, reason, stop, ran, within⟩ :=
    before serializer valid same
  · obtain ⟨tail, rfl, space, rest⟩ | ⟨full, reason, stop, rest, within⟩ :=
      after (serializer.put head) (valid.put room) same
    · rw [(Serializer.sameRoom_put room).limit_eq, Serializer.put_offset] at space
      refine .inl ⟨head ++ tail, rfl, ?_, ?_⟩
      · rw [List.length_append, ← Nat.add_assoc]
        exact space
      · rw [← Serializer.put_put room, ← rest]
        simp only [bind, EStateM.bind, ran]
    · refine .inr ⟨fun bytes joined => ?_, reason, stop, ?_, ?_⟩
      · cases right with
        | none => cases joined
        | some tail =>
            have short := full tail rfl
            rw [(Serializer.sameRoom_put room).limit_eq, Serializer.put_offset] at short
            rw [← Option.some.inj joined, List.length_append, ← Nat.add_assoc]
            exact short
      · simp only [bind, EStateM.bind, ran, rest]
      · exact within.trans (Serializer.sameRoom_put room)
  · refine .inr ⟨fun bytes joined => ?_, reason, stop, ?_, within⟩
    · cases left with
      | none => cases joined
      | some head =>
          cases right with
          | none => cases joined
          | some tail =>
              have short := full head rfl
              rw [← Option.some.inj joined, List.length_append]
              omega
    · simp only [bind, EStateM.bind, ran]

/-- A field is encoded under its own flag. -/
theorem Encodes.field {name : String} {calls : Encoding Unit} {encoded : Option Bytes}
    (encodes : Encodes calls (name = "client_index") encoded) :
    Encodes (callField name calls) flag encoded := by
  intro serializer valid _
  let inner : Serializer := { serializer with isOpaque := name = "client_index" }
  have started : inner.Valid := ⟨valid.inside, valid.usize⟩
  obtain ⟨bytes, some_, room, ran⟩ | ⟨full, reason, after, ran, within⟩ :=
    encodes inner started rfl
  · have put : calls { serializer with isOpaque := name = "client_index" } = _ := ran
    refine .inl ⟨bytes, some_, room, ?_⟩
    simp only [callField, put]
    rfl
  · have stopped : calls { serializer with isOpaque := name = "client_index" } = _ := ran
    refine .inr ⟨full, reason, { after with isOpaque := serializer.isOpaque }, ?_, within⟩
    simp only [callField, stopped]

/-- The offset never passes the end of the output, so the guard cannot panic. -/
theorem requireRoom_some {output : Bytes} {offset : Nat} (inside : offset ≤ output.length)
    (length : Nat) :
    requireRoom length ⟨some output, offset, flag⟩ =
      if output.length - offset < 4 ∨ output.length - offset - 4 < length then
        .error (.error (.custom "API output slice is too short")) ⟨some output, offset, flag⟩
      else .ok () ⟨some output, offset, flag⟩ := by
  have first : minus output.length offset = pure (output.length - offset) :=
    if_neg (Nat.not_lt.mpr inside)
  simp only [requireRoom, bind, EStateM.bind, get_run, first]
  by_cases header : output.length - offset < 4
  · rw [if_pos (Or.inl header)]
    simp only [pure, EStateM.pure, if_pos header]
    rfl
  · have second : minus (output.length - offset) 4 = pure (output.length - offset - 4) :=
      if_neg header
    by_cases body : output.length - offset - 4 < length
    · rw [if_pos (Or.inr body)]
      simp only [pure, EStateM.pure, if_neg header, second, EStateM.bind, if_pos body]
      rfl
    · rw [if_neg (not_or.mpr ⟨header, body⟩)]
      simp only [pure, EStateM.pure, if_neg header, second, EStateM.bind, if_neg body]

theorem requireRoom_run (valid : serializer.Valid) (length : Nat) :
    requireRoom length serializer = .ok () serializer ∨
    serializer.limit < serializer.offset + (4 + length) ∧
      ∃ reason, requireRoom length serializer = .error (.error reason) serializer := by
  have inside := valid.inside
  obtain ⟨output, offset, isOpaque⟩ := serializer
  cases output with
  | none => exact .inl rfl
  | some output =>
      have run : requireRoom length ⟨some output, offset, isOpaque⟩ =
          if output.length - offset < 4 ∨ output.length - offset - 4 < length then
            .error (.error (.custom "API output slice is too short"))
              ⟨some output, offset, isOpaque⟩
          else .ok () ⟨some output, offset, isOpaque⟩ :=
        requireRoom_some inside length
      by_cases short : output.length - offset < 4 ∨ output.length - offset - 4 < length
      · rw [if_pos short] at run
        refine .inr ⟨?_, _, run⟩
        show output.length < offset + (4 + length)
        omega
      · rw [if_neg short] at run
        exact .inl run

theorem encodes_bytes (value : Bytes) :
    Encodes (callBytes value) flag
      (if value.length < 2 ^ 32 then some (encodeBytes value) else none) := by
  by_cases short : value.length < 2 ^ 32
  · have both : Encodes (do unpanicked (write (beBytes 4 value.length)); unpanicked (write value))
        flag (some (encodeBytes value)) :=
      (encodes_write _).append (encodes_write _)
    rw [if_pos short]
    intro serializer valid same
    have sized : (encodeBytes value).length = 4 + value.length := by
      rw [encodeBytes, List.length_append, length_beBytes]
    obtain passed | ⟨full, reason, failed⟩ := requireRoom_run valid value.length
    · have run : callBytes value serializer =
          (do unpanicked (write (beBytes 4 value.length)); unpanicked (write value))
            serializer := by
        simp only [callBytes, if_neg (Nat.not_le.mpr short), bind, EStateM.bind, passed]
      rw [run]
      exact both serializer valid same
    · refine .inr ⟨fun bytes some_ => ?_, reason, serializer, ?_, rfl⟩
      · rw [← Option.some.inj some_, sized]
        exact full
      · simp only [callBytes, if_neg (Nat.not_le.mpr short), bind, EStateM.bind, failed]
  · rw [if_neg short]
    intro serializer _ _
    refine .inr ⟨fun _ none_ => (by cases none_),
      .tryFromInt, serializer, ?_, rfl⟩
    simp only [callBytes, if_pos (Nat.not_lt.mp short)]
    rfl

end Calls

mutual

theorem CallTree.encodes : ∀ (value : CallTree) (flag : Bool),
    Encodes value.calls flag (value.encode flag)
  | .int kind value, _ => encodes_int kind value
  | .bool value, _ => encodes_write [boolByte value]
  | .f64 bits, _ => encodes_write (leBytes 8 bits.toNat)
  | .str value, _ => encodes_bytes (toUtf8 value)
  | .bytes value, _ => encodes_bytes value
  | .unit, _ => encodes_nil
  | .newtype inner, flag => inner.encodes flag
  | .seq none _, _ => encodes_refused (.custom "API array requires a length")
  | .seq (some _) elements, flag => elements.encodes_elements flag
  | .tuple elements, flag => elements.encodes_elements flag
  | .tupleStruct elements, flag => elements.encodes_elements flag
  | .struct fields, flag => fields.encodes_fields flag
  | .refused message, _ => encodes_refused (.custom message)

theorem Parts.encodes_elements : ∀ (elements : Parts) (flag : Bool),
    Encodes elements.callElements flag (elements.encodeElements flag)
  | .nil, _ => encodes_nil
  | .cons _ value rest, flag => (value.encodes flag).append (rest.encodes_elements flag)

theorem Parts.encodes_fields : ∀ (fields : Parts) (flag : Bool),
    Encodes fields.callFields flag fields.encodeFields
  | .nil, _ => encodes_nil
  | .cons name value rest, flag =>
      (value.encodes (name = "client_index")).field.append (rest.encodes_fields flag)

end

/-! ## The two passes -/

section Passes

variable {value : CallTree} {bytes : Bytes}

/-- The measuring pass counts the bytes, up to the end of a `usize`. -/
theorem CallTree.serializedLen_eq_ok_iff (value : CallTree) (count : Nat) :
    value.serializedLen = .ok count ↔
      ∃ bytes, value.encode false = some bytes ∧ bytes.length = count ∧ count < 2 ^ 64 := by
  have valid : Serializer.Valid { output := none, offset := 0, isOpaque := false } :=
    ⟨Nat.zero_le _, by show 2 ^ 64 - 1 < 2 ^ 64; omega⟩
  obtain ⟨bytes, some_, room, ran⟩ | ⟨full, reason, after, ran, _⟩ :=
    value.encodes false _ valid rfl
  · have below : 0 + bytes.length ≤ 2 ^ 64 - 1 := room
    simp only [serializedLen, ran, Serializer.put_offset, Nat.zero_add, Except.ok.injEq]
    constructor
    · intro same
      exact ⟨bytes, some_, same, by omega⟩
    · intro ⟨other, other_, same, _⟩
      rw [← Option.some.inj (some_.symm.trans other_)] at same
      exact same
  · simp only [serializedLen, ran]
    refine ⟨fun failed => (by cases failed), ?_⟩
    intro ⟨content, some_, same, below⟩
    have above : 2 ^ 64 - 1 < 0 + content.length := full content some_
    omega

theorem CallTree.serializedLen_ne_panic (value : CallTree) :
    value.serializedLen ≠ .error .panic := by
  have valid : Serializer.Valid { output := none, offset := 0, isOpaque := false } :=
    ⟨Nat.zero_le _, by show 2 ^ 64 - 1 < 2 ^ 64; omega⟩
  obtain ⟨bytes, _, _, ran⟩ | ⟨_, reason, after, ran, _⟩ := value.encodes false _ valid rfl
  · simp only [serializedLen, ran]
    exact fun failed => (by cases failed)
  · simp only [serializedLen, ran]
    exact fun failed => (by cases failed)

/-- How a run of the writing pass on `output` has to end, where `encoding` is what it writes. -/
structure CallTree.Written (value : CallTree) (encoding : Bytes) (output : Slice)
    (run : Except Failure Nat × Option Bytes) : Prop where
  /-- It succeeds where the measured bytes have room. -/
  ok_iff : ∀ count, run.1 = .ok count ↔
    value.serializedLen = .ok count ∧ count ≤ output.bytes.length
  /-- The bytes in front are the encoding, and the later ones are as before. -/
  content : ∀ count, run.1 = .ok count →
    encoding.length = count ∧ run.2 = some (encoding ++ output.bytes.drop count)
  /-- No byte is written outside the output, whether the run succeeds or not. -/
  room : run.2.map List.length = some output.bytes.length
  no_panic : run.1 ≠ .error .panic

theorem CallTree.written_serialize (value : CallTree) (output : Slice) :
    value.Written ((value.encode false).getD []) output (value.serialize output) := by
  have valid : (Serializer.new output).Valid := ⟨Nat.zero_le _, output.usize⟩
  have measured := value.serializedLen_eq_ok_iff
  have usize := output.usize
  obtain ⟨bytes, some_, room, ran⟩ | ⟨full, reason, after, ran, within⟩ :=
    value.encodes false (Serializer.new output) valid rfl
  · have fits : 0 + bytes.length ≤ output.bytes.length := room
    have run : value.serialize output =
        (.ok (0 + bytes.length), some (splice output.bytes 0 bytes)) := by
      simp only [serialize, ran]
      rfl
    rw [Nat.zero_add] at fits run
    rw [run, some_]
    refine ⟨fun count => ?_, fun count counted => ?_, ?_, fun failed => (by cases failed)⟩
    · rw [measured, Except.ok.injEq]
      constructor
      · intro same
        exact ⟨⟨bytes, some_, same, by omega⟩, by omega⟩
      · intro ⟨⟨other, other_, same, _⟩, _⟩
        rw [← Option.some.inj (some_.symm.trans other_)] at same
        exact same
    · have same := Except.ok.inj counted
      refine ⟨same, ?_⟩
      rw [← same, splice, List.take_zero, List.nil_append, Nat.zero_add]
      rfl
    · exact congrArg some (length_splice (by omega))
  · have run : value.serialize output = (.error (.error reason), after.output) := by
      simp only [serialize, ran]
    rw [run]
    refine ⟨fun count => ?_, fun count counted => (by cases counted), within,
      fun failed => (by cases failed)⟩
    rw [measured]
    refine ⟨fun failed => (by cases failed), ?_⟩
    intro ⟨⟨content, some_, same, _⟩, fits⟩
    have short : output.bytes.length < 0 + content.length := full content some_
    omega

/-- **Measuring agrees with writing.** For every tree of calls there is one string of bytes that
both ways of writing leave in every output, and they succeed exactly where the measured length
fits. -/
theorem serialize_agrees_serializedLen (value : CallTree) :
    value.serializedLen ≠ .error .panic ∧
      ∃ encoding, ∀ output : Slice,
        value.Written encoding output (value.serialize output) ∧
          value.Written encoding output (value.serializeUninit output) := by
  refine ⟨value.serializedLen_ne_panic, (value.encode false).getD [], fun output => ?_⟩
  have written := value.written_serialize output
  exact ⟨written, written⟩

end Passes

/-! ## Shapes -/

def arrayParts {α : Type} (element : α → CallTree) : (count : Nat) → Repeated α count → Parts
  | 0, _ => .nil
  | count + 1, value => .cons "" (element value.1) (arrayParts element count value.2)

mutual

/-- The calls of a value of a shape. -/
def Shape.tree : (shape : Shape) → shape.Val → CallTree
  | .int kind, value => .int kind value
  | .bool, value => .bool value
  | .str, value => .str value
  | .string, value => .bytes value
  | .newtype inner, value => .newtype (inner.tree value)
  | .tuple elements, value => .tuple (elements.parts value)
  | .tupleStruct elements, value => .tupleStruct (elements.parts value)
  | .array count element, value => .tuple (arrayParts element.tree count value)
  | .struct fields, value => .struct (fields.parts value)

def Fields.parts : (fields : Fields) → fields.Val → Parts
  | .nil, _ => .nil
  | .cons name shape rest, value => .cons name (shape.tree value.1) (rest.parts value.2)

end

/-- The calls and the text run alike wherever the offset is inside the output. -/
def Follows (calls : Encoding Unit) (text : Encode Unit) : Prop :=
  ∀ serializer : Serializer, serializer.Valid → calls serializer = unpanicked text serializer

/-- Calls that leave the offset inside the output. -/
def Keeps (calls : Encoding Unit) : Prop :=
  ∀ serializer after : Serializer, serializer.Valid → calls serializer = .ok () after →
    after.Valid

theorem keeps_of_encodes {calls : Encoding Unit} {encoded : Bool → Option Bytes}
    (encodes : ∀ flag, Encodes calls flag (encoded flag)) : Keeps calls := by
  intro serializer after valid ran
  obtain ⟨bytes, _, room, put⟩ | ⟨_, reason, stop, failed, _⟩ :=
    encodes serializer.isOpaque serializer valid rfl
  · rw [ran] at put
    cases put
    exact valid.put room
  · rw [ran] at failed
    cases failed

theorem follows_nil : Follows (pure ()) (pure ()) := fun _ _ => rfl

theorem Follows.append {first second : Encoding Unit} {before after : Encode Unit}
    (front : Follows first before) (keeps : Keeps first) (back : Follows second after) :
    Follows (do first; second) (do before; after) := by
  intro serializer valid
  have ran := front serializer valid
  simp only [unpanicked, bind, EStateM.bind] at ran ⊢
  cases run : before serializer with
  | ok value middle =>
      rw [run] at ran
      rw [ran]
      exact back middle (keeps serializer middle valid ran)
  | error reason stop =>
      rw [run] at ran
      rw [ran]

theorem Follows.field {name : String} {calls : Encoding Unit} {text : Encode Unit}
    (follows : Follows calls text) : Follows (callField name calls)
      (serializeField name text) := by
  intro serializer valid
  have ran := follows { serializer with isOpaque := name = "client_index" }
    ⟨valid.inside, valid.usize⟩
  simp only [callField, serializeField, unpanicked, ran]
  cases text { serializer with isOpaque := name = "client_index" } <;> rfl

theorem unpanicked_bind {α β : Type} (text : Encode α) (next : α → Encode β) :
    unpanicked (text >>= next) = unpanicked text >>= fun value => unpanicked (next value) := by
  funext serializer
  simp only [unpanicked, bind, EStateM.bind]
  cases text serializer <;> rfl

theorem follows_bytes (value : Bytes) : Follows (callBytes value) (serializeBytes value) := by
  intro serializer valid
  have inside := valid.inside
  obtain ⟨output, offset, isOpaque⟩ := serializer
  by_cases short : 2 ^ 32 ≤ value.length
  · simp only [callBytes, unpanicked, serializeBytes, if_pos short]
    rfl
  have both : unpanicked (do write (beBytes 4 value.length); write value) =
      (do unpanicked (write (beBytes 4 value.length)); unpanicked (write value)) :=
    unpanicked_bind _ _
  cases output with
  | none =>
      have guarded : requireRoom value.length ⟨none, offset, isOpaque⟩ =
          .ok () ⟨none, offset, isOpaque⟩ := rfl
      have text : unpanicked (serializeBytes value) ⟨none, offset, isOpaque⟩ =
          unpanicked (do write (beBytes 4 value.length); write value)
            ⟨none, offset, isOpaque⟩ := by
        simp only [unpanicked, serializeBytes, if_neg short, bind, EStateM.bind, get_run]
      rw [text, both]
      simp only [callBytes, if_neg short, bind, EStateM.bind, guarded]
  | some output =>
      have guarded : requireRoom value.length ⟨some output, offset, isOpaque⟩ =
          if output.length - offset < 4 ∨ output.length - offset - 4 < value.length then
            .error (.error (.custom "API output slice is too short"))
              ⟨some output, offset, isOpaque⟩
          else .ok () ⟨some output, offset, isOpaque⟩ :=
        requireRoom_some inside value.length
      by_cases full : output.length - offset < 4 ∨ output.length - offset - 4 < value.length
      · rw [if_pos full] at guarded
        simp only [callBytes, unpanicked, serializeBytes, if_neg short, bind,
          EStateM.bind, get_run, guarded, if_pos full]
        rfl
      · rw [if_neg full] at guarded
        have text : unpanicked (serializeBytes value) ⟨some output, offset, isOpaque⟩ =
            unpanicked (do write (beBytes 4 value.length); write value)
              ⟨some output, offset, isOpaque⟩ := by
          simp only [unpanicked, serializeBytes, if_neg short, bind, EStateM.bind, get_run,
            if_neg full]
        rw [text, both]
        simp only [callBytes, if_neg short, bind, EStateM.bind, guarded]

theorem follows_array {α : Type} {element : α → CallTree} {text : α → Encode Unit}
    (each : ∀ value, Follows (element value).calls (text value)) :
    ∀ (count : Nat) (value : Repeated α count),
      Follows (arrayParts element count value).callElements (serializeArray text count value)
  | 0, _ => follows_nil
  | count + 1, value =>
      (each value.1).append (keeps_of_encodes (element value.1).encodes)
        (follows_array each count value.2)

mutual

/-- The calls of a shape are those of its tree. -/
theorem Shape.follows : ∀ (shape : Shape) (value : shape.Val),
    Follows (shape.tree value).calls (shape.serialize value)
  | .int _, _ => fun _ _ => rfl
  | .bool, _ => fun _ _ => rfl
  | .str, value => follows_bytes (toUtf8 value)
  | .string, value => follows_bytes value
  | .newtype inner, value => inner.follows value
  | .tuple elements, value => elements.follows_elements value
  | .tupleStruct elements, value => elements.follows_elements value
  | .array count element, value => follows_array element.follows count value
  | .struct fields, value => fields.follows_fields value

theorem Fields.follows_elements : ∀ (elements : Fields) (value : elements.Val),
    Follows (elements.parts value).callElements (elements.serializeElements value)
  | .nil, _ => follows_nil
  | .cons _ shape rest, value =>
      (shape.follows value.1).append (keeps_of_encodes (shape.tree value.1).encodes)
        (rest.follows_elements value.2)

theorem Fields.follows_fields : ∀ (fields : Fields) (value : fields.Val),
    Follows (fields.parts value).callFields (fields.serializeFields value)
  | .nil, _ => follows_nil
  | .cons name shape rest, value =>
      (shape.follows value.1).field.append
        (keeps_of_encodes fun _ => ((shape.tree value.1).encodes (name = "client_index")).field)
        (rest.follows_fields value.2)

end

theorem encoded_eq_some_iff {content bytes : Bytes} :
    some content = some bytes ↔ True ∧ bytes = content := by
  rw [Option.some.injEq, true_and, eq_comm]

theorem encoded_if_eq_some_iff {short : Prop} [Decidable short] {content bytes : Bytes} :
    (if short then some content else none) = some bytes ↔ short ∧ bytes = content := by
  rw [Option.ite_none_right_eq_some, Option.some.injEq, eq_comm]

/-- Two encodings behind each other, both of which there are. -/
theorem appended_eq_some_iff {left right : Option Bytes} {front back bytes : Bytes}
    {before after : Prop} (head : ∀ bytes, left = some bytes ↔ before ∧ bytes = front)
    (tail : ∀ bytes, right = some bytes ↔ after ∧ bytes = back) :
    (do
      let head ← left
      let tail ← right
      pure (head ++ tail)) = some bytes ↔ (before ∧ after) ∧ bytes = front ++ back := by
  cases left with
  | none =>
      refine ⟨fun none_ => (by cases none_), fun ⟨⟨short, _⟩, _⟩ => ?_⟩
      cases (head front).mpr ⟨short, rfl⟩
  | some first =>
      obtain ⟨short, rfl⟩ := (head first).mp rfl
      cases right with
      | none =>
          refine ⟨fun none_ => (by cases none_), fun ⟨⟨_, short⟩, _⟩ => ?_⟩
          cases (tail back).mpr ⟨short, rfl⟩
      | some second =>
          obtain ⟨small, rfl⟩ := (tail second).mp rfl
          constructor
          · intro same
            exact ⟨⟨short, small⟩, (Option.some.inj same).symm⟩
          · intro ⟨_, same⟩
            exact congrArg some same.symm

theorem encodeElements_array {α : Type} {element : α → CallTree} {flag : Bool} {bytes : α → Bytes}
    {short : α → Prop}
    (each : ∀ value encoded, (element value).encode flag = some encoded ↔
      short value ∧ encoded = bytes value) :
    ∀ (count : Nat) (value : Repeated α count) (encoded : Bytes),
      (arrayParts element count value).encodeElements flag = some encoded ↔
        Repeated.All short count value ∧ encoded = encodeArray bytes count value
  | 0, _, _ => encoded_eq_some_iff
  | count + 1, value, _ =>
      appended_eq_some_iff (each value.1) (encodeElements_array each count value.2)

mutual

/-- The tree has an encoding exactly when the strings of the value are short, and it is that of
the shape. -/
theorem Shape.encode_tree : ∀ (shape : Shape) (flag : Bool) (value : shape.Val) (bytes : Bytes),
    (shape.tree value).encode flag = some bytes ↔
      shape.Short value ∧ bytes = shape.encode flag value
  | .int _, _, _, _ => encoded_eq_some_iff
  | .bool, _, _, _ => encoded_eq_some_iff
  | .str, _, _, _ => encoded_if_eq_some_iff
  | .string, _, _, _ => encoded_if_eq_some_iff
  | .newtype inner, flag, value, bytes => inner.encode_tree flag value bytes
  | .tuple elements, flag, value, bytes => elements.encode_elements flag value bytes
  | .tupleStruct elements, flag, value, bytes => elements.encode_elements flag value bytes
  | .array count element, flag, value, bytes =>
      encodeElements_array (element.encode_tree flag) count value bytes
  | .struct fields, _, value, bytes => fields.encode_fields value bytes

theorem Fields.encode_elements : ∀ (elements : Fields) (flag : Bool) (value : elements.Val)
    (bytes : Bytes), (elements.parts value).encodeElements flag = some bytes ↔
      elements.Short value ∧ bytes = elements.encodeElements flag value
  | .nil, _, _, _ => encoded_eq_some_iff
  | .cons _ shape rest, flag, value, _ =>
      appended_eq_some_iff (shape.encode_tree flag value.1) (rest.encode_elements flag value.2)

theorem Fields.encode_fields : ∀ (fields : Fields) (value : fields.Val) (bytes : Bytes),
    (fields.parts value).encodeFields = some bytes ↔
      fields.Short value ∧ bytes = fields.encodeFields value
  | .nil, _, _ => encoded_eq_some_iff
  | .cons name shape rest, value, _ =>
      appended_eq_some_iff (shape.encode_tree (name = "client_index") value.1)
        (rest.encode_fields value.2)

end

/-- A shape is measured as its tree. -/
theorem Shape.serializedLen_tree (shape : Shape) (value : shape.Val) :
    (shape.tree value).serializedLen = (Api.serializedLen shape value).mapError .error := by
  have valid : Serializer.Valid { output := none, offset := 0, isOpaque := false } :=
    ⟨Nat.zero_le _, by show 2 ^ 64 - 1 < 2 ^ 64; omega⟩
  simp only [CallTree.serializedLen, shape.follows value _ valid, unpanicked, Api.serializedLen]
  cases shape.serialize value { output := none, offset := 0, isOpaque := false } <;> rfl

/-- A value that can be measured is short, and the measure is the length of its encoding. -/
theorem serializedLen_eq_ok_iff (shape : Shape) (value : shape.Val) (count : Nat) :
    serializedLen shape value = .ok count ↔
      shape.Short value ∧ (shape.encode false value).length = count ∧ count < 2 ^ 64 := by
  have measured := (shape.tree value).serializedLen_eq_ok_iff count
  have run : (shape.tree value).serializedLen = .ok count ↔
      serializedLen shape value = .ok count := by
    rw [shape.serializedLen_tree]
    cases serializedLen shape value <;> simp [Except.mapError]
  rw [← run, measured]
  constructor
  · intro ⟨bytes, some_, counted, below⟩
    obtain ⟨short, rfl⟩ := (shape.encode_tree false value bytes).mp some_
    exact ⟨short, counted, below⟩
  · intro ⟨short, counted, below⟩
    exact ⟨_, (shape.encode_tree false value _).mpr ⟨short, rfl⟩, counted, below⟩

end Netsystem.Api
