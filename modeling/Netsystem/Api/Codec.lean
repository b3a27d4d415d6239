import Netsystem.Bytes

/-!
# The wire codec

`hammer-binary-api-protocol/src/codec.rs`. A `Shape` is a type with a wire format, built as
serde's derived and built-in impls build it, and `Shape.Val` is the type of its values.
`Shape.serialize` and `Shape.deserialize` are the calls that those impls make on the `Serializer`
and the `Deserializer`; both keep the state they had reached when they fail. The host is
little-endian.
-/

namespace Netsystem.Api

/-! ## Errors -/

/-- `serde::de::value::Error`: a text of the codec's own, a diagnostic of a derived visitor, or
one of the standard library, of its UTF-8 check or of a conversion between integer types. -/
inductive Error : Type where
  | custom (message : String)
  | invalidLength (index : Nat)
  | utf8
  | tryFromInt
  deriving DecidableEq, Repr

/-! ## Shapes and values -/

/-- The integer types with a wire format. -/
inductive Integer : Type where
  | u8 | u16 | u32 | u64 | i8 | i16 | i32 | i64
  deriving DecidableEq, Repr

/-- Bytes on the wire. -/
def Integer.size : Integer → Nat
  | .u8 => 1
  | .u16 => 2
  | .u32 => 4
  | .u64 => 8
  | .i8 => 1
  | .i16 => 2
  | .i32 => 4
  | .i64 => 8

mutual

/-- A type with a wire format: `str` is text and `string` is `codec::String`. -/
inductive Shape : Type where
  | int (kind : Integer)
  | bool
  | str
  | string
  | newtype (inner : Shape)
  | tuple (elements : Fields)
  | tupleStruct (elements : Fields)
  | array (count : Nat) (element : Shape)
  | struct (fields : Fields)

/-- The named parts of a struct, or the parts of a tuple, whose labels nothing reads. -/
inductive Fields : Type where
  | nil
  | cons (name : String) (shape : Shape) (rest : Fields)

end

/-- The labels, in order: `FIELDS` of a derived struct. -/
def Fields.names : Fields → List String
  | .nil => []
  | .cons name _ rest => name :: rest.names

/-- `count` values. -/
def Repeated (α : Type) : Nat → Type
  | 0 => Unit
  | count + 1 => α × Repeated α count

mutual

/-- The values of a shape; an integer is its bits, in two's complement where it has a sign. -/
def Shape.Val : Shape → Type
  | .int kind => BitVec (8 * kind.size)
  | .bool => Bool
  | .str => String
  | .string => Bytes
  | .newtype inner => inner.Val
  | .tuple elements => elements.Val
  | .tupleStruct elements => elements.Val
  | .array count element => Repeated element.Val count
  | .struct fields => fields.Val

def Fields.Val : Fields → Type
  | .nil => Unit
  | .cons _ shape rest => shape.Val × rest.Val

end

/-! ## Encoding -/

/-- `Serializer`; without an output it only measures. -/
structure Serializer : Type where
  output : Option Bytes
  offset : Nat
  isOpaque : Bool
  deriving DecidableEq

abbrev Encode : Type → Type := EStateM Error Serializer

theorem get_run {ε σ : Type} (state : σ) : (get : EStateM ε σ σ) state = .ok state state := rfl

/-- `Serializer::write`: the end of the write is a `usize`. -/
def write (bytes : Bytes) : Encode Unit := fun serializer =>
  let stop := serializer.offset + bytes.length
  if 2 ^ 64 ≤ stop then .error (.custom "API encoded length overflow") serializer
  else
    match serializer.output with
    | none => .ok () { serializer with offset := stop }
    | some output =>
        if output.length < stop then
          .error (.custom "API output slice is too short") serializer
        else
          .ok () { serializer with
            output := some (splice output serializer.offset bytes)
            offset := stop }

/-- `serialize_u8` to `serialize_i64`. -/
def serializeInteger (kind : Integer) (value : BitVec (8 * kind.size)) : Encode Unit := do
  let serializer ← get
  write (if serializer.isOpaque then leBytes kind.size value.toNat
    else beBytes kind.size value.toNat)

/-- `u8::from(bool)`. -/
def boolByte (value : Bool) : UInt8 := if value then 1 else 0

def serializeBool (value : Bool) : Encode Unit := write [boolByte value]

/-- `serialize_bytes`; the offset never passes the end of the output. -/
def serializeBytes (value : Bytes) : Encode Unit := do
  if 2 ^ 32 ≤ value.length then
    throw (.tryFromInt)
  let serializer ← get
  match serializer.output with
  | none => pure ()
  | some output =>
      if output.length - serializer.offset < 4 ∨
          output.length - serializer.offset - 4 < value.length then
        throw (.custom "API output slice is too short")
  write (beBytes 4 value.length)
  write value

/-- `SerializeStruct::serialize_field`: the flag is set for the field and put back after it. -/
def serializeField (name : String) (field : Encode Unit) : Encode Unit := fun serializer =>
  match field { serializer with isOpaque := name = "client_index" } with
  | .ok value after => .ok value { after with isOpaque := serializer.isOpaque }
  | .error reason after => .error reason { after with isOpaque := serializer.isOpaque }

/-- `serialize_element`, once for each element of an array. -/
def serializeArray {α : Type} (element : α → Encode Unit) :
    (count : Nat) → Repeated α count → Encode Unit
  | 0, _ => pure ()
  | count + 1, value => do
      element value.1
      serializeArray element count value.2

mutual

/-- The calls of `Serialize::serialize`. -/
def Shape.serialize : (shape : Shape) → shape.Val → Encode Unit
  | .int kind, value => serializeInteger kind value
  | .bool, value => serializeBool value
  | .str, value => serializeBytes (toUtf8 value)
  | .string, value => serializeBytes value
  | .newtype inner, value => inner.serialize value
  | .tuple elements, value => elements.serializeElements value
  | .tupleStruct elements, value => elements.serializeElements value
  | .array count element, value => serializeArray element.serialize count value
  | .struct fields, value => fields.serializeFields value

/-- The elements of a tuple or a tuple struct, under the flag they find. -/
def Fields.serializeElements : (elements : Fields) → elements.Val → Encode Unit
  | .nil, _ => pure ()
  | .cons _ shape rest, value => do
      shape.serialize value.1
      rest.serializeElements value.2

/-- The fields of a struct. -/
def Fields.serializeFields : (fields : Fields) → fields.Val → Encode Unit
  | .nil, _ => pure ()
  | .cons name shape rest, value => do
      serializeField name (shape.serialize value.1)
      rest.serializeFields value.2

end

/-- `codec::serialize`: the number of bytes written, and what is then in the output. -/
def serialize (shape : Shape) (value : shape.Val) (output : Bytes) :
    Except Error Nat × Option Bytes :=
  match shape.serialize value { output := some output, offset := 0, isOpaque := false } with
  | .ok _ serializer => (.ok serializer.offset, serializer.output)
  | .error reason serializer => (.error reason, serializer.output)

/-- `codec::serialized_len`. -/
def serializedLen (shape : Shape) (value : shape.Val) : Except Error Nat :=
  match shape.serialize value { output := none, offset := 0, isOpaque := false } with
  | .ok _ serializer => .ok serializer.offset
  | .error reason _ => .error reason

/-! ## Decoding -/

structure Deserializer : Type where
  input : Bytes
  offset : Nat
  remaining : Nat
  fields : List String
  isOpaque : Bool
  deriving DecidableEq

abbrev Decode : Type → Type := EStateM Error Deserializer

/-- `Deserializer::new`. -/
def Deserializer.new (input : Bytes) : Deserializer :=
  { input := input, offset := 0, remaining := 0, fields := [], isOpaque := false }

/-- `remaining_bytes`; the offset never passes the end of the input. -/
def Deserializer.remainingBytes (deserializer : Deserializer) : Nat :=
  deserializer.input.length - deserializer.offset

/-- `Deserializer::read`: the end of the read is a `usize`. -/
def read (length : Nat) : Decode Bytes := fun deserializer =>
  let stop := deserializer.offset + length
  if stop < 2 ^ 64 ∧ stop ≤ deserializer.input.length then
    .ok (window deserializer.input deserializer.offset length)
      { deserializer with offset := stop }
  else .error (.custom "truncated API message") deserializer

/-- `Deserializer::sequence`: count and labels are put back after the visit, failed or not. -/
def sequence {α : Type} (length : Nat) (fields : List String) (visitor : Decode α) : Decode α :=
  fun deserializer =>
    if fields = [] ∧ deserializer.remainingBytes < length then
      .error (.custom "truncated API array") deserializer
    else
      match visitor { deserializer with remaining := length, fields := fields } with
      | .error reason after =>
          .error reason
            { after with remaining := deserializer.remaining, fields := deserializer.fields }
      | .ok value after =>
          if after.remaining ≠ 0 then
            .error (.custom "API array element count mismatch")
              { after with remaining := deserializer.remaining, fields := deserializer.fields }
          else
            .ok value
              { after with remaining := deserializer.remaining, fields := deserializer.fields }

/-- `SeqAccess::next_element_seed`. -/
def nextElement {α : Type} (seed : Decode α) : Decode (Option α) := fun deserializer =>
  if deserializer.remaining = 0 then .ok none deserializer
  else
    let label :=
      deserializer.fields[deserializer.fields.length - deserializer.remaining]?
    match seed { deserializer with
        isOpaque := label = some "client_index"
        remaining := deserializer.remaining - 1 } with
    | .error reason after => .error reason { after with isOpaque := deserializer.isOpaque }
    | .ok value after =>
        if deserializer.fields = [] ∧ after.offset = deserializer.offset then
          .error (.custom "API array elements must consume wire bytes")
            { after with isOpaque := deserializer.isOpaque }
        else .ok (some value) { after with isOpaque := deserializer.isOpaque }

/-- One element of a visitor that knows how many there are. -/
def element {α : Type} (index : Nat) (seed : Decode α) : Decode α := do
  match ← nextElement seed with
  | some value => pure value
  | none => throw (.invalidLength index)

/-- `deserialize_u8` to `deserialize_i64`. -/
def deserializeInteger (kind : Integer) : Decode (BitVec (8 * kind.size)) := do
  let bytes ← read kind.size
  let deserializer ← get
  pure (BitVec.ofNat _ (if deserializer.isOpaque then leNat bytes else beNat bytes))

def deserializeBool : Decode Bool := do
  let bytes ← read 1
  pure (bytes ≠ [0])

/-- `deserialize_byte_buf`. -/
def deserializeByteBuf : Decode Bytes := do
  let length ← read 4
  read (beNat length)

/-- `deserialize_string`. -/
def deserializeString : Decode String := do
  match fromUtf8 (← deserializeByteBuf) with
  | some text => pure text
  | none => throw .utf8

/-- The visitor of an array. -/
def deserializeArray {α : Type} (seed : Decode α) : (index count : Nat) →
    Decode (Repeated α count)
  | _, 0 => pure ()
  | index, count + 1 => do
      let head ← element index seed
      let rest ← deserializeArray seed (index + 1) count
      pure (head, rest)

mutual

/-- The calls of `Deserialize::deserialize`. -/
def Shape.deserialize : (shape : Shape) → Decode shape.Val
  | .int kind => deserializeInteger kind
  | .bool => deserializeBool
  | .str => deserializeString
  | .string => deserializeByteBuf
  | .newtype inner => inner.deserialize
  | .tuple elements => sequence elements.names.length [] (elements.visitSeq 0)
  | .tupleStruct elements => sequence elements.names.length [] (elements.visitSeq 0)
  | .array count element => sequence count [] (deserializeArray element.deserialize 0 count)
  | .struct fields => sequence fields.names.length fields.names (fields.visitSeq 0)

/-- `visit_seq` of a tuple or a struct. -/
def Fields.visitSeq : (elements : Fields) → (index : Nat) → Decode elements.Val
  | .nil, _ => pure ()
  | .cons _ shape rest, index => do
      let head ← element index shape.deserialize
      let tail ← rest.visitSeq (index + 1)
      pure (head, tail)

end

/-- `codec::deserialize`, with the number of bytes consumed. -/
def deserialize (shape : Shape) (input : Bytes) : Except Error (shape.Val × Nat) :=
  match shape.deserialize (.new input) with
  | .ok value deserializer => .ok (value, deserializer.offset)
  | .error reason _ => .error reason

end Netsystem.Api
