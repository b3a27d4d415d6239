import Netsystem.Api.Codec

/-!
# Round trips

`Shape.encode` is the string of bytes that the encoder writes, and `Shape.reread` is what the
decoder makes of it. Both walk the shape under the native-order flag of `client_index`, but not
under the same one: the elements of a tuple, a tuple struct or an array are encoded under the flag
of the tuple and decoded without a flag. `round_trip_iff` says which values come back
nevertheless: those whose integers under the two flags read the same in both byte orders
(`Shape.Agrees`).
-/

namespace Netsystem.Api

/-! ## The bytes of a value -/

def encodeBytes (value : Bytes) : Bytes := beBytes 4 value.length ++ value

def encodeArray {α : Type} (element : α → Bytes) : (count : Nat) → Repeated α count → Bytes
  | 0, _ => []
  | count + 1, value => element value.1 ++ encodeArray element count value.2

mutual

/-- The bytes of a value written under the flag `isOpaque`. -/
def Shape.encode : (shape : Shape) → (isOpaque : Bool) → shape.Val → Bytes
  | .int kind, isOpaque, value =>
      if isOpaque then leBytes kind.size value.toNat else beBytes kind.size value.toNat
  | .bool, _, value => [boolByte value]
  | .str, _, value => encodeBytes (toUtf8 value)
  | .string, _, value => encodeBytes value
  | .newtype inner, isOpaque, value => inner.encode isOpaque value
  | .tuple elements, isOpaque, value => elements.encodeElements isOpaque value
  | .tupleStruct elements, isOpaque, value => elements.encodeElements isOpaque value
  | .array count element, isOpaque, value => encodeArray (element.encode isOpaque) count value
  | .struct fields, _, value => fields.encodeFields value

def Fields.encodeElements : (elements : Fields) → (isOpaque : Bool) → elements.Val → Bytes
  | .nil, _, _ => []
  | .cons _ shape rest, isOpaque, value =>
      shape.encode isOpaque value.1 ++ rest.encodeElements isOpaque value.2

def Fields.encodeFields : (fields : Fields) → fields.Val → Bytes
  | .nil, _ => []
  | .cons name shape rest, value =>
      shape.encode (name = "client_index") value.1 ++ rest.encodeFields value.2

end

/-! ## What the decoder makes of them -/

/-- An integer under the flag `found`, from bytes written under the flag `written`. -/
def rereadInteger (kind : Integer) (written found : Bool) (value : BitVec (8 * kind.size)) :
    BitVec (8 * kind.size) :=
  if written = found then value else BitVec.ofNat _ (leNat (beBytes kind.size value.toNat))

def rereadArray {α : Type} (element : α → α) : (count : Nat) → Repeated α count → Repeated α count
  | 0, _ => ()
  | count + 1, value => (element value.1, rereadArray element count value.2)

mutual

/-- A value read under the flag `found`, from bytes written under the flag `written`. -/
def Shape.reread : (shape : Shape) → (written found : Bool) → shape.Val → shape.Val
  | .int kind, written, found, value => rereadInteger kind written found value
  | .bool, _, _, value => value
  | .str, _, _, value => value
  | .string, _, _, value => value
  | .newtype inner, written, found, value => inner.reread written found value
  | .tuple elements, written, _, value => elements.rereadElements written value
  | .tupleStruct elements, written, _, value => elements.rereadElements written value
  | .array count element, written, _, value =>
      rereadArray (element.reread written false) count value
  | .struct fields, _, _, value => fields.rereadFields value

/-- The elements of a tuple are read without a flag. -/
def Fields.rereadElements : (elements : Fields) → (written : Bool) → elements.Val → elements.Val
  | .nil, _, value => value
  | .cons _ shape rest, written, value =>
      (shape.reread written false value.1, rest.rereadElements written value.2)

/-- The fields of a struct are read under the flag they were written under. -/
def Fields.rereadFields : (fields : Fields) → fields.Val → fields.Val
  | .nil, value => value
  | .cons name shape rest, value =>
      (shape.reread (name = "client_index") (name = "client_index") value.1,
        rest.rereadFields value.2)

end

/-! ## Conditions on values -/

def Repeated.All {α : Type} (holds : α → Prop) : (count : Nat) → Repeated α count → Prop
  | 0, _ => True
  | count + 1, value => holds value.1 ∧ Repeated.All holds count value.2

mutual

/-- Every text and byte string is shorter than `2 ^ 32`. -/
def Shape.Short : (shape : Shape) → shape.Val → Prop
  | .int _, _ => True
  | .bool, _ => True
  | .str, value => (toUtf8 value).length < 2 ^ 32
  | .string, value => value.length < 2 ^ 32
  | .newtype inner, value => inner.Short value
  | .tuple elements, value => elements.Short value
  | .tupleStruct elements, value => elements.Short value
  | .array count element, value => Repeated.All element.Short count value
  | .struct fields, value => fields.Short value

def Fields.Short : (fields : Fields) → fields.Val → Prop
  | .nil, _ => True
  | .cons _ shape rest, value => shape.Short value.1 ∧ rest.Short value.2

end

mutual

/-- The values of the shape take no byte on the wire. -/
def Shape.empty : Shape → Bool
  | .int _ => false
  | .bool => false
  | .str => false
  | .string => false
  | .newtype inner => inner.empty
  | .tuple elements => elements.empty
  | .tupleStruct elements => elements.empty
  | .array count element => count = 0 || element.empty
  | .struct fields => fields.empty

def Fields.empty : Fields → Bool
  | .nil => true
  | .cons _ shape rest => shape.empty && rest.empty

end

mutual

/-- Every element of a tuple, a tuple struct or an array takes at least one byte. -/
def Shape.Solid : Shape → Prop
  | .int _ => True
  | .bool => True
  | .str => True
  | .string => True
  | .newtype inner => inner.Solid
  | .tuple elements => elements.SolidElements
  | .tupleStruct elements => elements.SolidElements
  | .array count element => count = 0 ∨ element.empty = false ∧ element.Solid
  | .struct fields => fields.SolidFields

def Fields.SolidElements : Fields → Prop
  | .nil => True
  | .cons _ shape rest => shape.empty = false ∧ shape.Solid ∧ rest.SolidElements

def Fields.SolidFields : Fields → Prop
  | .nil => True
  | .cons _ shape rest => shape.Solid ∧ rest.SolidFields

end

mutual

/-- Every integer that is written under one flag and read under the other is a palindrome of
bytes. Read from the top without a flag, these are the integers that a `client_index` field holds
inside at least one tuple, tuple struct or array, and inside no further struct. -/
def Shape.Agrees : (shape : Shape) → (written found : Bool) → shape.Val → Prop
  | .int kind, written, found, value =>
      written = found ∨ leBytes kind.size value.toNat = beBytes kind.size value.toNat
  | .bool, _, _, _ => True
  | .str, _, _, _ => True
  | .string, _, _, _ => True
  | .newtype inner, written, found, value => inner.Agrees written found value
  | .tuple elements, written, _, value => elements.AgreesElements written value
  | .tupleStruct elements, written, _, value => elements.AgreesElements written value
  | .array count element, written, _, value =>
      Repeated.All (element.Agrees written false) count value
  | .struct fields, _, _, value => fields.AgreesFields value

def Fields.AgreesElements : (elements : Fields) → (written : Bool) → elements.Val → Prop
  | .nil, _, _ => True
  | .cons _ shape rest, written, value =>
      shape.Agrees written false value.1 ∧ rest.AgreesElements written value.2

def Fields.AgreesFields : (fields : Fields) → fields.Val → Prop
  | .nil, _ => True
  | .cons name shape rest, value =>
      shape.Agrees (name = "client_index") (name = "client_index") value.1 ∧
        rest.AgreesFields value.2

end

/-! ## The values that come back -/

theorem integer_lt (kind : Integer) (value : BitVec (8 * kind.size)) :
    value.toNat < 256 ^ kind.size := by
  have small := value.isLt
  rwa [Nat.pow_mul] at small

theorem rereadInteger_eq_iff (kind : Integer) (written found : Bool)
    (value : BitVec (8 * kind.size)) :
    rereadInteger kind written found value = value ↔
      written = found ∨ leBytes kind.size value.toNat = beBytes kind.size value.toNat := by
  have small := integer_lt kind value
  unfold rereadInteger
  by_cases same : written = found
  · simp [same]
  rw [if_neg same]
  constructor
  · intro back
    have number := congrArg BitVec.toNat back
    have bound := leNat_lt (beBytes kind.size value.toNat)
    rw [length_beBytes] at bound
    rw [BitVec.toNat_ofNat, Nat.pow_mul, Nat.mod_eq_of_lt bound] at number
    have bytes := leBytes_leNat (beBytes kind.size value.toNat)
    rw [length_beBytes, number] at bytes
    exact .inr bytes
  · intro either
    rcases either with equal | palindrome
    · exact absurd equal same
    · rw [← palindrome, leNat_leBytes small, BitVec.ofNat_toNat, BitVec.setWidth_eq]

theorem rereadArray_eq_iff {α : Type} {element : α → α} {agrees : α → Prop}
    (each : ∀ value, element value = value ↔ agrees value) :
    ∀ (count : Nat) (value : Repeated α count),
      rereadArray element count value = value ↔ Repeated.All agrees count value
  | 0, _ => Iff.intro (fun _ => trivial) fun _ => rfl
  | count + 1, value => by
      have rest := rereadArray_eq_iff each count value.2
      exact Prod.ext_iff.trans (and_congr (each value.1) rest)

mutual

/-- A value comes back as itself exactly when its two flags agree on it. -/
theorem Shape.reread_eq_iff : ∀ (shape : Shape) (written found : Bool) (value : shape.Val),
    shape.reread written found value = value ↔ shape.Agrees written found value
  | .int kind, written, found, value => rereadInteger_eq_iff kind written found value
  | .bool, _, _, _ => Iff.intro (fun _ => trivial) fun _ => rfl
  | .str, _, _, _ => Iff.intro (fun _ => trivial) fun _ => rfl
  | .string, _, _, _ => Iff.intro (fun _ => trivial) fun _ => rfl
  | .newtype inner, written, found, value => inner.reread_eq_iff written found value
  | .tuple elements, written, _, value => elements.rereadElements_eq_iff written value
  | .tupleStruct elements, written, _, value => elements.rereadElements_eq_iff written value
  | .array count element, written, _, value =>
      rereadArray_eq_iff (element.reread_eq_iff written false) count value
  | .struct fields, _, _, value => fields.rereadFields_eq_iff value

theorem Fields.rereadElements_eq_iff : ∀ (elements : Fields) (written : Bool)
    (value : elements.Val),
    elements.rereadElements written value = value ↔ elements.AgreesElements written value
  | .nil, _, _ => Iff.intro (fun _ => trivial) fun _ => rfl
  | .cons _ shape rest, written, value =>
      Prod.ext_iff.trans (and_congr (shape.reread_eq_iff written false value.1)
        (rest.rereadElements_eq_iff written value.2))

theorem Fields.rereadFields_eq_iff : ∀ (fields : Fields) (value : fields.Val),
    fields.rereadFields value = value ↔ fields.AgreesFields value
  | .nil, _ => Iff.intro (fun _ => trivial) fun _ => rfl
  | .cons _ shape rest, value =>
      Prod.ext_iff.trans (and_congr (shape.reread_eq_iff _ _ value.1)
        (rest.rereadFields_eq_iff value.2))

end

/-! ## The encoder writes the bytes -/

section Encoding

variable {flag : Bool}

/-- Under the flag, the text writes `bytes` wherever there is room for them, and no more. -/
def Writes (text : Encode Unit) (flag : Bool) (bytes : Bytes) : Prop :=
  ∀ output offset, offset + bytes.length ≤ output.length → output.length < 2 ^ 64 →
    text ⟨some output, offset, flag⟩ =
      .ok () ⟨some (splice output offset bytes), offset + bytes.length, flag⟩

theorem writes_write (bytes : Bytes) : Writes (write bytes) flag bytes := by
  intro output offset room usize
  simp only [write, if_neg (Nat.not_le.mpr (Nat.lt_of_le_of_lt room usize)),
    if_neg (Nat.not_lt.mpr room)]

theorem writes_nil : Writes (pure ()) flag [] := by
  intro output offset room usize
  rw [splice_nil]
  rfl

theorem Writes.append {first second : Encode Unit} {left right : Bytes}
    (before : Writes first flag left) (after : Writes second flag right) :
    Writes (do first; second) flag (left ++ right) := by
  intro output offset room usize
  rw [List.length_append] at room ⊢
  have start := before output offset (by omega) usize
  have inside : offset + left.length ≤ output.length := by omega
  have same := length_splice inside
  have rest := after (splice output offset left) (offset + left.length) (by omega) (by omega)
  rw [splice_splice left right (by omega)] at rest
  simp only [bind, EStateM.bind, start, rest, Nat.add_assoc]

theorem writes_serializeInteger (kind : Integer) (value : BitVec (8 * kind.size)) :
    Writes (serializeInteger kind value) flag
      (if flag then leBytes kind.size value.toNat else beBytes kind.size value.toNat) :=
  writes_write _

theorem writes_serializeBytes {value : Bytes} (short : value.length < 2 ^ 32) :
    Writes (serializeBytes value) flag (encodeBytes value) := by
  intro output offset room usize
  have both : Writes (do write (beBytes 4 value.length); write value) flag (encodeBytes value) :=
    (writes_write _).append (writes_write _)
  have written := both output offset room usize
  rw [encodeBytes, List.length_append, length_beBytes] at room
  have fits : ¬ (output.length - offset < 4 ∨ output.length - offset - 4 < value.length) := by
    omega
  rw [serializeBytes, if_neg (Nat.not_le.mpr short)]
  simp only [bind, EStateM.bind, get_run, if_neg fits]
  exact written

theorem writes_serializeArray {α : Type} {element : α → Encode Unit} {bytes : α → Bytes}
    {short : α → Prop} (each : ∀ value, short value → Writes (element value) flag (bytes value)) :
    ∀ (count : Nat) (value : Repeated α count), Repeated.All short count value →
      Writes (serializeArray element count value) flag (encodeArray bytes count value)
  | 0, _, _ => writes_nil
  | count + 1, value, allShort =>
      (each value.1 allShort.1).append (writes_serializeArray each count value.2 allShort.2)

/-- A field is written under its own flag. -/
theorem Writes.field {name : String} {text : Encode Unit} {bytes : Bytes}
    (writes : Writes text (name = "client_index") bytes) :
    Writes (serializeField name text) flag bytes := by
  intro output offset room usize
  have written := writes output offset room usize
  simp only [serializeField, written]

mutual

/-- The encoder writes `encode` of a value whose strings are short. -/
theorem Shape.writes : ∀ (shape : Shape) (flag : Bool) (value : shape.Val), shape.Short value →
    Writes (shape.serialize value) flag (shape.encode flag value)
  | .int kind, _, value, _ => writes_serializeInteger kind value
  | .bool, _, value, _ => writes_write [boolByte value]
  | .str, _, _, short => writes_serializeBytes short
  | .string, _, _, short => writes_serializeBytes short
  | .newtype inner, flag, value, short => inner.writes flag value short
  | .tuple elements, flag, value, short => elements.writes_elements flag value short
  | .tupleStruct elements, flag, value, short => elements.writes_elements flag value short
  | .array count element, flag, value, short =>
      writes_serializeArray (element.writes flag) count value short
  | .struct fields, flag, value, short => fields.writes_fields flag value short

theorem Fields.writes_elements : ∀ (elements : Fields) (flag : Bool) (value : elements.Val),
    elements.Short value →
    Writes (elements.serializeElements value) flag (elements.encodeElements flag value)
  | .nil, _, _, _ => writes_nil
  | .cons _ shape rest, flag, value, short =>
      (shape.writes flag value.1 short.1).append (rest.writes_elements flag value.2 short.2)

theorem Fields.writes_fields : ∀ (fields : Fields) (flag : Bool) (value : fields.Val),
    fields.Short value → Writes (fields.serializeFields value) flag (fields.encodeFields value)
  | .nil, _, _, _ => writes_nil
  | .cons _ shape rest, flag, value, short =>
      (shape.writes _ value.1 short.1).field.append (rest.writes_fields flag value.2 short.2)

end

end Encoding

/-! ## Values that take room -/

section Room

theorem encodeArray_length {α : Type} {bytes : α → Bytes}
    (each : ∀ value, 0 < (bytes value).length) :
    ∀ (count : Nat) (value : Repeated α count), count ≤ (encodeArray bytes count value).length
  | 0, _ => Nat.zero_le _
  | count + 1, value => by
      have rest := encodeArray_length each count value.2
      have head := each value.1
      rw [encodeArray, List.length_append]
      omega

theorem encodeBytes_pos (value : Bytes) : 0 < (encodeBytes value).length := by
  rw [encodeBytes, List.length_append, length_beBytes]
  omega

mutual

theorem Shape.encode_pos : ∀ (shape : Shape) (flag : Bool) (value : shape.Val),
    shape.empty = false → 0 < (shape.encode flag value).length
  | .int kind, flag, value, _ => by
      rw [Shape.encode]
      cases flag <;> cases kind <;> simp [Integer.size]
  | .bool, _, _, _ => Nat.one_pos
  | .str, _, value, _ => encodeBytes_pos (toUtf8 value)
  | .string, _, value, _ => encodeBytes_pos value
  | .newtype inner, flag, value, some_ => inner.encode_pos flag value some_
  | .tuple elements, flag, value, some_ => elements.encodeElements_pos flag value some_
  | .tupleStruct elements, flag, value, some_ => elements.encodeElements_pos flag value some_
  | .array count element, flag, value, some_ => by
      rw [Shape.empty, Bool.or_eq_false_iff] at some_
      have positive :=
        encodeArray_length (fun value => element.encode_pos flag value some_.2) count value
      have counted : count ≠ 0 := by simpa using some_.1
      exact Nat.lt_of_lt_of_le (Nat.pos_of_ne_zero counted) positive
  | .struct fields, _, value, some_ => fields.encodeFields_pos value some_

theorem Fields.encodeElements_pos : ∀ (elements : Fields) (flag : Bool) (value : elements.Val),
    elements.empty = false → 0 < (elements.encodeElements flag value).length
  | .nil, _, _, some_ => by cases some_
  | .cons _ shape rest, flag, value, some_ => by
      rw [Fields.encodeElements, List.length_append]
      rw [Fields.empty, Bool.and_eq_false_iff] at some_
      rcases some_ with head | tail
      · have positive := shape.encode_pos flag value.1 head
        omega
      · have positive := rest.encodeElements_pos flag value.2 tail
        omega

theorem Fields.encodeFields_pos : ∀ (fields : Fields) (value : fields.Val),
    fields.empty = false → 0 < (fields.encodeFields value).length
  | .nil, _, some_ => by cases some_
  | .cons name shape rest, value, some_ => by
      rw [Fields.encodeFields, List.length_append]
      rw [Fields.empty, Bool.and_eq_false_iff] at some_
      rcases some_ with head | tail
      · have positive := shape.encode_pos (name = "client_index") value.1 head
        omega
      · have positive := rest.encodeFields_pos value.2 tail
        omega

end

/-- A tuple whose elements all take room is at least as long as their number. -/
theorem Fields.encodeElements_length : ∀ (elements : Fields) (flag : Bool) (value : elements.Val),
    elements.SolidElements → elements.names.length ≤ (elements.encodeElements flag value).length
  | .nil, _, _, _ => Nat.zero_le _
  | .cons _ shape rest, flag, value, solid => by
      have head := shape.encode_pos flag value.1 solid.1
      have tail := rest.encodeElements_length flag value.2 solid.2.2
      rw [Fields.encodeElements, Fields.names, List.length_append, List.length_cons]
      omega

end Room

/-! ## The decoder reads them -/

section Decoding

variable {α β : Type} {found : Bool}

/-- The bytes lie ahead of the decoder. -/
structure Upcoming (deserializer : Deserializer) (bytes : Bytes) : Prop where
  inside : deserializer.offset + bytes.length ≤ deserializer.input.length
  bytes : window deserializer.input deserializer.offset bytes.length = bytes
  usize : deserializer.input.length < 2 ^ 64

theorem Upcoming.left {deserializer : Deserializer} {left right : Bytes}
    (upcoming : Upcoming deserializer (left ++ right)) : Upcoming deserializer left where
  inside := by
    have inside := upcoming.inside
    rw [List.length_append] at inside
    omega
  bytes := window_left upcoming.bytes
  usize := upcoming.usize

/-- The second part lies ahead once the first has been read, whatever the brackets are then. -/
theorem Upcoming.right {deserializer after : Deserializer} {left right : Bytes}
    (upcoming : Upcoming deserializer (left ++ right)) (input : after.input = deserializer.input)
    (offset : after.offset = deserializer.offset + left.length) : Upcoming after right where
  inside := by
    have inside := upcoming.inside
    rw [List.length_append] at inside
    rw [input, offset]
    omega
  bytes := by
    rw [input, offset]
    exact window_right upcoming.bytes
  usize := input ▸ upcoming.usize

theorem Upcoming.of_eq {deserializer after : Deserializer} {bytes : Bytes}
    (upcoming : Upcoming deserializer bytes) (input : after.input = deserializer.input)
    (offset : after.offset = deserializer.offset) : Upcoming after bytes where
  inside := by rw [input, offset]; exact upcoming.inside
  bytes := by rw [input, offset]; exact upcoming.bytes
  usize := input ▸ upcoming.usize

/-- Under the flag `found`, the text reads `value` from `bytes`, consumes them and changes nothing
else. -/
def Reads (text : Decode α) (found : Bool) (bytes : Bytes) (value : α) : Prop :=
  ∀ deserializer, Upcoming deserializer bytes → deserializer.isOpaque = found →
    text deserializer =
      .ok value { deserializer with offset := deserializer.offset + bytes.length }

theorem reads_read {bytes : Bytes} {length : Nat} (same : bytes.length = length) :
    Reads (read length) found bytes bytes := by
  subst same
  intro deserializer upcoming _
  have inside := upcoming.inside
  have usize := upcoming.usize
  simp only [read, if_pos (show deserializer.offset + bytes.length < 2 ^ 64 ∧
    deserializer.offset + bytes.length ≤ deserializer.input.length by omega), upcoming.bytes]

theorem Reads.bind {first : Decode α} {next : α → Decode β} {left right : Bytes} {middle : α}
    {value : β} (before : Reads first found left middle)
    (after : Reads (next middle) found right value) :
    Reads (first >>= next) found (left ++ right) value := by
  intro deserializer upcoming flag
  have start := before deserializer upcoming.left flag
  have rest := after { deserializer with offset := deserializer.offset + left.length }
    (upcoming.right rfl rfl) flag
  simp only [Bind.bind, EStateM.bind, start, rest, List.length_append, Nat.add_assoc]

theorem Reads.pure (value : α) : Reads (pure value) found [] value :=
  fun _ _ _ => rfl

theorem Reads.map {first : Decode α} {bytes : Bytes} {middle : α}
    (before : Reads first found bytes middle) (f : α → β) :
    Reads (do let value ← first; Pure.pure (f value)) found bytes (f middle) := by
  have mapped : Reads (first >>= fun value => Pure.pure (f value)) found (bytes ++ [])
      (f middle) := before.bind (Reads.pure (f middle))
  rwa [List.append_nil] at mapped

/-- Four combinations of flags: under equal ones the value, under different ones its mirror. -/
theorem rereadInteger_eq (kind : Integer) (written found : Bool)
    (value : BitVec (8 * kind.size)) {bytes : Bytes}
    (same : bytes = if written then leBytes kind.size value.toNat
      else beBytes kind.size value.toNat) :
    BitVec.ofNat (8 * kind.size) (if found then leNat bytes else beNat bytes) =
      rereadInteger kind written found value := by
  have small := integer_lt kind value
  subst same
  cases written with
  | true =>
      cases found with
      | true =>
          rw [if_pos rfl, if_pos rfl, leNat_leBytes small, BitVec.ofNat_toNat, BitVec.setWidth_eq]
          rfl
      | false => rfl
  | false =>
      cases found with
      | true => rfl
      | false =>
          rw [if_neg Bool.false_ne_true, if_neg Bool.false_ne_true, beNat_beBytes small,
            BitVec.ofNat_toNat, BitVec.setWidth_eq]
          rfl

theorem reads_deserializeInteger (kind : Integer) (written : Bool)
    (value : BitVec (8 * kind.size)) :
    Reads (deserializeInteger kind) found
      (if written then leBytes kind.size value.toNat else beBytes kind.size value.toNat)
      (rereadInteger kind written found value) := by
  intro deserializer upcoming flag
  have sized : (if written then leBytes kind.size value.toNat
      else beBytes kind.size value.toNat).length = kind.size := by
    cases written <;> simp
  have read := reads_read sized deserializer upcoming flag
  simp only [deserializeInteger, bind, EStateM.bind, read, get_run, flag,
    rereadInteger_eq kind written found value rfl]
  rfl

theorem reads_deserializeBool (value : Bool) :
    Reads deserializeBool found [boolByte value] value := by
  have read : Reads (read 1) found [boolByte value] [boolByte value] := reads_read rfl
  have mapped := read.map fun bytes => decide (bytes ≠ [0])
  cases value <;> exact mapped

theorem reads_deserializeByteBuf {value : Bytes} (short : value.length < 2 ^ 32) :
    Reads deserializeByteBuf found (encodeBytes value) value := by
  have length : Reads (read 4) found (beBytes 4 value.length) (beBytes 4 value.length) :=
    reads_read (length_beBytes 4 value.length)
  have number : value.length = beNat (beBytes 4 value.length) :=
    (beNat_beBytes (by omega)).symm
  exact length.bind (reads_read number)

theorem reads_deserializeString {value : String} (short : (toUtf8 value).length < 2 ^ 32) :
    Reads deserializeString found (encodeBytes (toUtf8 value)) value := by
  intro deserializer upcoming flag
  have read := reads_deserializeByteBuf short deserializer upcoming flag
  simp only [deserializeString, bind, EStateM.bind, read, fromUtf8_toUtf8]
  rfl

/-! ### Brackets -/

/-- A visitor inside a bracket reads `value` from `bytes` and has then met every element. -/
def Visits (text : Decode α) (fields : List String) (count : Nat) (bytes : Bytes) (value : α) :
    Prop :=
  ∀ deserializer, Upcoming deserializer bytes → deserializer.fields = fields →
    deserializer.remaining = count →
    text deserializer = .ok value
      { deserializer with offset := deserializer.offset + bytes.length, remaining := 0 }

theorem Visits.sequence {visitor : Decode α} {fields : List String} {count : Nat} {bytes : Bytes}
    {value : α} (visits : Visits visitor fields count bytes value)
    (enough : fields = [] → count ≤ bytes.length) :
    Reads (sequence count fields visitor) found bytes value := by
  intro deserializer upcoming flag
  have inside := upcoming.inside
  have run := visits { deserializer with remaining := count, fields := fields }
    (upcoming.of_eq rfl rfl) rfl rfl
  have room : ¬ (fields = [] ∧ deserializer.remainingBytes < count) := by
    intro short
    have counted := enough short.1
    have missing := short.2
    rw [Deserializer.remainingBytes] at missing
    omega
  simp only [Api.sequence, if_neg room, run, ne_eq, not_true, if_false]

/-- One element under the flag of its label. An element without labels takes room. -/
theorem element_eq {seed : Decode α} {bytes : Bytes} {value : α} {deserializer : Deserializer}
    {count : Nat} (index : Nat) (reads : Reads seed found bytes value)
    (label : decide (deserializer.fields[deserializer.fields.length - deserializer.remaining]? =
      some "client_index") = found)
    (remaining : deserializer.remaining = count + 1)
    (consumes : deserializer.fields = [] → 0 < bytes.length)
    (upcoming : Upcoming deserializer bytes) :
    element index seed deserializer = .ok value
      { deserializer with
        offset := deserializer.offset + bytes.length
        remaining := count } := by
  have run := reads { deserializer with isOpaque := found, remaining := count }
    (upcoming.of_eq rfl rfl) rfl
  have moved : ¬ (deserializer.fields = [] ∧
      deserializer.offset + bytes.length = deserializer.offset) := by
    intro still
    have positive := consumes still.1
    omega
  have some_ : ¬ deserializer.remaining = 0 := by omega
  have less : deserializer.remaining - 1 = count := by omega
  simp only [element, nextElement, bind, EStateM.bind, if_neg some_, label, less, run,
    if_neg moved]
  rfl

/-- The field that is read next is the first of those that remain. -/
theorem label_eq (seen remaining : List String) (name : String) :
    decide ((seen ++ name :: remaining)[(seen ++ name :: remaining).length -
      (remaining.length + 1)]? = some "client_index") = decide (name = "client_index") := by
  have start : (seen ++ name :: remaining).length - (remaining.length + 1) = seen.length := by
    rw [List.length_append, List.length_cons]
    omega
  rw [start, List.getElem?_append_right (Nat.le_refl _), Nat.sub_self, List.getElem?_cons_zero]
  simp only [Option.some.injEq]

/-- A first element and the visit of the others. -/
theorem Visits.cons {seed : Decode α} (others : Nat → Decode β) {fields : List String}
    {count index : Nat} {left right : Bytes} {head : α} {tail : β}
    (reads : Reads seed found left head)
    (label : decide (fields[fields.length - (count + 1)]? = some "client_index") = found)
    (consumes : fields = [] → 0 < left.length)
    (visits : Visits (others (index + 1)) fields count right tail) :
    Visits (do
      let first ← element index seed
      let rest ← others (index + 1)
      pure (first, rest)) fields (count + 1) (left ++ right) (head, tail) := by
  intro deserializer upcoming labels remaining
  subst labels
  have first := element_eq index reads (by rw [remaining]; exact label) remaining consumes
    upcoming.left
  have rest := visits { deserializer with
      offset := deserializer.offset + left.length
      remaining := count } (upcoming.right rfl rfl) rfl rfl
  simp only [bind, EStateM.bind, first, rest, List.length_append, Nat.add_assoc]
  rfl

theorem visits_nil {fields : List String} : Visits (pure () : Decode Unit) fields 0 [] () := by
  intro deserializer _ _ remaining
  cases deserializer
  cases remaining
  rfl

/-- Induction on the elements of an array. -/
theorem visits_deserializeArray {seed : Decode α} {bytes : α → Bytes} {reread : α → α}
    {short : α → Prop}
    (each : ∀ value, short value → Reads seed false (bytes value) (reread value))
    (positive : ∀ value, 0 < (bytes value).length) :
    ∀ (count index : Nat) (value : Repeated α count), Repeated.All short count value →
      Visits (deserializeArray seed index count) [] count (encodeArray bytes count value)
        (rereadArray reread count value)
  | 0, _, _, _ => visits_nil
  | count + 1, index, value, allShort =>
      Visits.cons (fun index => deserializeArray seed index count)
        (each value.1 allShort.1) rfl (fun _ => positive value.1)
        (visits_deserializeArray each positive count (index + 1) value.2 allShort.2)

mutual

/-- The decoder reads back `reread` of a value from the bytes that the encoder wrote under the
flag `written`. -/
theorem Shape.reads : ∀ (shape : Shape) (written found : Bool) (value : shape.Val),
    shape.Solid → shape.Short value →
    Reads shape.deserialize found (shape.encode written value) (shape.reread written found value)
  | .int kind, written, _, value, _, _ => reads_deserializeInteger kind written value
  | .bool, _, _, value, _, _ => reads_deserializeBool value
  | .str, _, _, _, _, short => reads_deserializeString short
  | .string, _, _, _, _, short => reads_deserializeByteBuf short
  | .newtype inner, written, found, value, solid, short =>
      inner.reads written found value solid short
  | .tuple elements, written, _, value, solid, short =>
      (elements.visits_elements written value 0 solid short).sequence
        fun _ => elements.encodeElements_length written value solid
  | .tupleStruct elements, written, _, value, solid, short =>
      (elements.visits_elements written value 0 solid short).sequence
        fun _ => elements.encodeElements_length written value solid
  | .array 0 element, _, _, _, _, _ => Visits.sequence visits_nil fun _ => Nat.zero_le _
  | .array (count + 1) element, written, _, value, solid, short => by
      rcases solid with none_ | ⟨some_, solid⟩
      · cases none_
      have positive := fun value => element.encode_pos written value some_
      have each := fun value => element.reads written false value solid
      exact (visits_deserializeArray each positive (count + 1) 0 value short).sequence
        fun _ => encodeArray_length positive (count + 1) value
  | .struct fields, _, _, value, solid, short =>
      (fields.visits_fields value 0 [] solid short).sequence fun none_ =>
        (congrArg List.length (show fields.names = [] from none_)).trans_le (Nat.zero_le _)

theorem Fields.visits_elements : ∀ (elements : Fields) (written : Bool) (value : elements.Val)
    (index : Nat), elements.SolidElements → elements.Short value →
    Visits (elements.visitSeq index) [] elements.names.length
      (elements.encodeElements written value) (elements.rereadElements written value)
  | .nil, _, _, _, _, _ => visits_nil
  | .cons _ shape rest, written, value, index, solid, short =>
      Visits.cons rest.visitSeq
        (shape.reads written false value.1 solid.2.1 short.1) rfl
        (fun _ => shape.encode_pos written value.1 solid.1)
        (rest.visits_elements written value.2 (index + 1) solid.2.2 short.2)

/-- The fields behind those already `seen`. -/
theorem Fields.visits_fields : ∀ (fields : Fields) (value : fields.Val) (index : Nat)
    (seen : List String), fields.SolidFields → fields.Short value →
    Visits (fields.visitSeq index) (seen ++ fields.names) fields.names.length
      (fields.encodeFields value) (fields.rereadFields value)
  | .nil, _, _, _, _, _ => visits_nil
  | .cons name shape rest, value, index, seen, solid, short => by
      have later := rest.visits_fields value.2 (index + 1) (seen ++ [name]) solid.2 short.2
      rw [List.append_assoc] at later
      exact Visits.cons rest.visitSeq
        (shape.reads _ _ value.1 solid.1 short.1) (label_eq seen rest.names name)
        (fun none_ => absurd (List.append_eq_nil_iff.mp none_).2 (List.cons_ne_nil _ _)) later

end

end Decoding

/-! ## Round trips -/

/-- Into every large enough output the value is encoded, and from the written bytes, whatever
follows them, it is decoded again, consuming those bytes and no others. -/
def RoundTrips (shape : Shape) (value : shape.Val) : Prop :=
  ∃ size, size < 2 ^ 64 ∧ ∀ output : Bytes, size ≤ output.length → output.length < 2 ^ 64 →
    ∃ count written, serialize shape value output = (.ok count, some written) ∧
      ∀ trailing : Bytes, count + trailing.length < 2 ^ 64 →
        deserialize shape (written.take count ++ trailing) = .ok (value, count)

section RoundTrip

variable {shape : Shape} {value : shape.Val}

theorem serialize_eq (short : shape.Short value) {output : Bytes}
    (room : (shape.encode false value).length ≤ output.length) (usize : output.length < 2 ^ 64) :
    serialize shape value output = (.ok (shape.encode false value).length,
      some (splice output 0 (shape.encode false value))) := by
  have written := shape.writes false value short output 0 (by omega) usize
  rw [serialize, written, Nat.zero_add]

theorem deserialize_eq (solid : shape.Solid) (short : shape.Short value) {trailing : Bytes}
    (usize : (shape.encode false value).length + trailing.length < 2 ^ 64) :
    deserialize shape (shape.encode false value ++ trailing) =
      .ok (shape.reread false false value, (shape.encode false value).length) := by
  have ahead : Upcoming (.new (shape.encode false value ++ trailing))
      (shape.encode false value) := by
    refine ⟨?_, ?_, ?_⟩
    · simp only [Deserializer.new, List.length_append]
      omega
    · simp only [Deserializer.new, window, List.drop_zero, List.take_left]
    · simp only [Deserializer.new, List.length_append]
      exact usize
  have read := shape.reads false false value solid short _ ahead rfl
  rw [deserialize, read]
  simp only [Deserializer.new, Nat.zero_add]

/-- A value that makes the round trip is what the decoder makes of it. -/
theorem RoundTrips.reread_eq (solid : shape.Solid) (short : shape.Short value)
    (fits : (shape.encode false value).length < 2 ^ 64) (trips : RoundTrips shape value) :
    shape.reread false false value = value := by
  rcases trips with ⟨size, small, trip⟩
  let output : Bytes := List.replicate (max size (shape.encode false value).length) 0
  have length : output.length = max size (shape.encode false value).length :=
    List.length_replicate ..
  rcases trip output (by omega) (by omega) with ⟨count, written, ran, decodes⟩
  rw [serialize_eq short (by omega) (by omega)] at ran
  cases ran
  have back := decodes [] (by simpa using fits)
  rw [take_splice_zero, deserialize_eq solid short (by simpa using fits)] at back
  exact (Prod.ext_iff.mp (Except.ok.inj back)).1

/-- **Round trips.** A value comes back from its own encoding exactly when its integers under two
different flags read the same in both byte orders. -/
theorem round_trip_iff (shape : Shape) (value : shape.Val) (solid : shape.Solid)
    (short : shape.Short value) (fits : (shape.encode false value).length < 2 ^ 64) :
    RoundTrips shape value ↔ shape.Agrees false false value := by
  rw [← shape.reread_eq_iff]
  constructor
  · exact fun trips => trips.reread_eq solid short fits
  · intro same
    refine ⟨(shape.encode false value).length, fits, fun output room usize => ?_⟩
    refine ⟨_, _, serialize_eq short room usize, fun trailing small => ?_⟩
    rw [take_splice_zero, deserialize_eq solid short small, same]

end RoundTrip

/-- A struct whose `client_index` is an array of one `u32`. -/
def tokenArray : Shape := .struct (.cons "client_index" (.array 1 (.int .u32)) .nil)

/-- The token `0x01000001` reads the same in both byte orders. -/
theorem round_trip_palindrome :
    RoundTrips tokenArray ((0x01000001#32, ()), ()) := by
  refine (round_trip_iff tokenArray ((0x01000001#32, ()), ()) ?_ ?_ ?_).mpr ?_
  · exact ⟨.inr ⟨rfl, trivial⟩, trivial⟩
  · exact ⟨⟨trivial, trivial⟩, trivial⟩
  · decide
  · exact ⟨⟨.inr (by decide), trivial⟩, trivial⟩

/-- The token `1` in the same place comes back as `0x01000000`. -/
theorem token_not_round_trip :
    ¬ ∀ (shape : Shape) (value : shape.Val), shape.Solid → shape.Short value →
      (shape.encode false value).length < 2 ^ 64 → RoundTrips shape value := by
  intro always
  have solid : tokenArray.Solid := ⟨.inr ⟨rfl, trivial⟩, trivial⟩
  have short : tokenArray.Short ((1#32, ()), ()) := ⟨⟨trivial, trivial⟩, trivial⟩
  have fits : (tokenArray.encode false ((1#32, ()), ())).length < 2 ^ 64 := by decide
  have back := (always tokenArray ((1#32, ()), ()) solid short fits).reread_eq solid short fits
  have swapped : tokenArray.reread false false ((1#32, ()), ()) = ((0x01000000#32, ()), ()) := rfl
  have bits : 0x01000000#32 = 1#32 :=
    congrArg (fun value : (BitVec 32 × Unit) × Unit => value.1.1) (swapped.symm.trans back)
  exact absurd bits (by decide)

end Netsystem.Api
