import Netsystem.Api.Canonical

/-!
# The declared schema and the codec

A `Block` read as a wire format: it says, from the declared names, types and lengths alone, which
bytes stand for the fields of a message. `schema_agrees` compares these bytes with those that the
codec writes from the Rust struct.
-/

namespace Netsystem.Api

/-! ## What a field holds -/

/-- The content of a value, whatever type holds it. -/
inductive Datum : Type where
  | number (value : Nat)
  | flag (value : Bool)
  | bytes (value : Bytes)
  | list (values : List Datum)

def arrayData {α : Type} (datum : α → Datum) : (count : Nat) → Repeated α count → List Datum
  | 0, _ => []
  | count + 1, value => datum value.1 :: arrayData datum count value.2

mutual

def Shape.datum : (shape : Shape) → shape.Val → Datum
  | .int _, value => .number value.toNat
  | .bool, value => .flag value
  | .str, value => .bytes (toUtf8 value)
  | .string, value => .bytes value
  | .newtype inner, value => inner.datum value
  | .tuple elements, value => .list (elements.data value)
  | .tupleStruct elements, value => .list (elements.data value)
  | .array count element, value => .list (arrayData element.datum count value)
  | .struct fields, value => .list (fields.data value)

def Fields.data : (fields : Fields) → fields.Val → List Datum
  | .nil, _ => []
  | .cons _ shape rest, value => shape.datum value.1 :: rest.data value.2

end

/-- The fields of a struct by their names. -/
def Fields.record : (fields : Fields) → fields.Val → (name : String) → Option Datum
  | .nil, _, _ => none
  | .cons label shape rest, value, name =>
      if label = name then some (shape.datum value.1) else rest.record value.2 name

def Shape.record : (shape : Shape) → shape.Val → (name : String) → Option Datum
  | .struct fields, value, name => fields.record value name
  | _, _, _ => none

/-- The fields of a message by their names. -/
def record {Message : Type} [Api Message] (message : Message) : (name : String) → Option Datum :=
  (Api.shape Message).record (Api.toVal message)

/-! ## A declaration as a wire format -/

/-- The width of a declared integer type. -/
def declaredWidth (fieldType : String) : Option Nat :=
  match fieldType with
  | "u8" => some 1
  | "i8" => some 1
  | "u16" => some 2
  | "i16" => some 2
  | "u32" => some 4
  | "i32" => some 4
  | "u64" => some 8
  | "i64" => some 8
  | _ => none

/-- An integer of a declared width, in native order or most significant byte first. -/
def wireNumber (native : Bool) (width : Nat) : Datum → Option Bytes
  | .number value =>
      if value < 256 ^ width then
        some (if native then leBytes width value else beBytes width value)
      else none
  | _ => none

/-- A value of a primitive type. -/
def wireScalar (native : Bool) (fieldType : String) (datum : Datum) : Option Bytes :=
  if fieldType = "bool" then
    match datum with
    | .flag value => some [boolByte value]
    | _ => none
  else (declaredWidth fieldType).bind fun width => wireNumber native width datum

/-- Values of a primitive type, one behind the other. -/
def wireScalars (native : Bool) (fieldType : String) : List Datum → Option Bytes
  | [] => some []
  | first :: rest => do
      let front ← wireScalar native fieldType first
      let back ← wireScalars native fieldType rest
      some (front ++ back)

/-- The bytes of a text, be they held as a string or as an array of bytes. -/
def Datum.text : Datum → Option Bytes
  | .bytes value => some value
  | .list values => wireScalars false "u8" values
  | _ => none

/-- `string[N]`, whose length on the wire is that declared, or written in front when `N` is
zero. -/
def wireString (length : Nat) (datum : Datum) : Option Bytes := do
  let text ← datum.text
  if length = 0 then
    if text.length < 2 ^ 32 then some (beBytes 4 text.length ++ text) else none
  else if text.length = length then some text
  else none

/-- `type[N]`. -/
def wireArray (native : Bool) (fieldType : String) (length : Nat) : Datum → Option Bytes
  | .list values => if values.length = length then wireScalars native fieldType values else none
  | _ => none

/-- The bytes that a declared field stands for. Of the types with a declaration of their own only
`interface_index` is given a meaning, that of a `u32`. -/
def wireField (field : Field) (datum : Datum) : Option Bytes :=
  let native := decide (field.name = "client_index")
  match field.block, field.length with
  | none, none => wireScalar native field.fieldType datum
  | none, some length =>
      if field.fieldType = "string" then wireString length datum
      else wireArray native field.fieldType length datum
  | some .alias, none =>
      if field.fieldType = "interface_index" then wireNumber native 4 datum else none
  | _, _ => none

/-- The declared fields in order, each looked up by its name. -/
def wireFields (record : String → Option Datum) : List Field → Option Bytes
  | [] => some []
  | field :: rest => do
      let datum ← record field.name
      let front ← wireField field datum
      let back ← wireFields record rest
      some (front ++ back)

/-- A message: its id and the declared fields. -/
def Block.wire (block : Block) (record : String → Option Datum) : Option Bytes :=
  match block with
  | .fields parts => do
      let id ← record "id"
      let front ← wireNumber false 2 id
      let back ← wireFields record parts
      some (front ++ back)
  | _ => none

/-! ## Declarations of shapes -/

/-- The declared field stands for what the codec writes of the shape under the flag of the
name. -/
def Declares (field : Field) (name : String) (shape : Shape) : Prop :=
  field.name = name ∧ ∀ (value : shape.Val) (bytes : Bytes),
    wireField field (shape.datum value) = some bytes ↔
      shape.Short value ∧ bytes = shape.encode (name = "client_index") value

/-- A word, as the codec writes it. -/
def wordBytes (native : Bool) (kind : Integer) (value : BitVec (8 * kind.size)) : Bytes :=
  if native then leBytes kind.size value.toNat else beBytes kind.size value.toNat

theorem wireNumber_eq (native : Bool) (kind : Integer) (value : BitVec (8 * kind.size)) :
    wireNumber native kind.size (.number value.toNat) = some (wordBytes native kind value) := by
  unfold wireNumber
  dsimp only
  rw [if_pos (integer_lt kind value)]
  rfl

theorem wireScalar_eq {fieldType : String} {kind : Integer} (native : Bool)
    (width : declaredWidth fieldType = some kind.size) (value : BitVec (8 * kind.size)) :
    wireScalar native fieldType (.number value.toNat) = some (wordBytes native kind value) := by
  have number : fieldType ≠ "bool" := by
    rintro rfl
    cases width
  unfold wireScalar
  rw [if_neg number, width, Option.bind_some, wireNumber_eq]

/-- A field that always stands for the bytes that the codec writes. -/
theorem declares_of_eq {field : Field} {name : String} {shape : Shape} (same : field.name = name)
    (always : ∀ value, shape.Short value)
    (wire : ∀ value, wireField field (shape.datum value) =
      some (shape.encode (name = "client_index") value)) : Declares field name shape := by
  refine ⟨same, fun value bytes => ?_⟩
  rw [wire, Option.some.injEq, eq_comm, and_iff_right (always value)]

theorem declares_scalar {fieldType : String} {kind : Integer}
    (width : declaredWidth fieldType = some kind.size) (name : String) :
    Declares (scalar name fieldType) name (.int kind) :=
  declares_of_eq rfl (fun _ => trivial) fun value => wireScalar_eq _ width value

theorem declares_bool (name : String) : Declares (scalar name "bool") name .bool :=
  declares_of_eq rfl (fun _ => trivial) fun _ => rfl

theorem declares_interfaceIndex (name : String) :
    Declares (declared name InterfaceIndex.name InterfaceIndex.block) name
      (.newtype (.int .u32)) :=
  declares_of_eq rfl (fun _ => trivial) fun value => wireNumber_eq _ .u32 value

/-- The elements of an array of words, as the codec writes them. -/
theorem wireScalars_eq {fieldType : String} {kind : Integer} (native : Bool)
    (width : declaredWidth fieldType = some kind.size) : ∀ (count : Nat)
    (value : Repeated (BitVec (8 * kind.size)) count),
    wireScalars native fieldType (arrayData (fun value => .number value.toNat) count value) =
      some (encodeArray (wordBytes native kind) count value)
  | 0, _ => rfl
  | count + 1, value => by
      rw [arrayData, wireScalars, wireScalar_eq native width, wireScalars_eq native width count]
      rfl

theorem length_arrayData {α : Type} (datum : α → Datum) : ∀ (count : Nat)
    (value : Repeated α count),
    (arrayData datum count value).length = count
  | 0, _ => rfl
  | count + 1, value => by rw [arrayData, List.length_cons, length_arrayData datum count]

theorem declares_array {fieldType : String} {kind : Integer} (name : String) (count : Nat)
    (width : declaredWidth fieldType = some kind.size) :
    Declares (array name fieldType count) name (.array count (.int kind)) := by
  refine declares_of_eq rfl
    (fun value => MessageType.all_of_forall (fun _ => trivial) count value) ?_
  intro value
  have primitive : fieldType ≠ "string" := by
    rintro rfl
    cases width
  have wire : wireField (array name fieldType count)
      (Shape.datum (.array count (.int kind)) value) = if fieldType = "string" then
        wireString count (Shape.datum (.array count (.int kind)) value)
      else wireArray (name = "client_index") fieldType count
        (Shape.datum (.array count (.int kind)) value) := rfl
  rw [wire, if_neg primitive]
  unfold Shape.datum wireArray
  dsimp only
  rw [if_pos (length_arrayData _ count value)]
  exact wireScalars_eq _ width count value

/-- A byte reads the same in both orders. -/
theorem wordBytes_u8 (native : Bool) (value : BitVec 8) :
    wordBytes native .u8 value = wordBytes false .u8 value := by
  cases native <;> rfl

/-- Text held as an array of bytes. -/
theorem declares_fixedString (name : String) {length : Nat} (some_ : length ≠ 0) :
    Declares (string name length) name (.array length (.int .u8)) := by
  refine declares_of_eq rfl
    (fun value => MessageType.all_of_forall (fun _ => trivial) length value) ?_
  intro value
  have plain : wordBytes (name = "client_index") .u8 = wordBytes false .u8 :=
    funext (wordBytes_u8 (name = "client_index"))
  have text :
      Datum.text (.list (arrayData (fun value : BitVec 8 => .number value.toNat) length value)) =
      some (encodeArray (wordBytes (name = "client_index") .u8) length value) := by
    rw [plain]
    exact @wireScalars_eq "u8" .u8 false rfl length value
  have sized : (encodeArray (wordBytes (name = "client_index") .u8) length value).length =
      length :=
    (Shape.encode_length (.array length (.int .u8)) (name = "client_index") value rfl).trans
      ((length_mask_array length _).trans (Nat.mul_one length))
  have wire : wireField (string name length) (Shape.datum (.array length (.int .u8)) value) =
      wireString length
        (.list (arrayData (fun value : BitVec 8 => .number value.toNat) length value)) :=
    rfl
  rw [wire]
  unfold wireString
  rw [text]
  simp only [Option.bind_eq_bind, Option.bind_some, if_neg some_, if_pos sized]
  rfl

/-- Text behind its length. -/
theorem declares_string (name : String) : Declares (string name 0) name .str := by
  refine ⟨rfl, fun value bytes => ?_⟩
  have wire : wireField (string name 0) (Shape.datum .str value) =
      if (toUtf8 value).length < 2 ^ 32 then
        some (beBytes 4 (toUtf8 value).length ++ toUtf8 value)
      else none := rfl
  have short : Shape.Short .str value ↔ (toUtf8 value).length < 2 ^ 32 := Iff.rfl
  rw [wire, short]
  split
  case isTrue fits =>
    rw [Option.some.injEq, eq_comm, and_iff_right fits]
    rfl
  case isFalse long =>
    constructor
    · intro impossible
      cases impossible
    · rintro ⟨fits, -⟩
      exact absurd fits long

/-- The declared fields stand for the fields of a struct, one by one and under the same names. -/
def DeclaresAll : List Field → Fields → Prop
  | [], .nil => True
  | field :: parts, .cons name shape rest => Declares field name shape ∧ DeclaresAll parts rest
  | _, _ => False

/-! ## Messages -/

/-- A field that is not declared does not change what those declared stand for. -/
theorem wireFields_skip {label : String} {shape : Shape} {rest : Fields}
    (value : Fields.Val (.cons label shape rest)) {parts : List Field}
    (apart : ∀ field ∈ parts, field.name ≠ label) :
    wireFields (Fields.record (.cons label shape rest) value) parts =
      wireFields (rest.record value.2) parts := by
  induction parts with
  | nil => rfl
  | cons field parts ih =>
      obtain ⟨first, others⟩ := List.forall_mem_cons.mp apart
      unfold wireFields
      rw [ih others, Fields.record, if_neg (Ne.symm first)]

theorem DeclaresAll.names {parts : List Field} {fields : Fields}
    (all : DeclaresAll parts fields) : parts.map Field.name = fields.names := by
  induction parts generalizing fields with
  | nil =>
      cases fields with
      | nil => rfl
      | cons => exact all.elim
  | cons field parts ih =>
      cases fields with
      | nil => exact all.elim
      | cons name shape rest => rw [List.map_cons, all.1.1, ih all.2, Fields.names]

/-- Two optional texts one behind the other. -/
theorem append_eq_some_iff {front back : Option Bytes} {bytes : Bytes} :
    (do let left ← front; let right ← back; some (left ++ right)) = some bytes ↔
      ∃ left right, front = some left ∧ back = some right ∧ left ++ right = bytes := by
  cases front with
  | none => simp
  | some left =>
      cases back with
      | none => simp
      | some right => simp

/-- Fields of different names stand for what the codec writes of them. -/
theorem wireFields_iff {parts : List Field} {fields : Fields} (all : DeclaresAll parts fields)
    (distinct : fields.names.Nodup) (value : fields.Val) (bytes : Bytes) :
    wireFields (fields.record value) parts = some bytes ↔
      fields.Short value ∧ bytes = fields.encodeFields value := by
  induction parts generalizing fields bytes with
  | nil =>
      cases fields with
      | nil =>
          rw [wireFields, Option.some.injEq, eq_comm]
          exact (and_iff_right trivial).symm
      | cons => exact all.elim
  | cons field parts ih =>
      cases fields with
      | nil => exact all.elim
      | cons name shape rest =>
          obtain ⟨⟨same, declares⟩, others⟩ := all
          rw [Fields.names, List.nodup_cons, ← others.names] at distinct
          obtain ⟨fresh, distinct⟩ := distinct
          rw [others.names] at distinct
          have found : Fields.record (.cons name shape rest) value field.name =
              some (shape.datum value.1) := by
            rw [Fields.record, if_pos same.symm]
          have apart : ∀ other ∈ parts, other.name ≠ name := by
            intro other member clash
            exact fresh (clash ▸ List.mem_map_of_mem member)
          rw [wireFields, found, wireFields_skip value apart]
          simp only [Option.bind_eq_bind, Option.bind_some]
          rw [← Option.bind_eq_bind, append_eq_some_iff]
          simp only [declares, ih others distinct]
          constructor
          · rintro ⟨left, right, ⟨first, rfl⟩, ⟨short, rfl⟩, rfl⟩
            exact ⟨⟨first, short⟩, rfl⟩
          · rintro ⟨⟨first, short⟩, rfl⟩
            exact ⟨_, _, ⟨first, rfl⟩, ⟨short, rfl⟩, rfl⟩

/-- The block declares the struct but for its id, which every message has in front. -/
def Schema (block : Block) (shape : Shape) : Prop :=
  ∃ parts rest, block = .fields parts ∧ shape = .struct (.cons "id" (.int .u16) rest) ∧
    DeclaresAll parts rest ∧ ("id" :: rest.names).Nodup

/-- A message under a schema stands for what the codec writes of it. -/
theorem Schema.wire_iff {block : Block} {shape : Shape} (schema : Schema block shape)
    (value : shape.Val) (bytes : Bytes) :
    block.wire (shape.record value) = some bytes ↔
      shape.Short value ∧ bytes = shape.encode false value := by
  obtain ⟨parts, rest, rfl, rfl, all, distinct⟩ := schema
  rw [List.nodup_cons, ← all.names] at distinct
  obtain ⟨fresh, distinct⟩ := distinct
  rw [all.names] at distinct
  have apart : ∀ field ∈ parts, field.name ≠ "id" := by
    intro field member clash
    exact fresh (clash ▸ List.mem_map_of_mem member)
  have wire : Block.wire (.fields parts)
      (Shape.record (.struct (.cons "id" (.int .u16) rest)) value) =
      (do let left ← some (wordBytes false .u16 value.1)
          let right ← wireFields (rest.record value.2) parts
          some (left ++ right)) := by
    rw [← wireNumber_eq false .u16 value.1, ← wireFields_skip value apart]
    rfl
  rw [wire, append_eq_some_iff]
  simp only [wireFields_iff all distinct]
  constructor
  · rintro ⟨left, right, first, ⟨short, rfl⟩, rfl⟩
    cases first
    exact ⟨⟨trivial, short⟩, rfl⟩
  · rintro ⟨⟨-, short⟩, rfl⟩
    exact ⟨_, _, rfl, ⟨short, rfl⟩, rfl⟩

namespace MessageType

/-- Every declaration and its struct agree, field by field. -/
theorem schema_block (type : MessageType) :
    Schema (Api.block type.Message) (Api.shape type.Message) := by
  cases type with
  | memclntCreateV2 =>
      exact ⟨_, _, rfl, rfl, ⟨declares_scalar rfl _, declares_scalar rfl _, declares_scalar rfl _,
        declares_fixedString _ (by decide), declares_array _ _ rfl, declares_bool _, trivial⟩,
        by decide⟩
  | memclntCreateV2Reply =>
      exact ⟨_, _, rfl, rfl, ⟨declares_scalar rfl _, declares_scalar rfl _, declares_scalar rfl _,
        declares_scalar rfl _, declares_scalar rfl _, trivial⟩, by decide⟩
  | memclntDelete =>
      exact ⟨_, _, rfl, rfl, ⟨declares_scalar rfl _, declares_scalar rfl _, declares_bool _,
        trivial⟩, by decide⟩
  | memclntDeleteReply =>
      exact ⟨_, _, rfl, rfl, ⟨declares_scalar rfl _, declares_scalar rfl _, trivial⟩, by decide⟩
  | memclntKeepalive =>
      exact ⟨_, _, rfl, rfl, ⟨declares_scalar rfl _, declares_scalar rfl _, trivial⟩, by decide⟩
  | memclntKeepaliveReply =>
      exact ⟨_, _, rfl, rfl, ⟨declares_scalar rfl _, declares_scalar rfl _, trivial⟩, by decide⟩
  | controlPing =>
      exact ⟨_, _, rfl, rfl, ⟨declares_scalar rfl _, declares_scalar rfl _, trivial⟩, by decide⟩
  | controlPingReply =>
      exact ⟨_, _, rfl, rfl, ⟨declares_scalar rfl _, declares_scalar rfl _, declares_scalar rfl _,
        declares_scalar rfl _, trivial⟩, by decide⟩
  | appNamespaceAddDel =>
      exact ⟨_, _, rfl, rfl, ⟨declares_scalar rfl _, declares_scalar rfl _, declares_scalar rfl _,
        declares_bool _, declares_interfaceIndex _, declares_scalar rfl _, declares_scalar rfl _,
        declares_fixedString _ (by decide), declares_string _, trivial⟩, by decide⟩
  | appNamespaceAddDelReply =>
      exact ⟨_, _, rfl, rfl, ⟨declares_scalar rfl _, declares_scalar rfl _, declares_scalar rfl _,
        trivial⟩, by decide⟩
  | showVersion =>
      exact ⟨_, _, rfl, rfl, ⟨declares_scalar rfl _, declares_scalar rfl _, trivial⟩, by decide⟩
  | showVersionReply =>
      exact ⟨_, _, rfl, rfl, ⟨declares_scalar rfl _, declares_scalar rfl _,
        declares_fixedString _ (by decide), declares_fixedString _ (by decide),
        declares_fixedString _ (by decide), declares_fixedString _ (by decide), trivial⟩,
        by decide⟩

/-- **The declared schema and the codec.** For every declared message type and every message the
bytes that the codec writes are those that the declaration, read as a wire format, gives for the
fields of the same names. -/
theorem schema_agrees (type : MessageType) (message : type.Message) (bytes : Bytes) :
    Serializes message bytes ↔ (Api.block type.Message).wire (record message) = some bytes := by
  have agrees := type.schema_block.wire_iff (Api.toVal message) bytes
  unfold record
  rw [agrees, serializes_iff]
  constructor
  · rintro ⟨short, same, -⟩
    exact ⟨short, same⟩
  · rintro ⟨short, rfl⟩
    have small := (Api.shape type.Message).encode_lt false (Api.toVal message) type.regular_shape
      short
    have few := type.mask_small
    exact ⟨short, rfl, by omega⟩

end MessageType

end Netsystem.Api
