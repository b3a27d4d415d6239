import Netsystem.Api.Grammar

/-!
# The encoding among the spellings

The encoder writes one spelling of a value. The others are found by putting any byte but zero
where a `true` is written: `normalize` takes them all to the encoding, at the places that
`Shape.mask` marks.
-/

namespace Netsystem.Api

/-! ## Normal forms -/

/-- Every marked byte replaced by zero or one, as it is zero or not. -/
def normalize : List Bool → Bytes → Bytes
  | [], bytes => bytes
  | _ :: _, [] => []
  | marked :: mask, byte :: bytes =>
      (if marked then boolByte (byte ≠ 0) else byte) :: normalize mask bytes

mutual

/-- The places of the bytes of type `bool`, up to the first text or byte string. -/
def Shape.mask : Shape → List Bool
  | .int kind => List.replicate kind.size false
  | .bool => [true]
  | .str => []
  | .string => []
  | .newtype inner => inner.mask
  | .tuple elements => elements.mask
  | .tupleStruct elements => elements.mask
  | .array count element => (List.replicate count element.mask).flatten
  | .struct fields => fields.mask

def Fields.mask : Fields → List Bool
  | .nil => []
  | .cons _ shape rest => shape.mask ++ rest.mask

end

mutual

/-- All values of the shape take the same room. -/
def Shape.fixed : Shape → Bool
  | .int _ => true
  | .bool => true
  | .str => false
  | .string => false
  | .newtype inner => inner.fixed
  | .tuple elements => elements.fixed
  | .tupleStruct elements => elements.fixed
  | .array _ element => element.fixed
  | .struct fields => fields.fixed

def Fields.fixed : Fields → Bool
  | .nil => true
  | .cons _ shape rest => shape.fixed && rest.fixed

end

mutual

/-- Every integer is read under the flag that it is written under, and at most the last part is of
variable length. -/
def Shape.regular : Shape → (isOpaque : Bool) → Bool
  | .int _, _ => true
  | .bool, _ => true
  | .str, _ => true
  | .string, _ => true
  | .newtype inner, isOpaque => inner.regular isOpaque
  | .tuple elements, isOpaque => !isOpaque && elements.regularElements
  | .tupleStruct elements, isOpaque => !isOpaque && elements.regularElements
  | .array _ element, isOpaque => !isOpaque && element.fixed && element.regular false
  | .struct fields, _ => fields.regularFields

def Fields.regularElements : Fields → Bool
  | .nil => true
  | .cons _ shape rest =>
      (shape.fixed || rest.names.isEmpty) && shape.regular false && rest.regularElements

def Fields.regularFields : Fields → Bool
  | .nil => true
  | .cons name shape rest =>
      (shape.fixed || rest.names.isEmpty) && shape.regular (name = "client_index") &&
        rest.regularFields

end

section Normal

@[simp] theorem normalize_nil (bytes : Bytes) : normalize [] bytes = bytes := by
  cases bytes <;> rfl

@[simp] theorem length_normalize (mask : List Bool) (bytes : Bytes) :
    (normalize mask bytes).length = bytes.length := by
  induction mask generalizing bytes with
  | nil => rw [normalize_nil]
  | cons marked mask ih =>
      cases bytes with
      | nil => rfl
      | cons byte bytes => rw [normalize, List.length_cons, List.length_cons, ih]

theorem normalize_append {left : Bytes} {front : List Bool} (sized : left.length = front.length)
    (back : List Bool) (right : Bytes) :
    normalize (front ++ back) (left ++ right) = normalize front left ++ normalize back right := by
  induction front generalizing left with
  | nil =>
      rw [List.length_nil, List.length_eq_zero_iff] at sized
      subst sized
      rw [normalize_nil]
      rfl
  | cons marked front ih =>
      cases left with
      | nil => cases sized
      | cons byte left =>
          simp only [List.cons_append, normalize, ih (Nat.succ.inj sized)]

/-- Nothing is marked in a word. -/
theorem normalize_replicate_false (count : Nat) (bytes : Bytes) :
    normalize (List.replicate count false) bytes = bytes := by
  induction count generalizing bytes with
  | zero => rw [List.replicate_zero, normalize_nil]
  | succ count ih =>
      cases bytes with
      | nil => rfl
      | cons byte bytes =>
          rw [List.replicate_succ, normalize, ih]
          rfl

theorem normalize_bool_iff {bytes : Bytes} {value : Bool} :
    (∃ byte, bytes = [byte] ∧ value = decide (byte ≠ 0)) ↔
      normalize [true] bytes = [boolByte value] := by
  constructor
  · rintro ⟨byte, rfl, rfl⟩
    rfl
  · intro normal
    have sized := length_normalize [true] bytes
    rw [normal] at sized
    obtain ⟨byte, rfl⟩ := List.length_eq_one_iff.mp sized.symm
    refine ⟨byte, rfl, ?_⟩
    have written : boolByte (decide (byte ≠ 0)) = boolByte value := List.head_eq_of_cons_eq normal
    cases value with
    | true => cases holds : decide (byte ≠ 0) with
      | true => rfl
      | false => rw [holds] at written; cases written
    | false => cases holds : decide (byte ≠ 0) with
      | true => rw [holds] at written; cases written
      | false => rfl

/-- Two parts one behind the other, when the room of the first is known or nothing is behind
it. -/
theorem spells_append_iff {front back : Bytes → Prop} {left right : List Bool}
    {first second : Bytes} {short short' : Prop}
    (before : ∀ bytes, front bytes ↔ short ∧ normalize left bytes = first)
    (behind : ∀ bytes, back bytes ↔ short' ∧ normalize right bytes = second)
    (known : first.length = left.length ∨ right = [] ∧ second = []) (bytes : Bytes) :
    (∃ start rest, bytes = start ++ rest ∧ front start ∧ back rest) ↔
      (short ∧ short') ∧ normalize (left ++ right) bytes = first ++ second := by
  simp only [before, behind]
  constructor
  · rintro ⟨start, rest, rfl, ⟨fits, rfl⟩, fits', rfl⟩
    refine ⟨⟨fits, fits'⟩, ?_⟩
    rcases known with sized | ⟨rfl, none_⟩
    · rw [length_normalize] at sized
      exact normalize_append sized right rest
    · rw [normalize_nil] at none_ ⊢
      subst none_
      simp only [List.append_nil]
  · rintro ⟨⟨fits, fits'⟩, normal⟩
    rcases known with sized | ⟨rfl, rfl⟩
    · have total := congrArg List.length normal
      rw [length_normalize, List.length_append, sized] at total
      have cut : (bytes.take left.length).length = left.length := by
        rw [List.length_take]
        omega
      have parts : normalize left (bytes.take left.length) ++
          normalize right (bytes.drop left.length) = first ++ second := by
        rw [← normalize_append cut, List.take_append_drop, normal]
      have same : (normalize left (bytes.take left.length)).length = first.length := by
        rw [length_normalize, cut, sized]
      obtain ⟨one, other⟩ := List.append_inj parts same
      exact ⟨_, _, (List.take_append_drop left.length bytes).symm, ⟨fits, one⟩, fits', other⟩
    · rw [List.append_nil, List.append_nil] at normal
      exact ⟨bytes, [], (List.append_nil bytes).symm, ⟨fits, normal⟩, fits', rfl⟩

end Normal

/-! ## Room -/

theorem encodeArray_length_eq {α : Type} {bytes : α → Bytes} {width : Nat}
    (each : ∀ value, (bytes value).length = width) :
    ∀ (count : Nat) (value : Repeated α count),
      (encodeArray bytes count value).length = count * width
  | 0, _ => by rw [Nat.zero_mul]; rfl
  | count + 1, value => by
      rw [encodeArray, List.length_append, each, encodeArray_length_eq each count, Nat.succ_mul,
        Nat.add_comm]

theorem length_mask_array (count : Nat) (mask : List Bool) :
    (List.replicate count mask).flatten.length = count * mask.length := by
  induction count with
  | zero => rw [Nat.zero_mul]; rfl
  | succ count ih =>
      rw [List.replicate_succ, List.flatten_cons, List.length_append, ih, Nat.succ_mul,
        Nat.add_comm]

mutual

/-- A value of a shape of fixed room takes the room of its mask. -/
theorem Shape.encode_length : ∀ (shape : Shape) (flag : Bool) (value : shape.Val),
    shape.fixed = true → (shape.encode flag value).length = shape.mask.length
  | .int kind, flag, value, _ => by
      rw [Shape.encode, Shape.mask, List.length_replicate]
      cases flag <;> simp
  | .bool, _, _, _ => rfl
  | .str, _, _, fixed => by cases fixed
  | .string, _, _, fixed => by cases fixed
  | .newtype inner, flag, value, fixed => inner.encode_length flag value fixed
  | .tuple elements, flag, value, fixed => elements.encodeElements_length_eq flag value fixed
  | .tupleStruct elements, flag, value, fixed =>
      elements.encodeElements_length_eq flag value fixed
  | .array count element, flag, value, fixed => by
      rw [Shape.encode, Shape.mask, length_mask_array]
      exact encodeArray_length_eq (fun value => element.encode_length flag value fixed)
        count value
  | .struct fields, _, value, fixed => fields.encodeFields_length_eq value fixed

theorem Fields.encodeElements_length_eq : ∀ (elements : Fields) (flag : Bool)
    (value : elements.Val), elements.fixed = true →
    (elements.encodeElements flag value).length = elements.mask.length
  | .nil, _, _, _ => rfl
  | .cons _ shape rest, flag, value, fixed => by
      rw [Fields.fixed, Bool.and_eq_true] at fixed
      rw [Fields.encodeElements, Fields.mask, List.length_append, List.length_append,
        shape.encode_length flag value.1 fixed.1,
        rest.encodeElements_length_eq flag value.2 fixed.2]

theorem Fields.encodeFields_length_eq : ∀ (fields : Fields) (value : fields.Val),
    fields.fixed = true → (fields.encodeFields value).length = fields.mask.length
  | .nil, _, _ => rfl
  | .cons _ shape rest, value, fixed => by
      rw [Fields.fixed, Bool.and_eq_true] at fixed
      rw [Fields.encodeFields, Fields.mask, List.length_append, List.length_append,
        shape.encode_length _ value.1 fixed.1, rest.encodeFields_length_eq value.2 fixed.2]

end

/-- The room of a part that stands before others is known. -/
theorem known_of_fixed {shape : Shape} {rest : Fields}
    (last : (shape.fixed || rest.names.isEmpty) = true)
    (flag : Bool) (value : shape.Val) :
    (shape.encode flag value).length = shape.mask.length ∨ rest = .nil := by
  rcases Bool.or_eq_true _ _ ▸ last with fixed | none_
  · exact .inl (shape.encode_length flag value fixed)
  · cases rest with
    | nil => exact .inr rfl
    | cons => cases none_

theorem encodeBytes_lt {value : Bytes} (short : value.length < 2 ^ 32) :
    (encodeBytes value).length < 4 + 2 ^ 32 := by
  rw [encodeBytes, List.length_append, length_beBytes]
  omega

/-- A first part, and those behind it of which at most the last is of variable length. -/
theorem append_length_lt {shape : Shape} {rest : Fields} {front back : Bytes}
    (last : (shape.fixed || rest.names.isEmpty) = true)
    (sized : shape.fixed = true → front.length = shape.mask.length)
    (first : front.length < shape.mask.length + (4 + 2 ^ 32)) (none_ : rest = .nil → back = [])
    (others : back.length < rest.mask.length + (4 + 2 ^ 32)) :
    (front ++ back).length < (shape.mask ++ rest.mask).length + (4 + 2 ^ 32) := by
  rw [List.length_append, List.length_append]
  rcases Bool.or_eq_true _ _ ▸ last with fixed | empty
  · have same := sized fixed
    omega
  · cases rest with
    | nil =>
        have nothing := none_ rfl
        subst nothing
        simp only [List.length_nil]
        omega
    | cons => cases empty

mutual

/-- Short strings leave an encoding far below the limits of a `usize`. -/
theorem Shape.encode_lt : ∀ (shape : Shape) (flag : Bool) (value : shape.Val),
    shape.regular flag = true → shape.Short value →
    (shape.encode flag value).length < shape.mask.length + (4 + 2 ^ 32)
  | .int kind, flag, value, _, _ => by
      rw [Shape.encode_length (.int kind) flag value rfl]
      omega
  | .bool, flag, value, _, _ => by
      rw [Shape.encode_length .bool flag value rfl]
      omega
  | .str, _, value, _, short => by
      rw [Shape.mask, List.length_nil, Nat.zero_add]
      exact encodeBytes_lt short
  | .string, _, value, _, short => by
      rw [Shape.mask, List.length_nil, Nat.zero_add]
      exact encodeBytes_lt short
  | .newtype inner, flag, value, regular, short => inner.encode_lt flag value regular short
  | .tuple elements, flag, value, regular, short => by
      rw [Shape.regular, Bool.and_eq_true, Bool.not_eq_true'] at regular
      rw [regular.1]
      exact elements.encodeElements_lt value regular.2 short
  | .tupleStruct elements, flag, value, regular, short => by
      rw [Shape.regular, Bool.and_eq_true, Bool.not_eq_true'] at regular
      rw [regular.1]
      exact elements.encodeElements_lt value regular.2 short
  | .array count element, flag, value, regular, _ => by
      rw [Shape.regular, Bool.and_eq_true, Bool.and_eq_true] at regular
      rw [Shape.encode_length (.array count element) flag value regular.1.2]
      omega
  | .struct fields, _, value, regular, short => fields.encodeFields_lt value regular short

theorem Fields.encodeElements_lt : ∀ (elements : Fields) (value : elements.Val),
    elements.regularElements = true → elements.Short value →
    (elements.encodeElements false value).length < elements.mask.length + (4 + 2 ^ 32)
  | .nil, _, _, _ => by
      rw [Fields.encodeElements, List.length_nil]
      omega
  | .cons _ shape rest, value, regular, short => by
      rw [Fields.regularElements, Bool.and_eq_true, Bool.and_eq_true] at regular
      exact append_length_lt regular.1.1 (shape.encode_length false value.1)
        (shape.encode_lt false value.1 regular.1.2 short.1) (fun none_ => by subst none_; rfl)
        (rest.encodeElements_lt value.2 regular.2 short.2)

theorem Fields.encodeFields_lt : ∀ (fields : Fields) (value : fields.Val),
    fields.regularFields = true → fields.Short value →
    (fields.encodeFields value).length < fields.mask.length + (4 + 2 ^ 32)
  | .nil, _, _, _ => by
      rw [Fields.encodeFields, List.length_nil]
      omega
  | .cons name shape rest, value, regular, short => by
      rw [Fields.regularFields, Bool.and_eq_true, Bool.and_eq_true] at regular
      exact append_length_lt regular.1.1 (shape.encode_length (name = "client_index") value.1)
        (shape.encode_lt _ value.1 regular.1.2 short.1) (fun none_ => by subst none_; rfl)
        (rest.encodeFields_lt value.2 regular.2 short.2)

end

/-! ## The normal form of a spelling is the encoding -/

theorem spellsArray_iff {α : Type} {spells : Bytes → α → Prop} {short : α → Prop}
    {mask : List Bool} {encode : α → Bytes}
    (each : ∀ bytes value, spells bytes value ↔ short value ∧ normalize mask bytes = encode value)
    (sized : ∀ value, (encode value).length = mask.length) :
    ∀ (count : Nat) (bytes : Bytes) (value : Repeated α count),
      SpellsArray spells count bytes value ↔ Repeated.All short count value ∧
        normalize (List.replicate count mask).flatten bytes = encodeArray encode count value
  | 0, bytes, _ => by
      rw [List.replicate_zero, List.flatten_nil, normalize_nil]
      exact (and_iff_right trivial).symm
  | count + 1, bytes, value =>
      spells_append_iff (fun bytes => each bytes value.1)
        (fun bytes => spellsArray_iff each sized count bytes value.2) (.inl (sized value.1)) bytes

mutual

/-- A byte string spells a value exactly when its normal form is what the encoder writes. -/
theorem Shape.spells_iff : ∀ (shape : Shape) (flag : Bool) (bytes : Bytes) (value : shape.Val),
    shape.regular flag = true →
    (shape.Spells flag bytes value ↔
      shape.Short value ∧ normalize shape.mask bytes = shape.encode flag value)
  | .int kind, flag, bytes, value, _ => by
      rw [Shape.mask, normalize_replicate_false]
      exact (and_iff_right trivial).symm
  | .bool, _, _, _, _ => normalize_bool_iff.trans (and_iff_right trivial).symm
  | .str, _, bytes, value, _ => by
      rw [Shape.mask, normalize_nil]
      exact Iff.rfl
  | .string, _, bytes, value, _ => by
      rw [Shape.mask, normalize_nil]
      exact Iff.rfl
  | .newtype inner, flag, bytes, value, regular => inner.spells_iff flag bytes value regular
  | .tuple elements, flag, bytes, value, regular => by
      rw [Shape.regular, Bool.and_eq_true, Bool.not_eq_true'] at regular
      rw [regular.1]
      exact elements.spellsElements_iff bytes value regular.2
  | .tupleStruct elements, flag, bytes, value, regular => by
      rw [Shape.regular, Bool.and_eq_true, Bool.not_eq_true'] at regular
      rw [regular.1]
      exact elements.spellsElements_iff bytes value regular.2
  | .array count element, flag, bytes, value, regular => by
      rw [Shape.regular, Bool.and_eq_true, Bool.and_eq_true, Bool.not_eq_true'] at regular
      obtain ⟨⟨plain, fixed⟩, inner⟩ := regular
      subst plain
      exact spellsArray_iff (fun bytes value => element.spells_iff false bytes value inner)
        (fun value => element.encode_length false value fixed) count bytes value
  | .struct fields, _, bytes, value, regular => fields.spellsFields_iff bytes value regular

theorem Fields.spellsElements_iff : ∀ (elements : Fields) (bytes : Bytes) (value : elements.Val),
    elements.regularElements = true →
    (elements.SpellsElements bytes value ↔
      elements.Short value ∧ normalize elements.mask bytes = elements.encodeElements false value)
  | .nil, bytes, _, _ => by
      rw [Fields.mask, normalize_nil]
      exact (and_iff_right trivial).symm
  | .cons name shape rest, bytes, value, regular => by
      rw [Fields.regularElements, Bool.and_eq_true, Bool.and_eq_true] at regular
      obtain ⟨⟨last, first⟩, others⟩ := regular
      refine spells_append_iff (fun bytes => shape.spells_iff false bytes value.1 first)
        (fun bytes => rest.spellsElements_iff bytes value.2 others) ?_ bytes
      rcases known_of_fixed last false value.1 with sized | rfl
      · exact .inl sized
      · exact .inr ⟨rfl, rfl⟩

theorem Fields.spellsFields_iff : ∀ (fields : Fields) (bytes : Bytes) (value : fields.Val),
    fields.regularFields = true →
    (fields.SpellsFields bytes value ↔
      fields.Short value ∧ normalize fields.mask bytes = fields.encodeFields value)
  | .nil, bytes, _, _ => by
      rw [Fields.mask, normalize_nil]
      exact (and_iff_right trivial).symm
  | .cons name shape rest, bytes, value, regular => by
      rw [Fields.regularFields, Bool.and_eq_true, Bool.and_eq_true] at regular
      obtain ⟨⟨last, first⟩, others⟩ := regular
      refine spells_append_iff (fun bytes => shape.spells_iff _ bytes value.1 first)
        (fun bytes => rest.spellsFields_iff bytes value.2 others) ?_ bytes
      rcases known_of_fixed last (name = "client_index") value.1 with sized | rfl
      · exact .inl sized
      · exact .inr ⟨rfl, rfl⟩

end

theorem spellsArray_encodeArray {α : Type} {spells : Bytes → α → Prop} {short : α → Prop}
    {encode : α → Bytes} (each : ∀ value, short value → spells (encode value) value) :
    ∀ (count : Nat) (value : Repeated α count), Repeated.All short count value →
      SpellsArray spells count (encodeArray encode count value) value
  | 0, _, _ => rfl
  | count + 1, value, allShort =>
      ⟨_, _, rfl, each value.1 allShort.1, spellsArray_encodeArray each count value.2 allShort.2⟩

mutual

/-- The encoding is a spelling. -/
theorem Shape.spells_encode : ∀ (shape : Shape) (flag : Bool) (value : shape.Val),
    shape.regular flag = true → shape.Short value →
    shape.Spells flag (shape.encode flag value) value
  | .int _, _, _, _, _ => rfl
  | .bool, _, value, _, _ => ⟨boolByte value, rfl, by cases value <;> rfl⟩
  | .str, _, _, _, short => ⟨short, rfl⟩
  | .string, _, _, _, short => ⟨short, rfl⟩
  | .newtype inner, flag, value, regular, short => inner.spells_encode flag value regular short
  | .tuple elements, flag, value, regular, short => by
      rw [Shape.regular, Bool.and_eq_true, Bool.not_eq_true'] at regular
      rw [regular.1]
      exact elements.spellsElements_encode value regular.2 short
  | .tupleStruct elements, flag, value, regular, short => by
      rw [Shape.regular, Bool.and_eq_true, Bool.not_eq_true'] at regular
      rw [regular.1]
      exact elements.spellsElements_encode value regular.2 short
  | .array count element, flag, value, regular, short => by
      rw [Shape.regular, Bool.and_eq_true, Bool.and_eq_true, Bool.not_eq_true'] at regular
      rw [regular.1.1]
      exact spellsArray_encodeArray
        (fun value short => element.spells_encode false value regular.2 short) count value short
  | .struct fields, _, value, regular, short => fields.spellsFields_encode value regular short

theorem Fields.spellsElements_encode : ∀ (elements : Fields) (value : elements.Val),
    elements.regularElements = true → elements.Short value →
    elements.SpellsElements (elements.encodeElements false value) value
  | .nil, _, _, _ => rfl
  | .cons _ shape rest, value, regular, short => by
      rw [Fields.regularElements, Bool.and_eq_true, Bool.and_eq_true] at regular
      exact ⟨_, _, rfl, shape.spells_encode false value.1 regular.1.2 short.1,
        rest.spellsElements_encode value.2 regular.2 short.2⟩

theorem Fields.spellsFields_encode : ∀ (fields : Fields) (value : fields.Val),
    fields.regularFields = true → fields.Short value →
    fields.SpellsFields (fields.encodeFields value) value
  | .nil, _, _, _ => rfl
  | .cons _ shape rest, value, regular, short => by
      rw [Fields.regularFields, Bool.and_eq_true, Bool.and_eq_true] at regular
      exact ⟨_, _, rfl, shape.spells_encode _ value.1 regular.1.2 short.1,
        rest.spellsFields_encode value.2 regular.2 short.2⟩

end

/-! ## The encoder writes nothing else -/

section Emitting

variable {flag : Bool}

/-- Where the text succeeds it has written `bytes`, and the condition holds. -/
def Emits (text : Encode Unit) (flag : Bool) (bytes : Bytes) (short : Prop) : Prop :=
  ∀ output offset after, offset ≤ output.length →
    text ⟨some output, offset, flag⟩ = .ok () after →
    short ∧ offset + bytes.length ≤ output.length ∧
      after = ⟨some (splice output offset bytes), offset + bytes.length, flag⟩

theorem emits_write (bytes : Bytes) : Emits (write bytes) flag bytes True := by
  intro output offset after inside success
  unfold write at success
  dsimp only at success
  split at success
  · cases success
  split at success
  · cases success
  case isFalse room =>
    cases success
    exact ⟨trivial, not_lt.mp room, rfl⟩

theorem emits_nil : Emits (pure ()) flag [] True := by
  intro output offset after inside success
  cases success
  rw [splice_nil]
  exact ⟨trivial, inside, rfl⟩

theorem Emits.append {first second : Encode Unit} {left right : Bytes} {short short' : Prop}
    (before : Emits first flag left short) (behind : Emits second flag right short') :
    Emits (do first; second) flag (left ++ right) (short ∧ short') := by
  intro output offset after inside success
  simp only [bind, EStateM.bind] at success
  rcases start : first ⟨some output, offset, flag⟩ with ⟨_, middle⟩ | ⟨reason, middle⟩
  · obtain ⟨fits, room, rfl⟩ := before output offset middle inside start
    have same := length_splice room
    rw [start] at success
    obtain ⟨fits', room', rfl⟩ := behind _ _ after (by omega) success
    rw [splice_splice left right inside, List.length_append, Nat.add_assoc]
    exact ⟨⟨fits, fits'⟩, by omega, rfl⟩
  · rw [start] at success
    cases success

theorem emits_serializeBytes (value : Bytes) :
    Emits (serializeBytes value) flag (encodeBytes value) (value.length < 2 ^ 32) := by
  intro output offset after inside success
  have both : Emits (do write (beBytes 4 value.length); write value) flag (encodeBytes value)
      (True ∧ True) := (emits_write _).append (emits_write _)
  unfold serializeBytes at success
  by_cases long : 2 ^ 32 ≤ value.length
  · rw [if_pos long] at success
    cases success
  rw [if_neg long] at success
  refine ⟨not_le.mp long, ?_⟩
  by_cases fits : output.length - offset < 4 ∨ output.length - offset - 4 < value.length
  · simp only [bind, EStateM.bind, get_run, if_pos fits] at success
    cases success
  · simp only [bind, EStateM.bind, get_run, if_neg fits] at success
    exact (both output offset after inside success).2

theorem emits_serializeArray {α : Type} {element : α → Encode Unit} {bytes : α → Bytes}
    {short : α → Prop} (each : ∀ value, Emits (element value) flag (bytes value) (short value)) :
    ∀ (count : Nat) (value : Repeated α count),
      Emits (serializeArray element count value) flag (encodeArray bytes count value)
        (Repeated.All short count value)
  | 0, _ => emits_nil
  | count + 1, value => (each value.1).append (emits_serializeArray each count value.2)

/-- A field is written under its own flag. -/
theorem Emits.field {name : String} {text : Encode Unit} {bytes : Bytes} {short : Prop}
    (emits : Emits text (name = "client_index") bytes short) :
    Emits (serializeField name text) flag bytes short := by
  intro output offset after inside success
  unfold serializeField at success
  dsimp only at success
  rcases written : text ⟨some output, offset, decide (name = "client_index")⟩ with
    ⟨_, middle⟩ | ⟨reason, middle⟩
  · obtain ⟨fits, room, rfl⟩ := emits output offset middle inside written
    rw [written] at success
    cases success
    exact ⟨fits, room, rfl⟩
  · rw [written] at success
    cases success

mutual

/-- Where the encoder succeeds the strings of the value are short, and `encode` is written. -/
theorem Shape.emits : ∀ (shape : Shape) (flag : Bool) (value : shape.Val),
    Emits (shape.serialize value) flag (shape.encode flag value) (shape.Short value)
  | .int _, _, _ => by
      intro output offset after inside success
      exact emits_write _ output offset after inside success
  | .bool, _, value => emits_write [boolByte value]
  | .str, _, value => emits_serializeBytes (toUtf8 value)
  | .string, _, value => emits_serializeBytes value
  | .newtype inner, flag, value => inner.emits flag value
  | .tuple elements, flag, value => elements.emits_elements flag value
  | .tupleStruct elements, flag, value => elements.emits_elements flag value
  | .array count element, flag, value => emits_serializeArray (element.emits flag) count value
  | .struct fields, flag, value => fields.emits_fields flag value

theorem Fields.emits_elements : ∀ (elements : Fields) (flag : Bool) (value : elements.Val),
    Emits (elements.serializeElements value) flag (elements.encodeElements flag value)
      (elements.Short value)
  | .nil, _, _ => emits_nil
  | .cons _ shape rest, flag, value =>
      (shape.emits flag value.1).append (rest.emits_elements flag value.2)

theorem Fields.emits_fields : ∀ (fields : Fields) (flag : Bool) (value : fields.Val),
    Emits (fields.serializeFields value) flag (fields.encodeFields value) (fields.Short value)
  | .nil, _, _ => emits_nil
  | .cons _ shape rest, flag, value =>
      (shape.emits _ value.1).field.append (rest.emits_fields flag value.2)

end

end Emitting

/-! ## Measuring -/

section Measuring

variable {flag : Bool}

/-- Without an output the text counts the bytes. -/
def Measures (text : Encode Unit) (flag : Bool) (bytes : Bytes) : Prop :=
  ∀ offset, offset + bytes.length < 2 ^ 64 →
    text ⟨none, offset, flag⟩ = .ok () ⟨none, offset + bytes.length, flag⟩

theorem measures_write (bytes : Bytes) : Measures (write bytes) flag bytes := by
  intro offset usize
  simp only [write, if_neg (Nat.not_le.mpr usize)]

theorem measures_nil : Measures (pure ()) flag [] := by
  intro offset usize
  rfl

theorem Measures.append {first second : Encode Unit} {left right : Bytes}
    (before : Measures first flag left) (behind : Measures second flag right) :
    Measures (do first; second) flag (left ++ right) := by
  intro offset usize
  rw [List.length_append] at usize
  have start := before offset (by omega)
  have rest := behind (offset + left.length) (by omega)
  simp only [bind, EStateM.bind, start, rest, List.length_append, Nat.add_assoc]

theorem measures_serializeBytes {value : Bytes} (short : value.length < 2 ^ 32) :
    Measures (serializeBytes value) flag (encodeBytes value) := by
  intro offset usize
  have both : Measures (do write (beBytes 4 value.length); write value) flag
      (encodeBytes value) :=
    (measures_write _).append (measures_write _)
  unfold serializeBytes
  rw [if_neg (Nat.not_le.mpr short)]
  exact both offset usize

theorem measures_serializeArray {α : Type} {element : α → Encode Unit} {bytes : α → Bytes}
    {short : α → Prop}
    (each : ∀ value, short value → Measures (element value) flag (bytes value)) :
    ∀ (count : Nat) (value : Repeated α count), Repeated.All short count value →
      Measures (serializeArray element count value) flag (encodeArray bytes count value)
  | 0, _, _ => measures_nil
  | count + 1, value, allShort =>
      (each value.1 allShort.1).append (measures_serializeArray each count value.2 allShort.2)

theorem Measures.field {name : String} {text : Encode Unit} {bytes : Bytes}
    (measures : Measures text (name = "client_index") bytes) :
    Measures (serializeField name text) flag bytes := by
  intro offset usize
  have counted := measures offset usize
  simp only [serializeField, counted]

mutual

/-- The measure of a value whose strings are short is the length of its encoding. -/
theorem Shape.measures : ∀ (shape : Shape) (flag : Bool) (value : shape.Val), shape.Short value →
    Measures (shape.serialize value) flag (shape.encode flag value)
  | .int _, _, _, _ => by
      intro offset usize
      exact measures_write _ offset usize
  | .bool, _, value, _ => measures_write [boolByte value]
  | .str, _, _, short => measures_serializeBytes short
  | .string, _, _, short => measures_serializeBytes short
  | .newtype inner, flag, value, short => inner.measures flag value short
  | .tuple elements, flag, value, short => elements.measures_elements flag value short
  | .tupleStruct elements, flag, value, short => elements.measures_elements flag value short
  | .array count element, flag, value, short =>
      measures_serializeArray (element.measures flag) count value short
  | .struct fields, flag, value, short => fields.measures_fields flag value short

theorem Fields.measures_elements : ∀ (elements : Fields) (flag : Bool) (value : elements.Val),
    elements.Short value →
    Measures (elements.serializeElements value) flag (elements.encodeElements flag value)
  | .nil, _, _, _ => measures_nil
  | .cons _ shape rest, flag, value, short =>
      (shape.measures flag value.1 short.1).append (rest.measures_elements flag value.2 short.2)

theorem Fields.measures_fields : ∀ (fields : Fields) (flag : Bool) (value : fields.Val),
    fields.Short value → Measures (fields.serializeFields value) flag (fields.encodeFields value)
  | .nil, _, _, _ => measures_nil
  | .cons _ shape rest, flag, value, short =>
      (shape.measures _ value.1 short.1).field.append (rest.measures_fields flag value.2 short.2)

end

end Measuring

/-! ## Messages -/

section Messages

variable {Message : Type} [Api Message]

/-- `codec::serialize` writes exactly `bytes` into every output that has room for them. -/
def Serializes (message : Message) (bytes : Bytes) : Prop :=
  bytes.length < 2 ^ 64 ∧
    ∀ output : Bytes, bytes.length ≤ output.length → output.length < 2 ^ 64 →
      serialize (Api.shape Message) (Api.toVal message) output =
        (.ok bytes.length, some (bytes ++ output.drop bytes.length))

theorem serializes_iff (message : Message) (bytes : Bytes) :
    Serializes message bytes ↔ (Api.shape Message).Short (Api.toVal message) ∧
      bytes = (Api.shape Message).encode false (Api.toVal message) ∧ bytes.length < 2 ^ 64 := by
  constructor
  · rintro ⟨usize, writes⟩
    have ran := writes bytes (le_refl _) usize
    unfold serialize at ran
    rcases success : (Api.shape Message).serialize (Api.toVal message) ⟨some bytes, 0, false⟩ with
      ⟨_, after⟩ | ⟨reason, after⟩
    · obtain ⟨short, room, rfl⟩ :=
        (Api.shape Message).emits false (Api.toVal message) bytes 0 after (Nat.zero_le _) success
      rw [success, Nat.zero_add] at ran
      obtain ⟨count, written⟩ := Prod.ext_iff.mp ran
      have sized : ((Api.shape Message).encode false (Api.toVal message)).length = bytes.length :=
        Except.ok.inj count
      have same := congrArg (List.take bytes.length) (Option.some.inj written)
      rw [List.take_left, ← sized, take_splice_zero] at same
      exact ⟨short, same.symm, usize⟩
    · rw [success] at ran
      cases (Prod.ext_iff.mp ran).1
  · rintro ⟨short, rfl, usize⟩
    refine ⟨usize, fun output room fits => ?_⟩
    rw [serialize_eq short room fits, splice, List.take_zero, List.nil_append, Nat.zero_add]

/-- The decoder of a message accepts what is spelled by the whole payload. -/
theorem decode_eq_ok_iff (solid : (Api.shape Message).Solid) (bytes : Bytes) (message : Message) :
    decode Message bytes = .ok message ↔
      ∃ value, (Api.shape Message).Spells false bytes value ∧ bytes.length < 2 ^ 64 ∧
        Api.ofVal value = message := by
  have usize : 0 < 2 ^ 64 := by omega
  have parses := (Api.shape Message).parses false solid (.new bytes) ⟨Nat.zero_le _, usize⟩ rfl
  constructor
  · intro accepted
    unfold decode at accepted
    rcases taken : (Api.shape Message).deserialize (.new bytes) with ⟨value, after⟩ |
      ⟨reason, after⟩
    · rw [taken] at accepted
      obtain ⟨text, spelled, ahead, rfl⟩ := (parses value after).mp taken
      have inside := ahead.inside ⟨Nat.zero_le _, usize⟩
      have small := ahead.usize
      simp only [Deserializer.new, Nat.zero_add] at inside small
      simp only [Deserializer.remainingBytes, Deserializer.new, Deserializer.advance,
        Nat.zero_add] at accepted
      split at accepted
      · cases accepted
      case isFalse whole =>
        have same : text = bytes := ahead.isFront.eq_of_length (by
          simp only [Deserializer.new, List.drop_zero]
          omega)
        subst same
        exact ⟨value, spelled, small, Except.ok.inj accepted⟩
    · rw [taken] at accepted
      cases accepted
  · rintro ⟨value, spelled, small, rfl⟩
    have ahead : Ahead (.new bytes) bytes := ⟨List.prefix_refl _, by
      simp only [Deserializer.new, Nat.zero_add]
      exact small⟩
    have taken := (parses value _).mpr ⟨bytes, spelled, ahead, rfl⟩
    unfold decode
    rw [taken]
    simp [Deserializer.remainingBytes, Deserializer.new, Deserializer.advance]

/-- No spelling of a value is the front of another spelling. -/
theorem Shape.spells_prefix {shape : Shape} (solid : shape.Solid) {front whole : Bytes}
    {value value' : shape.Val} (spelled : shape.Spells false front value)
    (spelled' : shape.Spells false whole value') (isFront : front <+: whole)
    (usize : whole.length < 2 ^ 64) : front = whole := by
  have parses := shape.parses false solid (.new whole) ⟨Nat.zero_le _, by
    simp only [Deserializer.new]
    omega⟩ rfl
  have shorter := isFront.length_le
  have fits : (Deserializer.new whole).offset + front.length < 2 ^ 64 := by
    simp only [Deserializer.new]
    omega
  have fits' : (Deserializer.new whole).offset + whole.length < 2 ^ 64 := by
    simp only [Deserializer.new]
    omega
  have one := (parses value _).mpr ⟨front, spelled, ⟨isFront, fits⟩, rfl⟩
  have other := (parses value' _).mpr ⟨whole, spelled', ⟨List.prefix_refl _, fits'⟩, rfl⟩
  rw [one] at other
  have same : (Deserializer.new whole).advance front.length =
      (Deserializer.new whole).advance whole.length := by
    injection other
  have offsets := congrArg Deserializer.offset same
  simp only [Deserializer.advance, Deserializer.new] at offsets
  exact isFront.eq_of_length (by omega)

end Messages

/-! ## The declared messages -/

/-- The strings of the message have a length that fits its field on the wire. -/
def MessageType.Short : (type : MessageType) → type.Message → Prop
  | .appNamespaceAddDel, message => (toUtf8 (AppNamespaceAddDel.sockName message)).length < 2 ^ 32
  | _, _ => True

namespace MessageType

theorem all_of_forall {α : Type} {holds : α → Prop} (each : ∀ value, holds value) :
    ∀ (count : Nat) (value : Repeated α count), Repeated.All holds count value
  | 0, _ => trivial
  | count + 1, value => ⟨each value.1, all_of_forall each count value.2⟩

theorem short_toVal (type : MessageType) (message : type.Message) (short : type.Short message) :
    (Api.shape type.Message).Short (Api.toVal message) := by
  cases type <;> repeat' (first
    | exact trivial
    | exact all_of_forall (fun _ => trivial) _ _
    | exact short
    | constructor)

theorem solid_shape (type : MessageType) : (Api.shape type.Message).Solid := by
  cases type <;> repeat' (first
    | exact trivial
    | exact .inr ⟨rfl, trivial⟩
    | constructor)

theorem regular_shape (type : MessageType) : (Api.shape type.Message).regular false = true := by
  cases type <;> rfl

theorem mask_small (type : MessageType) : (Api.shape type.Message).mask.length ≤ 512 := by
  cases type <;> decide +kernel

theorem encode_front (type : MessageType) (message : type.Message) :
    ∃ rest, (Api.shape type.Message).encode false (Api.toVal message) =
      beBytes 2 (type.id message).toNat ++ rest := by
  cases type <;> exact ⟨_, rfl⟩

variable {type : MessageType}

/-- What a byte string spells is what the encoder makes into its normal form. -/
theorem spells_iff_serializes (message : type.Message) (bytes : Bytes) :
    (Api.shape type.Message).Spells false bytes (Api.toVal message) ∧ bytes.length < 2 ^ 64 ↔
      Serializes message (normalize (Api.shape type.Message).mask bytes) := by
  rw [serializes_iff, length_normalize, Shape.spells_iff _ _ _ _ type.regular_shape, and_assoc]

theorem decode_iff (bytes : Bytes) (message : type.Message) :
    decode type.Message bytes = .ok message ↔
      Serializes message (normalize (Api.shape type.Message).mask bytes) := by
  rw [decode_eq_ok_iff type.solid_shape, ← spells_iff_serializes]
  constructor
  · rintro ⟨value, spelled, usize, rfl⟩
    rw [type.toVal_ofVal]
    exact ⟨spelled, usize⟩
  · rintro ⟨spelled, usize⟩
    exact ⟨Api.toVal message, spelled, usize, type.ofVal_toVal message⟩

/-- What the encoder writes spells the value. -/
theorem spells_of_serializes {message : type.Message} {bytes : Bytes}
    (serializes : Serializes message bytes) :
    (Api.shape type.Message).Spells false bytes (Api.toVal message) := by
  obtain ⟨short, rfl, -⟩ := (serializes_iff message bytes).mp serializes
  exact Shape.spells_encode _ false _ type.regular_shape short

theorem decode_of_serializes {message : type.Message} {bytes : Bytes}
    (serializes : Serializes message bytes) : decode type.Message bytes = .ok message :=
  (decode_eq_ok_iff type.solid_shape bytes message).mpr
    ⟨Api.toVal message, spells_of_serializes serializes, serializes.1, type.ofVal_toVal message⟩

/-- Of two payloads that the decoder accepts neither is the front of the other. -/
theorem prefix_free {front whole : Bytes} {message message' : type.Message}
    (accepted : decode type.Message front = .ok message)
    (accepted' : decode type.Message whole = .ok message') (isFront : front <+: whole) :
    front = whole := by
  obtain ⟨value, spelled, -, -⟩ := (decode_eq_ok_iff type.solid_shape _ _).mp accepted
  obtain ⟨value', spelled', usize, -⟩ := (decode_eq_ok_iff type.solid_shape _ _).mp accepted'
  exact Shape.spells_prefix type.solid_shape spelled spelled' isFront usize

/-- A strict prefix of an accepted payload is refused, and so is every longer one. -/
theorem refused {bytes other : Bytes} {message : type.Message}
    (accepted : decode type.Message bytes = .ok message) (different : other ≠ bytes)
    (either : other <+: bytes ∨ bytes <+: other) :
    ∃ reason, decode type.Message other = .error reason := by
  rcases outcome : decode type.Message other with reason | message'
  · exact ⟨reason, rfl⟩
  · rcases either with isFront | isFront
    · exact absurd (prefix_free outcome accepted isFront) different
    · exact absurd (prefix_free accepted outcome isFront).symm different

theorem messageId_encode (message : type.Message) :
    messageId ((Api.shape type.Message).encode false (Api.toVal message)) =
      .ok (type.id message) := by
  obtain ⟨rest, same⟩ := type.encode_front message
  have small := (type.id message).toNat_lt
  have front : (beBytes 2 (type.id message).toNat ++ rest).take
      (beBytes 2 (type.id message).toNat).length = beBytes 2 (type.id message).toNat :=
    List.take_left
  have long : 2 ≤ (beBytes 2 (type.id message).toNat ++ rest).length := by
    rw [List.length_append, length_beBytes]
    omega
  rw [length_beBytes] at front
  rw [same, messageId_eq, if_pos long, front, beNat_beBytes small, UInt16.ofNat_toNat]

/-- A value with short strings is written, measured and read back, and has its id in front. -/
theorem serializes_of_short {message : type.Message} (short : type.Short message) :
    ∃ bytes, Serializes message bytes ∧ decode type.Message bytes = .ok message ∧
      serializedLen (Api.shape type.Message) (Api.toVal message) = .ok bytes.length ∧
      messageId bytes = .ok (type.id message) := by
  have fits := type.short_toVal message short
  have small :=
    (Api.shape type.Message).encode_lt false (Api.toVal message) type.regular_shape fits
  have few := type.mask_small
  have usize : ((Api.shape type.Message).encode false (Api.toVal message)).length < 2 ^ 64 := by
    omega
  have serializes := (serializes_iff message _).mpr ⟨fits, rfl, usize⟩
  refine ⟨_, serializes, decode_of_serializes serializes, ?_, messageId_encode message⟩
  have measured := (Api.shape type.Message).measures false (Api.toVal message) fits 0
    (by rwa [Nat.zero_add])
  unfold serializedLen
  rw [measured, Nat.zero_add]

/-- **The grammar of the declared messages.** A payload is accepted for a value exactly when its
normal form is what the encoder writes of the value; neither a strict prefix of an encoding nor an
encoding with more bytes behind it is accepted; and every value with short strings comes back from
its encoding, which has the length and the id that are read from the value. -/
theorem exact_grammar (type : MessageType) :
    (∀ (bytes : Bytes) (message : type.Message), decode type.Message bytes = .ok message ↔
      Serializes message (normalize (Api.shape type.Message).mask bytes)) ∧
    (∀ (message : type.Message) (bytes : Bytes), Serializes message bytes →
      (∀ front, front <+: bytes → front ≠ bytes →
        ∃ reason, decode type.Message front = .error reason) ∧
      ∀ trailing, trailing ≠ [] →
        ∃ reason, decode type.Message (bytes ++ trailing) = .error reason) ∧
    ∀ message : type.Message, type.Short message →
      ∃ bytes, Serializes message bytes ∧ decode type.Message bytes = .ok message ∧
        serializedLen (Api.shape type.Message) (Api.toVal message) = .ok bytes.length ∧
        messageId bytes = .ok (type.id message) := by
  refine ⟨decode_iff, ?_, fun message short => serializes_of_short short⟩
  intro message bytes serializes
  have accepted := decode_of_serializes serializes
  refine ⟨fun front isFront strict => refused accepted strict (.inl isFront), ?_⟩
  intro trailing some_
  refine refused accepted ?_ (.inr (List.prefix_append ..))
  intro same
  exact some_ (List.append_right_eq_self.mp same)

end MessageType

end Netsystem.Api
