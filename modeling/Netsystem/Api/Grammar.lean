import Netsystem.Api.Message
import Netsystem.Api.RoundTrip

/-!
# The grammar of a message

Which byte strings the decoder accepts, and for which value: `Shape.Spells` is the language of a
shape with its values, and the decoder accepts exactly that language (`Shape.parses`). The encoder
writes one spelling of each value; the others differ from it in bytes of type `bool` only, which
the decoder takes for `true` whatever they are unless they are zero (`Shape.spells_iff`).
-/

namespace Netsystem.Api

/-! ## Spellings -/

def SpellsArray {α : Type} (element : Bytes → α → Prop) :
    (count : Nat) → Bytes → Repeated α count → Prop
  | 0, bytes, _ => bytes = []
  | count + 1, bytes, value =>
      ∃ left right, bytes = left ++ right ∧ element left value.1 ∧
        SpellsArray element count right value.2

mutual

/-- `bytes` is one of the texts that stand for the value under the flag `isOpaque`. -/
def Shape.Spells : (shape : Shape) → (isOpaque : Bool) → Bytes → shape.Val → Prop
  | .int kind, isOpaque, bytes, value =>
      bytes = if isOpaque then leBytes kind.size value.toNat else beBytes kind.size value.toNat
  | .bool, _, bytes, value => ∃ byte, bytes = [byte] ∧ value = decide (byte ≠ 0)
  | .str, _, bytes, value =>
      (toUtf8 value).length < 2 ^ 32 ∧ bytes = encodeBytes (toUtf8 value)
  | .string, _, bytes, value => value.length < 2 ^ 32 ∧ bytes = encodeBytes value
  | .newtype inner, isOpaque, bytes, value => inner.Spells isOpaque bytes value
  | .tuple elements, _, bytes, value => elements.SpellsElements bytes value
  | .tupleStruct elements, _, bytes, value => elements.SpellsElements bytes value
  | .array count element, _, bytes, value => SpellsArray (element.Spells false) count bytes value
  | .struct fields, _, bytes, value => fields.SpellsFields bytes value

/-- The elements of a tuple are read without a flag. -/
def Fields.SpellsElements : (elements : Fields) → Bytes → elements.Val → Prop
  | .nil, bytes, _ => bytes = []
  | .cons _ shape rest, bytes, value =>
      ∃ left right, bytes = left ++ right ∧ shape.Spells false left value.1 ∧
        rest.SpellsElements right value.2

def Fields.SpellsFields : (fields : Fields) → Bytes → fields.Val → Prop
  | .nil, bytes, _ => bytes = []
  | .cons name shape rest, bytes, value =>
      ∃ left right, bytes = left ++ right ∧ shape.Spells (name = "client_index") left value.1 ∧
        rest.SpellsFields right value.2

end

/-! ## What lies ahead of the decoder -/

/-- The decoder behind the next `length` bytes. -/
def Deserializer.advance (deserializer : Deserializer) (length : Nat) : Deserializer :=
  { deserializer with offset := deserializer.offset + length }

@[simp] theorem Deserializer.advance_advance (deserializer : Deserializer) (first second : Nat) :
    (deserializer.advance first).advance second = deserializer.advance (first + second) := by
  simp only [Deserializer.advance, Nat.add_assoc]

/-- The decoder is inside its input. -/
structure Deserializer.Sound (deserializer : Deserializer) : Prop where
  inside : deserializer.offset ≤ deserializer.input.length
  usize : deserializer.offset < 2 ^ 64

/-- The bytes lie ahead of the decoder, in the reach of a `usize`. -/
structure Ahead (deserializer : Deserializer) (bytes : Bytes) : Prop where
  isFront : bytes <+: deserializer.input.drop deserializer.offset
  usize : deserializer.offset + bytes.length < 2 ^ 64

section Ahead

variable {deserializer : Deserializer} {bytes left right : Bytes}

theorem Ahead.inside (ahead : Ahead deserializer bytes) (sound : deserializer.Sound) :
    deserializer.offset + bytes.length ≤ deserializer.input.length := by
  have front := ahead.isFront.length_le
  have inside := sound.inside
  rw [List.length_drop] at front
  omega

theorem prefix_append_iff {α : Type} {left right whole : List α} :
    left ++ right <+: whole ↔ left <+: whole ∧ right <+: whole.drop left.length := by
  constructor
  · rintro ⟨rest, rfl⟩
    rw [List.append_assoc, List.drop_left]
    exact ⟨List.prefix_append .., List.prefix_append ..⟩
  · rintro ⟨⟨middle, rfl⟩, behind⟩
    rw [List.drop_left] at behind
    obtain ⟨rest, rfl⟩ := behind
    rw [← List.append_assoc]
    exact List.prefix_append ..

/-- Two texts one behind the other lie ahead when the first does, and behind it the second. -/
theorem ahead_append : Ahead deserializer (left ++ right) ↔
    Ahead deserializer left ∧ Ahead (deserializer.advance left.length) right := by
  constructor
  · rintro ⟨isFront, usize⟩
    obtain ⟨front, behind⟩ := prefix_append_iff.mp isFront
    rw [List.length_append, ← Nat.add_assoc] at usize
    rw [List.drop_drop] at behind
    exact ⟨⟨front, by omega⟩, ⟨behind, usize⟩⟩
  · rintro ⟨front, ⟨behind, usize⟩⟩
    unfold Deserializer.advance at behind usize
    rw [← List.drop_drop] at behind
    refine ⟨prefix_append_iff.mpr ⟨front.isFront, behind⟩, ?_⟩
    rwa [List.length_append, ← Nat.add_assoc]

/-- Behind a text that lies ahead the decoder is still inside its input. -/
theorem Ahead.sound (ahead : Ahead deserializer bytes) (sound : deserializer.Sound) :
    (deserializer.advance bytes.length).Sound :=
  ⟨ahead.inside sound, ahead.usize⟩

end Ahead

/-! ## Decoders of a language -/

section Parsing

variable {α β : Type} {found : Bool}

/-- Under the flag `found` the text accepts the spellings of a value, consumes them and changes
nothing else; it accepts nothing else. -/
def Parses (text : Decode α) (found : Bool) (spells : Bytes → α → Prop) : Prop :=
  ∀ deserializer : Deserializer, deserializer.Sound → deserializer.isOpaque = found →
    ∀ value after, text deserializer = .ok value after ↔
      ∃ bytes, spells bytes value ∧ Ahead deserializer bytes ∧
        after = deserializer.advance bytes.length

theorem Parses.congr {text : Decode α} {spells spells' : Bytes → α → Prop}
    (parses : Parses text found spells)
    (same : ∀ bytes value, spells bytes value ↔ spells' bytes value) :
    Parses text found spells' := by
  intro deserializer sound flag value after
  rw [parses deserializer sound flag]
  simp only [same]

theorem parses_read (length : Nat) :
    Parses (read length) found fun bytes value => bytes = value ∧ bytes.length = length := by
  intro deserializer sound flag value after
  unfold read
  constructor
  · intro accepted
    by_cases room : deserializer.offset + length < 2 ^ 64 ∧
        deserializer.offset + length ≤ deserializer.input.length
    · simp only [if_pos room] at accepted
      cases accepted
      have sized : (window deserializer.input deserializer.offset length).length = length :=
        length_window room.2
      refine ⟨_, ⟨rfl, sized⟩, ⟨List.take_prefix .., ?_⟩, ?_⟩
      · rw [sized]
        exact room.1
      · rw [sized]
        rfl
    · simp only [if_neg room] at accepted
      cases accepted
  · rintro ⟨bytes, ⟨rfl, rfl⟩, ahead, rfl⟩
    have front : window deserializer.input deserializer.offset bytes.length = bytes :=
      (List.prefix_iff_eq_take.mp ahead.isFront).symm
    simp only [if_pos (And.intro ahead.usize (ahead.inside sound)), front]
    rfl

theorem parses_pure (value : α) :
    Parses (pure value) found fun bytes result => bytes = [] ∧ value = result := by
  intro deserializer sound flag result after
  constructor
  · intro accepted
    cases accepted
    exact ⟨[], ⟨rfl, rfl⟩, ⟨List.nil_prefix, sound.usize⟩, rfl⟩
  · rintro ⟨bytes, ⟨rfl, rfl⟩, -, rfl⟩
    rfl

theorem parses_throw (reason : Error) :
    Parses (throw reason : Decode α) found fun _ _ => False := by
  intro deserializer sound flag result after
  constructor
  · intro accepted
    cases accepted
  · rintro ⟨bytes, impossible, -⟩
    exact impossible.elim

theorem Parses.bind {first : Decode α} {next : α → Decode β} {front : Bytes → α → Prop}
    {back : α → Bytes → β → Prop} (before : Parses first found front)
    (behind : ∀ value, Parses (next value) found (back value)) :
    Parses (first >>= next) found fun bytes result =>
      ∃ left right value, bytes = left ++ right ∧ front left value ∧ back value right result := by
  intro deserializer sound flag result after
  have step := before deserializer sound flag
  constructor
  · intro accepted
    simp only [Bind.bind, EStateM.bind] at accepted
    rcases taken : first deserializer with ⟨value, middle⟩ | ⟨reason, middle⟩
    · rw [taken] at accepted
      obtain ⟨left, spelled, ahead, rfl⟩ := (step value middle).mp taken
      obtain ⟨right, spelled', ahead', rfl⟩ :=
        (behind value _ (ahead.sound sound) flag result after).mp accepted
      refine ⟨left ++ right, ⟨left, right, value, rfl, spelled, spelled'⟩,
        ahead_append.mpr ⟨ahead, ahead'⟩, ?_⟩
      rw [List.length_append, Deserializer.advance_advance]
    · rw [taken] at accepted
      cases accepted
  · rintro ⟨bytes, ⟨left, right, value, rfl, spelled, spelled'⟩, ahead, rfl⟩
    obtain ⟨ahead, ahead'⟩ := ahead_append.mp ahead
    have taken := (step value _).mpr ⟨left, spelled, ahead, rfl⟩
    have rest := (behind value _ (ahead.sound sound) flag result _).mpr
      ⟨right, spelled', ahead', rfl⟩
    rw [Deserializer.advance_advance, ← List.length_append] at rest
    simp only [Bind.bind, EStateM.bind, taken, rest]

theorem Parses.map {first : Decode α} {spells : Bytes → α → Prop}
    (parses : Parses first found spells) (f : α → β) :
    Parses (do let value ← first; pure (f value)) found fun bytes result =>
      ∃ value, spells bytes value ∧ f value = result := by
  refine (parses.bind fun value => parses_pure (f value)).congr fun bytes result => ?_
  constructor
  · rintro ⟨left, right, value, rfl, spelled, rfl, rfl⟩
    rw [List.append_nil]
    exact ⟨value, spelled, rfl⟩
  · rintro ⟨value, spelled, rfl⟩
    exact ⟨bytes, [], value, (List.append_nil bytes).symm, spelled, rfl, rfl⟩

/-! ### Scalars -/

/-- A value that depends on the flag. -/
theorem parses_flag (f : Bool → α) :
    Parses (do let deserializer ← get; pure (f deserializer.isOpaque)) found fun bytes value =>
      bytes = [] ∧ f found = value := by
  intro deserializer sound flag value after
  subst flag
  exact parses_pure (f deserializer.isOpaque) deserializer sound rfl value after

/-- A word and its bytes, least significant first. -/
theorem ofNat_leNat_iff {kind : Integer} {bytes : Bytes} {value : BitVec (8 * kind.size)}
    (sized : bytes.length = kind.size) :
    BitVec.ofNat (8 * kind.size) (leNat bytes) = value ↔
      bytes = leBytes kind.size value.toNat := by
  constructor
  · rintro rfl
    have small := leNat_lt bytes
    rw [sized, ← Nat.pow_mul 2 8] at small
    rw [BitVec.toNat_ofNat, Nat.mod_eq_of_lt small, ← sized, leBytes_leNat]
  · rintro rfl
    rw [leNat_leBytes (integer_lt kind value), BitVec.ofNat_toNat, BitVec.setWidth_eq]

theorem ofNat_beNat_iff {kind : Integer} {bytes : Bytes} {value : BitVec (8 * kind.size)}
    (sized : bytes.length = kind.size) :
    BitVec.ofNat (8 * kind.size) (beNat bytes) = value ↔
      bytes = beBytes kind.size value.toNat := by
  have mirrored : BitVec.ofNat (8 * kind.size) (leNat bytes.reverse) = value ↔
      bytes.reverse = leBytes kind.size value.toNat :=
    ofNat_leNat_iff (List.length_reverse.trans sized)
  unfold beNat beBytes
  rw [mirrored, List.reverse_eq_iff]

/-- Under one flag a word has one spelling. -/
theorem parses_deserializeInteger (kind : Integer) :
    Parses (deserializeInteger kind) found fun bytes value =>
      bytes = if found then leBytes kind.size value.toNat else beBytes kind.size value.toNat := by
  refine ((parses_read kind.size).bind fun bytes => parses_flag fun flag =>
    BitVec.ofNat (8 * kind.size) (if flag then leNat bytes else beNat bytes)).congr ?_
  intro bytes value
  constructor
  · rintro ⟨left, right, word, rfl, ⟨rfl, sized⟩, rfl, number⟩
    rw [List.append_nil]
    cases found with
    | true => exact (ofNat_leNat_iff sized).mp number
    | false => exact (ofNat_beNat_iff sized).mp number
  · intro spelled
    have sized : bytes.length = kind.size := by
      subst spelled
      cases found <;> simp
    refine ⟨bytes, [], bytes, (List.append_nil bytes).symm, ⟨rfl, sized⟩, rfl, ?_⟩
    cases found with
    | true => exact (ofNat_leNat_iff sized).mpr spelled
    | false => exact (ofNat_beNat_iff sized).mpr spelled

theorem parses_deserializeBool :
    Parses deserializeBool found fun bytes value =>
      ∃ byte, bytes = [byte] ∧ value = decide (byte ≠ 0) := by
  refine ((parses_read 1).map fun bytes => decide (bytes ≠ [0])).congr fun bytes value => ?_
  constructor
  · rintro ⟨text, ⟨rfl, sized⟩, rfl⟩
    obtain ⟨byte, rfl⟩ := List.length_eq_one_iff.mp sized
    refine ⟨byte, rfl, ?_⟩
    simp
  · rintro ⟨byte, rfl, rfl⟩
    refine ⟨[byte], ⟨rfl, rfl⟩, ?_⟩
    simp

theorem parses_deserializeByteBuf :
    Parses deserializeByteBuf found fun bytes value =>
      value.length < 2 ^ 32 ∧ bytes = encodeBytes value := by
  refine ((parses_read 4).bind fun length => parses_read (beNat length)).congr
    fun bytes value => ?_
  constructor
  · rintro ⟨left, right, length, rfl, ⟨rfl, sized⟩, rfl, counted⟩
    have small := leNat_lt left.reverse
    have back := leBytes_leNat left.reverse
    rw [List.length_reverse, sized] at small back
    rw [counted]
    refine ⟨small, ?_⟩
    unfold encodeBytes beBytes
    rw [counted, beNat, back, List.reverse_reverse]
  · rintro ⟨short, rfl⟩
    refine ⟨_, _, _, rfl, ⟨rfl, length_beBytes 4 value.length⟩, rfl, ?_⟩
    rw [beNat_beBytes short]

theorem parses_deserializeString :
    Parses deserializeString found fun bytes value =>
      (toUtf8 value).length < 2 ^ 32 ∧ bytes = encodeBytes (toUtf8 value) := by
  have checked : Parses deserializeString found fun bytes value => ∃ left right middle,
      bytes = left ++ right ∧ (middle.length < 2 ^ 32 ∧ left = encodeBytes middle) ∧
        right = [] ∧ fromUtf8 middle = some value := by
    unfold deserializeString
    refine parses_deserializeByteBuf.bind fun bytes => ?_
    rcases fromUtf8 bytes with _ | text
    · exact (parses_throw .utf8).congr fun rest value => by simp
    · exact (parses_pure text).congr fun rest value => by rw [Option.some.injEq]
  refine checked.congr fun bytes value => ?_
  constructor
  · rintro ⟨left, right, text, rfl, ⟨short, rfl⟩, rfl, valid⟩
    rw [fromUtf8_eq_some_iff] at valid
    subst valid
    exact ⟨short, List.append_nil _⟩
  · rintro ⟨short, rfl⟩
    exact ⟨_, [], toUtf8 value, (List.append_nil _).symm, ⟨short, rfl⟩, rfl,
      fromUtf8_toUtf8 value⟩

/-! ### Brackets -/

/-- A visitor inside a bracket with `count` elements to come, all of which it meets. -/
def ParsesRest (text : Decode α) (fields : List String) (count : Nat)
    (spells : Bytes → α → Prop) : Prop :=
  ∀ deserializer : Deserializer, deserializer.Sound → deserializer.fields = fields →
    deserializer.remaining = count →
    ∀ value after, text deserializer = .ok value after ↔
      ∃ bytes, spells bytes value ∧ Ahead deserializer bytes ∧
        after = { deserializer.advance bytes.length with remaining := 0 }

theorem ParsesRest.sequence {visitor : Decode α} {fields : List String} {count : Nat}
    {spells : Bytes → α → Prop} (rest : ParsesRest visitor fields count spells)
    (enough : fields = [] → ∀ bytes value, spells bytes value → count ≤ bytes.length) :
    Parses (Api.sequence count fields visitor) found spells := by
  intro deserializer sound flag value after
  have step := rest { deserializer with remaining := count, fields := fields }
    ⟨sound.inside, sound.usize⟩ rfl rfl
  unfold Api.sequence
  by_cases short : fields = [] ∧ deserializer.remainingBytes < count
  · simp only [if_pos short]
    constructor
    · intro accepted
      cases accepted
    · rintro ⟨bytes, spelled, ahead, -⟩
      have counted := enough short.1 bytes value spelled
      have inside := ahead.inside sound
      have missing := short.2
      unfold Deserializer.remainingBytes at missing
      omega
  · simp only [if_neg short]
    constructor
    · intro accepted
      rcases visited : visitor { deserializer with remaining := count, fields := fields } with
        ⟨result, middle⟩ | ⟨reason, middle⟩
      · obtain ⟨bytes, spelled, ahead, rfl⟩ := (step result middle).mp visited
        simp only [visited, ne_eq, not_true, if_false] at accepted
        cases accepted
        exact ⟨bytes, spelled, ⟨ahead.isFront, ahead.usize⟩, rfl⟩
      · simp only [visited] at accepted
        cases accepted
    · rintro ⟨bytes, spelled, ahead, rfl⟩
      have visited := (step value _).mpr ⟨bytes, spelled, ⟨ahead.isFront, ahead.usize⟩, rfl⟩
      simp only [visited, ne_eq, not_true, if_false]
      rfl

/-- One element under the flag of its label. An element without a label takes room. -/
theorem element_iff {seed : Decode α} {spells : Bytes → α → Prop}
    (parses : Parses seed found spells)
    {deserializer : Deserializer} (sound : deserializer.Sound) {count : Nat} (index : Nat)
    (label : decide (deserializer.fields[deserializer.fields.length - deserializer.remaining]? =
      some "client_index") = found)
    (remaining : deserializer.remaining = count + 1)
    (consumes : deserializer.fields = [] → ∀ bytes value, spells bytes value → 0 < bytes.length)
    (value : α) (after : Deserializer) :
    element index seed deserializer = .ok value after ↔
      ∃ bytes, spells bytes value ∧ Ahead deserializer bytes ∧
        after = { deserializer.advance bytes.length with remaining := count } := by
  have step := parses { deserializer with isOpaque := found, remaining := count }
    ⟨sound.inside, sound.usize⟩ rfl
  have some_ : ¬deserializer.remaining = 0 := by omega
  have less : deserializer.remaining - 1 = count := by omega
  have moves : ∀ bytes value, spells bytes value →
      ¬(deserializer.fields = [] ∧ deserializer.offset + bytes.length = deserializer.offset) := by
    rintro bytes value spelled ⟨unlabelled, still⟩
    have positive := consumes unlabelled bytes value spelled
    omega
  unfold element nextElement
  simp only [Bind.bind, EStateM.bind, if_neg some_, label, less]
  constructor
  · intro accepted
    rcases taken : seed { deserializer with isOpaque := found, remaining := count } with
      ⟨result, middle⟩ | ⟨reason, middle⟩
    · obtain ⟨bytes, spelled, ahead, rfl⟩ := (step result middle).mp taken
      simp only [taken, Deserializer.advance, if_neg (moves bytes result spelled)] at accepted
      cases accepted
      exact ⟨bytes, spelled, ⟨ahead.isFront, ahead.usize⟩, rfl⟩
    · simp only [taken] at accepted
      cases accepted
  · rintro ⟨bytes, spelled, ahead, rfl⟩
    have taken := (step value _).mpr ⟨bytes, spelled, ⟨ahead.isFront, ahead.usize⟩, rfl⟩
    simp only [taken, Deserializer.advance, if_neg (moves bytes value spelled)]
    rfl

/-- A first element and the visit of the others. -/
theorem ParsesRest.cons {seed : Decode α} (others : Nat → Decode β) {fields : List String}
    {count index : Nat} {front : Bytes → α → Prop} {back : Bytes → β → Prop}
    (parses : Parses seed found front)
    (label : decide (fields[fields.length - (count + 1)]? = some "client_index") = found)
    (consumes : fields = [] → ∀ bytes value, front bytes value → 0 < bytes.length)
    (rest : ParsesRest (others (index + 1)) fields count back) :
    ParsesRest (do
      let first ← element index seed
      let rest ← others (index + 1)
      pure (first, rest)) fields (count + 1) fun bytes value =>
        ∃ left right, bytes = left ++ right ∧ front left value.1 ∧ back right value.2 := by
  intro deserializer sound labels remaining value after
  subst labels
  have first := element_iff parses sound index (by rw [remaining]; exact label) remaining consumes
  constructor
  · intro accepted
    simp only [Bind.bind, EStateM.bind] at accepted
    rcases taken : element index seed deserializer with ⟨head, middle⟩ | ⟨reason, middle⟩
    · obtain ⟨left, spelled, ahead, rfl⟩ := (first head middle).mp taken
      rw [taken] at accepted
      have second := rest { deserializer.advance left.length with remaining := count }
        ⟨ahead.inside sound, ahead.usize⟩ rfl rfl
      rcases visited : others (index + 1) { deserializer.advance left.length with
          remaining := count } with ⟨tail, last⟩ | ⟨reason, last⟩
      · obtain ⟨right, spelled', ahead', rfl⟩ := (second tail last).mp visited
        simp only [visited] at accepted
        cases accepted
        refine ⟨left ++ right, ⟨left, right, rfl, spelled, spelled'⟩,
          ahead_append.mpr ⟨ahead, ⟨ahead'.isFront, ahead'.usize⟩⟩, ?_⟩
        simp only [Deserializer.advance, List.length_append, Nat.add_assoc]
      · simp only [visited] at accepted
        cases accepted
    · rw [taken] at accepted
      cases accepted
  · rintro ⟨bytes, ⟨left, right, rfl, spelled, spelled'⟩, ahead, rfl⟩
    obtain ⟨ahead, ahead'⟩ := ahead_append.mp ahead
    have taken := (first value.1 _).mpr ⟨left, spelled, ahead, rfl⟩
    have visited := (rest { deserializer.advance left.length with remaining := count }
      ⟨ahead.inside sound, ahead.usize⟩ rfl rfl value.2 _).mpr
      ⟨right, spelled', ⟨ahead'.isFront, ahead'.usize⟩, rfl⟩
    simp only [Bind.bind, EStateM.bind, taken, visited, List.length_append]
    simp only [Deserializer.advance, Nat.add_assoc]
    rfl

theorem parsesRest_nil {fields : List String} :
    ParsesRest (pure () : Decode Unit) fields 0 fun bytes _ => bytes = [] := by
  intro deserializer sound labels remaining value after
  rcases deserializer with ⟨input, offset, count, labels', flag⟩
  subst remaining
  constructor
  · intro accepted
    cases accepted
    exact ⟨[], rfl, ⟨List.nil_prefix, sound.usize⟩, rfl⟩
  · rintro ⟨bytes, rfl, -, rfl⟩
    rfl

/-- Induction on the elements of an array. -/
theorem parsesRest_deserializeArray {seed : Decode α} {spells : Bytes → α → Prop}
    (parses : Parses seed false spells)
    (positive : ∀ bytes value, spells bytes value → 0 < bytes.length) :
    ∀ (count index : Nat),
      ParsesRest (deserializeArray seed index count) [] count (SpellsArray spells count)
  | 0, _ => parsesRest_nil
  | count + 1, _ =>
      ParsesRest.cons (fun index => deserializeArray seed index count) parses rfl
        (fun _ => positive) (parsesRest_deserializeArray parses positive count _)

/-! ### Shapes -/

theorem spellsArray_length {spells : Bytes → α → Prop}
    (positive : ∀ bytes value, spells bytes value → 0 < bytes.length) :
    ∀ (count : Nat) (bytes : Bytes) (value : Repeated α count),
      SpellsArray spells count bytes value → count ≤ bytes.length
  | 0, _, _, _ => Nat.zero_le _
  | count + 1, _, value, spelled => by
      obtain ⟨left, right, rfl, first, others⟩ := spelled
      have head := positive left value.1 first
      have tail := spellsArray_length positive count right value.2 others
      rw [List.length_append]
      omega

mutual

/-- A value that takes room has no empty spelling. -/
theorem Shape.spells_pos : ∀ (shape : Shape) (flag : Bool) (bytes : Bytes) (value : shape.Val),
    shape.empty = false → shape.Spells flag bytes value → 0 < bytes.length
  | .int kind, flag, _, _, _, spelled => by
      rw [Shape.Spells] at spelled
      subst spelled
      cases flag <;> cases kind <;> simp [Integer.size]
  | .bool, _, _, _, _, spelled => by
      obtain ⟨byte, rfl, -⟩ := spelled
      exact Nat.one_pos
  | .str, _, _, value, _, spelled => by
      obtain ⟨-, rfl⟩ := spelled
      exact encodeBytes_pos (toUtf8 value)
  | .string, _, _, value, _, spelled => by
      obtain ⟨-, rfl⟩ := spelled
      exact encodeBytes_pos value
  | .newtype inner, flag, bytes, value, some_, spelled =>
      inner.spells_pos flag bytes value some_ spelled
  | .tuple elements, _, bytes, value, some_, spelled =>
      elements.spellsElements_pos bytes value some_ spelled
  | .tupleStruct elements, _, bytes, value, some_, spelled =>
      elements.spellsElements_pos bytes value some_ spelled
  | .array count element, _, bytes, value, some_, spelled => by
      rw [Shape.empty, Bool.or_eq_false_iff] at some_
      have counted : count ≠ 0 := by simpa using some_.1
      have long := spellsArray_length
        (fun bytes value => element.spells_pos false bytes value some_.2) count bytes
          value spelled
      omega
  | .struct fields, _, bytes, value, some_, spelled =>
      fields.spellsFields_pos bytes value some_ spelled

theorem Fields.spellsElements_pos : ∀ (elements : Fields) (bytes : Bytes) (value : elements.Val),
    elements.empty = false → elements.SpellsElements bytes value → 0 < bytes.length
  | .nil, _, _, some_, _ => by cases some_
  | .cons _ shape rest, _, value, some_, spelled => by
      obtain ⟨left, right, rfl, first, others⟩ := spelled
      rw [Fields.empty, Bool.and_eq_false_iff] at some_
      rw [List.length_append]
      rcases some_ with head | tail
      · have positive := shape.spells_pos false left value.1 head first
        omega
      · have positive := rest.spellsElements_pos right value.2 tail others
        omega

theorem Fields.spellsFields_pos : ∀ (fields : Fields) (bytes : Bytes) (value : fields.Val),
    fields.empty = false → fields.SpellsFields bytes value → 0 < bytes.length
  | .nil, _, _, some_, _ => by cases some_
  | .cons _ shape rest, _, value, some_, spelled => by
      obtain ⟨left, right, rfl, first, others⟩ := spelled
      rw [Fields.empty, Bool.and_eq_false_iff] at some_
      rw [List.length_append]
      rcases some_ with head | tail
      · have positive := shape.spells_pos _ left value.1 head first
        omega
      · have positive := rest.spellsFields_pos right value.2 tail others
        omega

end

/-- A tuple whose elements all take room is at least as long as their number. -/
theorem Fields.spellsElements_length : ∀ (elements : Fields) (bytes : Bytes)
    (value : elements.Val),
    elements.SolidElements → elements.SpellsElements bytes value →
    elements.names.length ≤ bytes.length
  | .nil, _, _, _, _ => Nat.zero_le _
  | .cons _ shape rest, _, value, solid, spelled => by
      obtain ⟨left, right, rfl, first, others⟩ := spelled
      have head := shape.spells_pos false left value.1 solid.1 first
      have tail := rest.spellsElements_length right value.2 solid.2.2 others
      rw [Fields.names, List.length_append, List.length_cons]
      omega

mutual

/-- The decoder accepts the language of the shape. -/
theorem Shape.parses : ∀ (shape : Shape) (found : Bool), shape.Solid →
    Parses shape.deserialize found (shape.Spells found)
  | .int kind, _, _ => parses_deserializeInteger kind
  | .bool, _, _ => parses_deserializeBool
  | .str, _, _ => parses_deserializeString
  | .string, _, _ => parses_deserializeByteBuf
  | .newtype inner, found, solid => inner.parses found solid
  | .tuple elements, _, solid =>
      (elements.parsesRest_elements 0 solid).sequence
        fun _ bytes value => elements.spellsElements_length bytes value solid
  | .tupleStruct elements, _, solid =>
      (elements.parsesRest_elements 0 solid).sequence
        fun _ bytes value => elements.spellsElements_length bytes value solid
  | .array 0 element, _, _ => ParsesRest.sequence parsesRest_nil fun _ _ _ _ => Nat.zero_le _
  | .array (count + 1) element, _, solid => by
      rcases solid with none_ | ⟨some_, solid⟩
      · cases none_
      have positive := fun bytes value => element.spells_pos false bytes value some_
      exact (parsesRest_deserializeArray (element.parses false solid) positive (count + 1)
        0).sequence fun _ => spellsArray_length positive (count + 1)
  | .struct fields, _, solid =>
      (fields.parsesRest_fields 0 [] solid).sequence fun none_ _ _ _ =>
        (congrArg List.length (show fields.names = [] from none_)).trans_le (Nat.zero_le _)

theorem Fields.parsesRest_elements : ∀ (elements : Fields) (index : Nat), elements.SolidElements →
    ParsesRest (elements.visitSeq index) [] elements.names.length elements.SpellsElements
  | .nil, _, _ => parsesRest_nil
  | .cons _ shape rest, index, solid =>
      ParsesRest.cons rest.visitSeq (shape.parses false solid.2.1) rfl
        (fun _ bytes value => shape.spells_pos false bytes value solid.1)
        (rest.parsesRest_elements (index + 1) solid.2.2)

/-- The fields behind those already `seen`. -/
theorem Fields.parsesRest_fields : ∀ (fields : Fields) (index : Nat) (seen : List String),
    fields.SolidFields →
    ParsesRest (fields.visitSeq index) (seen ++ fields.names) fields.names.length
      fields.SpellsFields
  | .nil, _, _, _ => parsesRest_nil
  | .cons name shape rest, index, seen, solid => by
      have later := rest.parsesRest_fields (index + 1) (seen ++ [name]) solid.2
      rw [List.append_assoc] at later
      exact ParsesRest.cons rest.visitSeq (shape.parses _ solid.1)
        (label_eq seen rest.names name)
        (fun none_ => absurd (List.append_eq_nil_iff.mp none_).2 (List.cons_ne_nil _ _)) later

end

end Parsing

end Netsystem.Api
