import Netsystem.Api.Codec

/-!
# Decoding as the calls of any type

The decoder of `hammer-binary-api-protocol/src/codec.rs` is driven by the `Deserialize` impls of
the types it decodes: an impl makes one call on the decoder and a visitor of a sequence asks for
one element after another, each decoded by an impl of its own choice. `Impl` and `Visitor` are all
that an impl and a visitor can do, with errors passed on as `?` does; `Impl.run` answers their
calls with the decoder's own `read`, `sequence` and `nextElement`. The shapes of the protocol's
own types are some of these (`Shape.run_impl`).
-/

namespace Netsystem.Api

/-! ## Impls and visitors -/

mutual

/-- What the `Deserialize` impl of a type does with the decoder. -/
inductive Impl : Type → Type 1 where
  /-- `visit_unit`, a call that has no wire format, or no call at all. -/
  | done {α : Type} (result : Except Error α) : Impl α
  | integer (kind : Integer) : Impl (BitVec (8 * kind.size))
  | bool : Impl Bool
  /-- `deserialize_f64`: the bits, which are read as they lie. -/
  | f64 : Impl (BitVec 64)
  /-- `deserialize_bytes` and `deserialize_byte_buf`. -/
  | byteBuf : Impl Bytes
  /-- `deserialize_str` and `deserialize_string`. -/
  | string : Impl String
  /-- What an impl, or `visit_newtype_struct`, makes of the value of another impl. -/
  | andThen {α β : Type} (inner : Impl β) (visit : β → Except Error α) : Impl α
  /-- `deserialize_tuple` and `deserialize_tuple_struct`. -/
  | tuple {α : Type} (length : Nat) (visitor : Visitor α) : Impl α
  | struct {α : Type} (fields : List String) (visitor : Visitor α) : Impl α

/-- What a `visit_seq` does: ask for an element, if there is one left, and go on with the
answer. -/
inductive Visitor : Type → Type 1 where
  | done {α : Type} (result : Except Error α) : Visitor α
  | next {α β : Type} (seed : Impl β) (rest : Option β → Visitor α) : Visitor α

end

/-- A computed result on the decoder. -/
def ofExcept {α : Type} : Except Error α → Decode α
  | .ok value => pure value
  | .error reason => throw reason

/-- `deserialize_f64`. -/
def deserializeF64 : Decode (BitVec 64) := do
  let bytes ← read 8
  pure (BitVec.ofNat 64 (leNat bytes))

mutual

def Impl.run {α : Type} : Impl α → Decode α
  | .done result => ofExcept result
  | .integer kind => deserializeInteger kind
  | .bool => deserializeBool
  | .f64 => deserializeF64
  | .byteBuf => deserializeByteBuf
  | .string => deserializeString
  | .andThen inner visit => do ofExcept (visit (← inner.run))
  | .tuple length visitor => sequence length [] visitor.run
  | .struct fields visitor => sequence fields.length fields visitor.run

def Visitor.run {α : Type} : Visitor α → Decode α
  | .done result => ofExcept result
  | .next seed rest => do
      let element ← nextElement seed.run
      (rest element).run

end

/-- The decoder as a computation leaves it, failed or not. -/
def left {α : Type} : EStateM.Result Error Deserializer α → Deserializer
  | .ok _ after => after
  | .error _ after => after

/-! ## What a decoded value leaves behind -/

/-- `after` is `before` with some more bytes read: the count, the labels and the flag of the level
are those it had. -/
def Moved (before after : Deserializer) : Prop :=
  ∃ offset, after = { before with offset := offset } ∧ before.offset ≤ offset ∧
    offset ≤ before.input.length

/-- `after` is `before` with some more bytes read and some of the level's elements passed. -/
def Stepped (before after : Deserializer) : Prop :=
  ∃ offset remaining, after = { before with offset := offset, remaining := remaining } ∧
    before.offset ≤ offset ∧ offset ≤ before.input.length ∧ remaining ≤ before.remaining

/-- However the computation ends, it leaves the decoder as `relation` says. -/
def Leaves {α : Type} (relation : Deserializer → Deserializer → Prop) (p : Decode α) : Prop :=
  ∀ d : Deserializer, d.offset ≤ d.input.length → relation d (left (p d))

abbrev Brackets {α : Type} (p : Decode α) : Prop := Leaves Moved p

abbrev Steps {α : Type} (p : Decode α) : Prop := Leaves Stepped p

variable {α β : Type} {d before middle after : Deserializer}

theorem Moved.refl (inside : d.offset ≤ d.input.length) : Moved d d :=
  ⟨d.offset, rfl, le_rfl, inside⟩

theorem Moved.inside (moved : Moved before after) : after.offset ≤ after.input.length := by
  obtain ⟨offset, rfl, _, inside⟩ := moved
  exact inside

theorem Moved.trans (first : Moved before middle) (second : Moved middle after) :
    Moved before after := by
  obtain ⟨one, rfl, forward, _⟩ := first
  obtain ⟨two, rfl, onward, inside⟩ := second
  exact ⟨two, rfl, forward.trans onward, inside⟩

theorem Moved.stepped (moved : Moved before after) : Stepped before after := by
  obtain ⟨offset, rfl, forward, inside⟩ := moved
  exact ⟨offset, before.remaining, rfl, forward, inside, le_rfl⟩

theorem Stepped.inside (stepped : Stepped before after) : after.offset ≤ after.input.length := by
  obtain ⟨offset, remaining, rfl, _, inside, _⟩ := stepped
  exact inside

theorem Stepped.trans (first : Stepped before middle) (second : Stepped middle after) :
    Stepped before after := by
  obtain ⟨one, few, rfl, forward, _, fewer⟩ := first
  obtain ⟨two, less, rfl, onward, inside, lesser⟩ := second
  exact ⟨two, less, rfl, forward.trans onward, inside, lesser.trans fewer⟩

theorem brackets_pure (value : α) : Brackets (pure value) := fun _ inside => .refl inside

theorem brackets_throw (reason : Error) : Brackets (throw reason : Decode α) :=
  fun _ inside => .refl inside

theorem brackets_get : Brackets get := fun _ inside => .refl inside

theorem brackets_ofExcept (result : Except Error α) : Brackets (ofExcept result) := by
  cases result with
  | ok value => exact brackets_pure value
  | error reason => exact brackets_throw reason

theorem Leaves.bind {relation : Deserializer → Deserializer → Prop} {p : Decode α}
    {f : α → Decode β} (first : Leaves relation p) (rest : ∀ value, Leaves relation (f value))
    (inside : ∀ {before after}, relation before after → after.offset ≤ after.input.length)
    (trans : ∀ {before middle after}, relation before middle → relation middle after →
      relation before after) : Leaves relation (p >>= f) := by
  intro d within
  have moved := first d within
  rw [show (p >>= f) d = EStateM.bind p f d from rfl, EStateM.bind]
  cases ran : p d with
  | ok value middle =>
      rw [ran] at moved
      exact trans moved (rest value middle (inside moved))
  | error reason middle =>
      rw [ran] at moved
      exact moved

theorem Brackets.bind {p : Decode α} {f : α → Decode β} (first : Brackets p)
    (rest : ∀ value, Brackets (f value)) : Brackets (p >>= f) :=
  Leaves.bind first rest Moved.inside Moved.trans

theorem Steps.bind {p : Decode α} {f : α → Decode β} (first : Steps p)
    (rest : ∀ value, Steps (f value)) : Steps (p >>= f) :=
  Leaves.bind first rest Stepped.inside Stepped.trans

theorem brackets_read (length : Nat) : Brackets (read length) := by
  intro d inside
  simp only [read]
  split
  · next fits => exact ⟨d.offset + length, rfl, Nat.le_add_right _ _, fits.2⟩
  · exact .refl inside

theorem brackets_deserializeInteger (kind : Integer) : Brackets (deserializeInteger kind) :=
  (brackets_read _).bind fun _ => brackets_get.bind fun _ => brackets_pure _

theorem brackets_deserializeBool : Brackets deserializeBool :=
  (brackets_read 1).bind fun _ => brackets_pure _

theorem brackets_deserializeF64 : Brackets deserializeF64 :=
  (brackets_read 8).bind fun _ => brackets_pure _

theorem brackets_deserializeByteBuf : Brackets deserializeByteBuf :=
  (brackets_read 4).bind fun _ => brackets_read _

theorem brackets_deserializeString : Brackets deserializeString := by
  refine brackets_deserializeByteBuf.bind fun bytes => ?_
  cases fromUtf8 bytes with
  | some text => exact brackets_pure text
  | none => exact brackets_throw _

/-- The count, the labels and the flag are put back on every way out of a sequence. -/
theorem Steps.sequence {visitor : Decode α} (steps : Steps visitor) (length : Nat)
    (fields : List String) : Brackets (sequence length fields visitor) := by
  intro d inside
  unfold Api.sequence
  split
  · exact .refl inside
  · obtain ⟨offset, remaining, same, forward, within, _⟩ :=
      steps { d with remaining := length, fields := fields } inside
    cases ran : visitor { d with remaining := length, fields := fields } with
    | error reason after =>
        rw [ran, left] at same
        subst same
        exact ⟨offset, rfl, forward, within⟩
    | ok value after =>
        rw [ran, left] at same
        subst same
        simp only
        split <;> exact ⟨offset, rfl, forward, within⟩

/-- One element leaves one fewer, under the labels and the flag of its level. -/
theorem Brackets.nextElement {seed : Decode α} (brackets : Brackets seed)
    (inside : d.offset ≤ d.input.length) (more : d.remaining ≠ 0) :
    ∃ remaining, remaining + 1 = d.remaining ∧
      Moved { d with remaining := remaining } (left (nextElement seed d)) := by
  refine ⟨d.remaining - 1, Nat.succ_pred_eq_of_ne_zero more, ?_⟩
  simp only [Api.nextElement, if_neg more]
  generalize entered : { d with
    isOpaque := decide (d.fields[d.fields.length - d.remaining]? = some "client_index")
    remaining := d.remaining - 1 } = start
  have inside' : start.offset ≤ start.input.length := by
    rw [← entered]
    exact inside
  obtain ⟨offset, same, forward, within⟩ := brackets start inside'
  subst entered
  cases ran : seed _ with
  | error reason after =>
      rw [ran, left] at same
      subst same
      exact ⟨offset, rfl, forward, within⟩
  | ok value after =>
      rw [ran, left] at same
      subst same
      simp only
      split <;> exact ⟨offset, rfl, forward, within⟩

theorem Brackets.steps_nextElement {seed : Decode α} (brackets : Brackets seed) :
    Steps (Api.nextElement seed) := by
  intro d inside
  by_cases more : d.remaining = 0
  · simp only [Api.nextElement, if_pos more]
    exact (Moved.refl inside).stepped
  · obtain ⟨remaining, fewer, offset, same, forward, within⟩ := brackets.nextElement inside more
    refine ⟨offset, remaining, ?_, forward, within, Nat.le_of_lt (Nat.lt_of_succ_le fewer.le)⟩
    rw [same]

mutual

/-- An impl of any type leaves the level of its caller as it finds it. -/
theorem Impl.brackets {α : Type} : (impl : Impl α) → Brackets impl.run
  | .done result => brackets_ofExcept result
  | .integer kind => brackets_deserializeInteger kind
  | .bool => brackets_deserializeBool
  | .f64 => brackets_deserializeF64
  | .byteBuf => brackets_deserializeByteBuf
  | .string => brackets_deserializeString
  | .andThen inner visit => inner.brackets.bind fun value => brackets_ofExcept (visit value)
  | .tuple length visitor => visitor.steps.sequence length []
  | .struct fields visitor => visitor.steps.sequence fields.length fields

theorem Visitor.steps {α : Type} : (visitor : Visitor α) → Steps visitor.run
  | .done result => fun d inside => (brackets_ofExcept result d inside).stepped
  | .next seed rest => seed.brackets.steps_nextElement.bind fun answer => (rest answer).steps

end

/-! ## What the elements of an array consume -/

theorem run_bind_ok {p : Decode α} {f : α → Decode β} {value : β}
    (ended : (p >>= f) d = .ok value after) :
    ∃ first middle, p d = .ok first middle ∧ f first middle = .ok value after := by
  rw [show (p >>= f) d = EStateM.bind p f d from rfl, EStateM.bind] at ended
  cases ran : p d with
  | ok first middle =>
      rw [ran] at ended
      exact ⟨first, middle, rfl, ended⟩
  | error reason middle =>
      rw [ran] at ended
      cases ended

/-- Every element that an array level has passed has consumed a byte. -/
def Consumes {α : Type} (p : Decode α) : Prop :=
  ∀ d value after, d.offset ≤ d.input.length → d.fields = [] → p d = .ok value after →
    d.remaining + d.offset ≤ after.remaining + after.offset

theorem Brackets.consumes_nextElement {seed : Decode α} (brackets : Brackets seed) :
    Consumes (Api.nextElement seed) := by
  intro d value after inside array ended
  by_cases more : d.remaining = 0
  · simp only [Api.nextElement, if_pos more] at ended
    cases ended
    exact le_rfl
  · obtain ⟨remaining, fewer, offset, same, forward, _⟩ := brackets.nextElement inside more
    have moved : after.offset ≠ d.offset := by
      simp only [Api.nextElement, if_neg more, array, true_and] at ended
      split at ended
      · cases ended
      · split at ended
        · cases ended
        · next apart =>
          cases ended
          exact apart
    rw [ended, left] at same
    subst same
    simp only at moved forward ⊢
    omega

theorem Visitor.consumes {α : Type} : (visitor : Visitor α) → Consumes visitor.run
  | .done (.ok value) => by
      intro d value after _ _ ended
      cases ended
      exact le_rfl
  | .done (.error reason) => by
      intro d value after _ _ ended
      cases ended
  | .next seed rest => by
      intro d value after inside array ended
      obtain ⟨answer, middle, asked, answered⟩ := run_bind_ok ended
      have first := seed.brackets.consumes_nextElement d answer middle inside array asked
      obtain ⟨offset, remaining, same, _, within, _⟩ := seed.brackets.steps_nextElement d inside
      rw [asked, left] at same
      subst same
      exact first.trans ((rest answer).consumes _ value after within array answered)

/-- An array that is decoded has at least as many bytes as elements. -/
theorem Impl.consumed {α : Type} {length : Nat} {visitor : Visitor α} {value : α}
    (inside : d.offset ≤ d.input.length)
    (ended : (Impl.tuple length visitor).run d = .ok value after) :
    d.offset + length ≤ after.offset := by
  simp only [Impl.run, sequence] at ended
  split at ended
  · cases ended
  · split at ended
    · cases ended
    · next decoded final ran =>
      split at ended
      · cases ended
      · next none =>
        cases ended
        have counted := visitor.consumes
          { d with remaining := length, fields := [] } _ final inside rfl ran
        simp only [not_not.mp none] at counted ⊢
        omega

/-! ## How often an element is decoded -/

/-- The elements that the visitor has decoded at its own level, failed ones included. -/
def Visitor.elementSteps {α : Type} : Visitor α → Deserializer → Nat
  | .done _, _ => 0
  | .next seed rest, d =>
      if d.remaining = 0 then (rest none).elementSteps d
      else
        match nextElement seed.run d with
        | .ok answer after => (rest answer).elementSteps after + 1
        | .error _ _ => 1

/-- The elements that an array level decodes: none where its guard refuses the count. -/
def arraySteps {α : Type} (length : Nat) (visitor : Visitor α) (d : Deserializer) : Nat :=
  if d.remainingBytes < length then 0
  else visitor.elementSteps { d with remaining := length, fields := [] }

theorem Visitor.elementSteps_le {α : Type} : (visitor : Visitor α) → (d : Deserializer) →
    d.offset ≤ d.input.length → visitor.elementSteps d ≤ d.remaining
  | .done _, d, _ => Nat.zero_le _
  | .next seed rest, d, inside => by
      unfold Visitor.elementSteps
      split
      · exact (rest none).elementSteps_le d inside
      · next more =>
        obtain ⟨remaining, fewer, offset, same, _, within⟩ :=
          seed.brackets.nextElement inside more
        split
        · next answer after ran =>
          rw [ran, left] at same
          subst same
          have others := (rest answer).elementSteps_le
            { d with offset := offset, remaining := remaining } within
          simp only at others ⊢
          omega
        · omega

/-- No count makes an array decode more elements than there are bytes left. -/
theorem arraySteps_le {α : Type} {length : Nat} {visitor : Visitor α}
    (inside : d.offset ≤ d.input.length) : arraySteps length visitor d ≤ d.remainingBytes := by
  unfold arraySteps
  split
  · exact Nat.zero_le _
  · next fits =>
    have steps := visitor.elementSteps_le { d with remaining := length, fields := [] } inside
    exact steps.trans (Nat.le_of_not_lt fits)

/-! ## The states on the way -/

/-- The decoder that `next_element_seed` hands to a seed. -/
def Deserializer.entered (d : Deserializer) : Deserializer :=
  { d with
    isOpaque := d.fields[d.fields.length - d.remaining]? = some "client_index"
    remaining := d.remaining - 1 }

mutual

/-- The states of the decoder before and after its reads and at both ends of every level. -/
def Impl.trace {α : Type} : Impl α → Deserializer → List Deserializer
  | .done _, d => [d]
  | .integer kind, d => [d, left (deserializeInteger kind d)]
  | .bool, d => [d, left (deserializeBool d)]
  | .f64, d => [d, left (deserializeF64 d)]
  | .byteBuf, d => [d, left (read 4 d), left (deserializeByteBuf d)]
  | .string, d => [d, left (read 4 d), left (deserializeString d)]
  | .andThen inner _, d => inner.trace d
  | .tuple length visitor, d =>
      if d.remainingBytes < length then [d]
      else d :: visitor.trace { d with remaining := length, fields := [] } ++
        [left (sequence length [] visitor.run d)]
  | .struct fields visitor, d =>
      d :: visitor.trace { d with remaining := fields.length, fields := fields } ++
        [left (sequence fields.length fields visitor.run d)]

def Visitor.trace {α : Type} : Visitor α → Deserializer → List Deserializer
  | .done _, d => [d]
  | .next seed rest, d =>
      if d.remaining = 0 then d :: (rest none).trace d
      else d :: seed.trace d.entered ++
        match nextElement seed.run d with
        | .ok answer after => (rest answer).trace after
        | .error _ after => [after]

end

/-- The decoder reads the same input, and no byte behind its end. -/
def Inside (input : Bytes) (d : Deserializer) : Prop :=
  d.input = input ∧ d.offset ≤ input.length

theorem Inside.of_moved (moved : Moved before after) : Inside before.input after := by
  obtain ⟨offset, rfl, _, inside⟩ := moved
  exact ⟨rfl, inside⟩

theorem Inside.of_stepped (stepped : Stepped before after) : Inside before.input after := by
  obtain ⟨offset, remaining, rfl, _, inside, _⟩ := stepped
  exact ⟨rfl, inside⟩

theorem Inside.pair (inside : d.offset ≤ d.input.length) (moved : Moved d after) :
    ∀ state ∈ [d, after], Inside d.input state :=
  List.forall_mem_cons.mpr ⟨⟨rfl, inside⟩, List.forall_mem_singleton.mpr (.of_moved moved)⟩

theorem Inside.triple (inside : d.offset ≤ d.input.length) (first : Moved d middle)
    (second : Moved d after) : ∀ state ∈ [d, middle, after], Inside d.input state :=
  List.forall_mem_cons.mpr ⟨⟨rfl, inside⟩, List.forall_mem_cons.mpr
    ⟨.of_moved first, List.forall_mem_singleton.mpr (.of_moved second)⟩⟩

mutual

theorem Impl.trace_inside {α : Type} : (impl : Impl α) → (d : Deserializer) →
    d.offset ≤ d.input.length → ∀ state ∈ impl.trace d, Inside d.input state
  | .done _, d, inside => List.forall_mem_singleton.mpr ⟨rfl, inside⟩
  | .integer kind, d, inside => .pair inside (brackets_deserializeInteger kind d inside)
  | .bool, d, inside => .pair inside (brackets_deserializeBool d inside)
  | .f64, d, inside => .pair inside (brackets_deserializeF64 d inside)
  | .byteBuf, d, inside =>
      .triple inside (brackets_read 4 d inside) (brackets_deserializeByteBuf d inside)
  | .string, d, inside =>
      .triple inside (brackets_read 4 d inside) (brackets_deserializeString d inside)
  | .andThen inner _, d, inside => inner.trace_inside d inside
  | .tuple length visitor, d, inside => by
      unfold Impl.trace
      split
      · exact List.forall_mem_singleton.mpr ⟨rfl, inside⟩
      · rw [List.forall_mem_append, List.forall_mem_cons, List.forall_mem_singleton]
        exact ⟨⟨⟨rfl, inside⟩, visitor.trace_inside _ inside⟩,
          .of_moved (visitor.steps.sequence length [] d inside)⟩
  | .struct fields visitor, d, inside => by
      unfold Impl.trace
      rw [List.forall_mem_append, List.forall_mem_cons, List.forall_mem_singleton]
      exact ⟨⟨⟨rfl, inside⟩, visitor.trace_inside _ inside⟩,
        .of_moved (visitor.steps.sequence fields.length fields d inside)⟩

theorem Visitor.trace_inside {α : Type} : (visitor : Visitor α) → (d : Deserializer) →
    d.offset ≤ d.input.length → ∀ state ∈ visitor.trace d, Inside d.input state
  | .done _, d, inside => List.forall_mem_singleton.mpr ⟨rfl, inside⟩
  | .next seed rest, d, inside => by
      unfold Visitor.trace
      split
      · exact List.forall_mem_cons.mpr ⟨⟨rfl, inside⟩, (rest none).trace_inside d inside⟩
      · rw [List.forall_mem_append, List.forall_mem_cons]
        refine ⟨⟨⟨rfl, inside⟩, seed.trace_inside d.entered inside⟩, ?_⟩
        have stepped := seed.brackets.steps_nextElement d inside
        split
        · next answer after ran =>
          rw [ran, left] at stepped
          have within := Inside.of_stepped stepped
          rw [← within.1]
          exact (rest answer).trace_inside after (stepped.inside)
        · next reason after ran =>
          rw [ran, left] at stepped
          exact List.forall_mem_singleton.mpr (.of_stepped stepped)

end

/-! ## The types of the protocol -/

/-- One element of a visitor that knows how many there are. -/
def Visitor.element {α β : Type} (index : Nat) (seed : Impl β) (rest : β → Visitor α) :
    Visitor α :=
  .next seed fun answer =>
    match answer with
    | none => .done (.error (.invalidLength index))
    | some value => rest value

/-- The visitor of an array of `count` elements. -/
def Visitor.elements {α β : Type} (seed : Impl α) : (index count : Nat) →
    (finish : Repeated α count → Visitor β) → Visitor β
  | _, 0, finish => finish ()
  | index, count + 1, finish =>
      .element index seed fun head =>
        Visitor.elements seed (index + 1) count fun rest => finish (head, rest)

mutual

/-- The impl of a shape. -/
def Shape.impl : (shape : Shape) → Impl shape.Val
  | .int kind => .integer kind
  | .bool => .bool
  | .str => .string
  | .string => .byteBuf
  | .newtype inner => .andThen inner.impl .ok
  | .tuple parts => .tuple parts.names.length (parts.visitor 0 fun value => .done (.ok value))
  | .tupleStruct parts =>
      .tuple parts.names.length (parts.visitor 0 fun value => .done (.ok value))
  | .array count element =>
      .tuple count (Visitor.elements element.impl 0 count fun value => .done (.ok value))
  | .struct fields => .struct fields.names (fields.visitor 0 fun value => .done (.ok value))

def Fields.visitor {β : Type} : (parts : Fields) → (index : Nat) →
    (finish : parts.Val → Visitor β) → Visitor β
  | .nil, _, finish => finish ()
  | .cons _ shape rest, index, finish =>
      .element index shape.impl fun head =>
        rest.visitor (index + 1) fun tail => finish (head, tail)

end

theorem run_element {index : Nat} {seed : Impl β} {rest : β → Visitor α} :
    (Visitor.element index seed rest).run =
      element index seed.run >>= fun value => (rest value).run := by
  rw [Visitor.element, Visitor.run, element, bind_assoc]
  refine bind_congr fun answer => ?_
  cases answer <;> rfl

theorem run_elements {seed : Impl β} {index count : Nat} {finish : Repeated β count → Visitor α} :
    (Visitor.elements seed index count finish).run =
      deserializeArray seed.run index count >>= fun value => (finish value).run := by
  induction count generalizing index with
  | zero => rfl
  | succ count ih =>
      rw [Visitor.elements, run_element, deserializeArray]
      simp only [ih, bind_assoc]
      rfl

mutual

/-- The impl of a shape makes the shape's calls. -/
theorem Shape.run_impl : (shape : Shape) → shape.impl.run = shape.deserialize
  | .int kind => rfl
  | .bool => rfl
  | .str => rfl
  | .string => rfl
  | .newtype inner => by
      change (inner.impl.run >>= pure) = inner.deserialize
      rw [inner.run_impl]
      exact bind_pure _
  | .tuple parts => by
      rw [Shape.impl, Impl.run, Shape.deserialize, parts.run_visitor]
      exact congrArg _ (bind_pure _)
  | .tupleStruct parts => by
      rw [Shape.impl, Impl.run, Shape.deserialize, parts.run_visitor]
      exact congrArg _ (bind_pure _)
  | .array count element => by
      rw [Shape.impl, Impl.run, Shape.deserialize, run_elements, element.run_impl]
      exact congrArg _ (bind_pure _)
  | .struct fields => by
      rw [Shape.impl, Impl.run, Shape.deserialize, fields.run_visitor]
      exact congrArg _ (bind_pure _)

theorem Fields.run_visitor {β : Type} : (parts : Fields) → {index : Nat} →
    {finish : parts.Val → Visitor β} →
      (parts.visitor index finish).run =
        parts.visitSeq index >>= fun value => (finish value).run
  | .nil, _, _ => rfl
  | .cons _ shape rest, index, finish => by
      refine run_element.trans ?_
      rw [Fields.visitSeq, shape.run_impl]
      simp only [rest.run_visitor, bind_assoc]
      rfl

end

/-- The decoder of a shape leaves the level of its caller as it finds it. -/
theorem Shape.brackets (shape : Shape) : Brackets shape.deserialize :=
  shape.run_impl ▸ shape.impl.brackets

/-! ## The discipline of the decoder -/

/-- Decoding any value at any place of any input: it puts the level back, it takes one element at
a time off its own level, it never leaves the input, and an array level of any count takes no more
elements than there are bytes and succeeds on no fewer bytes than elements. -/
theorem Impl.bracketed {α : Type} (impl : Impl α) (d : Deserializer)
    (inside : d.offset ≤ d.input.length) :
    Moved d (left (impl.run d)) ∧
      (d.remaining ≠ 0 → ∃ remaining, remaining + 1 = d.remaining ∧
        Moved { d with remaining := remaining } (left (nextElement impl.run d))) ∧
      (∀ state ∈ impl.trace d, Inside d.input state) ∧
      ∀ (length : Nat) (visitor : Visitor α),
        arraySteps length visitor d ≤ d.remainingBytes ∧
          ∀ value after, (Impl.tuple length visitor).run d = .ok value after →
            d.offset + length ≤ after.offset := by
  refine ⟨impl.brackets d inside, impl.brackets.nextElement inside,
    impl.trace_inside d inside, ?_⟩
  intro length visitor
  exact ⟨arraySteps_le inside, fun value after ended => Impl.consumed inside ended⟩

/-- An array of two empty structs inside a level that has one element left. -/
theorem Impl.bracketed_empty :
    let d : Deserializer := ⟨[1, 2, 3], 1, 1, ["client_index"], true⟩
    let impl := (Shape.array 2 (.struct .nil)).impl
    impl.run d =
      .error (.custom "API array elements must consume wire bytes") d ∧
      ∀ state ∈ impl.trace d, Inside [1, 2, 3] state := by
  refine ⟨by rfl, ?_⟩
  exact ((Shape.array 2 (.struct .nil)).impl.bracketed
    ⟨[1, 2, 3], 1, 1, ["client_index"], true⟩ (by decide)).2.2.1

end Netsystem.Api
