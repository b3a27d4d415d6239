import Netsystem.Api.Visitor

/-!
# Legacy tail arrays

`Deserializer::deserialize_legacy` of `hammer-binary-api-protocol/src/codec.rs`: the elements that
fill the rest of a message, whose number is the number of the remaining bytes over the wire size
of one element.

The number passes through the guard of the array level, the check that every element consumes a
byte and the check that none is left over. What an impl decodes from bytes of its own it decodes
from the same bytes inside a larger input (`Impl.carries`), so each element is decoded as it is
alone.
-/

namespace Netsystem.Api

/-! ## The call -/

/-- `codec::deserialize`, with the number of bytes consumed. -/
def Impl.decode {α : Type} (impl : Impl α) (input : Bytes) : Except Error (α × Nat) :=
  match impl.run (.new input) with
  | .ok value d => .ok (value, d.offset)
  | .error reason _ => .error reason

/-- `visit_seq` of `Array<Vec<T>>`, which has `values` so far. -/
def vecVisitor {α : Type} (element : Impl α) :
    (index count : Nat) → (values : List α) → Visitor (List α)
  | _, 0, values => .done (.ok values)
  | index, count + 1, values =>
      .element index element fun value => vecVisitor element (index + 1) count (values ++ [value])

/-- `Array::<Vec<T>>::new(length)`. -/
def Impl.vec {α : Type} (element : Impl α) (length : Nat) : Impl (List α) :=
  .tuple length (vecVisitor element 0 length [])

/-- `Deserializer::deserialize_legacy`. -/
def deserializeLegacy {α : Type} (element : Impl α) (elementSize : Nat) : Decode (List α) :=
  fun d =>
    if elementSize = 0 ∨ d.remainingBytes % elementSize ≠ 0 then
      .error (.custom "legacy API array length mismatch") d
    else (element.vec (d.remainingBytes / elementSize)).run d

/-! ## Decoding inside a larger input -/

/-- `big` is at the place of `small` in an input that has more before it and behind it. -/
structure Embedded (front back : Bytes) (small big : Deserializer) : Prop where
  input : big.input = front ++ (small.input ++ back)
  offset : big.offset = front.length + small.offset
  isOpaque : big.isOpaque = small.isOpaque
  inside : small.offset ≤ small.input.length
  fits : big.input.length < 2 ^ 64

/-- A value decoded from some bytes is decoded from them inside a larger input. -/
def Carries {α : Type} (p : Decode α) : Prop :=
  ∀ ⦃front back : Bytes⦄ ⦃small big after : Deserializer⦄ ⦃value : α⦄,
    Embedded front back small big → p small = .ok value after →
      p big = .ok value { big with offset := front.length + after.offset }

/-- The same for the visitor of a level, whose count and labels both inputs share. -/
def CarriesLevel {α : Type} (p : Decode α) : Prop :=
  ∀ ⦃front back : Bytes⦄ ⦃small big after : Deserializer⦄ ⦃value : α⦄,
    Embedded front back small big → big.remaining = small.remaining → big.fields = small.fields →
      p small = .ok value after →
        p big = .ok value
          { big with offset := front.length + after.offset, remaining := after.remaining }

variable {α β : Type} {front back : Bytes} {small big after : Deserializer}

theorem Embedded.moved (embedded : Embedded front back small big) (moved : Moved small after) :
    Embedded front back after { big with offset := front.length + after.offset } := by
  obtain ⟨offset, rfl, _, inside⟩ := moved
  exact ⟨embedded.input, rfl, embedded.isOpaque, inside, embedded.fits⟩

theorem Embedded.stepped (embedded : Embedded front back small big)
    (stepped : Stepped small after) :
    Embedded front back after
      { big with offset := front.length + after.offset, remaining := after.remaining } := by
  obtain ⟨offset, remaining, rfl, _, inside, _⟩ := stepped
  exact ⟨embedded.input, rfl, embedded.isOpaque, inside, embedded.fits⟩

theorem Embedded.remainingBytes_le (embedded : Embedded front back small big) :
    small.remainingBytes ≤ big.remainingBytes := by
  have inside := embedded.inside
  simp only [Deserializer.remainingBytes, embedded.input, embedded.offset, List.length_append]
  omega

theorem carries_pure (value : α) : Carries (pure value) := by
  intro front back small big after value embedded ended
  cases ended
  rw [← embedded.offset]
  rfl

theorem carries_throw (reason : Error) : Carries (throw reason : Decode α) := by
  intro front back small big after value _ ended
  cases ended

theorem carries_ofExcept (result : Except Error α) : Carries (ofExcept result) := by
  cases result with
  | ok value => exact carries_pure value
  | error reason => exact carries_throw reason

theorem Carries.bind {p : Decode α} {f : α → Decode β} (first : Carries p) (brackets : Brackets p)
    (rest : ∀ value, Carries (f value)) : Carries (p >>= f) := by
  intro front back small big after value embedded ended
  obtain ⟨answer, middle, asked, answered⟩ := run_bind_ok ended
  have moved := brackets small embedded.inside
  rw [asked, left] at moved
  have next := rest answer (embedded.moved moved) answered
  rw [show (p >>= f) big = EStateM.bind p f big from rfl, EStateM.bind, first embedded asked]
  exact next

theorem CarriesLevel.bind {p : Decode α} {f : α → Decode β} (first : CarriesLevel p)
    (steps : Steps p) (rest : ∀ value, CarriesLevel (f value)) : CarriesLevel (p >>= f) := by
  intro front back small big after value embedded counts labels ended
  obtain ⟨answer, middle, asked, answered⟩ := run_bind_ok ended
  have stepped := steps small embedded.inside
  rw [asked, left] at stepped
  have kept : middle.fields = small.fields := by
    obtain ⟨_, _, rfl, _⟩ := stepped
    rfl
  have next := rest answer (embedded.stepped stepped) rfl (labels.trans kept.symm) answered
  rw [show (p >>= f) big = EStateM.bind p f big from rfl, EStateM.bind,
    first embedded counts labels asked]
  exact next

theorem carries_read (length : Nat) : Carries (read length) := by
  intro front back small big after value embedded ended
  simp only [read] at ended ⊢
  split at ended
  · next within =>
    cases ended
    have reach : big.offset + length ≤ big.input.length := by
      rw [embedded.input, embedded.offset, List.length_append, List.length_append]
      omega
    have same : window big.input big.offset length = window small.input small.offset length := by
      rw [embedded.input, embedded.offset, window_append_right, window_append_left within.2]
    rw [if_pos ⟨reach.trans_lt embedded.fits, reach⟩, same, embedded.offset, Nat.add_assoc]
  · cases ended

theorem carries_deserializeInteger (kind : Integer) : Carries (deserializeInteger kind) := by
  refine (carries_read _).bind (brackets_read _) fun bytes => ?_
  intro front back small big after value embedded ended
  simp only [bind, EStateM.bind, get_run] at ended ⊢
  cases ended
  rw [← embedded.isOpaque, ← embedded.offset]
  rfl

theorem carries_deserializeBool : Carries deserializeBool :=
  (carries_read 1).bind (brackets_read 1) fun _ => carries_pure _

theorem carries_deserializeF64 : Carries deserializeF64 :=
  (carries_read 8).bind (brackets_read 8) fun _ => carries_pure _

theorem carries_deserializeByteBuf : Carries deserializeByteBuf :=
  (carries_read 4).bind (brackets_read 4) fun _ => carries_read _

theorem carries_deserializeString : Carries deserializeString := by
  refine carries_deserializeByteBuf.bind brackets_deserializeByteBuf fun bytes => ?_
  cases fromUtf8 bytes with
  | some text => exact carries_pure text
  | none => exact carries_throw _

/-- The guard of a level counts the bytes that are left, and a larger input has no fewer. -/
theorem CarriesLevel.sequence {visitor : Decode α} (carries : CarriesLevel visitor)
    (length : Nat) (fields : List String) : Carries (sequence length fields visitor) := by
  intro front back small big after value embedded ended
  simp only [Api.sequence] at ended ⊢
  split at ended
  · cases ended
  · next passed =>
    have more := embedded.remainingBytes_le
    have passes : ¬ (fields = [] ∧ big.remainingBytes < length) :=
      fun refused => passed ⟨refused.1, more.trans_lt refused.2⟩
    rw [if_neg passes]
    split at ended
    · cases ended
    · next decoded final ran =>
      have started : Embedded front back { small with remaining := length, fields := fields }
          { big with remaining := length, fields := fields } :=
        ⟨embedded.input, embedded.offset, embedded.isOpaque, embedded.inside, embedded.fits⟩
      rw [carries started rfl rfl ran]
      split at ended
      · cases ended
      · next none =>
        cases ended
        simp only [if_neg none]

theorem Carries.nextElement {seed : Decode α} (carries : Carries seed)
    (brackets : Brackets seed) : CarriesLevel (nextElement seed) := by
  intro front back small big after value embedded counts labels ended
  by_cases more : small.remaining = 0
  · simp only [Api.nextElement, if_pos more, if_pos (counts.trans more)] at ended ⊢
    cases ended
    rw [← embedded.offset, ← counts]
  · have rest : ¬ big.remaining = 0 := fun none => more (counts.symm.trans none)
    simp only [Api.nextElement, if_neg more, if_neg rest] at ended ⊢
    rw [counts, labels]
    generalize decide (small.fields[small.fields.length - small.remaining]? =
      some "client_index") = opaqueness at ended ⊢
    have started : Embedded front back
        { small with isOpaque := opaqueness, remaining := small.remaining - 1 }
        { big with
          isOpaque := opaqueness, remaining := small.remaining - 1, fields := small.fields } :=
      ⟨embedded.input, embedded.offset, rfl, embedded.inside, embedded.fits⟩
    split at ended
    · cases ended
    · next decoded final ran =>
      obtain ⟨offset, same, _⟩ := brackets _ started.inside
      rw [ran, left] at same
      subst same
      have moved : front.length + offset = big.offset ↔ offset = small.offset := by
        rw [embedded.offset, Nat.add_left_cancel_iff]
      simp only [carries started ran, moved]
      split at ended
      · cases ended
      · next apart =>
        cases ended
        rw [if_neg apart]

mutual

/-- An impl decodes the same value from the same bytes, wherever they lie. -/
theorem Impl.carries {α : Type} : (impl : Impl α) → Carries impl.run
  | .done result => carries_ofExcept result
  | .integer kind => carries_deserializeInteger kind
  | .bool => carries_deserializeBool
  | .f64 => carries_deserializeF64
  | .byteBuf => carries_deserializeByteBuf
  | .string => carries_deserializeString
  | .andThen inner visit =>
      inner.carries.bind inner.brackets fun value => carries_ofExcept (visit value)
  | .tuple length visitor => visitor.carries.sequence length []
  | .struct fields visitor => visitor.carries.sequence fields.length fields

theorem Visitor.carries {α : Type} : (visitor : Visitor α) → CarriesLevel visitor.run
  | .done result => by
      intro front back small big after value embedded counts labels ended
      cases result with
      | error reason => cases ended
      | ok content =>
          cases ended
          rw [← embedded.offset, ← counts]
          rfl
  | .next seed rest =>
      (seed.carries.nextElement seed.brackets).bind seed.brackets.steps_nextElement
        fun answer => (rest answer).carries

end

/-! ## Elements of one size -/

/-- Every value is written in `size` bytes, and decoded from them alone. -/
structure FixedSize (element : Impl α) (encoding : α → Bytes) (size : Nat) : Prop where
  pos : 0 < size
  length : ∀ value, (encoding value).length = size
  trips : ∀ value, element.decode (encoding value) = .ok (value, size)

variable {element : Impl α} {encoding : α → Bytes} {size : Nat}

theorem FixedSize.flatMap_length (fixed : FixedSize element encoding size) (values : List α) :
    (values.flatMap encoding).length = values.length * size := by
  rw [List.length_flatMap]
  simp only [fixed.length, List.map_const', List.sum_replicate_nat]

/-- One element of an array level whose next bytes are those of a value. -/
theorem FixedSize.run_element (fixed : FixedSize element encoding size) {d : Deserializer}
    {value : α} {front rest : Bytes} {others index : Nat}
    (input : d.input = front ++ (encoding value ++ rest)) (offset : d.offset = front.length)
    (fields : d.fields = []) (remaining : d.remaining = others + 1)
    (fits : d.input.length < 2 ^ 64) :
    Api.element index element.run d =
      .ok value { d with offset := front.length + size, remaining := others } := by
  obtain ⟨after, ran, reached⟩ : ∃ after, element.run (.new (encoding value)) = .ok value after ∧
      after.offset = size := by
    have trips := fixed.trips value
    unfold Impl.decode at trips
    split at trips
    · next decoded after ran =>
      cases trips
      exact ⟨after, ran, rfl⟩
    · cases trips
  have embedded : Embedded front rest (.new (encoding value))
      { d with isOpaque := false, remaining := others } :=
    ⟨input, offset, rfl, Nat.zero_le _, fits⟩
  have carried := element.carries embedded ran
  have further : front.length + size ≠ d.offset := by
    have pos := fixed.pos
    omega
  have asked : nextElement element.run d =
      .ok (some value) { d with offset := front.length + size, remaining := others } := by
    have more : d.remaining ≠ 0 := by omega
    have label : decide (d.fields[d.fields.length - d.remaining]? = some "client_index") =
        false := by
      rw [fields]
      rfl
    have fewer : d.remaining - 1 = others := by omega
    simp only [nextElement, if_neg more, label, fewer, carried, reached, further, and_false,
      if_false]
  rw [Api.element, show (nextElement element.run >>= _) d = EStateM.bind _ _ d from rfl,
    EStateM.bind, asked]
  rfl

/-- The visitor of the array takes one encoding after the other. -/
theorem FixedSize.run_vecVisitor (fixed : FixedSize element encoding size) {d : Deserializer}
    {front : Bytes} {values others : List α} {index : Nat}
    (input : d.input = front ++ others.flatMap encoding) (offset : d.offset = front.length)
    (fields : d.fields = []) (remaining : d.remaining = others.length)
    (fits : d.input.length < 2 ^ 64) :
    (vecVisitor element index others.length values).run d =
      .ok (values ++ others) { d with offset := d.input.length, remaining := 0 } := by
  induction others generalizing d front values index with
  | nil =>
      have reached : d.input.length = d.offset := by
        rw [input, offset, List.flatMap_nil, List.append_nil]
      rw [reached, List.append_nil, ← (show d.remaining = 0 from remaining)]
      rfl
  | cons value others ih =>
      rw [List.flatMap_cons] at input
      have first : Api.element index element.run d =
          .ok value { d with offset := front.length + size, remaining := others.length } :=
        fixed.run_element input offset fields remaining fits
      have behind : front.length + size = (front ++ encoding value).length := by
        rw [List.length_append, fixed.length]
      rw [← List.append_assoc] at input
      have next := @ih { d with offset := front.length + size, remaining := others.length }
        (front ++ encoding value) (values ++ [value]) (index + 1) input behind fields rfl fits
      rw [List.length_cons, vecVisitor, Api.run_element,
        show (Api.element index element.run >>= _) d = EStateM.bind _ _ d from rfl, EStateM.bind,
        first]
      simp only [next, List.append_assoc, List.singleton_append]

/-- The visitor of an array of `count` elements gives `count` values. -/
theorem length_of_vecVisitor {index count : Nat} {values all : List α} {d after : Deserializer}
    (ended : (vecVisitor element index count values).run d = .ok all after) :
    all.length = values.length + count := by
  induction count generalizing index values d with
  | zero =>
      cases ended
      rfl
  | succ count ih =>
      rw [vecVisitor, run_element] at ended
      obtain ⟨value, middle, _, rest⟩ := run_bind_ok ended
      rw [ih rest, List.length_append, List.length_singleton]
      omega

/-- The encodings of any values behind any bytes are decoded as those values and to the end, a
tail of another length is refused where it stands, and no other number of elements comes of a
tail. -/
theorem legacy_round_trip (fixed : FixedSize element encoding size) :
    (∀ (front : Bytes) (values : List α) (remaining : Nat) (fields : List String)
      (isOpaque : Bool), (front ++ values.flatMap encoding).length < 2 ^ 64 →
        deserializeLegacy element size
            ⟨front ++ values.flatMap encoding, front.length, remaining, fields, isOpaque⟩ =
          .ok values ⟨front ++ values.flatMap encoding, (front ++ values.flatMap encoding).length,
            remaining, fields, isOpaque⟩) ∧
      (∀ (d : Deserializer) (elementSize : Nat),
        elementSize = 0 ∨ ¬ elementSize ∣ d.remainingBytes →
          ∃ reason, deserializeLegacy element elementSize d = .error reason d) ∧
      ∀ (d after : Deserializer) (elementSize : Nat) (values : List α),
        deserializeLegacy element elementSize d = .ok values after →
          values.length = d.remainingBytes / elementSize := by
  refine ⟨?_, ?_, ?_⟩
  · intro front values remaining fields isOpaque fits
    have counted := fixed.flatMap_length values
    have rest : (front ++ values.flatMap encoding).length - front.length =
        values.length * size := by
      rw [List.length_append, counted, Nat.add_sub_cancel_left]
    have enough : ¬ values.length * size < values.length :=
      Nat.not_lt_of_le (Nat.le_mul_of_pos_right _ fixed.pos)
    have visited : (vecVisitor element 0 values.length []).run
        ⟨front ++ values.flatMap encoding, front.length, values.length, [], isOpaque⟩ =
          .ok ([] ++ values) ⟨front ++ values.flatMap encoding,
            (front ++ values.flatMap encoding).length, 0, [], isOpaque⟩ :=
      fixed.run_vecVisitor rfl rfl rfl rfl fits
    simp only [deserializeLegacy, Deserializer.remainingBytes, rest, Nat.mul_mod_left,
      Nat.mul_div_cancel _ fixed.pos, Nat.ne_of_gt fixed.pos, ne_eq, not_true_eq_false, or_self,
      if_false, Impl.vec, Impl.run, sequence, enough, and_false, visited]
    rfl
  · intro d elementSize refused
    rw [Nat.dvd_iff_mod_eq_zero] at refused
    exact ⟨_, by rw [deserializeLegacy, if_pos refused]⟩
  · intro d after elementSize values ended
    rw [deserializeLegacy] at ended
    split at ended
    · cases ended
    · simp only [Impl.vec, Impl.run, sequence] at ended
      split at ended
      · cases ended
      · split at ended
        · cases ended
        · next decoded final ran =>
          split at ended
          · cases ended
          · cases ended
            have counted := length_of_vecVisitor ran
            rwa [List.length_nil, Nat.zero_add] at counted

/-- A pair of flags. -/
def flagPair : Shape := .struct (.cons "up" .bool (.cons "deleted" .bool .nil))

instance : DecidableEq flagPair.Val := inferInstanceAs (DecidableEq (Bool × Bool × Unit))

theorem fixedSize_flagPair :
    FixedSize flagPair.impl (fun value => [boolByte value.1, boolByte value.2.1]) 2 where
  pos := by decide
  length _ := rfl
  trips value := by
    obtain ⟨up, deleted, ⟨⟩⟩ := value
    cases up <;> cases deleted <;> decide +kernel

/-- Two pairs behind one byte that the decoder has consumed. -/
theorem legacy_round_trip_flagPair :
    deserializeLegacy flagPair.impl 2 ⟨[9, 1, 0, 0, 1], 1, 0, [], false⟩ =
      .ok [(true, false, ()), (false, true, ())] ⟨[9, 1, 0, 0, 1], 5, 0, [], false⟩ :=
  (legacy_round_trip fixedSize_flagPair).1 [9] [(true, false, ()), (false, true, ())] 0 [] false
    (by decide)

end Netsystem.Api
