import Mathlib.Logic.Function.Iterate
import Mathlib.Tactic.IntervalCases
import Netsystem.Crc
import Netsystem.Api.Message

/-!
# The CRC of a declaration is the CRC of its text

`Block::crc` streams bytes; here the text that it stands for is built (`Block.render` for one
block, `Block.declaration` with the blocks that it refers to), and the CRC is that of the text.
-/

namespace Netsystem.Api

/-! ## The text of a declaration -/

def quoted (text : String) : String := "'" ++ text ++ "'"

def bracketed (parts : List String) : String := "[" ++ ", ".intercalate parts ++ "]"

/-- The name under which a field's type is declared. -/
def Field.typeName (field : Field) : String :=
  if field.block.isSome then "vl_api_" ++ field.fieldType ++ "_t" else field.fieldType

/-- `['type', 'name']`, with the length and the length field of an array. -/
def Field.render (field : Field) : String :=
  bracketed ([quoted field.typeName, quoted field.name] ++
    match field.length with
    | none => []
    | some length => [toString length, (field.lengthField.map quoted).getD "None"])

/-- `['name', value]`. -/
def renderValue (value : String × Int) : String := bracketed [quoted value.1, toString value.2]

/-- The text of one block, without the blocks that it refers to. -/
def Block.render : Block → String
  | .fields parts => bracketed (parts.map Field.render)
  | .enum parts => bracketed (parts.map renderValue)
  | .alias => bracketed []

mutual

/-- The texts of the blocks that a block refers to, each with those that it refers to itself. -/
def Block.dependencies : Block → String
  | .fields parts => dependenciesOf parts
  | .enum _ => ""
  | .alias => ""

def dependenciesOf : List Field → String
  | [] => ""
  | .mk _ _ none _ _ :: rest => dependenciesOf rest
  | .mk _ _ (some dependency) _ _ :: rest =>
      dependency.render ++ dependency.dependencies ++ dependenciesOf rest

end

/-- The byte string that the CRC of a block is about. -/
def Block.declaration (block : Block) : String := block.render ++ block.dependencies

/-! ## The register -/

/-- The low bit of the register decides what is added. -/
theorem shiftCrc_toBitVec (crc : UInt32) :
    (shiftCrc crc).toBitVec = Crc.shift 0xedb88320#32 crc.toBitVec := by
  have low : (crc &&& 1).toBitVec =
      BitVec.setWidth 32 (BitVec.ofBool (crc.toBitVec.getLsbD 0)) := by
    rw [UInt32.toBitVec_and]
    exact BitVec.and_one_eq_setWidth_ofBool_getLsbD
  unfold shiftCrc Crc.shift
  rw [UInt32.toBitVec_xor, UInt32.toBitVec_shiftRight, UInt32.toBitVec_and,
    UInt32.toBitVec_sub, low]
  cases crc.toBitVec.getLsbD 0 with
  | false => rfl
  | true => rfl

theorem byteCrc_toBitVec (crc : UInt32) (byte : UInt8) :
    (byteCrc crc byte).toBitVec =
      (Crc.bitsOf byte.toBitVec).foldl (Crc.feed 0xedb88320#32) crc.toBitVec := by
  have turns : ∀ (count : Nat) (start : UInt32),
      ((List.range count).foldl (fun crc _ => shiftCrc crc) start).toBitVec =
        (Crc.shift 0xedb88320#32)^[count] start.toBitVec := by
    intro count start
    induction count with
    | zero => rfl
    | succ count ih =>
        rw [List.range_succ, List.foldl_append, Function.iterate_succ_apply', ← ih]
        exact shiftCrc_toBitVec _
  have narrow : 8 ≤ 32 := by omega
  unfold byteCrc
  rw [turns, UInt32.toBitVec_xor, ← Crc.iterate_shift_setWidth _ _ _ narrow]
  rfl

/-- `text_crc` feeds the text's bytes into the register. -/
theorem textCrc_toBitVec (crc : UInt32) (text : String) :
    (textCrc crc text).toBitVec = Crc.update 0xedb88320#32 crc.toBitVec (toUtf8 text) := by
  unfold textCrc
  generalize toUtf8 text = bytes
  induction bytes generalizing crc with
  | nil => rfl
  | cons byte bytes ih => rw [List.foldl_cons, ih, byteCrc_toBitVec, Crc.update_cons]

/-! ## Texts one behind the other -/

@[simp] theorem textCrc_append (crc : UInt32) (front back : String) :
    textCrc crc (front ++ back) = textCrc (textCrc crc front) back := by
  unfold textCrc
  rw [toUtf8_append, List.foldl_append]

@[simp] theorem textCrc_empty (crc : UInt32) : textCrc crc "" = crc := rfl

/-- A text of one byte. -/
theorem textCrc_byte {text : String} {byte : UInt8} (single : toUtf8 text = [byte])
    (crc : UInt32) : textCrc crc text = byteCrc crc byte := by
  unfold textCrc
  rw [single, List.foldl_cons, List.foldl_nil]

theorem quotedCrc_eq (crc : UInt32) (text : String) :
    quotedCrc crc text = textCrc crc (quoted text) := by
  have quote : toUtf8 "'" = [ascii '\''] := rfl
  unfold quoted quotedCrc
  rw [textCrc_append, textCrc_append, textCrc_byte quote, textCrc_byte quote]

/-! ## Decimals -/

theorem toUtf8_digit {digit : Nat} (small : digit < 10) :
    toUtf8 (toString digit) = [ascii '0' + UInt8.ofNat digit] := by
  interval_cases digit <;> rfl

/-- The last digit of a decimal. -/
theorem toString_append_digit {value digit : Nat} (positive : 0 < value) (small : digit < 10) :
    toString (10 * value + digit) = toString value ++ toString digit := by
  have base : 1 < 10 := by omega
  simp only [Nat.toString_eq_ofList_toDigits]
  rw [← Nat.toDigits_append_toDigits base positive small, String.ofList_append]

/-- What stands in front of a place, one digit longer. -/
theorem byteCrc_digit {value place : Nat} (crc : UInt32) (longer : 10 * place ≤ value)
    (positive : 0 < place) :
    byteCrc (textCrc crc (toString (value / (10 * place))))
        (ascii '0' + UInt8.ofNat (value / place % 10)) =
          textCrc crc (toString (value / place)) := by
  have small : value / place % 10 < 10 := by omega
  have front : value / (10 * place) = value / place / 10 := by
    rw [Nat.mul_comm, Nat.div_div_eq_div_mul]
  have leading : 0 < value / place / 10 := by
    rw [← front]
    exact Nat.div_pos longer (by omega)
  have whole : 10 * (value / place / 10) + value / place % 10 = value / place := by omega
  calc
    _ = textCrc (textCrc crc (toString (value / place / 10)))
      (toString (value / place % 10)) := by
      rw [front, textCrc_byte (toUtf8_digit small)]
    _ = textCrc crc (toString (10 * (value / place / 10) + value / place % 10)) := by
      rw [toString_append_digit leading small, textCrc_append]
    _ = _ := by rw [whole]

/-- The place before the last is not the last one, and the next place is a tenth of it. -/
theorem place_succ (count : Nat) :
    ¬10 ^ (count + 1) ≤ 1 ∧ 10 ^ (count + 1) / 10 = 10 ^ count := by
  have large := Nat.one_lt_pow (Nat.succ_ne_zero count) (show 1 < 10 by omega)
  refine ⟨by omega, ?_⟩
  rw [pow_succ, Nat.mul_div_cancel _ (by omega)]

/-- The digits behind the first: those in front are already in the register. -/
theorem digitsCrc_behind {value count : Nat} (crc : UInt32) (longer : 10 ^ (count + 1) ≤ value) :
    digitsCrc (textCrc crc (toString (value / 10 ^ (count + 1)))) value (10 ^ count) =
      textCrc crc (toString value) := by
  induction count with
  | zero =>
      have step : byteCrc (textCrc crc (toString (value / (10 * 1))))
          (ascii '0' + UInt8.ofNat (value / 1 % 10)) = textCrc crc (toString (value / 1)) :=
        byteCrc_digit crc longer Nat.one_pos
      rw [Nat.mul_one, Nat.div_one] at step
      unfold digitsCrc
      rw [pow_zero, if_pos (le_refl 1), Nat.zero_add, pow_one, Nat.div_one, step]
  | succ count ih =>
      have positive : 0 < 10 ^ (count + 1) := Nat.pow_pos (by omega)
      have shorter : 10 ^ (count + 1) ≤ value := by
        rw [pow_succ] at longer
        omega
      obtain ⟨more, next⟩ := place_succ count
      have front : 10 ^ (count + 1 + 1) = 10 * 10 ^ (count + 1) := by
        rw [pow_succ, Nat.mul_comm]
      rw [front] at longer ⊢
      unfold digitsCrc
      rw [if_neg more, next, byteCrc_digit crc longer positive, ih shorter]

/-- The loop stops at the place of the first digit. -/
theorem leadingDivisor_eq {value divisor place : Nat} (power : divisor = 10 ^ place)
    (start : place = 0 ∨ divisor ≤ value) :
    ∃ first, leadingDivisor value divisor = 10 ^ first ∧ value < 10 ^ (first + 1) ∧
      (first = 0 ∨ 10 ^ first ≤ value) := by
  induction divisor using leadingDivisor.induct value generalizing place with
  | case1 divisor long ih =>
      have positive : 0 < divisor := by
        rw [power]
        exact Nat.pow_pos (by omega)
      have larger : divisor * 10 ≤ value := by
        rw [Nat.le_div_iff_mul_le positive] at long
        omega
      have next : divisor * 10 = 10 ^ (place + 1) := by rw [power, pow_succ]
      unfold leadingDivisor
      rw [if_pos long]
      exact ih next (.inr larger)
  | case2 divisor short =>
      have positive : 0 < divisor := by
        rw [power]
        exact Nat.pow_pos (by omega)
      have below : value < divisor * 10 := by
        rw [not_le, Nat.div_lt_iff_lt_mul positive] at short
        omega
      unfold leadingDivisor
      rw [if_neg short]
      refine ⟨place, power, ?_, ?_⟩
      · rwa [pow_succ, ← power]
      · rwa [← power]

/-- No divisor is larger than the value, so that none of a `u64` overflows. -/
theorem leadingDivisor_le (value : Nat) : leadingDivisor value 1 ≤ max 1 value := by
  obtain ⟨first, same, -, small⟩ := leadingDivisor_eq (pow_zero 10).symm (.inl rfl)
  rw [same]
  rcases small with rfl | below
  · exact le_max_left 1 value
  · exact le_max_of_le_right below

/-- `integer_crc` feeds the decimal. -/
theorem integerCrc_eq (crc : UInt32) (value : Nat) :
    integerCrc crc value = textCrc crc (toString value) := by
  obtain ⟨first, same, below, above⟩ := leadingDivisor_eq (pow_zero 10).symm (.inl rfl)
  have small : value / 10 ^ first < 10 := by
    rw [pow_succ] at below
    exact Nat.div_lt_of_lt_mul below
  have digit : byteCrc crc (ascii '0' + UInt8.ofNat (value / 10 ^ first % 10)) =
      textCrc crc (toString (value / 10 ^ first)) := by
    rw [Nat.mod_eq_of_lt small, textCrc_byte (toUtf8_digit small)]
  unfold integerCrc
  rw [same]
  unfold digitsCrc
  rw [digit]
  cases first with
  | zero => rw [pow_zero, if_pos (le_refl 1), Nat.div_one]
  | succ count =>
      obtain ⟨more, next⟩ := place_succ count
      rcases above with zero | above
      · cases zero
      · rw [if_neg more, next, digitsCrc_behind crc above]

/-! ## Blocks -/

theorem partsCrc_cons_cons {α : Type} (part : UInt32 → α → UInt32) (crc : UInt32)
    (first second : α) (rest : List α) :
    partsCrc part crc (first :: second :: rest) =
      partsCrc part (textCrc (part crc first) ", ") (second :: rest) := rfl

/-- The parts of a block, with their separators. -/
theorem partsCrc_eq {α : Type} {part : UInt32 → α → UInt32} {render : α → String}
    (each : ∀ crc value, part crc value = textCrc crc (render value)) (crc : UInt32)
    (values : List α) :
    partsCrc part crc values = textCrc crc (", ".intercalate (values.map render)) := by
  induction values generalizing crc with
  | nil => rfl
  | cons first rest ih =>
      cases rest with
      | nil =>
          rw [List.map_singleton, String.intercalate_singleton, ← each]
          rfl
      | cons second rest =>
          have joined : ", ".intercalate ((first :: second :: rest).map render) =
              render first ++ ", " ++ ", ".intercalate ((second :: rest).map render) :=
            String.intercalate_cons_cons
          rw [partsCrc_cons_cons, ih, each, joined, textCrc_append, textCrc_append]

/-- The brackets around a text. -/
theorem byteCrc_brackets (crc : UInt32) (text : String) :
    byteCrc (textCrc (byteCrc crc (ascii '[')) text) (ascii ']') =
      textCrc crc ("[" ++ text ++ "]") := by
  have opening : toUtf8 "[" = [ascii '['] := rfl
  have closing : toUtf8 "]" = [ascii ']'] := rfl
  rw [textCrc_append, textCrc_append, textCrc_byte opening, textCrc_byte closing]

/-- A magnitude behind the sign of its value. -/
theorem integerCrc_natAbs (crc : UInt32) (value : Int) :
    integerCrc (if value < 0 then byteCrc crc (ascii '-') else crc) value.natAbs =
      textCrc crc (toString value) := by
  have minus : toUtf8 "-" = [ascii '-'] := rfl
  rw [integerCrc_eq, Int.toString_eq_repr, Int.repr_eq_if]
  by_cases negative : value < 0
  · have magnitude : (-value).toNat = value.natAbs := by omega
    rw [if_pos negative, if_neg (by omega), textCrc_append, textCrc_byte minus, magnitude]
    rfl
  · have magnitude : value.toNat = value.natAbs := by omega
    rw [if_neg negative, if_pos (by omega), magnitude]
    rfl

theorem valueCrc_eq (crc : UInt32) (value : String × Int) :
    valueCrc crc value = textCrc crc (renderValue value) := by
  have joined : ", ".intercalate [quoted value.1, toString value.2] =
      quoted value.1 ++ ", " ++ toString value.2 := by
    rw [String.intercalate_cons_cons, String.intercalate_singleton]
  unfold valueCrc renderValue bracketed
  dsimp only
  rw [integerCrc_natAbs, quotedCrc_eq, joined, ← byteCrc_brackets, textCrc_append, textCrc_append]

/-- The type of a field, quoted, in the pieces that `block_crc` feeds. -/
theorem textCrc_typeName (crc : UInt32) (field : Field) :
    textCrc (if field.block.isSome then
        textCrc (textCrc (if field.block.isSome then textCrc (textCrc crc "['") "vl_api_"
          else textCrc crc "['") field.fieldType) "_t"
      else textCrc (if field.block.isSome then textCrc (textCrc crc "['") "vl_api_"
        else textCrc crc "['") field.fieldType) "', " =
      textCrc (byteCrc crc (ascii '[')) (quoted field.typeName ++ ", ") := by
  have opening : toUtf8 "[" = [ascii '['] := rfl
  have front : "['" = "[" ++ "'" := rfl
  have back : "', " = "'" ++ ", " := rfl
  unfold Field.typeName quoted
  rw [front, back]
  cases field.block.isSome with
  | false =>
      simp only [Bool.false_eq_true, if_false, textCrc_append, textCrc_byte opening]
  | true =>
      simp only [if_true, textCrc_append, textCrc_byte opening]

/-- The text of a field inside its brackets. -/
theorem intercalate_field (field : Field) :
    ", ".intercalate ([quoted field.typeName, quoted field.name] ++
        match field.length with
        | none => []
        | some length => [toString length, (field.lengthField.map quoted).getD "None"]) =
      quoted field.typeName ++ ", " ++ quoted field.name ++
        match field.length with
        | none => ""
        | some length =>
            ", " ++ toString length ++ ", " ++ (field.lengthField.map quoted).getD "None" := by
  cases field.length with
  | none => simp [String.append_assoc]
  | some length => simp [String.append_assoc]

theorem fieldCrc_eq (crc : UInt32) (field : Field) :
    fieldCrc crc field = textCrc crc field.render := by
  unfold fieldCrc Field.render bracketed
  dsimp only
  rw [← byteCrc_brackets, intercalate_field, textCrc_typeName, quotedCrc_eq, ← textCrc_append]
  cases field.length with
  | none => rw [String.append_empty]
  | some length =>
      dsimp only
      cases field.lengthField with
      | none => simp only [integerCrc_eq, Option.map_none, Option.getD_none, textCrc_append]
      | some name =>
          simp only [integerCrc_eq, quotedCrc_eq, Option.map_some, Option.getD_some,
            textCrc_append]

/-- `block_crc` feeds the text of one block. -/
theorem blockCrc_eq (crc : UInt32) (block : Block) :
    blockCrc crc block = textCrc crc block.render := by
  cases block with
  | fields parts =>
      unfold blockCrc Block.render bracketed
      simp only [partsCrc_eq fieldCrc_eq, byteCrc_brackets]
  | enum parts =>
      unfold blockCrc Block.render bracketed
      simp only [partsCrc_eq valueCrc_eq, byteCrc_brackets]
  | «alias» =>
      unfold blockCrc Block.render bracketed
      rw [← byteCrc_brackets, String.intercalate_nil, textCrc_empty]

mutual

/-- `fold` feeds the texts of the blocks that a block refers to. -/
theorem Block.fold_eq (crc : UInt32) : (block : Block) →
    block.fold crc = textCrc crc block.dependencies
  | .fields parts => by
      unfold Block.fold Block.dependencies
      exact foldFields_eq crc parts
  | .enum _ => rfl
  | .alias => rfl

theorem foldFields_eq (crc : UInt32) : (parts : List Field) →
    foldFields parts crc = textCrc crc (dependenciesOf parts)
  | [] => rfl
  | .mk _ _ none _ _ :: rest => by
      unfold foldFields dependenciesOf
      exact foldFields_eq crc rest
  | .mk _ _ (some dependency) _ _ :: rest => by
      unfold foldFields dependenciesOf
      rw [foldFields_eq, dependency.fold_eq, blockCrc_eq, textCrc_append, textCrc_append]

end

/-- The CRC of a block is the CRC-32 of its declaration. -/
theorem Block.crc_eq (block : Block) : block.crc = Crc.crc32 (toUtf8 block.declaration) := by
  unfold Block.crc Block.declaration Crc.crc32
  rw [blockCrc_eq, block.fold_eq, ← textCrc_append]
  apply UInt32.toBitVec_inj.mp
  rw [UInt32.toBitVec_not, textCrc_toBitVec, BitVec.not_def]
  rfl

end Netsystem.Api
