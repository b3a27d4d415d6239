import Mathlib.Data.List.Basic

/-!
# Texts that are read in one way

A printer is readable when the text of a value, with something behind it that may stand there,
tells the value and what stands behind. Runs of letters, texts between quotes, decimals and lists
in brackets are readable, and a sequence of texts that end themselves is read in one way. Nothing
here names a declaration.
-/

namespace Netsystem.Notation

section Printers

variable {α β σ : Type} {valid : α → Prop} {follows : List σ → Prop} {print : α → List σ}

/-- A text of a valid value and what follows it tell the value and what follows it. -/
structure Readable (valid : α → Prop) (follows : List σ → Prop) (print : α → List σ) : Prop where
  read : ∀ left right rest rest', valid left → valid right → follows rest → follows rest' →
    print left ++ rest = print right ++ rest' → left = right ∧ rest = rest'

/-- Anything may follow. -/
def Anything (_ : List σ) : Prop := True

theorem Readable.weaken {valid' : α → Prop} {follows' : List σ → Prop}
    (readable : Readable valid follows print) (values : ∀ value, valid' value → valid value)
    (behind : ∀ rest, follows' rest → follows rest) : Readable valid' follows' print :=
  ⟨fun left right rest rest' first second before after =>
    readable.read left right rest rest' (values left first) (values right second)
      (behind rest before) (behind rest' after)⟩

/-- What is printed as the image of an injection is readable where the image is. -/
theorem Readable.comap {f : β → α} (readable : Readable valid follows print)
    (injective : Function.Injective f) :
    Readable (fun value => valid (f value)) follows fun value => print (f value) := by
  refine ⟨fun left right rest rest' first second before after same => ?_⟩
  obtain ⟨equal, behind⟩ := readable.read _ _ rest rest' first second before after same
  exact ⟨injective equal, behind⟩

/-! ## Runs of letters -/

/-- What follows does not begin with a letter of the class. -/
def StopsAt (letter : σ → Bool) (rest : List σ) : Prop := ∀ c ∈ rest.head?, letter c = false

theorem takeWhile_eq_nil {letter : σ → Bool} {rest : List σ} (stops : StopsAt letter rest) :
    rest.takeWhile letter = [] := by
  cases rest with
  | nil => rfl
  | cons head rest => rw [List.takeWhile_cons_of_neg]; exact Bool.eq_false_iff.mp (stops head rfl)

/-- A run of letters of a class ends where no letter of the class follows. -/
theorem readable_run (letter : σ → Bool) :
    Readable (fun text : List σ => ∀ c ∈ text, letter c) (StopsAt letter) id := by
  refine ⟨fun left right rest rest' first second before after same => ?_⟩
  have front := congrArg (List.takeWhile letter) same
  simp only [id, List.takeWhile_append_of_pos first, List.takeWhile_append_of_pos second,
    takeWhile_eq_nil before, takeWhile_eq_nil after, List.append_nil] at front
  obtain rfl := front
  exact ⟨rfl, List.append_cancel_left same⟩

/-- A text between quotes. -/
def quote (mark : σ) (text : List σ) : List σ := mark :: (text ++ [mark])

theorem readable_quote [DecidableEq σ] (mark : σ) :
    Readable (fun text => mark ∉ text) Anything (quote mark) := by
  refine ⟨fun left right rest rest' first second _ _ same => ?_⟩
  have stops (rest : List σ) : StopsAt (· ≠ mark) (mark :: rest) := by simp [StopsAt]
  have inside {text : List σ} (clear : mark ∉ text) : ∀ c ∈ text, decide (c ≠ mark) :=
    fun c member => decide_eq_true fun here => clear (here ▸ member)
  have shifted : left ++ mark :: rest = right ++ mark :: rest' := by simpa [quote] using same
  obtain ⟨equal, behind⟩ := (readable_run (· ≠ mark)).read left right _ _ (inside first)
    (inside second) (stops rest) (stops rest') shifted
  exact ⟨equal, (List.cons.inj behind).2⟩

/-! ## Decimals -/

theorem isDigit_of_mem_toString {value : Nat} {c : Char} (member : c ∈ (toString value).toList) :
    c.isDigit := by
  rw [Nat.toString_eq_repr, Nat.toList_repr] at member
  exact Nat.isDigit_of_mem_toDigits (by decide) (by decide) member

theorem toString_toList_injective :
    Function.Injective fun value : Nat => (toString value).toList := by
  intro left right same
  simp only [Nat.toString_eq_repr, Nat.toList_repr] at same
  have read := congrArg (fun digits => Nat.ofDigitChars 10 digits 0) same
  simpa only [Nat.ofDigitChars_ten_toDigits] using read

theorem readable_nat :
    Readable (fun _ => True) (StopsAt Char.isDigit) fun value : Nat => (toString value).toList :=
  ((readable_run Char.isDigit).comap toString_toList_injective).weaken
    (fun _ _ _ => isDigit_of_mem_toString) fun _ => id

/-- A decimal begins with a digit. -/
theorem toString_ne_sign {value value' : Nat} {rest rest' : List Char} :
    (toString value).toList ++ rest ≠ '-' :: (toString value').toList ++ rest' := by
  intro same
  cases printed : (toString value).toList with
  | nil =>
      rw [Nat.toString_eq_repr, Nat.toList_repr] at printed
      exact Nat.toDigits_ne_nil printed
  | cons head tail =>
      rw [printed] at same
      have digit : head.isDigit := isDigit_of_mem_toString (printed ▸ List.mem_cons_self)
      obtain rfl : head = '-' := (List.cons.inj same).1
      cases digit

/-- A decimal with a sign where it is negative. -/
theorem readable_int :
    Readable (fun _ => True) (StopsAt Char.isDigit)
      fun value : Int => (toString value).toList := by
  have negative (value : Nat) : (toString (Int.negSucc value)).toList =
      '-' :: (toString (value + 1)).toList := String.toList_append
  refine ⟨fun left right rest rest' _ _ before after same => ?_⟩
  cases left with
  | ofNat left =>
      cases right with
      | ofNat right =>
          obtain ⟨rfl, behind⟩ :=
            readable_nat.read left right rest rest' trivial trivial before after same
          exact ⟨rfl, behind⟩
      | negSucc right =>
          rw [negative] at same
          exact (toString_ne_sign same).elim
  | negSucc left =>
      rw [negative] at same
      cases right with
      | ofNat right => exact (toString_ne_sign same.symm).elim
      | negSucc right =>
          rw [negative] at same
          obtain ⟨equal, behind⟩ :=
            readable_nat.read (left + 1) (right + 1) rest rest' trivial trivial
            before after (List.cons.inj same).2
          obtain rfl := Nat.succ.inj equal
          exact ⟨rfl, behind⟩

/-! ## Sequences and lists -/

/-- Texts that end themselves and are not empty, one behind the other, are read in one way. -/
theorem Readable.flatMap (item : Readable valid Anything print)
    (solid : ∀ value, valid value → print value ≠ []) {left right : List α}
    (first : ∀ value ∈ left, valid value) (second : ∀ value ∈ right, valid value)
    (same : left.flatMap print = right.flatMap print) : left = right := by
  induction left generalizing right with
  | nil =>
      cases right with
      | nil => rfl
      | cons head right =>
          have empty := (List.append_eq_nil_iff.mp same.symm).1
          exact absurd empty (solid head (second head List.mem_cons_self))
  | cons head left ih =>
      have valid_head := first head List.mem_cons_self
      cases right with
      | nil => exact absurd (List.append_eq_nil_iff.mp same).1 (solid head valid_head)
      | cons head' right =>
          obtain ⟨rfl, behind⟩ :=
            item.read head head' _ _ valid_head (second head' List.mem_cons_self)
            trivial trivial same
          rw [ih (fun value member => first value (List.mem_cons_of_mem _ member))
            (fun value member => second value (List.mem_cons_of_mem _ member)) behind]

/-- A list in brackets, with a separator between its texts. -/
def bracketed (texts : List (List Char)) : List Char :=
  '[' :: ([',', ' '].intercalate texts ++ [']'])

/-- What may follow an item of a list. -/
def AfterItem (rest : List Char) : Prop := rest.head? = some ',' ∨ rest.head? = some ']'

section Lists

variable {print : α → List Char} {left right : List α} {rest rest' : List Char}

theorem afterItem_tail (values : List α) :
    AfterItem (values.flatMap (fun value => ',' :: ' ' :: print value) ++ ']' :: rest) := by
  cases values with
  | nil => exact .inr rfl
  | cons head values => exact .inl rfl

/-- The items behind the first of a list, each with its separator, and the bracket. -/
theorem Readable.tail (item : Readable valid AfterItem print)
    (first : ∀ value ∈ left, valid value) (second : ∀ value ∈ right, valid value)
    (same : left.flatMap (fun value => ',' :: ' ' :: print value) ++ ']' :: rest =
      right.flatMap (fun value => ',' :: ' ' :: print value) ++ ']' :: rest') :
    left = right ∧ rest = rest' := by
  induction left generalizing right with
  | nil =>
      cases right with
      | nil => exact ⟨rfl, (List.cons.inj same).2⟩
      | cons head right => cases (List.cons.inj same).1
  | cons head left ih =>
      cases right with
      | nil => cases (List.cons.inj same).1
      | cons head' right =>
          have inner := (List.cons.inj (List.cons.inj same).2).2
          simp only [List.append_eq, List.append_assoc] at inner
          obtain ⟨rfl, behind⟩ := item.read head head' _ _ (first head List.mem_cons_self)
            (second head' List.mem_cons_self) (afterItem_tail left) (afterItem_tail right) inner
          obtain ⟨rfl, after⟩ :=
            ih (fun value member => first value (List.mem_cons_of_mem _ member))
            (fun value member => second value (List.mem_cons_of_mem _ member)) behind
          exact ⟨rfl, after⟩

theorem intercalate_cons {separator head : List σ} {texts : List (List σ)} :
    separator.intercalate (head :: texts) = head ++ texts.flatMap (separator ++ ·) := by
  induction texts generalizing head with
  | nil => simp
  | cons next texts ih => simp [ih]

theorem bracketed_cons {head : α} {values : List α} :
    bracketed ((head :: values).map print) ++ rest =
      '[' :: (print head ++
        (values.flatMap (fun value => ',' :: ' ' :: print value) ++ ']' :: rest)) := by
  have separated : (values.map print).flatMap ([',', ' '] ++ ·) =
      values.flatMap fun value => ',' :: ' ' :: print value := List.flatMap_map _ _ values
  rw [bracketed, List.map_cons, intercalate_cons, separated]
  simp only [List.cons_append, List.append_assoc, List.nil_append]

/-- A list of readable items in brackets ends itself. -/
theorem Readable.enclosed (item : Readable valid AfterItem print)
    (opens : ∀ value, valid value → ∀ rest rest', print value ++ rest ≠ ']' :: rest') :
    Readable (fun values : List α => ∀ value ∈ values, valid value) Anything
      fun values => bracketed (values.map print) := by
  refine ⟨fun left right rest rest' first second _ _ same => ?_⟩
  cases left with
  | nil =>
      cases right with
      | nil => exact ⟨rfl, (List.cons.inj (List.cons.inj same).2).2⟩
      | cons head right =>
          rw [bracketed_cons] at same
          exact absurd (List.cons.inj same).2.symm
            (opens head (second head List.mem_cons_self) _ _)
  | cons head left =>
      cases right with
      | nil =>
          rw [bracketed_cons] at same
          exact absurd (List.cons.inj same).2 (opens head (first head List.mem_cons_self) _ _)
      | cons head' right =>
          rw [bracketed_cons, bracketed_cons] at same
          obtain ⟨rfl, behind⟩ := item.read head head' _ _ (first head List.mem_cons_self)
            (second head' List.mem_cons_self) (afterItem_tail left) (afterItem_tail right)
            (List.cons.inj same).2
          obtain ⟨rfl, after⟩ := item.tail
            (fun value member => first value (List.mem_cons_of_mem _ member))
            (fun value member => second value (List.mem_cons_of_mem _ member)) behind
          exact ⟨rfl, after⟩

end Lists

end Printers

/-! ## Tables of atoms -/

/-- A text, a number, or nothing. -/
inductive Atom : Type where
  | text (letters : String)
  | number (value : Int)
  | absent
  deriving DecidableEq

namespace Atom

def print : Atom → List Char
  | .text letters => quote '\'' letters.toList
  | .number value => (toString value).toList
  | .absent => "None".toList

/-- A text without quotes. -/
def Clear : Atom → Prop
  | .text letters => '\'' ∉ letters.toList
  | .number _ => True
  | .absent => True

/-- The letters that an atom may begin with. -/
def Opening : Atom → Char → Prop
  | .text _, c => c = '\''
  | .number _, c => c = '-' ∨ c.isDigit
  | .absent, c => c = 'N'

theorem print_opening (atom : Atom) : ∃ c rest, atom.print = c :: rest ∧ atom.Opening c := by
  cases atom with
  | text letters => exact ⟨_, _, rfl, rfl⟩
  | absent => exact ⟨'N', "one".toList, rfl, rfl⟩
  | number value =>
      cases value with
      | negSucc value => exact ⟨'-', _, String.toList_append, .inl rfl⟩
      | ofNat value =>
          cases printed : (toString value).toList with
          | nil =>
              rw [Nat.toString_eq_repr, Nat.toList_repr] at printed
              exact absurd printed Nat.toDigits_ne_nil
          | cons head tail =>
              exact ⟨head, tail, printed,
                .inr (isDigit_of_mem_toString (printed ▸ List.mem_cons_self))⟩

/-- Atoms whose texts begin alike are of one kind, and none begins with a bracket. -/
theorem same_opening {left right : Atom} {rest rest' : List Char}
    (same : left.print ++ rest = right.print ++ rest') : ∃ c, left.Opening c ∧
      right.Opening c := by
  obtain ⟨c, tail, printed, opening⟩ := left.print_opening
  obtain ⟨c', tail', printed', opening'⟩ := right.print_opening
  rw [printed, printed'] at same
  obtain rfl : c = c' := (List.cons.inj same).1
  exact ⟨c, opening, opening'⟩

theorem stopsAt_of_afterItem {rest : List Char} (behind : AfterItem rest) :
    StopsAt Char.isDigit rest := by
  intro c first
  rcases behind with comma | bracket
  · rw [comma, Option.mem_some_iff] at first
    exact first ▸ rfl
  · rw [bracket, Option.mem_some_iff] at first
    exact first ▸ rfl

/-- An atom ends where a list goes on. -/
theorem readable : Readable Clear AfterItem print := by
  refine ⟨fun left right rest rest' first second before after same => ?_⟩
  obtain ⟨c, opening, opening'⟩ := same_opening same
  cases left with
  | text left =>
      cases right with
      | text right =>
          obtain ⟨equal, behind⟩ := (readable_quote '\'').read _ _ rest rest' first second trivial
            trivial same
          exact ⟨congrArg _ (String.toList_injective equal), behind⟩
      | number right =>
          obtain rfl : c = '\'' := opening
          rcases opening' with sign | digit <;> contradiction
      | absent => cases (show c = '\'' from opening).symm.trans opening'
  | number left =>
      cases right with
      | text right =>
          obtain rfl : c = '\'' := opening'
          rcases opening with sign | digit <;> contradiction
      | number right =>
          obtain ⟨rfl, behind⟩ := readable_int.read left right rest rest' trivial trivial
            (stopsAt_of_afterItem before) (stopsAt_of_afterItem after) same
          exact ⟨rfl, behind⟩
      | absent =>
          obtain rfl : c = 'N' := opening'
          rcases opening with sign | digit <;> contradiction
  | absent =>
      cases right with
      | text right => cases (show c = 'N' from opening).symm.trans opening'
      | number right =>
          obtain rfl : c = 'N' := opening
          rcases opening' with sign | digit <;> contradiction
      | absent => exact ⟨rfl, List.append_cancel_left same⟩

theorem print_ne_bracket (atom : Atom) (rest rest' : List Char) : atom.print ++ rest ≠ ']' ::
    rest' := by
  intro same
  obtain ⟨c, tail, printed, opening⟩ := atom.print_opening
  rw [printed] at same
  obtain rfl : c = ']' := (List.cons.inj same).1
  cases atom with
  | text letters => cases opening
  | number value => rcases opening with sign | digit <;> contradiction
  | absent => cases opening

end Atom

/-- The text of a row of atoms. -/
def row (atoms : List Atom) : List Char := bracketed (atoms.map Atom.print)

/-- The text of a table, row by row. -/
def table (rows : List (List Atom)) : List Char := bracketed (rows.map row)

theorem readable_row : Readable (fun atoms => ∀ atom ∈ atoms, Atom.Clear atom) Anything row :=
  Atom.readable.enclosed fun atom _ => atom.print_ne_bracket

theorem readable_table :
    Readable (fun rows => ∀ atoms ∈ rows, ∀ atom ∈ atoms, Atom.Clear atom) Anything table :=
  (readable_row.weaken (fun _ => id) fun _ _ => trivial).enclosed
    fun _ _ _ _ same => by cases same

end Netsystem.Notation
