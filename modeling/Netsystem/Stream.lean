import Mathlib.Data.List.Basic

/-!
# Readers of a stream

A reader takes tokens off the front of a list and leaves the rest as its state. `Reads` says which
text a reader takes for which value, `Local` that it looks no further than what it takes. Both are
closed under sequencing, and together they settle every cut of a text. Nothing here names a
format.
-/

namespace Netsystem

abbrev Reader (ε τ : Type) : Type → Type := EStateM ε (List τ)

namespace Reader

variable {ε τ α β : Type}

/-- In front of anything, `text` is read as `value`. -/
def Reads (reader : Reader ε τ α) (text : List τ) (value : α) : Prop :=
  ∀ rest, reader (text ++ rest) = .ok value rest

/-- A success does not depend on what is behind the tokens taken. -/
def Local (reader : Reader ε τ α) : Prop :=
  ∀ input value rest, reader input = .ok value rest →
    ∀ more, reader (input ++ more) = .ok value (rest ++ more)

/-! ## Texts one behind the other -/

theorem Reads.pure (value : α) : Reads (Pure.pure value : Reader ε τ α) [] value := by
  intro rest
  rfl

theorem Reads.bind {reader : Reader ε τ α} {next : α → Reader ε τ β} {text more : List τ}
    {value : α} {result : β} (first : Reads reader text value)
    (second : Reads (next value) more result) :
    Reads (reader >>= next) (text ++ more) result := by
  intro rest
  have step := first (more ++ rest)
  have tail := second rest
  rw [List.append_assoc]
  simp only [Bind.bind, EStateM.bind, step, tail]

/-- A reader that only changes the value. -/
theorem Reads.map {reader : Reader ε τ α} {next : α → Reader ε τ β} {text : List τ} {value : α}
    {result : β} (first : Reads reader text value) (second : Reads (next value) [] result) :
    Reads (reader >>= next) text result := by
  have both := first.bind second
  rwa [List.append_nil] at both

/-! ## Locality -/

theorem Local.pure (value : α) : Local (Pure.pure value : Reader ε τ α) := by
  intro input result rest success more
  cases success
  rfl

theorem Local.throw (reason : ε) : Local (MonadExcept.throw reason : Reader ε τ α) := by
  intro input result rest success
  cases success

theorem Local.bind {reader : Reader ε τ α} {next : α → Reader ε τ β} (first : Local reader)
    (second : ∀ value, Local (next value)) : Local (reader >>= next) := by
  intro input result rest success more
  simp only [Bind.bind, EStateM.bind] at success
  rcases taken : reader input with ⟨value, middle⟩ | ⟨reason, middle⟩
  · rw [taken] at success
    have step := first input value middle taken more
    have tail := second value middle result rest success more
    simp only [Bind.bind, EStateM.bind, step, tail]
  · rw [taken] at success
    cases success

theorem Local.ite {condition : Prop} [Decidable condition] {yes no : Reader ε τ α}
    (left : Local yes) (right : Local no) : Local (if condition then yes else no) := by
  split
  · exact left
  · exact right

/-- A reader behind a check. -/
theorem Local.check {condition : Prop} [Decidable condition] {reason : ε} {behind : Reader ε τ α}
    (rest : Local behind) :
    Local (if condition then do (MonadExcept.throw reason : Reader ε τ PUnit); behind
      else behind) :=
  ((Local.throw reason).bind fun _ => rest).ite rest

/-! ## Cuts -/

/-- A local reader fails on every strict prefix of a text that it reads. -/
theorem Reads.cut {reader : Reader ε τ α} {text front : List τ} {value : α}
    (reads : Reads reader text value) (lookahead : Local reader) (isFront : front <+: text)
    (strict : front ≠ text) : ∃ reason rest, reader front = .error reason rest := by
  obtain ⟨missing, rfl⟩ := isFront
  rcases taken : reader front with ⟨other, rest⟩ | ⟨reason, rest⟩
  · have whole := reads []
    rw [List.append_nil, lookahead front other rest taken missing] at whole
    have leftover : rest ++ missing = [] := by
      injection whole
    rw [(List.append_eq_nil_iff.mp leftover).2, List.append_nil] at strict
    exact absurd rfl strict
  · exact ⟨reason, rest, rfl⟩

end Reader

end Netsystem
