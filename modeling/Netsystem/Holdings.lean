import Mathlib.Logic.Function.Basic
import Netsystem.Program

/-!
# What a party holds of a kernel

A party maps ranges of an address space and opens descriptors while others do the same. A `Space`
says who maps each address, which descriptors the party holds, and at which addresses it has
unmapped what others had mapped. Between two calls of the party the others may do what they like
with everything that is not the party's (`Others`). `Holds` is the account of the party, with one
rule for each thing that a call does; `Accounts` is the account of a program of such calls
(`amid`). Nothing here names a particular party.
-/

namespace Netsystem.Holdings

/-- Who maps an address: the party for some purpose, or anybody else. -/
inductive Owner (τ : Type) : Type where
  | mine (purpose : τ)
  | theirs

structure Range : Type where
  base : Nat
  size : Nat
  deriving DecidableEq, Repr

/-- The address lies in the range. -/
def Range.Has (range : Range) (address : Nat) : Prop :=
  range.base ≤ address ∧ address < range.base + range.size

instance (range : Range) (address : Nat) : Decidable (range.Has address) :=
  inferInstanceAs (Decidable (_ ∧ _))

structure Space (τ : Type) : Type where
  owner : Nat → Option (Owner τ)
  files : Nat → Bool
  lost : Nat → Prop

namespace Space

variable {τ : Type}

/-- The range is mapped, or unmapped, whatever was there. -/
def put (s : Space τ) (range : Range) (owner : Option (Owner τ)) : Space τ :=
  { s with
    owner := fun address => if range.Has address then owner else s.owner address
    lost := fun address => s.lost address ∨ range.Has address ∧ s.owner address = some .theirs }

/-- A descriptor is opened or closed. -/
def setFile (s : Space τ) (descriptor : Nat) (held : Bool) : Space τ :=
  { s with files := Function.update s.files descriptor held }

end Space

variable {τ : Type}

/-- The others act: what is the party's stays, and nothing becomes the party's. -/
structure Others (s s' : Space τ) : Prop where
  files : s'.files = s.files
  lost : s'.lost = s.lost
  mine : ∀ address purpose, s'.owner address = some (.mine purpose) ↔
    s.owner address = some (.mine purpose)

theorem Others.refl (s : Space τ) : Others s s := ⟨rfl, rfl, fun _ _ => Iff.rfl⟩

/-- The party holds the descriptors and at most one range, and has taken the lost addresses. -/
structure Holds (files : Nat → Bool) (lost : Nat → Prop) (held : Option (Range × τ))
    (s : Space τ) : Prop where
  files : s.files = files
  lost : ∀ address, s.lost address ↔ lost address
  mine : ∀ address purpose, s.owner address = some (.mine purpose) ↔
    ∃ range, held = some (range, purpose) ∧ range.Has address

variable {files : Nat → Bool} {lost : Nat → Prop} {held : Option (Range × τ)} {s s' : Space τ}
  {range : Range} {purpose purpose' : τ} {descriptor : Nat}

namespace Holds

theorem others (holds : Holds files lost held s) (others : Others s s') :
    Holds files lost held s' where
  files := others.files.trans holds.files
  lost address := by rw [others.lost]; exact holds.lost address
  mine address purpose := (others.mine address purpose).trans (holds.mine address purpose)

/-- Nothing of others is lost where they have mapped nothing. -/
theorem lost_put (holds : Holds files lost held s) {owner : Option (Owner τ)}
    (spared : ∀ address, range.Has address → s.owner address ≠ some .theirs) (address : Nat) :
    (s.put range owner).lost address ↔ lost address := by
  refine Iff.trans ?_ (holds.lost address)
  exact or_iff_left fun taken => spared address taken.1 taken.2

/-- What the party holds after a range is put in place of the one that it held, if it held one. -/
theorem mine_put {owner : Option (Owner τ)}
    (holds : ∀ address purpose, ¬ range.Has address → s.owner address ≠ some (.mine purpose))
    (address : Nat) (purpose : τ) :
    (s.put range owner).owner address = some (.mine purpose) ↔
      range.Has address ∧ owner = some (.mine purpose) := by
  show (if range.Has address then owner else s.owner address) = _ ↔ _
  by_cases inside : range.Has address
  · rw [if_pos inside]
    exact (and_iff_right inside).symm
  · rw [if_neg inside]
    exact iff_of_false (holds address purpose inside) fun both => inside both.1

theorem bare_apart (holds : Holds files lost none s) (address : Nat) (purpose : τ) :
    s.owner address ≠ some (.mine purpose) := fun owned => by
  obtain ⟨_, none_, _⟩ := (holds.mine address purpose).mp owned
  cases none_

theorem held_apart (holds : Holds files lost (some (range, purpose)) s) (address : Nat)
    (other : τ) (outside : ¬ range.Has address) :
    s.owner address ≠ some (.mine other) := fun owned => by
  obtain ⟨_, same, inside⟩ := (holds.mine address other).mp owned
  cases same
  exact outside inside

theorem held_spared (holds : Holds files lost (some (range, purpose)) s) (address : Nat)
    (inside : range.Has address) : s.owner address ≠ some .theirs := fun owned => by
  cases owned.symm.trans ((holds.mine address purpose).mpr ⟨range, rfl, inside⟩)

theorem mine_of_put {owner : Option (Owner τ)} (purpose : τ)
    (owned : owner = some (.mine purpose)) (address : Nat) (other : τ) :
    (range.Has address ∧ owner = some (.mine other)) ↔
      ∃ range', some (range, purpose) = some (range', other) ∧ range'.Has address := by
  subst owned
  constructor
  · rintro ⟨inside, same⟩
    cases same
    exact ⟨range, rfl, inside⟩
  · rintro ⟨_, same, inside⟩
    cases same
    exact ⟨inside, rfl⟩

/-- A free range is mapped. -/
theorem map (holds : Holds files lost none s)
    (free : ∀ address, range.Has address → s.owner address = none) (purpose : τ) :
    Holds files lost (some (range, purpose)) (s.put range (some (.mine purpose))) where
  files := holds.files
  lost := holds.lost_put fun address inside owned =>
    by cases (free address inside).symm.trans owned
  mine address other := (mine_put (fun address other _ => holds.bare_apart address other) address
    other).trans (mine_of_put purpose rfl address other)

/-- The held range is unmapped. -/
theorem unmap (holds : Holds files lost (some (range, purpose)) s) :
    Holds files lost none (s.put range none) where
  files := holds.files
  lost := holds.lost_put holds.held_spared
  mine address other := by
    rw [mine_put holds.held_apart]
    exact iff_of_false (fun both => by cases both.2) fun ⟨_, none_, _⟩ => by cases none_

theorem setFile (holds : Holds files lost held s) (descriptor : Nat) (open_ : Bool) :
    Holds (Function.update files descriptor open_) lost held (s.setFile descriptor open_) where
  files := by rw [← holds.files]; rfl
  lost := holds.lost
  mine := holds.mine

/-- A descriptor that was opened is closed. -/
theorem close (holds : Holds (Function.update files descriptor true) lost held s)
    (fresh : files descriptor = false) : Holds files lost held (s.setFile descriptor false) := by
  have restored : Function.update files descriptor false = files := by
    rw [← fresh, Function.update_eq_self]
  have closed := holds.setFile descriptor false
  rwa [Function.update_idem, restored] at closed

end Holds

/-- Descriptors that are open beside others. -/
def beside (files : Nat → Bool) (more : List Nat) : Nat → Bool :=
  fun descriptor => files descriptor || more.contains descriptor

@[simp] theorem beside_nil : beside files [] = files := funext fun _ => Bool.or_false _

theorem beside_eq_false {more : List Nat} (closed : files descriptor = false)
    (apart : descriptor ∉ more) : beside files more descriptor = false := by
  simp [beside, closed, apart]

theorem beside_cons (more : List Nat) :
    beside files (descriptor :: more) = Function.update (beside files more) descriptor true := by
  funext other
  by_cases same : other = descriptor
  · rw [same, Function.update_self]
    simp [beside]
  · rw [Function.update_of_ne same]
    simp [beside, same]

theorem beside_update (more : List Nat) :
    beside (Function.update files descriptor true) more =
      Function.update (beside files more) descriptor true := by
  funext other
  by_cases same : other = descriptor
  · rw [same, Function.update_self]
    simp [beside]
  · simp only [beside, Function.update_of_ne same]

/-! ## Programs of calls -/

/-- What a party holds, and what it has recorded of its calls. -/
structure Held (τ κ : Type) : Type where
  space : Space τ
  record : κ

variable {κ ε ε' α β : Type} {Op : Type} {Ret : Op → Type}
  {calls : Prog.Handler Op Ret (Held τ κ)}

/-- Calls, each of them after the others did what they like. -/
def amid (calls : Prog.Handler Op Ret (Held τ κ)) : Prog.Handler Op Ret (Held τ κ) :=
  fun op s answer s' => ∃ mid, Others s.space mid ∧ calls op ⟨mid, s.record⟩ answer s'

/-- A call that the others do not precede. -/
theorem amid_alone {op : Op} {s s' : Held τ κ} {answer : Ret op} (called : calls op s answer s') :
    amid calls op s answer s' := ⟨s.space, .refl _, called⟩

/-- What the party holds, what it has taken, and its record, in one line. -/
structure Accounts (files : Nat → Bool) (lost : Nat → Prop) (record : κ)
    (held : Option (Range × τ)) (s : Held τ κ) : Prop where
  holds : Holds files lost held s.space
  record : s.record = record

namespace Accounts

variable {record : κ} {s : Held τ κ} {value : α → Held τ κ → Prop}
  {stop : Stop ε → Held τ κ → Prop}

/-- One call: the others have left the account as it was. -/
theorem call {op : Op} {next : Ret op → Prog Op Ret ε α}
    (accounts : Accounts files lost record held s)
    (rest : ∀ mid answer s', Holds files lost held mid → calls op ⟨mid, record⟩ answer s' →
      (next answer).Ensures (amid calls) value stop s') :
    (Prog.step op next).Ensures (amid calls) value stop s := by
  rintro answer s' ⟨mid, others, called⟩
  rw [accounts.record] at called
  exact rest mid answer s' (accounts.holds.others others) called

/-- A call that changes nothing. -/
theorem idle {op : Op} {next : Ret op → Prog Op Ret ε α}
    (accounts : Accounts files lost record held s)
    (idle : ∀ mid answer s', calls op mid answer s' → s' = mid)
    (rest : ∀ answer s', Accounts files lost record held s' →
      (next answer).Ensures (amid calls) value stop s') :
    (Prog.step op next).Ensures (amid calls) value stop s :=
  accounts.call fun _ answer s' holds called => by
    obtain rfl := idle _ _ _ called
    exact rest answer _ ⟨holds, rfl⟩

/-- A call that closes a descriptor. -/
theorem close {op : Op} {next : Ret op → Prog Op Ret ε α}
    (accounts : Accounts (Function.update files descriptor true) lost record held s)
    (fresh : files descriptor = false)
    (closes : ∀ mid answer s', calls op mid answer s' →
      s' = { mid with space := mid.space.setFile descriptor false })
    (rest : ∀ answer s', Accounts files lost record held s' →
      (next answer).Ensures (amid calls) value stop s') :
    (Prog.step op next).Ensures (amid calls) value stop s :=
  accounts.call fun _ answer s' holds called => by
    obtain rfl := closes _ _ _ called
    exact rest answer _ ⟨holds.close fresh, rfl⟩

/-- A program of calls that change nothing. -/
theorem idles {allowed : Op → Prop} {p : Prog Op Ret ε α} (uses : p.Uses allowed)
    (idle : ∀ op mid answer s', allowed op → calls op mid answer s' → s' = mid)
    (accounts : Accounts files lost record held s) :
    p.Ensures (amid calls) (fun _ => Accounts files lost record held)
      (fun _ => Accounts files lost record held) s := by
  refine uses.ensures (fun op s answer s' admitted accounts called => ?_) accounts
  obtain ⟨mid, others, called⟩ := called
  obtain rfl := idle op _ _ _ admitted called
  exact ⟨accounts.holds.others others, accounts.record⟩

/-- A program of such calls whose failure is handed on. -/
theorem attempted {allowed : Op → Prop} {p : Prog Op Ret ε' β} (uses : p.Uses allowed)
    (idle : ∀ op mid answer s', allowed op → calls op mid answer s' → s' = mid)
    (accounts : Accounts files lost record held s) {next : Except ε' β → Prog Op Ret ε α}
    (rest : ∀ result s', Accounts files lost record held s' →
      (next result).Ensures (amid calls) value stop s')
    (ends : ∀ end_ s', (∀ reason, end_ ≠ .error reason) → stop end_ s') :
    (p.attempt.bind next).Ensures (amid calls) value stop s := by
  refine Prog.ensures_bind.mpr (Prog.ensures_attempt.mpr ?_)
  refine (idles uses idle accounts).mono (fun result => rest (.ok result)) fun end_ s' kept => ?_
  cases end_ with
  | error reason => exact rest (.error reason) s' kept
  | panic => exact ends _ _ nofun
  | pending => exact ends _ _ nofun

end Accounts

end Netsystem.Holdings
