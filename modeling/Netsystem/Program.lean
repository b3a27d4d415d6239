import Mathlib.Logic.Function.Basic
import Mathlib.Logic.Relation

/-!
# Programs over primitive operations

`Prog Op Ret ε α` is the text of a computation that touches the world only through the operations
of `Op`: each `step` performs one operation and goes on with its answer, each `done` leaf ends the
computation. The same text is read in several ways.

* `Prog.Runs`: a run against a `Handler`, a relation that may answer one operation in many ways.
  Other parties acting between two operations are part of the handler.
* `Prog.Ensures`: what holds at the end of every such run.
* `Prog.exec`: the run against a deterministic `Device`. An operation that the device refuses is a
  fault and ends the run in `panic`. `Prog.meets` is where it first has an answer of some kind.
* `Prog.outcome`: how the program ends when every operation has one answer.
* `Prog.died`: the state left behind when the computation dies after a number of its stores.

The rules below (`runs_bind`, `exec_bind`, `Runs.preserves`, `died_bind`) are what a client of
the library uses; nothing here names a particular program.
-/

namespace Netsystem

/-- How a run ends. `pending` is a computation abandoned while it was still going on. -/
inductive Outcome (ε α : Type) : Type where
  | ok (value : α)
  | error (reason : ε)
  | panic
  | pending
  deriving DecidableEq, Repr

/-- A way to end without a value. -/
inductive Stop (ε : Type) : Type where
  | error (reason : ε)
  | panic
  | pending

/-- An error is as `caught` demands, a fault and an abandoned run as `stop` does. -/
def Stop.Caught {ε ε' : Type} (caught : ε → Prop) (stop : Stop ε' → Prop) : Stop ε → Prop
  | .error reason => caught reason
  | .panic => stop .panic
  | .pending => stop .pending

/-- The run ends with a value as `value` demands, or without one as `stop` demands. -/
def Outcome.Ended {ε α : Type} (value : α → Prop) (stop : Stop ε → Prop) : Outcome ε α → Prop
  | .ok result => value result
  | .error reason => stop (.error reason)
  | .panic => stop .panic
  | .pending => stop .pending

/-- A computation over the operations `Op`, where `op` is answered in `Ret op`. -/
inductive Prog (Op : Type) (Ret : Op → Type) (ε α : Type) : Type where
  | done (outcome : Outcome ε α)
  | step (op : Op) (next : Ret op → Prog Op Ret ε α)

namespace Prog

variable {Op : Type} {Ret : Op → Type} {ε ε' α β γ σ : Type}

/-! ## Building programs -/

def bind : Prog Op Ret ε α → (α → Prog Op Ret ε β) → Prog Op Ret ε β
  | .done (.ok value), f => f value
  | .done (.error reason), _ => .done (.error reason)
  | .done .panic, _ => .done .panic
  | .done .pending, _ => .done .pending
  | .step op next, f => .step op fun answer => (next answer).bind f

instance : Monad (Prog Op Ret ε) where
  pure value := .done (.ok value)
  bind := bind

/-- One operation. -/
def perform (op : Op) : Prog Op Ret ε (Ret op) := .step op fun answer => .done (.ok answer)

def throw (reason : ε) : Prog Op Ret ε α := .done (.error reason)

def panic : Prog Op Ret ε α := .done .panic

def pending : Prog Op Ret ε α := .done .pending

/-- A computed result as a program without operations. -/
def ofExcept : Except ε α → Prog Op Ret ε α
  | .ok value => .done (.ok value)
  | .error reason => .done (.error reason)

/-- Runs a fallible computation and hands its result on instead of failing. -/
def attempt : Prog Op Ret ε α → Prog Op Ret ε' (Except ε α)
  | .done (.ok value) => .done (.ok (.ok value))
  | .done (.error reason) => .done (.ok (.error reason))
  | .done .panic => .done .panic
  | .done .pending => .done .pending
  | .step op next => .step op fun answer => (next answer).attempt

/-- Goes on after every way the program may end. -/
def graft (leaf : Outcome ε α → Prog Op Ret ε' β) : Prog Op Ret ε α → Prog Op Ret ε' β
  | .done outcome => leaf outcome
  | .step op next => .step op fun answer => (next answer).graft leaf

/-- The bounded loop that pushes `body start`, ..., `body (start + count - 1)` onto a vector. -/
def collectFrom (body : Nat → Prog Op Ret ε α) : (start count : Nat) → Prog Op Ret ε (List α)
  | _, 0 => .done (.ok [])
  | start, count + 1 =>
      (body start).bind fun head =>
        (collectFrom body (start + 1) count).bind fun rest => .done (.ok (head :: rest))

@[simp] theorem pure_eq (value : α) :
    (pure value : Prog Op Ret ε α) = .done (.ok value) := rfl

@[simp] theorem bind_eq (p : Prog Op Ret ε α) (f : α → Prog Op Ret ε β) :
    (p >>= f) = p.bind f := rfl

@[simp] theorem bind_ok (value : α) (f : α → Prog Op Ret ε β) :
    bind (.done (.ok value)) f = f value := rfl

@[simp] theorem bind_error (reason : ε) (f : α → Prog Op Ret ε β) :
    bind (.done (.error reason)) f = .done (.error reason) := rfl

@[simp] theorem bind_panic (f : α → Prog Op Ret ε β) :
    bind (.done .panic) f = .done .panic := rfl

@[simp] theorem bind_pending (f : α → Prog Op Ret ε β) :
    bind (.done .pending) f = .done .pending := rfl

@[simp] theorem bind_step (op : Op) (next : Ret op → Prog Op Ret ε α)
    (f : α → Prog Op Ret ε β) :
    bind (.step op next) f = .step op fun answer => (next answer).bind f := rfl

@[simp] theorem bind_perform (op : Op) (f : Ret op → Prog Op Ret ε β) :
    bind (perform op) f = .step op f := rfl

@[simp] theorem bind_throw (reason : ε) (f : α → Prog Op Ret ε β) :
    bind (throw reason) f = throw reason := rfl

theorem bind_assoc (p : Prog Op Ret ε α) (f : α → Prog Op Ret ε β) (g : β → Prog Op Ret ε γ) :
    (p.bind f).bind g = p.bind fun value => (f value).bind g := by
  induction p with
  | done outcome => cases outcome <;> rfl
  | step op next ih =>
      simp only [bind_step]
      exact congrArg _ (funext ih)

@[simp] theorem bind_pure (p : Prog Op Ret ε α) :
    (p.bind fun value => .done (.ok value)) = p := by
  induction p with
  | done outcome => cases outcome <;> rfl
  | step op next ih => exact congrArg _ (funext ih)

@[simp] theorem graft_done (p : Prog Op Ret ε α) : p.graft .done = p := by
  induction p with
  | done outcome => rfl
  | step op next ih => exact congrArg _ (funext ih)

/-- A sequence goes on after a value only. -/
theorem bind_eq_graft (p : Prog Op Ret ε α) (f : α → Prog Op Ret ε β) :
    p.bind f = p.graft fun outcome =>
      match outcome with
      | .ok value => f value
      | .error reason => .done (.error reason)
      | .panic => .done .panic
      | .pending => .done .pending := by
  induction p with
  | done outcome => cases outcome <;> rfl
  | step op next ih => exact congrArg _ (funext ih)

theorem attempt_eq_graft (p : Prog Op Ret ε α) :
    (p.attempt : Prog Op Ret ε' (Except ε α)) = p.graft fun outcome =>
      match outcome with
      | .ok value => .done (.ok (.ok value))
      | .error reason => .done (.ok (.error reason))
      | .panic => .done .panic
      | .pending => .done .pending := by
  induction p with
  | done outcome => cases outcome <;> rfl
  | step op next ih => exact congrArg _ (funext ih)

/-! ## Runs against a handler -/

/-- `handler op s answer s'`: in the state `s` the operation `op` may answer `answer` and leave
the state `s'`. -/
abbrev Handler (Op : Type) (Ret : Op → Type) (σ : Type) : Type :=
  (op : Op) → σ → Ret op → σ → Prop

/-- `p.Runs handler s out s'`: some run of `p` from `s` ends in `out` and leaves `s'`. -/
def Runs (handler : Handler Op Ret σ) : Prog Op Ret ε α → σ → Outcome ε α → σ → Prop
  | .done outcome, s, out, s' => out = outcome ∧ s' = s
  | .step op next, s, out, s' =>
      ∃ answer mid, handler op s answer mid ∧ (next answer).Runs handler mid out s'

variable {handler : Handler Op Ret σ} {s s' : σ}

@[simp] theorem runs_done {outcome out : Outcome ε α} :
    (done outcome : Prog Op Ret ε α).Runs handler s out s' ↔ out = outcome ∧ s' = s := Iff.rfl

@[simp] theorem runs_step {op : Op} {next : Ret op → Prog Op Ret ε α} {out : Outcome ε α} :
    (step op next).Runs handler s out s' ↔
      ∃ answer mid, handler op s answer mid ∧ (next answer).Runs handler mid out s' := Iff.rfl

/-- A run of `p` followed by `f` either leaves `p` with a value and goes on with `f`, or ends
inside `p`. -/
theorem runs_bind {p : Prog Op Ret ε α} {f : α → Prog Op Ret ε β} {out : Outcome ε β} :
    (p.bind f).Runs handler s out s' ↔
      (∃ value mid, p.Runs handler s (.ok value) mid ∧ (f value).Runs handler mid out s') ∨
      (∃ reason, p.Runs handler s (.error reason) s' ∧ out = .error reason) ∨
      (p.Runs handler s .panic s' ∧ out = .panic) ∨
      (p.Runs handler s .pending s' ∧ out = .pending) := by
  induction p generalizing s with
  | done outcome => cases outcome <;> simp [and_assoc, and_comm (a := s' = s)]
  | step op next ih =>
      simp only [bind_step, runs_step, ih]
      constructor
      · rintro ⟨answer, mid, answered, run⟩
        rcases run with ⟨value, last, left, right⟩ | ⟨reason, left, rfl⟩ |
          ⟨left, rfl⟩ | ⟨left, rfl⟩
        · exact .inl ⟨value, last, ⟨answer, mid, answered, left⟩, right⟩
        · exact .inr (.inl ⟨reason, ⟨answer, mid, answered, left⟩, rfl⟩)
        · exact .inr (.inr (.inl ⟨⟨answer, mid, answered, left⟩, rfl⟩))
        · exact .inr (.inr (.inr ⟨⟨answer, mid, answered, left⟩, rfl⟩))
      · rintro (⟨value, last, ⟨answer, mid, answered, left⟩, right⟩ |
          ⟨reason, ⟨answer, mid, answered, left⟩, rfl⟩ | ⟨⟨answer, mid, answered, left⟩, rfl⟩ |
          ⟨⟨answer, mid, answered, left⟩, rfl⟩)
        · exact ⟨answer, mid, answered, .inl ⟨value, last, left, right⟩⟩
        · exact ⟨answer, mid, answered, .inr (.inl ⟨reason, left, rfl⟩)⟩
        · exact ⟨answer, mid, answered, .inr (.inr (.inl ⟨left, rfl⟩))⟩
        · exact ⟨answer, mid, answered, .inr (.inr (.inr ⟨left, rfl⟩))⟩

/-- A run to a value splits at a bind. -/
theorem runs_bind_ok {p : Prog Op Ret ε α} {f : α → Prog Op Ret ε β} {value : β} :
    (p.bind f).Runs handler s (.ok value) s' ↔
      ∃ first mid, p.Runs handler s (.ok first) mid ∧
        (f first).Runs handler mid (.ok value) s' := by
  simp [runs_bind]

/-- A run whose error is handed on is a run of the program to the value or the error. -/
theorem runs_attempt {p : Prog Op Ret ε α} {out : Outcome ε' (Except ε α)} :
    (p.attempt : Prog Op Ret ε' (Except ε α)).Runs handler s out s' ↔
      (∃ value, p.Runs handler s (.ok value) s' ∧ out = .ok (.ok value)) ∨
      (∃ reason, p.Runs handler s (.error reason) s' ∧ out = .ok (.error reason)) ∨
      (p.Runs handler s .panic s' ∧ out = .panic) ∨
      (p.Runs handler s .pending s' ∧ out = .pending) := by
  induction p generalizing s with
  | done outcome => cases outcome <;> simp [attempt, and_assoc, and_comm (a := s' = s)]
  | step op next ih =>
      simp only [attempt, runs_step, ih]
      constructor
      · rintro ⟨answer, mid, answered, run⟩
        rcases run with ⟨value, run, same⟩ | ⟨reason, run, same⟩ | ⟨run, same⟩ | ⟨run, same⟩
        · exact .inl ⟨value, ⟨answer, mid, answered, run⟩, same⟩
        · exact .inr (.inl ⟨reason, ⟨answer, mid, answered, run⟩, same⟩)
        · exact .inr (.inr (.inl ⟨⟨answer, mid, answered, run⟩, same⟩))
        · exact .inr (.inr (.inr ⟨⟨answer, mid, answered, run⟩, same⟩))
      · rintro (⟨value, ⟨answer, mid, answered, run⟩, same⟩ |
          ⟨reason, ⟨answer, mid, answered, run⟩, same⟩ | ⟨⟨answer, mid, answered, run⟩, same⟩ |
          ⟨⟨answer, mid, answered, run⟩, same⟩)
        · exact ⟨answer, mid, answered, .inl ⟨value, run, same⟩⟩
        · exact ⟨answer, mid, answered, .inr (.inl ⟨reason, run, same⟩)⟩
        · exact ⟨answer, mid, answered, .inr (.inr (.inl ⟨run, same⟩))⟩
        · exact ⟨answer, mid, answered, .inr (.inr (.inr ⟨run, same⟩))⟩

/-- What every answer keeps, every run keeps. -/
theorem Runs.preserves (invariant : σ → Prop)
    (kept : ∀ op s answer s', invariant s → handler op s answer s' → invariant s')
    {p : Prog Op Ret ε α} {out : Outcome ε α}
    (run : p.Runs handler s out s') (holds : invariant s) : invariant s' := by
  induction p generalizing s with
  | done outcome => exact run.2 ▸ holds
  | step op next ih =>
      obtain ⟨answer, mid, answered, rest⟩ := run
      exact ih answer rest (kept op s answer mid holds answered)

/-! ## Execution on a device -/

/-- A deterministic device; `none` refuses the operation. -/
abbrev Device (Op : Type) (Ret : Op → Type) (σ : Type) : Type :=
  (op : Op) → σ → Option (Ret op × σ)

/-- The run of a program on a device. A refused operation is a fault. -/
def exec (device : Device Op Ret σ) : Prog Op Ret ε α → σ → Outcome ε α × σ
  | .done outcome, s => (outcome, s)
  | .step op next, s =>
      match device op s with
      | none => (.panic, s)
      | some (answer, s') => (next answer).exec device s'

variable {device : Device Op Ret σ}

@[simp] theorem exec_done {outcome : Outcome ε α} :
    (done outcome : Prog Op Ret ε α).exec device s = (outcome, s) := rfl

@[simp] theorem exec_throw {reason : ε} :
    (throw reason : Prog Op Ret ε α).exec device s = (.error reason, s) := rfl

theorem exec_step {op : Op} {next : Ret op → Prog Op Ret ε α} :
    (step op next).exec device s =
      match device op s with
      | none => (.panic, s)
      | some (answer, s') => (next answer).exec device s' := by
  rw [exec]

theorem exec_step_of_answer {op : Op} {next : Ret op → Prog Op Ret ε α} {answer : Ret op}
    (answered : device op s = some (answer, s')) :
    (step op next).exec device s = (next answer).exec device s' := by
  rw [exec_step, answered]

theorem exec_bind {p : Prog Op Ret ε α} {f : α → Prog Op Ret ε β} :
    (p.bind f).exec device s =
      match p.exec device s with
      | (.ok value, mid) => (f value).exec device mid
      | (.error reason, mid) => (.error reason, mid)
      | (.panic, mid) => (.panic, mid)
      | (.pending, mid) => (.pending, mid) := by
  induction p generalizing s with
  | done outcome => cases outcome <;> rfl
  | step op next ih =>
      simp only [bind_step, exec_step]
      cases device op s with
      | none => rfl
      | some answered => exact ih answered.1

theorem exec_bind_of_ok {p : Prog Op Ret ε α} {f : α → Prog Op Ret ε β} {value : α}
    (first : p.exec device s = (.ok value, s')) :
    (p.bind f).exec device s = (f value).exec device s' := by
  rw [exec_bind, first]

theorem exec_bind_of_error {p : Prog Op Ret ε α} {f : α → Prog Op Ret ε β} {reason : ε}
    (first : p.exec device s = (.error reason, s')) :
    (p.bind f).exec device s = (.error reason, s') := by
  rw [exec_bind, first]

theorem exec_attempt {p : Prog Op Ret ε α} :
    (p.attempt : Prog Op Ret ε' (Except ε α)).exec device s =
      match p.exec device s with
      | (.ok value, mid) => (.ok (.ok value), mid)
      | (.error reason, mid) => (.ok (.error reason), mid)
      | (.panic, mid) => (.panic, mid)
      | (.pending, mid) => (.pending, mid) := by
  induction p generalizing s with
  | done outcome => cases outcome <;> rfl
  | step op next ih =>
      simp only [attempt, exec_step]
      cases device op s with
      | none => rfl
      | some answered => exact ih answered.1

/-- Where every answer of the device is one that the handler may give, an execution that meets no
fault is a run. -/
theorem runs_of_exec {τ : Type} {machine : Device Op Ret τ} {view : τ → σ}
    (sound : ∀ op t answer t', machine op t = some (answer, t') →
      handler op (view t) answer (view t'))
    {p : Prog Op Ret ε α} {t t' : τ} {out : Outcome ε α} (run : p.exec machine t = (out, t'))
    (answered : out ≠ .panic) : p.Runs handler (view t) out (view t') := by
  induction p generalizing t with
  | done outcome =>
      rw [exec_done, Prod.mk.injEq] at run
      exact ⟨run.1.symm, congrArg view run.2.symm⟩
  | step op next ih =>
      rw [exec_step] at run
      split at run
      · cases run
        exact absurd rfl answered
      · next answer mid given =>
          exact ⟨answer, view mid, sound op t answer mid given, ih answer run⟩

/-- The state in which the execution first has an answer that is `seen`. -/
def meets (device : Device Op Ret σ) (seen : (op : Op) → Ret op → Bool) :
    Prog Op Ret ε α → σ → Option σ
  | .done _, _ => none
  | .step op next, s =>
      match device op s with
      | none => none
      | some (answer, s') =>
          if seen op answer then some s' else (next answer).meets device seen s'

@[simp] theorem meets_done {seen : (op : Op) → Ret op → Bool} {outcome : Outcome ε α} :
    (done outcome : Prog Op Ret ε α).meets device seen s = none := rfl

theorem meets_step_of_answer {seen : (op : Op) → Ret op → Bool} {op : Op}
    {next : Ret op → Prog Op Ret ε α} {answer : Ret op}
    (answered : device op s = some (answer, s')) :
    (step op next).meets device seen s =
      if seen op answer then some s' else (next answer).meets device seen s' := by
  rw [meets, answered]

theorem meets_step_of_refused {seen : (op : Op) → Ret op → Bool} {op : Op}
    {next : Ret op → Prog Op Ret ε α} (refused : device op s = none) :
    (step op next).meets device seen s = none := by
  rw [meets, refused]

theorem exec_step_of_refused {op : Op} {next : Ret op → Prog Op Ret ε α}
    (refused : device op s = none) : (step op next).exec device s = (.panic, s) := by
  rw [exec_step, refused]

/-! ## Fixed answers -/

section Fixed

variable {answer : (op : Op) → Ret op}

/-- How the program ends when every operation has one answer. -/
def outcome (answer : (op : Op) → Ret op) : Prog Op Ret ε α → Outcome ε α
  | .done outcome => outcome
  | .step op next => (next (answer op)).outcome answer

@[simp] theorem outcome_step {op : Op} {next : Ret op → Prog Op Ret ε α} :
    (step op next).outcome answer = (next (answer op)).outcome answer := rfl

theorem outcome_bind {p : Prog Op Ret ε α} {f : α → Prog Op Ret ε β} :
    (p.bind f).outcome answer =
      match p.outcome answer with
      | .ok value => (f value).outcome answer
      | .error reason => .error reason
      | .panic => .panic
      | .pending => .pending := by
  induction p with
  | done end_ => cases end_ <;> rfl
  | step op next ih => exact ih _

/-- A run with fixed answers ends as they say. -/
theorem runs_fixed {p : Prog Op Ret ε α} {s s' : σ} {out : Outcome ε α} :
    p.Runs (fun op s given s' => given = answer op ∧ s' = s) s out s' ↔
      out = p.outcome answer ∧ s' = s := by
  induction p with
  | done outcome => exact Iff.rfl
  | step op next ih =>
      rw [runs_step]
      constructor
      · rintro ⟨given, mid, ⟨rfl, rfl⟩, rest⟩
        exact (ih _).mp rest
      · intro ended
        exact ⟨answer op, s, ⟨rfl, rfl⟩, (ih _).mpr ended⟩

/-- No way through the program performs an operation twice, or one of `past` at all. -/
def Once (past : Op → Prop) : Prog Op Ret ε α → Prop
  | .done _ => True
  | .step op next =>
      ¬ past op ∧ ∀ answer, (next answer).Once fun other => past other ∨ other = op

/-- Where no operation is performed twice, every run ends like the one with some fixed answers. -/
theorem Once.outcome_of_runs [DecidableEq Op] {past : Op → Prop} {p : Prog Op Ret ε α}
    {handler : Handler Op Ret σ} {s s' : σ} {out : Outcome ε α} (once : p.Once past)
    (known : (op : Op) → Ret op) (run : p.Runs handler s out s') :
    ∃ answer : (op : Op) → Ret op, (∀ op, past op → answer op = known op) ∧
      p.outcome answer = out := by
  induction p generalizing past known s with
  | done end_ => exact ⟨known, fun _ _ => rfl, run.1.symm⟩
  | step op next ih =>
      obtain ⟨fresh, once⟩ := once
      obtain ⟨given, mid, _, rest⟩ := run
      obtain ⟨answer, kept, ended⟩ := ih given (once given) (Function.update known op given) rest
      have here : answer op = given := by
        rw [kept op (.inr rfl), Function.update_self]
      have before : ∀ other, past other → answer other = known other := by
        intro other asked
        have apart : other ≠ op := fun same => fresh (same ▸ asked)
        rw [kept other (.inl asked), Function.update_of_ne apart]
      exact ⟨answer, before, by rw [outcome_step, here, ended]⟩

/-- Each of those answers was given in the run, or is the known one. -/
theorem Once.answered_of_runs [DecidableEq Op] {past : Op → Prop} {p : Prog Op Ret ε α}
    {handler : Handler Op Ret σ} {s s' : σ} {out : Outcome ε α} (once : p.Once past)
    (known : (op : Op) → Ret op) (run : p.Runs handler s out s') :
    ∃ answer : (op : Op) → Ret op, (∀ op, past op → answer op = known op) ∧
      p.outcome answer = out ∧
      ∀ op, answer op = known op ∨ ∃ t t', handler op t (answer op) t' := by
  induction p generalizing past known s with
  | done end_ => exact ⟨known, fun _ _ => rfl, run.1.symm, fun _ => .inl rfl⟩
  | step op next ih =>
      obtain ⟨fresh, once⟩ := once
      obtain ⟨given, mid, handled, rest⟩ := run
      obtain ⟨answer, kept, ended, answered⟩ :=
        ih given (once given) (Function.update known op given) rest
      have here : answer op = given := by
        rw [kept op (.inr rfl), Function.update_self]
      refine ⟨answer, fun other asked => ?_, by rw [outcome_step, here, ended], fun other => ?_⟩
      · have apart : other ≠ op := fun same => fresh (same ▸ asked)
        rw [kept other (.inl asked), Function.update_of_ne apart]
      · by_cases same : other = op
        · subst same
          exact .inr ⟨s, mid, here.symm ▸ handled⟩
        · rw [← Function.update_of_ne same given known]
          exact answered other

end Fixed

/-! ## Death between two stores -/

section Death

variable {isStore : Op → Bool} {survived : Nat}

/-- The number of stores in the run. -/
def stores (device : Device Op Ret σ) (isStore : Op → Bool) : Prog Op Ret ε α → σ → Nat
  | .done _, _ => 0
  | .step op next, s =>
      match device op s with
      | none => 0
      | some (answer, s') =>
          (next answer).stores device isStore s' + if isStore op then 1 else 0

/-- The state left behind by a run that dies having made `survived` stores, right before its next
one. A run that makes no more stores dies at its end. -/
def died (device : Device Op Ret σ) (isStore : Op → Bool) :
    (survived : Nat) → Prog Op Ret ε α → σ → σ
  | _, .done _, s => s
  | survived, .step op next, s =>
      match device op s with
      | none => s
      | some (answer, s') =>
          if isStore op then
            match survived with
            | 0 => s
            | survived + 1 => (next answer).died device isStore survived s'
          else (next answer).died device isStore survived s'

theorem died_store_zero {op : Op} {next : Ret op → Prog Op Ret ε α} {answer : Ret op}
    (answered : device op s = some (answer, s')) (store : isStore op = true) :
    (step op next).died device isStore 0 s = s := by
  simp only [died, answered, if_pos store]

theorem died_store_succ {op : Op} {next : Ret op → Prog Op Ret ε α} {answer : Ret op}
    (answered : device op s = some (answer, s')) (store : isStore op = true) :
    (step op next).died device isStore (survived + 1) s =
      (next answer).died device isStore survived s' := by
  simp only [died, answered, if_pos store]

theorem died_step_of_quiet {op : Op} {next : Ret op → Prog Op Ret ε α} {answer : Ret op}
    (answered : device op s = some (answer, s')) (quiet : ¬ isStore op = true) :
    (step op next).died device isStore survived s =
      (next answer).died device isStore survived s' := by
  simp only [died, answered, if_neg quiet]

theorem stores_step {op : Op} {next : Ret op → Prog Op Ret ε α} {answer : Ret op}
    (answered : device op s = some (answer, s')) :
    (step op next).stores device isStore s =
      (next answer).stores device isStore s' + if isStore op then 1 else 0 := by
  simp only [stores, answered]

/-- A run that outlives its last store leaves the state of the execution. -/
theorem died_of_stores_le {p : Prog Op Ret ε α} (all : p.stores device isStore s ≤ survived) :
    p.died device isStore survived s = (p.exec device s).2 := by
  induction p generalizing s survived with
  | done outcome => rfl
  | step op next ih =>
      simp only [stores] at all
      simp only [died, exec_step]
      cases answered : device op s with
      | none => rfl
      | some answer =>
          simp only [answered] at all
          by_cases store : isStore op = true
          · rw [if_pos store] at all
            cases survived with
            | zero => omega
            | succ survived =>
                simp only [if_pos store]
                exact ih _ (by omega)
          · rw [if_neg store] at all
            simp only [if_neg store]
            exact ih _ all

theorem stores_bind {p : Prog Op Ret ε α} {f : α → Prog Op Ret ε β} {value : α}
    (first : p.exec device s = (.ok value, s')) :
    (p.bind f).stores device isStore s =
      p.stores device isStore s + (f value).stores device isStore s' := by
  induction p generalizing s with
  | done outcome =>
      cases first
      exact (Nat.zero_add _).symm
  | step op next ih =>
      rw [exec_step] at first
      simp only [bind_step, stores]
      cases answered : device op s with
      | none =>
          rw [answered] at first
          cases first
      | some answer =>
          rw [answered] at first
          simp only [ih answer.1 first]
          omega

theorem stores_bind_of_error {p : Prog Op Ret ε α} {f : α → Prog Op Ret ε β} {reason : ε}
    (first : p.exec device s = (.error reason, s')) :
    (p.bind f).stores device isStore s = p.stores device isStore s := by
  induction p generalizing s with
  | done outcome =>
      cases first
      rfl
  | step op next ih =>
      rw [exec_step] at first
      simp only [bind_step, stores]
      cases answered : device op s with
      | none => rfl
      | some answer =>
          rw [answered] at first
          simp only [ih answer.1 first]

/-- A sequence dies in its first part, or in its second when the first part is over. -/
theorem died_bind {p : Prog Op Ret ε α} {f : α → Prog Op Ret ε β} {value : α}
    (first : p.exec device s = (.ok value, s')) :
    (p.bind f).died device isStore survived s =
      if survived < p.stores device isStore s then p.died device isStore survived s
      else (f value).died device isStore (survived - p.stores device isStore s) s' := by
  induction p generalizing s survived with
  | done outcome =>
      cases first
      rfl
  | step op next ih =>
      rw [exec_step] at first
      simp only [bind_step, died, stores]
      cases answered : device op s with
      | none =>
          rw [answered] at first
          cases first
      | some answer =>
          rw [answered] at first
          by_cases store : isStore op = true
          · simp only [if_pos store]
            cases survived with
            | zero => rw [if_pos (by omega)]
            | succ survived =>
                simp only [ih answer.1 first, Nat.add_lt_add_iff_right, Nat.add_sub_add_right]
          · simp only [if_neg store, Nat.add_zero, ih answer.1 first]

/-- A first part without stores is over before the first death. -/
theorem died_bind_of_quiet {p : Prog Op Ret ε α} {f : α → Prog Op Ret ε β} {value : α}
    (first : p.exec device s = (.ok value, s')) (quiet : p.stores device isStore s = 0) :
    (p.bind f).died device isStore survived s = (f value).died device isStore survived s' := by
  rw [died_bind first, quiet, if_neg (Nat.not_lt_zero _), Nat.sub_zero]

/-- A second part that changes nothing leaves the deaths of the first. -/
theorem died_bind_quiet {p : Prog Op Ret ε α} {f : α → Prog Op Ret ε β} {value : α}
    (first : p.exec device s = (.ok value, s'))
    (quiet : (f value).stores device isStore s' = 0) (same : ((f value).exec device s').2 = s') :
    (p.bind f).died device isStore survived s = p.died device isStore survived s := by
  rw [died_bind first]
  split
  · rfl
  · rw [died_of_stores_le (by omega), same, died_of_stores_le (by omega), first]

end Death

/-! ## What holds of every run -/

/-- Every run from the state ends with a value and in a state as `value` demands, or without a
value and as `stop` demands. -/
def Ensures (handler : Handler Op Ret σ) (value : α → σ → Prop) (stop : Stop ε → σ → Prop) :
    Prog Op Ret ε α → σ → Prop
  | .done outcome, s => outcome.Ended (fun result => value result s) (fun end_ => stop end_ s)
  | .step op next, s =>
      ∀ answer s', handler op s answer s' → (next answer).Ensures handler value stop s'

section Ensures

variable {value value' : α → σ → Prop} {stop stop' : Stop ε → σ → Prop}

theorem Ensures.of_runs {p : Prog Op Ret ε α} {out : Outcome ε α}
    (ensured : p.Ensures handler value stop s) (run : p.Runs handler s out s') :
    out.Ended (fun result => value result s') (fun end_ => stop end_ s') := by
  induction p generalizing s with
  | done outcome =>
      rcases run with ⟨rfl, rfl⟩
      exact ensured
  | step op next ih =>
      rcases run with ⟨answer, mid, answered, rest⟩
      exact ih answer (ensured answer mid answered) rest

/-- A predicate that holds however the run ends. -/
theorem Ensures.always {p : Prog Op Ret ε α} {post : σ → Prop} {out : Outcome ε α}
    (ensured : p.Ensures handler (fun _ => post) (fun _ => post) s)
    (run : p.Runs handler s out s') : post s' := by
  have ended := ensured.of_runs run
  cases out <;> exact ended

theorem Ensures.mono {p : Prog Op Ret ε α} (ensured : p.Ensures handler value stop s)
    (values : ∀ result s', value result s' → value' result s')
    (stops : ∀ end_ s', stop end_ s' → stop' end_ s') : p.Ensures handler value' stop' s := by
  induction p generalizing s with
  | done outcome =>
      cases outcome with
      | ok result => exact values _ _ ensured
      | error reason => exact stops _ _ ensured
      | panic => exact stops _ _ ensured
      | pending => exact stops _ _ ensured
  | step op next ih => exact fun answer mid answered => ih answer (ensured answer mid answered)

/-- A sequence ensures what its first part ensures about the second. -/
theorem ensures_bind {p : Prog Op Ret ε β} {f : β → Prog Op Ret ε α} :
    (p.bind f).Ensures handler value stop s ↔
      p.Ensures handler (fun result mid => (f result).Ensures handler value stop mid) stop s := by
  induction p generalizing s with
  | done outcome => cases outcome <;> exact Iff.rfl
  | step op next ih => exact forall₂_congr fun answer mid => imp_congr_right fun _ => ih answer

theorem Ensures.bind {first : β → σ → Prop} {p : Prog Op Ret ε β} {f : β → Prog Op Ret ε α}
    (ensured : p.Ensures handler first stop s)
    (rest : ∀ result mid, first result mid → (f result).Ensures handler value stop mid) :
    (p.bind f).Ensures handler value stop s :=
  ensures_bind.mpr (ensured.mono rest fun _ _ => id)

/-- Of a program whose error is handed on, that error is demanded as a value. -/
theorem ensures_attempt {p : Prog Op Ret ε α} {value : Except ε α → σ → Prop}
    {stop : Stop ε' → σ → Prop} :
    (p.attempt : Prog Op Ret ε' (Except ε α)).Ensures handler value stop s ↔
      p.Ensures handler (fun result mid => value (.ok result) mid)
        (fun end_ mid => end_.Caught (fun reason => value (.error reason) mid) fun end_ =>
          stop end_ mid) s := by
  induction p generalizing s with
  | done outcome => cases outcome <;> exact Iff.rfl
  | step op next ih => exact forall₂_congr fun answer mid => imp_congr_right fun _ => ih answer

/-- One operation and what follows it. -/
theorem ensures_perform {op : Op} {f : Ret op → Prog Op Ret ε α} :
    ((perform op).bind f).Ensures handler value stop s ↔
      ∀ answer mid, handler op s answer mid → (f answer).Ensures handler value stop mid := Iff.rfl

end Ensures

/-! ## Programs confined to some operations -/

/-- Every operation that the program may perform satisfies `allowed`, and the program is never
abandoned. -/
def Performs (allowed : Op → Prop) : Prog Op Ret ε α → Prop
  | .done outcome => outcome ≠ .pending
  | .step op next => allowed op ∧ ∀ answer, (next answer).Performs allowed

variable {allowed : Op → Prop}

@[simp] theorem performs_done {outcome : Outcome ε α} :
    (done outcome : Prog Op Ret ε α).Performs allowed ↔ outcome ≠ .pending := Iff.rfl

@[simp] theorem performs_throw {reason : ε} :
    (throw reason : Prog Op Ret ε α).Performs allowed := by
  simp [throw]

@[simp] theorem performs_panic : (panic : Prog Op Ret ε α).Performs allowed := by
  simp [panic]

@[simp] theorem performs_step {op : Op} {next : Ret op → Prog Op Ret ε α} :
    (step op next).Performs allowed ↔ allowed op ∧ ∀ answer, (next answer).Performs allowed :=
  Iff.rfl

@[simp] theorem performs_ofExcept {result : Except ε α} :
    (ofExcept result : Prog Op Ret ε α).Performs allowed := by
  cases result <;> simp [ofExcept]

theorem Performs.bind {p : Prog Op Ret ε α} {f : α → Prog Op Ret ε β}
    (first : p.Performs allowed) (rest : ∀ value, (f value).Performs allowed) :
    (p.bind f).Performs allowed := by
  induction p with
  | done outcome =>
      cases outcome with
      | ok value => exact rest value
      | error reason => simp
      | panic => simp
      | pending => exact absurd rfl first
  | step op next ih => exact ⟨first.1, fun answer => ih answer (first.2 answer)⟩

theorem Performs.mono {weaker : Op → Prop} {p : Prog Op Ret ε α} (confined : p.Performs allowed)
    (weaken : ∀ op, allowed op → weaker op) : p.Performs weaker := by
  induction p with
  | done outcome => exact confined
  | step op next ih => exact ⟨weaken op confined.1, fun answer => ih answer (confined.2 answer)⟩

theorem Performs.collectFrom {body : Nat → Prog Op Ret ε α}
    (passes : ∀ index, (body index).Performs allowed) (start count : Nat) :
    (Prog.collectFrom body start count).Performs allowed := by
  induction count generalizing start with
  | zero => simp [Prog.collectFrom]
  | succ count ih => exact (passes start).bind fun _ => (ih (start + 1)).bind fun _ => by simp

/-- What every answer to an allowed operation keeps, a run confined to them keeps. -/
theorem Runs.preserves_of_performs (invariant : σ → Prop)
    (kept : ∀ op s answer s', allowed op → invariant s → handler op s answer s' → invariant s')
    {p : Prog Op Ret ε α} {out : Outcome ε α} (confined : p.Performs allowed)
    (run : p.Runs handler s out s') (holds : invariant s) : invariant s' := by
  induction p generalizing s with
  | done outcome => exact run.2 ▸ holds
  | step op next ih =>
      obtain ⟨answer, mid, answered, rest⟩ := run
      exact ih answer (confined.2 answer) rest (kept op s answer mid confined.1 holds answered)

theorem Performs.exec_ne_pending {p : Prog Op Ret ε α} (confined : p.Performs allowed)
    (device : Device Op Ret σ) (s : σ) :
    (p.exec device s).1 ≠ .pending := by
  induction p generalizing s with
  | done outcome => exact confined
  | step op next ih =>
      rw [exec_step]
      split
      · simp
      · exact ih _ (confined.2 _) _

/-- Every operation that the program may perform satisfies `allowed`; it may be abandoned. -/
def Uses (allowed : Op → Prop) : Prog Op Ret ε α → Prop
  | .done _ => True
  | .step op next => allowed op ∧ ∀ answer, (next answer).Uses allowed

@[simp] theorem uses_done {outcome : Outcome ε α} :
    (done outcome : Prog Op Ret ε α).Uses allowed := trivial

@[simp] theorem uses_throw {reason : ε} : (throw reason : Prog Op Ret ε α).Uses allowed := trivial

@[simp] theorem uses_pending : (pending : Prog Op Ret ε α).Uses allowed := trivial

theorem uses_perform {op : Op} (admitted : allowed op) :
    (perform op : Prog Op Ret ε (Ret op)).Uses allowed := ⟨admitted, fun _ => trivial⟩

theorem uses_perform_bind {op : Op} {f : Ret op → Prog Op Ret ε α} (admitted : allowed op)
    (rest : ∀ answer, (f answer).Uses allowed) : ((perform op).bind f).Uses allowed :=
  ⟨admitted, rest⟩

theorem Uses.bind {p : Prog Op Ret ε α} {f : α → Prog Op Ret ε β} (first : p.Uses allowed)
    (rest : ∀ value, (f value).Uses allowed) : (p.bind f).Uses allowed := by
  induction p with
  | done outcome =>
      cases outcome with
      | ok value => exact rest value
      | error reason => exact trivial
      | panic => exact trivial
      | pending => exact trivial
  | step op next ih => exact ⟨first.1, fun answer => ih answer (first.2 answer)⟩

theorem Uses.mono {weaker : Op → Prop} {p : Prog Op Ret ε α} (uses : p.Uses allowed)
    (weaken : ∀ op, allowed op → weaker op) : p.Uses weaker := by
  induction p with
  | done outcome => exact trivial
  | step op next ih => exact ⟨weaken op uses.1, fun answer => ih answer (uses.2 answer)⟩

/-- What every answer to an allowed operation keeps is ensured of a program that uses no other. -/
theorem Uses.ensures {invariant : σ → Prop}
    (kept : ∀ op s answer s', allowed op → invariant s → handler op s answer s' → invariant s')
    {p : Prog Op Ret ε α} (uses : p.Uses allowed) (holds : invariant s) :
    p.Ensures handler (fun _ => invariant) (fun _ => invariant) s := by
  induction p generalizing s with
  | done outcome => cases outcome <;> exact holds
  | step op next ih =>
      intro answer mid answered
      exact ih answer (uses.2 answer) (kept op s answer mid uses.1 holds answered)

theorem uses_ofExcept {result : Except ε α} :
    (ofExcept result : Prog Op Ret ε α).Uses allowed := by
  cases result <;> trivial

theorem Uses.attempt {p : Prog Op Ret ε α} (uses : p.Uses allowed) :
    (p.attempt : Prog Op Ret ε' (Except ε α)).Uses allowed := by
  induction p with
  | done outcome => cases outcome <;> trivial
  | step op next ih => exact ⟨uses.1, fun answer => ih answer (uses.2 answer)⟩

/-- Answers that agree on the operations of a program are all the same to it. -/
theorem Uses.outcome_congr {answer answer' : (op : Op) → Ret op} {p : Prog Op Ret ε α}
    (uses : p.Uses allowed) (agree : ∀ op, allowed op → answer op = answer' op) :
    p.outcome answer = p.outcome answer' := by
  induction p with
  | done outcome => rfl
  | step op next ih =>
      rw [outcome_step, outcome_step, agree op uses.1]
      exact ih _ (uses.2 _)

/-! ## Errors -/

/-- Every error that the program may end with satisfies `blamed`. -/
def Blames (blamed : ε → Prop) : Prog Op Ret ε α → Prop
  | .done outcome => ∀ reason, outcome = .error reason → blamed reason
  | .step _ next => ∀ answer, (next answer).Blames blamed

section Blames

variable {blamed : ε → Prop}

@[simp] theorem blames_ok {value : α} :
    (done (.ok value) : Prog Op Ret ε α).Blames blamed := fun _ same => by cases same

@[simp] theorem blames_panic : (panic : Prog Op Ret ε α).Blames blamed :=
  fun _ same => by cases same

theorem blames_throw {reason : ε} (fault : blamed reason) :
    (throw reason : Prog Op Ret ε α).Blames blamed := by
  intro other same
  cases same
  exact fault

theorem Blames.bind {p : Prog Op Ret ε α} {f : α → Prog Op Ret ε β} (first : p.Blames blamed)
    (rest : ∀ value, (f value).Blames blamed) : (p.bind f).Blames blamed := by
  induction p with
  | done outcome =>
      cases outcome with
      | ok value => exact rest value
      | error reason => exact blames_throw (first reason rfl)
      | panic => exact blames_panic
      | pending => exact fun _ same => by cases same
  | step op next ih => exact fun answer => ih answer (first answer)

theorem Blames.collectFrom {body : Nat → Prog Op Ret ε α}
    (passes : ∀ index, (body index).Blames blamed) (start count : Nat) :
    (Prog.collectFrom body start count).Blames blamed := by
  induction count generalizing start with
  | zero => simp [Prog.collectFrom]
  | succ count ih => exact (passes start).bind fun _ => (ih (start + 1)).bind fun _ => by simp

theorem Blames.exec {p : Prog Op Ret ε α} (blames : p.Blames blamed) {reason : ε}
    (ended : (p.exec device s).1 = .error reason) : blamed reason := by
  induction p generalizing s with
  | done outcome => exact blames reason ended
  | step op next ih =>
      rw [exec_step] at ended
      split at ended
      · cases ended
      · exact ih _ (blames _) ended

end Blames

/-! ## Faults -/

/-- The execution ends in a fault. -/
def Crashes (device : Device Op Ret σ) (p : Prog Op Ret ε α) (s : σ) : Prop :=
  (p.exec device s).1 = .panic

/-- The execution ends in a value or an error of the program's own. -/
def Returns (device : Device Op Ret σ) (p : Prog Op Ret ε α) (s : σ) : Prop :=
  (∃ value, (p.exec device s).1 = .ok value) ∨ ∃ reason, (p.exec device s).1 = .error reason

theorem returns_iff_not_crashes {p : Prog Op Ret ε α} (confined : p.Performs allowed) :
    Returns device p s ↔ ¬ Crashes device p s := by
  have finished := confined.exec_ne_pending device s
  unfold Returns Crashes
  cases h : (p.exec device s).1 <;> simp_all

@[simp] theorem crashes_done {outcome : Outcome ε α} :
    Crashes device (done outcome : Prog Op Ret ε α) s ↔ outcome = .panic := Iff.rfl

@[simp] theorem not_crashes_throw {reason : ε} :
    ¬ Crashes device (throw reason : Prog Op Ret ε α) s := by
  simp [Crashes]

@[simp] theorem not_crashes_ofExcept {result : Except ε α} :
    ¬ Crashes device (ofExcept result : Prog Op Ret ε α) s := by
  cases result <;> simp [ofExcept]

theorem crashes_bind_of_ok {p : Prog Op Ret ε α} {f : α → Prog Op Ret ε β} {value : α}
    (first : p.exec device s = (.ok value, s')) :
    Crashes device (p.bind f) s ↔ Crashes device (f value) s' := by
  rw [Crashes, exec_bind_of_ok first, Crashes]

/-- A sequence faults in its first part, or in its second after the first gave a value. -/
theorem crashes_bind {p : Prog Op Ret ε α} {f : α → Prog Op Ret ε β} :
    Crashes device (p.bind f) s ↔
      Crashes device p s ∨
        ∃ value mid, p.exec device s = (.ok value, mid) ∧ Crashes device (f value) mid := by
  unfold Crashes
  rw [exec_bind]
  rcases p.exec device s with ⟨outcome, mid⟩
  cases outcome with
  | ok value =>
      constructor
      · exact fun fault => .inr ⟨value, mid, rfl, fault⟩
      · rintro (fault | ⟨value', mid', same, fault⟩)
        · cases fault
        · cases same
          exact fault
  | error reason => simp
  | panic => simp
  | pending => simp

end Prog

end Netsystem
