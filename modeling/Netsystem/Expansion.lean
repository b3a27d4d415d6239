import Netsystem.Program

/-!
# Operations that are programs

`p.expand meaning` is the program `p` with every operation carried out by a program over other
operations. An upper level is a set of operations and what is said of their answers; the lower
level is what carries them out. Where the meaning of every operation does what the upper level
says of it, an execution of the expanded program is one of the program itself
(`exec_expand_of_answers`, `runs_of_exec_expand`). Nothing here names a particular program.
-/

namespace Netsystem.Prog

variable {Op Op' : Type} {Ret : Op → Type} {Ret' : Op' → Type} {ε α β σ τ : Type}
  {meaning : (op : Op) → Prog Op' Ret' ε (Ret op)}

/-- The program with every operation carried out by its meaning. -/
def expand (meaning : (op : Op) → Prog Op' Ret' ε (Ret op)) : Prog Op Ret ε α → Prog Op' Ret' ε α
  | .done outcome => .done outcome
  | .step op next => (meaning op).bind fun answer => (next answer).expand meaning

theorem expand_step {op : Op} {next : Ret op → Prog Op Ret ε α} :
    (step op next).expand meaning = (meaning op).bind fun answer => (next answer).expand
      meaning :=
  rfl

theorem expand_bind (p : Prog Op Ret ε α) (f : α → Prog Op Ret ε β) :
    (p.bind f).expand meaning = (p.expand meaning).bind
      fun value => (f value).expand meaning := by
  induction p with
  | done outcome => cases outcome <;> rfl
  | step op next ih =>
      rw [bind_step, expand_step, expand_step, bind_assoc]
      exact congrArg _ (funext ih)

/-! ## What the lower level performs -/

section Confined

variable {allowed' : Op' → Prop}

/-- A program performs what the meanings of its operations perform. -/
theorem uses_expand {p : Prog Op Ret ε α} (meanings : ∀ op, (meaning op).Uses allowed') :
    (p.expand meaning).Uses allowed' := by
  induction p with
  | done outcome => trivial
  | step op next ih => exact (meanings op).bind ih

end Confined

/-! ## Executions of the lower level -/

section Execution

variable {machine : Device Op' Ret' σ}

/-- Where every operation has one answer and leaves the machine as it was, the expanded program
ends as the program does with those answers. -/
theorem exec_expand_of_answers {answer : (op : Op) → Ret op} {s : σ}
    (answers : ∀ op, (meaning op).exec machine s = (.ok (answer op), s)) (p : Prog Op Ret ε α) :
    (p.expand meaning).exec machine s = (p.outcome answer, s) := by
  induction p with
  | done outcome => rfl
  | step op next ih => rw [expand_step, exec_bind_of_ok (answers op), ih, outcome_step]

/-- Where the meaning of every operation answers as a handler allows, or faults, an execution of
the expanded program is a run of the program, or a fault. -/
theorem runs_of_exec_expand {handler : Handler Op Ret τ} {represents : τ → σ → Prop}
    (sound : ∀ op t s answer s', represents t s → (meaning op).exec machine s = (.ok answer, s') →
      ∃ t', handler op t answer t' ∧ represents t' s')
    (answers : ∀ op s, (∃ answer, ((meaning op).exec machine s).1 = .ok answer) ∨
      Crashes machine (meaning op) s)
    {p : Prog Op Ret ε α} {t : τ} {s s' : σ} {out : Outcome ε α} (start : represents t s)
    (run : (p.expand meaning).exec machine s = (out, s')) :
    (∃ t', p.Runs handler t out t' ∧ represents t' s') ∨ out = .panic := by
  induction p generalizing t s with
  | done outcome =>
      cases run
      exact .inl ⟨t, ⟨rfl, rfl⟩, start⟩
  | step op next ih =>
      rw [expand_step, exec_bind] at run
      rcases met : (meaning op).exec machine s with ⟨middle, mid⟩
      rcases answers op s with ⟨answer, answered⟩ | fault
      · obtain rfl : middle = .ok answer := by rw [← answered, met]
        rw [met] at run
        obtain ⟨t', allowed, represented⟩ := sound op t s answer mid start met
        refine (ih answer represented run).imp_left ?_
        rintro ⟨last, rest, final⟩
        exact ⟨last, ⟨answer, t', allowed, rest⟩, final⟩
      · obtain rfl : middle = .panic := by rw [← fault, met]
        rw [met] at run
        cases run
        exact .inr rfl

end Execution

end Netsystem.Prog
