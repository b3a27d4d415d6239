import Netsystem.Program

/-!
# Verdicts on an execution

`Verdict device p s sound defect value` settles how `p` ends on the device in the state `s`: with
`value` and an unchanged state exactly when `sound`, in a fault exactly when `defect`, and
otherwise with an error. Verdicts compose along `bind`, choice and bounded loops, so the verdict
on a program is assembled from those on its parts.
-/

namespace Netsystem

namespace Prog

variable {Op : Type} {Ret : Op → Type} {ε α β σ : Type} {device : Device Op Ret σ} {s s' : σ}

structure Verdict (device : Device Op Ret σ) (p : Prog Op Ret ε α) (s : σ) (sound defect : Prop)
    (value : α) : Prop where
  exec : sound → p.exec device s = (.ok value, s)
  sound : ∀ {value s'}, p.exec device s = (.ok value, s') → sound
  crashes : Crashes device p s ↔ defect

variable {p : Prog Op Ret ε α} {sound defect : Prop} {value : α}

/-! ## Leaves -/

theorem Verdict.ok : Verdict device (done (.ok value) : Prog Op Ret ε α) s True False value where
  exec _ := rfl
  sound _ := trivial
  crashes := by simp

/-- A run that ends in an error is neither sound nor defective, whatever value is named. -/
theorem Verdict.of_error {reason : ε} (run : p.exec device s = (.error reason, s'))
    (unsound : ¬ sound) (calm : ¬ defect) : Verdict device p s sound defect value where
  exec holds := absurd holds unsound
  sound returned := by
    rw [run] at returned
    cases returned
  crashes := by simp [Crashes, run, calm]

theorem Verdict.of_ok (run : p.exec device s = (.ok value, s)) (holds : sound) (calm : ¬ defect) :
    Verdict device p s sound defect value where
  exec _ := run
  sound _ := holds
  crashes := by simp [Crashes, run, calm]

theorem Verdict.of_panic (run : p.exec device s = (.panic, s')) (unsound : ¬ sound)
    (fault : defect) : Verdict device p s sound defect value where
  exec holds := absurd holds unsound
  sound returned := by
    rw [run] at returned
    cases returned
  crashes := by simp [Crashes, run, fault]

theorem Verdict.congr {sound' defect' : Prop} {value' : α}
    (verdict : Verdict device p s sound defect value) (same : sound ↔ sound')
    (alike : defect ↔ defect') (equal : sound → value = value') :
    Verdict device p s sound' defect' value' where
  exec holds := by rw [verdict.exec (same.mpr holds), equal (same.mpr holds)]
  sound returned := same.mp (verdict.sound returned)
  crashes := verdict.crashes.trans alike

/-- A run that is neither sound nor defective, and not abandoned, ends in an error. -/
theorem Verdict.error_of_neither (verdict : Verdict device p s sound defect value)
    (finished : (p.exec device s).1 ≠ .pending) (unsound : ¬ sound) (calm : ¬ defect) :
    ∃ reason, (p.exec device s).1 = .error reason := by
  cases ended : p.exec device s with
  | mk outcome mid =>
      cases outcome with
      | ok result => exact absurd (verdict.sound ended) unsound
      | error reason => exact ⟨reason, rfl⟩
      | panic => exact absurd (verdict.crashes.mp (by rw [Crashes, ended])) calm
      | pending => exact absurd (by rw [ended]) finished

theorem Verdict.disjoint (verdict : Verdict device p s sound defect value) (holds : sound) :
    ¬ defect := by
  intro fault
  have crash := verdict.crashes.mpr fault
  rw [Crashes, verdict.exec holds] at crash
  cases crash

/-! ## Composition -/

/-- A sequence faults in its judged first part, or in what follows the value of that part. -/
theorem Verdict.crashes_bind {f : α → Prog Op Ret ε β}
    (first : Verdict device p s sound defect value) :
    Crashes device (p.bind f) s ↔ defect ∨ sound ∧ Crashes device (f value) s := by
  rw [Prog.crashes_bind, first.crashes]
  constructor
  · rintro (fault | ⟨middle, mid, ended, fault⟩)
    · exact .inl fault
    · have holds := first.sound ended
      rw [first.exec holds] at ended
      cases ended
      exact .inr ⟨holds, fault⟩
  · rintro (fault | ⟨holds, fault⟩)
    · exact .inl fault
    · exact .inr ⟨value, s, first.exec holds, fault⟩

/-- The second part is judged at the value of the first. -/
theorem Verdict.bind {f : α → Prog Op Ret ε β} {sound' defect' : Prop} {value' : β}
    (first : Verdict device p s sound defect value)
    (rest : sound → Verdict device (f value) s sound' defect' value') :
    Verdict device (p.bind f) s (sound ∧ sound') (defect ∨ sound ∧ defect') value' where
  exec holds := by
    rw [exec_bind_of_ok (first.exec holds.1)]
    exact (rest holds.1).exec holds.2
  sound {result final} run := by
    rw [exec_bind] at run
    cases ended : p.exec device s with
    | mk outcome mid =>
        rw [ended] at run
        cases outcome with
        | ok middle =>
            have holds := first.sound ended
            rw [first.exec holds] at ended
            cases ended
            exact ⟨holds, (rest holds).sound run⟩
        | error reason => cases run
        | panic => cases run
        | pending => cases run
  crashes := first.crashes_bind.trans
    (or_congr_right (and_congr_right fun holds => (rest holds).crashes))

/-- A second part that always succeeds changes the value only. -/
theorem Verdict.bind_of_ok {f : α → Prog Op Ret ε β} {value' : β}
    (first : Verdict device p s sound defect value)
    (rest : sound → (f value).exec device s = (.ok value', s)) :
    Verdict device (p.bind f) s sound defect value' :=
  (first.bind fun holds => Verdict.of_ok (rest holds) trivial not_false).congr
    (by simp) (by simp) fun _ => rfl

/-- Where the first part gives no value, the second does not count. -/
theorem Verdict.bind_of_unsound {f : α → Prog Op Ret ε β} {value' : β}
    (first : Verdict device p s sound defect value) (unsound : ¬ sound) :
    Verdict device (p.bind f) s sound defect value' :=
  first.bind_of_ok fun holds => absurd holds unsound

/-- A bounded loop is sound when its passes are, and faults at the first unsound pass when that
pass is defective. -/
theorem Verdict.collect {body : Nat → Prog Op Ret ε α} {sound defect : Nat → Prop}
    {value : Nat → α} (start count : Nat)
    (passes : ∀ index, Verdict device (body index) s (sound index) (defect index) (value index)) :
    Verdict device (collectFrom body start count) s
      (∀ index, start ≤ index → index < start + count → sound index)
      (∃ index, start ≤ index ∧ index < start + count ∧
        (∀ earlier, start ≤ earlier → earlier < index → sound earlier) ∧ defect index)
      ((List.range' start count).map value) := by
  induction count generalizing start with
  | zero =>
      refine Verdict.ok.congr ⟨fun _ index low high => by omega, fun _ => trivial⟩ ?_ fun _ => rfl
      exact ⟨False.elim, fun ⟨index, low, high, _⟩ => by omega⟩
  | succ count ih =>
      refine ((passes start).bind fun _ => (ih (start + 1)).bind fun _ => Verdict.ok).congr ?_ ?_
        fun _ => rfl
      · constructor
        · rintro ⟨first, rest, _⟩ index low high
          rcases Nat.eq_or_lt_of_le low with rfl | after
          · exact first
          · exact rest index after (by omega)
        · intro all
          exact ⟨all start (Nat.le_refl start) (by omega),
            fun index low high => all index (by omega) (by omega), trivial⟩
      · constructor
        · rintro (now | ⟨first, (⟨index, low, high, before, later⟩ | ⟨_, never⟩)⟩)
          · exact ⟨start, Nat.le_refl start, by omega, fun earlier low high => by omega, now⟩
          · refine ⟨index, by omega, by omega, fun earlier from_ below => ?_, later⟩
            rcases Nat.eq_or_lt_of_le from_ with rfl | after
            · exact first
            · exact before earlier after below
          · exact never.elim
        · rintro ⟨index, low, high, before, fault⟩
          rcases Nat.eq_or_lt_of_le low with rfl | after
          · exact .inl fault
          · exact .inr ⟨before start (Nat.le_refl start) after, .inl ⟨index, after, by omega,
              fun earlier from_ below => before earlier (by omega) below, fault⟩⟩

end Prog

end Netsystem
