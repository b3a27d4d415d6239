import Netsystem.Verdict

/-!
# Programs that reserve room

`Reserving Op` adds one operation to those of `Op`: reserving room for a counted number of
elements, with a number of bytes left to read them from. A reservation answers nothing, so it does
not change what a program computes; `Prog.erase` is the program without its reservations, and
`Prog.reservations` lists those that its execution on a device makes.

`Prog.Fits`: each reservation is for no more elements than there are bytes left. Along `bind` and
bounded loops the question is answered from verdicts on the erased parts (`Verdict.fits_bind`,
`Verdict.fits_collect`).
-/

namespace Netsystem

/-- Room for `count` elements, reserved with `available` bytes left to read them from. -/
structure Reservation : Type where
  count : Nat
  available : Nat
  deriving DecidableEq, Repr

/-- The bytes left could hold the elements. -/
def Reservation.Covered (made : Reservation) : Prop := made.count ≤ made.available

instance (made : Reservation) : Decidable made.Covered :=
  inferInstanceAs (Decidable (made.count ≤ made.available))

inductive Reserving (Op : Type) : Type where
  | own (op : Op)
  | reserve (made : Reservation)

abbrev Reserving.Ret {Op : Type} (Ret : Op → Type) : Reserving Op → Type
  | .own op => Ret op
  | .reserve _ => Unit

namespace Prog

variable {Op : Type} {Ret : Op → Type} {ε α β σ : Type}

/-- The program as one that might reserve, and does not. -/
def plain : Prog Op Ret ε α → Prog (Reserving Op) (Reserving.Ret Ret) ε α
  | .done outcome => .done outcome
  | .step op next => .step (.own op) fun answer => (next answer).plain

def reserve (count available : Nat) : Prog (Reserving Op) (Reserving.Ret Ret) ε Unit :=
  perform (Reserving.reserve ⟨count, available⟩)

/-- The program without its reservations. -/
def erase : Prog (Reserving Op) (Reserving.Ret Ret) ε α → Prog Op Ret ε α
  | .done outcome => .done outcome
  | .step (.own op) next => .step op fun answer => (next answer).erase
  | .step (.reserve _) next => (next ()).erase

/-- The reservations that the execution makes, in order. -/
def reservations (device : Device Op Ret σ) :
    Prog (Reserving Op) (Reserving.Ret Ret) ε α → σ → List Reservation
  | .done _, _ => []
  | .step (.own op) next, s =>
      match device op s with
      | none => []
      | some (answer, s') => (next answer).reservations device s'
  | .step (.reserve made) next, s => made :: (next ()).reservations device s

/-! ## Erasure -/

section Erasure

variable {p : Prog (Reserving Op) (Reserving.Ret Ret) ε α}
  {f : α → Prog (Reserving Op) (Reserving.Ret Ret) ε β}

@[simp] theorem erase_done {outcome : Outcome ε α} :
    (done outcome : Prog (Reserving Op) (Reserving.Ret Ret) ε α).erase = .done outcome := by
  rw [erase]

@[simp] theorem erase_throw {reason : ε} :
    (throw reason : Prog (Reserving Op) (Reserving.Ret Ret) ε α).erase = throw reason :=
  erase_done

@[simp] theorem erase_plain (p : Prog Op Ret ε α) : p.plain.erase = p := by
  induction p with
  | done outcome => exact erase_done
  | step op next ih => exact congrArg _ (funext ih)

theorem erase_bind : (p.bind f).erase = p.erase.bind fun value => (f value).erase := by
  induction p with
  | done outcome => cases outcome <;> simp
  | step op next ih =>
      cases op with
      | own op => exact congrArg _ (funext ih)
      | reserve made => exact ih ()

@[simp] theorem erase_reserve {count available : Nat} :
    (reserve count available : Prog (Reserving Op) (Reserving.Ret Ret) ε Unit).erase =
      .done (.ok ()) := rfl

theorem erase_collectFrom {body : Nat → Prog (Reserving Op) (Reserving.Ret Ret) ε α}
    (start count : Nat) :
    (collectFrom body start count).erase = collectFrom (fun index => (body index).erase) start
      count := by
  induction count generalizing start with
  | zero => exact erase_done
  | succ count ih =>
      simp only [collectFrom, erase_bind, ih, erase_done]

/-- A loop whose passes reserve nothing. -/
theorem erase_collect_plain {body : Nat → Prog Op Ret ε α} (start count : Nat) :
    (collectFrom (fun index => (body index).plain) start count :
      Prog (Reserving Op) (Reserving.Ret Ret) ε (List α)).erase =
        collectFrom body start count := by
  simp only [erase_collectFrom, erase_plain]

end Erasure

/-! ## What an execution reserves -/

section Reservations

variable {device : Device Op Ret σ} {s s' : σ}
  {p : Prog (Reserving Op) (Reserving.Ret Ret) ε α}
  {f : α → Prog (Reserving Op) (Reserving.Ret Ret) ε β}

@[simp] theorem reservations_done {outcome : Outcome ε α} :
    (done outcome : Prog (Reserving Op) (Reserving.Ret Ret) ε α).reservations device s = [] := by
  rw [reservations]

@[simp] theorem reservations_plain {p : Prog Op Ret ε α} :
    p.plain.reservations device s = [] := by
  induction p generalizing s with
  | done outcome => exact reservations_done
  | step op next ih =>
      rw [plain, reservations]
      cases device op s with
      | none => rfl
      | some answered => exact ih answered.1

/-- The second part reserves only after the first has given a value. -/
theorem reservations_bind :
    (p.bind f).reservations device s = p.reservations device s ++
      match p.erase.exec device s with
      | (.ok value, mid) => (f value).reservations device mid
      | _ => [] := by
  induction p generalizing s with
  | done outcome => cases outcome <;> simp
  | step op next ih =>
      cases op with
      | own op =>
          simp only [bind_step, reservations, erase, exec_step]
          cases device op s with
          | none => rfl
          | some answered => exact ih answered.1
      | reserve made => exact congrArg (made :: ·) (ih ())

/-- Every reservation of the execution is for no more elements than there are bytes left. -/
def Fits (device : Device Op Ret σ) (p : Prog (Reserving Op) (Reserving.Ret Ret) ε α) (s : σ) :
    Prop :=
  ∀ made ∈ p.reservations device s, made.Covered

instance : Decidable (Fits device p s) :=
  inferInstanceAs (Decidable (∀ made ∈ p.reservations device s, made.Covered))

@[simp] theorem fits_done {outcome : Outcome ε α} :
    Fits device (done outcome : Prog (Reserving Op) (Reserving.Ret Ret) ε α) s := by
  simp [Fits]

@[simp] theorem fits_throw {reason : ε} :
    Fits device (throw reason : Prog (Reserving Op) (Reserving.Ret Ret) ε α) s := fits_done

@[simp] theorem fits_plain {p : Prog Op Ret ε α} : Fits device p.plain s := by
  simp [Fits]

theorem fits_bind :
    Fits device (p.bind f) s ↔ Fits device p s ∧
      ∀ value mid, p.erase.exec device s = (.ok value, mid) → Fits device (f value) mid := by
  simp only [Fits, reservations_bind, List.forall_mem_append]
  refine and_congr_right fun _ => ?_
  rcases p.erase.exec device s with ⟨outcome, mid⟩
  cases outcome <;> simp

@[simp] theorem fits_reserve_bind {count available : Nat}
    {next : Unit → Prog (Reserving Op) (Reserving.Ret Ret) ε α} :
    Fits device ((reserve count available).bind next) s ↔
      count ≤ available ∧ Fits device (next ()) s := List.forall_mem_cons

theorem fits_plain_bind {p : Prog Op Ret ε α} :
    Fits device (p.plain.bind f) s ↔
      ∀ value mid, p.exec device s = (.ok value, mid) → Fits device (f value) mid := by
  simp [fits_bind]

theorem fits_plain_bind_of_ok {p : Prog Op Ret ε α} {value : α}
    (first : p.exec device s = (.ok value, s')) :
    Fits device (p.plain.bind f) s ↔ Fits device (f value) s' := by
  simp [fits_plain_bind, first]

/-- After an error nothing is reserved. -/
theorem fits_plain_bind_of_error {p : Prog Op Ret ε α} {reason : ε}
    (first : p.exec device s = (.error reason, s')) : Fits device (p.plain.bind f) s := by
  simp [fits_plain_bind, first]

/-- A loop whose passes reserve nothing. -/
theorem fits_collect_plain {body : Nat → Prog Op Ret ε α} (start count : Nat) :
    Fits device (collectFrom (fun index => (body index).plain) start count :
      Prog (Reserving Op) (Reserving.Ret Ret) ε (List α)) s := by
  induction count generalizing start s with
  | zero => exact fits_done
  | succ count ih =>
      rw [collectFrom, fits_plain_bind]
      intro head mid _
      exact fits_bind.mpr ⟨ih (start + 1), fun _ _ _ => fits_done⟩

/-- A second part that always fits does not count. -/
theorem fits_bind_of_fits (rest : ∀ value mid, Fits device (f value) mid) :
    Fits device (p.bind f) s ↔ Fits device p s :=
  fits_bind.trans (and_iff_left fun value mid _ => rest value mid)

variable {sound defect : Prop} {value : α}

/-- The second part counts where the erased first part is sound. -/
theorem Verdict.fits_bind (first : Verdict device p.erase s sound defect value) :
    Fits device (p.bind f) s ↔ Fits device p s ∧ (sound → Fits device (f value) s) := by
  rw [Prog.fits_bind]
  refine and_congr_right fun _ => ⟨fun rest holds => rest value s (first.exec holds), ?_⟩
  intro rest other mid ended
  have holds := first.sound ended
  rw [first.exec holds] at ended
  cases ended
  exact rest holds

theorem Verdict.fits_plain_bind {p : Prog Op Ret ε α}
    (first : Verdict device p s sound defect value) :
    Fits device (p.plain.bind f) s ↔ (sound → Fits device (f value) s) := by
  have erased :
      Verdict device (p.plain : Prog (Reserving Op) (Reserving.Ret Ret) ε α).erase s sound
      defect value := by rwa [erase_plain]
  simp [erased.fits_bind]

/-- A bounded loop fits when each pass that it reaches does. -/
theorem Verdict.fits_collect {body : Nat → Prog (Reserving Op) (Reserving.Ret Ret) ε α}
    {sound defect : Nat → Prop} {value : Nat → α} (start count : Nat)
    (passes : ∀ index,
      Verdict device (body index).erase s (sound index) (defect index) (value index)) :
    Fits device (collectFrom body start count) s ↔
      ∀ index, start ≤ index → index < start + count →
        (∀ earlier, start ≤ earlier → earlier < index → sound earlier) →
          Fits device (body index) s := by
  induction count generalizing start with
  | zero => exact ⟨fun _ index low high => by omega, fun _ => fits_done⟩
  | succ count ih =>
      have rest := Verdict.collect (start + 1) count passes
      rw [← erase_collectFrom] at rest
      rw [collectFrom, (passes start).fits_bind, rest.fits_bind, ih (start + 1)]
      constructor
      · rintro ⟨first, later⟩ index low high reached
        rcases Nat.eq_or_lt_of_le low with rfl | after
        · exact first
        · have head := reached start (Nat.le_refl start) after
          exact (later head).1 index after (by omega) fun earlier from_ below =>
            reached earlier (by omega) below
      · intro all
        refine ⟨all start (Nat.le_refl start) (by omega) fun earlier low high => by omega, ?_⟩
        refine fun head => ⟨fun index low high reached => ?_, fun _ => fits_done⟩
        refine all index (by omega) (by omega) fun earlier from_ below => ?_
        rcases Nat.eq_or_lt_of_le from_ with rfl | after
        · exact head
        · exact reached earlier after below

end Reservations

end Prog

end Netsystem
