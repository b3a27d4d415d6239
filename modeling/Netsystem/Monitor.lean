import Mathlib.Data.Set.Insert
import Mathlib.Logic.Function.Basic
import Netsystem.Program

/-!
# Monitors

Any number of threads run programs over one shared state, one mutex and one condition variable.
`Effect` says what an operation does to the monitor, `Step` is one step of one thread, and
`Thread.parked` is a thread that waits on the condition variable. The steps include every
scheduling, and spurious wakeups.

An invariant `I s P` relates the shared state to the calls `P` of the parked threads and must hold
whenever the mutex is free. `Safe` is the condition on a program under which it keeps the
invariant, read off one thread alone: without the mutex a program leaves the shared state alone,
with the mutex it may break the invariant but must restore it before it releases the mutex or
parks. `Runs.invariant` is the rule for whole runs. A condition `allowed` on the single operations
may restrict the runs that are considered.
-/

namespace Netsystem.Monitor

/-- What an operation that answers in `R` does to the monitor. -/
inductive Effect (σ R : Type) : Type where
  | plain (answer : R) (shared : σ)
  | acquire (answer : R)
  | release (answer : R)
  | park (answer : R)
  | broadcast (answer : R)
  | holds (answer : Bool → R)

/-- A thread between two calls, inside one, waiting on the condition variable, or woken and
waiting for the mutex. `calls` are the calls it makes later. -/
inductive Thread (Op : Type) (Ret : Op → Type) (ε α κ : Type) : Type where
  | idle (calls : List κ)
  | running (call : κ) (rest : Prog Op Ret ε α) (calls : List κ)
  | parked (call : κ) (resume : Prog Op Ret ε α) (calls : List κ)
  | woken (call : κ) (resume : Prog Op Ret ε α) (calls : List κ)

structure Pool (Op : Type) (Ret : Op → Type) (ε α κ ι σ : Type) : Type where
  shared : σ
  owner : Option ι
  threads : ι → Thread Op Ret ε α κ

/-- The effects that an operation may have in a shared state. -/
abbrev Behavior (Op : Type) (Ret : Op → Type) (σ : Type) : Type :=
  (op : Op) → σ → Effect σ (Ret op) → Prop

variable {Op : Type} {Ret : Op → Type} {ε α β κ ι σ : Type}

def Thread.wake : Thread Op Ret ε α κ → Thread Op Ret ε α κ
  | .parked call resume calls => .woken call resume calls
  | thread => thread

/-- The calls that are waiting on the condition variable. -/
def Pool.parked (pool : Pool Op Ret ε α κ ι σ) : Set κ :=
  { call | ∃ t resume calls, pool.threads t = .parked call resume calls }

/-- An outcome after which the thread goes on with its next call. -/
def Ends : Outcome ε α → Prop
  | .ok _ => True
  | .error _ => True
  | .panic => False
  | .pending => False

/-! ## Steps -/

section Steps

variable [DecidableEq ι]

/-- The pool in which the thread `t` is replaced. -/
def Pool.set (pool : Pool Op Ret ε α κ ι σ) (t : ι) (thread : Thread Op Ret ε α κ) :
    Pool Op Ret ε α κ ι σ :=
  { pool with threads := Function.update pool.threads t thread }

/-- One step of one thread, with operations that are `allowed` in the shared state and the set of
parked calls before it. -/
inductive Step (behavior : Behavior Op Ret σ) (program : κ → Prog Op Ret ε α)
    (allowed : Op → σ → Set κ → Prop) :
    Pool Op Ret ε α κ ι σ → Pool Op Ret ε α κ ι σ → Prop where
  | start {pool t call calls} (thread : pool.threads t = .idle (call :: calls)) :
      Step behavior program allowed pool (pool.set t (.running call (program call) calls))
  | finish {pool t call outcome calls}
      (thread : pool.threads t = .running call (.done outcome) calls) (ends : Ends outcome) :
      Step behavior program allowed pool (pool.set t (.idle calls))
  | plain {pool t call op next calls answer shared}
      (thread : pool.threads t = .running call (.step op next) calls)
      (may : allowed op pool.shared pool.parked)
      (effect : behavior op pool.shared (.plain answer shared)) :
      Step behavior program allowed pool
        ({ pool with shared := shared }.set t (.running call (next answer) calls))
  | acquire {pool t call op next calls answer}
      (thread : pool.threads t = .running call (.step op next) calls)
      (may : allowed op pool.shared pool.parked)
      (effect : behavior op pool.shared (.acquire answer)) (free : pool.owner = none) :
      Step behavior program allowed pool
        ({ pool with owner := some t }.set t (.running call (next answer) calls))
  | release {pool t call op next calls answer}
      (thread : pool.threads t = .running call (.step op next) calls)
      (may : allowed op pool.shared pool.parked)
      (effect : behavior op pool.shared (.release answer)) :
      Step behavior program allowed pool
        ({ pool with owner := if pool.owner = some t then none else pool.owner }.set t
          (.running call (next answer) calls))
  | park {pool t call op next calls answer}
      (thread : pool.threads t = .running call (.step op next) calls)
      (may : allowed op pool.shared pool.parked)
      (effect : behavior op pool.shared (.park answer)) (owns : pool.owner = some t) :
      Step behavior program allowed pool
        ({ pool with owner := none }.set t (.parked call (next answer) calls))
  | broadcast {pool t call op next calls answer}
      (thread : pool.threads t = .running call (.step op next) calls)
      (may : allowed op pool.shared pool.parked)
      (effect : behavior op pool.shared (.broadcast answer)) :
      Step behavior program allowed pool
        ({ pool with threads := fun u => (pool.threads u).wake }.set t
          (.running call (next answer) calls))
  | holds {pool t call op next calls answer}
      (thread : pool.threads t = .running call (.step op next) calls)
      (may : allowed op pool.shared pool.parked)
      (effect : behavior op pool.shared (.holds answer)) :
      Step behavior program allowed pool
        (pool.set t (.running call (next (answer (decide (pool.owner = some t)))) calls))
  | spurious {pool t call resume calls}
      (thread : pool.threads t = .parked call resume calls) :
      Step behavior program allowed pool (pool.set t (.woken call resume calls))
  | resume {pool t call resume calls}
      (thread : pool.threads t = .woken call resume calls) (free : pool.owner = none) :
      Step behavior program allowed pool
        ({ pool with owner := some t }.set t (.running call resume calls))

/-- Runs of any length. -/
def Runs (behavior : Behavior Op Ret σ) (program : κ → Prog Op Ret ε α)
    (allowed : Op → σ → Set κ → Prop) :
    Pool Op Ret ε α κ ι σ → Pool Op Ret ε α κ ι σ → Prop :=
  Relation.ReflTransGen (Step behavior program allowed)

end Steps

/-! ## Played runs -/

section Play

variable [DecidableEq ι] {behavior : Behavior Op Ret σ} {program : κ → Prog Op Ret ε α}
  {allowed : Op → σ → Set κ → Prop} {pool pool' : Pool Op Ret ε α κ ι σ}

/-- The next step of the thread `t`, where a function picks the effects. A parked thread
sleeps. -/
def Pool.advance (pick : (op : Op) → σ → Option (Effect σ (Ret op)))
    (program : κ → Prog Op Ret ε α) (pool : Pool Op Ret ε α κ ι σ) (t : ι) :
    Option (Pool Op Ret ε α κ ι σ) :=
  match pool.threads t with
  | .idle [] => none
  | .idle (call :: calls) => some (pool.set t (.running call (program call) calls))
  | .running _ (.done (.ok _)) calls => some (pool.set t (.idle calls))
  | .running _ (.done (.error _)) calls => some (pool.set t (.idle calls))
  | .running _ (.done _) _ => none
  | .running call (.step op next) calls =>
      match pick op pool.shared with
      | none => none
      | some (.plain answer shared) =>
          some ({ pool with shared := shared }.set t (.running call (next answer) calls))
      | some (.acquire answer) =>
          if pool.owner = none then
            some ({ pool with owner := some t }.set t (.running call (next answer) calls))
          else none
      | some (.release answer) =>
          some ({ pool with owner := if pool.owner = some t then none else pool.owner }.set t
            (.running call (next answer) calls))
      | some (.park answer) =>
          if pool.owner = some t then
            some ({ pool with owner := none }.set t (.parked call (next answer) calls))
          else none
      | some (.broadcast answer) =>
          some ({ pool with threads := fun u => (pool.threads u).wake }.set t
            (.running call (next answer) calls))
      | some (.holds answer) =>
          some (pool.set t
            (.running call (next (answer (decide (pool.owner = some t)))) calls))
  | .parked _ _ _ => none
  | .woken call resume calls =>
      if pool.owner = none then
        some ({ pool with owner := some t }.set t (.running call resume calls))
      else none

/-- The run in which the threads of `schedule` take their steps in turn. -/
def Pool.play (pick : (op : Op) → σ → Option (Effect σ (Ret op)))
    (program : κ → Prog Op Ret ε α) (pool : Pool Op Ret ε α κ ι σ) (schedule : List ι) :
    Option (Pool Op Ret ε α κ ι σ) :=
  schedule.foldlM (Pool.advance pick program) pool

theorem step_of_advance {pick : (op : Op) → σ → Option (Effect σ (Ret op))}
    (sound : ∀ op shared effect, pick op shared = some effect →
      behavior op shared effect ∧ ∀ P, allowed op shared P) {t : ι}
        (advanced : pool.advance pick program t = some pool') :
    Step behavior program allowed pool pool' := by
  unfold Pool.advance at advanced
  split at advanced
  · cases advanced
  · next thread =>
      cases advanced
      exact .start thread
  · next thread =>
      cases advanced
      exact .finish thread trivial
  · next thread =>
      cases advanced
      exact .finish thread trivial
  · cases advanced
  · next thread =>
      split at advanced
      · cases advanced
      · next picked =>
          cases advanced
          exact .plain thread ((sound _ _ _ picked).2 _) (sound _ _ _ picked).1
      · next picked =>
          split at advanced
          · next free =>
              cases advanced
              exact .acquire thread ((sound _ _ _ picked).2 _) (sound _ _ _ picked).1 free
          · cases advanced
      · next picked =>
          cases advanced
          exact .release thread ((sound _ _ _ picked).2 _) (sound _ _ _ picked).1
      · next picked =>
          split at advanced
          · next owns =>
              cases advanced
              exact .park thread ((sound _ _ _ picked).2 _) (sound _ _ _ picked).1 owns
          · cases advanced
      · next picked =>
          cases advanced
          exact .broadcast thread ((sound _ _ _ picked).2 _) (sound _ _ _ picked).1
      · next picked =>
          cases advanced
          exact .holds thread ((sound _ _ _ picked).2 _) (sound _ _ _ picked).1
  · cases advanced
  · next thread =>
      split at advanced
      · next free =>
          cases advanced
          exact .resume thread free
      · cases advanced

/-- A played run is a run. -/
theorem runs_of_play {pick : (op : Op) → σ → Option (Effect σ (Ret op))}
    (sound : ∀ op shared effect, pick op shared = some effect →
      behavior op shared effect ∧ ∀ P, allowed op shared P)
    {schedule : List ι} (played : pool.play pick program schedule = some pool') :
    Runs behavior program allowed pool pool' := by
  induction schedule generalizing pool with
  | nil =>
      cases played
      exact .refl
  | cons t schedule ih =>
      rw [Pool.play, List.foldlM_cons] at played
      cases advanced : pool.advance pick program t with
      | none =>
          rw [advanced] at played
          cases played
      | some mid =>
          rw [advanced] at played
          exact .head (step_of_advance sound advanced) (ih played)

/-- The call of a parked thread. -/
def Thread.asleep : Thread Op Ret ε α κ → Option κ
  | .parked call _ _ => some call
  | _ => none

theorem parked_of_asleep {thread : Thread Op Ret ε α κ} {call : κ}
    (asleep : thread.asleep = some call) :
    ∃ resume calls, thread = .parked call resume calls := by
  cases thread with
  | idle calls => cases asleep
  | running call rest calls => cases asleep
  | parked call resume calls =>
      cases asleep
      exact ⟨resume, calls, rfl⟩
  | woken call resume calls => cases asleep

end Play

/-! ## Safe programs -/

section Safe

variable (behavior : Behavior Op Ret σ) (allowed : Op → σ → Set κ → Prop) (I : σ → Set κ → Prop)
  (call : κ)

/-- What the thread knows of the monitor: nothing without the mutex, and with it the shared state
and a bound on the parked calls, which only wakeups change. -/
abbrev View (κ σ : Type) : Type := Option (σ × Set κ)

/-- The program of `call` keeps the invariant, and ends as `post` says. -/
def Safe (post : Outcome ε α → View κ σ → Prop) : Prog Op Ret ε α → View κ σ → Prop
  | .done outcome, view => post outcome view
  | .step op next, none => ∀ shared effect, behavior op shared effect →
      match effect with
      | .plain answer shared' => shared' = shared ∧ Safe post (next answer) none
      | .acquire answer => ∀ s P, I s P → Safe post (next answer) (some (s, P))
      | .release answer => Safe post (next answer) none
      | .park _ => True
      | .broadcast answer => Safe post (next answer) none
      | .holds answer => Safe post (next (answer false)) none
  | .step op next, some (shared, parked) => ∀ P, P ⊆ parked → allowed op shared P →
      ∀ effect, behavior op shared effect →
      match effect with
      | .plain answer shared' => Safe post (next answer) (some (shared', P))
      | .acquire _ => True
      | .release answer => I shared P ∧ Safe post (next answer) none
      | .park answer => I shared (insert call P) ∧
          ∀ s P, I s P → Safe post (next answer) (some (s, P))
      | .broadcast answer => Safe post (next answer) (some (shared, ∅))
      | .holds answer => Safe post (next (answer true)) (some (shared, P))

variable {behavior allowed I call}

/-- A program is safe when every way its text may end leaves what follows safe. -/
theorem Safe.graft {ε' : Type} {middle : Outcome ε α → View κ σ → Prop} {p : Prog Op Ret ε α}
    {leaf : Outcome ε α → Prog Op Ret ε' β} {post : Outcome ε' β → View κ σ → Prop}
    {view : View κ σ} (safe : Safe behavior allowed I call middle p view)
    (leaves : ∀ outcome view, middle outcome view →
      Safe behavior allowed I call post (leaf outcome) view) :
    Safe behavior allowed I call post (p.graft leaf) view := by
  induction p generalizing view with
  | done outcome => exact leaves outcome view safe
  | step op next ih =>
      rcases view with _ | ⟨shared, parked⟩
      · intro s effect may
        have kept := safe s effect may
        cases effect with
        | plain answer shared' => exact ⟨kept.1, ih answer kept.2⟩
        | acquire answer => exact fun s P holds => ih answer (kept s P holds)
        | release answer => exact ih answer kept
        | park answer => trivial
        | broadcast answer => exact ih answer kept
        | holds answer => exact ih _ kept
      · intro P smaller may effect can
        have kept := safe P smaller may effect can
        cases effect with
        | plain answer shared' => exact ih answer kept
        | acquire answer => trivial
        | release answer => exact ⟨kept.1, ih answer kept.2⟩
        | park answer => exact ⟨kept.1, fun s P holds => ih answer (kept.2 s P holds)⟩
        | broadcast answer => exact ih answer kept
        | holds answer => exact ih _ kept

theorem Safe.mono {middle post : Outcome ε α → View κ σ → Prop} {p : Prog Op Ret ε α}
    {view : View κ σ} (safe : Safe behavior allowed I call middle p view)
    (weaken : ∀ outcome view, middle outcome view → post outcome view) :
    Safe behavior allowed I call post p view := by
  have grafted : Safe behavior allowed I call post (p.graft .done) view := safe.graft weaken
  rwa [Prog.graft_done] at grafted

theorem Safe.bind {middle : Outcome ε α → View κ σ → Prop} {p : Prog Op Ret ε α}
    {f : α → Prog Op Ret ε β} {post : Outcome ε β → View κ σ → Prop} {view : View κ σ}
    (safe : Safe behavior allowed I call middle p view)
    (rest : ∀ outcome view, middle outcome view →
      match outcome with
      | .ok value => Safe behavior allowed I call post (f value) view
      | .error reason => post (.error reason) view
      | .panic => post .panic view
      | .pending => post .pending view) :
    Safe behavior allowed I call post (p.bind f) view := by
  rw [Prog.bind_eq_graft]
  apply safe.graft
  intro outcome view ended
  cases outcome with
  | ok value => exact rest _ view ended
  | error reason => exact rest _ view ended
  | panic => exact rest _ view ended
  | pending => exact rest _ view ended

theorem Safe.attempt {ε' : Type} {middle : Outcome ε α → View κ σ → Prop} {p : Prog Op Ret ε α}
    {post : Outcome ε' (Except ε α) → View κ σ → Prop} {view : View κ σ}
    (safe : Safe behavior allowed I call middle p view)
    (rest : ∀ outcome view, middle outcome view →
      match outcome with
      | .ok value => post (.ok (.ok value)) view
      | .error reason => post (.ok (.error reason)) view
      | .panic => post .panic view
      | .pending => post .pending view) :
    Safe behavior allowed I call post p.attempt view := by
  rw [Prog.attempt_eq_graft]
  apply safe.graft
  intro outcome view ended
  cases outcome with
  | ok value => exact rest _ view ended
  | error reason => exact rest _ view ended
  | panic => exact rest _ view ended
  | pending => exact rest _ view ended

/-- The text ends with a value, in a view that `more` describes, if it ends. -/
def Delivers (more : View κ σ → Prop) (outcome : Outcome ε α) (view : View κ σ) : Prop :=
  Ends outcome → (∀ reason, outcome ≠ .error reason) ∧ more view

theorem Delivers.of_ok {more : View κ σ → Prop} {value : α} {view : View κ σ}
    (holds : more view) : Delivers more (.ok value : Outcome ε α) view :=
  fun _ => ⟨fun reason => by simp, holds⟩

/-- After a first part that delivers, only what follows it matters. -/
theorem Safe.andThen {more : View κ σ → Prop} {p : Prog Op Ret ε α} {f : α → Prog Op Ret ε β}
    {post : Outcome ε β → View κ σ → Prop} {view : View κ σ}
    (unended : ∀ outcome view, ¬ Ends outcome → post outcome view)
    (safe : Safe behavior allowed I call (Delivers more) p view)
    (rest : ∀ value view, more view → Safe behavior allowed I call post (f value) view) :
    Safe behavior allowed I call post (p.bind f) view := by
  apply safe.bind
  intro outcome view delivers
  cases outcome with
  | ok value => exact rest value view (delivers trivial).2
  | error reason => exact absurd rfl ((delivers trivial).1 reason)
  | panic => exact unended _ view id
  | pending => exact unended _ view id

/-- A call ends without the mutex; a fault or an abandoned loop may keep it. -/
def Finished (outcome : Outcome ε α) (view : View κ σ) : Prop := Ends outcome → view = none

/-- Fewer parked calls are as safe. -/
theorem Safe.fewer {p : Prog Op Ret ε α} {shared : σ} {parked fewer : Set κ}
    (safe : Safe behavior allowed I call Finished p (some (shared, parked)))
    (smaller : fewer ⊆ parked) :
    Safe behavior allowed I call Finished p (some (shared, fewer)) := by
  cases p with
  | done outcome => exact fun ends => absurd (safe ends) (Option.some_ne_none _)
  | step op next => exact fun P below => safe P (below.trans smaller)

end Safe

/-! ## Whole runs -/

section Invariant

variable {behavior : Behavior Op Ret σ} {program : κ → Prog Op Ret ε α}
  {allowed : Op → σ → Set κ → Prop} {I : σ → Set κ → Prop}
  {pool pool' : Pool Op Ret ε α κ ι σ} {t : ι} {thread : Thread Op Ret ε α κ}

/-- A waiting thread goes on safely from whatever the invariant allows. -/
def Waiting (behavior : Behavior Op Ret σ) (allowed : Op → σ → Set κ → Prop)
    (I : σ → Set κ → Prop) (call : κ) (resume : Prog Op Ret ε α) : Prop :=
  ∀ s P, I s P → Safe behavior allowed I call Finished resume (some (s, P))

/-- What holds of one thread between two steps. -/
def Good [DecidableEq ι] (behavior : Behavior Op Ret σ) (allowed : Op → σ → Set κ → Prop)
    (I : σ → Set κ → Prop) (pool : Pool Op Ret ε α κ ι σ) (t : ι) : Thread Op Ret ε α κ → Prop
  | .idle _ => pool.owner ≠ some t
  | .running call rest _ => Safe behavior allowed I call Finished rest
      (if pool.owner = some t then some (pool.shared, pool.parked) else none)
  | .parked call resume _ => pool.owner ≠ some t ∧ Waiting behavior allowed I call resume
  | .woken call resume _ => pool.owner ≠ some t ∧ Waiting behavior allowed I call resume

variable [DecidableEq ι]

/-- The invariant of the pool: `I` holds while the mutex is free, and every thread is safe. -/
structure Sound (behavior : Behavior Op Ret σ) (allowed : Op → σ → Set κ → Prop)
    (I : σ → Set κ → Prop) (pool : Pool Op Ret ε α κ ι σ) : Prop where
  free : pool.owner = none → I pool.shared pool.parked
  threads : ∀ t, Good behavior allowed I pool t (pool.threads t)

theorem good_running_iff_of_free {call : κ} {rest : Prog Op Ret ε α} {calls : List κ}
    (free : pool.owner ≠ some t) :
    Good behavior allowed I pool t (.running call rest calls) ↔
      Safe behavior allowed I call Finished rest none := by
  rw [Good, if_neg free]

theorem good_running_iff_of_owns {call : κ} {rest : Prog Op Ret ε α} {calls : List κ}
    (owns : pool.owner = some t) :
    Good behavior allowed I pool t (.running call rest calls) ↔
      Safe behavior allowed I call Finished rest (some (pool.shared, pool.parked)) := by
  rw [Good, if_pos owns]

theorem Safe.good_set {call : κ} {rest : Prog Op Ret ε α} {calls : List κ}
    (safe : Safe behavior allowed I call Finished rest none) (free : pool.owner ≠ some t) :
    Good behavior allowed I (pool.set t thread) t (.running call rest calls) := by
  have other : (pool.set t thread).owner ≠ some t := free
  exact (good_running_iff_of_free other).mpr safe

theorem Safe.good_set_owner {call : κ} {rest : Prog Op Ret ε α} {calls : List κ}
    {shared : σ} {bound : Set κ}
    (safe : Safe behavior allowed I call Finished rest (some (shared, bound)))
    (fewer : (pool.set t thread).parked ⊆ bound) (same : pool.shared = shared)
    (owns : pool.owner = some t) :
    Good behavior allowed I (pool.set t thread) t (.running call rest calls) := by
  subst same
  have owned : (pool.set t thread).owner = some t := owns
  exact (good_running_iff_of_owns owned).mpr (safe.fewer fewer)

theorem Good.wake (good : Good behavior allowed I pool t thread) :
    Good behavior allowed I pool t thread.wake := by
  cases thread with
  | idle calls => exact good
  | running call rest calls => exact good
  | parked call resume calls => exact good
  | woken call resume calls => exact good

/-- A step of another thread leaves a thread good when it keeps the mutex where it was and, if
this thread holds it, only wakes parked calls. -/
theorem Good.frame (good : Good behavior allowed I pool t thread)
    (owner : pool'.owner = some t ↔ pool.owner = some t)
    (kept : pool.owner = some t → pool'.shared = pool.shared ∧ pool'.parked ⊆ pool.parked) :
    Good behavior allowed I pool' t thread := by
  cases thread with
  | idle calls => exact fun owns => good (owner.mp owns)
  | running call rest calls =>
      simp only [Good] at good ⊢
      by_cases owns : pool.owner = some t
      · rw [if_pos owns] at good
        rw [if_pos (owner.mpr owns), (kept owns).1]
        exact good.fewer (kept owns).2
      · rw [if_neg owns] at good
        rwa [if_neg fun now => owns (owner.mp now)]
  | parked call resume calls => exact ⟨fun owns => good.1 (owner.mp owns), good.2⟩
  | woken call resume calls => exact ⟨fun owns => good.1 (owner.mp owns), good.2⟩

theorem parked_set_subset (pool : Pool Op Ret ε α κ ι σ) (t : ι) (thread : Thread Op Ret ε α κ)
    (running : ∀ call resume calls, thread ≠ .parked call resume calls) :
    (pool.set t thread).parked ⊆ pool.parked := by
  intro call member
  rcases member with ⟨u, resume, calls, found⟩
  by_cases same : u = t
  · subst same
    exact absurd (by simpa [Pool.set] using found) (running call resume calls)
  · exact ⟨u, resume, calls, by simpa [Pool.set, same] using found⟩

theorem parked_set_parked {call : κ} {resume : Prog Op Ret ε α} {calls : List κ} :
    (pool.set t (.parked call resume calls)).parked ⊆ insert call pool.parked := by
  intro other member
  rcases member with ⟨u, resume', calls', found⟩
  by_cases same : u = t
  · subst same
    have equal : Thread.parked call resume calls = .parked other resume' calls' := by
      simpa [Pool.set] using found
    cases equal
    exact Set.mem_insert ..
  · exact Set.mem_insert_of_mem _ ⟨u, resume', calls', by simpa [Pool.set, same] using found⟩

omit [DecidableEq ι] in
/-- After a broadcast no call is parked. -/
theorem parked_wake :
    ({ pool with threads := fun u => (pool.threads u).wake } : Pool Op Ret ε α κ ι σ).parked =
      ∅ := by
  apply Set.eq_empty_of_forall_notMem
  intro call member
  rcases member with ⟨u, resume, calls, found⟩
  have woken : (pool.threads u).wake = .parked call resume calls := found
  cases thread : pool.threads u with
  | idle calls => simp [thread, Thread.wake] at woken
  | running call rest calls => simp [thread, Thread.wake] at woken
  | parked call resume calls => simp [thread, Thread.wake] at woken
  | woken call resume calls => simp [thread, Thread.wake] at woken

/-- A step replaces one thread, in a pool `mid` whose shared state, mutex and wakeups it may have
changed before. -/
theorem Sound.set {mid : Pool Op Ret ε α κ ι σ} (sound : Sound behavior allowed I pool)
    (others : ∀ u, mid.threads u = pool.threads u ∨ mid.threads u = (pool.threads u).wake)
    (owner : ∀ u, u ≠ t → (mid.owner = some u ↔ pool.owner = some u))
    (kept : ∀ u, u ≠ t → pool.owner = some u →
      mid.shared = pool.shared ∧ (mid.set t thread).parked ⊆ pool.parked)
    (free : mid.owner = none → I mid.shared (mid.set t thread).parked)
    (own : Good behavior allowed I (mid.set t thread) t thread) :
    Sound behavior allowed I (mid.set t thread) := by
  refine ⟨free, fun u => ?_⟩
  by_cases same : u = t
  · subst same
    simpa [Pool.set] using own
  have there : (mid.set t thread).threads u = mid.threads u := by simp [Pool.set, same]
  have before : Good behavior allowed I pool u (mid.threads u) := by
    rcases others u with unchanged | woken
    · exact unchanged ▸ sound.threads u
    · exact woken ▸ (sound.threads u).wake
  rw [there]
  exact before.frame (owner u same) (kept u same)

/-- One step keeps the pool sound. -/
theorem Sound.step
    (antitone : ∀ s P P', P' ⊆ P → I s P → I s P')
    (programs : ∀ call, Safe behavior allowed I call Finished (program call) none)
    (sound : Sound behavior allowed I pool) (step : Step behavior program allowed pool pool') :
    Sound behavior allowed I pool' := by
  cases step with
  | @start t call calls thread =>
      have idle : pool.owner ≠ some t := by simpa [thread, Good] using sound.threads t
      have fewer := parked_set_subset pool t
        (.running call (program call) calls) (by simp)
      refine sound.set (fun _ => .inl rfl) (fun _ _ => Iff.rfl) (fun _ _ _ => ⟨rfl, fewer⟩)
        (fun free => antitone _ _ _ fewer (sound.free free)) ?_
      exact (programs call).good_set idle
  | @finish t call outcome calls thread ends =>
      have own := sound.threads t
      rw [thread] at own
      have fewer := parked_set_subset pool t
        (.idle calls) (by simp)
      refine sound.set (fun _ => .inl rfl) (fun _ _ => Iff.rfl) (fun _ _ _ => ⟨rfl, fewer⟩)
        (fun free => antitone _ _ _ fewer (sound.free free)) ?_
      intro owns
      have owned : pool.owner = some t := owns
      exact absurd ((good_running_iff_of_owns owned).mp own ends) (Option.some_ne_none _)
  | @plain t call op next calls answer shared thread may effect =>
      have own := sound.threads t
      rw [thread] at own
      have fewer := parked_set_subset { pool with shared := shared } t
        (.running call (next answer) calls) (by simp)
      by_cases owns : pool.owner = some t
      · have safe := (good_running_iff_of_owns owns).mp own _ subset_rfl may _ effect
        refine sound.set (fun _ => .inl rfl) (fun _ _ => Iff.rfl) ?_ ?_ ?_
        · intro u other held
          exact absurd (Option.some.inj (owns.symm.trans held)).symm other
        · intro free
          exact absurd (owns.symm.trans free) (Option.some_ne_none _)
        · exact safe.good_set_owner fewer rfl owns
      · have safe := (good_running_iff_of_free owns).mp own _ _ effect
        obtain rfl := safe.1
        refine sound.set (fun _ => .inl rfl) (fun _ _ => Iff.rfl) (fun _ _ _ => ⟨rfl, fewer⟩)
          (fun free => antitone _ _ _ fewer (sound.free free)) ?_
        exact safe.2.good_set owns
  | @acquire t call op next calls answer thread may effect free =>
      have own := sound.threads t
      rw [thread] at own
      have idle : pool.owner ≠ some t := by simp [free]
      have fewer := parked_set_subset { pool with owner := some t } t
        (.running call (next answer) calls) (by simp)
      have safe := (good_running_iff_of_free idle).mp own _ _ effect
      refine sound.set (fun _ => .inl rfl) ?_ ?_ ?_ ?_
      · intro u other
        simp [free, Ne.symm other]
      · intro u other held
        simp [free] at held
      · intro none_
        cases none_
      · exact (safe _ _ (sound.free free)).good_set_owner fewer rfl rfl
  | @release t call op next calls answer thread may effect =>
      have own := sound.threads t
      rw [thread] at own
      have fewer := parked_set_subset
        { pool with owner := if pool.owner = some t then none else pool.owner } t
        (.running call (next answer) calls) (by simp)
      by_cases owns : pool.owner = some t
      · have safe := (good_running_iff_of_owns owns).mp own _ subset_rfl may _ effect
        refine sound.set (fun _ => .inl rfl) ?_ ?_ ?_ ?_
        · intro u other
          simp [owns, Ne.symm other]
        · intro u other held
          exact absurd (Option.some.inj (owns.symm.trans held)).symm other
        · exact fun _ => antitone _ _ _ fewer safe.1
        · exact safe.2.good_set (by simp [owns])
      · have safe := (good_running_iff_of_free owns).mp own _ _ effect
        refine sound.set (fun _ => .inl rfl) ?_ (fun _ _ _ => ⟨rfl, fewer⟩) ?_ ?_
        · intro u other
          simp [owns]
        · intro free
          exact antitone _ _ _ fewer (sound.free (by simpa [owns] using free))
        · exact safe.good_set (by simp [owns])
  | @park t call op next calls answer thread may effect owns =>
      have own := sound.threads t
      rw [thread] at own
      have safe := (good_running_iff_of_owns owns).mp own _ subset_rfl may _ effect
      refine sound.set (fun _ => .inl rfl) ?_ ?_ ?_ ?_
      · intro u other
        simp [owns, Ne.symm other]
      · intro u other held
        exact absurd (Option.some.inj (owns.symm.trans held)).symm other
      · exact fun _ => antitone _ _ _ parked_set_parked safe.1
      · exact ⟨by simp [Pool.set], safe.2⟩
  | @broadcast t call op next calls answer thread may effect =>
      have own := sound.threads t
      rw [thread] at own
      have fewer := parked_set_subset { pool with threads := fun u => (pool.threads u).wake } t
        (.running call (next answer) calls) (by simp)
      rw [parked_wake] at fewer
      have none_ := fewer.trans (Set.empty_subset pool.parked)
      refine sound.set (fun _ => .inr rfl) (fun _ _ => Iff.rfl) (fun _ _ _ => ⟨rfl, none_⟩)
        (fun free => antitone _ _ _ none_ (sound.free free)) ?_
      by_cases owns : pool.owner = some t
      · have safe := (good_running_iff_of_owns owns).mp own _ subset_rfl may _ effect
        exact safe.good_set_owner fewer rfl owns
      · have safe := (good_running_iff_of_free owns).mp own _ _ effect
        exact safe.good_set owns
  | @holds t call op next calls answer thread may effect =>
      have own := sound.threads t
      rw [thread] at own
      have fewer := parked_set_subset pool t
        (.running call (next (answer (decide (pool.owner = some t)))) calls) (by simp)
      refine sound.set (fun _ => .inl rfl) (fun _ _ => Iff.rfl) (fun _ _ _ => ⟨rfl, fewer⟩)
        (fun free => antitone _ _ _ fewer (sound.free free)) ?_
      by_cases owns : pool.owner = some t
      · have safe := (good_running_iff_of_owns owns).mp own _ subset_rfl may _ effect
        rw [decide_eq_true owns] at fewer ⊢
        exact safe.good_set_owner fewer rfl owns
      · have safe := (good_running_iff_of_free owns).mp own _ _ effect
        rw [decide_eq_false owns]
        exact safe.good_set owns
  | @spurious t call resume calls thread =>
      have own := sound.threads t
      rw [thread] at own
      have fewer := parked_set_subset pool t
        (.woken call resume calls) (by simp)
      exact sound.set (fun _ => .inl rfl) (fun _ _ => Iff.rfl) (fun _ _ _ => ⟨rfl, fewer⟩)
        (fun free => antitone _ _ _ fewer (sound.free free)) own
  | @resume t call resume calls thread free =>
      have own := sound.threads t
      rw [thread] at own
      have fewer := parked_set_subset { pool with owner := some t } t
        (.running call resume calls) (by simp)
      refine sound.set (fun _ => .inl rfl) ?_ ?_ ?_ ?_
      · intro u other
        simp [free, Ne.symm other]
      · intro u other held
        simp [free] at held
      · intro none_
        cases none_
      · exact (own.2 _ _ (sound.free free)).good_set_owner fewer rfl rfl

/-- A run keeps the pool sound. -/
theorem Sound.runs
    (antitone : ∀ s P P', P' ⊆ P → I s P → I s P')
    (programs : ∀ call, Safe behavior allowed I call Finished (program call) none)
    (sound : Sound behavior allowed I pool) (run : Runs behavior program allowed pool pool') :
    Sound behavior allowed I pool' := by
  induction run with
  | refl => exact sound
  | tail _ step ih => exact ih.step antitone programs step

/-- Before their first calls, with the mutex free, the threads are sound. -/
theorem sound_of_idle {shared : σ} (holds : I shared ∅) (calls : ι → List κ) :
    Sound behavior allowed I
      (⟨shared, none, fun t => .idle (calls t)⟩ : Pool Op Ret ε α κ ι σ) where
  free _ := by
    have none_ : (⟨shared, none, fun t => .idle (calls t)⟩ : Pool Op Ret ε α κ ι σ).parked =
        ∅ := by
      apply Set.eq_empty_of_forall_notMem
      intro call member
      rcases member with ⟨t, resume, later, parked⟩
      cases parked
    rw [none_]
    exact holds
  threads _ := fun owns => by cases owns

end Invariant

/-! ## The calls of a run -/

/-- The calls that a thread makes later. -/
def Thread.later : Thread Op Ret ε α κ → List κ
  | .idle calls => calls
  | .running _ _ calls => calls
  | .parked _ _ calls => calls
  | .woken _ _ calls => calls

section Calls

variable {behavior : Behavior Op Ret σ} {program program' : κ → Prog Op Ret ε α}
  {allowed : Op → σ → Set κ → Prop} {I : σ → Set κ → Prop} {pool pool' : Pool Op Ret ε α κ ι σ}

variable [DecidableEq ι]

/-- Only the programs of the calls that the threads make matter. -/
theorem Step.congr (step : Step behavior program allowed pool pool')
    (same : ∀ t, ∀ call ∈ (pool.threads t).later, program call = program' call) :
    Step behavior program' allowed pool pool' := by
  cases step with
  | @start t call calls thread =>
      rw [same t call (by simp [thread, Thread.later])]
      exact .start thread
  | finish thread ends => exact .finish thread ends
  | plain thread may effect => exact .plain thread may effect
  | acquire thread may effect free => exact .acquire thread may effect free
  | release thread may effect => exact .release thread may effect
  | park thread may effect owns => exact .park thread may effect owns
  | broadcast thread may effect => exact .broadcast thread may effect
  | holds thread may effect => exact .holds thread may effect
  | spurious thread => exact .spurious thread
  | resume thread free => exact .resume thread free

end Calls

end Netsystem.Monitor
