import Netsystem.Shmem.Attach

/-!
# Stores and the guard

A lock is given out with its guard. Waiting on the event descriptor takes the guard out, and when
the mutex cannot be taken back the lock is left without it. Its methods do not ask: one that finds
nothing to wait for stores all the same (`unguarded_store`). As long as no such call is made,
every access to the words and slots is made under the guard, and no method that needs the guard is
reached without it (`stores_hold_guard`), for only a lock in event mode is ever without one.
-/

namespace Netsystem.Shmem

open Prog

/-! ## Methods of a lock -/

inductive LockCall : Type where
  | wait (fuel : Nat)
  | timedWait (fuel timeout : Nat)
  | addNolock (fuel : Nat) (element : Bytes)
  | add2Nolock (fuel : Nat) (first second : Bytes)
  | subRaw (size : Nat)
  | advanceRingHead
  | sendSignal (isProducer : Bool)

namespace LockCall

/-- The method, on a lock whose `conditional_wait` is given. -/
def program (queue : SvmQueue) (conditionalWait : ConditionalWait) : LockCall → Call Unit
  | .wait fuel => Shmem.wait fuel
  | .timedWait fuel timeout => do
      let _ ← Shmem.timedWait fuel timeout
      pure ()
  | .addNolock fuel element => queue.addNolock fuel conditionalWait element
  | .add2Nolock fuel first second => queue.add2Nolock fuel conditionalWait first second
  | .subRaw size => queue.subRaw size
  | .advanceRingHead => queue.advanceRingHead
  | .sendSignal isProducer => signal isProducer .add

/-- What the method does to the queue when it finds nothing to wait for. -/
def Proceeds (queue : SvmQueue) (memory : Memory) : LockCall → Prop
  | .addNolock _ element => (QueueEffect.add element).Fits queue memory
  | .add2Nolock _ first second => (QueueEffect.addPair first second).Fits queue memory
  | .subRaw size => (QueueEffect.sub size).Fits queue memory
  | .advanceRingHead => True
  | _ => False

/-- The lock has no guard, and the method stores at once. -/
def Strikes (queue : SvmQueue) (s : Station) (call : LockCall) : Prop :=
  s.held = false ∧ call.Proceeds queue s.memory

/-- A method ran, among the others, and ended somehow. -/
def Step (queue : SvmQueue) (conditionalWait : ConditionalWait) (s s' : Station) : Prop :=
  ∃ (call : LockCall) (out : Outcome SvmQueueError Unit),
    (call.program queue conditionalWait).Runs (contended queue) s out s'

/-- A step that does not strike. -/
def CarefulStep (queue : SvmQueue) (conditionalWait : ConditionalWait) (s s' : Station) : Prop :=
  ∃ (call : LockCall) (out : Outcome SvmQueueError Unit), ¬ call.Strikes queue s ∧
    (call.program queue conditionalWait).Runs (contended queue) s out s'

end LockCall

/-- What a lock keeps: it has its guard or lost it to the event descriptor, and it did everything
under the guard. -/
structure Station.Orderly (queue : SvmQueue) (s : Station) : Prop where
  bounded : Bounded queue s.memory
  guarded : s.Guarded
  held : ∀ touch ∈ s.touches, touch.held = true

section Orderly

variable {queue : SvmQueue} {s s' : Station} {effect : QueueEffect} {edge : Memory → Prop}

theorem Station.Orderly.of_quiet (orderly : s.Orderly queue) (quiet : Quiet queue s s')
    (guarded : s'.Guarded) : s'.Orderly queue :=
  ⟨quiet.others.bounded orderly.bounded, guarded, quiet.touches ▸ orderly.held⟩

/-- The steps of an effect under the mutex are made with the guard. -/
theorem QueueEffect.steps_held (memory : Memory) :
    ∀ touch ∈ effect.steps queue memory, touch.held = true := by
  have push : ∀ (memory : Memory) (element : Bytes),
      ∀ touch ∈ pushSteps queue memory element, touch.held = true := by
    intro memory element touch member
    simp only [pushSteps, List.mem_cons, List.not_mem_nil, or_false] at member
    rcases member with rfl | rfl | rfl
    · rfl
    · rfl
    · rfl
  cases effect with
  | add element => exact push memory element
  | addPair first second =>
      intro touch member
      rcases List.mem_append.mp member with early | late
      · exact push _ _ touch early
      · exact push _ _ touch late
  | sub size =>
      intro touch member
      simp only [QueueEffect.steps, popSteps, List.mem_cons, List.not_mem_nil, or_false] at member
      rcases member with rfl | rfl | rfl
      · rfl
      · rfl
      · rfl

theorem Station.Orderly.of_applied (orderly : s.Orderly queue)
    (applied : Applied queue effect edge s s') (guarded : s'.Guarded) : s'.Orderly queue := by
  rcases applied with ⟨memory, -, -, -, touches, -, later⟩
  refine ⟨later, guarded, ?_⟩
  rw [touches]
  intro touch member
  rcases List.mem_append.mp member with early | late
  · exact orderly.held touch early
  · exact QueueEffect.steps_held memory touch late

/-- The program leaves the lock orderly and does not fault. -/
def StaysOrderly (queue : SvmQueue) (p : Call Unit) (s : Station) : Prop :=
  p.Ensures (contended queue) (fun _ s' => s'.Orderly queue)
    (fun stop s' => stop ≠ .panic ∧ s'.Orderly queue) s

theorem StaysOrderly.of_waits {p : Call Unit} (orderly : s.Orderly queue)
    (waits : Waits queue p s) : StaysOrderly queue p s := by
  refine Ensures.mono waits (fun _ _ back => orderly.of_quiet back.1 (.inl back.2)) ?_
  intro stop s' ended
  rcases ended with ⟨guarded, refused, quiet⟩
  exact ⟨refused.ne_panic, orderly.of_quiet quiet guarded⟩

theorem StaysOrderly.of_commits {p : Call Unit} (orderly : s.Orderly queue)
    (commits : Commits queue effect p s)
    (careful : ¬ (s.held = false ∧ effect.Fits queue s.memory)) : StaysOrderly queue p s := by
  have after : ∀ {edge : Memory → Prop} {s'}, Committed queue effect edge s s' → s'.Guarded →
      s'.Orderly queue := by
    intro edge s' committed guarded
    rcases committed with applied | ⟨lost, fits, -⟩
    · exact orderly.of_applied applied guarded
    · exact absurd ⟨lost, fits⟩ careful
  refine Ensures.mono commits (fun _ _ ended => after ended.2 ended.1) ?_
  intro stop s' ended
  rcases ended with ⟨guarded, ⟨refused, quiet⟩ | ⟨reported, committed⟩⟩
  · exact ⟨refused.ne_panic, orderly.of_quiet quiet guarded⟩
  · exact ⟨reported.ne_panic, after committed guarded⟩

theorem advanceRingHead_staysOrderly (orderly : s.Orderly queue) (held : s.held = true) :
    StaysOrderly queue queue.advanceRingHead s := by
  have bounded := orderly.bounded
  have moved : Bounded queue (s.memory.setWord .head (Ring.next queue.maxsize s.memory.head)) :=
    bounded.popping 1
  unfold StaysOrderly SvmQueue.advanceRingHead
  apply ensures_load
  intro first settles
  obtain rfl := settles.eq_of_held held
  rw [bind_eq, Memory.word, successor_eq bounded.addressable bounded.head_lt, bind_ok,
    ← bind_pure (access _)]
  refine ensures_access _ _ rfl rfl ?_
  intro last settles
  obtain rfl := settles.eq_of_held held
  refine ⟨moved, .inl held, ?_⟩
  intro touch member
  rcases List.mem_append.mp member with early | late
  · exact orderly.held touch early
  · rw [List.mem_singleton.mp late]
    exact held

/-- One method that does not strike. -/
theorem LockCall.staysOrderly (conditionalWait : ConditionalWait) (call : LockCall)
    (orderly : s.Orderly queue) (careful : ¬ call.Strikes queue s) :
    StaysOrderly queue (call.program queue conditionalWait) s := by
  have guarded := orderly.guarded
  have bounded := orderly.bounded
  cases call with
  | wait fuel => exact .of_waits orderly (waits_wait fuel guarded)
  | timedWait fuel timeout =>
      exact .of_waits orderly ((waits_timedWait fuel timeout guarded).discard ())
  | addNolock fuel element =>
      exact .of_commits orderly
        (addNolock_commits fuel conditionalWait element guarded bounded) careful
  | add2Nolock fuel first second =>
      exact .of_commits orderly
        (add2Nolock_commits fuel conditionalWait first second guarded bounded) careful
  | subRaw size => exact .of_commits orderly (subRaw_commits size guarded bounded) careful
  | advanceRingHead =>
      have held : s.held = true := by
        by_contra lost
        exact careful ⟨Bool.not_eq_true _ ▸ lost, trivial⟩
      exact advanceRingHead_staysOrderly orderly held
  | sendSignal isProducer =>
      refine (signal_ensures isProducer .add).mono ?_ ?_
      · exact fun _ _ sent => orderly.of_quiet sent.1 (sent.1.guarded sent.2 guarded)
      · intro stop s' failed
        rcases failed with ⟨reported, quiet, same⟩
        exact ⟨reported.ne_panic, orderly.of_quiet quiet (quiet.guarded same guarded)⟩

theorem LockCall.run_orderly {conditionalWait : ConditionalWait} {call : LockCall}
    {out : Outcome SvmQueueError Unit} (orderly : s.Orderly queue)
    (careful : ¬ call.Strikes queue s)
    (run : (call.program queue conditionalWait).Runs (contended queue) s out s') :
    out ≠ .panic ∧ s'.Orderly queue := by
  have ended := (call.staysOrderly conditionalWait orderly careful).of_runs run
  cases out with
  | ok value => exact ⟨(fun fault => nomatch fault), ended⟩
  | error reason => exact ⟨(fun fault => nomatch fault), ended.2⟩
  | panic => exact absurd rfl ended.1
  | pending => exact ⟨(fun fault => nomatch fault), ended.2⟩

/-- `lock` and `try_lock` hand out an orderly lock. -/
theorem orderly_of_acquire {tryOnly : Bool} {memory : Memory} (bounded : Bounded queue memory)
    (locked : (acquire tryOnly).Runs (contended queue) (.fresh memory) (.ok ()) s) :
    s.Orderly queue := by
  have ended := (acquire_ensures tryOnly).of_runs locked
  rcases ended with ⟨quiet, held⟩
  refine ⟨quiet.others.bounded bounded, .inl held, ?_⟩
  rw [quiet.touches]
  exact fun _ member => absurd member List.not_mem_nil

/-- In every session of a lock, if no method is called that finds the guard missing and nothing to
wait for, every access to the words and slots is made under the guard, and no method faults. -/
theorem stores_hold_guard {tryOnly : Bool} {conditionalWait : ConditionalWait} {memory : Memory}
    {start : Station} (bounded : Bounded queue memory)
    (locked : (acquire tryOnly).Runs (contended queue) (.fresh memory) (.ok ()) start)
    (session : Relation.ReflTransGen (LockCall.CarefulStep queue conditionalWait) start s) :
    (∀ touch ∈ s.touches, touch.held = true) ∧
      ∀ (call : LockCall) (out : Outcome SvmQueueError Unit) (s' : Station),
        ¬ call.Strikes queue s →
        (call.program queue conditionalWait).Runs (contended queue) s out s' → out ≠ .panic := by
  have orderly : s.Orderly queue := by
    induction session with
    | refl => exact orderly_of_acquire bounded locked
    | tail _ last ih =>
        rcases last with ⟨call, out, careful, run⟩
        exact (LockCall.run_orderly ih careful run).2
  exact ⟨orderly.held, fun call out s' careful run =>
    (LockCall.run_orderly orderly careful run).1⟩

end Orderly

/-- One slot of one byte, empty. -/
def emptySlot : Memory := ⟨0, 0, 0, -1, -1, [0]⟩

theorem bounded_emptySlot : Bounded ⟨1, 1⟩ emptySlot :=
  ⟨⟨by decide, by decide, by decide, by decide⟩, by decide⟩

/-- Locking and signalling succeed; the producers have the descriptor 7. -/
def calm : Environment := ⟨7, .standard, .ok (), .ok (), .ok .notified, .ok (), 8, 0, 0⟩

/-- As `calm`, but the last owner of the mutex died. -/
def bereft : Environment := { calm with lock := .indeterminate }

/-- Locking hands the empty slot out. -/
theorem locks_emptySlot :
    (acquire false).Runs (contended ⟨1, 1⟩) (.fresh emptySlot) (.ok ())
      ⟨emptySlot, true, false, [], []⟩ := by
  have run : (acquire false).exec (idle calm) (.fresh emptySlot) =
      (.ok (), ⟨emptySlot, true, false, [], []⟩) := rfl
  exact runs_of_idle run (fun fault => nomatch fault)

/-- A timed wait on the event descriptor whose last owner of the mutex died loses the guard. -/
theorem loses_guard :
    (LockCall.program ⟨1, 1⟩ .wait (.timedWait 1 0)).Runs (contended ⟨1, 1⟩)
      ⟨emptySlot, true, false, [], []⟩ (.error .ownerDied) ⟨emptySlot, false, true, [], []⟩ := by
  have waited : (LockCall.program ⟨1, 1⟩ .wait (.timedWait 1 0)).exec (idle bereft)
      ⟨emptySlot, true, false, [], []⟩ = (.error .ownerDied, ⟨emptySlot, false, true, [], []⟩) :=
        rfl
  exact runs_of_idle waited (fun fault => nomatch fault)

/-- A wait on the event descriptor loses the guard, a later one takes it back, and then an element
is added. -/
theorem stores_hold_guard_back :
    LockCall.CarefulStep ⟨1, 1⟩ .wait ⟨emptySlot, true, false, [], []⟩
        ⟨emptySlot, false, true, [], []⟩ ∧
      LockCall.CarefulStep ⟨1, 1⟩ .wait ⟨emptySlot, false, true, [], []⟩
        ⟨emptySlot, true, true, [], []⟩ ∧
      ∃ s, LockCall.CarefulStep ⟨1, 1⟩ .wait ⟨emptySlot, true, true, [], []⟩ s ∧
        s.touches.length = 3 ∧ ∀ touch ∈ s.touches, touch.held = true := by
  have waited : (LockCall.program ⟨1, 1⟩ .wait (.timedWait 1 0)).exec (idle calm)
      ⟨emptySlot, false, true, [], []⟩ = (.ok (), ⟨emptySlot, true, true, [], []⟩) := rfl
  have added : (LockCall.program ⟨1, 1⟩ .wait (.addNolock 1 [7])).exec (idle calm)
      ⟨emptySlot, true, true, [], []⟩ = (.ok (), _) := rfl
  have loses : LockCall.CarefulStep ⟨1, 1⟩ .wait ⟨emptySlot, true, false, [], []⟩
      ⟨emptySlot, false, true, [], []⟩ :=
        ⟨_, _, fun strikes : LockCall.Strikes _ _ (.timedWait 1 0) => strikes.2, loses_guard⟩
  have regains : LockCall.CarefulStep ⟨1, 1⟩ .wait ⟨emptySlot, false, true, [], []⟩
      ⟨emptySlot, true, true, [], []⟩ :=
    ⟨_, _, fun strikes : LockCall.Strikes _ _ (.timedWait 1 0) => strikes.2,
      runs_of_idle waited (fun fault => nomatch fault)⟩
  have adds : LockCall.CarefulStep ⟨1, 1⟩ .wait ⟨emptySlot, true, true, [], []⟩ _ :=
    ⟨_, _, (fun strikes => nomatch strikes.1), runs_of_idle added (fun fault => nomatch fault)⟩
  have session := Relation.ReflTransGen.tail (.tail (.single loses) regains) adds
  exact ⟨loses, regains, _, adds, rfl,
    (stores_hold_guard bounded_emptySlot locks_emptySlot session).1⟩

/-- A timed wait on the event descriptor ends in `OwnerDied`, for the last owner of the mutex
died, and leaves the lock without its guard; `add_nolock` then writes to the slot. -/
theorem unguarded_store :
    ¬ ∀ (queue : SvmQueue) (tryOnly : Bool) (conditionalWait : ConditionalWait) (memory : Memory)
      (start s : Station), Bounded queue memory →
      (acquire tryOnly).Runs (contended queue) (.fresh memory) (.ok ()) start →
      Relation.ReflTransGen (LockCall.Step queue conditionalWait) start s →
        ∀ touch ∈ s.touches, touch.held = true := by
  intro always
  have added : (LockCall.program ⟨1, 1⟩ .wait (.addNolock 1 [7])).exec (idle calm)
      ⟨emptySlot, false, true, [], []⟩ = (.ok (), _) := rfl
  have session : Relation.ReflTransGen (LockCall.Step ⟨1, 1⟩ .wait)
      ⟨emptySlot, true, false, [], []⟩ _ :=
    .tail (.single ⟨_, _, loses_guard⟩)
      ⟨_, _, runs_of_idle added (fun fault => nomatch fault)⟩
  have held := always _ _ _ _ _ _ bounded_emptySlot locks_emptySlot session _ (.head _)
  cases held

end Netsystem.Shmem
