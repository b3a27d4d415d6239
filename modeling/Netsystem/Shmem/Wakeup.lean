import Netsystem.Shmem.Threads

/-!
# Wakeups

Any number of threads make blocking calls on one queue (`Wait`). The queue is a monitor: its
mutex, its condition variable, and the shared words. A call parks on the condition variable when
the producer descriptor is negative and spins otherwise; a signal is a broadcast when its own
descriptor is negative and a write to the descriptor, which wakes nobody, otherwise.

A removal may leave a call asleep whose condition it has just made true: from a full queue when
the consumer has a descriptor, for the signal then goes to the descriptor; and from a queue with
one free place when a pair is waiting, for no signal is sent on that edge. `Spares` says that a
removal is not one of these, and `no_lost_wakeup` that in every run without them, whenever the
mutex is free, no parked call could go on.
-/

namespace Netsystem.Shmem

open Prog Monitor

/-! ## The queue as a monitor -/

/-- A call with `Wait`; its loops make at most `fuel` passes. -/
inductive BlockingCall : Type where
  | add (fuel : Nat) (element : Bytes)
  | add2 (fuel : Nat) (first second : Bytes)
  | sub (fuel size : Nat)
  deriving DecidableEq

def BlockingCall.program (queue : SvmQueue) : BlockingCall → Call Unit
  | .add fuel element => queue.add fuel element .wait
  | .add2 fuel first second => queue.add2 fuel first second .wait
  | .sub fuel size => queue.sub fuel size .wait

/-- The condition that the call waits for. -/
def BlockingCall.ready (queue : SvmQueue) (memory : Memory) : BlockingCall → Prop
  | .add _ _ => memory.cursize < queue.maxsize
  | .add2 _ _ _ => 2 ≤ queue.maxsize - memory.cursize
  | .sub _ _ => 0 < memory.cursize

def BlockingCall.isAdd : BlockingCall → Prop
  | .add _ _ => True
  | _ => False

def BlockingCall.isAdd2 : BlockingCall → Prop
  | .add2 _ _ _ => True
  | _ => False

/-- The threads share nothing but the memory. -/
def alone : Carrier Memory where
  memory := id
  accessed _ memory _ := memory
  filled _ memory := memory
  memory_accessed _ _ _ := rfl
  memory_filled _ _ := rfl
  read _ _ _ := rfl

/-- What each operation does to the monitor. No thread dies, and a write to a descriptor may
fail. -/
def behavior : Behavior Op Op.Ret Memory := alone.reliable

/-- The invariant while the mutex is free: no parked call could go on, and calls park on the
condition variable only where the signals of the producers reach it. -/
structure Calm (queue : SvmQueue) (memory : Memory) (parked : Set BlockingCall) : Prop where
  bounded : memory.cursize ≤ queue.maxsize
  condvar : ∀ call ∈ parked, memory.producerEvtfd < 0
  asleep : ∀ call ∈ parked, ¬ call.ready queue memory

/-- The removal does not leave a parked call asleep: from a full queue with a descriptor for the
consumers no `add` is parked, and from a queue with one free place no `add2`. -/
def Spares (queue : SvmQueue) (op : Op) (memory : Memory) (parked : Set BlockingCall) : Prop :=
  match op with
  | .access .fetchSub =>
      (memory.cursize = queue.maxsize → 0 ≤ memory.consumerEvtfd →
        ∀ call ∈ parked, ¬ call.isAdd) ∧
      (memory.cursize + 1 = queue.maxsize → ∀ call ∈ parked, ¬ call.isAdd2)
  | _ => True

/-! ## The calm of the calls -/

theorem Calm.fewer {queue : SvmQueue} {memory : Memory} {parked fewer : Set BlockingCall}
    (calm : Calm queue memory parked) (smaller : fewer ⊆ parked) : Calm queue memory fewer where
  bounded := calm.bounded
  condvar call member := calm.condvar call (smaller member)
  asleep call member := calm.asleep call (smaller member)

section Calm

variable {queue : SvmQueue} {memory memory' : Memory} {parked fewer : Set BlockingCall}

/-- A call that cannot go on may park where the signals of the producers reach it. -/
theorem Calm.park (calm : Calm queue memory parked) {call : BlockingCall}
    (blocked : ¬ call.ready queue memory) (negative : memory.producerEvtfd < 0) :
    Calm queue memory (insert call parked) where
  bounded := calm.bounded
  condvar _ _ := negative
  asleep other member := by
    rcases Set.mem_insert_iff.mp member with rfl | before
    · exact blocked
    · exact calm.asleep other before

/-- More elements in a queue that was not empty let no parked call go on. -/
theorem Calm.grown (calm : Calm queue memory parked) (some_ : 0 < memory.cursize)
    (grown : memory.cursize ≤ memory'.cursize) (bounded : memory'.cursize ≤ queue.maxsize)
    (fd : memory'.producerEvtfd = memory.producerEvtfd) : Calm queue memory' parked where
  bounded := bounded
  condvar other member := fd ▸ calm.condvar other member
  asleep other member ready := by
    have asleep := calm.asleep other member
    cases other with
    | add fuel element => exact asleep (Nat.lt_of_le_of_lt grown ready)
    | add2 fuel first second =>
        simp only [BlockingCall.ready] at ready asleep
        omega
    | sub fuel size => exact asleep some_

/-- A removal that spares the parked calls lets none of them go on that its signal leaves
parked. -/
theorem Calm.shrunk (calm : Calm queue memory parked)
    (spares : Spares queue (.access .fetchSub) memory parked) (some_ : 0 < memory.cursize)
    (left : ∀ call ∈ fewer, call ∈ parked ∧
      (memory.cursize = queue.maxsize → 0 ≤ memory.consumerEvtfd))
    (shrunk : memory'.cursize = memory.cursize - 1)
    (fd : memory'.producerEvtfd = memory.producerEvtfd) : Calm queue memory' fewer where
  bounded := by
    have bounded := calm.bounded
    omega
  condvar other member := fd ▸ calm.condvar other (left other member).1
  asleep other member ready := by
    obtain ⟨member, silent⟩ := left other member
    have asleep := calm.asleep other member
    have bounded := calm.bounded
    cases other with
    | add fuel element =>
        simp only [BlockingCall.ready] at ready asleep
        exact spares.1 (by omega) (silent (by omega)) _ member trivial
    | add2 fuel first second =>
        simp only [BlockingCall.ready] at ready asleep
        exact spares.2 (by omega) _ member trivial
    | sub fuel size => exact asleep some_

/-- Calm is an invariant for the threads of one queue. -/
def calmly (queue : SvmQueue) : Discipline Memory BlockingCall where
  carrier := alone
  queue := queue
  behavior := behavior
  allowed := Spares queue
  holds := Calm queue
  certain := True
  within _ _ _ can := .inl can
  heard _ _ _ can := can
  fewer _ _ _ smaller calm := calm.fewer smaller
  bounded _ _ calm := calm.bounded

/-- Elements that are added leave the descriptor alone. -/
theorem writes_spec {elements : List Bytes} (writes : alone.Writes queue elements memory memory')
    (small : memory.cursize + elements.length < 2 ^ 32) :
    memory'.cursize = memory.cursize + elements.length ∧
      memory'.producerEvtfd = memory.producerEvtfd := by
  induction elements generalizing memory with
  | nil =>
      obtain rfl : memory' = memory := writes
      exact ⟨rfl, rfl⟩
  | cons element rest ih =>
      obtain ⟨next, -, -, writes⟩ := writes
      rw [List.length_cons] at small ⊢
      have one : wrappingSucc memory.cursize = memory.cursize + 1 := if_pos (by omega)
      have count : (alone.written queue element next memory).cursize = memory.cursize + 1 := one
      obtain ⟨grown, fd⟩ := ih writes (by omega)
      exact ⟨by omega, fd⟩

/-- An addition to an empty queue signals, and another one has nobody to wake. -/
theorem puts_calmly (small : queue.maxsize < 2 ^ 32) (elements : List Bytes) :
    (calmly queue).Puts elements := by
  intro memory parked memory' calm room writes
  have room : memory.cursize + elements.length ≤ queue.maxsize := room
  obtain ⟨grown, fd⟩ := writes_spec writes (by omega)
  by_cases empty : memory.cursize = 0
  · have none_ : ∀ call, call ∉ (calmly queue).left (memory.cursize = 0)
        (memory.evtfd true) parked := by
      intro call member
      exact member.2 ⟨trivial, empty, calm.condvar call member.1⟩
    exact ⟨by omega, fun call member => absurd member (none_ call),
      fun call member => absurd member (none_ call)⟩
  · refine Calm.fewer ?_ (Set.sep_subset ..)
    exact calm.grown (Nat.pos_of_ne_zero empty) (by omega) (by omega) fd

theorem takes_calmly : (calmly queue).Takes := by
  intro memory parked next calm some_ _ may
  have some_ : 0 < memory.cursize := some_
  have shrunk : wrappingPred memory.cursize = memory.cursize - 1 := if_neg (Nat.ne_of_gt some_)
  refine Calm.shrunk calm may some_ (fun call member => ⟨member.1, fun full => ?_⟩) shrunk rfl
  exact Int.not_lt.mp fun negative => member.2 ⟨trivial, full, negative⟩

theorem keeps_program (small : queue.maxsize < 2 ^ 32) (call : BlockingCall) :
    (calmly queue).Keeps call Finished (call.program queue) none := by
  cases call with
  | add fuel element =>
      refine Discipline.keeps_add (fun memory _ calm full negative => ?_) (puts_calmly small _)
      exact calm.park (Nat.not_lt.mpr (Nat.le_of_eq full.symm)) negative
  | add2 fuel first second =>
      refine Discipline.keeps_add2 (fun memory _ calm short negative => ?_) (puts_calmly small _)
      have short : queue.maxsize < memory.cursize + 2 := short
      refine calm.park (fun ready => ?_) negative
      simp only [BlockingCall.ready] at ready
      omega
  | sub fuel size =>
      refine Discipline.keeps_sub (fun memory _ calm empty negative => ?_) takes_calmly
      exact calm.park (fun ready => Nat.ne_of_gt ready empty) negative

end Calm

/-! ## Runs -/

abbrev QueuePool (ι : Type) : Type :=
  Pool Op Op.Ret SvmQueueError Unit BlockingCall ι Memory

/-- The threads before their first calls, on a fresh queue with its descriptors set. -/
def startPool {ι : Type} (memory : Memory) (producer consumer : Int)
    (calls : ι → List BlockingCall) : QueuePool ι :=
  ⟨{ memory with producerEvtfd := producer, consumerEvtfd := consumer }, none,
    fun t => .idle (calls t)⟩

/-- **No lost wakeup.** In every run of any number of threads on a fresh queue whose removals all
spare the parked calls, no parked call could go on while the mutex is free. -/
theorem no_lost_wakeup {ι : Type} [DecidableEq ι] (config : SvmQueueConfig) (data : Bytes)
    (queue : SvmQueue) (memory : Memory) (producer consumer : Int)
    (calls : ι → List BlockingCall) (pool : QueuePool ι)
    (created : config.init data = .ok (queue, memory))
    (run : Runs behavior (BlockingCall.program queue) (Spares queue)
      (startPool memory producer consumer calls) pool)
    (free : pool.owner = none) (t : ι) (call : BlockingCall) (resume : Call Unit)
    (later : List BlockingCall) (parked : pool.threads t = .parked call resume later) :
    ¬ call.ready queue pool.shared := by
  rcases init_eq created with ⟨-, rfl, rfl⟩
  let fresh : SvmQueue := ⟨config.nels.toNat, config.elsize.toNat⟩
  have empty : Calm fresh ⟨0, 0, 0, producer, consumer, data⟩ ∅ :=
    ⟨Nat.zero_le _, fun _ none_ => none_.elim, fun _ none_ => none_.elim⟩
  have start : Sound behavior (Spares fresh) (Calm fresh)
      (startPool ⟨0, 0, 0, -1, -1, data⟩ producer consumer calls) := sound_of_idle empty calls
  have sound := start.runs (fun _ _ _ smaller calm => calm.fewer smaller)
    (keeps_program config.nels.toNat_lt) run
  exact (sound.free free).asleep call ⟨t, resume, later, parked⟩

/-! ## Played runs -/

/-- A played run that ends with the thread `t` parked and the mutex free; `later` are the calls
that the thread has still to make. -/
theorem run_to_parked {ι : Type} [DecidableEq ι] (queue : SvmQueue)
    {allowed : Op → Memory → Set BlockingCall → Prop}
    (effects : (op : Op) → Memory → Option (Effect Memory op.Ret))
    (sound : ∀ op memory effect, effects op memory = some effect →
      behavior op memory effect ∧ ∀ P, allowed op memory P)
    (start : QueuePool ι) (schedule : List ι) (t : ι) (call : BlockingCall)
    (later : List BlockingCall) (cursize : Nat)
    (played : (start.play effects (BlockingCall.program queue) schedule).map (fun pool =>
      (pool.owner, (pool.threads t).asleep, (pool.threads t).later, pool.shared.cursize)) =
        some (none, some call, later, cursize)) :
    ∃ pool, Runs behavior (BlockingCall.program queue) allowed start pool ∧ pool.owner = none ∧
      pool.shared.cursize = cursize ∧ ∃ resume, pool.threads t = .parked call resume later := by
  obtain ⟨pool, reached, seen⟩ := Option.map_eq_some_iff.mp played
  simp only [Prod.mk.injEq] at seen
  obtain ⟨free, asleep, calls, count⟩ := seen
  obtain ⟨resume, calls', parked⟩ := parked_of_asleep asleep
  rw [parked] at calls
  obtain rfl : calls' = later := calls
  exact ⟨pool, runs_of_play sound reached, free, count, resume, parked⟩

/-- One effect for each operation, and no removal that may leave a parked call asleep. -/
def sparing (queue : SvmQueue) : (op : Op) → Memory → Option (Effect Memory op.Ret)
  | .access .fetchSub, memory =>
      if memory.consumerEvtfd < 0 ∧ memory.cursize + 1 ≠ queue.maxsize then
        alone.pick (.access .fetchSub) memory
      else none
  | op, memory => alone.pick op memory

theorem sparing_sound (queue : SvmQueue) (op : Op) (memory : Memory)
    (effect : Effect Memory op.Ret) (picked : sparing queue op memory = some effect) :
    behavior op memory effect ∧ ∀ P, Spares queue op memory P := by
  cases op with
  | access what =>
      cases what with
      | fetchSub =>
          simp only [sparing] at picked
          split at picked
          · next spared =>
              refine ⟨alone.reliable_of_pick _ _ _ picked, fun P =>
                ⟨fun _ fd => ?_, fun one => ?_⟩⟩
              · exact absurd fd (Int.not_le.mpr spared.1)
              · exact absurd one spared.2
          · cases picked
      | _ => exact ⟨alone.reliable_of_pick _ _ _ picked, fun _ => trivial⟩
  | _ => exact ⟨alone.reliable_of_pick _ _ _ picked, fun _ => trivial⟩

/-- Three removals of one thread, and an addition of each of two others. -/
def crossing (t : Fin 3) : List BlockingCall :=
  if t = 0 then [.sub 9 1, .sub 9 1, .sub 9 1] else if t = 1 then [.add 9 [1]] else [.add 9 [2]]

/-- One slot and no descriptors. The first removal parks and is woken by an addition; the second
addition parks and is woken by that removal, the second removal parks and is woken by that
addition; and the third one parks on the empty queue and could not go on. -/
theorem no_lost_wakeup_crossing :
    ∃ pool : QueuePool (Fin 3), Runs behavior (BlockingCall.program ⟨1, 1⟩) (Spares ⟨1, 1⟩)
        (startPool ⟨0, 0, 0, -1, -1, [0]⟩ (-1) (-1) crossing) pool ∧
      pool.owner = none ∧ (∃ resume, pool.threads 0 = .parked (.sub 9 1) resume []) ∧
      ¬ BlockingCall.ready ⟨1, 1⟩ pool.shared (.sub 9 1) := by
  obtain ⟨pool, run, free, -, resume, parked⟩ := run_to_parked ⟨1, 1⟩ (sparing ⟨1, 1⟩)
    (sparing_sound ⟨1, 1⟩) (startPool ⟨0, 0, 0, -1, -1, [0]⟩ (-1) (-1) crossing)
    (List.replicate 6 0 ++ List.replicate 12 1 ++ List.replicate 6 2 ++ List.replicate 19 0 ++
      List.replicate 11 2 ++ List.replicate 19 0) 0 (.sub 9 1) [] 0 (by decide +kernel)
  exact ⟨pool, run, free, ⟨resume, parked⟩, no_lost_wakeup ⟨1, 1⟩ [0] ⟨1, 1⟩ _ (-1) (-1) _ pool
    rfl run free 0 _ resume [] parked⟩

/-- One slot, and a descriptor for the consumers only: the removal of the element writes to the
descriptor, and the second `add` sleeps on with the queue empty. -/
theorem lost_wakeup :
    ¬ ∀ (ι : Type) (_ : DecidableEq ι) (config : SvmQueueConfig) (data : Bytes) (queue : SvmQueue)
      (memory : Memory) (producer consumer : Int) (calls : ι → List BlockingCall)
      (pool : QueuePool ι), config.init data = .ok (queue, memory) →
      Runs behavior (BlockingCall.program queue) (fun _ _ _ => True)
        (startPool memory producer consumer calls) pool → pool.owner = none →
      ∀ t call resume later, pool.threads t = .parked call resume later →
        ¬ call.ready queue pool.shared := by
  intro always
  rcases run_to_parked ⟨1, 1⟩ alone.pick
    (fun op memory effect picked => ⟨alone.reliable_of_pick op memory effect picked,
      fun _ => trivial⟩)
    (startPool ⟨0, 0, 0, -1, -1, [0]⟩ (-1) 5
      fun t : Bool => if t then [.add 9 [1], .add 9 [2]] else [.sub 9 1])
    (List.replicate 18 true ++ List.replicate 13 false) true (.add 9 [2]) [] 0 (by decide +kernel)
    with ⟨pool, run, free, count, resume, parked⟩
  refine always Bool inferInstance ⟨1, 1⟩ [0] ⟨1, 1⟩ _ (-1) 5 _ pool rfl run free true _ resume
    [] parked ?_
  simp [BlockingCall.ready, count]

/-- Two slots and no descriptors: with one element in the queue a pair is parked; the removal of
the element sends no signal, and the pair sleeps on with two free places. -/
theorem lost_wakeup_pair :
    ∃ pool : QueuePool Bool, Runs behavior (BlockingCall.program ⟨2, 1⟩) (fun _ _ _ => True)
        (startPool ⟨0, 0, 0, -1, -1, [0, 0]⟩ (-1) (-1)
          fun t => if t then [.add 9 [1], .add2 9 [2] [3]] else [.sub 9 1]) pool ∧
      pool.owner = none ∧ BlockingCall.ready ⟨2, 1⟩ pool.shared (.add2 9 [2] [3]) ∧
      ∃ resume later, pool.threads true = .parked (.add2 9 [2] [3]) resume later := by
  rcases run_to_parked ⟨2, 1⟩ alone.pick
    (fun op memory effect picked => ⟨alone.reliable_of_pick op memory effect picked,
      fun _ => trivial⟩)
    (startPool ⟨0, 0, 0, -1, -1, [0, 0]⟩ (-1) (-1)
      fun t : Bool => if t then [.add 9 [1], .add2 9 [2] [3]] else [.sub 9 1])
    (List.replicate 18 true ++ List.replicate 11 false) true (.add2 9 [2] [3]) [] 0
    (by decide +kernel) with ⟨pool, run, free, count, resume, parked⟩
  exact ⟨pool, run, free, by simp [BlockingCall.ready, count], resume, [], parked⟩

end Netsystem.Shmem
