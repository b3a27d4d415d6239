import Netsystem.Ring
import Netsystem.Shmem.Queue

/-!
# The queue is a bounded list

One thread after the other calls the queue with `Nowait`, and locking and signalling succeed
(`orderly`). `Represents queue memory items` ties the shared words and the slots to a list of
elements; `fifo_refinement` says that every sequence of calls on a freshly initialized queue
answers as the list would.
-/

namespace Netsystem.Shmem

open Prog

/-! ## The orderly device -/

/-- The mutex: free, held by the running thread, or left behind by a thread that died. -/
inductive Mutex : Type where
  | free | held | abandoned
  deriving DecidableEq, Repr

/-- The shared memory, the mutex, and the buffer that the running thread passed to `sub`. -/
structure Process : Type where
  memory : Memory
  mutex : Mutex
  buffer : Bytes
  deriving DecidableEq, Repr

/-- A device on which locking and signalling succeed. It refuses a second lock by the same thread
and a wait, for there is no other thread to wake it. -/
def orderly : Device Op Op.Ret Process := fun op process =>
  match op with
  | .access what => (process.memory.run what).map fun (answer, memory) =>
      (answer, { process with memory := memory })
  | .lock _ =>
      match process.mutex with
      | .free => some (.standard, { process with mutex := .held })
      | .abandoned => some (.indeterminate, { process with mutex := .held })
      | .held => none
  | .makeConsistent => some (.ok (), process)
  | .markConsistent => some (.ok (), process)
  | .unlock => some ((), { process with mutex := .free })
  | .guardHeld => some (decide (process.mutex = .held), process)
  | .fill element => some ((), { process with buffer := element })
  | .wait _ => none
  | .notifyAll => some (.ok (), process)
  | .writeEvent _ => some (8, process)
  | .lastOsError => some (0, process)
  | .now => some (0, process)

section Steps

variable {α : Type} {process : Process}

@[simp] theorem exec_load {word : Word} {f : Nat → Call α} :
    ((load word).bind f).exec orderly process =
      (f (process.memory.word word)).exec orderly process := rfl

@[simp] theorem exec_store {word : Word} {value : Nat} {f : Unit → Call α} :
    ((access (.store word value)).bind f).exec orderly process =
      (f ()).exec orderly { process with memory := process.memory.setWord word value } := rfl

@[simp] theorem exec_fetchAdd {f : Unit → Call α} :
    ((access .fetchAdd).bind f).exec orderly process = (f ()).exec orderly { process with
      memory := process.memory.setWord .cursize (wrappingSucc process.memory.cursize) } := rfl

@[simp] theorem exec_fetchSub {f : Unit → Call α} :
    ((access .fetchSub).bind f).exec orderly process = (f ()).exec orderly { process with
      memory := process.memory.setWord .cursize (wrappingPred process.memory.cursize) } := rfl

@[simp] theorem exec_fill {element : Bytes} {f : Unit → Call α} :
    ((fill element).bind f).exec orderly process =
      (f ()).exec orderly { process with buffer := element } := rfl

theorem exec_signal {isProducer : Bool} {operation : SvmQueueOperation} :
    (signal isProducer operation).exec orderly process = (.ok (), process) := by
  have fd : ∃ fd, ∀ f : Int → Call Unit,
      ((loadEvtfd isProducer).bind f).exec orderly process = (f fd).exec orderly process := by
    cases isProducer with
    | true => exact ⟨process.memory.producerEvtfd, fun _ => rfl⟩
    | false => exact ⟨process.memory.consumerEvtfd, fun _ => rfl⟩
  rcases fd with ⟨fd, loaded⟩
  rw [signal, bind_eq, loaded]
  split
  · rfl
  · rfl

/-- The signal on the edge from empty or full, as the calls end with it. -/
theorem exec_signalIf {edge : Prop} [Decidable edge] {isProducer : Bool}
    {operation : SvmQueueOperation} :
    (if edge then signal isProducer operation else pure () : Call Unit).exec orderly process =
      (.ok (), process) := by
  split
  · exact exec_signal
  · rfl

/-- A body that keeps the mutex runs under the lock as it would alone, and the mutex is free
again after it, whether it returned a value or an error. -/
theorem exec_withLock {tryOnly : Bool} {body : Call α} {outcome : Outcome SvmQueueError α}
    {final : Process} (free : process.mutex = .free)
    (run : body.exec orderly { process with mutex := .held } = (outcome, final))
    (ended : outcome ≠ .panic ∧ outcome ≠ .pending) :
    (withLock tryOnly body).exec orderly process = (outcome, { final with mutex := .free }) := by
  have locked : ∀ f : Unit → Call α, ((acquire tryOnly).bind f).exec orderly process =
      (f ()).exec orderly { process with mutex := .held } := by
    intro f
    have answer : orderly (.lock tryOnly) process =
        some (.standard, { process with mutex := .held }) := by
      simp only [orderly, free]
    rw [acquire, lockMutex, bind_eq, bind_perform]
    exact exec_step_of_answer answer
  rw [withLock, bind_eq, locked, bind_eq, exec_bind, exec_attempt, run]
  cases outcome with
  | ok value => rfl
  | error reason => rfl
  | panic => exact absurd rfl ended.1
  | pending => exact absurd rfl ended.2

end Steps

/-! ## Representation -/

/-- Slot `index` of the data area. -/
def slotAt (size : Nat) (data : Bytes) (index : Nat) : Bytes := window data (index * size) size

/-- The queue in shared memory stands for the list `items`, oldest first. -/
structure Represents (queue : SvmQueue) (memory : Memory) (items : List Bytes) : Prop where
  ring : Ring.Holds queue.maxsize memory.head memory.tail memory.cursize
    (slotAt queue.elsize memory.data) items
  addressable : queue.maxsize < 2 ^ 32
  room : queue.maxsize * queue.elsize ≤ memory.data.length

/-- The memory after an element was written behind the tail. -/
def Memory.push (queue : SvmQueue) (memory : Memory) (element : Bytes) : Memory :=
  { memory with
    data := splice memory.data (memory.tail * queue.elsize) element
    tail := Ring.next queue.maxsize memory.tail
    cursize := memory.cursize + 1 }

/-- The memory after the element at the head was removed. -/
def Memory.pop (queue : SvmQueue) (memory : Memory) : Memory :=
  { memory with
    head := Ring.next queue.maxsize memory.head
    cursize := memory.cursize - 1 }

section Representation

variable {queue : SvmQueue} {memory : Memory} {items : List Bytes}

theorem Represents.cursize (represents : Represents queue memory items) :
    memory.cursize = items.length := represents.ring.length.symm

/-- A slot below the capacity lies inside the data area. -/
theorem Represents.slot_inside (represents : Represents queue memory items) {index : Nat}
    (bound : index < queue.maxsize) :
    index * queue.elsize + queue.elsize ≤ memory.data.length := by
  have room := represents.room
  have below : (index + 1) * queue.elsize ≤ queue.maxsize * queue.elsize :=
    Nat.mul_le_mul_right queue.elsize bound
  rw [Nat.succ_mul] at below
  omega

/-- Writing one slot leaves the others alone. -/
theorem Represents.slotAt_splice (represents : Represents queue memory items) {element : Bytes}
    (sized : element.length = queue.elsize) {index other : Nat} (bound : index < queue.maxsize)
    (apart : other ≠ index) :
    slotAt queue.elsize (splice memory.data (index * queue.elsize) element) other =
      slotAt queue.elsize memory.data other := by
  have inside := represents.slot_inside bound
  apply window_splice_disjoint
  · rwa [sized]
  · rw [sized, ← Nat.succ_mul, ← Nat.succ_mul]
    rcases Nat.lt_or_gt_of_ne apart with before | after
    · exact .inl (Nat.mul_le_mul_right _ before)
    · exact .inr (Nat.mul_le_mul_right _ after)

theorem Represents.slotAt_written (represents : Represents queue memory items) {element : Bytes}
    (sized : element.length = queue.elsize) {index : Nat} (bound : index < queue.maxsize) :
    slotAt queue.elsize (splice memory.data (index * queue.elsize) element) index = element := by
  have inside := represents.slot_inside bound
  have start : index * queue.elsize ≤ memory.data.length := by omega
  have written := window_splice_same element start
  rwa [sized] at written

/-- With room to spare, the slot at the tail may hold anything. -/
theorem Represents.written (represents : Represents queue memory items) {element : Bytes}
    (sized : element.length = queue.elsize) (room : memory.cursize < queue.maxsize) :
    Represents queue
      { memory with data := splice memory.data (memory.tail * queue.elsize) element } items where
  ring := represents.ring.overwrite room fun _ _ apart =>
    represents.slotAt_splice sized represents.ring.tail_lt apart
  addressable := represents.addressable
  room := by
    have inside := represents.slot_inside represents.ring.tail_lt
    simp only [length_splice (show memory.tail * queue.elsize + element.length ≤
      memory.data.length by rwa [sized])]
    exact represents.room

theorem Represents.push (represents : Represents queue memory items) {element : Bytes}
    (sized : element.length = queue.elsize) (room : memory.cursize < queue.maxsize) :
    Represents queue (memory.push queue element) (items ++ [element]) where
  ring := represents.ring.push room
    (fun _ _ apart => represents.slotAt_splice sized represents.ring.tail_lt apart)
    (represents.slotAt_written sized represents.ring.tail_lt)
  addressable := represents.addressable
  room := (represents.written sized room).room

theorem Represents.pop {element : Bytes} {rest : List Bytes}
    (represents : Represents queue memory (element :: rest)) :
    slotAt queue.elsize memory.data memory.head = element ∧
      Represents queue (memory.pop queue) rest :=
  ⟨represents.ring.pop.1, represents.ring.pop.2, represents.addressable, represents.room⟩

end Representation

/-! ## Calls under the lock -/

section Calls

variable {queue : SvmQueue} {process : Process} {items : List Bytes}

theorem validate_bind {actual : Nat} (sized : actual = queue.elsize) {α : Type}
    {f : Unit → Call α} : (queue.validateElement actual).bind f = f () := by
  rw [SvmQueue.validateElement, if_neg (not_not.mpr sized)]
  rfl

theorem successor_eq {slot : Nat} (addressable : queue.maxsize < 2 ^ 32)
    (bound : slot < queue.maxsize) :
    queue.successor slot = .done (.ok (Ring.next queue.maxsize slot)) :=
  if_pos (by omega)

theorem exec_writeOne (represents : Represents queue process.memory items) {element : Bytes}
    (sized : element.length = queue.elsize) (room : process.memory.cursize < queue.maxsize) :
    (queue.writeOne element).exec orderly process =
      (.ok (), { process with memory := process.memory.push queue element }) := by
  have inside := represents.slot_inside represents.ring.tail_lt
  have copied : ∀ f : Unit → Call Unit,
      ((access (.copyIn (process.memory.tail * queue.elsize) element)).bind f).exec orderly
        process = (f ()).exec orderly { process with memory := { process.memory with
        data := splice process.memory.data (process.memory.tail * queue.elsize) element } } := by
    intro f
    have answer :
        orderly (.access (.copyIn (process.memory.tail * queue.elsize) element)) process =
      some ((), { process with memory := { process.memory with
        data := splice process.memory.data (process.memory.tail * queue.elsize) element } }) := by
      simp only [orderly, Memory.run, sized, if_pos inside, Option.map_some]
    exact exec_step_of_answer answer
  have grown : wrappingSucc process.memory.cursize = process.memory.cursize + 1 := by
    have addressable := represents.addressable
    exact if_pos (by omega)
  rw [SvmQueue.writeOne, bind_eq, exec_load, List.take_of_length_le (Nat.le_of_eq sized), bind_eq]
  refine (copied _).trans ?_
  rw [bind_eq, Memory.word, successor_eq represents.addressable represents.ring.tail_lt, bind_ok,
    bind_eq, exec_store, ← bind_pure (access .fetchAdd), exec_fetchAdd]
  simp only [Memory.setWord, grown]
  rfl

/-- A blocked waiting loop under `Nowait` is a refusal. -/
theorem exec_whileBlocked {blocked : Call Bool} {full : Bool} (refusal : SvmQueueError)
    (test : blocked.exec orderly process = (.ok full, process)) (fuel : Nat) :
    (whileBlocked .nowait refusal blocked (fuel + 1)).exec orderly process =
      if full then (.error refusal, process) else (.ok (), process) := by
  rw [whileBlocked, bind_eq, exec_bind_of_ok test]
  cases full with
  | true => rfl
  | false => rfl

theorem exec_addNolock (represents : Represents queue process.memory items) {element : Bytes}
    (sized : element.length = queue.elsize) (fuel : Nat) :
    (queue.addNolock (fuel + 1) .nowait element).exec orderly process =
      if items.length < queue.maxsize then
        (.ok (), { process with memory := process.memory.push queue element })
      else (.error .queueFull, process) := by
  have count := represents.cursize
  have bound := represents.ring.count_le
  have test : queue.full.exec orderly process =
      (.ok (decide (process.memory.cursize = queue.maxsize)), process) := rfl
  rw [SvmQueue.addNolock, bind_eq, validate_bind sized, bind_eq]
  by_cases room : items.length < queue.maxsize
  · have open_ := exec_whileBlocked .queueFull test fuel
    rw [decide_eq_false (by omega)] at open_
    rw [exec_bind_of_ok open_, bind_eq, exec_load, bind_eq,
      exec_bind_of_ok (exec_writeOne represents sized (by omega)), if_pos room]
    exact exec_signalIf
  · have full := exec_whileBlocked .queueFull test fuel
    rw [decide_eq_true (by omega)] at full
    rw [exec_bind_of_error full, if_neg room]

/-- The test of the wait for two free places. -/
theorem exec_short (represents : Represents queue process.memory items) :
    queue.short.exec orderly process =
      (.ok (decide (queue.maxsize - process.memory.cursize < 2)), process) := by
  have bound := represents.ring.count_le
  rw [SvmQueue.short, bind_eq, exec_load, Memory.word, if_neg (by omega)]
  rfl

theorem exec_add2Nolock (represents : Represents queue process.memory items)
    {first second : Bytes} (firstSized : first.length = queue.elsize)
    (secondSized : second.length = queue.elsize) (fuel : Nat) :
    (queue.add2Nolock (fuel + 1) .nowait first second).exec orderly process =
      if items.length + 2 ≤ queue.maxsize then
        (.ok (), { process with
          memory := (process.memory.push queue first).push queue second })
      else (.error .queueFull, process) := by
  have count := represents.cursize
  have bound := represents.ring.count_le
  rw [SvmQueue.add2Nolock, bind_eq, validate_bind firstSized, bind_eq, validate_bind secondSized]
  by_cases narrow : queue.maxsize < 2
  · rw [if_pos narrow, if_neg (by omega)]
    rfl
  have test := exec_short represents
  rw [if_neg narrow, bind_eq]
  by_cases room : items.length + 2 ≤ queue.maxsize
  · have open_ := exec_whileBlocked .queueFull test fuel
    rw [decide_eq_false (by omega)] at open_
    have once := represents.push firstSized (by omega)
    have twice : (queue.writeOne second).exec orderly
        { process with memory := process.memory.push queue first } = (.ok (), { process with
          memory := (process.memory.push queue first).push queue second }) :=
      exec_writeOne once secondSized (by simp only [Memory.push]; omega)
    rw [exec_bind_of_ok open_, bind_eq, exec_load, bind_eq,
      exec_bind_of_ok (exec_writeOne represents firstSized (by omega)), bind_eq,
      exec_bind_of_ok twice, if_pos room]
    exact exec_signalIf
  · have full := exec_whileBlocked .queueFull test fuel
    rw [decide_eq_true (by omega)] at full
    rw [exec_bind_of_error full, if_neg room]

/-- A removal delivers the oldest element. -/
theorem exec_subNolock {element : Bytes} {rest : List Bytes}
    (represents : Represents queue process.memory (element :: rest)) :
    queue.subNolock.exec orderly process =
      (.ok (), { process with memory := process.memory.pop queue, buffer := element }) := by
  have count := represents.cursize
  rw [List.length_cons] at count
  have bound := represents.ring.count_le
  have addressable := represents.addressable
  have inside := represents.slot_inside represents.ring.head_lt
  have copied : ∀ f : Bytes → Call Unit,
      ((access (.copyOut (process.memory.head * queue.elsize) queue.elsize)).bind f).exec orderly
        process = (f element).exec orderly process := by
    intro f
    have answer : orderly (.access (.copyOut (process.memory.head * queue.elsize) queue.elsize))
        process = some (element, process) := by
      simp only [orderly, Memory.run, if_pos inside, Option.map_some]
      rw [show window _ _ _ = element from represents.pop.1]
    exact exec_step_of_answer answer
  have shrunk : wrappingPred process.memory.cursize = process.memory.cursize - 1 :=
    if_neg (by omega)
  rw [SvmQueue.subNolock, bind_eq, exec_load, Memory.word, if_neg (by omega), bind_eq, exec_load,
    bind_eq]
  refine (copied _).trans ?_
  rw [bind_eq, exec_fill, bind_eq, exec_load, bind_eq, Memory.word,
    successor_eq addressable represents.ring.head_lt, bind_ok, bind_eq, exec_store, bind_eq]
  rw [exec_fetchSub]
  simp only [Memory.setWord, shrunk]
  exact exec_signalIf

theorem exec_subNolock_empty (represents : Represents queue process.memory []) :
    queue.subNolock.exec orderly process = (.error .empty, process) := by
  rw [SvmQueue.subNolock, bind_eq, exec_load, Memory.word,
    if_pos (show process.memory.cursize = 0 from represents.cursize)]
  rfl

end Calls

/-! ## Sequences of calls -/

/-- A call with `Nowait`, made with buffers of one element each. -/
inductive QueueCall : Type where
  | add (element : Bytes)
  | add2 (first second : Bytes)
  | sub
  | sub2
  | addNolock (element : Bytes)
  | add2Nolock (first second : Bytes)
  | subRaw

/-- The call as a program; the calls on a lock take it with `try_lock` first. -/
def QueueCall.program (queue : SvmQueue) (fuel : Nat) : QueueCall → Call Unit
  | .add element => queue.add fuel element .nowait
  | .add2 first second => queue.add2 fuel first second .nowait
  | .sub => queue.sub fuel queue.elsize .nowait
  | .sub2 => queue.sub2 queue.elsize
  | .addNolock element => withLock true (queue.addNolock fuel .nowait element)
  | .add2Nolock first second => withLock true (queue.add2Nolock fuel .nowait first second)
  | .subRaw => withLock true (queue.subRaw queue.elsize)

/-- The elements passed in have the size of an element. -/
def QueueCall.Sized (size : Nat) : QueueCall → Prop
  | .add element => element.length = size
  | .add2 first second => first.length = size ∧ second.length = size
  | .addNolock element => element.length = size
  | .add2Nolock first second => first.length = size ∧ second.length = size
  | _ => True

/-- What a call came back with: its result and the element it delivered, if any. -/
structure Reply : Type where
  outcome : Outcome SvmQueueError Unit
  delivered : Bytes
  deriving DecidableEq, Repr

/-- `additions` behind a list of at most `capacity` elements. -/
def addList (capacity : Nat) (items additions : List Bytes) : Reply × List Bytes :=
  if items.length + additions.length ≤ capacity then (⟨.ok (), []⟩, items ++ additions)
  else (⟨.error .queueFull, []⟩, items)

/-- The oldest element of a list. -/
def subList : List Bytes → Reply × List Bytes
  | [] => (⟨.error .empty, []⟩, [])
  | element :: rest => (⟨.ok (), element⟩, rest)

/-- What the call answers, and does, on a bounded list. -/
def QueueCall.onList (capacity : Nat) (items : List Bytes) : QueueCall → Reply × List Bytes
  | .add element => addList capacity items [element]
  | .add2 first second => addList capacity items [first, second]
  | .addNolock element => addList capacity items [element]
  | .add2Nolock first second => addList capacity items [first, second]
  | .sub => subList items
  | .sub2 => subList items
  | .subRaw => subList items

/-- A sequence of calls on the queue, with the replies. -/
def serve (queue : SvmQueue) (fuel : Nat) : List QueueCall → Process → List Reply × Process
  | [], process => ([], process)
  | call :: calls, process =>
      let run := (call.program queue fuel).exec orderly { process with buffer := [] }
      let rest := serve queue fuel calls run.2
      (⟨run.1, run.2.buffer⟩ :: rest.1, rest.2)

/-- A sequence of calls on a bounded list, with the replies. -/
def serveList (capacity : Nat) : List QueueCall → List Bytes → List Reply × List Bytes
  | [], items => ([], items)
  | call :: calls, items =>
      let step := call.onList capacity items
      let rest := serveList capacity calls step.2
      (step.1 :: rest.1, rest.2)

/-- A process between two calls whose queue stands for `items`. -/
structure Settled (queue : SvmQueue) (process : Process) (items : List Bytes) : Prop where
  represents : Represents queue process.memory items
  free : process.mutex = .free

section Sequences

variable {queue : SvmQueue} {process : Process} {items : List Bytes}

/-- A body under the lock that ends as `reply` says, from a process between two calls. -/
def Answers (queue : SvmQueue) (body : Call Unit) (process : Process)
    (step : Reply × List Bytes) : Prop :=
  ∃ final, body.exec orderly process = (step.1.outcome, final) ∧
    final.buffer = step.1.delivered ∧ Represents queue final.memory step.2

theorem Answers.withLock {body : Call Unit} (step : Reply × List Bytes) {tryOnly : Bool}
    (free : process.mutex = .free)
    (answers : Answers queue body { process with mutex := .held } step)
    (ended : step.1.outcome ≠ .panic ∧ step.1.outcome ≠ .pending) :
    ∃ final, (Shmem.withLock tryOnly body).exec orderly process = (step.1.outcome, final) ∧
      final.buffer = step.1.delivered ∧ Settled queue final step.2 := by
  rcases answers with ⟨final, run, delivered, represents⟩
  exact ⟨{ final with mutex := .free }, exec_withLock free run ended, delivered, represents, rfl⟩

theorem addList_ended {capacity : Nat} {additions : List Bytes} :
    (addList capacity items additions).1.outcome ≠ .panic ∧
      (addList capacity items additions).1.outcome ≠ .pending := by
  unfold addList
  split <;> simp

theorem subList_ended :
    (subList items).1.outcome ≠ .panic ∧ (subList items).1.outcome ≠ .pending := by
  cases items <;> simp [subList]

theorem answers_addNolock (represents : Represents queue process.memory items) {element : Bytes}
    (sized : element.length = queue.elsize) (fuel : Nat) (clear : process.buffer = []) :
    Answers queue (queue.addNolock (fuel + 1) .nowait element) process
      (addList queue.maxsize items [element]) := by
  unfold Answers addList
  rw [exec_addNolock represents sized fuel, List.length_singleton]
  by_cases room : items.length + 1 ≤ queue.maxsize
  · rw [if_pos room, if_pos (by omega)]
    have count := represents.cursize
    exact ⟨_, rfl, clear, represents.push sized (by omega)⟩
  · rw [if_neg room, if_neg (by omega)]
    exact ⟨_, rfl, clear, represents⟩

theorem answers_add2Nolock (represents : Represents queue process.memory items)
    {first second : Bytes} (firstSized : first.length = queue.elsize)
    (secondSized : second.length = queue.elsize) (fuel : Nat) (clear : process.buffer = []) :
    Answers queue (queue.add2Nolock (fuel + 1) .nowait first second) process
      (addList queue.maxsize items [first, second]) := by
  unfold Answers addList
  rw [exec_add2Nolock represents firstSized secondSized fuel,
    show [first, second].length = 2 from rfl]
  by_cases room : items.length + 2 ≤ queue.maxsize
  · rw [if_pos room, if_pos room]
    have count := represents.cursize
    have once := represents.push firstSized (by omega)
    have twice := once.push secondSized (by simp only [Memory.push]; omega)
    rw [List.append_assoc] at twice
    exact ⟨_, rfl, clear, twice⟩
  · rw [if_neg room, if_neg room]
    exact ⟨_, rfl, clear, represents⟩

theorem answers_subNolock (represents : Represents queue process.memory items)
    (clear : process.buffer = []) :
    Answers queue queue.subNolock process (subList items) := by
  cases items with
  | nil => exact ⟨_, exec_subNolock_empty represents, clear, represents⟩
  | cons element rest => exact ⟨_, exec_subNolock represents, rfl, represents.pop.2⟩

theorem answers_subLoop (represents : Represents queue process.memory items) (fuel : Nat)
    (clear : process.buffer = []) :
    Answers queue (queue.subLoop .nowait (fuel + 1)) process (subList items) := by
  have count := represents.cursize
  cases items with
  | nil =>
      refine ⟨process, ?_, clear, represents⟩
      rw [SvmQueue.subLoop, bind_eq, exec_load, Memory.word, if_neg (not_not.mpr
        (show process.memory.cursize = 0 from count))]
      rfl
  | cons element rest =>
      refine ⟨{ process with memory := process.memory.pop queue, buffer := element }, ?_, rfl,
        represents.pop.2⟩
      rw [SvmQueue.subLoop, bind_eq, exec_load, Memory.word, if_pos (by simp [count]),
        exec_subNolock represents]
      rfl

theorem answers_sub2 (represents : Represents queue process.memory items)
    (clear : process.buffer = []) :
    Answers queue (do
      let cursize ← load .cursize
      if cursize = 0 then .throw .empty else queue.subNolock) process (subList items) := by
  have count := represents.cursize
  unfold Answers
  rw [bind_eq, exec_load, Memory.word]
  cases items with
  | nil =>
      rw [if_pos (show process.memory.cursize = 0 from count)]
      exact ⟨process, rfl, clear, represents⟩
  | cons element rest =>
      rw [if_neg (by simp [count])]
      exact answers_subNolock represents clear

/-- One call answers as on the list, and leaves the queue standing for the new list. -/
theorem exec_call (settled : Settled queue process items) (call : QueueCall)
    (sized : call.Sized queue.elsize) (fuel : Nat) :
    ∃ final, (call.program queue (fuel + 1)).exec orderly { process with buffer := [] } =
        ((call.onList queue.maxsize items).1.outcome, final) ∧
      final.buffer = (call.onList queue.maxsize items).1.delivered ∧
      Settled queue final (call.onList queue.maxsize items).2 := by
  rcases settled with ⟨represents, free⟩
  let locked : Process := { process with buffer := [], mutex := .held }
  have held : Represents queue locked.memory items := represents
  cases call with
  | add element =>
      rw [QueueCall.program, SvmQueue.add, bind_eq, validate_bind sized]
      exact Answers.withLock _ free (answers_addNolock held sized fuel rfl) addList_ended
  | add2 first second =>
      rw [QueueCall.program, SvmQueue.add2, bind_eq, validate_bind sized.1, bind_eq,
        validate_bind sized.2]
      exact Answers.withLock _ free (answers_add2Nolock held sized.1 sized.2 fuel rfl)
        addList_ended
  | sub =>
      rw [QueueCall.program, SvmQueue.sub, bind_eq, validate_bind rfl]
      exact Answers.withLock _ free (answers_subLoop held fuel rfl) subList_ended
  | sub2 =>
      rw [QueueCall.program, SvmQueue.sub2, bind_eq, validate_bind rfl]
      exact Answers.withLock _ free (answers_sub2 held rfl) subList_ended
  | addNolock element =>
      exact Answers.withLock _ free (answers_addNolock held sized fuel rfl) addList_ended
  | add2Nolock first second =>
      exact Answers.withLock _ free (answers_add2Nolock held sized.1 sized.2 fuel rfl)
        addList_ended
  | subRaw =>
      have removed : Answers queue (queue.subRaw queue.elsize) locked (subList items) := by
        rw [Answers, SvmQueue.subRaw, bind_eq, validate_bind rfl]
        exact answers_subNolock held rfl
      exact Answers.withLock _ free removed subList_ended

/-- Induction on the calls: the queue answers every sequence as the list does. -/
theorem serve_eq (settled : Settled queue process items) (fuel : Nat) (calls : List QueueCall)
    (sized : ∀ call ∈ calls, call.Sized queue.elsize) :
    (serve queue (fuel + 1) calls process).1 = (serveList queue.maxsize calls items).1 ∧
      Settled queue (serve queue (fuel + 1) calls process).2
        (serveList queue.maxsize calls items).2 := by
  induction calls generalizing process items with
  | nil => exact ⟨rfl, settled⟩
  | cons call calls ih =>
      rcases exec_call settled call (sized call (List.mem_cons_self ..)) fuel with
        ⟨final, run, delivered, next⟩
      have rest := ih next fun other member => sized other (List.mem_cons_of_mem _ member)
      simp only [serve, serveList, run, delivered]
      exact ⟨by rw [rest.1], rest.2⟩

/-- A freshly initialized queue is empty. -/
theorem settled_of_init {config : SvmQueueConfig} {data : Bytes} {memory : Memory}
    (room : config.nels.toNat * config.elsize.toNat ≤ data.length)
    (created : config.init data = .ok (queue, memory)) :
    Settled queue ⟨memory, .free, []⟩ [] := by
  rcases init_eq created with ⟨capacity, rfl, rfl⟩
  have positive : 0 < config.nels.toNat :=
    Nat.pos_of_ne_zero fun zero => capacity (UInt32.toNat_inj.mp zero)
  exact ⟨⟨Ring.Holds.empty positive _, config.nels.toNat_lt, room⟩, rfl⟩

end Sequences

/-- Every sequence of calls on a queue created by `init` in a large enough allocation answers as a
bounded list of `nels` elements does, and leaves a queue that stands for the list left over. -/
theorem fifo_refinement (config : SvmQueueConfig) (data : Bytes) (queue : SvmQueue)
    (memory : Memory) (fuel : Nat) (calls : List QueueCall)
    (room : config.nels.toNat * config.elsize.toNat ≤ data.length)
    (created : config.init data = .ok (queue, memory))
    (sized : ∀ call ∈ calls, call.Sized config.elsize.toNat) :
    (serve queue (fuel + 1) calls ⟨memory, .free, []⟩).1 =
        (serveList config.nels.toNat calls []).1 ∧
      Represents queue (serve queue (fuel + 1) calls ⟨memory, .free, []⟩).2.memory
        (serveList config.nels.toNat calls []).2 := by
  have settled := settled_of_init room created
  rcases init_eq created with ⟨-, rfl, rfl⟩
  have answered := serve_eq settled fuel calls sized
  exact ⟨answered.1, answered.2.represents⟩

/-- Two places: a pair fits, a third element does not, and the pair comes back in order. -/
theorem fifo_refinement_pair :
    (serve ⟨2, 1⟩ 1 [.add2 [7] [8], .add [9], .sub, .sub2, .subRaw]
        ⟨⟨0, 0, 0, -1, -1, [0, 0]⟩, .free, []⟩).1 =
      [⟨.ok (), []⟩, ⟨.error .queueFull, []⟩, ⟨.ok (), [7]⟩, ⟨.ok (), [8]⟩,
        ⟨.error .empty, []⟩] := by
  refine (fifo_refinement ⟨2, 1⟩ [0, 0] ⟨2, 1⟩ ⟨0, 0, 0, -1, -1, [0, 0]⟩ 0 _ (by decide) ?_
    ?_).1.trans ?_
  · rfl
  · simp [QueueCall.Sized]
  · rfl

end Netsystem.Shmem
