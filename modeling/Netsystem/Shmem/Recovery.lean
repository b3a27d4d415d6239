import Netsystem.Shmem.Fifo

/-!
# Death of the mutex owner

A process may die between two stores of `add_nolock`, `add2_nolock` or `sub_nolock`. The next one
to lock the queue gets the mutex in the indeterminate state, makes it consistent and reports
`OwnerDied`; it repairs no word of the queue. `recovers_iff` says after which deaths the queue
still stands for the list before or after the interrupted call: all but those that leave the tail
or the head moved without the count, or the first element of a pair without the second
(`Critical.torn`).
-/

namespace Netsystem.Shmem

open Prog

/-! ## Interrupted calls -/

/-- The bodies under the lock that store to the queue. -/
inductive Critical : Type where
  | addNolock (element : Bytes)
  | add2Nolock (first second : Bytes)
  | subNolock

def Critical.body (queue : SvmQueue) (fuel : Nat) : Critical → Call Unit
  | .addNolock element => queue.addNolock fuel .nowait element
  | .add2Nolock first second => queue.add2Nolock fuel .nowait first second
  | .subNolock => queue.subNolock

/-- The call that runs the body to its end. -/
def Critical.call : Critical → QueueCall
  | .addNolock element => .addNolock element
  | .add2Nolock first second => .add2Nolock first second
  | .subNolock => .subRaw

/-- What is left when the owner of the mutex dies inside the body after `survived` stores. -/
def interrupted (queue : SvmQueue) (fuel : Nat) (critical : Critical) (survived : Nat)
    (process : Process) : Process :=
  { (critical.body queue fuel).died orderly Op.isStore survived
    { process with mutex := .held } with
    mutex := .abandoned }

/-- The process after the next locker went through `acquire`. -/
def recovered (tryOnly : Bool) (process : Process) : Process :=
  ((acquire tryOnly).exec orderly process).2

/-- The locker of an abandoned mutex frees it, reports the death and touches nothing else. -/
theorem exec_acquire_abandoned {process : Process} (abandoned : process.mutex = .abandoned)
    (tryOnly : Bool) :
    (acquire tryOnly).exec orderly process =
      (.error .ownerDied, { process with mutex := .free }) := by
  have answer : orderly (.lock tryOnly) process =
      some (.indeterminate, { process with mutex := .held }) := by
    simp only [orderly, abandoned]
  rw [acquire, lockMutex, bind_eq, bind_perform]
  exact exec_step_of_answer answer

/-- The memory when the writer of an element died after `survived` of its three stores. -/
def Memory.pushing (queue : SvmQueue) (memory : Memory) (element : Bytes) : Nat → Memory
  | 0 => memory
  | 1 => { memory with data := splice memory.data (memory.tail * queue.elsize) element }
  | 2 => { memory with
      data := splice memory.data (memory.tail * queue.elsize) element
      tail := Ring.next queue.maxsize memory.tail }
  | _ => memory.push queue element

/-- The memory when the remover of an element died after `survived` of its two stores. -/
def Memory.popping (queue : SvmQueue) (memory : Memory) : Nat → Memory
  | 0 => memory
  | 1 => { memory with head := Ring.next queue.maxsize memory.head }
  | _ => memory.pop queue

section Deaths

variable {queue : SvmQueue} {process : Process} {items : List Bytes} {survived : Nat}

theorem stores_signal {isProducer : Bool} {operation : SvmQueueOperation} :
    (signal isProducer operation).stores orderly Op.isStore process = 0 := by
  have fd : ∃ fd, ∀ f : Int → Call Unit,
      ((loadEvtfd isProducer).bind f).stores orderly Op.isStore process =
        (f fd).stores orderly Op.isStore process := by
    cases isProducer with
    | true => exact ⟨process.memory.producerEvtfd, fun _ => rfl⟩
    | false => exact ⟨process.memory.consumerEvtfd, fun _ => rfl⟩
  rcases fd with ⟨fd, loaded⟩
  rw [signal, bind_eq, loaded]
  split
  · rfl
  · rfl

theorem stores_signalIf {edge : Prop} [Decidable edge] {isProducer : Bool}
    {operation : SvmQueueOperation} :
    (if edge then signal isProducer operation else pure () : Call Unit).stores orderly Op.isStore
      process = 0 := by
  split
  · exact stores_signal
  · rfl

@[simp] theorem died_load {α : Type} {word : Word} {f : Nat → Call α} :
    ((load word).bind f).died orderly Op.isStore survived process =
      (f (process.memory.word word)).died orderly Op.isStore survived process := rfl

@[simp] theorem stores_load {α : Type} {word : Word} {f : Nat → Call α} :
    ((load word).bind f).stores orderly Op.isStore process =
      (f (process.memory.word word)).stores orderly Op.isStore process := rfl

@[simp] theorem died_fill {element : Bytes} {f : Unit → Call Unit} :
    ((fill element).bind f).died orderly Op.isStore survived process =
      (f ()).died orderly Op.isStore survived { process with buffer := element } := rfl

theorem answer_copyIn (represents : Represents queue process.memory items) {element : Bytes}
    (sized : element.length = queue.elsize) :
    orderly (.access (.copyIn (process.memory.tail * queue.elsize) element)) process =
      some ((), { process with memory := process.memory.pushing queue element 1 }) := by
  have inside := represents.slot_inside represents.ring.tail_lt
  simp only [orderly, Memory.run, sized, if_pos inside, Option.map_some, Memory.pushing]

theorem stores_writeOne (represents : Represents queue process.memory items) {element : Bytes}
    (sized : element.length = queue.elsize) :
    (queue.writeOne element).stores orderly Op.isStore process = 3 := by
  rw [SvmQueue.writeOne, bind_eq, stores_load, List.take_of_length_le (Nat.le_of_eq sized),
    bind_eq]
  refine (stores_step (answer_copyIn represents sized)).trans ?_
  rw [bind_eq, Memory.word, successor_eq represents.addressable represents.ring.tail_lt, bind_ok]
  rfl

/-- The writer of an element dies in one of four states. -/
theorem died_writeOne (represents : Represents queue process.memory items) {element : Bytes}
    (sized : element.length = queue.elsize) (room : process.memory.cursize < queue.maxsize) :
    (queue.writeOne element).died orderly Op.isStore survived process =
      { process with memory := process.memory.pushing queue element survived } := by
  by_cases late : 3 ≤ survived
  · rw [died_of_stores_le (by rwa [stores_writeOne represents sized]),
      exec_writeOne represents sized room]
    obtain ⟨more, rfl⟩ := Nat.exists_eq_add_of_le' late
    rfl
  rw [SvmQueue.writeOne, bind_eq, died_load, List.take_of_length_le (Nat.le_of_eq sized), bind_eq]
  rcases survived with _ | _ | _ | survived
  · exact died_store_zero (answer_copyIn represents sized) rfl
  · refine (died_store_succ (answer_copyIn represents sized) rfl).trans ?_
    rw [bind_eq, Memory.word, successor_eq represents.addressable represents.ring.tail_lt,
      bind_ok]
    rfl
  · refine (died_store_succ (answer_copyIn represents sized) rfl).trans ?_
    rw [bind_eq, Memory.word, successor_eq represents.addressable represents.ring.tail_lt,
      bind_ok]
    rfl
  · omega

/-- A waiting loop stores nothing. -/
theorem stores_whileBlocked {blocked : Call Bool} {full : Bool} (refusal : SvmQueueError)
    (test : blocked.exec orderly process = (.ok full, process))
    (quiet : blocked.stores orderly Op.isStore process = 0) (fuel : Nat) :
    (whileBlocked .nowait refusal blocked (fuel + 1)).stores orderly Op.isStore process = 0 := by
  rw [whileBlocked, bind_eq, stores_bind test, quiet]
  cases full with
  | true => rfl
  | false => rfl

theorem died_addNolock (represents : Represents queue process.memory items) {element : Bytes}
    (sized : element.length = queue.elsize) (fuel : Nat) :
    (queue.addNolock (fuel + 1) .nowait element).died orderly Op.isStore survived process =
      { process with memory :=
          if process.memory.cursize < queue.maxsize then
            process.memory.pushing queue element survived
          else process.memory } := by
  have bound := represents.ring.count_le
  have test : queue.full.exec orderly process =
      (.ok (decide (process.memory.cursize = queue.maxsize)), process) := rfl
  rw [SvmQueue.addNolock, bind_eq, validate_bind sized, bind_eq]
  by_cases room : process.memory.cursize < queue.maxsize
  · have passes := exec_whileBlocked .queueFull test fuel
    rw [decide_eq_false (by omega)] at passes
    rw [died_bind_of_quiet passes (stores_whileBlocked _ test rfl fuel), bind_eq, died_load,
      bind_eq, died_bind_quiet (exec_writeOne represents sized room) stores_signalIf
        (by rw [exec_signalIf]), died_writeOne represents sized room, if_pos room]
  · have full := exec_whileBlocked .queueFull test fuel
    rw [decide_eq_true (by omega)] at full
    rw [died_of_stores_le, exec_bind_of_error full, if_neg room]
    rw [stores_bind_of_error full, stores_whileBlocked _ test rfl fuel]
    exact Nat.zero_le _

theorem died_add2Nolock (represents : Represents queue process.memory items)
    {first second : Bytes} (firstSized : first.length = queue.elsize)
    (secondSized : second.length = queue.elsize) (fuel : Nat) :
    (queue.add2Nolock (fuel + 1) .nowait first second).died orderly Op.isStore survived process =
      { process with memory :=
          if process.memory.cursize + 2 ≤ queue.maxsize then
            if survived < 3 then process.memory.pushing queue first survived
            else (process.memory.push queue first).pushing queue second (survived - 3)
          else process.memory } := by
  have bound := represents.ring.count_le
  rw [SvmQueue.add2Nolock, bind_eq, validate_bind firstSized, bind_eq, validate_bind secondSized]
  by_cases narrow : queue.maxsize < 2
  · rw [if_pos narrow, if_neg (by omega)]
    rfl
  have test := exec_short represents
  have quiet : queue.short.stores orderly Op.isStore process = 0 := by
    rw [SvmQueue.short, bind_eq, stores_load, Memory.word, if_neg (by omega)]
    rfl
  rw [if_neg narrow, bind_eq]
  by_cases room : process.memory.cursize + 2 ≤ queue.maxsize
  · have passes := exec_whileBlocked .queueFull test fuel
    rw [decide_eq_false (by omega)] at passes
    have once := represents.push firstSized (by omega)
    let half : Process := { process with memory := process.memory.push queue first }
    have represented : Represents queue half.memory (items ++ [first]) := once
    have open_ : half.memory.cursize < queue.maxsize := by
      simp only [half, Memory.push]
      omega
    rw [died_bind_of_quiet passes (stores_whileBlocked _ test quiet fuel), bind_eq, died_load,
      bind_eq, died_bind (exec_writeOne represents firstSized (by omega)),
      stores_writeOne represents firstSized, died_writeOne represents firstSized (by omega),
      bind_eq, if_pos room]
    have later : ∀ edge : Prop, ∀ [Decidable edge],
        ((queue.writeOne second).bind fun _ =>
          if edge then signal true .addPair else pure ()).died orderly Op.isStore (survived - 3)
            half =
          { half with memory := half.memory.pushing queue second (survived - 3) } := by
      intro edge _
      rw [died_bind_quiet (exec_writeOne represented secondSized open_) stores_signalIf
        (by rw [exec_signalIf]), died_writeOne represented secondSized open_]
    split
    · rfl
    · exact later _
  · have full := exec_whileBlocked .queueFull test fuel
    rw [decide_eq_true (by omega)] at full
    rw [died_of_stores_le, exec_bind_of_error full, if_neg room]
    rw [stores_bind_of_error full, stores_whileBlocked _ test quiet fuel]
    exact Nat.zero_le _

/-- The remover of an element dies in one of three states. -/
theorem died_subNolock {element : Bytes} {rest : List Bytes}
    (represents : Represents queue process.memory (element :: rest)) :
    queue.subNolock.died orderly Op.isStore survived process =
      { process with memory := process.memory.popping queue survived, buffer := element } := by
  have count := represents.cursize
  rw [List.length_cons] at count
  have addressable := represents.addressable
  have inside := represents.slot_inside represents.ring.head_lt
  have answer : orderly (.access (.copyOut (process.memory.head * queue.elsize) queue.elsize))
      process = some (element, process) := by
    simp only [orderly, Memory.run, if_pos inside, Option.map_some]
    rw [show window _ _ _ = element from represents.pop.1]
  have shrunk : wrappingPred process.memory.cursize = process.memory.cursize - 1 :=
    if_neg (by omega)
  rw [SvmQueue.subNolock, bind_eq, died_load, Memory.word, if_neg (by omega), bind_eq, died_load,
    bind_eq]
  refine (died_step_of_quiet answer Bool.false_ne_true).trans ?_
  rw [bind_ok, bind_eq, died_fill, bind_eq, died_load, bind_eq, Memory.word,
    successor_eq addressable represents.ring.head_lt, bind_ok, bind_eq]
  rcases survived with _ | _ | survived
  · rfl
  · rfl
  · refine (died_of_stores_le (stores_signalIf.trans_le (Nat.zero_le _))).trans ?_
    rw [exec_signalIf]
    simp only [Memory.popping, Memory.pop, Memory.setWord, shrunk]

end Deaths

/-! ## What the next locker finds -/

/-- The deaths that leave one word of the ring ahead of the count, or half of a pair. With a
single slot, head and tail never move. -/
def Critical.torn (queue : SvmQueue) (memory : Memory) (survived : Nat) : Critical → Prop
  | .addNolock _ => memory.cursize < queue.maxsize ∧ 2 ≤ queue.maxsize ∧ survived = 2
  | .add2Nolock _ _ => memory.cursize + 2 ≤ queue.maxsize ∧ 2 ≤ survived ∧ survived ≤ 5
  | .subNolock => 0 < memory.cursize ∧ 2 ≤ queue.maxsize ∧ survived = 1

/-- The number of stores of a body that is not refused. -/
def Critical.length : Critical → Nat
  | .addNolock _ => 3
  | .add2Nolock _ _ => 6
  | .subNolock => 2

/-- The list after a death that tore nothing: the call counts from its last store on. -/
def Critical.left (queue : SvmQueue) (items : List Bytes) (critical : Critical) (survived : Nat) :
    List Bytes :=
  if survived < critical.length then items else (critical.call.onList queue.maxsize items).2

section Finding

variable {queue : SvmQueue} {memory : Memory} {process : Process} {items : List Bytes}
  {survived : Nat}

theorem Represents.pushing (represents : Represents queue memory items) (survived : Nat)
    {element : Bytes}
    (sized : element.length = queue.elsize) (room : memory.cursize < queue.maxsize)
    (whole : ¬ (2 ≤ queue.maxsize ∧ survived = 2)) :
    Represents queue (memory.pushing queue element survived)
      (if survived < 3 then items else items ++ [element]) := by
  have written := represents.written sized room
  rcases survived with _ | _ | _ | survived
  · exact represents
  · exact written
  · -- a single slot: the tail moves from slot 0 to slot 0
    have stays : Ring.next queue.maxsize memory.tail = memory.tail := by
      have bound := represents.ring.tail_lt
      rw [Ring.next, if_pos (by omega)]
      omega
    rw [Memory.pushing, stays]
    exact written
  · rw [if_neg (by omega)]
    exact represents.push sized room

theorem Represents.not_pushing (represents : Represents queue memory items) {element : Bytes}
    (wide : 2 ≤ queue.maxsize) (items' : List Bytes) :
    ¬ Represents queue (memory.pushing queue element 2) items' :=
  fun torn => represents.ring.not_of_tail_moved wide torn.ring

theorem Represents.popping {element : Bytes} {rest : List Bytes}
    (represents : Represents queue memory (element :: rest))
    (whole : ¬ (2 ≤ queue.maxsize ∧ survived = 1)) :
    Represents queue (memory.popping queue survived)
      (if survived < 2 then element :: rest else rest) := by
  rcases survived with _ | _ | survived
  · exact represents
  · have stays : Ring.next queue.maxsize memory.head = memory.head := by
      have bound := represents.ring.head_lt
      rw [Ring.next, if_pos (by omega)]
      omega
    rw [Memory.popping, stays]
    exact represents
  · rw [if_neg (by omega)]
    exact represents.pop.2

theorem Represents.not_popping (represents : Represents queue memory items)
    (wide : 2 ≤ queue.maxsize) (items' : List Bytes) :
    ¬ Represents queue (memory.popping queue 1) items' :=
  fun torn => represents.ring.not_of_head_moved wide torn.ring

section Interrupted

variable (settled : Settled queue process items) (fuel : Nat)

include settled

/-! The memory that each body leaves when it dies. -/

theorem interrupted_addNolock {element : Bytes} (sized : element.length = queue.elsize) :
    (interrupted queue (fuel + 1) (.addNolock element) survived process).memory =
      if process.memory.cursize < queue.maxsize then
        process.memory.pushing queue element survived
      else process.memory := by
  let locked : Process := { process with mutex := .held }
  have held : Represents queue locked.memory items := settled.represents
  exact congrArg Process.memory (died_addNolock held sized fuel)

theorem interrupted_add2Nolock {first second : Bytes} (firstSized : first.length = queue.elsize)
    (secondSized : second.length = queue.elsize) :
    (interrupted queue (fuel + 1) (.add2Nolock first second) survived process).memory =
      if process.memory.cursize + 2 ≤ queue.maxsize then
        if survived < 3 then process.memory.pushing queue first survived
        else (process.memory.push queue first).pushing queue second (survived - 3)
      else process.memory := by
  let locked : Process := { process with mutex := .held }
  have held : Represents queue locked.memory items := settled.represents
  exact congrArg Process.memory (died_add2Nolock held firstSized secondSized fuel)

theorem interrupted_subNolock :
    (interrupted queue (fuel + 1) .subNolock survived process).memory =
      if 0 < process.memory.cursize then process.memory.popping queue survived
      else process.memory := by
  let locked : Process := { process with mutex := .held }
  have held : Represents queue locked.memory items := settled.represents
  have count := settled.represents.cursize
  cases items with
  | nil =>
      rw [if_neg (by simp [count])]
      have quiet : queue.subNolock.stores orderly Op.isStore locked = 0 := by
        rw [SvmQueue.subNolock, bind_eq, stores_load, Memory.word,
          if_pos (show locked.memory.cursize = 0 from count)]
        rfl
      have stays : queue.subNolock.died orderly Op.isStore survived locked = locked := by
        rw [died_of_stores_le (quiet.trans_le (Nat.zero_le _)), exec_subNolock_empty held]
      have same : (interrupted queue (fuel + 1) .subNolock survived process).memory =
          locked.memory := by
        rw [interrupted, Critical.body, stays]
      exact same
  | cons element rest =>
      rw [if_pos (by simp [count])]
      exact congrArg Process.memory (died_subNolock held)

/-- After a death that tore nothing the queue stands for the list before or after the call. -/
theorem represents_interrupted (critical : Critical) (sized : critical.call.Sized queue.elsize)
    (whole : ¬ critical.torn queue process.memory survived) :
    Represents queue (interrupted queue (fuel + 1) critical survived process).memory
      (critical.left queue items survived) := by
  have represents := settled.represents
  have count := represents.cursize
  cases critical with
  | addNolock element =>
      have sized : element.length = queue.elsize := sized
      rw [interrupted_addNolock settled fuel sized, Critical.left, Critical.call,
        QueueCall.onList, addList]
      by_cases room : process.memory.cursize < queue.maxsize
      · rw [if_pos room, if_pos (show items.length + [element].length ≤ queue.maxsize from
          show items.length + 1 ≤ queue.maxsize by omega)]
        exact represents.pushing survived sized room fun torn => whole ⟨room, torn⟩
      · rw [if_neg room, if_neg (show ¬ items.length + [element].length ≤ queue.maxsize from
          show ¬ items.length + 1 ≤ queue.maxsize by omega), ite_self]
        exact represents
  | add2Nolock first second =>
      have firstSized : first.length = queue.elsize := sized.1
      rw [interrupted_add2Nolock settled fuel firstSized sized.2, Critical.left, Critical.length,
        Critical.call, QueueCall.onList, addList]
      by_cases room : process.memory.cursize + 2 ≤ queue.maxsize
      · rw [if_pos room, if_pos (show items.length + [first, second].length ≤ queue.maxsize from
          show items.length + 2 ≤ queue.maxsize by omega)]
        have outside : ¬ (2 ≤ survived ∧ survived ≤ 5) := fun torn => whole ⟨room, torn⟩
        by_cases early : survived < 2
        · have before := represents.pushing survived firstSized (by omega)
            (by omega)
          rw [if_pos (by omega)] at before
          rw [if_pos (by omega), if_pos (by omega)]
          exact before
        · have once := represents.push firstSized (by omega)
          have after := once.pushing (survived - 3) sized.2
            (by simp only [Memory.push]; omega) (by omega)
          rw [if_neg (by omega), List.append_assoc] at after
          rw [if_neg (by omega), if_neg (by omega)]
          exact after
      · rw [if_neg room, if_neg (show ¬ items.length + [first, second].length ≤ queue.maxsize from
          show ¬ items.length + 2 ≤ queue.maxsize by omega), ite_self]
        exact represents
  | subNolock =>
      rw [interrupted_subNolock settled fuel, Critical.left, Critical.call, QueueCall.onList]
      cases items with
      | nil =>
          rw [if_neg (by simp [count]), subList, ite_self]
          exact represents
      | cons element rest =>
          have some_ : 0 < process.memory.cursize := by simp [count]
          rw [if_pos some_]
          exact represents.popping fun torn => whole ⟨some_, torn⟩

/-- After a death that tore the call the queue stands for neither list. -/
theorem not_represents_interrupted (critical : Critical)
    (sized : critical.call.Sized queue.elsize)
    (torn : critical.torn queue process.memory survived) :
    ¬ Represents queue (interrupted queue (fuel + 1) critical survived process).memory items ∧
      ¬ Represents queue (interrupted queue (fuel + 1) critical survived process).memory
        (critical.call.onList queue.maxsize items).2 := by
  have represents := settled.represents
  have count := represents.cursize
  cases critical with
  | addNolock element =>
      rcases torn with ⟨room, wide, rfl⟩
      rw [interrupted_addNolock settled fuel sized, if_pos room]
      exact ⟨represents.not_pushing wide _, represents.not_pushing wide _⟩
  | add2Nolock first second =>
      rcases torn with ⟨room, late, early⟩
      have firstSized : first.length = queue.elsize := sized.1
      have wide : 2 ≤ queue.maxsize := by omega
      rw [interrupted_add2Nolock settled fuel firstSized sized.2, if_pos room]
      by_cases half : survived < 3
      · obtain rfl : survived = 2 := by omega
        rw [if_pos half]
        exact ⟨represents.not_pushing wide _, represents.not_pushing wide _⟩
      rw [if_neg half]
      have once := represents.push firstSized (by omega)
      by_cases second_ : survived = 5
      · subst second_
        exact ⟨once.not_pushing wide _, once.not_pushing wide _⟩
      -- between the two writes the queue stands for the list with the first element alone
      · have middle := once.pushing (survived - 3) sized.2
          (by simp only [Memory.push]; omega) (by omega)
        rw [if_pos (by omega)] at middle
        rw [Critical.call, QueueCall.onList, addList,
          if_pos (show items.length + [first, second].length ≤ queue.maxsize from
          show items.length + 2 ≤ queue.maxsize by omega)]
        constructor
        · intro same
          simpa using congrArg List.length (middle.ring.unique same.ring)
        · intro same
          simpa using congrArg List.length (middle.ring.unique same.ring)
  | subNolock =>
      rcases torn with ⟨some_, wide, rfl⟩
      rw [interrupted_subNolock settled fuel, if_pos some_]
      exact ⟨represents.not_popping wide _, represents.not_popping wide _⟩

end Interrupted

end Finding

/-! ## Recovery -/

/-- The next locker reports the death and leaves a free queue that stands for the list before or
after the interrupted call, and serves every later sequence of calls from there. -/
def Recovers (queue : SvmQueue) (process : Process) (before after : List Bytes) : Prop :=
  ∀ tryOnly, (acquire tryOnly).exec orderly process =
      (.error .ownerDied, recovered tryOnly process) ∧
    ∃ items, (items = before ∨ items = after) ∧
      Settled queue (recovered tryOnly process) items ∧
      ∀ fuel calls, (∀ call ∈ calls, QueueCall.Sized queue.elsize call) →
        (serve queue (fuel + 1) calls (recovered tryOnly process)).1 =
          (serveList queue.maxsize calls items).1

/-- The processes that calls and recoverable deaths lead to from `init`, with their lists. -/
inductive Reachable (queue : SvmQueue) : Process → List Bytes → Prop where
  | init {config : SvmQueueConfig} {data : Bytes} {memory : Memory}
      (room : config.nels.toNat * config.elsize.toNat ≤ data.length)
      (created : config.init data = .ok (queue, memory)) :
      Reachable queue ⟨memory, .free, []⟩ []
  | call {process : Process} {items : List Bytes} (reached : Reachable queue process items)
      (call : QueueCall) (sized : call.Sized queue.elsize) (fuel : Nat) :
      Reachable queue
        ((call.program queue (fuel + 1)).exec orderly { process with buffer := [] }).2
        (call.onList queue.maxsize items).2
  | death {process : Process} {items : List Bytes} (reached : Reachable queue process items)
      (critical : Critical) (sized : critical.call.Sized queue.elsize) (fuel survived : Nat)
      (whole : ¬ critical.torn queue process.memory survived) (tryOnly : Bool) :
      Reachable queue
        (recovered tryOnly (interrupted queue (fuel + 1) critical survived process))
        (critical.left queue items survived)

section Recovery

variable {queue : SvmQueue} {process : Process} {items : List Bytes}

theorem recovered_interrupted (tryOnly : Bool) (fuel : Nat) (critical : Critical)
    (survived : Nat) :
    recovered tryOnly (interrupted queue fuel critical survived process) =
      { interrupted queue fuel critical survived process with mutex := .free } := by
  rw [recovered, exec_acquire_abandoned rfl]

theorem Reachable.settled (reached : Reachable queue process items) :
    Settled queue process items := by
  induction reached with
  | init room created => exact settled_of_init room created
  | call _ call sized fuel ih =>
      rcases exec_call ih call sized fuel with ⟨final, run, -, next⟩
      rw [run]
      exact next
  | death _ critical sized fuel survived whole tryOnly ih =>
      rw [recovered_interrupted]
      exact ⟨represents_interrupted ih fuel critical sized whole, rfl⟩

/-- **Recovery.** From every reachable process, the queue recovers from a death of the mutex owner
exactly when the death did not tear the interrupted call. -/
theorem recovers_iff (reached : Reachable queue process items) (critical : Critical)
    (sized : critical.call.Sized queue.elsize) (fuel survived : Nat) :
    Recovers queue (interrupted queue (fuel + 1) critical survived process) items
        (critical.call.onList queue.maxsize items).2 ↔
      ¬ critical.torn queue process.memory survived := by
  have settled := reached.settled
  constructor
  · intro recovers torn
    rcases recovers false with ⟨-, found, either, ⟨represents, -⟩, -⟩
    rw [recovered_interrupted] at represents
    have neither := not_represents_interrupted settled fuel critical sized torn
    rcases either with rfl | rfl
    · exact neither.1 represents
    · exact neither.2 represents
  · intro whole tryOnly
    have next := (reached.death critical sized fuel survived whole tryOnly).settled
    refine ⟨?_, critical.left queue items survived, ?_, next, fun _ _ sized =>
      (serve_eq next _ _ sized).1⟩
    · rw [recovered_interrupted, exec_acquire_abandoned rfl]
    · rw [Critical.left]
      split
      · exact .inl rfl
      · exact .inr rfl

end Recovery

/-- Two slots of one byte each. -/
theorem reachable_fresh : Reachable ⟨2, 1⟩ ⟨⟨0, 0, 0, -1, -1, [0, 0]⟩, .free, []⟩ [] := by
  have created : SvmQueueConfig.init ⟨2, 1⟩ [0, 0] =
      .ok (⟨2, 1⟩, ⟨0, 0, 0, -1, -1, [0, 0]⟩) := rfl
  exact .init (by decide) created

/-- An add of one byte that dies with the slot written, before the tail moves, recovers. -/
theorem recovers_written :
    Recovers ⟨2, 1⟩
      (interrupted ⟨2, 1⟩ 1 (.addNolock [7]) 1 ⟨⟨0, 0, 0, -1, -1, [0, 0]⟩, .free, []⟩)
      [] [[7]] := by
  refine (recovers_iff reachable_fresh (.addNolock [7]) rfl 0 1).mpr ?_
  simp [Critical.torn]

/-- The add of one byte that dies with the tail moved and the count not yet: after one more add
the queue delivers the byte of the interrupted add and then reports that it is empty. -/
theorem torn_not_recovers :
    ¬ ∀ (queue : SvmQueue) (process : Process) (items : List Bytes) (critical : Critical)
      (fuel survived : Nat), Reachable queue process items → critical.call.Sized queue.elsize →
      Recovers queue (interrupted queue (fuel + 1) critical survived process) items
        (critical.call.onList queue.maxsize items).2 := by
  intro always
  rcases (always _ _ _ (.addNolock [7]) 0 2 reachable_fresh rfl) true with
    ⟨-, items, either, -, served⟩
  have replies := served 0 [.add [9], .sub, .sub] (by simp [QueueCall.Sized])
  have stale : (serve ⟨2, 1⟩ 1 [.add [9], .sub, .sub] (recovered true (interrupted ⟨2, 1⟩ 1
      (.addNolock [7]) 2 ⟨⟨0, 0, 0, -1, -1, [0, 0]⟩, .free, []⟩))).1 =
        [⟨.ok (), []⟩, ⟨.ok (), [7]⟩, ⟨.error .empty, []⟩] := by
    rfl
  rw [stale] at replies
  rcases either with rfl | rfl
  · revert replies
    decide
  · revert replies
    decide

end Netsystem.Shmem
