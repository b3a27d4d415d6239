import Netsystem.Shmem.Fifo
import Netsystem.Shmem.Threads

/-!
# One queue, any number of threads

Threads of any number of processes call one queue in any order and with any mode of waiting.
`Traced` is its memory with two records: the elements that were copied into slots and those that
were handed to callers. The mutex may refuse a call, waits end early, late or with an error, and a
signal may fail. `elements_conserved` is about every run: the elements handed out, and those that
are still in the queue, are the elements that were put in, in that order, and what a call puts in
stays together.
-/

namespace Netsystem.Shmem.Concurrent

open Prog Monitor

/-! ## Calls -/

/-- A method of a lock that `try_lock` gave out. -/
inductive LockMethod : Type where
  | addNolock (fuel : Nat) (element : Bytes)
  | add2Nolock (fuel : Nat) (first second : Bytes)
  | subRaw (size : Nat)
  | sendSignal (isProducer : Bool)

def LockMethod.program (queue : SvmQueue) : LockMethod → Call Unit
  | .addNolock fuel element => queue.addNolock fuel .nowait element
  | .add2Nolock fuel first second => queue.add2Nolock fuel .nowait first second
  | .subRaw size => queue.subRaw size
  | .sendSignal isProducer => signal isProducer .add

/-- The elements that a method puts in, if it does. -/
def LockMethod.offers : LockMethod → List (List Bytes)
  | .addNolock _ element => [[element]]
  | .add2Nolock _ first second => [[first, second]]
  | .subRaw _ => []
  | .sendSignal _ => []

/-- One method after the other, whether they return values or errors. -/
def lockMethods (queue : SvmQueue) : List LockMethod → Call Unit
  | [] => pure ()
  | method :: rest => do
      let _ ← (Prog.attempt (method.program queue) : Call (Except SvmQueueError Unit))
      lockMethods queue rest

inductive SharedCall : Type where
  | add (fuel : Nat) (element : Bytes) (conditionalWait : ConditionalWait)
  | add2 (fuel : Nat) (first second : Bytes) (conditionalWait : ConditionalWait)
  | sub (fuel size : Nat) (conditionalWait : ConditionalWait)
  | sub2 (size : Nat)
  | tryLocked (methods : List LockMethod)

def SharedCall.program (queue : SvmQueue) : SharedCall → Call Unit
  | .add fuel element conditionalWait => queue.add fuel element conditionalWait
  | .add2 fuel first second conditionalWait => queue.add2 fuel first second conditionalWait
  | .sub fuel size conditionalWait => queue.sub fuel size conditionalWait
  | .sub2 size => queue.sub2 size
  | .tryLocked methods => withLock true (lockMethods queue methods)

/-- The batches that a call may put in, each as a whole. -/
def SharedCall.offers : SharedCall → List (List Bytes)
  | .add _ element _ => [[element]]
  | .add2 _ first second _ => [[first, second]]
  | .sub _ _ _ => []
  | .sub2 _ => []
  | .tryLocked methods => methods.flatMap LockMethod.offers

/-! ## The queue as a monitor -/

/-- The memory, what was copied into slots and what was handed to callers, oldest first. -/
structure Traced : Type where
  memory : Memory
  written : List Bytes
  delivered : List Bytes

/-- What an access copies into a slot. -/
def wrote : Access → List Bytes
  | .copyIn _ element => [element]
  | _ => []

def traced : Carrier Traced where
  memory s := s.memory
  accessed what memory s := { s with memory := memory, written := s.written ++ wrote what }
  filled element s := { s with delivered := s.delivered ++ [element] }
  memory_accessed _ _ _ := rfl
  memory_filled _ _ := rfl
  read what s reads := by
    cases what with
    | store word value => cases reads
    | fetchAdd => cases reads
    | fetchSub => cases reads
    | copyIn offset element => cases reads
    | _ => exact congrArg (Traced.mk s.memory · s.delivered) (List.append_nil s.written)

/-- What each operation does, and what may fail. No thread dies with the mutex. -/
def behavior : Behavior Op Op.Ret Traced := fun op s effect =>
  traced.reliable op s effect ∨ failing op s effect

/-- The elements are batches that were offered, one behind the other. -/
def Batched (offered : List Bytes → Prop) (written : List Bytes) : Prop :=
  ∃ batches : List (List Bytes), written = batches.flatten ∧ ∀ batch ∈ batches, offered batch

theorem Batched.snoc {offered : List Bytes → Prop} {written batch : List Bytes}
    (batched : Batched offered written) (offer : offered batch) :
    Batched offered (written ++ batch) := by
  obtain ⟨batches, rfl, each⟩ := batched
  refine ⟨batches ++ [batch], by simp, fun other member => ?_⟩
  rcases List.mem_append.mp member with old | new
  · exact each other old
  · exact List.mem_singleton.mp new ▸ offer

/-- Everything that was put in, in batches as they were offered, is handed out, in the same order,
or still there. -/
def Conserved (offered : List Bytes → Prop) (queue : SvmQueue) (s : Traced) : Prop :=
  ∃ items, Represents queue s.memory items ∧ s.written = s.delivered ++ items ∧
    Batched offered s.written

/-- Conservation is an invariant for the threads of one queue. -/
def conserving (offered : List Bytes → Prop) (queue : SvmQueue) :
    Discipline Traced SharedCall where
  carrier := traced
  queue := queue
  behavior := behavior
  allowed _ _ _ := True
  holds s _ := Conserved offered queue s
  certain := False
  within _ _ _ can := can
  heard never := never.elim
  fewer _ _ _ _ conserved := conserved
  bounded s _ conserved := by
    obtain ⟨items, represents, -⟩ := conserved
    have count := represents.ring.count_le
    exact count

/-! ## Adding and removing -/

section Changes

variable {offered : List Bytes → Prop} {queue : SvmQueue}

/-- The elements are written behind the others, in their order. -/
theorem represents_of_writes {elements items : List Bytes} {s s' : Traced}
    (represents : Represents queue s.memory items)
    (room : s.memory.cursize + elements.length ≤ queue.maxsize)
    (writes : traced.Writes queue elements s s') :
    Represents queue s'.memory (items ++ elements) ∧ s'.written = s.written ++ elements ∧
      s'.delivered = s.delivered := by
  induction elements generalizing s items with
  | nil =>
      obtain rfl : s' = s := writes
      rw [List.append_nil, List.append_nil]
      exact ⟨represents, rfl, rfl⟩
  | cons element rest ih =>
      obtain ⟨next, sized, found, writes⟩ := writes
      rw [List.length_cons] at room
      have addressable := represents.addressable
      have following := successor_eq addressable represents.ring.tail_lt
      obtain rfl : Ring.next queue.maxsize s.memory.tail = next := by
        cases following.symm.trans found
        rfl
      have grown : wrappingSucc s.memory.cursize = s.memory.cursize + 1 := if_pos (by omega)
      have pushed : traced.written queue element (Ring.next queue.maxsize s.memory.tail) s =
          { s with
            memory := s.memory.push queue element
            written := s.written ++ [element] } := by
        simp only [Carrier.written, traced, wrote, List.append_nil, grown]
        rfl
      rw [pushed] at writes
      have one := represents.push sized (by omega)
      obtain ⟨represents, written, delivered⟩ :=
        ih one (show s.memory.cursize + 1 + rest.length ≤ queue.maxsize by omega) writes
      rw [List.append_assoc] at represents
      refine ⟨represents, written.trans ?_, delivered⟩
      exact List.append_assoc s.written [element] rest

theorem puts_conserving {elements : List Bytes} (offer : offered elements) :
    (conserving offered queue).Puts elements := by
  intro s _ s' conserved room writes
  obtain ⟨items, represents, order, batched⟩ := conserved
  obtain ⟨represents, written, delivered⟩ := represents_of_writes represents room writes
  refine ⟨_, represents, ?_, written ▸ batched.snoc offer⟩
  rw [written, delivered, order, List.append_assoc]

/-- A removal hands out the oldest element. -/
theorem takes_conserving : (conserving offered queue).Takes := by
  intro s _ next conserved some_ found _
  obtain ⟨items, represents, order, batched⟩ := conserved
  have count := represents.cursize
  have some_ : 0 < s.memory.cursize := some_
  cases items with
  | nil => exact absurd count (Nat.ne_of_gt some_)
  | cons element rest =>
      have following := successor_eq represents.addressable represents.ring.head_lt
      obtain rfl : Ring.next queue.maxsize s.memory.head = next := by
        cases following.symm.trans found
        rfl
      have shrunk : wrappingPred s.memory.cursize = s.memory.cursize - 1 :=
        if_neg (Nat.ne_of_gt some_)
      have oldest : window s.memory.data (s.memory.head * queue.elsize) queue.elsize = element :=
        represents.pop.1
      have popped : traced.removed queue (Ring.next queue.maxsize s.memory.head) s =
          { s with
            memory := s.memory.pop queue
            delivered := s.delivered ++ [element] } := by
        simp only [Carrier.removed, Carrier.handed, traced, wrote, List.append_nil,
          shrunk, oldest]
        rfl
      show Conserved offered queue
        (traced.removed queue (Ring.next queue.maxsize s.memory.head) s)
      rw [popped]
      refine ⟨rest, represents.pop.2, ?_, batched⟩
      show s.written = (s.delivered ++ [element]) ++ rest
      rw [order, List.append_assoc]
      rfl

theorem parks_conserving (call : SharedCall) (blocked : Memory → Prop) :
    (conserving offered queue).Parks call blocked := fun _ _ conserved _ _ => conserved

end Changes

/-! ## Calls -/

section Calls

variable {offered : List Bytes → Prop} {queue : SvmQueue} {call : SharedCall} {s : Traced}
  {parked : Set SharedCall}

theorem keeps_sub2 (conserved : Conserved offered queue s) :
    (conserving offered queue).Keeps call ((conserving offered queue).Returns False) (do
      let cursize ← load .cursize
      if cursize = 0 then .throw .empty else queue.subNolock) (some (s, parked)) := by
  rw [bind_eq]
  apply Discipline.keeps_load
  intro fewer _
  split
  · exact .inr ⟨s, fewer, rfl, conserved⟩
  · exact Discipline.keeps_subNolock takes_conserving conserved

/-- A method of a lock that never waits keeps the mutex. -/
theorem keeps_lockMethod {method : LockMethod} (offers : ∀ batch ∈ method.offers, offered batch)
    (conserved : Conserved offered queue s) :
    (conserving offered queue).Keeps call ((conserving offered queue).Returns False)
      (method.program queue) (some (s, parked)) := by
  have never (outcome : Outcome SvmQueueError Unit) (view : View SharedCall Traced)
      (back : (conserving offered queue).Returns (ConditionalWait.nowait ≠ .nowait)
        outcome view) :
      (conserving offered queue).Returns False outcome view := by
    cases outcome with
    | error reason => exact back.imp_left fun lost => absurd rfl lost.1
    | ok value => exact back
    | panic => trivial
    | pending => trivial
  cases method with
  | addNolock fuel element =>
      have puts : (conserving offered queue).Puts [element] :=
        puts_conserving (offers _ List.mem_cons_self)
      exact (Discipline.keeps_addNolock (parks_conserving call _) puts conserved).mono never
  | add2Nolock fuel first second =>
      have puts : (conserving offered queue).Puts [first, second] :=
        puts_conserving (offers _ List.mem_cons_self)
      exact (Discipline.keeps_add2Nolock (parks_conserving call _) puts conserved).mono never
  | subRaw size =>
      rw [LockMethod.program, SvmQueue.subRaw, bind_eq]
      apply Discipline.keeps_validate fun _ => .inr ⟨s, parked, rfl, conserved⟩
      exact fun _ => Discipline.keeps_subNolock takes_conserving conserved
  | sendSignal isProducer => exact Discipline.keeps_signal conserved

/-- Induction on the methods. -/
theorem keeps_lockMethods {methods : List LockMethod}
    (offers : ∀ batch ∈ methods.flatMap LockMethod.offers, offered batch)
    (conserved : Conserved offered queue s) :
    (conserving offered queue).Keeps call ((conserving offered queue).Returns False)
      (lockMethods queue methods) (some (s, parked)) := by
  induction methods generalizing s parked with
  | nil => exact ⟨s, parked, rfl, conserved, trivial⟩
  | cons method rest ih =>
      rw [List.flatMap_cons, List.forall_mem_append] at offers
      rw [lockMethods, bind_eq]
      have attempted : (conserving offered queue).Keeps call
          ((conserving offered queue).Returns False)
          (Prog.attempt (method.program queue) : Call (Except SvmQueueError Unit))
          (some (s, parked)) := by
        apply (keeps_lockMethod offers.1 conserved).attempt
        intro outcome view back
        cases outcome with
        | ok value => exact back
        | error reason =>
            rcases back with ⟨never, -⟩ | ⟨s, parked, rfl, conserved⟩
            · exact never.elim
            · exact ⟨s, parked, rfl, conserved, trivial⟩
        | panic => trivial
        | pending => trivial
      exact attempted.andThen fun _ s parked conserved _ => ih offers.2 conserved

theorem keeps_program {call made : SharedCall} (offers : ∀ batch ∈ made.offers, offered batch) :
    (conserving offered queue).Keeps call Finished (made.program queue) none := by
  cases made with
  | add fuel element conditionalWait =>
      exact Discipline.keeps_add (parks_conserving call _)
        (puts_conserving (offers _ List.mem_cons_self))
  | add2 fuel first second conditionalWait =>
      exact Discipline.keeps_add2 (parks_conserving call _)
        (puts_conserving (offers _ List.mem_cons_self))
  | sub fuel size conditionalWait =>
      exact Discipline.keeps_sub (parks_conserving call _) takes_conserving
  | sub2 size =>
      rw [SharedCall.program, SvmQueue.sub2, bind_eq]
      apply Discipline.keeps_validate Discipline.finished_of_refusal
      exact fun _ => Discipline.keeps_withLock fun _ _ => keeps_sub2
  | tryLocked methods => exact Discipline.keeps_withLock fun _ _ => keeps_lockMethods offers

end Calls

/-! ## Runs -/

abbrev SharedPool (ι : Type) : Type := Pool Op Op.Ret SvmQueueError Unit SharedCall ι Traced

/-- The threads before their first calls, on a fresh queue with its descriptors set. -/
def start {ι : Type} (memory : Memory) (producer consumer : Int) (calls : ι → List SharedCall) :
    SharedPool ι :=
  ⟨⟨{ memory with producerEvtfd := producer, consumerEvtfd := consumer }, [], []⟩, none,
    fun t => .idle (calls t)⟩

end Netsystem.Shmem.Concurrent
