import Netsystem.Bytes
import Netsystem.Program

/-!
# The shared queue

`hammer-shmem/src/queue.rs` as programs over the operations of one thread: its loads and stores of
the shared words, copies in and out of the slots, and the calls to the POSIX mutex, the condition
variable and the event descriptors. `u32` words are naturals below `2 ^ 32`; the additions that
the source leaves unchecked end in `panic` when they overflow.

`SvmQueueLock::guard` is the state of the thread: `lock` fills it, `unlock` empties it (and does
nothing when it is empty), `guardHeld` asks for it. Loops that wait take a bound on their passes
and are abandoned (`pending`) when it is spent. Memory orderings, and the addition of a timeout to
an instant beyond the end of the clock, are not modelled.
-/

namespace Netsystem.Shmem

/-! ## Errors -/

/-- An error number of the operating system. -/
abbrev Errno : Type := Int

inductive SvmQueueOperation : Type where
  | add | addPair | sub
  deriving DecidableEq, Repr

inductive CondvarWaitError : Type where
  | ownerDead
  | other (source : Errno)
  deriving DecidableEq, Repr

inductive WaitOutcome : Type where
  | notified | timedOut
  deriving DecidableEq, Repr

/-- `SvmQueueError`, less the variants that no modelled function constructs. -/
inductive SvmQueueError : Type where
  | zeroCapacity
  | zeroElementSize
  | layoutOverflow
  | queueFull
  | empty
  | lockBusy
  | timeout
  | invalidHeader
  | elementLengthMismatch (expected actual : Nat)
  | ownerDied
  | notRecoverable (source : Errno)
  | lock (source : Errno)
  | wait (source : CondvarWaitError)
  | signalAfterCommit (operation : SvmQueueOperation) (source : Errno)
  | eventSignalAfterCommit (operation : SvmQueueOperation) (source : Errno)
  deriving DecidableEq, Repr

/-! ## Operations -/

/-- The shared words that change while the queue is in use. -/
inductive Word : Type where
  | head | tail | cursize
  deriving DecidableEq, Repr

/-- One access to the shared memory. -/
inductive Access : Type where
  | load (word : Word)
  | loadEvtfd (isProducer : Bool)
  | store (word : Word) (value : Nat)
  | fetchAdd
  | fetchSub
  | copyOut (offset size : Nat)
  | copyIn (offset : Nat) (element : Bytes)

abbrev Access.Ret : Access → Type
  | .load _ => Nat
  | .loadEvtfd _ => Int
  | .store _ _ => Unit
  | .fetchAdd => Unit
  | .fetchSub => Unit
  | .copyOut _ _ => Bytes
  | .copyIn _ _ => Unit

/-- What `pthread_mutex_lock` or `trylock` comes back with. -/
inductive LockResult : Type where
  | standard
  | indeterminate
  | busy
  | failed (source : Errno)

inductive Op : Type where
  | access (what : Access)
  | lock (tryOnly : Bool)
  | makeConsistent
  | markConsistent
  | unlock
  | guardHeld
  | fill (element : Bytes)
  | wait (timeout : Option Nat)
  | notifyAll
  | writeEvent (fd : Int)
  | lastOsError
  | now

abbrev Op.Ret : Op → Type
  | .access what => what.Ret
  | .lock _ => LockResult
  | .makeConsistent => Except Errno Unit
  | .markConsistent => Except Errno Unit
  | .unlock => Unit
  | .guardHeld => Bool
  | .fill _ => Unit
  | .wait _ => Except CondvarWaitError WaitOutcome
  | .notifyAll => Except Errno Unit
  | .writeEvent _ => Int
  | .lastOsError => Errno
  | .now => Nat

/-- A store to the shared memory. -/
def Access.isStore : Access → Bool
  | .store _ _ => true
  | .fetchAdd => true
  | .fetchSub => true
  | .copyIn _ _ => true
  | _ => false

def Op.isStore : Op → Bool
  | .access what => what.isStore
  | _ => false

abbrev Call (α : Type) : Type := Prog Op Op.Ret SvmQueueError α

/-! One operation each, at the type of its answer. -/

def access (what : Access) : Call what.Ret := Prog.perform (Op.access what)

def load (word : Word) : Call Nat := access (.load word)

def loadEvtfd (isProducer : Bool) : Call Int := access (.loadEvtfd isProducer)

def lockMutex (tryOnly : Bool) : Call LockResult := Prog.perform (Op.lock tryOnly)

def makeConsistent : Call (Except Errno Unit) := Prog.perform Op.makeConsistent

def markConsistent : Call (Except Errno Unit) := Prog.perform Op.markConsistent

def dropGuard : Call Unit := Prog.perform Op.unlock

def guardHeld : Call Bool := Prog.perform Op.guardHeld

/-- A write to the caller's own buffer. -/
def fill (element : Bytes) : Call Unit := Prog.perform (Op.fill element)

def waitCondvar (timeout : Option Nat) : Call (Except CondvarWaitError WaitOutcome) :=
  Prog.perform (Op.wait timeout)

def notifyAll : Call (Except Errno Unit) := Prog.perform Op.notifyAll

def writeEvent (fd : Int) : Call Int := Prog.perform (Op.writeEvent fd)

def lastOsError : Call Errno := Prog.perform Op.lastOsError

def now : Call Nat := Prog.perform Op.now

/-! ## Locking and signalling -/

/-- The words of the header that never change after `init`. -/
structure SvmQueue : Type where
  maxsize : Nat
  elsize : Nat
  deriving DecidableEq, Repr

/-- `SvmQueueConditionalWait`; a duration is a number of nanoseconds. -/
inductive ConditionalWait : Type where
  | wait
  | nowait
  | timedWait (timeout : Nat)
  deriving DecidableEq, Repr

/-- `SvmQueue::acquire`. -/
def acquire (tryOnly : Bool) : Call Unit := do
  match ← lockMutex tryOnly with
  | .failed source => .throw (.lock source)
  | .busy => .throw .lockBusy
  | .standard => pure ()
  | .indeterminate => do
      match ← makeConsistent with
      | .error source => .throw (.notRecoverable source)
      | .ok () => do
          dropGuard
          .throw .ownerDied

/-- `SvmQueue::signal`. -/
def signal (isProducer : Bool) (operation : SvmQueueOperation) : Call Unit := do
  let fd ← loadEvtfd isProducer
  if 0 ≤ fd then do
    let written ← writeEvent fd
    if written ≠ 8 then do
      let source ← lastOsError
      .throw (.eventSignalAfterCommit operation source)
    else pure ()
  else do
    match ← notifyAll with
    | .error source => .throw (.signalAfterCommit operation source)
    | .ok () => pure ()

/-- `SvmQueueLock::owner_died`: it never comes back with a value. -/
def ownerDied {α : Type} : Call α := do
  if ← guardHeld then do
    match ← markConsistent with
    | .error source => .throw (.notRecoverable source)
    | .ok () => .throw .ownerDied
  else .panic

/-- The spin of `wait_on_event`, without the lock, and the locking after it. -/
def spin (occupancy : Nat) (deadline : Option Nat) : (fuel : Nat) → Call WaitOutcome
  | 0 => .pending
  | fuel + 1 => do
      let cursize ← load .cursize
      if cursize = occupancy then do
        match deadline with
        | none => spin occupancy deadline fuel
        | some limit => do
            let instant ← now
            if limit ≤ instant then do
              acquire false
              pure .timedOut
            else spin occupancy deadline fuel
      else do
        acquire false
        pure .notified

/-- `SvmQueueLock::wait_on_event`. -/
def waitOnEvent (fuel : Nat) (deadline : Option Nat) : Call WaitOutcome := do
  let occupancy ← load .cursize
  dropGuard
  spin occupancy deadline fuel

/-- The wait on the condition variable, in `wait` and `timed_wait`. -/
def waitOnCondvar (timeout : Option Nat) : Call WaitOutcome := do
  if ← guardHeld then do
    match ← waitCondvar timeout with
    | .ok outcome => pure outcome
    | .error .ownerDead => ownerDied
    | .error source => .throw (.wait source)
  else .panic

/-- `SvmQueueLock::wait`. -/
def wait (fuel : Nat) : Call Unit := do
  let fd ← loadEvtfd true
  if 0 ≤ fd then do
    let _ ← waitOnEvent fuel none
    pure ()
  else do
    let _ ← waitOnCondvar none
    pure ()

/-- `SvmQueueLock::timed_wait`. -/
def timedWait (fuel timeout : Nat) : Call WaitOutcome := do
  let fd ← loadEvtfd true
  if 0 ≤ fd then do
    let instant ← now
    waitOnEvent fuel (some (instant + timeout))
  else waitOnCondvar (some timeout)

/-- One pass of a waiting loop: refuse, wait, or wait until the deadline. -/
def pause (fuel : Nat) (conditionalWait : ConditionalWait) (refusal : SvmQueueError) :
    Call Unit :=
  match conditionalWait with
  | .nowait => .throw refusal
  | .wait => wait fuel
  | .timedWait timeout => do
      let outcome ← timedWait fuel timeout
      if outcome = .timedOut then .throw .timeout else pure ()

/-- `while blocked { .. }` around a pass of waiting. -/
def whileBlocked (conditionalWait : ConditionalWait) (refusal : SvmQueueError)
    (blocked : Call Bool) : (fuel : Nat) → Call Unit
  | 0 => .pending
  | fuel + 1 => do
      if ← blocked then do
        pause fuel conditionalWait refusal
        whileBlocked conditionalWait refusal blocked fuel
      else pure ()

/-! ## Slots -/

namespace SvmQueue

variable (queue : SvmQueue)

/-- The index after `slot`; the addition is on `u32`. -/
def successor (slot : Nat) : Call Nat :=
  if slot + 1 < 2 ^ 32 then pure (if slot + 1 = queue.maxsize then 0 else slot + 1) else .panic

/-- `validate_element_length`. -/
def validateElement (actual : Nat) : Call Unit :=
  if actual ≠ queue.elsize then .throw (.elementLengthMismatch queue.elsize actual) else pure ()

/-- `SvmQueueLock::write_one`. -/
def writeOne (element : Bytes) : Call Unit := do
  let slot ← load .tail
  access (.copyIn (slot * queue.elsize) (element.take queue.elsize))
  let next ← queue.successor slot
  access (.store .tail next)
  access .fetchAdd

/-- The condition of the loop in `add_nolock`. -/
def full : Call Bool := do
  let cursize ← load .cursize
  pure (cursize = queue.maxsize)

/-- The condition of the loop in `add2_nolock`: the subtraction is on `u32`. -/
def short : Call Bool := do
  let cursize ← load .cursize
  if queue.maxsize < cursize then .panic else pure (queue.maxsize - cursize < 2)

/-- `SvmQueueLock::add_nolock` under the lock's wait mode. -/
def addNolock (fuel : Nat) (conditionalWait : ConditionalWait) (element : Bytes) : Call Unit := do
  queue.validateElement element.length
  whileBlocked conditionalWait .queueFull queue.full fuel
  let cursize ← load .cursize
  queue.writeOne element
  if cursize = 0 then signal true .add else pure ()

/-- `SvmQueueLock::add2_nolock`. -/
def add2Nolock (fuel : Nat) (conditionalWait : ConditionalWait) (first second : Bytes) :
    Call Unit := do
  queue.validateElement first.length
  queue.validateElement second.length
  if queue.maxsize < 2 then .throw .queueFull
  else do
    whileBlocked conditionalWait .queueFull queue.short fuel
    let cursize ← load .cursize
    queue.writeOne first
    queue.writeOne second
    if cursize = 0 then signal true .addPair else pure ()

/-- `SvmQueueLock::sub_nolock`: the copy is a load of the slot and a write to the buffer. -/
def subNolock : Call Unit := do
  let cursize ← load .cursize
  if cursize = 0 then .throw .empty
  else do
    let slot ← load .head
    let element ← access (.copyOut (slot * queue.elsize) queue.elsize)
    fill element
    let cursize ← load .cursize
    let next ← queue.successor slot
    access (.store .head next)
    access .fetchSub
    if cursize = queue.maxsize then signal false .sub else pure ()

/-- `SvmQueueLock::sub_raw` into a buffer of `size` bytes. -/
def subRaw (size : Nat) : Call Unit := do
  queue.validateElement size
  queue.subNolock

end SvmQueue

/-! ## Calls -/

/-- The scope of a guard: it is dropped on every way out. -/
def withLock {α : Type} (tryOnly : Bool) (body : Call α) : Call α := do
  acquire tryOnly
  let result ← Prog.attempt body
  dropGuard
  Prog.ofExcept result

/-- `try_lock` for `Nowait`, `lock` otherwise. -/
def ConditionalWait.tryOnly : ConditionalWait → Bool
  | .nowait => true
  | _ => false

namespace SvmQueue

variable (queue : SvmQueue)

/-- `SvmQueue::add`. -/
def add (fuel : Nat) (element : Bytes) (conditionalWait : ConditionalWait) : Call Unit := do
  queue.validateElement element.length
  withLock conditionalWait.tryOnly (queue.addNolock fuel conditionalWait element)

/-- `SvmQueue::add2`. -/
def add2 (fuel : Nat) (first second : Bytes) (conditionalWait : ConditionalWait) : Call Unit := do
  queue.validateElement first.length
  queue.validateElement second.length
  withLock conditionalWait.tryOnly (queue.add2Nolock fuel conditionalWait first second)

/-- The loop of `sub_into`. -/
def subLoop (conditionalWait : ConditionalWait) : (fuel : Nat) → Call Unit
  | 0 => .pending
  | fuel + 1 => do
      let cursize ← load .cursize
      if cursize ≠ 0 then queue.subNolock
      else do
        pause fuel conditionalWait .empty
        subLoop conditionalWait fuel

/-- `SvmQueue::sub` into a buffer of `size` bytes. -/
def sub (fuel size : Nat) (conditionalWait : ConditionalWait) : Call Unit := do
  queue.validateElement size
  withLock conditionalWait.tryOnly (queue.subLoop conditionalWait fuel)

/-- `SvmQueue::sub2` into a buffer of `size` bytes. -/
def sub2 (size : Nat) : Call Unit := do
  queue.validateElement size
  withLock false do
    let cursize ← load .cursize
    if cursize = 0 then .throw .empty else queue.subNolock

end SvmQueue

/-! ## The shared memory -/

/-- The changing words, the descriptors and the slots. -/
structure Memory : Type where
  head : Nat
  tail : Nat
  cursize : Nat
  producerEvtfd : Int
  consumerEvtfd : Int
  data : Bytes
  deriving DecidableEq, Repr

def Memory.word (memory : Memory) : Word → Nat
  | .head => memory.head
  | .tail => memory.tail
  | .cursize => memory.cursize

def Memory.setWord (memory : Memory) (word : Word) (value : Nat) : Memory :=
  match word with
  | .head => { memory with head := value }
  | .tail => { memory with tail := value }
  | .cursize => { memory with cursize := value }

/-- `fetch_add(1)` and `fetch_sub(1)` wrap around on `u32`. -/
def wrappingSucc (value : Nat) : Nat := if value + 1 < 2 ^ 32 then value + 1 else 0

def wrappingPred (value : Nat) : Nat := if value = 0 then 2 ^ 32 - 1 else value - 1

/-- One access; outside of the slots there is no memory to access. -/
def Memory.run (memory : Memory) : (what : Access) → Option (what.Ret × Memory)
  | .load word => some (memory.word word, memory)
  | .loadEvtfd true => some (memory.producerEvtfd, memory)
  | .loadEvtfd false => some (memory.consumerEvtfd, memory)
  | .store word value => some ((), memory.setWord word value)
  | .fetchAdd => some ((), memory.setWord .cursize (wrappingSucc memory.cursize))
  | .fetchSub => some ((), memory.setWord .cursize (wrappingPred memory.cursize))
  | .copyOut offset size =>
      if offset + size ≤ memory.data.length then some (window memory.data offset size, memory)
      else none
  | .copyIn offset element =>
      if offset + element.length ≤ memory.data.length then
        some ((), { memory with data := splice memory.data offset element })
      else none

/-! ## Initialization -/

/-- `SvmQueueConfig`, without the process id that no modelled function reads. -/
structure SvmQueueConfig : Type where
  nels : UInt32
  elsize : UInt32

/-- `size_of::<SvmQueue>()`. -/
def sizeOfSvmQueue : Nat := 120

/-- `validate_config`: the products are on `usize`. -/
def SvmQueueConfig.validate (config : SvmQueueConfig) : Except SvmQueueError Unit :=
  if config.nels = 0 then .error .zeroCapacity
  else if config.elsize = 0 then .error .zeroElementSize
  else if 2 ^ 64 ≤ config.nels.toNat * config.elsize.toNat then .error .layoutOverflow
  else .ok ()

/-- `SvmQueue::size_to_alloc`. -/
def SvmQueueConfig.sizeToAlloc (config : SvmQueueConfig) : Except SvmQueueError Nat := do
  config.validate
  let bytes := sizeOfSvmQueue + config.nels.toNat * config.elsize.toNat
  if 2 ^ 64 ≤ bytes then .error .layoutOverflow else .ok bytes

/-- `SvmQueue::init` in an allocation whose bytes after the header are `data`. -/
def SvmQueueConfig.init (config : SvmQueueConfig) (data : Bytes) :
    Except SvmQueueError (SvmQueue × Memory) := do
  let _ ← config.sizeToAlloc
  .ok ({ maxsize := config.nels.toNat, elsize := config.elsize.toNat },
    { head := 0, tail := 0, cursize := 0, producerEvtfd := -1, consumerEvtfd := -1,
      data := data })

/-- What `init` lays down when it accepts the configuration. -/
theorem init_eq {queue : SvmQueue} {config : SvmQueueConfig} {data : Bytes} {memory : Memory}
    (created : config.init data = .ok (queue, memory)) :
    config.nels ≠ 0 ∧ queue = ⟨config.nels.toNat, config.elsize.toNat⟩ ∧
      memory = ⟨0, 0, 0, -1, -1, data⟩ := by
  rw [SvmQueueConfig.init] at created
  rcases size : config.sizeToAlloc with reason | bytes
  · rw [size] at created
    cases created
  · rw [size] at created
    refine ⟨?_, ?_, ?_⟩
    · intro zero
      rw [SvmQueueConfig.sizeToAlloc, SvmQueueConfig.validate, if_pos zero] at size
      cases size
    · cases created
      rfl
    · cases created
      rfl

end Netsystem.Shmem
