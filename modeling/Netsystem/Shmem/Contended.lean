import Netsystem.Shmem.Recovery

/-!
# One thread among others

The queue as one thread meets it while other threads and processes use it (`contended`). Locking,
waiting and signalling may end in every way. While the thread holds the mutex the words and slots
are its own; at all other times the other parties may change them, and keep the bounds of the
words (`Others`). The thread reads the event descriptors as it finds them, for these are set
without the mutex; a producer descriptor is never taken back.

A `Station` remembers what the thread did to head, tail, cursize and the slots, each access with
the memory before and after it and with the state of the guard.
-/

namespace Netsystem.Shmem

open Prog

/-! ## The bounds -/

/-- Head and tail are slots, and the slots lie in the allocation. Every store of the queue keeps
this, with or without the mutex. -/
structure Ranged (queue : SvmQueue) (memory : Memory) : Prop where
  head_lt : memory.head < queue.maxsize
  tail_lt : memory.tail < queue.maxsize
  addressable : queue.maxsize < 2 ^ 32
  room : queue.maxsize * queue.elsize ≤ memory.data.length

/-- The words are in bounds, and nothing more: the tail need not be where head and count put
it. -/
structure Bounded (queue : SvmQueue) (memory : Memory) : Prop extends Ranged queue memory where
  count_le : memory.cursize ≤ queue.maxsize

/-- What the other parties may do to the memory. -/
structure Others (queue : SvmQueue) (memory memory' : Memory) : Prop where
  ranged : Ranged queue memory → Ranged queue memory'
  bounded : Bounded queue memory → Bounded queue memory'

theorem Others.refl (queue : SvmQueue) (memory : Memory) : Others queue memory memory := ⟨id, id⟩

theorem Others.trans {queue : SvmQueue} {first second third : Memory}
    (left : Others queue first second) (right : Others queue second third) :
    Others queue first third :=
  ⟨right.ranged ∘ left.ranged, right.bounded ∘ left.bounded⟩

section Bounds

variable {queue : SvmQueue} {memory : Memory}

theorem SvmQueue.slot_end_le {slot : Nat} (bound : slot < queue.maxsize) :
    slot * queue.elsize + queue.elsize ≤ queue.maxsize * queue.elsize := by
  rw [← Nat.succ_mul]
  exact Nat.mul_le_mul_right queue.elsize bound

/-- A slot below the capacity lies inside the data area. -/
theorem Ranged.slot_inside (ranged : Ranged queue memory) {slot : Nat}
    (bound : slot < queue.maxsize) :
    slot * queue.elsize + queue.elsize ≤ memory.data.length :=
  (SvmQueue.slot_end_le bound).trans ranged.room

theorem Ranged.write (ranged : Ranged queue memory) {slot : Nat} {element : Bytes}
    (bound : slot < queue.maxsize) (sized : element.length = queue.elsize) :
    Ranged queue { memory with data := splice memory.data (slot * queue.elsize) element } where
  head_lt := ranged.head_lt
  tail_lt := ranged.tail_lt
  addressable := ranged.addressable
  room := by
    have inside := ranged.slot_inside bound
    simp only [length_splice (show slot * queue.elsize + element.length ≤ memory.data.length by
      rwa [sized])]
    exact ranged.room

theorem Ranged.setTail (ranged : Ranged queue memory) {slot : Nat}
    (bound : slot < queue.maxsize) :
    Ranged queue (memory.setWord .tail slot) :=
  ⟨ranged.head_lt, bound, ranged.addressable, ranged.room⟩

theorem Ranged.setHead (ranged : Ranged queue memory) {slot : Nat}
    (bound : slot < queue.maxsize) :
    Ranged queue (memory.setWord .head slot) :=
  ⟨bound, ranged.tail_lt, ranged.addressable, ranged.room⟩

theorem Ranged.setCursize (ranged : Ranged queue memory) (value : Nat) :
    Ranged queue (memory.setWord .cursize value) :=
  ⟨ranged.head_lt, ranged.tail_lt, ranged.addressable, ranged.room⟩

/-- Every memory on the way of an insertion is in bounds, when the insertion has room. -/
theorem Bounded.pushing (bounded : Bounded queue memory) {element : Bytes}
    (sized : element.length = queue.elsize) (room : memory.cursize < queue.maxsize)
    (survived : Nat) : Bounded queue (memory.pushing queue element survived) := by
  have written := bounded.toRanged.write bounded.tail_lt sized
  have moved := written.setTail (Ring.next_lt bounded.tail_lt)
  rcases survived with _ | _ | _ | survived
  · exact bounded
  · exact ⟨written, bounded.count_le⟩
  · exact ⟨moved, bounded.count_le⟩
  · exact ⟨moved.setCursize _, room⟩

theorem Bounded.popping (bounded : Bounded queue memory) (survived : Nat) :
    Bounded queue (memory.popping queue survived) := by
  have moved := bounded.toRanged.setHead (Ring.next_lt bounded.head_lt)
  rcases survived with _ | _ | survived
  · exact bounded
  · exact ⟨moved, bounded.count_le⟩
  · exact ⟨moved.setCursize _, (Nat.sub_le _ _).trans bounded.count_le⟩

theorem Bounded.push (bounded : Bounded queue memory) {element : Bytes}
    (sized : element.length = queue.elsize) (room : memory.cursize < queue.maxsize) :
    Bounded queue (memory.push queue element) :=
  bounded.pushing sized room 3

theorem Bounded.pop (bounded : Bounded queue memory) : Bounded queue (memory.pop queue) :=
  bounded.popping 2

end Bounds

/-! ## Stations -/

/-- A copy of a slot or a store to a word, made by the thread. -/
structure Touch : Type where
  what : Access
  before : Memory
  after : Memory
  held : Bool

/-- The thread at the queue. -/
structure Station : Type where
  memory : Memory
  /-- `guard.is_some()`. -/
  held : Bool
  /-- The thread has read a producer descriptor that is not negative. -/
  eventMode : Bool
  touches : List Touch
  /-- The buffer that the thread passed to `sub`. -/
  buffer : Bytes

def Access.isTouch : Access → Bool
  | .load _ => false
  | .loadEvtfd _ => false
  | _ => true

def LockResult.isStandard : LockResult → Bool
  | .standard => true
  | _ => false

namespace Station

/-- The station after an access that leaves `memory`. -/
def touched (s : Station) (what : Access) (memory : Memory) : Station :=
  { s with
    memory := memory
    touches := if what.isTouch then s.touches ++ [⟨what, s.memory, memory, s.held⟩]
      else s.touches }

/-- The other parties act, unless the thread holds the mutex. -/
def Settles (queue : SvmQueue) (s s' : Station) : Prop :=
  ∃ memory, s' = { s with memory := memory } ∧
    if s.held then memory = s.memory else Others queue s.memory memory

end Station

/-- The answers that the thread may get. An access outside of the slots may do anything. -/
def contended (queue : SvmQueue) : Handler Op Op.Ret Station
  | .access (.loadEvtfd isProducer), s, fd, s' =>
      (isProducer = true → s.eventMode = true → 0 ≤ fd) ∧
        Station.Settles queue
          { s with eventMode := s.eventMode || (isProducer && decide (0 ≤ fd)) } s'
  | .access what, s, answer, s' =>
      s.memory.run what = none ∨ ∃ memory, s.memory.run what = some (answer, memory) ∧
        (s.touched what memory).Settles queue s'
  | .lock _, s, result, s' => ∃ memory, Others queue s.memory memory ∧
      s' = { s with memory := memory, held := s.held || result.isStandard }
  | .makeConsistent, s, _, s' => s.Settles queue s'
  | .markConsistent, s, _, s' => s.Settles queue s'
  | .unlock, s, _, s' => Station.Settles queue { s with held := false } s'
  | .guardHeld, s, held, s' => held = s.held ∧ s.Settles queue s'
  | .fill element, s, _, s' => Station.Settles queue { s with buffer := element } s'
  | .wait _, s, _, s' => ∃ memory, Others queue s.memory memory ∧ s' = { s with memory := memory }
  | .notifyAll, s, _, s' => s.Settles queue s'
  | .writeEvent _, s, _, s' => s.Settles queue s'
  | .lastOsError, s, _, s' => s.Settles queue s'
  | .now, s, _, s' => s.Settles queue s'

/-- The thread touched nothing on the way from one station to the other. -/
structure Quiet (queue : SvmQueue) (s s' : Station) : Prop where
  touches : s'.touches = s.touches
  buffer : s'.buffer = s.buffer
  eventMode : s.eventMode = true → s'.eventMode = true
  others : Others queue s.memory s'.memory

/-- The guard is there, or it was lost to the event descriptor. -/
def Station.Guarded (s : Station) : Prop := s.held = true ∨ s.eventMode = true

/-- A guard can only have been lost to the event descriptor. -/
theorem Station.Guarded.eventMode {s : Station} (guarded : s.Guarded) (lost : s.held = false) :
    s.eventMode = true := by
  rcases guarded with held | event
  · cases lost.symm.trans held
  · exact event

section Quietness

variable {queue : SvmQueue} {s mid s' : Station}

theorem Quiet.refl (queue : SvmQueue) (s : Station) : Quiet queue s s :=
  ⟨rfl, rfl, id, Others.refl queue _⟩

theorem Quiet.trans (left : Quiet queue s mid) (right : Quiet queue mid s') : Quiet queue s s' :=
  ⟨right.touches.trans left.touches, right.buffer.trans left.buffer,
    right.eventMode ∘ left.eventMode, left.others.trans right.others⟩

theorem Quiet.guarded (quiet : Quiet queue s s') (same : s'.held = s.held)
    (guarded : s.Guarded) : s'.Guarded := by
  rcases guarded with held | event
  · exact .inl (same.trans held)
  · exact .inr (quiet.eventMode event)

namespace Station.Settles

theorem held_eq (settles : s.Settles queue s') : s'.held = s.held := by
  rcases settles with ⟨memory, rfl, -⟩
  rfl

theorem eq_of_held (settles : s.Settles queue s') (held : s.held = true) : s = s' := by
  rcases settles with ⟨memory, rfl, same⟩
  rw [if_pos held] at same
  rw [same]

theorem quiet (settles : s.Settles queue s') : Quiet queue s s' := by
  rcases settles with ⟨memory, rfl, others⟩
  refine ⟨rfl, rfl, id, ?_⟩
  split at others
  · exact others ▸ Others.refl queue s.memory
  · exact others

end Station.Settles

end Quietness

/-! ## Single operations -/

section Operations

variable {queue : SvmQueue} {s : Station} {α β : Type} {value : α → Station → Prop}
  {stop : Stop SvmQueueError → Station → Prop}

theorem ensures_load {word : Word} {f : Nat → Call α}
    (next : ∀ s', s.Settles queue s' →
      (f (s.memory.word word)).Ensures (contended queue) value stop s') :
    ((load word).bind f).Ensures (contended queue) value stop s := by
  intro answer s' answered
  rcases answered with outside | ⟨memory, run, settles⟩
  · cases outside
  · cases run
    exact next s' settles

/-- An access inside of the slots. -/
theorem ensures_access {what : Access} (memory : Memory) (answer : what.Ret)
    {f : what.Ret → Call α}
    (touch : what.isTouch = true) (run : s.memory.run what = some (answer, memory))
    (next : ∀ s', (s.touched what memory).Settles queue s' →
      (f answer).Ensures (contended queue) value stop s') :
    ((access what).bind f).Ensures (contended queue) value stop s := by
  intro answer' s' answered
  have given : s.memory.run what = none ∨ ∃ memory, s.memory.run what = some (answer', memory) ∧
      (s.touched what memory).Settles queue s' := by
    cases what with
    | loadEvtfd isProducer => cases touch
    | _ => exact answered
  rcases given with outside | ⟨memory', run', settles⟩
  · rw [run] at outside
    cases outside
  · rw [run] at run'
    cases run'
    exact next s' settles

theorem ensures_loadEvtfd {isProducer : Bool} {f : Int → Call α}
    (next : ∀ fd s', Quiet queue s s' → s'.held = s.held →
      (isProducer = true → 0 ≤ fd → s'.eventMode = true) →
      (isProducer = true → fd < 0 → ¬ s.eventMode = true) →
      (f fd).Ensures (contended queue) value stop s') :
    ((loadEvtfd isProducer).bind f).Ensures (contended queue) value stop s := by
  intro fd s' answered
  rcases answered with ⟨kept, memory, rfl, others⟩
  refine next fd _ ⟨rfl, rfl, fun event => ?_, ?_⟩ rfl (fun producer found => ?_)
    fun producer negative event => absurd (kept producer event) (Int.not_le.mpr negative)
  · simp only [event, Bool.true_or]
  · split at others
    · exact others ▸ Others.refl queue s.memory
    · exact others
  · simp only [producer, found, decide_true, Bool.and_true, Bool.or_true]

/-- An operation that leaves memory, guard and buffer to the other parties. -/
theorem ensures_settling {op : Op} {f : op.Ret → Call α}
    (settling : ∀ answer s', contended queue op s answer s' ↔ s.Settles queue s')
    (next : ∀ answer s', s.Settles queue s' →
      (f answer).Ensures (contended queue) value stop s') :
    ((perform op).bind f).Ensures (contended queue) value stop s :=
  fun answer s' answered => next answer s' ((settling answer s').mp answered)

theorem ensures_fill {element : Bytes} {f : Unit → Call α}
    (next : ∀ s', Station.Settles queue { s with buffer := element } s' →
      (f ()).Ensures (contended queue) value stop s') :
    ((fill element).bind f).Ensures (contended queue) value stop s :=
  fun _ s' settles => next s' settles

theorem ensures_dropGuard {f : Unit → Call α}
    (next : ∀ s', Quiet queue s s' → s'.held = false →
      (f ()).Ensures (contended queue) value stop s') :
    (dropGuard.bind f).Ensures (contended queue) value stop s := by
  intro answer s' settles
  have quiet := Station.Settles.quiet settles
  exact next s' ⟨quiet.touches, quiet.buffer, quiet.eventMode, quiet.others⟩
    (Station.Settles.held_eq settles)

theorem ensures_guardHeld {f : Bool → Call α}
    (next : ∀ s', s.Settles queue s' → (f s.held).Ensures (contended queue) value stop s') :
    (guardHeld.bind f).Ensures (contended queue) value stop s := by
  intro held s' answered
  rcases answered with ⟨rfl, settles⟩
  exact next s' settles

end Operations

/-! ## Locking and signalling -/

/-- The operation that a signalling error reports as done. -/
def SvmQueueError.committed : SvmQueueError → Option SvmQueueOperation
  | .signalAfterCommit operation _ => some operation
  | .eventSignalAfterCommit operation _ => some operation
  | _ => none

/-- An end without a value that reports no operation as done; a fault is none. -/
def Refused : Stop SvmQueueError → Prop
  | .error reason => reason.committed = none
  | .panic => False
  | .pending => True

/-- The end of an operation that was done and could not be signalled. -/
def Unsignalled (operation : SvmQueueOperation) : Stop SvmQueueError → Prop
  | .error reason => reason.committed = some operation
  | .panic => False
  | .pending => False

theorem Refused.ne_panic {stop : Stop SvmQueueError} (refused : Refused stop) :
    stop ≠ .panic := by
  intro fault
  subst fault
  exact refused

theorem Unsignalled.ne_panic {operation : SvmQueueOperation} {stop : Stop SvmQueueError}
    (reported : Unsignalled operation stop) : stop ≠ .panic := by
  intro fault
  subst fault
  exact reported

/-- The program comes back with the guard or ends without touching anything. -/
def Waits {α : Type} (queue : SvmQueue) (p : Call α) (s : Station) : Prop :=
  p.Ensures (contended queue) (fun _ s' => Quiet queue s s' ∧ s'.held = true)
    (fun stop s' => s'.Guarded ∧ Refused stop ∧ Quiet queue s s') s

section Locking

variable {queue : SvmQueue} {s : Station}

theorem acquire_ensures (tryOnly : Bool) :
    (acquire tryOnly).Ensures (contended queue) (fun _ s' => Quiet queue s s' ∧ s'.held = true)
      (fun stop s' => Refused stop ∧ Quiet queue s s') s := by
  rw [acquire, lockMutex, bind_eq, ensures_perform]
  intro result mid locked
  rcases locked with ⟨memory, others, rfl⟩
  have quiet : ∀ held, Quiet queue s { s with memory := memory, held := held } :=
    fun _ => ⟨rfl, rfl, id, others⟩
  cases result with
  | standard => exact ⟨quiet _, Bool.or_true _⟩
  | busy => exact ⟨rfl, quiet _⟩
  | failed source => exact ⟨rfl, quiet _⟩
  | indeterminate =>
      -- the owner died: the mutex is made consistent and released again
      refine ensures_settling (fun _ _ => Iff.rfl) ?_
      intro answer last settles
      have after := (quiet _).trans settles.quiet
      cases answer with
      | error source => exact ⟨rfl, after⟩
      | ok _ =>
          apply ensures_dropGuard
          exact fun _ dropped _ => ⟨rfl, after.trans dropped⟩

theorem signal_ensures (isProducer : Bool) (operation : SvmQueueOperation) :
    (signal isProducer operation).Ensures (contended queue)
      (fun _ s' => Quiet queue s s' ∧ s'.held = s.held)
      (fun stop s' => Unsignalled operation stop ∧ Quiet queue s s' ∧ s'.held = s.held) s := by
  rw [signal, bind_eq]
  apply ensures_loadEvtfd
  intro fd first quiet same _ _
  have later : ∀ {mid s' : Station}, Quiet queue s mid ∧ mid.held = s.held →
      mid.Settles queue s' → Quiet queue s s' ∧ s'.held = s.held :=
    fun before settles => ⟨before.1.trans settles.quiet, settles.held_eq.trans before.2⟩
  split
  · refine ensures_settling (fun _ _ => Iff.rfl) ?_
    intro written second settles
    have wrote := later ⟨quiet, same⟩ settles
    split
    · refine ensures_settling (fun _ _ => Iff.rfl) ?_
      exact fun source last settles => ⟨rfl, later wrote settles⟩
    · exact wrote
  · refine ensures_settling (fun _ _ => Iff.rfl) ?_
    intro answer second settles
    have notified := later ⟨quiet, same⟩ settles
    cases answer with
    | error source => exact ⟨rfl, notified⟩
    | ok _ => exact notified

end Locking

/-! ## Waiting -/

section Waiting

variable {queue : SvmQueue} {s mid : Station} {α : Type}

/-- The wait may start some quiet steps further on. -/
theorem Waits.from {p : Call α} (waits : Waits queue p mid) (quiet : Quiet queue s mid) :
    p.Ensures (contended queue) (fun _ s' => Quiet queue s s' ∧ s'.held = true)
      (fun stop s' => s'.Guarded ∧ Refused stop ∧ Quiet queue s s') mid :=
  Ensures.mono waits (fun _ _ back => ⟨quiet.trans back.1, back.2⟩)
    fun _ _ ended => ⟨ended.1, ended.2.1, quiet.trans ended.2.2⟩

theorem Waits.discard {p : Call α} (waits : Waits queue p s) {β : Type} (result : β) :
    Waits queue (p.bind fun _ => .done (.ok result)) s :=
  Ensures.bind waits fun _ _ back => back

/-- Locking again, for a thread that lost the guard to the event descriptor. -/
theorem waits_acquire {result : α} (event : s.eventMode = true) :
    Waits queue ((acquire false).bind fun _ => .done (.ok result)) s := by
  apply ensures_bind.mpr
  exact (acquire_ensures false).mono (fun _ _ back => back)
    fun _ _ ended => ⟨.inr (ended.2.eventMode event), ended⟩

theorem waits_spin {occupancy : Nat} {deadline : Option Nat} (fuel : Nat)
    (event : s.eventMode = true) : Waits queue (spin occupancy deadline fuel) s := by
  induction fuel generalizing s with
  | zero => exact ⟨.inr event, trivial, .refl queue s⟩
  | succ fuel ih =>
      unfold spin
      apply ensures_load
      intro first settles
      have event := settles.quiet.eventMode event
      split
      · cases deadline with
        | none => exact (ih event).from settles.quiet
        | some limit =>
            refine ensures_settling (fun _ _ => Iff.rfl) ?_
            intro instant second ticked
            have quiet := settles.quiet.trans ticked.quiet
            have event := ticked.quiet.eventMode event
            split
            · exact (waits_acquire event).from quiet
            · exact (ih event).from quiet
      · exact (waits_acquire event).from settles.quiet

theorem waits_waitOnEvent (fuel : Nat) (deadline : Option Nat) (event : s.eventMode = true) :
    Waits queue (waitOnEvent fuel deadline) s := by
  rw [waitOnEvent, bind_eq]
  apply ensures_load
  intro first settles
  rw [bind_eq]
  apply ensures_dropGuard
  intro second dropped _
  have quiet := settles.quiet.trans dropped
  exact (waits_spin fuel (quiet.eventMode event)).from quiet

theorem waits_ownerDied (held : s.held = true) : Waits queue (ownerDied : Call α) s := by
  rw [ownerDied, bind_eq]
  apply ensures_guardHeld
  intro first settles
  obtain rfl := settles.eq_of_held held
  rw [if_pos held]
  refine ensures_settling (fun _ _ => Iff.rfl) ?_
  intro answer second settles
  obtain rfl := settles.eq_of_held held
  cases answer with
  | error source => exact ⟨.inl held, rfl, .refl queue s⟩
  | ok _ => exact ⟨.inl held, rfl, .refl queue s⟩

theorem waits_waitOnCondvar (timeout : Option Nat) (held : s.held = true) :
    Waits queue (waitOnCondvar timeout) s := by
  rw [waitOnCondvar, bind_eq]
  apply ensures_guardHeld
  intro first settles
  obtain rfl := settles.eq_of_held held
  rw [if_pos held]
  intro answer second waited
  rcases waited with ⟨memory, others, rfl⟩
  have quiet : Quiet queue s { s with memory := memory } := ⟨rfl, rfl, id, others⟩
  cases answer with
  | ok outcome => exact ⟨quiet, held⟩
  | error source =>
      cases source with
      | other source => exact ⟨.inl held, rfl, quiet⟩
      | ownerDead =>
          have died : Waits queue (ownerDied : Call WaitOutcome) { s with memory := memory } :=
            waits_ownerDied held
          exact died.from quiet

theorem waits_wait (fuel : Nat) (guarded : s.Guarded) : Waits queue (wait fuel) s := by
  rw [wait, bind_eq]
  apply ensures_loadEvtfd
  intro fd first quiet same seen unseen
  split
  · next found =>
      exact ((waits_waitOnEvent fuel none (seen rfl found)).discard ()).from quiet
  · next missing =>
      have held : first.held = true :=
        same.trans (guarded.resolve_right (unseen rfl (Int.not_le.mp missing)))
      exact ((waits_waitOnCondvar none held).discard ()).from quiet

theorem waits_timedWait (fuel timeout : Nat) (guarded : s.Guarded) :
    Waits queue (timedWait fuel timeout) s := by
  rw [timedWait, bind_eq]
  apply ensures_loadEvtfd
  intro fd first quiet same seen unseen
  split
  · next found =>
      refine ensures_settling (fun _ _ => Iff.rfl) ?_
      intro instant second ticked
      have event := ticked.quiet.eventMode (seen rfl found)
      exact (waits_waitOnEvent fuel _ event).from (quiet.trans ticked.quiet)
  · next missing =>
      have held : first.held = true :=
        same.trans (guarded.resolve_right (unseen rfl (Int.not_le.mp missing)))
      exact (waits_waitOnCondvar _ held).from quiet

theorem waits_pause (fuel : Nat) (conditionalWait : ConditionalWait) {refusal : SvmQueueError}
    (plain : refusal.committed = none) (guarded : s.Guarded) :
    Waits queue (pause fuel conditionalWait refusal) s := by
  cases conditionalWait with
  | nowait => exact ⟨guarded, plain, .refl queue s⟩
  | wait => exact waits_wait fuel guarded
  | timedWait timeout =>
      refine Ensures.bind (waits_timedWait fuel timeout guarded) ?_
      intro outcome mid back
      split
      · exact ⟨.inl back.2, rfl, back.1⟩
      · exact back

/-- The test of a waiting loop reads once whether there is no room. -/
def Tests (queue : SvmQueue) (blocked : Call Bool) (room : Memory → Prop) : Prop :=
  ∀ s : Station, Bounded queue s.memory →
    blocked.Ensures (contended queue)
      (fun answer s' => s.Settles queue s' ∧ (answer = true ↔ ¬ room s.memory))
      (fun _ _ => False) s

/-- There is room for a thread that holds the mutex, or there was at the first look for one that
does not. -/
def Cleared (room : Memory → Prop) (s s' : Station) : Prop :=
  s'.held = true ∧ room s'.memory ∨ s.held = false ∧ s'.held = false ∧ room s.memory

theorem whileBlocked_ensures {blocked : Call Bool} {room : Memory → Prop}
    (conditionalWait : ConditionalWait) {refusal : SvmQueueError}
    (tests : Tests queue blocked room) (plain : refusal.committed = none) (fuel : Nat)
    (guarded : s.Guarded) (bounded : Bounded queue s.memory) :
    (whileBlocked conditionalWait refusal blocked fuel).Ensures (contended queue)
      (fun _ s' => Quiet queue s s' ∧ Cleared room s s')
      (fun stop s' => s'.Guarded ∧ Refused stop ∧ Quiet queue s s') s := by
  induction fuel generalizing s with
  | zero => exact ⟨guarded, trivial, .refl queue s⟩
  | succ fuel ih =>
      unfold whileBlocked
      apply ensures_bind.mpr
      refine (tests s bounded).mono ?_ fun _ _ never => never.elim
      intro answer first tested
      rcases tested with ⟨settles, exactly⟩
      have quiet := settles.quiet
      cases answer with
      | false =>
          have room : room s.memory := by
            by_contra none_
            cases exactly.mpr none_
          refine ⟨quiet, ?_⟩
          cases held : s.held with
          | true =>
              obtain rfl := settles.eq_of_held held
              exact .inl ⟨held, room⟩
          | false => exact .inr ⟨held, settles.held_eq.trans held, room⟩
      | true =>
          have waits : Waits queue (pause fuel conditionalWait refusal) first :=
            waits_pause fuel conditionalWait plain (quiet.guarded settles.held_eq guarded)
          refine Ensures.bind (waits.from quiet) ?_
          intro _ second back
          rcases back with ⟨back, held⟩
          refine (ih (.inl held) (back.others.bounded bounded)).mono ?_ ?_
          · intro _ last ended
            rcases ended with ⟨more, cleared | ⟨lost, -⟩⟩
            · exact ⟨back.trans more, .inl cleared⟩
            · rw [held] at lost
              cases lost
          · exact fun _ _ ended => ⟨ended.1, ended.2.1, back.trans ended.2.2⟩

end Waiting

/-! ## A thread by itself -/

/-- One answer for each operation outside of the memory. -/
structure Environment : Type where
  fd : Int
  lock : LockResult
  makeConsistent : Except Errno Unit
  markConsistent : Except Errno Unit
  wait : Except CondvarWaitError WaitOutcome
  notifyAll : Except Errno Unit
  written : Int
  lastOsError : Errno
  now : Nat

/-- The device on which the other parties do nothing. It refuses an access outside of the slots,
and to take a producer descriptor back. -/
def idle (environment : Environment) : Device Op Op.Ret Station := fun op s =>
  match op with
  | .access (.loadEvtfd isProducer) =>
      if isProducer ∧ s.eventMode ∧ environment.fd < 0 then none
      else some (environment.fd,
        { s with eventMode := s.eventMode || (isProducer && decide (0 ≤ environment.fd)) })
  | .access what => (s.memory.run what).map fun result => (result.1, s.touched what result.2)
  | .lock _ => some (environment.lock, { s with held := s.held || environment.lock.isStandard })
  | .makeConsistent => some (environment.makeConsistent, s)
  | .markConsistent => some (environment.markConsistent, s)
  | .unlock => some ((), { s with held := false })
  | .guardHeld => some (s.held, s)
  | .fill element => some ((), { s with buffer := element })
  | .wait _ => some (environment.wait, s)
  | .notifyAll => some (environment.notifyAll, s)
  | .writeEvent _ => some (environment.written, s)
  | .lastOsError => some (environment.lastOsError, s)
  | .now => some (environment.now, s)

section Idle

variable {queue : SvmQueue} {environment : Environment} {s s' : Station}

theorem Station.Settles.refl (queue : SvmQueue) (s : Station) : s.Settles queue s := by
  refine ⟨s.memory, rfl, ?_⟩
  split
  · rfl
  · exact Others.refl queue s.memory

theorem idle_access {what : Access} {answer : what.Ret}
    (run : (s.memory.run what).map (fun result => (result.1, s.touched what result.2)) =
      some (answer, s')) :
    s.memory.run what = none ∨ ∃ memory, s.memory.run what = some (answer, memory) ∧
      (s.touched what memory).Settles queue s' := by
  rcases result : s.memory.run what with _ | ⟨answer', memory⟩
  · exact .inl rfl
  · rw [result] at run
    cases run
    exact .inr ⟨memory, rfl, .refl queue _⟩

/-- What the device answers may be answered among others. -/
theorem contended_of_idle {op : Op} {answer : op.Ret}
    (answered : idle environment op s = some (answer, s')) : contended queue op s answer s' := by
  cases op with
  | access what =>
      cases what with
      | loadEvtfd isProducer =>
          unfold idle at answered
          simp only at answered
          split at answered
          · cases answered
          · next kept =>
              cases answered
              refine ⟨fun producer event => ?_, .refl queue _⟩
              exact Int.not_lt.mp fun negative => kept ⟨producer, event, negative⟩
      | load word => exact idle_access answered
      | store word value => exact idle_access answered
      | fetchAdd => exact idle_access answered
      | fetchSub => exact idle_access answered
      | copyOut offset size => exact idle_access answered
      | copyIn offset element => exact idle_access answered
  | lock tryOnly =>
      cases answered
      exact ⟨s.memory, .refl queue _, rfl⟩
  | wait timeout =>
      cases answered
      exact ⟨s.memory, .refl queue _, rfl⟩
  | guardHeld =>
      cases answered
      exact ⟨rfl, .refl queue s⟩
  | makeConsistent =>
      cases answered
      exact .refl queue s
  | markConsistent =>
      cases answered
      exact .refl queue s
  | notifyAll =>
      cases answered
      exact .refl queue s
  | writeEvent fd =>
      cases answered
      exact .refl queue s
  | lastOsError =>
      cases answered
      exact .refl queue s
  | now =>
      cases answered
      exact .refl queue s
  | unlock =>
      cases answered
      exact .refl queue _
  | fill element =>
      cases answered
      exact .refl queue _

/-- An execution by itself is a run among others. -/
theorem runs_of_idle {α : Type} {p : Call α} {out : Outcome SvmQueueError α}
    (run : p.exec (idle environment) s = (out, s')) (answered : out ≠ .panic) :
    p.Runs (contended queue) s out s' := by
  have sound : ∀ op t answer t', idle environment op t = some (answer, t') →
      contended queue op (id t) answer (id t') := fun _ _ _ _ => contended_of_idle
  exact runs_of_exec sound run answered

end Idle

end Netsystem.Shmem
