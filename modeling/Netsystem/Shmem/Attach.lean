import Netsystem.Shmem.Commit

/-!
# Attached queues

`attach` looks at a header that another process wrote and checks its words one by one. What it
checks is `Bounded`, less than what `init` establishes: the tail of an accepted header may be
anywhere. `Bounded` is enough for every access to stay in the allocation and for no addition or
subtraction on the words to leave `u32`, and every operation keeps it, the ring methods of a lock
included (`attached_in_bounds`).
-/

namespace Netsystem.Shmem

open Prog

/-! ## Attaching -/

/-- The words of the header, less the POSIX objects and the process id, which `attach` does not
look at. -/
structure Header : Type where
  head : UInt32
  tail : UInt32
  cursize : UInt32
  maxsize : UInt32
  elsize : UInt32
  producerEvtfd : Int32
  consumerEvtfd : Int32

namespace Header

variable (header : Header)

def queue : SvmQueue := ⟨header.maxsize.toNat, header.elsize.toNat⟩

/-- The changing words, with the bytes after the header. -/
def memory (data : Bytes) : Memory :=
  ⟨header.head.toNat, header.tail.toNat, header.cursize.toNat, header.producerEvtfd.toInt,
    header.consumerEvtfd.toInt, data⟩

/-- `SvmQueue::attach`; the sums and products are on `usize`. -/
def attach (allocationBytes : Nat) : Except SvmQueueError SvmQueue :=
  if allocationBytes < sizeOfSvmQueue then .error .invalidHeader
  else if header.maxsize = 0 ∨ header.elsize = 0 ∨ header.maxsize ≤ header.head ∨
      header.maxsize ≤ header.tail ∨ header.maxsize < header.cursize then .error .invalidHeader
  else if 2 ^ 64 ≤ header.maxsize.toNat * header.elsize.toNat then .error .layoutOverflow
  else if 2 ^ 64 ≤ sizeOfSvmQueue + header.maxsize.toNat * header.elsize.toNat then
    .error .layoutOverflow
  else if allocationBytes < sizeOfSvmQueue + header.maxsize.toNat * header.elsize.toNat then
    .error .invalidHeader
  else .ok header.queue

end Header

/-! ## Ring methods -/

namespace SvmQueue

variable (queue : SvmQueue)

/-- `SvmQueueLock::ring_head_slot`: the place of the slot in the data area. -/
def ringHeadSlot : Call Nat := do
  let head ← load .head
  pure (head * queue.elsize)

/-- `SvmQueueLock::advance_ring_head`. -/
def advanceRingHead : Call Unit := do
  let head ← load .head
  let next ← queue.successor head
  access (.store .head next)

end SvmQueue

/-- A method of a lock; the slot that `ring_head_slot` returns is read. -/
inductive RingMethod : Type where
  | subRaw (size : Nat)
  | ringHeadSlot
  | advanceRingHead

def RingMethod.program (queue : SvmQueue) : RingMethod → Call Unit
  | .subRaw size => queue.subRaw size
  | .ringHeadSlot => do
      let slot ← queue.ringHeadSlot
      let _ ← access (.copyOut slot queue.elsize)
      pure ()
  | .advanceRingHead => queue.advanceRingHead

/-- One method after the other, whether they return values or errors. -/
def ringMethods (queue : SvmQueue) : List RingMethod → Call Unit
  | [] => pure ()
  | method :: rest => do
      let _ ← (Prog.attempt (method.program queue) : Call (Except SvmQueueError Unit))
      ringMethods queue rest

/-- A call on an attached queue. -/
inductive AttachedCall : Type where
  | add (fuel : Nat) (element : Bytes) (conditionalWait : ConditionalWait)
  | add2 (fuel : Nat) (first second : Bytes) (conditionalWait : ConditionalWait)
  | sub (fuel size : Nat) (conditionalWait : ConditionalWait)
  | sub2 (size : Nat)
  | locked (tryOnly : Bool) (methods : List RingMethod)

def AttachedCall.program (queue : SvmQueue) : AttachedCall → Call Unit
  | .add fuel element conditionalWait => queue.add fuel element conditionalWait
  | .add2 fuel first second conditionalWait => queue.add2 fuel first second conditionalWait
  | .sub fuel size conditionalWait => queue.sub fuel size conditionalWait
  | .sub2 size => queue.sub2 size
  | .locked tryOnly methods => withLock tryOnly (ringMethods queue methods)

/-- A call ran, among the others, and ended somehow. -/
def AttachedCall.Step (queue : SvmQueue) (s s' : Station) : Prop :=
  ∃ (call : AttachedCall) (out : Outcome SvmQueueError Unit),
    (call.program queue).Runs (contended queue) s out s'

/-- A finite sequence of calls. -/
abbrev AttachedCall.Reaches (queue : SvmQueue) : Station → Station → Prop :=
  Relation.ReflTransGen (AttachedCall.Step queue)

/-- A thread that has done nothing yet. -/
def Station.fresh (memory : Memory) : Station := ⟨memory, false, false, [], []⟩

/-! ## Bounds -/

/-- A copy of a slot lies between the end of the header and the end of the allocation. -/
def Access.Inside (allocationBytes : Nat) : Access → Prop
  | .copyOut offset size => sizeOfSvmQueue + offset + size ≤ allocationBytes
  | .copyIn offset element => sizeOfSvmQueue + offset + element.length ≤ allocationBytes
  | _ => True

/-- The access stays in the allocation, leaves bounded words bounded, and takes nothing from a
count of zero. -/
structure Touch.Safe (queue : SvmQueue) (allocationBytes : Nat) (touch : Touch) : Prop where
  inside : touch.what.Inside allocationBytes
  before : Bounded queue touch.before
  after : Bounded queue touch.after
  counted : touch.what = .fetchSub → 0 < touch.before.cursize

/-- Everything that the thread did was safe, and the words are in bounds. -/
structure Confined (queue : SvmQueue) (allocationBytes : Nat) (s : Station) : Prop where
  bounded : Bounded queue s.memory
  safe : ∀ touch ∈ s.touches, touch.Safe queue allocationBytes

section Safety

variable {queue : SvmQueue} {allocationBytes : Nat} {memory : Memory} {s s' : Station}

theorem Confined.of_quiet (confined : Confined queue allocationBytes s)
    (quiet : Quiet queue s s') : Confined queue allocationBytes s' :=
  ⟨quiet.others.bounded confined.bounded, quiet.touches ▸ confined.safe⟩

theorem Confined.of_touched {what : Access} (confined : Confined queue allocationBytes s)
    (touch : what.isTouch = true)
    (safe : Touch.Safe queue allocationBytes ⟨what, s.memory, memory, s.held⟩) :
    Confined queue allocationBytes (s.touched what memory) := by
  refine ⟨safe.after, ?_⟩
  rw [Station.touched, if_pos touch]
  intro found member
  rcases List.mem_append.mp member with early | late
  · exact confined.safe found early
  · rwa [List.mem_singleton.mp late]

theorem slot_inside_allocation (fits : sizeOfSvmQueue + queue.maxsize * queue.elsize ≤
    allocationBytes) {slot : Nat} (bound : slot < queue.maxsize) :
    sizeOfSvmQueue + slot * queue.elsize + queue.elsize ≤ allocationBytes := by
  have below := queue.slot_end_le bound
  omega

variable (fits : sizeOfSvmQueue + queue.maxsize * queue.elsize ≤ allocationBytes)

include fits

theorem pushSteps_safe (bounded : Bounded queue memory) {element : Bytes}
    (sized : element.length = queue.elsize) (room : memory.cursize < queue.maxsize) :
    ∀ touch ∈ pushSteps queue memory element, touch.Safe queue allocationBytes := by
  have written := bounded.pushing sized room 1
  have moved := bounded.pushing sized room 2
  have counted := bounded.push sized room
  have inside := slot_inside_allocation fits bounded.tail_lt
  intro touch member
  simp only [pushSteps, List.mem_cons, List.not_mem_nil, or_false] at member
  rcases member with rfl | rfl | rfl
  · exact ⟨by rwa [Access.Inside, sized], bounded, written, fun same => nomatch same⟩
  · exact ⟨trivial, written, moved, fun same => nomatch same⟩
  · exact ⟨trivial, moved, counted, fun same => nomatch same⟩

theorem popSteps_safe (bounded : Bounded queue memory) (filled : 0 < memory.cursize) :
    ∀ touch ∈ popSteps queue memory, touch.Safe queue allocationBytes := by
  have moved := bounded.popping 1
  have inside := slot_inside_allocation fits bounded.head_lt
  intro touch member
  simp only [popSteps, List.mem_cons, List.not_mem_nil, or_false] at member
  rcases member with rfl | rfl | rfl
  · exact ⟨inside, bounded, bounded, fun same => nomatch same⟩
  · exact ⟨trivial, bounded, moved, fun same => nomatch same⟩
  · exact ⟨trivial, moved, bounded.pop, fun _ => filled⟩

theorem QueueEffect.steps_safe {effect : QueueEffect} (bounded : Bounded queue memory)
    (room : effect.Fits queue memory) :
    ∀ touch ∈ effect.steps queue memory, touch.Safe queue allocationBytes := by
  cases effect with
  | add element => exact pushSteps_safe fits bounded room.1 room.2
  | addPair first second =>
      rcases room with ⟨firstSized, secondSized, room⟩
      have once := bounded.push firstSized (Nat.lt_of_succ_lt room)
      intro touch member
      rcases List.mem_append.mp member with early | late
      · exact pushSteps_safe fits bounded firstSized (Nat.lt_of_succ_lt room) touch early
      · exact pushSteps_safe fits once secondSized room touch late
  | sub size => exact popSteps_safe fits bounded room.2

theorem Confined.of_applied {effect : QueueEffect} {edge : Memory → Prop}
    (confined : Confined queue allocationBytes s) (applied : Applied queue effect edge s s') :
    Confined queue allocationBytes s' := by
  rcases applied with ⟨memory, bounded, room, -, touches, -, later⟩
  refine ⟨later, ?_⟩
  rw [touches]
  intro touch member
  rcases List.mem_append.mp member with early | late
  · exact confined.safe touch early
  · exact QueueEffect.steps_safe fits bounded room touch late

end Safety

/-! ## Runs -/

section Runs

variable {queue : SvmQueue} {allocationBytes : Nat} {s s' : Station}

/-- The program keeps the thread confined and does not fault, and a value or an error leaves the
guard as `kept` says. -/
def StaysConfined (queue : SvmQueue) (allocationBytes : Nat) (kept : Station → Prop)
    (p : Call Unit) (s : Station) : Prop :=
  p.Ensures (contended queue) (fun _ s' => kept s' ∧ Confined queue allocationBytes s')
    (fun stop s' => stop ≠ .panic ∧ kept s' ∧ Confined queue allocationBytes s') s

/-- The guard is held. -/
abbrev Station.Holds (s : Station) : Prop := s.held = true

variable (fits : sizeOfSvmQueue + queue.maxsize * queue.elsize ≤ allocationBytes)

include fits

/-- A method that applies its effect under the mutex or nothing. -/
theorem StaysConfined.of_commits {effect : QueueEffect} {p : Call Unit}
    (confined : Confined queue allocationBytes s) (held : s.held = true)
    (commits : CommitsFrom queue effect Station.Holds s p s) :
    StaysConfined queue allocationBytes Station.Holds p s := by
  have after : ∀ {edge : Memory → Prop} {s'}, Committed queue effect edge s s' →
      Confined queue allocationBytes s' := fun committed =>
    confined.of_applied fits (committed.applied held)
  refine Ensures.mono commits (fun _ _ ended => ⟨ended.1, after ended.2⟩) ?_
  intro stop s' ended
  rcases ended with ⟨held, ⟨refused, quiet⟩ | ⟨reported, committed⟩⟩
  · exact ⟨refused.ne_panic, held, confined.of_quiet quiet⟩
  · exact ⟨reported.ne_panic, held, after committed⟩

theorem RingMethod.staysConfined (method : RingMethod)
    (confined : Confined queue allocationBytes s) (held : s.held = true) :
    StaysConfined queue allocationBytes Station.Holds (method.program queue) s := by
  have bounded := confined.bounded
  cases method with
  | subRaw size =>
      apply ensures_validateElement ⟨(by intro fault; cases fault), held, confined⟩
      intro sized
      exact StaysConfined.of_commits fits confined held (subNolock_applies held bounded sized)
  | ringHeadSlot =>
      unfold RingMethod.program SvmQueue.ringHeadSlot
      rw [bind_eq, bind_eq, Prog.bind_assoc]
      apply ensures_load
      intro first settles
      obtain rfl := settles.eq_of_held held
      refine ensures_access _ _ rfl (run_copyOut bounded.toRanged bounded.head_lt) ?_
      intro last settles
      obtain rfl := settles.eq_of_held held
      exact ⟨held, confined.of_touched rfl ⟨slot_inside_allocation fits bounded.head_lt, bounded,
        bounded, by intro same; cases same⟩⟩
  | advanceRingHead =>
      have moved :
          Bounded queue (s.memory.setWord .head (Ring.next queue.maxsize s.memory.head)) :=
        bounded.popping 1
      unfold RingMethod.program SvmQueue.advanceRingHead
      apply ensures_load
      intro first settles
      obtain rfl := settles.eq_of_held held
      rw [bind_eq, Memory.word, successor_eq bounded.addressable bounded.head_lt, bind_ok]
      rw [← bind_pure (access _)]
      refine ensures_access _ _ rfl rfl ?_
      intro last settles
      obtain rfl := settles.eq_of_held held
      exact ⟨held, confined.of_touched rfl ⟨trivial, bounded, moved,
        by intro same; cases same⟩⟩

theorem ringMethods_staysConfined (methods : List RingMethod)
    (confined : Confined queue allocationBytes s) (held : s.held = true) :
    StaysConfined queue allocationBytes Station.Holds (ringMethods queue methods) s := by
  induction methods generalizing s with
  | nil => exact ⟨held, confined⟩
  | cons method rest ih =>
      refine ensures_bind.mpr (ensures_attempt.mpr (Ensures.mono
        (method.staysConfined fits confined held) (fun _ _ kept => ih kept.2 kept.1) ?_))
      intro stop mid ended
      rcases ended with ⟨ran, held, confined⟩
      cases stop with
      | error reason => exact ih confined held
      | panic => exact absurd rfl ran
      | pending => exact ⟨(fun fault => nomatch fault), held, confined⟩

theorem locked_staysConfined (tryOnly : Bool) (methods : List RingMethod)
    (confined : Confined queue allocationBytes s) :
    StaysConfined queue allocationBytes (fun _ => True)
      (withLock tryOnly (ringMethods queue methods)) s := by
  refine ensures_bind.mpr ((acquire_ensures tryOnly).mono ?_ ?_)
  · intro _ mid locked
    rcases locked with ⟨quiet, held⟩
    refine ensures_bind.mpr (ensures_attempt.mpr (Ensures.mono
      (ringMethods_staysConfined fits methods (confined.of_quiet quiet) held) ?_ ?_))
    · intro _ last kept
      apply ensures_dropGuard
      exact fun _ dropped _ => ⟨trivial, kept.2.of_quiet dropped⟩
    · intro stop last ended
      rcases ended with ⟨ran, -, confined⟩
      cases stop with
      | error reason =>
          apply ensures_dropGuard
          exact fun _ dropped _ =>
            ⟨(fun fault => nomatch fault), trivial, confined.of_quiet dropped⟩
      | panic => exact absurd rfl ran
      | pending => exact ⟨(fun fault => nomatch fault), trivial, confined⟩
  · intro stop s' ended
    rcases ended with ⟨refused, quiet⟩
    exact ⟨refused.ne_panic, trivial, confined.of_quiet quiet⟩

/-- A call that takes the mutex itself. -/
theorem StaysConfined.of_calls {effect : QueueEffect} {p : Call Unit}
    (confined : Confined queue allocationBytes s) (calls : Calls queue effect p s) :
    StaysConfined queue allocationBytes (fun _ => True) p s := by
  refine Ensures.mono calls (fun _ _ applied => ⟨trivial, confined.of_applied fits applied⟩) ?_
  intro stop s' ended
  rcases ended with ⟨refused, quiet⟩ | ⟨reported, applied⟩
  · exact ⟨refused.ne_panic, trivial, confined.of_quiet quiet⟩
  · exact ⟨reported.ne_panic, trivial, confined.of_applied fits applied⟩

theorem AttachedCall.staysConfined (call : AttachedCall)
    (confined : Confined queue allocationBytes s) :
    StaysConfined queue allocationBytes (fun _ => True) (call.program queue) s := by
  have bounded := confined.bounded
  cases call with
  | add fuel element conditionalWait =>
      exact .of_calls fits confined (add_calls fuel element conditionalWait bounded)
  | add2 fuel first second conditionalWait =>
      exact .of_calls fits confined (add2_calls fuel first second conditionalWait bounded)
  | sub fuel size conditionalWait =>
      exact .of_calls fits confined (sub_calls fuel size conditionalWait bounded)
  | sub2 size => exact .of_calls fits confined (sub2_calls size bounded)
  | locked tryOnly methods => exact locked_staysConfined fits tryOnly methods confined

/-- One call: no fault, and the thread stays confined. -/
theorem AttachedCall.run_confined {call : AttachedCall} {out : Outcome SvmQueueError Unit}
    (confined : Confined queue allocationBytes s)
    (run : (call.program queue).Runs (contended queue) s out s') :
    out ≠ .panic ∧ Confined queue allocationBytes s' := by
  have ended := (call.staysConfined fits confined).of_runs run
  cases out with
  | ok value => exact ⟨(fun fault => nomatch fault), ended.2⟩
  | error reason => exact ⟨(fun fault => nomatch fault), ended.2.2⟩
  | panic => exact absurd rfl ended.1
  | pending => exact ⟨(fun fault => nomatch fault), ended.2.2⟩

/-- Every sequence of calls. -/
theorem AttachedCall.Reaches.confined (reaches : AttachedCall.Reaches queue s s')
    (confined : Confined queue allocationBytes s) : Confined queue allocationBytes s' := by
  induction reaches with
  | refl => exact confined
  | tail _ last ih =>
      rcases last with ⟨call, out, run⟩
      exact (call.run_confined fits ih run).2

end Runs

/-! ## Accepted headers -/

/-- The header holds the words of the memory. -/
structure Header.Records (header : Header) (queue : SvmQueue) (memory : Memory) : Prop where
  queue : header.queue = queue
  head : header.head.toNat = memory.head
  tail : header.tail.toNat = memory.tail
  cursize : header.cursize.toNat = memory.cursize

/-- A memory that was there between two accesses of the thread. -/
def Station.Met (s : Station) (memory : Memory) : Prop :=
  memory = s.memory ∨ ∃ touch ∈ s.touches, memory = touch.before ∨ memory = touch.after

section Accepted

variable {header : Header} {queue : SvmQueue} {allocationBytes : Nat} {memory : Memory}
  {data : Bytes} {s s' : Station}

theorem Header.attach_eq_ok (attached : header.attach allocationBytes = .ok queue) :
    queue = header.queue ∧ header.head < header.maxsize ∧ header.tail < header.maxsize ∧
      header.cursize ≤ header.maxsize ∧
      sizeOfSvmQueue + queue.maxsize * queue.elsize ≤ allocationBytes := by
  unfold Header.attach at attached
  split at attached
  · cases attached
  split at attached
  · cases attached
  next words =>
  simp only [not_or, UInt32.not_le, UInt32.not_lt] at words
  split at attached
  · cases attached
  split at attached
  · cases attached
  split at attached
  · cases attached
  next fits =>
  cases attached
  exact ⟨rfl, words.2.2.1, words.2.2.2.1, words.2.2.2.2, Nat.not_lt.mp fits⟩

theorem Header.attach_of_bounded (records : header.Records queue memory)
    (bounded : Bounded queue memory) (sized : queue.elsize ≠ 0)
    (addressable : sizeOfSvmQueue + queue.maxsize * queue.elsize < 2 ^ 64)
    (fits : sizeOfSvmQueue + queue.maxsize * queue.elsize ≤ allocationBytes) :
    header.attach allocationBytes = .ok queue := by
  rcases records with ⟨rfl, head, tail, cursize⟩
  have head_lt := bounded.head_lt
  have tail_lt := bounded.tail_lt
  have count_le := bounded.count_le
  simp only [Header.queue] at *
  have words : ¬ (header.maxsize = 0 ∨ header.elsize = 0 ∨ header.maxsize ≤ header.head ∨
      header.maxsize ≤ header.tail ∨ header.maxsize < header.cursize) := by
    rintro (none_ | none_ | below | below | below)
    · rw [none_] at head_lt
      exact Nat.not_lt_zero _ head_lt
    · exact sized (none_ ▸ rfl)
    · rw [UInt32.le_iff_toNat_le] at below
      omega
    · rw [UInt32.le_iff_toNat_le] at below
      omega
    · rw [UInt32.lt_iff_toNat_lt] at below
      omega
  unfold Header.attach
  rw [if_neg (by omega), if_neg words, if_neg (by omega), if_neg (by omega), if_neg (by omega)]
  rfl

/-- An accepted header is bounded, with the bytes of the allocation behind it. -/
theorem Header.bounded (attached : header.attach allocationBytes = .ok queue)
    (mapped : sizeOfSvmQueue + data.length = allocationBytes) :
    Bounded queue (header.memory data) := by
  rcases Header.attach_eq_ok attached with ⟨rfl, head, tail, cursize, fits⟩
  have addressable := header.maxsize.toNat_lt
  have room : header.queue.maxsize * header.queue.elsize ≤ data.length := by omega
  exact ⟨⟨UInt32.lt_iff_toNat_lt.mp head, UInt32.lt_iff_toNat_lt.mp tail, addressable, room⟩,
    UInt32.le_iff_toNat_le.mp cursize⟩

theorem sizeToAlloc_eq {config : SvmQueueConfig} {bytes : Nat}
    (size : config.sizeToAlloc = .ok bytes) :
    bytes = sizeOfSvmQueue + config.nels.toNat * config.elsize.toNat ∧ config.elsize ≠ 0 ∧
      bytes < 2 ^ 64 := by
  rw [SvmQueueConfig.sizeToAlloc, SvmQueueConfig.validate] at size
  split at size
  · cases size
  split at size
  · cases size
  next sized =>
  split at size
  · cases size
  simp only [Bind.bind, Except.bind] at size
  split at size
  · cases size
  next below =>
  cases size
  exact ⟨rfl, sized, Nat.not_le.mp below⟩

theorem Confined.met (confined : Confined queue allocationBytes s) {seen : Memory}
    (met : s.Met seen) : Bounded queue seen := by
  rcases met with rfl | ⟨touch, member, rfl | rfl⟩
  · exact confined.bounded
  · exact (confined.safe touch member).before
  · exact (confined.safe touch member).after

/-- The thread at a queue that `attach` accepted or that `init` made has done nothing yet. -/
theorem Confined.fresh (bounded : Bounded queue memory) :
    Confined queue allocationBytes (.fresh memory) :=
  ⟨bounded, fun _ member => absurd member List.not_mem_nil⟩

/-- What `init` makes is bounded. -/
theorem bounded_of_init {config : SvmQueueConfig} {bytes : Nat}
    (created : config.init data = .ok (queue, memory)) (size : config.sizeToAlloc = .ok bytes)
    (mapped : bytes ≤ sizeOfSvmQueue + data.length) : Bounded queue memory := by
  rcases init_eq created with ⟨nonzero, rfl, rfl⟩
  rcases sizeToAlloc_eq size with ⟨rfl, -, -⟩
  have positive : 0 < config.nels.toNat :=
    Nat.pos_of_ne_zero fun zero => nonzero (UInt32.toNat_inj.mp zero)
  exact ⟨⟨positive, positive, config.nels.toNat_lt, Nat.add_le_add_iff_left.mp mapped⟩,
    Nat.zero_le _⟩

end Accepted

/-- Whatever header `attach` accepts, no sequence of calls on the queue leaves the allocation, the
bounds of the words, or `u32`; and what such calls make of a queue that `init` made, also halfway
through a call, `attach` accepts in every allocation that is large enough. -/
theorem attached_in_bounds :
    (∀ (header : Header) (allocationBytes : Nat) (queue : SvmQueue) (data : Bytes) (s : Station),
      header.attach allocationBytes = .ok queue →
      sizeOfSvmQueue + data.length = allocationBytes →
      AttachedCall.Reaches queue (.fresh (header.memory data)) s →
        Confined queue allocationBytes s ∧
          ∀ (call : AttachedCall) (out : Outcome SvmQueueError Unit) (s' : Station),
            (call.program queue).Runs (contended queue) s out s' → out ≠ .panic) ∧
    ∀ (config : SvmQueueConfig) (bytes : Nat) (data : Bytes) (queue : SvmQueue)
      (memory seen : Memory) (s : Station) (header : Header) (allocationBytes : Nat),
      config.sizeToAlloc = .ok bytes → bytes ≤ sizeOfSvmQueue + data.length →
      config.init data = .ok (queue, memory) →
      AttachedCall.Reaches queue (.fresh memory) s → s.Met seen → header.Records queue seen →
      bytes ≤ allocationBytes →
        header.attach allocationBytes = .ok queue := by
  constructor
  · intro header allocationBytes queue data s attached mapped reaches
    have fits := (Header.attach_eq_ok attached).2.2.2.2
    have confined := reaches.confined fits (.fresh (Header.bounded attached mapped))
    exact ⟨confined, fun call out s' run => (call.run_confined fits confined run).1⟩
  · intro config bytes data queue memory seen s header allocationBytes size mapped created reaches
      met records enough
    have bounded := bounded_of_init created size mapped
    rcases init_eq created with ⟨-, rfl, -⟩
    rcases sizeToAlloc_eq size with ⟨rfl, sized, addressable⟩
    have confined := reaches.confined (Nat.le_refl _) (.fresh bounded)
    have positive : config.elsize.toNat ≠ 0 := fun zero => sized (UInt32.toNat_inj.mp zero)
    exact Header.attach_of_bounded records (confined.met met) positive addressable enough

/-- Two slots of one byte. -/
def skewedHeader : Header := ⟨0, 1, 0, 2, 1, -1, -1⟩

/-- A header whose tail is not behind its elements is accepted, and an addition to it stays in
bounds; the header of a new queue is accepted in a larger allocation. -/
theorem attached_in_bounds_skewed :
    (∃ s, Confined ⟨2, 1⟩ 122 s ∧ s.touches.length = 3) ∧
      Header.attach ⟨0, 0, 0, 2, 1, -1, -1⟩ 200 = .ok ⟨2, 1⟩ := by
  have attached : skewedHeader.attach 122 = .ok ⟨2, 1⟩ := rfl
  let environment : Environment :=
    ⟨-1, .standard, .ok (), .ok (), .ok .notified, .ok (), 8, 0, 0⟩
  have run : (AttachedCall.program ⟨2, 1⟩ (.add 1 [7] .nowait)).exec (idle environment)
      (.fresh (skewedHeader.memory [0, 0])) = (.ok (), _) := rfl
  have reaches : AttachedCall.Reaches ⟨2, 1⟩ (.fresh (skewedHeader.memory [0, 0])) _ :=
    .single ⟨_, _, runs_of_idle run (fun fault => nomatch fault)⟩
  refine ⟨⟨_, (attached_in_bounds.1 skewedHeader 122 _ _ _ attached rfl reaches).1, rfl⟩, ?_⟩
  exact attached_in_bounds.2 ⟨2, 1⟩ 122 [0, 0] _ _ _ _ _ 200 rfl (by decide) rfl .refl (.inl rfl)
    ⟨rfl, rfl, rfl, rfl⟩ (by decide)

end Netsystem.Shmem
