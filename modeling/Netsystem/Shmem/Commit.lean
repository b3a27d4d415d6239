import Netsystem.Shmem.Contended

/-!
# Commit or no effect

Seven calls change the queue. Each of them, whatever becomes of its locking, waiting and
signalling, makes all of its stores or none (`commit_or_no_effect`): a value and a signalling
error stand for the whole effect, every other error for nothing.

The stores of a thread that holds the mutex follow one another on one memory. A thread that lost
its guard to the event descriptor makes the same stores, one by one among those of the others.
-/

namespace Netsystem.Shmem

open Prog

/-! ## Effects -/

/-- What a call does to the queue when it is not refused. -/
inductive QueueEffect : Type where
  | add (element : Bytes)
  | addPair (first second : Bytes)
  | sub (size : Nat)
  deriving DecidableEq

/-- The accesses of `write_one` at a slot. -/
def pushAccesses (queue : SvmQueue) (slot : Nat) (element : Bytes) : List Access :=
  [.copyIn (slot * queue.elsize) element, .store .tail (Ring.next queue.maxsize slot), .fetchAdd]

/-- The accesses of `sub_nolock` at a slot. -/
def popAccesses (queue : SvmQueue) (slot : Nat) : List Access :=
  [.copyOut (slot * queue.elsize) queue.elsize, .store .head (Ring.next queue.maxsize slot),
    .fetchSub]

/-- `write_one` under the mutex. -/
def pushSteps (queue : SvmQueue) (memory : Memory) (element : Bytes) : List Touch :=
  [⟨.copyIn (memory.tail * queue.elsize) element, memory, memory.pushing queue element 1, true⟩,
    ⟨.store .tail (Ring.next queue.maxsize memory.tail), memory.pushing queue element 1,
      memory.pushing queue element 2, true⟩,
    ⟨.fetchAdd, memory.pushing queue element 2, memory.push queue element, true⟩]

/-- `sub_nolock` under the mutex. -/
def popSteps (queue : SvmQueue) (memory : Memory) : List Touch :=
  [⟨.copyOut (memory.head * queue.elsize) queue.elsize, memory, memory, true⟩,
    ⟨.store .head (Ring.next queue.maxsize memory.head), memory, memory.popping queue 1, true⟩,
    ⟨.fetchSub, memory.popping queue 1, memory.pop queue, true⟩]

namespace QueueEffect

def operation : QueueEffect → SvmQueueOperation
  | .add _ => .add
  | .addPair _ _ => .addPair
  | .sub _ => .sub

/-- The call has the right lengths, and the queue has the places or the element it needs. -/
def Fits (queue : SvmQueue) (memory : Memory) : QueueEffect → Prop
  | .add element => element.length = queue.elsize ∧ memory.cursize < queue.maxsize
  | .addPair first second => first.length = queue.elsize ∧ second.length = queue.elsize ∧
      memory.cursize + 2 ≤ queue.maxsize
  | .sub size => size = queue.elsize ∧ 0 < memory.cursize

/-- The occupancy at which the other side may be waiting: empty for an addition, full for a
removal. -/
def Edge (queue : SvmQueue) (memory : Memory) : QueueEffect → Prop
  | .add _ => memory.cursize = 0
  | .addPair _ _ => memory.cursize = 0
  | .sub _ => memory.cursize = queue.maxsize

/-- The whole effect on a memory that nobody else changes. -/
def steps (queue : SvmQueue) (memory : Memory) : QueueEffect → List Touch
  | .add element => pushSteps queue memory element
  | .addPair first second =>
      pushSteps queue memory first ++ pushSteps queue (memory.push queue first) second
  | .sub _ => popSteps queue memory

/-- The caller's buffer after the effect. -/
def filled (queue : SvmQueue) (memory : Memory) (buffer : Bytes) : QueueEffect → Bytes
  | .sub _ => slotAt queue.elsize memory.data memory.head
  | _ => buffer

end QueueEffect

/-- The effect was applied under the mutex, to a memory that had room for it and that satisfied
`edge`. -/
def Applied (queue : SvmQueue) (effect : QueueEffect) (edge : Memory → Prop)
    (s s' : Station) : Prop :=
  ∃ memory, Bounded queue memory ∧ effect.Fits queue memory ∧ edge memory ∧
    s'.touches = s.touches ++ effect.steps queue memory ∧
    s'.buffer = effect.filled queue memory s.buffer ∧ Bounded queue s'.memory

/-- The accesses were made without the guard. -/
structure Raced (queue : SvmQueue) (accesses : List Access) (s s' : Station) : Prop where
  touches : ∃ more, s'.touches = s.touches ++ more ∧ more.map Touch.what = accesses ∧
    ∀ touch ∈ more, touch.held = false
  held : s'.held = false
  eventMode : s.eventMode = true → s'.eventMode = true
  ranged : Ranged queue s.memory → Ranged queue s'.memory

/-- All accesses of the effect were made without the guard. -/
def QueueEffect.Races (queue : SvmQueue) (s s' : Station) : QueueEffect → Prop
  | .add element => ∃ slot < queue.maxsize, Raced queue (pushAccesses queue slot element) s s' ∧
      s'.buffer = s.buffer
  | .addPair first second => ∃ slot < queue.maxsize, ∃ slot' < queue.maxsize,
      Raced queue (pushAccesses queue slot first ++ pushAccesses queue slot' second) s s' ∧
      s'.buffer = s.buffer
  | .sub _ => ∃ slot < queue.maxsize, Raced queue (popAccesses queue slot) s s' ∧
      ∃ memory, Ranged queue memory ∧ s'.buffer = slotAt queue.elsize memory.data slot

/-- The effect was applied by a thread that had lost its guard and found room at its first
look. -/
def Struck (queue : SvmQueue) (effect : QueueEffect) (edge : Memory → Prop)
    (s s' : Station) : Prop :=
  s.held = false ∧ effect.Fits queue s.memory ∧ (∃ memory, Bounded queue memory ∧ edge memory) ∧
    effect.Races queue s s'

def Committed (queue : SvmQueue) (effect : QueueEffect) (edge : Memory → Prop)
    (s s' : Station) : Prop :=
  Applied queue effect edge s s' ∨ Struck queue effect edge s s'

/-- From `mid` on the program ends `s`'s method: with the effect applied, or with nothing touched
and an error that says so. `kept` is what becomes of the guard. -/
def CommitsFrom (queue : SvmQueue) (effect : QueueEffect) (kept : Station → Prop) (s : Station)
    (p : Call Unit) (mid : Station) : Prop :=
  p.Ensures (contended queue) (fun _ s' => kept s' ∧ Committed queue effect (fun _ => True) s s')
    (fun stop s' => kept s' ∧ (Refused stop ∧ Quiet queue s s' ∨
      Unsignalled effect.operation stop ∧
        Committed queue effect (fun memory => effect.Edge queue memory) s s')) mid

/-- A method of the lock applies its effect, or touches nothing and says so. -/
abbrev Commits (queue : SvmQueue) (effect : QueueEffect) (p : Call Unit) (s : Station) : Prop :=
  CommitsFrom queue effect Station.Guarded s p s

section Effects

variable {queue : SvmQueue} {effect : QueueEffect} {edge : Memory → Prop} {s mid s' : Station}
  {accesses more : List Access}

/-- A thread with the guard races with nobody. -/
theorem Committed.applied (committed : Committed queue effect edge s s') (held : s.held = true) :
    Applied queue effect edge s s' := by
  rcases committed with applied | ⟨lost, -⟩
  · exact applied
  · cases lost.symm.trans held

theorem Applied.before (applied : Applied queue effect edge mid s') (quiet : Quiet queue s mid) :
    Applied queue effect edge s s' := by
  rcases applied with ⟨memory, bounded, fits, onEdge, touches, buffer, later⟩
  exact ⟨memory, bounded, fits, onEdge, quiet.touches ▸ touches, quiet.buffer ▸ buffer, later⟩

theorem Applied.after (applied : Applied queue effect edge s mid) (quiet : Quiet queue mid s') :
    Applied queue effect edge s s' := by
  rcases applied with ⟨memory, bounded, fits, onEdge, touches, buffer, later⟩
  exact ⟨memory, bounded, fits, onEdge, quiet.touches.trans touches, quiet.buffer.trans buffer,
    quiet.others.bounded later⟩

theorem Raced.of_quiet (quiet : Quiet queue s s') (lost : s'.held = false) :
    Raced queue [] s s' :=
  ⟨⟨[], by rw [quiet.touches, List.append_nil], rfl, by simp⟩, lost, quiet.eventMode,
    quiet.others.ranged⟩

theorem Raced.trans (left : Raced queue accesses s mid) (right : Raced queue more mid s') :
    Raced queue (accesses ++ more) s s' := by
  rcases left.touches with ⟨first, firstEq, rfl, firstLost⟩
  rcases right.touches with ⟨second, secondEq, rfl, secondLost⟩
  refine ⟨⟨first ++ second, ?_, List.map_append, ?_⟩, right.held,
    right.eventMode ∘ left.eventMode, right.ranged ∘ left.ranged⟩
  · rw [secondEq, firstEq, List.append_assoc]
  · intro touch member
    rcases List.mem_append.mp member with early | late
    · exact firstLost touch early
    · exact secondLost touch late

theorem Raced.of_filled {element : Bytes} (lost : s.held = false)
    (settles : Station.Settles queue { s with buffer := element } s') : Raced queue [] s s' := by
  have quiet := settles.quiet
  exact ⟨⟨[], by rw [quiet.touches, List.append_nil], rfl, by simp⟩, settles.held_eq.trans lost,
    quiet.eventMode, quiet.others.ranged⟩

/-- One access without the guard. -/
theorem Raced.of_touched {what : Access} {memory : Memory} (lost : s.held = false)
    (touch : what.isTouch = true) (ranged : Ranged queue s.memory → Ranged queue memory)
    (settles : (s.touched what memory).Settles queue s') : Raced queue [what] s s' := by
  have quiet := settles.quiet
  refine ⟨⟨[⟨what, s.memory, memory, s.held⟩], ?_, rfl, ?_⟩, settles.held_eq.trans lost,
    quiet.eventMode, quiet.others.ranged ∘ ranged⟩
  · rw [quiet.touches, Station.touched, if_pos touch]
  · intro found member
    rw [List.mem_singleton.mp member]
    exact lost

theorem QueueEffect.Races.after (races : effect.Races queue s mid) (quiet : Quiet queue mid s')
    (same : s'.held = mid.held) : effect.Races queue s s' := by
  have longer : ∀ {accesses}, Raced queue accesses s mid → Raced queue accesses s s' := by
    intro accesses raced
    have more := raced.trans (Raced.of_quiet quiet (same.trans raced.held))
    rwa [List.append_nil] at more
  cases effect with
  | add element =>
      rcases races with ⟨slot, bound, raced, buffer⟩
      exact ⟨slot, bound, longer raced, quiet.buffer.trans buffer⟩
  | addPair first second =>
      rcases races with ⟨slot, bound, slot', bound', raced, buffer⟩
      exact ⟨slot, bound, slot', bound', longer raced, quiet.buffer.trans buffer⟩
  | sub size =>
      rcases races with ⟨slot, bound, raced, memory, ranged, buffer⟩
      exact ⟨slot, bound, longer raced, memory, ranged, quiet.buffer.trans buffer⟩

/-- A method may start some quiet steps further on, with the guard. -/
theorem CommitsFrom.before {kept : Station → Prop} {p : Call Unit}
    (commits : CommitsFrom queue effect kept mid p mid) (quiet : Quiet queue s mid)
    (held : mid.held = true) : CommitsFrom queue effect kept s p mid := by
  have earlier : ∀ {edge : Memory → Prop} {s'}, Committed queue effect edge mid s' →
      Committed queue effect edge s s' := fun committed =>
    .inl ((committed.applied held).before quiet)
  refine Ensures.mono commits (fun _ _ ended => ⟨ended.1, earlier ended.2⟩) ?_
  intro stop s' ended
  rcases ended with ⟨guarded, ⟨refused, more⟩ | ⟨reported, committed⟩⟩
  · exact ⟨guarded, .inl ⟨refused, quiet.trans more⟩⟩
  · exact ⟨guarded, .inr ⟨reported, earlier committed⟩⟩

theorem CommitsFrom.mono {kept kept' : Station → Prop} {p : Call Unit}
    (commits : CommitsFrom queue effect kept s p mid) (weaken : ∀ s', kept s' → kept' s') :
    CommitsFrom queue effect kept' s p mid :=
  Ensures.mono commits (fun _ _ ended => ⟨weaken _ ended.1, ended.2⟩)
    fun _ _ ended => ⟨weaken _ ended.1, ended.2⟩

theorem Committed.after (committed : Committed queue effect edge s mid)
    (quiet : Quiet queue mid s') (same : s'.held = mid.held) :
    Committed queue effect edge s s' := by
  rcases committed with applied | ⟨lost, fits, onEdge, races⟩
  · exact .inl (applied.after quiet)
  · exact .inr ⟨lost, fits, onEdge, races.after quiet same⟩

/-- The signal that ends a method. -/
theorem commits_signalIf {kept : Station → Prop} {onEdge : Prop} [Decidable onEdge]
    {isProducer : Bool} {operation : SvmQueueOperation} (same : operation = effect.operation)
    (keeps : ∀ s', Quiet queue mid s' → s'.held = mid.held → kept s')
    (done : Committed queue effect (fun _ => True) s mid)
    (doneOnEdge : onEdge →
      Committed queue effect (fun memory => effect.Edge queue memory) s mid) :
    CommitsFrom queue effect kept s
      (if onEdge then signal isProducer operation else pure () : Call Unit) mid := by
  split
  · next atEdge =>
      subst same
      refine (signal_ensures isProducer effect.operation).mono ?_ ?_
      · intro _ last signalled
        rcases signalled with ⟨quiet, same⟩
        exact ⟨keeps last quiet same, done.after quiet same⟩
      · intro stop last failed
        rcases failed with ⟨reported, quiet, same⟩
        exact ⟨keeps last quiet same, .inr ⟨reported, (doneOnEdge atEdge).after quiet same⟩⟩
  · exact ⟨keeps mid (.refl queue mid) rfl, done⟩

end Effects

/-! ## Insertions and removals -/

section Slots

variable {queue : SvmQueue} {s : Station} {α : Type} {value : α → Station → Prop}
  {stop : Stop SvmQueueError → Station → Prop}

theorem run_copyIn {memory : Memory} (ranged : Ranged queue memory) {slot : Nat} {element : Bytes}
    (bound : slot < queue.maxsize) (sized : element.length = queue.elsize) :
    memory.run (.copyIn (slot * queue.elsize) element) =
      some ((), { memory with data := splice memory.data (slot * queue.elsize) element }) := by
  have inside := ranged.slot_inside bound
  simp only [Memory.run, sized, if_pos inside]

theorem run_copyOut {memory : Memory} (ranged : Ranged queue memory) {slot : Nat}
    (bound : slot < queue.maxsize) :
    memory.run (.copyOut (slot * queue.elsize) queue.elsize) =
      some (slotAt queue.elsize memory.data slot, memory) :=
  if_pos (ranged.slot_inside bound)

theorem run_fetchAdd {memory : Memory} (bounded : Bounded queue memory)
    (room : memory.cursize < queue.maxsize) :
    memory.run .fetchAdd = some ((), memory.setWord .cursize (memory.cursize + 1)) := by
  have addressable := bounded.addressable
  have grown : wrappingSucc memory.cursize = memory.cursize + 1 := if_pos (by omega)
  rw [Memory.run, grown]

theorem run_fetchSub {memory : Memory} (filled : 0 < memory.cursize) :
    memory.run .fetchSub = some ((), memory.setWord .cursize (memory.cursize - 1)) := by
  have shrunk : wrappingPred memory.cursize = memory.cursize - 1 := if_neg (by omega)
  rw [Memory.run, shrunk]

theorem writeOne_ensures (held : s.held = true) (bounded : Bounded queue s.memory)
    {element : Bytes} (sized : element.length = queue.elsize)
    (room : s.memory.cursize < queue.maxsize) :
    (queue.writeOne element).Ensures (contended queue)
      (fun _ s' => s' = { s with
        memory := s.memory.push queue element
        touches := s.touches ++ pushSteps queue s.memory element })
      (fun _ _ => False) s := by
  rw [SvmQueue.writeOne, bind_eq, List.take_of_length_le (Nat.le_of_eq sized)]
  apply ensures_load
  intro first settles
  obtain rfl := settles.eq_of_held held
  rw [bind_eq]
  refine ensures_access _ _ rfl (run_copyIn bounded.toRanged bounded.tail_lt sized) ?_
  intro second settles
  obtain rfl := settles.eq_of_held held
  rw [bind_eq, Memory.word, successor_eq bounded.addressable bounded.tail_lt, bind_ok, bind_eq]
  refine ensures_access _ _ rfl rfl ?_
  intro third settles
  obtain rfl := settles.eq_of_held held
  have moved : Bounded queue (s.memory.pushing queue element 2) := bounded.pushing sized room 2
  rw [← bind_pure (access .fetchAdd)]
  refine ensures_access _ _ rfl (run_fetchAdd moved room) ?_
  intro last settles
  obtain rfl := settles.eq_of_held held
  simp only [Station.touched, Access.isTouch, if_true, held, List.append_assoc]
  rfl

theorem writeOne_races (lost : s.held = false) (ranged : Ranged queue s.memory) {element : Bytes}
    (sized : element.length = queue.elsize) :
    (queue.writeOne element).Ensures (contended queue)
      (fun _ s' => ∃ slot < queue.maxsize, Raced queue (pushAccesses queue slot element) s s' ∧
        s'.buffer = s.buffer)
      (fun _ _ => False) s := by
  have bound := ranged.tail_lt
  rw [SvmQueue.writeOne, bind_eq, List.take_of_length_le (Nat.le_of_eq sized)]
  apply ensures_load
  intro first settles
  have raced := Raced.of_quiet settles.quiet (settles.held_eq.trans lost)
  rw [bind_eq]
  refine ensures_access _ _ rfl (run_copyIn (raced.ranged ranged) bound sized) ?_
  intro second copied
  have raced :=
    raced.trans (Raced.of_touched raced.held rfl (fun ranged => ranged.write bound sized) copied)
  rw [bind_eq, Memory.word, successor_eq ranged.addressable bound, bind_ok, bind_eq]
  refine ensures_access _ _ rfl rfl ?_
  intro third moved
  have raced := raced.trans
    (Raced.of_touched raced.held rfl (fun ranged => ranged.setTail (Ring.next_lt bound)) moved)
  rw [← bind_pure (access .fetchAdd)]
  refine ensures_access _ _ rfl rfl ?_
  intro last counted
  have raced :=
    raced.trans (Raced.of_touched raced.held rfl (fun ranged => ranged.setCursize _) counted)
  refine ⟨s.memory.tail, bound, raced, ?_⟩
  rw [counted.quiet.buffer]
  exact moved.quiet.buffer.trans (copied.quiet.buffer.trans settles.quiet.buffer)

/-- A removal under the mutex. -/
theorem subNolock_applies (held : s.held = true) (bounded : Bounded queue s.memory) {size : Nat}
    (sized : size = queue.elsize) :
    CommitsFrom queue (.sub size) (fun s' => s'.held = true) s queue.subNolock s := by
  unfold CommitsFrom SvmQueue.subNolock
  apply ensures_load
  intro first settles
  obtain rfl := settles.eq_of_held held
  split
  · exact ⟨held, .inl ⟨rfl, .refl queue s⟩⟩
  next nonempty =>
  have filled : 0 < s.memory.cursize := Nat.pos_of_ne_zero nonempty
  apply ensures_load
  intro second settles
  obtain rfl := settles.eq_of_held held
  refine ensures_access _ _ rfl (run_copyOut bounded.toRanged bounded.head_lt) ?_
  intro third settles
  obtain rfl := settles.eq_of_held held
  apply ensures_fill
  intro fourth settles
  obtain rfl := settles.eq_of_held held
  apply ensures_load
  intro fifth settles
  obtain rfl := settles.eq_of_held held
  rw [bind_eq, Memory.word, successor_eq bounded.addressable bounded.head_lt, bind_ok, bind_eq]
  refine ensures_access _ _ rfl rfl ?_
  intro sixth settles
  obtain rfl := settles.eq_of_held held
  rw [bind_eq]
  have moved : 0 < (s.memory.popping queue 1).cursize := filled
  refine ensures_access _ _ rfl (run_fetchSub moved) ?_
  intro last settles
  have done : ∀ edge : Memory → Prop, edge s.memory →
      Committed queue (.sub size) edge s last := by
    intro edge atEdge
    obtain rfl := settles.eq_of_held held
    refine .inl ⟨s.memory, bounded, ⟨sized, filled⟩, atEdge, ?_, rfl, bounded.pop⟩
    simp only [Station.touched, Access.isTouch, if_true, held, List.append_assoc]
    rfl
  have held' := settles.held_eq.trans held
  exact commits_signalIf rfl (fun _ _ same => same.trans held') (done _ trivial)
    (done fun memory => memory.cursize = queue.maxsize)

/-- A removal without the guard. -/
theorem subNolock_races (lost : s.held = false) (guarded : s.Guarded)
    (bounded : Bounded queue s.memory) {size : Nat} (sized : size = queue.elsize) :
    Commits queue (.sub size) queue.subNolock s := by
  unfold Commits CommitsFrom SvmQueue.subNolock
  apply ensures_load
  intro first settles
  have quiet := settles.quiet
  have same := settles.held_eq
  split
  · exact ⟨quiet.guarded same guarded, .inl ⟨rfl, quiet⟩⟩
  next nonempty =>
  have bounded' := quiet.others.bounded bounded
  have bound := bounded'.head_lt
  apply ensures_load
  intro second settles
  have quiet := quiet.trans settles.quiet
  have raced := Raced.of_quiet quiet (settles.held_eq.trans (same.trans lost))
  have found : Bounded queue second.memory := quiet.others.bounded bounded
  refine ensures_access _ _ rfl (run_copyOut found.toRanged bound) ?_
  intro third copied
  have raced := raced.trans (Raced.of_touched raced.held rfl id copied)
  apply ensures_fill
  intro fourth filled
  have raced := raced.trans (Raced.of_filled raced.held filled)
  have kept : Bounded queue fourth.memory :=
    filled.quiet.others.bounded (copied.quiet.others.bounded found)
  apply ensures_load
  intro fifth settles
  have raced := raced.trans (Raced.of_quiet settles.quiet (settles.held_eq.trans raced.held))
  rw [bind_eq, Memory.word, successor_eq bounded.addressable bound, bind_ok, bind_eq]
  refine ensures_access _ _ rfl rfl ?_
  intro sixth moved
  have raced := raced.trans (Raced.of_touched raced.held rfl
    (fun ranged => ranged.setHead (Ring.next_lt bound)) moved)
  rw [bind_eq]
  refine ensures_access _ _ rfl rfl ?_
  intro last counted
  have raced := raced.trans (Raced.of_touched raced.held rfl
    (fun ranged => ranged.setCursize _) counted)
  have buffer : last.buffer = slotAt queue.elsize second.memory.data first.memory.head := by
    rw [counted.quiet.buffer]
    exact moved.quiet.buffer.trans (settles.quiet.buffer.trans filled.quiet.buffer)
  have done : ∀ edge : Memory → Prop, edge fourth.memory →
      Committed queue (.sub size) edge s last := fun edge atEdge =>
    .inr ⟨lost, ⟨sized, Nat.pos_of_ne_zero nonempty⟩, ⟨fourth.memory, kept, atEdge⟩,
      first.memory.head, bound, raced, second.memory, found.toRanged, buffer⟩
  have event : s.eventMode = true := guarded.eventMode lost
  exact commits_signalIf rfl (fun _ quiet _ => .inr (quiet.eventMode (raced.eventMode event)))
    (done _ trivial) (done fun memory => memory.cursize = queue.maxsize)

/-- A length check refuses, or tells the length. -/
theorem ensures_validateElement {actual : Nat} {f : Unit → Call α}
    (refused : stop (.error (.elementLengthMismatch queue.elsize actual)) s)
    (next : actual = queue.elsize → (f ()).Ensures (contended queue) value stop s) :
    ((queue.validateElement actual).bind f).Ensures (contended queue) value stop s := by
  unfold SvmQueue.validateElement
  split
  · exact refused
  · next sized => exact next (not_not.mp sized)

theorem tests_full : Tests queue queue.full fun memory => memory.cursize < queue.maxsize := by
  intro s bounded
  have count := bounded.count_le
  unfold SvmQueue.full
  apply ensures_load
  intro s' settles
  refine ⟨settles, decide_eq_true_iff.trans ?_⟩
  rw [Memory.word]
  omega

theorem tests_short : Tests queue queue.short fun memory => memory.cursize +
    2 ≤ queue.maxsize := by
  intro s bounded
  have count := bounded.count_le
  unfold SvmQueue.short
  apply ensures_load
  intro s' settles
  rw [Memory.word, if_neg (by omega)]
  refine ⟨settles, ?_⟩
  simp only [decide_eq_true_eq]
  omega

end Slots

/-! ## Methods of the lock -/

section Methods

variable {queue : SvmQueue} {s : Station}

theorem addNolock_commits (fuel : Nat) (conditionalWait : ConditionalWait) (element : Bytes)
    (guarded : s.Guarded) (bounded : Bounded queue s.memory) :
    Commits queue (.add element) (queue.addNolock fuel conditionalWait element) s := by
  unfold Commits CommitsFrom SvmQueue.addNolock
  apply ensures_validateElement ⟨guarded, .inl ⟨rfl, .refl queue s⟩⟩
  intro sized
  refine ensures_bind.mpr ((whileBlocked_ensures conditionalWait tests_full rfl fuel guarded
    bounded).mono ?_ fun _ _ ended => ⟨ended.1, .inl ended.2⟩)
  intro _ first passed
  rcases passed with ⟨quiet, cleared⟩
  have bounded' := quiet.others.bounded bounded
  apply ensures_load
  intro second settles
  rcases cleared with ⟨held, room⟩ | ⟨lost, lost', room⟩
  · obtain rfl := settles.eq_of_held held
    refine Ensures.bind ((writeOne_ensures held bounded' sized room).mono (fun _ _ => id)
      fun _ _ => False.elim) ?_
    intro _ last written
    have done : ∀ edge : Memory → Prop, edge first.memory →
        Committed queue (.add element) edge s last := by
      intro edge atEdge
      have applied : Applied queue (.add element) edge first last := by
        rw [written]
        exact ⟨first.memory, bounded', ⟨sized, room⟩, atEdge, rfl, rfl, bounded'.push sized room⟩
      exact .inl (applied.before quiet)
    have held' : last.held = true := written ▸ held
    exact commits_signalIf rfl (fun _ _ same => .inl (same.trans held')) (done _ trivial)
      (done fun memory => memory.cursize = 0)
  · have quiet' := quiet.trans settles.quiet
    have lost' := settles.held_eq.trans lost'
    refine Ensures.bind ((writeOne_races lost' (quiet'.others.bounded bounded).toRanged
      sized).mono (fun _ _ => id) fun _ _ => False.elim) ?_
    intro _ last written
    rcases written with ⟨slot, bound, raced, buffer⟩
    have raced := (Raced.of_quiet quiet' lost').trans raced
    have done : ∀ edge : Memory → Prop, edge first.memory →
        Committed queue (.add element) edge s last := fun edge atEdge =>
      .inr ⟨lost, ⟨sized, room⟩, ⟨first.memory, bounded', atEdge⟩, slot, bound, raced,
        buffer.trans quiet'.buffer⟩
    have event : s.eventMode = true := guarded.eventMode lost
    exact commits_signalIf rfl (fun _ quiet _ => .inr (quiet.eventMode (raced.eventMode event)))
      (done _ trivial) (done fun memory => memory.cursize = 0)

theorem add2Nolock_commits (fuel : Nat) (conditionalWait : ConditionalWait) (first second : Bytes)
    (guarded : s.Guarded) (bounded : Bounded queue s.memory) :
    Commits queue (.addPair first second)
      (queue.add2Nolock fuel conditionalWait first second) s := by
  unfold Commits CommitsFrom SvmQueue.add2Nolock
  apply ensures_validateElement ⟨guarded, .inl ⟨rfl, .refl queue s⟩⟩
  intro firstSized
  apply ensures_validateElement ⟨guarded, .inl ⟨rfl, .refl queue s⟩⟩
  intro secondSized
  split
  · exact ⟨guarded, .inl ⟨rfl, .refl queue s⟩⟩
  refine ensures_bind.mpr ((whileBlocked_ensures conditionalWait tests_short rfl fuel guarded
    bounded).mono ?_ fun _ _ ended => ⟨ended.1, .inl ended.2⟩)
  intro _ mid passed
  rcases passed with ⟨quiet, cleared⟩
  have bounded' := quiet.others.bounded bounded
  apply ensures_load
  intro loaded settles
  rcases cleared with ⟨held, room⟩ | ⟨lost, lost', room⟩
  · obtain rfl := settles.eq_of_held held
    have once := bounded'.push firstSized (Nat.lt_of_succ_lt room)
    refine Ensures.bind ((writeOne_ensures held bounded' firstSized (Nat.lt_of_succ_lt room)).mono
      (fun _ _ => id) fun _ _ => False.elim) ?_
    intro _ half written
    have held' : half.held = true := written ▸ held
    have room' : half.memory.cursize < queue.maxsize := written ▸ room
    have once' : Bounded queue half.memory := written ▸ once
    refine Ensures.bind ((writeOne_ensures held' once' secondSized room').mono
      (fun _ _ => id) fun _ _ => False.elim) ?_
    intro _ last writtenToo
    have done : ∀ edge : Memory → Prop, edge mid.memory →
        Committed queue (.addPair first second) edge s last := by
      intro edge atEdge
      have applied : Applied queue (.addPair first second) edge mid last := by
        rw [writtenToo, written]
        exact ⟨mid.memory, bounded', ⟨firstSized, secondSized, room⟩, atEdge,
          List.append_assoc _ _ _, rfl, once.push secondSized room⟩
      exact .inl (applied.before quiet)
    have heldToo : last.held = true := writtenToo ▸ held'
    exact commits_signalIf rfl (fun _ _ same => .inl (same.trans heldToo)) (done _ trivial)
      (done fun memory => memory.cursize = 0)
  · have quiet' := quiet.trans settles.quiet
    have lost' := settles.held_eq.trans lost'
    have ranged := (quiet'.others.bounded bounded).toRanged
    refine Ensures.bind ((writeOne_races lost' ranged firstSized).mono (fun _ _ => id)
      fun _ _ => False.elim) ?_
    intro _ half written
    rcases written with ⟨slot, bound, raced, buffer⟩
    refine Ensures.bind ((writeOne_races raced.held (raced.ranged ranged) secondSized).mono
      (fun _ _ => id) fun _ _ => False.elim) ?_
    intro _ last writtenToo
    rcases writtenToo with ⟨slot', bound', racedToo, bufferToo⟩
    have raced := (Raced.of_quiet quiet' lost').trans (raced.trans racedToo)
    have done : ∀ edge : Memory → Prop, edge mid.memory →
        Committed queue (.addPair first second) edge s last := fun edge atEdge =>
      .inr ⟨lost, ⟨firstSized, secondSized, room⟩, ⟨mid.memory, bounded', atEdge⟩, slot, bound,
        slot', bound', raced, bufferToo.trans (buffer.trans quiet'.buffer)⟩
    have event : s.eventMode = true := guarded.eventMode lost
    exact commits_signalIf rfl (fun _ quiet _ => .inr (quiet.eventMode (raced.eventMode event)))
      (done _ trivial) (done fun memory => memory.cursize = 0)

theorem subNolock_commits (guarded : s.Guarded) (bounded : Bounded queue s.memory) {size : Nat}
    (sized : size = queue.elsize) : Commits queue (.sub size) queue.subNolock s := by
  cases held : s.held with
  | true => exact (subNolock_applies held bounded sized).mono fun _ => .inl
  | false => exact subNolock_races held guarded bounded sized

theorem subRaw_commits (size : Nat) (guarded : s.Guarded) (bounded : Bounded queue s.memory) :
    Commits queue (.sub size) (queue.subRaw size) s := by
  unfold Commits CommitsFrom SvmQueue.subRaw
  apply ensures_validateElement ⟨guarded, .inl ⟨rfl, .refl queue s⟩⟩
  exact subNolock_commits guarded bounded

/-- The loop of `sub_into`, under the mutex. -/
theorem subLoop_commits (conditionalWait : ConditionalWait) (fuel : Nat) (held : s.held = true)
    (bounded : Bounded queue s.memory) :
    Commits queue (.sub queue.elsize) (queue.subLoop conditionalWait fuel) s := by
  induction fuel generalizing s with
  | zero => exact ⟨.inl held, .inl ⟨trivial, .refl queue s⟩⟩
  | succ fuel ih =>
      unfold Commits CommitsFrom SvmQueue.subLoop
      apply ensures_load
      intro first settles
      obtain rfl := settles.eq_of_held held
      split
      · exact subNolock_commits (.inl held) bounded rfl
      · refine ensures_bind.mpr ((waits_pause fuel conditionalWait rfl (.inl held)).mono ?_
          fun _ _ ended => ⟨ended.1, .inl ended.2⟩)
        intro _ second back
        rcases back with ⟨quiet, held⟩
        exact (ih held (quiet.others.bounded bounded)).before quiet held

end Methods

/-! ## Calls -/

/-- The calls that change the queue. The last three are methods of a lock. -/
inductive Mutation : Type where
  | add (fuel : Nat) (element : Bytes) (conditionalWait : ConditionalWait)
  | add2 (fuel : Nat) (first second : Bytes) (conditionalWait : ConditionalWait)
  | sub (fuel size : Nat) (conditionalWait : ConditionalWait)
  | sub2 (size : Nat)
  | addNolock (fuel : Nat) (conditionalWait : ConditionalWait) (element : Bytes)
  | add2Nolock (fuel : Nat) (conditionalWait : ConditionalWait) (first second : Bytes)
  | subRaw (size : Nat)

namespace Mutation

def program (queue : SvmQueue) : Mutation → Call Unit
  | .add fuel element conditionalWait => queue.add fuel element conditionalWait
  | .add2 fuel first second conditionalWait => queue.add2 fuel first second conditionalWait
  | .sub fuel size conditionalWait => queue.sub fuel size conditionalWait
  | .sub2 size => queue.sub2 size
  | .addNolock fuel conditionalWait element => queue.addNolock fuel conditionalWait element
  | .add2Nolock fuel conditionalWait first second =>
      queue.add2Nolock fuel conditionalWait first second
  | .subRaw size => queue.subRaw size

def effect : Mutation → QueueEffect
  | .add _ element _ => .add element
  | .add2 _ first second _ => .addPair first second
  | .sub _ size _ => .sub size
  | .sub2 size => .sub size
  | .addNolock _ _ element => .add element
  | .add2Nolock _ _ first second => .addPair first second
  | .subRaw size => .sub size

def ofLock : Mutation → Bool
  | .addNolock _ _ _ => true
  | .add2Nolock _ _ _ _ => true
  | .subRaw _ => true
  | _ => false

/-- The lock that a method is called on holds its guard, or lost it to the event descriptor. -/
def Ready (s : Station) (mutation : Mutation) : Prop := mutation.ofLock = true → s.Guarded

/-- The whole effect of the call; a thread without the guard applies it among the others. -/
def Done (queue : SvmQueue) (edge : Memory → Prop) (s s' : Station)
    (mutation : Mutation) : Prop :=
  Applied queue mutation.effect edge s s' ∨
    mutation.ofLock = true ∧ Struck queue mutation.effect edge s s'

/-- A value stands for the whole effect, a signalling error for the whole effect on the edge, and
every other end for nothing at all. -/
def AllOrNothing (queue : SvmQueue) (mutation : Mutation) (s : Station)
    (out : Outcome SvmQueueError Unit) (s' : Station) : Prop :=
  out.Ended (fun _ => mutation.Done queue (fun _ => True) s s') fun stop =>
    Refused stop ∧ Quiet queue s s' ∨ Unsignalled mutation.effect.operation stop ∧
      mutation.Done queue (fun memory => mutation.effect.Edge queue memory) s s'

end Mutation

section Calls

variable {queue : SvmQueue} {s : Station} {effect : QueueEffect}

/-- A call takes the mutex for a method and gives it back. -/
def Calls (queue : SvmQueue) (effect : QueueEffect) (p : Call Unit) (s : Station) : Prop :=
  p.Ensures (contended queue) (fun _ s' => Applied queue effect (fun _ => True) s s')
    (fun stop s' => Refused stop ∧ Quiet queue s s' ∨ Unsignalled effect.operation stop ∧
      Applied queue effect (fun memory => effect.Edge queue memory) s s') s

theorem withLock_calls {tryOnly : Bool} {body : Call Unit} (bounded : Bounded queue s.memory)
    (commits : ∀ mid : Station, mid.held = true → Bounded queue mid.memory →
      Commits queue effect body mid) : Calls queue effect (withLock tryOnly body) s := by
  refine ensures_bind.mpr ((acquire_ensures tryOnly).mono ?_ fun _ _ => .inl)
  intro _ mid locked
  rcases locked with ⟨quiet, held⟩
  have applied : ∀ {edge : Memory → Prop} {s'}, Committed queue effect edge mid s' →
      Applied queue effect edge s s' := fun committed => (committed.applied held).before quiet
  refine ensures_bind.mpr (ensures_attempt.mpr
    (Ensures.mono (commits mid held (quiet.others.bounded bounded)) ?_ ?_))
  · intro _ last done
    apply ensures_dropGuard
    exact fun _ dropped _ => (applied done.2).after dropped
  · intro stop last ended
    rcases ended with ⟨-, ⟨refused, more⟩ | ⟨reported, committed⟩⟩
    · cases stop with
      | error reason =>
          apply ensures_dropGuard
          exact fun _ dropped _ => .inl ⟨refused, quiet.trans (more.trans dropped)⟩
      | panic => exact refused.elim
      | pending => exact .inl ⟨trivial, quiet.trans more⟩
    · cases stop with
      | error reason =>
          apply ensures_dropGuard
          exact fun _ dropped _ => .inr ⟨reported, (applied committed).after dropped⟩
      | panic => exact reported.elim
      | pending => exact reported.elim

theorem add_calls (fuel : Nat) (element : Bytes) (conditionalWait : ConditionalWait)
    (bounded : Bounded queue s.memory) :
    Calls queue (.add element) (queue.add fuel element conditionalWait) s := by
  apply ensures_validateElement (.inl ⟨rfl, .refl queue s⟩)
  intro _
  exact withLock_calls bounded fun _ held bounded =>
    addNolock_commits fuel conditionalWait element (.inl held) bounded

theorem add2_calls (fuel : Nat) (first second : Bytes) (conditionalWait : ConditionalWait)
    (bounded : Bounded queue s.memory) :
    Calls queue (.addPair first second) (queue.add2 fuel first second conditionalWait) s := by
  apply ensures_validateElement (.inl ⟨rfl, .refl queue s⟩)
  intro _
  apply ensures_validateElement (.inl ⟨rfl, .refl queue s⟩)
  intro _
  exact withLock_calls bounded fun _ held bounded =>
    add2Nolock_commits fuel conditionalWait first second (.inl held) bounded

theorem sub_calls (fuel size : Nat) (conditionalWait : ConditionalWait)
    (bounded : Bounded queue s.memory) :
    Calls queue (.sub size) (queue.sub fuel size conditionalWait) s := by
  apply ensures_validateElement (.inl ⟨rfl, .refl queue s⟩)
  intro sized
  subst sized
  exact withLock_calls bounded fun _ held bounded =>
    subLoop_commits conditionalWait fuel held bounded

theorem sub2_calls (size : Nat) (bounded : Bounded queue s.memory) :
    Calls queue (.sub size) (queue.sub2 size) s := by
  apply ensures_validateElement (.inl ⟨rfl, .refl queue s⟩)
  intro sized
  refine withLock_calls bounded ?_
  intro mid held bounded
  apply ensures_load
  intro first settles
  obtain rfl := settles.eq_of_held held
  split
  · exact ⟨.inl held, .inl ⟨rfl, .refl queue mid⟩⟩
  · exact subNolock_commits (.inl held) bounded sized

/-- A call or method from `s` ends as `AllOrNothing` says. -/
abbrev Mutation.Ends (queue : SvmQueue) (mutation : Mutation) (s : Station) : Prop :=
  (mutation.program queue).Ensures (contended queue)
    (fun _ s' => mutation.Done queue (fun _ => True) s s')
    (fun stop s' => Refused stop ∧ Quiet queue s s' ∨ Unsignalled mutation.effect.operation stop ∧
      mutation.Done queue (fun memory => mutation.effect.Edge queue memory) s s') s

theorem ends_of_calls {mutation : Mutation}
    (calls : Calls queue mutation.effect (mutation.program queue) s) : mutation.Ends queue s := by
  refine Ensures.mono calls (fun _ _ applied => .inl applied) ?_
  intro stop last ended
  rcases ended with quiet | ⟨reported, applied⟩
  · exact .inl quiet
  · exact .inr ⟨reported, .inl applied⟩

theorem ends_of_commits {mutation : Mutation} (ofLock : mutation.ofLock = true)
    (commits : Commits queue mutation.effect (mutation.program queue) s) :
    mutation.Ends queue s := by
  have done : ∀ {edge : Memory → Prop} {last}, Committed queue mutation.effect edge s last →
      mutation.Done queue edge s last := by
    intro edge last committed
    rcases committed with applied | struck
    · exact .inl applied
    · exact .inr ⟨ofLock, struck⟩
  refine Ensures.mono commits (fun _ _ ended => done ended.2) ?_
  intro stop last ended
  rcases ended with ⟨-, quiet | ⟨reported, committed⟩⟩
  · exact .inl quiet
  · exact .inr ⟨reported, done committed⟩

theorem Mutation.ends (mutation : Mutation) (bounded : Bounded queue s.memory)
    (ready : mutation.Ready s) : mutation.Ends queue s := by
  cases mutation with
  | add fuel element conditionalWait =>
      exact ends_of_calls (add_calls fuel element conditionalWait bounded)
  | add2 fuel first second conditionalWait =>
      exact ends_of_calls (add2_calls fuel first second conditionalWait bounded)
  | sub fuel size conditionalWait =>
      exact ends_of_calls (sub_calls fuel size conditionalWait bounded)
  | sub2 size => exact ends_of_calls (sub2_calls size bounded)
  | addNolock fuel conditionalWait element =>
      exact ends_of_commits rfl
        (addNolock_commits fuel conditionalWait element (ready rfl) bounded)
  | add2Nolock fuel conditionalWait first second =>
      exact ends_of_commits rfl
        (add2Nolock_commits fuel conditionalWait first second (ready rfl) bounded)
  | subRaw size => exact ends_of_commits rfl (subRaw_commits size (ready rfl) bounded)

/-- Every call on the queue, in every wait mode and whatever becomes of locking, waiting and
signalling, applies its whole effect or nothing, and its result tells which. -/
theorem commit_or_no_effect {s' : Station} {out : Outcome SvmQueueError Unit}
    (mutation : Mutation) (bounded : Bounded queue s.memory) (ready : mutation.Ready s)
    (run : (mutation.program queue).Runs (contended queue) s out s') :
    mutation.AllOrNothing queue s out s' :=
  (mutation.ends bounded ready).of_runs run

end Calls

/-- One slot of one byte, empty, and a thread that holds the mutex. -/
def lockedSlot : Station := ⟨⟨0, 0, 0, -1, -1, [0]⟩, true, false, [], []⟩

/-- An addition to the empty slot whose broadcast fails reports the addition as done. -/
theorem commit_or_no_effect_unsignalled :
    ∃ s', Mutation.AllOrNothing ⟨1, 1⟩ (.addNolock 1 .nowait [7]) lockedSlot
      (.error (.signalAfterCommit .add 22)) s' := by
  have bounded : Bounded ⟨1, 1⟩ lockedSlot.memory :=
    ⟨⟨by decide, by decide, by decide, by decide⟩, by decide⟩
  let environment : Environment :=
    ⟨-1, .standard, .ok (), .ok (), .ok .notified, .error 22, 8, 0, 0⟩
  have run : (Mutation.program ⟨1, 1⟩ (.addNolock 1 .nowait [7])).exec
      (idle environment) lockedSlot = (.error (.signalAfterCommit .add 22), _) := rfl
  exact ⟨_, commit_or_no_effect _ bounded (fun _ => .inl rfl)
    (runs_of_idle run (fun fault => nomatch fault))⟩

end Netsystem.Shmem
