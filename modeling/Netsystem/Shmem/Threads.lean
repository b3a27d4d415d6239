import Netsystem.Monitor
import Netsystem.Shmem.Queue

/-!
# Threads on one queue

The queue as a monitor: its mutex, its condition variable, and a state that the threads share. A
`Carrier` is such a state; it has the memory of the queue and may record more. A `Discipline` is
an invariant for the threads of one queue. `Discipline.Keeps` says of a program that it keeps the
invariant, and the lemmas of this module say it of the programs of the queue: of a wait where a
call that cannot go on may park (`Parks`), of an addition where the invariant bears the elements
(`Puts`) and of a removal where it bears the loss of the oldest one (`Takes`).
-/

namespace Netsystem.Shmem

open Prog Monitor

/-- The descriptor of one side. -/
def Memory.evtfd (memory : Memory) (isProducer : Bool) : Int :=
  if isProducer then memory.producerEvtfd else memory.consumerEvtfd

/-! ## Shared states -/

/-- A state that carries the memory of a queue: what an access with its effect on the memory makes
of it, and a write to the buffer of a caller. -/
structure Carrier (σ : Type) : Type where
  memory : σ → Memory
  accessed : Access → Memory → σ → σ
  filled : Bytes → σ → σ
  memory_accessed : ∀ what memory' s, memory (accessed what memory' s) = memory'
  memory_filled : ∀ element s, memory (filled element s) = memory s
  read : ∀ what s, what.isStore = false → accessed what (memory s) s = s

/-- What may fail: the mutex refuses a call, a wait ends early, late or with an error, and a
broadcast fails. -/
def failing {σ : Type} : (op : Op) → σ → Effect σ op.Ret → Prop
  | .lock tryOnly, s, effect => (∃ source, effect = .plain (.failed source) s) ∨
      tryOnly = true ∧ effect = .plain .busy s
  | .wait _, _, effect => ∃ answer, answer ≠ .error .ownerDead ∧ effect = .park answer
  | .notifyAll, s, effect => ∃ source, effect = .plain (.error source) s
  | _, _, _ => False

namespace Carrier

variable {σ : Type} (carrier : Carrier σ)

/-- What each operation does to the monitor where none fails but the write to a descriptor. No
thread dies. -/
def reliable : (op : Op) → σ → Effect σ op.Ret → Prop
  | .access what, s, effect => ∃ answer memory,
      (carrier.memory s).run what = some (answer, memory) ∧
        effect = .plain answer (carrier.accessed what memory s)
  | .lock _, _, effect => effect = .acquire .standard
  | .makeConsistent, s, effect => effect = .plain (.ok ()) s
  | .markConsistent, s, effect => effect = .plain (.ok ()) s
  | .unlock, _, effect => effect = .release ()
  | .guardHeld, _, effect => effect = .holds id
  | .fill element, s, effect => effect = .plain () (carrier.filled element s)
  | .wait _, _, effect => effect = .park (.ok .notified)
  | .notifyAll, _, effect => effect = .broadcast (.ok ())
  | .writeEvent _, s, effect => ∃ written, effect = .plain written s
  | .lastOsError, s, effect => ∃ source, effect = .plain source s
  | .now, s, effect => ∃ instant, effect = .plain instant s

/-- One effect for each operation; a write to a descriptor succeeds. -/
def pick : (op : Op) → σ → Option (Effect σ op.Ret)
  | .access what, s => ((carrier.memory s).run what).map fun (answer, memory) =>
      .plain answer (carrier.accessed what memory s)
  | .lock _, _ => some (.acquire .standard)
  | .makeConsistent, s => some (.plain (.ok ()) s)
  | .markConsistent, s => some (.plain (.ok ()) s)
  | .unlock, _ => some (.release ())
  | .guardHeld, _ => some (.holds id)
  | .fill element, s => some (.plain () (carrier.filled element s))
  | .wait _, _ => some (.park (.ok .notified))
  | .notifyAll, _ => some (.broadcast (.ok ()))
  | .writeEvent _, s => some (.plain 8 s)
  | .lastOsError, s => some (.plain 0 s)
  | .now, s => some (.plain 0 s)

theorem reliable_of_pick (op : Op) (s : σ) (effect : Effect σ op.Ret)
    (picked : carrier.pick op s = some effect) : carrier.reliable op s effect := by
  cases op with
  | access what =>
      obtain ⟨⟨answer, memory⟩, run, rfl⟩ := Option.map_eq_some_iff.mp picked
      exact ⟨answer, memory, run, rfl⟩
  | writeEvent fd => exact ⟨8, (Option.some.inj picked).symm⟩
  | lastOsError => exact ⟨0, (Option.some.inj picked).symm⟩
  | now => exact ⟨0, (Option.some.inj picked).symm⟩
  | lock tryOnly => exact (Option.some.inj picked).symm
  | makeConsistent => exact (Option.some.inj picked).symm
  | markConsistent => exact (Option.some.inj picked).symm
  | unlock => exact (Option.some.inj picked).symm
  | guardHeld => exact (Option.some.inj picked).symm
  | fill element => exact (Option.some.inj picked).symm
  | wait timeout => exact (Option.some.inj picked).symm
  | notifyAll => exact (Option.some.inj picked).symm

/-- The state after an element was copied behind the others; `next` is the new tail. -/
def written (queue : SvmQueue) (element : Bytes) (next : Nat) (s : σ) : σ :=
  let memory := carrier.memory s
  let data := splice memory.data (memory.tail * queue.elsize) element
  let moved := { memory with data := data, tail := next }
  carrier.accessed .fetchAdd { moved with cursize := wrappingSucc memory.cursize }
    (carrier.accessed (.store .tail next) moved
      (carrier.accessed (.copyIn (memory.tail * queue.elsize) element)
        { memory with data := data } s))

/-- The state in which the oldest element was copied to the buffer, and `next` is the new head. -/
def handed (queue : SvmQueue) (next : Nat) (s : σ) : σ :=
  let memory := carrier.memory s
  let element := window memory.data (memory.head * queue.elsize) queue.elsize
  carrier.accessed (.store .head next) { memory with head := next } (carrier.filled element s)

/-- The state after the removal. -/
def removed (queue : SvmQueue) (next : Nat) (s : σ) : σ :=
  let memory := carrier.memory s
  carrier.accessed .fetchSub { memory with head := next, cursize := wrappingPred memory.cursize }
    (carrier.handed queue next s)

@[simp] theorem memory_written (queue : SvmQueue) (element : Bytes) (next : Nat) (s : σ) :
    carrier.memory (carrier.written queue element next s) =
      { carrier.memory s with
        data := splice (carrier.memory s).data ((carrier.memory s).tail * queue.elsize) element
        tail := next
        cursize := wrappingSucc (carrier.memory s).cursize } :=
  carrier.memory_accessed ..

/-- The elements were copied behind the others, one after the other, each to a slot in memory. -/
def Writes (queue : SvmQueue) : List Bytes → σ → σ → Prop
  | [], s, s' => s' = s
  | element :: rest, s, s' => ∃ next, element.length = queue.elsize ∧
      queue.successor (carrier.memory s).tail = pure next ∧
        Writes queue rest (carrier.written queue element next s) s'

end Carrier

/-! ## Disciplines -/

/-- An invariant for the threads of one queue: `holds` relates the shared state to the parked
calls while the mutex is free. Where `certain`, broadcasts do not fail. -/
structure Discipline (σ κ : Type) : Type where
  carrier : Carrier σ
  queue : SvmQueue
  behavior : Behavior Op Op.Ret σ
  allowed : Op → σ → Set κ → Prop
  holds : σ → Set κ → Prop
  certain : Prop
  within : ∀ op s effect, behavior op s effect →
    carrier.reliable op s effect ∨ failing op s effect
  heard : certain → ∀ s effect, behavior .notifyAll s effect → effect = .broadcast (.ok ())
  fewer : ∀ s parked fewer, fewer ⊆ parked → holds s parked → holds s fewer
  bounded : ∀ s parked, holds s parked → (carrier.memory s).cursize ≤ queue.maxsize

namespace Discipline

variable {σ κ : Type} (d : Discipline σ κ)

/-- The program of `call` keeps the invariant and ends as `post` says. -/
abbrev Keeps (call : κ) {α : Type} (post : Outcome SvmQueueError α → View κ σ → Prop) (p : Call α)
    (view : View κ σ) : Prop :=
  Safe d.behavior d.allowed d.holds call post p view

/-- The thread holds the mutex, and the invariant holds. -/
def Holding (view : View κ σ) : Prop := ∃ s parked, view = some (s, parked) ∧ d.holds s parked

/-- A program comes back with the mutex and with `more` if it has a value; after an error it may
be without the mutex, if it is one that waits. -/
def Back (waits : Prop) (more : Memory → Prop) {α : Type} :
    Outcome SvmQueueError α → View κ σ → Prop
  | .ok _, view =>
      ∃ s parked, view = some (s, parked) ∧ d.holds s parked ∧ more (d.carrier.memory s)
  | .error _, view => waits ∧ view = none ∨ d.Holding view
  | .panic, _ => True
  | .pending, _ => True

/-- A program comes back with the mutex if it has a value. -/
abbrev Returns (waits : Prop) {α : Type} : Outcome SvmQueueError α → View κ σ → Prop :=
  d.Back waits fun _ => True

/-! ## Single operations -/

section Operations

variable {d} {call : κ} {α : Type} {s : σ} {parked : Set κ}
  {post : Outcome SvmQueueError α → View κ σ → Prop}

theorem keeps_access {what : Access} {f : what.Ret → Call α}
    (next : ∀ fewer, fewer ⊆ parked → d.allowed (.access what) s fewer → ∀ answer memory,
      (d.carrier.memory s).run what = some (answer, memory) →
        d.Keeps call post (f answer) (some (d.carrier.accessed what memory s, fewer))) :
    d.Keeps call post ((access what).bind f) (some (s, parked)) := by
  intro fewer smaller may effect can
  rcases d.within _ _ _ can with ⟨answer, memory, run, rfl⟩ | never
  · exact next fewer smaller may answer memory run
  · exact never.elim

theorem keeps_load {word : Word} {f : Nat → Call α}
    (next : ∀ fewer, fewer ⊆ parked →
      d.Keeps call post (f ((d.carrier.memory s).word word)) (some (s, fewer))) :
    d.Keeps call post ((load word).bind f) (some (s, parked)) := by
  apply keeps_access
  intro fewer smaller _ answer memory run
  cases run
  rw [d.carrier.read _ s rfl]
  exact next fewer smaller

theorem keeps_loadEvtfd {isProducer : Bool} {f : Int → Call α}
    (next : ∀ fewer, fewer ⊆ parked →
      d.Keeps call post (f ((d.carrier.memory s).evtfd isProducer)) (some (s, fewer))) :
    d.Keeps call post ((loadEvtfd isProducer).bind f) (some (s, parked)) := by
  apply keeps_access
  intro fewer smaller _ answer memory run
  cases isProducer with
  | true =>
      cases run
      rw [d.carrier.read _ s rfl]
      exact next fewer smaller
  | false =>
      cases run
      rw [d.carrier.read _ s rfl]
      exact next fewer smaller

theorem keeps_fill {element : Bytes} {f : Unit → Call α}
    (next : ∀ fewer, fewer ⊆ parked →
      d.Keeps call post (f ()) (some (d.carrier.filled element s, fewer))) :
    d.Keeps call post ((fill element).bind f) (some (s, parked)) := by
  intro fewer smaller _ effect can
  rcases d.within _ _ _ can with can | never
  · obtain rfl : effect = .plain () (d.carrier.filled element s) := can
    exact next fewer smaller
  · exact never.elim

/-- A load without the mutex. -/
theorem keeps_load_free {word : Word} {f : Nat → Call α}
    (next : ∀ value, d.Keeps call post (f value) none) :
    d.Keeps call post ((load word).bind f) none := by
  intro s effect can
  rcases d.within _ _ _ can with ⟨answer, memory, run, rfl⟩ | never
  · cases run
    exact ⟨d.carrier.read _ s rfl, next _⟩
  · exact never.elim

/-- Locking the mutex finds the invariant, or fails. -/
theorem keeps_acquire {tryOnly : Bool} {f : Unit → Call α}
    (next : ∀ s parked, d.holds s parked → d.Keeps call post (f ()) (some (s, parked)))
    (refused : ∀ reason, post (.error reason) none) :
    d.Keeps call post ((acquire tryOnly).bind f) none := by
  intro s effect can
  rcases d.within _ _ _ can with can | ⟨source, rfl⟩ | ⟨_, rfl⟩
  · obtain rfl : effect = .acquire .standard := can
    exact next
  · exact ⟨rfl, refused _⟩
  · exact ⟨rfl, refused _⟩

/-- Without the mutex there is nothing to release. -/
theorem keeps_unlock_free {f : Unit → Call α} (next : d.Keeps call post (f ()) none) :
    d.Keeps call post (dropGuard.bind f) none := by
  intro s effect can
  rcases d.within _ _ _ can with can | never
  · obtain rfl : effect = .release () := can
    exact next
  · exact never.elim

theorem keeps_unlock {f : Unit → Call α} (holds : d.holds s parked)
    (next : d.Keeps call post (f ()) none) :
    d.Keeps call post (dropGuard.bind f) (some (s, parked)) := by
  intro fewer smaller _ effect can
  rcases d.within _ _ _ can with can | never
  · obtain rfl : effect = .release () := can
    exact ⟨d.fewer _ _ _ smaller holds, next⟩
  · exact never.elim

end Operations

/-! ## Waiting -/

/-- A call that finds the queue so may park. -/
def Parks (call : κ) (blocked : Memory → Prop) : Prop :=
  ∀ s parked, d.holds s parked → blocked (d.carrier.memory s) →
    (d.carrier.memory s).producerEvtfd < 0 → d.holds s (insert call parked)

section Waiting

variable {d} {call : κ} {s : σ} {parked : Set κ}

/-- What follows a program that comes back. -/
theorem Keeps.andThen {α β : Type} {p : Call α} {f : α → Call β} {view : View κ σ} {waits : Prop}
    {more later : Memory → Prop} (first : d.Keeps call (d.Back waits more) p view)
    (rest : ∀ value s parked, d.holds s parked → more (d.carrier.memory s) →
      d.Keeps call (d.Back waits later) (f value) (some (s, parked))) :
    d.Keeps call (d.Back waits later) (p.bind f) view := by
  apply first.bind
  intro outcome view back
  cases outcome with
  | ok value =>
      obtain ⟨s, parked, rfl, holds, known⟩ := back
      exact rest value s parked holds known
  | error reason => exact back
  | panic => trivial
  | pending => trivial

theorem keeps_spin {occupancy : Nat} {deadline : Option Nat} (fuel : Nat) :
    d.Keeps call (d.Returns True) (spin occupancy deadline fuel) none := by
  have relock (outcome : WaitOutcome) :
      d.Keeps call (d.Returns True) ((acquire false).bind fun _ => pure outcome) none :=
    keeps_acquire (fun _ _ holds => ⟨_, _, rfl, holds, trivial⟩) fun _ => .inl ⟨trivial, rfl⟩
  induction fuel with
  | zero => trivial
  | succ fuel ih =>
      rw [spin.eq_def]
      apply keeps_load_free
      intro cursize
      split
      · cases deadline with
        | none => exact ih
        | some limit =>
            intro s effect can
            rcases d.within _ _ _ can with ⟨instant, rfl⟩ | never
            · refine ⟨rfl, ?_⟩
              dsimp only [bind_ok]
              split
              · exact relock .timedOut
              · exact ih
            · exact never.elim
      · exact relock .notified

theorem keeps_waitOnEvent {deadline : Option Nat} (holds : d.holds s parked) (fuel : Nat) :
    d.Keeps call (d.Returns True) (waitOnEvent fuel deadline) (some (s, parked)) := by
  rw [waitOnEvent, bind_eq]
  apply keeps_load
  intro fewer smaller
  exact keeps_unlock (d.fewer _ _ _ smaller holds) (keeps_spin fuel)

theorem keeps_waitOnCondvar {timeout : Option Nat}
    (parks : ∀ fewer, fewer ⊆ parked → d.holds s (insert call fewer)) :
    d.Keeps call (d.Returns True) (waitOnCondvar timeout) (some (s, parked)) := by
  intro fewer smaller _ effect can
  rcases d.within _ _ _ can with can | never
  swap
  · exact never.elim
  obtain rfl : effect = .holds id := can
  intro fewer' smaller' _ effect can
  obtain ⟨answer, alive, rfl⟩ : ∃ answer, answer ≠ .error .ownerDead ∧ effect = .park answer := by
    rcases d.within _ _ _ can with can | can
    · exact ⟨.ok .notified, nofun, can⟩
    · exact can
  refine ⟨parks _ (smaller'.trans smaller), fun s parked holds => ?_⟩
  cases answer with
  | ok outcome => exact ⟨_, _, rfl, holds, trivial⟩
  | error source =>
      cases source with
      | ownerDead => exact absurd rfl alive
      | other source => exact .inr ⟨_, _, rfl, holds⟩

theorem keeps_wait {blocked : Memory → Prop} (parks : d.Parks call blocked)
    (holds : d.holds s parked) (stuck : blocked (d.carrier.memory s)) (fuel : Nat) :
    d.Keeps call (d.Returns True) (wait fuel) (some (s, parked)) := by
  rw [wait, bind_eq]
  apply keeps_loadEvtfd
  intro fewer smaller
  have holds := d.fewer _ _ _ smaller holds
  split
  · exact (keeps_waitOnEvent holds fuel).andThen fun _ _ _ holds _ => ⟨_, _, rfl, holds, trivial⟩
  · next negative =>
      have parked (last : Set κ) (least : last ⊆ fewer) : d.holds s (insert call last) :=
        parks s last (d.fewer _ _ _ least holds) stuck (Int.not_le.mp negative)
      exact (keeps_waitOnCondvar parked).andThen fun _ _ _ holds _ => ⟨_, _, rfl, holds, trivial⟩

theorem keeps_timedWait {blocked : Memory → Prop} (parks : d.Parks call blocked)
    (holds : d.holds s parked) (stuck : blocked (d.carrier.memory s)) (fuel timeout : Nat) :
    d.Keeps call (d.Returns True) (timedWait fuel timeout) (some (s, parked)) := by
  rw [timedWait, bind_eq]
  apply keeps_loadEvtfd
  intro fewer smaller
  have holds := d.fewer _ _ _ smaller holds
  split
  · intro fewer' smaller' _ effect can
    rcases d.within _ _ _ can with ⟨instant, rfl⟩ | never
    · exact keeps_waitOnEvent (d.fewer _ _ _ smaller' holds) fuel
    · exact never.elim
  · next negative =>
      exact keeps_waitOnCondvar fun last least =>
        parks s last (d.fewer _ _ _ least holds) stuck (Int.not_le.mp negative)

/-- A pass of a waiting loop that never waits keeps the mutex. -/
theorem keeps_pause {conditionalWait : ConditionalWait} {refusal : SvmQueueError}
    {blocked : Memory → Prop} (parks : d.Parks call blocked) (holds : d.holds s parked)
    (stuck : blocked (d.carrier.memory s)) (fuel : Nat) :
    d.Keeps call (d.Returns (conditionalWait ≠ .nowait)) (pause fuel conditionalWait refusal)
      (some (s, parked)) := by
  have patient {mode : ConditionalWait} (waits : mode ≠ .nowait)
      (outcome : Outcome SvmQueueError Unit) (view : View κ σ)
      (back : d.Returns True outcome view) : d.Returns (mode ≠ .nowait) outcome view := by
    cases outcome with
    | error reason => exact back.imp_left fun lost => ⟨waits, lost.2⟩
    | ok value => exact back
    | panic => trivial
    | pending => trivial
  cases conditionalWait with
  | nowait => exact .inr ⟨_, _, rfl, holds⟩
  | wait => exact (keeps_wait parks holds stuck fuel).mono (patient nofun)
  | timedWait timeout =>
      have timed : d.Keeps call (d.Returns True) (pause fuel (.timedWait timeout) refusal)
          (some (s, parked)) := by
        refine (keeps_timedWait parks holds stuck fuel timeout).andThen
          fun outcome _ _ holds _ => ?_
        split
        · exact .inr ⟨_, _, rfl, holds⟩
        · exact ⟨_, _, rfl, holds, trivial⟩
      exact timed.mono (patient nofun)

/-- The test of a waiting loop reads whether the call can go on; it may fault. -/
def Tested (d : Discipline σ κ) (blocked room : Memory → Prop) (s : σ) (parked : Set κ)
    (outcome : Outcome SvmQueueError Bool) (view : View κ σ) : Prop :=
  outcome = .panic ∨ ∃ waits fewer, outcome = .ok waits ∧ view = some (s, fewer) ∧
    fewer ⊆ parked ∧ if waits then blocked (d.carrier.memory s) else room (d.carrier.memory s)

/-- Behind its waiting loop a call has what it waited for. -/
theorem keeps_whileBlocked {conditionalWait : ConditionalWait} {refusal : SvmQueueError}
    {test : Call Bool} {blocked room : Memory → Prop} (parks : d.Parks call blocked)
    (tests : ∀ s parked, d.holds s parked →
      d.Keeps call (d.Tested blocked room s parked) test (some (s, parked)))
    (fuel : Nat) (holds : d.holds s parked) :
    d.Keeps call (d.Back (conditionalWait ≠ .nowait) room)
      (whileBlocked conditionalWait refusal test fuel) (some (s, parked)) := by
  induction fuel generalizing s parked with
  | zero => trivial
  | succ fuel ih =>
      rw [whileBlocked, bind_eq]
      apply (tests s parked holds).bind
      intro outcome view tested
      rcases tested with rfl | ⟨waits, fewer, rfl, rfl, smaller, known⟩
      · trivial
      have holds := d.fewer _ _ _ smaller holds
      cases waits with
      | false => exact ⟨_, _, rfl, holds, known⟩
      | true => exact (keeps_pause parks holds known fuel).andThen fun _ _ _ holds _ => ih holds

end Waiting

/-! ## Adding and removing -/

/-- The parked calls that a signal on the edge may leave parked: none where it is sure to be a
broadcast. -/
def left (edge : Prop) (fd : Int) (parked : Set κ) : Set κ :=
  { call | call ∈ parked ∧ ¬ (d.certain ∧ edge ∧ fd < 0) }

/-- With room for them, the elements may be put behind the others, and the consumers signalled. -/
def Puts (elements : List Bytes) : Prop :=
  ∀ s parked s', d.holds s parked →
    (d.carrier.memory s).cursize + elements.length ≤ d.queue.maxsize →
      d.carrier.Writes d.queue elements s s' →
        d.holds s' (d.left ((d.carrier.memory s).cursize = 0)
          ((d.carrier.memory s).evtfd true) parked)

/-- The oldest element may be removed where that is allowed, and the producers signalled. -/
def Takes : Prop :=
  ∀ s parked next, d.holds s parked → 0 < (d.carrier.memory s).cursize →
    d.queue.successor (d.carrier.memory s).head = pure next →
      d.allowed (.access .fetchSub) (d.carrier.handed d.queue next s) parked →
        d.holds (d.carrier.removed d.queue next s)
          (d.left ((d.carrier.memory s).cursize = d.queue.maxsize)
            ((d.carrier.memory s).evtfd false) parked)

section Changes

variable {d} {call : κ} {s : σ} {parked : Set κ}

theorem subset_left {edge : Prop} {fd : Int} (silent : ¬ (d.certain ∧ edge ∧ fd < 0)) :
    parked ⊆ d.left edge fd parked := fun _ member => ⟨member, silent⟩

/-- A signal is a broadcast, or wakes nobody and may fail. -/
theorem keeps_signal {waits : Prop} {isProducer : Bool} {operation : SvmQueueOperation}
    (kept : d.holds s (d.left True ((d.carrier.memory s).evtfd isProducer) parked)) :
    d.Keeps call (d.Returns waits) (signal isProducer operation) (some (s, parked)) := by
  rw [signal, bind_eq]
  apply keeps_loadEvtfd
  intro fewer smaller
  split
  · next positive =>
      have silent : parked ⊆ d.left True ((d.carrier.memory s).evtfd isProducer) parked :=
        subset_left fun wakes => absurd positive (Int.not_le.mpr wakes.2.2)
      have holds (last : Set κ) (least : last ⊆ fewer) : d.holds s last :=
        d.fewer _ _ _ (least.trans (smaller.trans silent)) kept
      intro fewer' smaller' _ effect can
      rcases d.within _ _ _ can with ⟨written, rfl⟩ | never
      swap
      · exact never.elim
      by_cases failed : written ≠ 8
      · simp only [bind_ok, if_pos failed]
        intro last least _ effect can
        rcases d.within _ _ _ can with ⟨source, rfl⟩ | never
        · exact .inr ⟨_, _, rfl, holds _ (least.trans smaller')⟩
        · exact never.elim
      · simp only [bind_ok, if_neg failed]
        exact ⟨_, _, rfl, holds _ smaller', trivial⟩
  · intro fewer' smaller' _ effect can
    rcases d.within _ _ _ can with can' | ⟨source, rfl⟩
    · obtain rfl : effect = .broadcast (.ok ()) := can'
      exact ⟨_, _, rfl, d.fewer _ _ _ (Set.empty_subset _) kept, trivial⟩
    · have silent : parked ⊆ d.left True ((d.carrier.memory s).evtfd isProducer) parked :=
        subset_left fun wakes => by cases d.heard wakes.1 _ _ can
      exact .inr ⟨_, _, rfl, d.fewer _ _ _ (smaller'.trans (smaller.trans silent)) kept⟩

/-- A call ends with a signal on the edge. -/
theorem keeps_announce {waits edge : Prop} [Decidable edge] {isProducer : Bool}
    {operation : SvmQueueOperation}
    (kept : d.holds s (d.left edge ((d.carrier.memory s).evtfd isProducer) parked)) :
    d.Keeps call (d.Returns waits) (if edge then signal isProducer operation else pure ())
      (some (s, parked)) := by
  split
  · next raised =>
      rw [eq_true raised] at kept
      exact keeps_signal kept
  · next silent =>
      exact ⟨_, _, rfl, d.fewer _ _ _ (subset_left fun wakes => silent wakes.2.1) kept, trivial⟩

/-- The index after a slot is there, or its computation overflows. -/
theorem successor_cases (queue : SvmQueue) (slot : Nat) :
    queue.successor slot = .panic ∨ ∃ next, queue.successor slot = pure next := by
  rw [SvmQueue.successor]
  split
  · exact .inr ⟨_, rfl⟩
  · exact .inl rfl

theorem keeps_writeOne {element : Bytes} (sized : element.length = d.queue.elsize) :
    d.Keeps call (fun outcome view => outcome = .panic ∨ outcome = .ok () ∧ ∃ next fewer,
      fewer ⊆ parked ∧ d.queue.successor (d.carrier.memory s).tail = pure next ∧
        view = some (d.carrier.written d.queue element next s, fewer))
      (d.queue.writeOne element) (some (s, parked)) := by
  have whole : element.take d.queue.elsize = element :=
    List.take_of_length_le (Nat.le_of_eq sized)
  rw [SvmQueue.writeOne, whole, bind_eq]
  apply keeps_load
  intro fewer₁ smaller₁
  rw [bind_eq]
  apply keeps_access
  intro fewer₂ smaller₂ _ _ memory copied
  simp only [Memory.run] at copied
  split at copied
  swap
  · cases copied
  cases copied
  rw [Memory.word]
  rcases successor_cases d.queue (d.carrier.memory s).tail with fault | ⟨next, found⟩
  · rw [fault]
    exact .inl rfl
  rw [found, bind_eq, pure_eq, bind_ok, bind_eq]
  apply keeps_access
  intro fewer₃ smaller₃ _ _ memory stored
  cases stored
  rw [← bind_pure (access .fetchAdd)]
  apply keeps_access
  intro fewer₄ smaller₄ _ _ memory added
  cases added
  refine .inr ⟨rfl, next, fewer₄, ?_, rfl, ?_⟩
  · exact smaller₄.trans (smaller₃.trans (smaller₂.trans smaller₁))
  · simp only [Carrier.written, Memory.setWord, d.carrier.memory_accessed]

/-- A removal hands out the oldest element, or there is none. -/
theorem keeps_subNolock {waits : Prop} (takes : d.Takes) (holds : d.holds s parked) :
    d.Keeps call (d.Returns waits) d.queue.subNolock (some (s, parked)) := by
  rw [SvmQueue.subNolock, bind_eq]
  apply keeps_load
  intro fewer₁ smaller₁
  split
  · exact .inr ⟨_, _, rfl, d.fewer _ _ _ smaller₁ holds⟩
  · next some_ =>
      rw [bind_eq]
      apply keeps_load
      intro fewer₂ smaller₂
      rw [bind_eq]
      apply keeps_access
      intro fewer₃ smaller₃ _ element memory copied
      simp only [Memory.run] at copied
      split at copied
      swap
      · cases copied
      cases copied
      rw [d.carrier.read _ s rfl, bind_eq]
      apply keeps_fill
      intro fewer₄ smaller₄
      rw [bind_eq]
      apply keeps_load
      intro fewer₅ smaller₅
      rw [Memory.word, Memory.word]
      rcases successor_cases d.queue (d.carrier.memory s).head with fault | ⟨next, found⟩
      · rw [fault]
        trivial
      rw [found, bind_eq, pure_eq, bind_ok, bind_eq]
      apply keeps_access
      intro fewer₆ smaller₆ _ _ memory stored
      cases stored
      rw [bind_eq]
      apply keeps_access
      intro fewer₇ smaller₇ may _ memory subtracted
      cases subtracted
      have below : fewer₇ ⊆ parked := smaller₇.trans (smaller₆.trans (smaller₅.trans
        (smaller₄.trans (smaller₃.trans (smaller₂.trans smaller₁)))))
      have holds := d.fewer _ _ _ below holds
      simp only [Memory.setWord, d.carrier.memory_accessed, d.carrier.memory_filled] at may ⊢
      have taken := takes s fewer₇ next holds (Nat.pos_of_ne_zero some_) found may
      apply keeps_announce
      rw [d.carrier.memory_accessed]
      exact taken

end Changes

/-! ## Calls -/

section Calls

variable {d} {call : κ} {s : σ} {parked : Set κ}

/-- A call refuses an element of the wrong size before it does anything. -/
theorem keeps_validate {actual : Nat} {f : Unit → Call Unit}
    {post : Outcome SvmQueueError Unit → View κ σ → Prop} {view : View κ σ}
    (refused : ∀ reason, post (.error reason) view)
    (next : actual = d.queue.elsize → d.Keeps call post (f ()) view) :
    d.Keeps call post ((d.queue.validateElement actual).bind f) view := by
  rw [SvmQueue.validateElement]
  split
  · exact refused _
  · next same => exact next (not_not.mp same)

theorem keeps_full (holds : d.holds s parked) :
    d.Keeps call (d.Tested (fun memory => memory.cursize = d.queue.maxsize)
      (fun memory => memory.cursize + 1 ≤ d.queue.maxsize) s parked) d.queue.full
      (some (s, parked)) := by
  have bound := d.bounded _ _ holds
  rw [SvmQueue.full, bind_eq]
  apply keeps_load
  intro fewer smaller
  refine .inr ⟨_, fewer, rfl, rfl, smaller, ?_⟩
  rw [Memory.word]
  split
  · next full => exact of_decide_eq_true full
  · next open_ =>
      have apart := of_decide_eq_false (Bool.not_eq_true _ ▸ open_)
      omega

theorem keeps_short (holds : d.holds s parked) :
    d.Keeps call (d.Tested (fun memory => d.queue.maxsize < memory.cursize + 2)
      (fun memory => memory.cursize + 2 ≤ d.queue.maxsize) s parked) d.queue.short
      (some (s, parked)) := by
  have bound := d.bounded _ _ holds
  rw [SvmQueue.short, bind_eq]
  apply keeps_load
  intro fewer smaller
  rw [Memory.word, if_neg (Nat.not_lt.mpr bound)]
  refine .inr ⟨_, fewer, rfl, rfl, smaller, ?_⟩
  split
  · next short =>
      have near := of_decide_eq_true short
      omega
  · next open_ =>
      have apart := of_decide_eq_false (Bool.not_eq_true _ ▸ open_)
      omega

theorem keeps_addNolock {conditionalWait : ConditionalWait} {fuel : Nat} {element : Bytes}
    (parks : d.Parks call fun memory => memory.cursize = d.queue.maxsize)
    (puts : d.Puts [element]) (holds : d.holds s parked) :
    d.Keeps call (d.Returns (conditionalWait ≠ .nowait))
      (d.queue.addNolock fuel conditionalWait element) (some (s, parked)) := by
  rw [SvmQueue.addNolock, bind_eq]
  apply keeps_validate fun _ => .inr ⟨_, _, rfl, holds⟩
  intro sized
  rw [bind_eq]
  apply (keeps_whileBlocked parks (fun _ _ => keeps_full) fuel holds).andThen
  intro _ s parked holds room
  rw [bind_eq]
  apply keeps_load
  intro fewer smaller
  rw [bind_eq]
  apply (keeps_writeOne sized).bind
  rintro outcome view (rfl | ⟨rfl, next, fewer', smaller', found, rfl⟩)
  · trivial
  have holds := d.fewer _ _ _ (smaller'.trans smaller) holds
  have put := puts s fewer' _ holds room ⟨next, sized, found, rfl⟩
  apply keeps_announce
  rw [d.carrier.memory_written]
  exact put

theorem keeps_add2Nolock {conditionalWait : ConditionalWait} {fuel : Nat} {first second : Bytes}
    (parks : d.Parks call fun memory => d.queue.maxsize < memory.cursize + 2)
    (puts : d.Puts [first, second]) (holds : d.holds s parked) :
    d.Keeps call (d.Returns (conditionalWait ≠ .nowait))
      (d.queue.add2Nolock fuel conditionalWait first second) (some (s, parked)) := by
  rw [SvmQueue.add2Nolock, bind_eq]
  apply keeps_validate fun _ => .inr ⟨_, _, rfl, holds⟩
  intro firstSized
  rw [bind_eq]
  apply keeps_validate fun _ => .inr ⟨_, _, rfl, holds⟩
  intro secondSized
  split
  · exact .inr ⟨_, _, rfl, holds⟩
  rw [bind_eq]
  apply (keeps_whileBlocked parks (fun _ _ => keeps_short) fuel holds).andThen
  intro _ s parked holds room
  rw [bind_eq]
  apply keeps_load
  intro fewer smaller
  rw [bind_eq]
  apply (keeps_writeOne firstSized).bind
  rintro outcome view (rfl | ⟨rfl, next, fewer', smaller', found, rfl⟩)
  · trivial
  rw [bind_eq]
  apply (keeps_writeOne secondSized).bind
  rintro outcome view (rfl | ⟨rfl, next', fewer'', smaller'', found', rfl⟩)
  · trivial
  have holds := d.fewer _ _ _ (smaller''.trans (smaller'.trans smaller)) holds
  have put := puts s fewer'' _ holds room
    ⟨next, firstSized, found, next', secondSized, found', rfl⟩
  apply keeps_announce
  rw [d.carrier.memory_written, d.carrier.memory_written]
  exact put

/-- Induction on the passes of the loop of `sub_into`. -/
theorem keeps_subLoop {conditionalWait : ConditionalWait}
    (parks : d.Parks call fun memory => memory.cursize = 0) (takes : d.Takes) (fuel : Nat)
    (holds : d.holds s parked) :
    d.Keeps call (d.Returns (conditionalWait ≠ .nowait)) (d.queue.subLoop conditionalWait fuel)
      (some (s, parked)) := by
  induction fuel generalizing s parked with
  | zero => trivial
  | succ fuel ih =>
      rw [SvmQueue.subLoop, bind_eq]
      apply keeps_load
      intro fewer smaller
      have holds := d.fewer _ _ _ smaller holds
      split
      · exact keeps_subNolock takes holds
      · next empty =>
          exact (keeps_pause parks holds (not_not.mp empty) fuel).andThen
            fun _ _ _ holds _ => ih holds

/-- A body that comes back runs under the lock. -/
theorem keeps_withLock {waits : Prop} {tryOnly : Bool} {body : Call Unit}
    (returns : ∀ s parked, d.holds s parked →
      d.Keeps call (d.Returns waits) body (some (s, parked))) :
    d.Keeps call Finished (withLock tryOnly body) none := by
  have released (result : Except SvmQueueError Unit) :
      d.Keeps call Finished (Prog.ofExcept result : Call Unit) none := by
    cases result <;> exact fun _ => rfl
  rw [withLock, bind_eq]
  refine keeps_acquire (fun s parked holds => ?_) fun _ _ => rfl
  have attempted : d.Keeps call (Delivers fun view => view = none ∨ d.Holding view)
      (Prog.attempt body : Call (Except SvmQueueError Unit)) (some (s, parked)) := by
    apply (returns s parked holds).attempt
    intro outcome view back
    cases outcome with
    | ok value =>
        obtain ⟨s, parked, rfl, holds, -⟩ := back
        exact .of_ok (.inr ⟨s, parked, rfl, holds⟩)
    | error reason => exact .of_ok (back.imp_left And.right)
    | panic => exact fun ends => ends.elim
    | pending => exact fun ends => ends.elim
  rw [bind_eq]
  apply Safe.andThen (fun _ _ never ends => absurd ends never) attempted
  intro result view back
  rcases back with rfl | ⟨s, parked, rfl, holds⟩
  · exact keeps_unlock_free (released result)
  · exact keeps_unlock holds (released result)

theorem finished_of_refusal (reason : SvmQueueError) :
    Finished (.error reason : Outcome SvmQueueError Unit) (none : View κ σ) := fun _ => rfl

theorem keeps_add {conditionalWait : ConditionalWait} {fuel : Nat} {element : Bytes}
    (parks : d.Parks call fun memory => memory.cursize = d.queue.maxsize)
    (puts : d.Puts [element]) :
    d.Keeps call Finished (d.queue.add fuel element conditionalWait) none := by
  rw [SvmQueue.add, bind_eq]
  apply keeps_validate finished_of_refusal
  exact fun _ => keeps_withLock fun _ _ => keeps_addNolock parks puts

theorem keeps_add2 {conditionalWait : ConditionalWait} {fuel : Nat} {first second : Bytes}
    (parks : d.Parks call fun memory => d.queue.maxsize < memory.cursize + 2)
    (puts : d.Puts [first, second]) :
    d.Keeps call Finished (d.queue.add2 fuel first second conditionalWait) none := by
  rw [SvmQueue.add2, bind_eq]
  apply keeps_validate finished_of_refusal
  intro _
  rw [bind_eq]
  apply keeps_validate finished_of_refusal
  exact fun _ => keeps_withLock fun _ _ => keeps_add2Nolock parks puts

theorem keeps_sub {conditionalWait : ConditionalWait} {fuel size : Nat}
    (parks : d.Parks call fun memory => memory.cursize = 0) (takes : d.Takes) :
    d.Keeps call Finished (d.queue.sub fuel size conditionalWait) none := by
  rw [SvmQueue.sub, bind_eq]
  apply keeps_validate finished_of_refusal
  exact fun _ => keeps_withLock fun _ _ => keeps_subLoop parks takes fuel

end Calls

end Discipline

end Netsystem.Shmem
