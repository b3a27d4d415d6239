import Netsystem.Api.TableRoundTrip
import Netsystem.Connection.Client

/-!
# From `connect` to `disconnect`

One client whose two queues, Data Heap and server answer as they like: all that is certain is that
its own fields hold what it stored in them (`recording`). `World.history` is every operation of
the client with its answer, and what it has of the Data Heap is read off it (`World.holdings`).

A client that `connect` returned has its response queue, until a `disconnect` returns and after
that no more (`Standing`). `standing_call` is what one call does to that, and `lifecycle` what
follows for every sequence of calls, each of which may also fail or be dropped.
-/

namespace Netsystem.Connection

open Netsystem.Api Netsystem.Shmem Netsystem.Prog

/-! ## What a client does to its memory -/

/-- An operation with its answer. -/
abbrev Event : Type := (op : Op) × op.Ret

/-- A block of the Data Heap with the layout it was asked for. -/
structure Allocation : Type where
  address : Nat
  size : Nat
  align : Nat
  deriving DecidableEq

/-- The blocks that the Data Heap handed out and did not get back, those that it got back, and the
queues that were destroyed. -/
structure Holdings : Type where
  blocks : List Allocation
  returned : List Allocation
  destroyed : List InputQueue
  deriving DecidableEq

def Holdings.after (holdings : Holdings) : Event → Holdings
  | ⟨.allocateZeroed size align, some address⟩ =>
      { holdings with blocks := ⟨address, size, align⟩ :: holdings.blocks }
  | ⟨.deallocate address size align, _⟩ =>
      { holdings with
        blocks := holdings.blocks.erase ⟨address, size, align⟩
        returned := ⟨address, size, align⟩ :: holdings.returned }
  | ⟨.cleanup queue, _⟩ => { holdings with destroyed := queue :: holdings.destroyed }
  | _ => holdings

/-- The fields of the client, and all that it did, the latest first. -/
structure World : Type where
  client : Client
  history : List Event

namespace World

variable (world : World)

def record (event : Event) : World := { world with history := event :: world.history }

def holdings : Holdings :=
  world.history.foldr (fun event holdings => holdings.after event) ⟨[], [], []⟩

@[simp] theorem record_client (event : Event) : (world.record event).client = world.client := rfl

@[simp] theorem record_holdings (event : Event) :
    (world.record event).holdings = world.holdings.after event := rfl

end World

/-- The fields are the client's own; everything else is answered arbitrarily. -/
def recording : Handler Op Op.Ret World
  | .load, world, client, world' => client = world.client ∧ world' = world.record ⟨.load, client⟩
  | .store client, world, answer, world' =>
      world' = { client := client, history := ⟨.store client, answer⟩ :: world.history }
  | op, world, answer, world' => world' = world.record ⟨op, answer⟩

/-! ## Calls -/

/-- Calls one after another, each with how it ended. -/
def Course : List (Invocation × Outcome Error Unit) → World → World → Prop
  | [], world, world' => world' = world
  | (invocation, out) :: rest, world, world' =>
      ∃ fuel mid, (invocation.run fuel).Runs recording world out mid ∧ Course rest mid world'

/-- Every sequence of calls is a course. -/
theorem session_iff_course {world world' : World} :
    Session recording world world' ↔ ∃ calls, Course calls world world' := by
  constructor
  · intro session
    induction session using Relation.ReflTransGen.head_induction_on with
    | refl => exact ⟨[], rfl⟩
    | head next _ ih =>
        obtain ⟨fuel, invocation, out, run⟩ := next
        obtain ⟨calls, course⟩ := ih
        exact ⟨(invocation, out) :: calls, fuel, _, run, course⟩
  · intro some_
    obtain ⟨calls, course⟩ := some_
    induction calls generalizing world with
    | nil =>
        rw [show world' = world from course]
        exact .refl
    | cons call rest ih =>
        obtain ⟨fuel, mid, run, after⟩ := course
        exact .head ⟨fuel, call.1, call.2, run⟩ (ih after)

/-- A `disconnect` that returned. -/
def disconnects : Invocation × Outcome Error Unit → Bool
  | (.disconnect, .ok ()) => true
  | _ => false

/-! ## Operations that leave fields and memory alone -/

/-- Neither a field of the client nor its part of the Data Heap changes. -/
def Op.Harmless : Op → Prop
  | .store _ => False
  | .allocateZeroed _ _ => False
  | .deallocate _ _ _ => False
  | .cleanup _ => False
  | _ => True

theorem harmless_of_waits (op : Op) (waits : op.Waits) : op.Harmless := by
  cases op <;> first | exact trivial | exact absurd waits not_false

theorem harmless_of_handles (op : Op) (handles : op.Handles) : op.Harmless := by
  cases op <;> first | exact trivial | exact absurd handles not_false

/-- The fields and the memory are as they were. -/
structure Unchanged (world world' : World) : Prop where
  client : world'.client = world.client
  holdings : world'.holdings = world.holdings

theorem Unchanged.of_harmless {op : Op} {world world' : World} {answer : op.Ret}
    (harmless : op.Harmless) (answered : recording op world answer world') :
    Unchanged world world' := by
  cases op with
  | store client => exact absurd harmless not_false
  | allocateZeroed size align => exact absurd harmless not_false
  | deallocate address size align => exact absurd harmless not_false
  | cleanup queue => exact absurd harmless not_false
  | load =>
      obtain ⟨-, rfl⟩ := answered
      exact ⟨rfl, rfl⟩
  | _ =>
      obtain rfl := answered
      exact ⟨rfl, rfl⟩

/-- What depends on the fields and the memory only outlives a program of harmless operations. -/
theorem ensures_harmless {α : Type} {call : Call α} {invariant : World → Prop} {world : World}
    (uses : call.Uses Op.Harmless)
    (stable : ∀ before after, invariant before → Unchanged before after → invariant after)
    (holds : invariant world) :
    call.Ensures recording (fun _ => invariant) (fun _ => invariant) world :=
  uses.ensures (fun _ before _ after harmless held answered =>
    stable before after held (.of_harmless harmless answered)) holds

/-- The same of a program that need not get so far. -/
theorem ensures_until {α : Type} {call : Call α} {invariant : World → Prop} {world : World}
    (uses : call.Uses Op.Harmless)
    (stable : ∀ before after, invariant before → Unchanged before after → invariant after)
    (holds : invariant world) :
    call.Ensures recording (fun _ => invariant) (fun _ _ => True) world :=
  (ensures_harmless uses stable holds).mono (fun _ _ => id) fun _ _ _ => trivial

/-- A harmless operation and what follows it. -/
theorem ensures_harmless_op {α : Type} {op : Op} {next : op.Ret → Call α} {world : World}
    {value : α → World → Prop} {stop : Stop Error → World → Prop} (harmless : op.Harmless)
    (rest : ∀ answer mid, Unchanged world mid → (next answer).Ensures recording value stop mid) :
    ((perform op).bind next).Ensures recording value stop world :=
  fun answer mid answered => rest answer mid (.of_harmless harmless answered)

section Uses

theorem uses_receive (deadline fuel : Nat) : (receive deadline fuel).Uses Op.Harmless := by
  induction fuel with
  | zero => exact trivial
  | succ fuel ih =>
      refine (uses_perform trivial).bind fun self => (uses_perform trivial).bind fun taken => ?_
      cases taken with
      | ok address =>
          refine (uses_accept harmless_of_handles self address).bind fun message => ?_
          cases message with
          | some message => exact trivial
          | none => exact ih
      | error source =>
          cases source with
          | empty =>
              refine (uses_perform trivial).bind fun instant => ?_
              split
              · exact trivial
              · exact (uses_sleep.mono harmless_of_waits).bind fun _ => ih
          | _ => exact trivial

theorem uses_awaitDeleteReply (clientIndex : UInt32) (deleteReplyId : UInt16)
    (deadline fuel : Nat) :
    (awaitDeleteReply clientIndex deleteReplyId deadline fuel).Uses Op.Harmless := by
  induction fuel with
  | zero => exact trivial
  | succ fuel ih =>
      refine (uses_receive deadline (fuel + 1)).bind fun message => ?_
      cases message with
      | none => exact trivial
      | some message =>
          refine uses_reply harmless_of_handles message (fun _ => ih) fun decoded =>
            uses_mapErr.bind fun reply => ?_
          split <;> exact trivial

theorem uses_awaitCreateReply (path : String) (deadline fuel : Nat) :
    (awaitCreateReply path deadline fuel).Uses Op.Harmless := by
  induction fuel with
  | zero => exact trivial
  | succ fuel ih =>
      refine (uses_receive deadline (fuel + 1)).bind fun message => ?_
      cases message with
      | none => exact trivial
      | some message =>
          exact uses_reply harmless_of_handles message (fun _ => ih) fun _ => uses_mapErr

end Uses

/-! ## With and without a queue -/

/-- The queue lies in the allocation. -/
structure InputQueue.Within (queue : InputQueue) (block : Allocation) : Prop where
  size : queue.config.sizeToAlloc = .ok block.size
  address : block.address = queue.address
  align : block.align = cacheLineBytes

/-- The client has its queue. -/
structure Equipped (queue : InputQueue) (block : Allocation) (world : World) : Prop where
  inputQueue : world.client.inputQueue = queue
  holdings : world.holdings = ⟨[block], [], []⟩

/-- The client is connected and has its queue. -/
structure Attached (queue : InputQueue) (block : Allocation) (world : World) : Prop
    extends Equipped queue block world where
  index : world.client.clientIndex.isSome

/-- The client is disconnected and its queue is gone. -/
structure Detached (queue : InputQueue) (block : Allocation) (world : World) : Prop where
  inputQueue : world.client.inputQueue = queue
  index : world.client.clientIndex = none
  messageIds : world.client.messageIds = []
  holdings : world.holdings = ⟨[], [block], [queue]⟩

section Calls

-- What a message is made of does not matter any more.
attribute [local irreducible] sendMessage

variable {queue : InputQueue} {block : Allocation} {world : World}

theorem Unchanged.refl : Unchanged world world := ⟨rfl, rfl⟩

theorem Unchanged.trans {world' world'' : World} (first : Unchanged world world')
    (second : Unchanged world' world'') : Unchanged world world'' :=
  ⟨second.client.trans first.client, second.holdings.trans first.holdings⟩

theorem Unchanged.record_load (client : Client) :
    Unchanged world (world.record ⟨.load, client⟩) := ⟨rfl, rfl⟩

theorem Equipped.of_unchanged {world' : World} (equipped : Equipped queue block world)
    (unchanged : Unchanged world world') : Equipped queue block world' where
  inputQueue := by rw [unchanged.client, equipped.inputQueue]
  holdings := by rw [unchanged.holdings, equipped.holdings]

theorem Attached.of_unchanged {world' : World} (attached : Attached queue block world)
    (unchanged : Unchanged world world') : Attached queue block world' where
  toEquipped := attached.toEquipped.of_unchanged unchanged
  index := by rw [unchanged.client, attached.index]

/-- A load of the fields and what follows it. -/
theorem ensures_load {α : Type} {next : Client → Call α} {value : α → World → Prop}
    {stop : Stop Error → World → Prop}
    (rest : (next world.client).Ensures recording value stop
      (world.record ⟨.load, world.client⟩)) :
    (load.bind next).Ensures recording value stop world := by
  intro client mid answered
  obtain ⟨rfl, rfl⟩ := answered
  exact rest

/-- A store of the fields and what follows it. -/
theorem ensures_store {α : Type} {client : Client} {next : Unit → Call α}
    {value : α → World → Prop} {stop : Stop Error → World → Prop}
    (rest : (next ()).Ensures recording value stop
      ⟨client, ⟨.store client, ()⟩ :: world.history⟩) :
    ((store client).bind next).Ensures recording value stop world := by
  intro answer mid answered
  obtain rfl := answered
  exact rest

/-- A context costs the client a value of its counter. -/
theorem ensures_nextContext (attached : Attached queue block world) :
    nextContext.Ensures recording (fun _ => Attached queue block)
      (fun _ => Attached queue block) world := by
  refine ensures_load (ensures_store ?_)
  exact ⟨⟨attached.inputQueue, attached.holdings⟩, attached.index⟩

/-- An `invoke` leaves the connection as it is, however it ends. -/
theorem ensures_invoke {Request : Type} (Reply : Type) [Api Request] [Api Reply] (fuel : Nat)
    (request : Request) (attached : Attached queue block world) :
    (invoke Reply fuel request).Ensures recording (fun _ => Attached queue block)
      (fun _ => Attached queue block) world := by
  have stable : ∀ before after, Attached queue block before → Unchanged before after →
      Attached queue block after := fun _ _ => Attached.of_unchanged
  refine ensures_invoke_of fun self mid answered => ?_
  obtain ⟨rfl, rfl⟩ := answered
  have loaded := attached.of_unchanged (.record_load world.client)
  refine ⟨fun _ => loaded, fun clientIndex service requestId replyId _ => ?_⟩
  refine (ensures_nextContext loaded).bind fun context mid held => ?_
  refine ensures_harmless ?_ stable held
  exact (uses_sendMessage harmless_of_handles _).bind fun _ =>
    (uses_perform trivial).bind fun instant => (uses_receive _ fuel).bind fun received =>
      uses_returning harmless_of_handles Reply replyId context received

/-- The queue is destroyed, and then its allocation is given back. -/
theorem ensures_releaseQueue {stop : Stop Error → World → Prop} (within : queue.Within block)
    (equipped : Equipped queue block world) :
    releaseQueue.Ensures recording
      (fun _ mid => mid.client = world.client ∧ mid.holdings = ⟨[], [block], [queue]⟩) stop
      world := by
  refine ensures_load ?_
  rw [equipped.inputQueue, within.size]
  intro cleaned first cleanup returned last deallocate
  obtain rfl := cleanup
  obtain rfl := deallocate
  refine ⟨rfl, ?_⟩
  have exact_ : (⟨queue.address, block.size, cacheLineBytes⟩ : Allocation) = block := by
    rw [← within.address, ← within.align]
  simp only [World.record_holdings, Holdings.after, equipped.holdings, exact_,
    List.erase_cons_head]

/-- A `disconnect` that returns takes the queue with it, any other changes nothing. -/
theorem ensures_disconnect (fuel : Nat) (within : queue.Within block)
    (attached : Attached queue block world) :
    (disconnect fuel).Ensures recording (fun _ => Detached queue block)
      (fun _ => Unchanged world) world := by
  have stable : ∀ before after, Unchanged world before → Unchanged before after →
      Unchanged world after := fun _ _ => Unchanged.trans
  refine ensures_load ?_
  have loaded : Unchanged world (world.record ⟨.load, world.client⟩) := .record_load world.client
  refine (ensures_harmless uses_okOr stable loaded).bind fun clientIndex mid same => ?_
  refine (ensures_harmless uses_okOr stable same).bind fun deleteId mid same => ?_
  refine (ensures_harmless uses_okOr stable same).bind fun deleteReplyId mid same => ?_
  refine (ensures_harmless (uses_sendMessage harmless_of_handles _) stable same).bind
    fun _ mid same => ?_
  refine (ensures_harmless (uses_now.mono harmless_of_waits) stable same).bind
    fun instant mid same => ?_
  refine (ensures_harmless (uses_awaitDeleteReply _ _ _ _) stable same).bind fun _ mid same => ?_
  -- From here on nothing can fail any more.
  refine ensures_load (ensures_store ?_)
  have equipped := attached.toEquipped.of_unchanged same
  refine (ensures_releaseQueue within ⟨?_, ?_⟩).mono ?_ fun _ _ => id
  · exact equipped.inputQueue
  · exact equipped.holdings
  · intro _ last released
    exact ⟨by rw [released.1, ← equipped.inputQueue], by rw [released.1], by rw [released.1],
      released.2⟩

/-- Without a connection every call ends at once. -/
theorem ensures_detached (fuel : Nat) (invocation : Invocation)
    (index : world.client.clientIndex = none) :
    (invocation.run fuel).Ensures recording (fun _ _ => False)
      (fun end_ mid => end_ = .error .notConnected ∧ mid = world.record ⟨.load, world.client⟩)
      world := by
  cases invocation with
  | invoke Reply request =>
      refine ensures_bind.mpr (ensures_load ?_)
      rw [index]
      exact ⟨rfl, rfl⟩
  | disconnect =>
      refine ensures_load ?_
      rw [index]
      exact ⟨rfl, rfl⟩

/-- A queue that is handed on lies in the one allocation made for it. -/
theorem ensures_allocateClientQueue (responseQueueSize : UInt32)
    (fresh : world.holdings = ⟨[], [], []⟩) :
    (allocateClientQueue responseQueueSize).Ensures recording
      (fun queue mid => ∃ block, queue.Within block ∧ mid.holdings = ⟨[block], [], []⟩)
      (fun _ _ => True) world := by
  refine ensures_bind.mpr (ensures_mapErr (fun bytes size => ?_) fun _ _ => trivial)
  split
  · exact trivial
  · refine ensures_perform.mpr fun allocated mid answered => ?_
    obtain rfl := answered
    refine ensures_bind.mpr (ensures_okOr (fun address same => ?_) fun _ => trivial)
    subst same
    refine ensures_perform.mpr fun created last answered => ?_
    obtain rfl := answered
    cases created with
    | ok created =>
        refine ⟨⟨address, bytes, cacheLineBytes⟩, ⟨?_, rfl, rfl⟩, ?_⟩
        · rw [← size, InputQueue.config, queueConfig, UInt32.ofNat_toNat]
          rfl
        · simp only [World.record_holdings, Holdings.after, fresh]
    | error source =>
        intro returned final _
        exact trivial

/-- A client that is returned is connected, and its queue is all that it has of the Data Heap. -/
theorem ensures_connect (fuel : Nat) (name path : String) (responseQueueSize : UInt32)
    (handleKeepalives : Bool) (fresh : world.holdings = ⟨[], [], []⟩) :
    (connect fuel name path responseQueueSize handleKeepalives).Ensures recording
      (fun _ mid => ∃ queue block, queue.Within block ∧ Attached queue block mid)
      (fun _ _ => True) world := by
  have empty_stable : ∀ before after : World, before.holdings = ⟨[], [], []⟩ →
      Unchanged before after → after.holdings = ⟨[], [], []⟩ :=
    fun _ _ empty same => same.holdings.trans empty
  refine (ensures_until (uses_now.mono harmless_of_waits) empty_stable fresh).bind
    fun instant mid empty => ?_
  refine (ensures_until ((uses_awaitRegion _ _ _).mono harmless_of_waits) empty_stable
    empty).bind fun _ mid empty => ?_
  refine (ensures_until ((uses_awaitHeader _ _ _).mono harmless_of_waits) empty_stable
    empty).bind fun header mid empty => ?_
  refine ensures_harmless_op trivial fun validated mid same => ?_
  have empty := same.holdings.trans empty
  refine (ensures_until uses_mapErr empty_stable empty).bind fun _ mid empty => ?_
  refine (ensures_allocateClientQueue responseQueueSize empty).bind fun queue mid allocated => ?_
  obtain ⟨block, within, holdings⟩ := allocated
  -- The queue is the client's from here on.
  have stable : ∀ before after, Equipped queue block before → Unchanged before after →
      Equipped queue block after := fun _ _ => Equipped.of_unchanged
  refine ensures_store ?_
  refine Ensures.bind
    (ensures_until (uses_sendMessage harmless_of_handles _) stable ⟨rfl, holdings⟩)
    fun _ mid equipped => ?_
  refine (ensures_until (uses_awaitCreateReply _ _ _) stable equipped).bind
    fun reply mid equipped => ?_
  split
  · exact (ensures_releaseQueue within equipped).bind fun _ _ _ => trivial
  · refine ensures_harmless_op trivial fun remaining mid same => ?_
    have equipped := equipped.of_unchanged same
    refine (ensures_until uses_okOr stable equipped).bind fun table mid equipped => ?_
    refine (ensures_until uses_mapErr stable equipped).bind fun messageIds mid equipped => ?_
    refine ensures_load (ensures_store ?_)
    exact ⟨queue, block, within, ⟨equipped.inputQueue, equipped.holdings⟩, rfl⟩

end Calls

/-! ## Any sequence of calls -/

/-- Attached until a `disconnect` returned, detached from then on. -/
def Standing (queue : InputQueue) (block : Allocation) : (closed : Bool) → World → Prop
  | false => Attached queue block
  | true => Detached queue block

section Sequences

variable {queue : InputQueue} {block : Allocation} {closed : Bool} {world world' : World}
  {invocation : Invocation} {fuel : Nat} {out : Outcome Error Unit}

theorem Detached.of_unchanged (detached : Detached queue block world)
    (unchanged : Unchanged world world') : Detached queue block world' where
  inputQueue := by rw [unchanged.client, detached.inputQueue]
  index := by rw [unchanged.client, detached.index]
  messageIds := by rw [unchanged.client, detached.messageIds]
  holdings := by rw [unchanged.holdings, detached.holdings]

/-- Without a connection no call returns. -/
theorem call_detached (index : world.client.clientIndex = none)
    (run : (invocation.run fuel).Runs recording world out world') :
    out = .error .notConnected ∧ world' = world.record ⟨.load, world.client⟩ := by
  have ended := (ensures_detached fuel invocation index).of_runs run
  cases out with
  | ok result => exact absurd ended not_false
  | error reason =>
      obtain ⟨same, rfl⟩ := ended
      cases same
      exact ⟨rfl, rfl⟩
  | panic =>
      obtain ⟨same, -⟩ := ended
      cases same
  | pending =>
      obtain ⟨same, -⟩ := ended
      cases same

/-- What one call does to a client that is attached. -/
theorem standing_attached (within : queue.Within block) (attached : Attached queue block world)
    (run : (invocation.run fuel).Runs recording world out world') :
    Standing queue block (disconnects (invocation, out)) world' := by
  cases invocation with
  | invoke Reply request =>
      have invoked := (ensures_invoke Reply fuel request attached).bind fun _ _ held =>
        show (pure () : Call Unit).Ensures recording (fun _ => Attached queue block)
          (fun _ => Attached queue block) _ from held
      exact invoked.always run
  | disconnect =>
      have ended := (ensures_disconnect fuel within attached).of_runs run
      cases out with
      | ok result => exact ended
      | error reason => exact attached.of_unchanged ended
      | panic => exact attached.of_unchanged ended
      | pending => exact attached.of_unchanged ended

/-- What one call does. -/
theorem standing_call (within : queue.Within block) (standing : Standing queue block closed world)
    (run : (invocation.run fuel).Runs recording world out world') :
    Standing queue block (closed || disconnects (invocation, out)) world' := by
  cases closed with
  | false => exact standing_attached within standing run
  | true =>
      obtain ⟨-, rfl⟩ := call_detached (Detached.index standing) run
      exact Detached.of_unchanged standing (.record_load world.client)

/-- What a sequence of calls does. -/
theorem standing_course {calls : List (Invocation × Outcome Error Unit)}
    (within : queue.Within block) (standing : Standing queue block closed world)
    (course : Course calls world world') :
    Standing queue block (closed || calls.any disconnects) world' := by
  induction calls generalizing closed world with
  | nil =>
      obtain rfl := course
      rwa [List.any_nil, Bool.or_false]
  | cons call rest ih =>
      obtain ⟨fuel, mid, run, after⟩ := course
      rw [List.any_cons, ← Bool.or_assoc]
      exact ih (standing_call within standing run) after

/-- A client, its queue, the block that the queue lies in, and the calls so far. -/
structure Lifecycle (queue : InputQueue) (block : Allocation)
    (calls : List (Invocation × Outcome Error Unit)) (world : World) : Prop where
  inputQueue : world.client.inputQueue = queue
  /-- The client has an index exactly while its queue is allocated. -/
  allocated : world.client.clientIndex.isSome ↔ block ∈ world.holdings.blocks
  /-- Nothing is destroyed or given back before a `disconnect` returned. -/
  before : calls.any disconnects = false → world.holdings = ⟨[block], [], []⟩
  /-- From then on the queue is destroyed and its block given back, once each. -/
  after : calls.any disconnects = true → world.holdings = ⟨[], [block], [queue]⟩
  /-- A `disconnect` that does not return leaves everything as it was. -/
  retry : ∀ fuel out world', (disconnect fuel).Runs recording world out world' → out ≠ .ok () →
    Unchanged world world'
  /-- After one that returned, a call looks at the fields and ends. -/
  ended : calls.any disconnects = true → ∀ fuel (invocation : Invocation) out world',
    (invocation.run fuel).Runs recording world out world' →
      out = .error .notConnected ∧ world' = world.record ⟨.load, world.client⟩

/-- A `disconnect` that does not return changes nothing. -/
theorem Standing.retry (within : queue.Within block)
    (standing : Standing queue block closed world)
    (run : (disconnect fuel).Runs recording world out world') (failed : out ≠ .ok ()) :
    Unchanged world world' := by
  cases closed with
  | false =>
      have ended := (ensures_disconnect fuel within standing).of_runs run
      cases out with
      | ok result => exact absurd rfl failed
      | error reason => exact ended
      | panic => exact ended
      | pending => exact ended
  | true =>
      have call : (Invocation.disconnect.run fuel).Runs recording world out world' := run
      obtain ⟨-, rfl⟩ := call_detached (Detached.index standing) call
      exact .record_load world.client

/-- The life of every client that `connect` returned, under every sequence of calls. -/
theorem lifecycle {name path : String} {responseQueueSize : UInt32} {handleKeepalives : Bool}
    {start : Client} {connected : World} {calls : List (Invocation × Outcome Error Unit)}
    (returned : (connect fuel name path responseQueueSize handleKeepalives).Runs recording
      ⟨start, []⟩ (.ok ()) connected)
    (course : Course calls connected world) :
    ∃ block, connected.client.inputQueue.Within block ∧
      Lifecycle connected.client.inputQueue block calls world := by
  have opened := (ensures_connect fuel name path responseQueueSize handleKeepalives rfl).of_runs
    returned
  obtain ⟨queue, block, within, attached⟩ := opened
  rw [attached.inputQueue]
  have standing : Standing queue block (false || calls.any disconnects) world :=
    standing_course within attached course
  refine ⟨block, within, ?_⟩
  rw [Bool.false_or] at standing
  cases closed : calls.any disconnects with
  | false =>
      rw [closed] at standing
      have attached : Attached queue block world := standing
      refine ⟨attached.inputQueue, ?_, fun _ => attached.holdings, ?_, ?_, ?_⟩
      · simp only [attached.index, attached.holdings, List.mem_singleton]
      · exact fun other => absurd (closed.symm.trans other) (by decide)
      · exact fun fuel out world' run failed => standing.retry within run failed
      · exact fun other => absurd (closed.symm.trans other) (by decide)
  | true =>
      rw [closed] at standing
      have detached : Detached queue block world := standing
      refine ⟨detached.inputQueue, ?_, ?_, fun _ => detached.holdings, ?_, ?_⟩
      · simp only [detached.index, detached.holdings, List.not_mem_nil, Option.isSome_none,
          Bool.false_eq_true]
      · exact fun other => absurd (closed.symm.trans other) (by decide)
      · exact fun fuel out world' run failed => standing.retry within run failed
      · exact fun _ fuel invocation out world' run => call_detached detached.index run

end Sequences

/-! ## A connection opened and closed -/

/-- The reply to `memclnt_create_v2`, with index 7, and then the reply to `memclnt_delete`. -/
def replies (connected : Bool) : Bytes :=
  if connected then beBytes 2 28 ++ beBytes 4 0 ++ beBytes 8 0
  else beBytes 2 26 ++ beBytes 4 0 ++ beBytes 4 0 ++ beBytes 8 0 ++ beBytes 4 7 ++ beBytes 8 64

/-- A server that replies at once. -/
def prompt (world : World) : (op : Op) → op.Ret
  | .load => world.client
  | .store _ => ()
  | .now => 0
  | .sleep => true
  | .attach _ => .ok ()
  | .userContext => some 4096
  | .validate _ => .ok ()
  | .remainingFrom _ => some (encodeTable [(Api.nameCrc MemclntDelete, 27),
      (Api.nameCrc MemclntDeleteReply, 28)])
  | .allocateZeroed _ _ => some 8192
  | .deallocate _ _ _ => ()
  | .init _ _ => .ok ()
  | .cleanup _ => ()
  | .sub _ => .ok (leBytes 8 16384)
  | .add _ _ => .ok ()
  | .fromAddress address => .ok ⟨address, 30, 30⟩
  | .allocate payloadLen => .ok ⟨32768, payloadLen, 0⟩
  | .output message => List.replicate message.payloadLen 0
  | .fill _ _ => ()
  | .bytes _ => replies world.client.clientIndex.isSome
  | .free _ => ()

def prompted : Device Op Op.Ret World
  | .store client, world => some ((), ⟨client, ⟨.store client, ()⟩ :: world.history⟩)
  | op, world => some (prompt world op, world.record ⟨op, prompt world op⟩)

theorem prompted_sound (op : Op) (world : World) (answer : op.Ret) (world' : World)
    (answered : prompted op world = some (answer, world')) :
    recording op world answer world' := by
  cases op <;> cases answered <;> first | rfl | exact ⟨rfl, rfl⟩

/-- Two calls that return there, one after the other. -/
theorem runs_prompted {first second : Call Unit} {world : World}
    (returned : ((first.bind fun _ => second).exec prompted world).1 = .ok ()) :
    ∃ mid last, first.Runs recording world (.ok ()) mid ∧
      second.Runs recording mid (.ok ()) last := by
  have run : (first.bind fun _ => second).Runs recording world (.ok ())
      ((first.bind fun _ => second).exec prompted world).2 :=
    runs_of_exec prompted_sound (Prod.ext returned rfl) fun same => by cases same
  obtain ⟨_, mid, left, right⟩ := runs_bind_ok.mp run
  exact ⟨mid, _, left, right⟩

/-- The fields before `connect` has stored any. -/
def blank : Client := ⟨0, ⟨0, ⟨0, 0⟩⟩, none, [], 0, false⟩

/-- A client that connects and disconnects gives its queue back. -/
theorem lifecycle_prompted : ∃ (connected world : World) (block : Allocation),
    connected.client.inputQueue.Within block ∧
      Lifecycle connected.client.inputQueue block [(.disconnect, .ok ())] world := by
  have returned : (((connect 2 "cli" "/dev/shm/api" 16 false).bind fun _ => disconnect 2).exec
      prompted ⟨blank, []⟩).1 = .ok () := by decide +kernel
  obtain ⟨connected, world, first, second⟩ := runs_prompted returned
  have course : Course [(.disconnect, .ok ())] connected world := ⟨2, world, second, rfl⟩
  obtain ⟨block, within, life⟩ := lifecycle first course
  exact ⟨connected, world, block, within, life⟩

end Netsystem.Connection
