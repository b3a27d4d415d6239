import Netsystem.Api.Measure
import Netsystem.Connection.Client
import Netsystem.Shmem.Commit

/-!
# Who has a message that is sent

`send_message` allocates a buffer, encodes the message into it and adds its address to the
server's queue. The additions are runs of `SvmQueue::add` on a queue that the server and other
clients use at the same time; the heap answers as it likes. `sent_or_returned` says that in the
end the buffer is either with the server, complete and enqueued once, or back in the heap.
-/

namespace Netsystem.Connection

open Netsystem.Api Netsystem.Shmem Netsystem.Prog

/-! ## The world of one call -/

/-- A message buffer as the heap knows it: the address of its payload and the payload's length. -/
structure Extent : Type where
  address : Nat
  length : Nat
  deriving DecidableEq

def MsgBuf.extent (message : MsgBuf) : Extent := ⟨message.payload, message.payloadLen⟩

/-- The client, the queues behind API headers as its thread sees them, the buffers that it took
from the heap and gave back to it, and what is in them. -/
structure Exchange : Type where
  client : Client
  queues : Nat → Station
  allocated : List Extent
  freed : List Extent
  contents : Nat → Bytes

/-- A result as the end of a run. -/
def ended {ε α : Type} : Except ε α → Outcome ε α
  | .ok value => .ok value
  | .error reason => .error reason

/-- A heap that refuses or hands out a buffer of the length it was asked for, and a queue that
other parties use. -/
def sending (queue : SvmQueue) : Handler Op Op.Ret Exchange
  | .load, exchange, client, exchange' => client = exchange.client ∧ exchange' = exchange
  | .allocate payloadLen, exchange, answer, exchange' =>
      (∃ reason, answer = .error reason ∧ exchange' = exchange) ∨
        ∃ payload, answer = .ok ⟨payload, payloadLen, 0⟩ ∧
          exchange' = { exchange with allocated := exchange.allocated ++ [⟨payload, payloadLen⟩] }
  | .output message, exchange, answer, exchange' =>
      answer.length = message.payloadLen ∧ exchange' = exchange
  | .fill message output, exchange, _, exchange' =>
      exchange' = { exchange with
        contents := Function.update exchange.contents message.payload output }
  | .add header element, exchange, answer, exchange' =>
      ∃ fuel station, (queue.add fuel element .nowait).Runs (contended queue)
          (exchange.queues header) (ended answer) station ∧
        exchange' = { exchange with queues := Function.update exchange.queues header station }
  | .free message, exchange, _, exchange' =>
      exchange' = { exchange with freed := exchange.freed ++ [message.extent] }
  | _, exchange, _, exchange' => exchange' = exchange

/-! ## Sent or returned -/

section Sending

variable {queue : SvmQueue} {Message : Type} [Api Message]

/-- The bytes of a message. -/
def encoding (message : Message) : Bytes :=
  (Api.shape Message).encode false (Api.toVal message)

/-- The server has the whole message: its buffer was enqueued once and not freed. -/
structure Sent (queue : SvmQueue) (message : Message) (exchange exchange' : Exchange)
    (buffer : Extent) : Prop where
  measured : serializedLen (Api.shape Message) (Api.toVal message) = .ok buffer.length
  allocated : exchange'.allocated = exchange.allocated ++ [buffer]
  freed : exchange'.freed = exchange.freed
  contents : exchange'.contents =
    Function.update exchange.contents buffer.address (encoding message)
  complete : (encoding message).length = buffer.length
  enqueued : Applied queue (.add (leBytes 8 buffer.address)) (fun _ => True)
    (exchange.queues exchange.client.header) (exchange'.queues exchange.client.header)

/-- Nothing was enqueued, and what was taken from the heap went back to it, once each. -/
structure Returned (queue : SvmQueue) (exchange exchange' : Exchange) (taken : List Extent) :
    Prop where
  allocated : exchange'.allocated = exchange.allocated ++ taken
  freed : exchange'.freed = exchange.freed ++ taken
  quiet : Quiet queue (exchange.queues exchange.client.header)
    (exchange'.queues exchange.client.header)

/-- A buffer was taken from the heap and filled. -/
def Exchange.drafted (exchange : Exchange) (buffer : Extent) (content : Bytes) : Exchange :=
  { exchange with
    allocated := exchange.allocated ++ [buffer]
    contents := Function.update exchange.contents buffer.address content }

/-- Only the one queue changes. -/
def Elsewhere (exchange exchange' : Exchange) : Prop :=
  ∀ header, header ≠ exchange.client.header → exchange'.queues header = exchange.queues header

variable {exchange : Exchange} {message : Message} {payloadLen payload : Nat}

/-- The classification of the client is that of the queue. -/
theorem committed_iff {source : SvmQueueError} {operation : SvmQueueOperation} :
    committed source operation = true ↔ source.committed = some operation := by
  cases source <;> simp [committed, SvmQueueError.committed]

/-- An addition that ends does what its answer says, in the client's words. -/
theorem add_cases {exchange' : Exchange} {header : Nat} {element : Bytes}
    {answer : Except SvmQueueError Unit} (bounded : Bounded queue (exchange.queues header).memory)
    (answered : sending queue (.add header element) exchange answer exchange') :
    ∃ station, exchange' = { exchange with
        queues := Function.update exchange.queues header station } ∧
      ((answer = .ok () ∨ ∃ source, answer = .error source ∧ committed source .add = true) ∧
          Applied queue (.add element) (fun _ => True) (exchange.queues header) station ∨
        ∃ source, answer = .error source ∧ committed source .add = false ∧
          Quiet queue (exchange.queues header) station) := by
  obtain ⟨fuel, station, run, rfl⟩ := answered
  refine ⟨station, rfl, ?_⟩
  have called := (add_calls fuel element .nowait bounded).of_runs run
  cases answer with
  | ok done => exact .inl ⟨.inl rfl, called⟩
  | error source =>
      obtain ⟨refused, quiet⟩ | ⟨reported, applied⟩ := called
      · refine .inr ⟨source, rfl, ?_, quiet⟩
        rw [Bool.eq_false_iff, ne_eq, committed_iff]
        intro same
        cases (show source.committed = none from refused).symm.trans same
      · obtain ⟨memory, inside, fits, -, more⟩ := applied
        exact .inl ⟨.inr ⟨source, rfl, committed_iff.mpr reported⟩,
          memory, inside, fits, trivial, more⟩

/-- A measured message fills a buffer of its length. -/
theorem serialize_full
    (measured : serializedLen (Api.shape Message) (Api.toVal message) = .ok payloadLen)
    {output : Bytes} (sized : output.length = payloadLen) :
    serialize (Api.shape Message) (Api.toVal message) output =
      (.ok payloadLen, some (encoding message)) := by
  obtain ⟨short, counted, usize⟩ := (serializedLen_eq_ok_iff _ _ _).mp measured
  have written := serialize_eq short (Nat.le_of_eq (counted.trans sized.symm)) (sized ▸ usize)
  have whole : splice output 0 (encoding message) = encoding message := by
    rw [splice, List.take_zero, List.nil_append, Nat.zero_add, List.drop_of_length_le,
      List.append_nil]
    exact Nat.le_of_eq (sized.trans counted.symm)
  rw [written, counted]
  exact Prod.ext rfl (congrArg some whole)

/-- A measured message is encoded into the whole of a buffer of its length, whoever answers. -/
theorem encode_whole {σ : Type} {handler : Handler Op Op.Ret σ} {s : σ}
    {stop : Stop Error → σ → Prop}
    (measured : serializedLen (Api.shape Message) (Api.toVal message) = .ok payloadLen)
    (sized : ∀ output s', handler (.output ⟨payload, payloadLen, 0⟩) s output s' →
      output.length = payloadLen ∧ s' = s) :
    (encode ⟨payload, payloadLen, 0⟩ message).Ensures handler
      (fun encoded s' => encoded = .ok ⟨payload, payloadLen, payloadLen⟩ ∧
        handler (.fill ⟨payload, payloadLen, 0⟩ (encoding message)) s () s') stop s := by
  refine ensures_perform.mpr fun output mid answered => ?_
  obtain ⟨length, rfl⟩ := sized output mid answered
  refine ensures_perform.mpr fun done last filled => ?_
  rw [serialize_full measured length] at filled ⊢
  refine ⟨?_, filled⟩
  rw [Except.map, Nat.zero_max]

theorem ensures_sendMessage (message : Message)
    (bounded : Bounded queue (exchange.queues exchange.client.header).memory) :
    (sendMessage message).Ensures (sending queue)
      (fun _ exchange' => Elsewhere exchange exchange' ∧
        ∃ buffer, Sent queue message exchange exchange' buffer)
      (fun stop exchange' => Elsewhere exchange exchange' ∧
        (∃ reason, stop = .error reason) ∧ ∃ taken, Returned queue exchange exchange' taken)
      exchange := by
  have untouched : Elsewhere exchange exchange := fun _ _ => rfl
  have nothing : Returned queue exchange exchange [] :=
    ⟨(List.append_nil _).symm, (List.append_nil _).symm, .refl queue _⟩
  refine ensures_bind.mpr (ensures_mapErr (fun payloadLen measured => ?_)
    fun reason _ => ⟨untouched, ⟨_, rfl⟩, [], nothing⟩)
  refine ensures_perform.mpr fun allocated mid answered => ?_
  obtain ⟨reason, rfl, rfl⟩ | ⟨payload, rfl, rfl⟩ := answered
  · exact ⟨untouched, ⟨_, rfl⟩, [], nothing⟩
  refine (encode_whole measured fun _ _ => id).bind fun encoded mid answered => ?_
  obtain ⟨rfl, rfl⟩ := answered
  let drafted := exchange.drafted ⟨payload, payloadLen⟩ (encoding message)
  refine ensures_perform.mpr fun self mid answered => ?_
  obtain ⟨rfl, rfl⟩ : self = drafted.client ∧ mid = drafted := answered
  refine ensures_perform.mpr fun added last answered => ?_
  have inside : Bounded queue (drafted.queues drafted.client.header).memory := bounded
  obtain ⟨station, rfl, ended⟩ := add_cases inside answered
  have elsewhere : ∀ header, header ≠ exchange.client.header →
      Function.update exchange.queues exchange.client.header station header =
        exchange.queues header := fun header other => Function.update_of_ne other _ _
  have there : Function.update exchange.queues exchange.client.header station
      exchange.client.header = station := Function.update_self _ _ _
  obtain ⟨kept, applied⟩ | ⟨source, rfl, refused, quiet⟩ := ended
  · have sent : Sent queue message exchange { drafted with
        queues := Function.update drafted.queues drafted.client.header station }
        ⟨payload, payloadLen⟩ := by
      have complete := ((serializedLen_eq_ok_iff _ _ _).mp measured).2.1
      have enqueued : Applied queue (.add (leBytes 8 payload)) (fun _ => True)
          (exchange.queues exchange.client.header)
          (Function.update exchange.queues exchange.client.header station
            exchange.client.header) := by
        rw [there]
        exact applied
      exact ⟨measured, rfl, rfl, rfl, complete, enqueued⟩
    obtain rfl | ⟨source, rfl, kept⟩ := kept
    · exact ⟨elsewhere, _, sent⟩
    · simp only [kept, if_true]
      exact ⟨elsewhere, _, sent⟩
  · simp only [refused, Bool.false_eq_true, if_false]
    refine ensures_perform.mpr fun done mid freed => ?_
    obtain rfl := freed
    have still : Quiet queue (exchange.queues exchange.client.header)
        (Function.update exchange.queues exchange.client.header station
          exchange.client.header) := by
      rw [there]
      exact quiet
    exact ⟨elsewhere, ⟨_, rfl⟩, [⟨payload, payloadLen⟩], rfl, rfl, still⟩

/-- **Sent or returned.** Whatever the heap and the queue answer, a message that was sent is
complete and enqueued once and its buffer is not freed; and a call that fails has enqueued nothing
and freed what it allocated. -/
theorem sent_or_returned {exchange exchange' : Exchange} {message : Message}
    {out : Outcome Error Unit}
    (bounded : Bounded queue (exchange.queues exchange.client.header).memory)
    (run : (sendMessage message).Runs (sending queue) exchange out exchange') :
    (out = .ok () ∧ (∃ buffer, Sent queue message exchange exchange' buffer) ∨
      (∃ reason, out = .error reason) ∧ ∃ taken, Returned queue exchange exchange' taken) ∧
      Elsewhere exchange exchange' := by
  have ended := (ensures_sendMessage message bounded).of_runs run
  cases out with
  | ok done => exact ⟨.inl ⟨rfl, ended.2⟩, ended.1⟩
  | error reason => exact ⟨.inr ⟨⟨reason, rfl⟩, ended.2.2⟩, ended.1⟩
  | panic =>
      obtain ⟨-, ⟨reason, same⟩, -⟩ := ended
      cases same
  | pending =>
      obtain ⟨-, ⟨reason, same⟩, -⟩ := ended
      cases same

end Sending

/-! ## A message whose signal fails -/

/-- A queue of one address that nobody else uses, where every broadcast fails. -/
def unsignalled : Environment :=
  ⟨-1, .standard, .ok (), .ok (), .ok .notified, .error 22, 8, 0, 0⟩

/-- A heap with one place, in front of that queue. -/
def delivery : Device Op Op.Ret Exchange := fun op exchange =>
  match op with
  | .load => some (exchange.client, exchange)
  | .allocate payloadLen => some (.ok ⟨4096, payloadLen, 0⟩,
      { exchange with allocated := exchange.allocated ++ [⟨4096, payloadLen⟩] })
  | .output message => some (List.replicate message.payloadLen 0, exchange)
  | .fill message output => some ((), { exchange with
      contents := Function.update exchange.contents message.payload output })
  | .add header element =>
      match (SvmQueue.add ⟨1, 8⟩ 1 element .nowait).exec (idle unsignalled)
          (exchange.queues header) with
      | (.ok (), station) => some (.ok (),
          { exchange with queues := Function.update exchange.queues header station })
      | (.error source, station) => some (.error source,
          { exchange with queues := Function.update exchange.queues header station })
      | _ => none
  | _ => none

theorem delivery_sound (op : Op) (exchange : Exchange) (answer : op.Ret) (exchange' : Exchange)
    (answered : delivery op exchange = some (answer, exchange')) :
    sending ⟨1, 8⟩ op exchange answer exchange' := by
  cases op with
  | load =>
      cases answered
      exact ⟨rfl, rfl⟩
  | allocate payloadLen =>
      cases answered
      exact .inr ⟨4096, rfl, rfl⟩
  | output message =>
      cases answered
      exact ⟨List.length_replicate .., rfl⟩
  | fill message output =>
      cases answered
      exact rfl
  | add header element =>
      simp only [delivery] at answered
      split at answered
      · next station run =>
          cases answered
          exact ⟨1, station, runs_of_idle run (fun fault => (by cases fault)), rfl⟩
      · next source station run =>
          cases answered
          exact ⟨1, station, runs_of_idle run (fun fault => (by cases fault)), rfl⟩
      · cases answered
  | _ => cases answered

theorem runs_of_delivery {call : Call Unit} {exchange : Exchange}
    (returned : (call.exec delivery exchange).1 = .ok ()) :
    call.Runs (sending ⟨1, 8⟩) exchange (.ok ()) (call.exec delivery exchange).2 :=
  runs_of_exec delivery_sound (Prod.ext returned rfl) fun same => (by cases same)

/-- A client without any buffer, and empty queues of one address. -/
def unsent : Exchange :=
  { client := ⟨0, ⟨0, ⟨0, 0⟩⟩, none, [], 0, false⟩
    queues := fun _ => ⟨⟨0, 0, 0, -1, -1, List.replicate 8 0⟩, false, false, [], []⟩
    allocated := []
    freed := []
    contents := fun _ => [] }

/-- The answer to a keepalive is with the server although the server was not woken. -/
theorem sent_or_returned_unsignalled : ∃ exchange', ∃ buffer,
    Sent ⟨1, 8⟩ ({ id := 7, context := 1, retval := 0 } : MemclntKeepaliveReply) unsent exchange'
      buffer := by
  have bounded : Bounded ⟨1, 8⟩ (unsent.queues unsent.client.header).memory :=
    ⟨⟨by decide, by decide, by decide, by decide⟩, by decide⟩
  have returned : ((sendMessage ({ id := 7, context := 1, retval := 0 } :
      MemclntKeepaliveReply)).exec delivery unsent).1 = .ok () := by decide +kernel
  have run := runs_of_delivery returned
  obtain ⟨⟨-, sent⟩ | ⟨⟨_, same⟩, _⟩, -⟩ := sent_or_returned bounded run
  · exact ⟨_, sent⟩
  · cases same

end Netsystem.Connection
