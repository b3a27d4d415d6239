import Netsystem.Api.Canonical
import Netsystem.Connection.Send
import Mathlib.Tactic.Ring

/-!
# Whose reply an `invoke` returns

One client, and a server that answers what it likes, when it likes and as often as it likes, as
long as every reply carries the context of a request that it received (`Letter.Honest`). Every
request is numbered by the context drawn for it, and every reply remembers the number of the
request that it was made for. `correlated` is about every sequence of calls of `invoke`: what one
of them returns was made for its own request, unless the counter has come round since.
-/

namespace Netsystem.Connection

open Netsystem.Api Netsystem.Shmem Netsystem.Prog

/-! ## Contexts -/

theorem advance_toNat (counter : UInt32) :
    (advance counter).toNat = (counter.toNat + 1) % 2 ^ 31 := by
  have mask : (0x7fffffff : UInt32).toNat = 2 ^ 31 - 1 := rfl
  have wraps : 2 ^ 31 ∣ 2 ^ 32 := ⟨2, rfl⟩
  rw [advance, UInt32.toNat_and, mask, Nat.and_two_pow_sub_one_eq_mod, UInt32.toNat_add]
  exact Nat.mod_mod_of_dvd _ wraps

/-- The counter runs through the `2 ^ 31 - 1` values from one on and starts again. -/
theorem nextCounter_toNat (counter : UInt32) :
    (nextCounter counter).toNat = counter.toNat % 2 ^ 31 % (2 ^ 31 - 1) + 1 := by
  have advanced := advance_toNat counter
  rw [nextCounter]
  split_ifs with zero
  · have last : (counter.toNat + 1) % 2 ^ 31 ≠ 0 := by
      rw [← advanced]
      exact fun same => zero (UInt32.toNat_inj.mp same)
    omega
  · have last : (counter.toNat + 1) % 2 ^ 31 = 0 := by
      rw [← advanced, not_not.mp zero]
      rfl
    have first : nextCounter 0 = 1 := by
      rw [nextCounter]
      rfl
    rw [not_not.mp zero, first]
    have one : (1 : UInt32).toNat = 1 := rfl
    omega

theorem iterate_nextCounter_toNat (counter : UInt32) (draws : Nat) :
    (nextCounter^[draws + 1] counter).toNat =
      (counter.toNat % 2 ^ 31 + draws) % (2 ^ 31 - 1) + 1 := by
  induction draws with
  | zero => exact nextCounter_toNat counter
  | succ draws ih =>
      rw [Function.iterate_succ_apply', nextCounter_toNat, ih]
      omega

theorem contextOf_toNat {counter : UInt32} (small : counter.toNat < 2 ^ 31) :
    (contextOf counter).toNat = counter.toNat + 2 ^ 31 := by
  have high : (0x80000000 : UInt32).toNat = 2 ^ 31 * 1 := rfl
  rw [contextOf, UInt32.toNat_or, high, Nat.or_comm, ← Nat.two_pow_add_eq_or_of_lt small]
  omega

/-- The context drawn after a number of others. -/
def drawn (counter : UInt32) (before : Nat) : UInt32 :=
  contextOf (nextCounter^[before + 1] counter)

theorem drawn_toNat (counter : UInt32) (before : Nat) :
    (drawn counter before).toNat =
      (counter.toNat % 2 ^ 31 + before) % (2 ^ 31 - 1) + 1 + 2 ^ 31 := by
  have same := iterate_nextCounter_toNat counter before
  rw [drawn, contextOf_toNat (by omega), same]

/-- Two draws give one context only a whole turn of the counter apart. -/
theorem drawn_inj {counter : UInt32} {before before' : Nat} (order : before ≤ before')
    (near : before' < before + (2 ^ 31 - 1))
    (same : drawn counter before = drawn counter before') : before = before' := by
  have equal := congrArg UInt32.toNat same
  rw [drawn_toNat, drawn_toNat] at equal
  omega

theorem drawn_and_high (counter : UInt32) (before : Nat) :
    drawn counter before &&& 0x80000000 = 0x80000000 := by
  have absorbs : ∀ bits high : BitVec 32, (bits ||| high) &&& high = high := by
    intro bits high
    ext index
    rw [BitVec.getElem_and, BitVec.getElem_or]
    cases bits[index] <;> cases high[index] <;> rfl
  exact UInt32.toBitVec_inj.mp (absorbs _ _)

theorem drawn_high (counter : UInt32) (before : Nat) :
    2 ^ 31 < (drawn counter before).toNat := by
  rw [drawn_toNat]
  omega

/-- The context of a request by its number; that of `connect` has the number zero. -/
def contextAt : Nat → UInt32
  | 0 => 0
  | before + 1 => drawn 0 before

theorem contextAt_inj {number current : Nat} (order : number ≤ current)
    (near : current < number + (2 ^ 31 - 1)) (some_ : 0 < current)
    (same : contextAt number = contextAt current) : number = current := by
  obtain ⟨current, rfl⟩ : ∃ before, current = before + 1 := ⟨current - 1, by omega⟩
  cases number with
  | zero =>
      have high := drawn_high 0 current
      have zero : (0 : UInt32).toNat = 0 := rfl
      rw [show drawn 0 current = 0 from same.symm, zero] at high
      omega
  | succ number => rw [drawn_inj (by omega) (by omega) same]

/-! ## The server -/

/-- The payload is the message under the id that the client knows for its type. -/
def Client.Reads (client : Client) (payload : Bytes) (type : MessageType)
    (message : type.Message) : Prop :=
  (∃ id, Api.messageId payload = .ok id ∧ client.messageId (Api.nameCrc type.Message) = some id) ∧
    Api.decode type.Message payload = .ok message

/-- The payload is a request with the context. -/
def Client.Asks (client : Client) (payload : Bytes) (context : UInt32) : Prop :=
  ∃ (type : MessageType) (message : type.Message), client.Reads payload type message ∧
    (Api.service type.Message).isSome ∧ Api.context message = some context

/-- Every type has an id of its own. -/
def Client.Distinct (client : Client) : Prop :=
  ∀ (type type' : MessageType) (id : UInt16),
    client.messageId (Api.nameCrc type.Message) = some id →
      client.messageId (Api.nameCrc type'.Message) = some id → type = type'

/-- The declared reply of a request. -/
def Answers (request reply : MessageType) : Prop :=
  ∃ service, Api.service request.Message = some service ∧
    service.reply = some (Api.name reply.Message)

/-- A message from the server, and the number of the request it was made for. -/
structure Letter : Type where
  origin : Option Nat
  payload : Bytes

/-- A reply with a context was made for a request that the server received, and carries its
context. -/
def Letter.Honest (client : Client) (received : List (Nat × Bytes)) (letter : Letter) : Prop :=
  ∀ (request reply : MessageType) (message : reply.Message) (context : UInt32),
    Answers request reply → client.Reads letter.payload reply message →
      Api.context message = some context →
        ∃ number asked, letter.origin = some number ∧ (number, asked) ∈ received ∧
          client.Asks asked context

/-- The client and the number of contexts that it has drawn, the buffers that it has filled, what
the server received with the number of each request, and the messages in the client's hands. -/
structure Traffic : Type where
  client : Client
  draws : Nat
  drafts : Nat → Bytes
  received : List (Nat × Bytes)
  mail : Nat → Option Letter

/-- A connected client stores its fields when it draws a context. A message that is added may be
lost, and any letter may come at any time and again. -/
def corresponding : Handler Op Op.Ret Traffic
  | .load, traffic, client, traffic' => client = traffic.client ∧ traffic' = traffic
  | .store client, traffic, _, traffic' =>
      traffic' = { traffic with client := client, draws := traffic.draws + 1 }
  | .allocate payloadLen, traffic, answer, traffic' =>
      traffic' = traffic ∧ ((∃ reason, answer = .error reason) ∨
        ∃ payload, payload < 2 ^ 64 ∧ answer = .ok ⟨payload, payloadLen, 0⟩)
  | .output message, traffic, output, traffic' =>
      output.length = message.payloadLen ∧ traffic' = traffic
  | .fill message output, traffic, _, traffic' =>
      traffic' = { traffic with drafts := Function.update traffic.drafts message.payload output }
  | .add _ element, traffic, _, traffic' =>
      traffic' = traffic ∨ traffic' = { traffic with
        received := (traffic.draws, traffic.drafts (leNat element)) :: traffic.received }
  | .sub _, traffic, answer, traffic' =>
      (∃ reason, answer = .error reason ∧ traffic' = traffic) ∨
        ∃ element letter, answer = .ok element ∧ letter.Honest traffic.client traffic.received ∧
          traffic' = { traffic with
            mail := Function.update traffic.mail (leNat element) (some letter) }
  | .fromAddress address, traffic, answer, traffic' =>
      traffic' = traffic ∧ ((∃ reason, answer = .error reason) ∨
        ∃ letter, traffic.mail address = some letter ∧
          answer = .ok ⟨address, letter.payload.length, letter.payload.length⟩)
  | .bytes message, traffic, bytes, traffic' =>
      traffic' = traffic ∧ ∀ letter, traffic.mail message.payload = some letter →
        bytes = letter.payload
  | _, traffic, _, traffic' => traffic' = traffic

/-! ## What the server can answer -/

namespace Traffic

/-- The counter has been advanced once for every draw, and a request that the server received has
the context of its number. -/
structure Orderly (traffic : Traffic) : Prop where
  distinct : traffic.client.Distinct
  counter : traffic.client.contextCounter = nextCounter^[traffic.draws] 0
  received : ∀ number asked context, (number, asked) ∈ traffic.received →
    traffic.client.Asks asked context → number ≤ traffic.draws ∧ context = contextAt number

/-- Nothing but the request was sent since the last draw. -/
structure Current (client : Client) (draws : Nat) (request : Bytes) (traffic : Traffic) :
    Prop where
  fields : traffic.client = client
  count : traffic.draws = draws
  orderly : traffic.Orderly
  sent : ∀ asked context, (draws, asked) ∈ traffic.received → client.Asks asked context →
    asked = request

/-- The message is a letter in the client's hands. -/
structure Has (traffic : Traffic) (message : MsgBuf) (letter : Letter) : Prop where
  found : traffic.mail message.payload = some letter
  honest : letter.Honest traffic.client traffic.received
  initialized : message.payloadLen ≤ message.initializedLen

/-- The message may have reached the server. -/
structure Sends {Message : Type} [Api Message] (message : Message) (traffic mid : Traffic) :
    Prop where
  client : mid.client = traffic.client
  draws : mid.draws = traffic.draws
  mail : mid.mail = traffic.mail
  received : mid.received = traffic.received ∨ Serializes message (encoding message) ∧
    mid.received = (traffic.draws, encoding message) :: traffic.received

end Traffic

section Requests

variable {client : Client} {type : MessageType} {message : type.Message} {payload : Bytes}
  {context : UInt32}

/-- `set_request_header` of a request sets the id, and the context where there is one. -/
theorem id_setRequestHeader (requests : (Api.service type.Message).isSome)
    (id : UInt16) (clientIndex context : UInt32) :
    type.id (Api.setRequestHeader message id clientIndex context) = id := by
  cases type <;> first | rfl | cases requests

theorem context_setRequestHeader (requests : (Api.service type.Message).isSome) {id : UInt16}
    {clientIndex given : UInt32}
    (carries : Api.context (Api.setRequestHeader message id clientIndex given) = some context) :
    context = given := by
  cases type <;> first
    | exact (Option.some.inj carries).symm
    | (cases carries; done)
    | cases requests

theorem serializes_encoding (short : type.Short message) :
    Serializes message (encoding message) := by
  obtain ⟨bytes, serializes, -⟩ := MessageType.serializes_of_short short
  obtain ⟨-, same, -⟩ := (serializes_iff message bytes).mp serializes
  rwa [encoding, ← same]

theorem Client.reads_encoding
    (listed : client.messageId (Api.nameCrc type.Message) = some (type.id message))
    (serializes : Serializes message (encoding message)) :
    client.Reads (encoding message) type message :=
  ⟨⟨_, type.messageId_encode message, listed⟩, MessageType.decode_of_serializes serializes⟩

/-- What was encoded under the id of its type is read as what it is. -/
theorem Client.Distinct.reads (distinct : client.Distinct)
    (listed : client.messageId (Api.nameCrc type.Message) = some (type.id message))
    (serializes : Serializes message (encoding message)) {type' : MessageType}
    {message' : type'.Message} (reads : client.Reads (encoding message) type' message') :
    (⟨type', message'⟩ : Sigma MessageType.Message) = ⟨type, message⟩ := by
  obtain ⟨⟨id, named, listed'⟩, decoded⟩ := reads
  have own : Api.messageId (encoding message) = .ok (type.id message) :=
    type.messageId_encode message
  obtain rfl : type.id message = id := Except.ok.inj (own.symm.trans named)
  obtain rfl := distinct type type' _ listed listed'
  have back := MessageType.decode_of_serializes serializes
  rw [back] at decoded
  rw [Except.ok.inj decoded]

theorem Client.Distinct.asks (distinct : client.Distinct)
    (listed : client.messageId (Api.nameCrc type.Message) = some (type.id message))
    (serializes : Serializes message (encoding message))
    (asks : client.Asks (encoding message) context) :
    (Api.service type.Message).isSome ∧ Api.context message = some context := by
  obtain ⟨type', message', reads, requests, carries⟩ := asks
  cases distinct.reads listed serializes reads
  exact ⟨requests, carries⟩

/-- A reply that carries the context of a request that was received is honest. -/
theorem Client.Distinct.honest (distinct : client.Distinct)
    (listed : client.messageId (Api.nameCrc type.Message) = some (type.id message))
    (serializes : Serializes message (encoding message))
    (carries : Api.context message = some context) {received : List (Nat × Bytes)} {number : Nat}
    (member : (number, payload) ∈ received) (asks : client.Asks payload context) :
    Letter.Honest client received ⟨some number, encoding message⟩ := by
  intro request reply read carried answers reads carries'
  cases distinct.reads listed serializes reads
  obtain rfl : context = carried := Option.some.inj (carries.symm.trans carries')
  exact ⟨number, payload, rfl, member, asks⟩

/-- The table lists a request as 1, its reply as 2, and nothing else. -/
def Client.Pairs (client : Client) (request reply : MessageType) : Prop :=
  ∀ type : MessageType, client.messageId (Api.nameCrc type.Message) =
    if type = request then some 1 else if type = reply then some 2 else none

theorem Client.Pairs.distinct {request reply : MessageType} (pairs : client.Pairs request reply) :
    client.Distinct := by
  intro type type' id listed listed'
  rw [pairs] at listed listed'
  split_ifs at listed with first second
  · obtain rfl := Option.some.inj listed
    split_ifs at listed' with first' second'
    · rw [first, first']
    · cases listed'
  · obtain rfl := Option.some.inj listed
    split_ifs at listed' with first' second'
    · cases listed'
    · rw [second, second']

end Requests

section Sending

variable {traffic mid : Traffic} {client : Client} {draws : Nat} {request : Bytes}
  {stop : Stop Error → Traffic → Prop}

theorem ensures_sends {Message : Type} [Api Message] (message : Message) (traffic : Traffic) :
    (sendMessage message).Ensures corresponding (fun _ => traffic.Sends message)
      (fun _ => traffic.Sends message) traffic := by
  have nothing : traffic.Sends message traffic := ⟨rfl, rfl, rfl, .inl rfl⟩
  refine ensures_bind.mpr (ensures_mapErr (fun payloadLen measured => ?_) fun _ _ => nothing)
  refine ensures_perform.mpr fun allocated still answered => ?_
  obtain ⟨rfl, ⟨reason, rfl⟩ | ⟨payload, small, rfl⟩⟩ := answered
  · exact nothing
  refine (encode_whole measured fun _ _ => id).bind fun encoded mid answered => ?_
  obtain ⟨rfl, rfl⟩ := answered
  refine ensures_perform.mpr fun self mid answered => ?_
  obtain ⟨-, rfl⟩ := answered
  refine ensures_perform.mpr fun added last answered => ?_
  have word : leNat (leBytes 8 payload) = payload := leNat_leBytes (by omega)
  have after : still.Sends message last := by
    obtain rfl | rfl := answered
    · exact ⟨rfl, rfl, rfl, .inl rfl⟩
    · obtain ⟨short, counted, usize⟩ := (serializedLen_eq_ok_iff _ _ _).mp measured
      refine ⟨rfl, rfl, rfl, .inr ⟨(serializes_iff _ _).mpr ⟨short, rfl, ?_⟩, ?_⟩⟩
      · rwa [encoding, counted]
      · simp only [word, Function.update_self]
  cases added with
  | ok done => exact after
  | error source =>
      dsimp only
      split
      · exact after
      · refine ensures_perform.mpr fun done mid freed => ?_
        obtain rfl := freed
        exact after

/-- What the server may have received of the client is the request, or no request at all. -/
theorem Traffic.Current.sends {Message : Type} [Api Message] {message : Message}
    (current : traffic.Current client draws request) (sends : traffic.Sends message mid)
    (own : ∀ context, Serializes message (encoding message) →
      client.Asks (encoding message) context →
        context = contextAt draws ∧ encoding message = request) :
    mid.Current client draws request := by
  obtain ⟨rfl, rfl, orderly, sent⟩ := current
  refine ⟨sends.client, sends.draws, ⟨?_, ?_, ?_⟩, ?_⟩
  · rw [sends.client]
    exact orderly.distinct
  · rw [sends.client, sends.draws]
    exact orderly.counter
  · intro number asked context member asks
    rw [sends.client] at asks
    rw [sends.draws]
    rcases sends.received with same | ⟨serializes, more⟩
    · exact orderly.received number asked context (same ▸ member) asks
    · rw [more] at member
      rcases List.mem_cons.mp member with new | old
      · obtain ⟨rfl, rfl⟩ := Prod.mk.inj new
        exact ⟨le_refl _, (own context serializes asks).1⟩
      · exact orderly.received number asked context old asks
  · intro asked context member asks
    rcases sends.received with same | ⟨serializes, more⟩
    · exact sent asked context (same ▸ member) asks
    · rw [more] at member
      rcases List.mem_cons.mp member with new | old
      · obtain ⟨-, rfl⟩ := Prod.mk.inj new
        exact (own context serializes asks).2
      · exact sent asked context old asks

/-- A keepalive is answered by a message that is no request. -/
theorem Traffic.Current.keepalive {reply : MemclntKeepaliveReply}
    (current : traffic.Current client draws request)
    (listed : client.messageId (Api.nameCrc MemclntKeepaliveReply) = some reply.id)
    (sends : traffic.Sends reply mid) : mid.Current client draws request := by
  have distinct : client.Distinct := current.fields ▸ current.orderly.distinct
  refine current.sends sends fun context serializes asks => ?_
  obtain ⟨none_, -⟩ := @Client.Distinct.asks client .memclntKeepaliveReply reply context distinct
    listed serializes asks
  cases none_

end Sending

/-! ## Receiving -/

section Receiving

variable {traffic mid : Traffic} {client : Client} {draws : Nat} {request : Bytes}
  {message : MsgBuf} {letter : Letter} {stop : Stop Error → Traffic → Prop}

theorem Traffic.Has.readable (has : traffic.Has message letter) :
    Readable corresponding traffic message letter.payload :=
  ⟨has.initialized, fun _ _ answered => ⟨answered.2 letter has.found, answered.1⟩⟩

/-- Between two draws the client holds at most one letter, in a message for its caller. -/
theorem Traffic.Current.accept {element : Bytes} (current : traffic.Current client draws request)
    (found : traffic.mail (leNat element) = some letter)
    (honest : letter.Honest traffic.client traffic.received) :
    (accept client element).Ensures corresponding
      (fun received mid => mid.Current client draws request ∧
        ∀ message, received = some message → ∃ letter, mid.Has message letter)
      (fun _ mid => mid.Current client draws request) traffic := by
  refine ensures_perform.mpr fun named still answered => ?_
  obtain ⟨rfl, ⟨reason, rfl⟩ | ⟨letter', found', rfl⟩⟩ := answered
  · exact current
  obtain rfl := Option.some.inj (found.symm.trans found')
  have has : still.Has ⟨leNat element, letter.payload.length, letter.payload.length⟩ letter :=
    ⟨found, honest, Nat.le_refl _⟩
  refine (has.readable.messageId fun _ _ => current).bind fun id mid answered => ?_
  obtain ⟨-, rfl⟩ := answered
  split
  · refine ensures_bind.mpr
      ((has.readable.decode MemclntKeepalive).bind fun decoded mid answered => ?_)
    obtain ⟨-, rfl⟩ := answered
    refine ensures_perform.mpr fun done mid freed => ?_
    obtain rfl := freed
    refine ensures_bind.mpr (ensures_mapErr (fun keepalive _ => ?_) fun _ _ => current)
    refine ensures_bind.mpr (ensures_okOr (fun replyId listed => ?_) fun _ => current)
    refine (ensures_sends _ _).mono (fun _ mid sends => ?_) fun _ mid sends => ?_
    · exact ⟨current.keepalive listed sends, fun _ same => (by cases same)⟩
    · exact current.keepalive listed sends
  · refine ⟨current, fun message same => ?_⟩
    obtain rfl := Option.some.inj same
    exact ⟨letter, has⟩

theorem Traffic.Current.receive (current : traffic.Current client draws request)
    (deadline fuel : Nat) :
    (receive deadline fuel).Ensures corresponding
      (fun received mid => mid.Current client draws request ∧
        ∀ message, received = some message → ∃ letter, mid.Has message letter)
      (fun _ mid => mid.Current client draws request) traffic := by
  induction fuel generalizing traffic with
  | zero => exact current
  | succ fuel ih =>
      refine ensures_perform.mpr fun self still answered => ?_
      obtain ⟨rfl, rfl⟩ := answered
      refine ensures_perform.mpr fun taken mid answered => ?_
      obtain ⟨reason, rfl, rfl⟩ | ⟨element, letter, rfl, honest, rfl⟩ := answered
      · cases reason with
        | empty =>
            refine ensures_perform.mpr fun instant mid answered => ?_
            obtain rfl := answered
            split
            · exact ⟨current, fun _ same => (by cases same)⟩
            · refine ensures_perform.mpr fun awake mid answered => ?_
              obtain rfl := answered
              cases awake with
              | true => exact ih current
              | false => exact current
        | _ => exact current
      · obtain rfl := current.fields
        have delivered : Current still.client draws request { still with
            mail := Function.update still.mail (leNat element) (some letter) } :=
          ⟨rfl, current.count,
            ⟨current.orderly.distinct, current.orderly.counter, current.orderly.received⟩,
            current.sent⟩
        refine (delivered.accept (Function.update_self ..) honest).bind
          fun received last held => ?_
        cases received with
        | some message => exact held
        | none => exact ih held.1

end Receiving

/-! ## One call of `invoke` -/

section Invoke

variable {traffic : Traffic} {request reply : MessageType} {message : request.Message}
  {result : reply.Message} {letter : Letter} {context : UInt32}

/-- The request of `invoke` as the server receives it. -/
def asking (message : request.Message) (id : UInt16) (clientIndex context : UInt32) : Bytes :=
  encoding (Api.setRequestHeader message id clientIndex context)

/-- The result was read from a letter that answers the request, with the context of the last
draw. -/
structure Traffic.Answered (message : request.Message) (result : reply.Message)
    (traffic : Traffic) (letter : Letter) : Prop where
  answers : Answers request reply
  delivered : ∃ address, traffic.mail address = some letter
  honest : letter.Honest traffic.client traffic.received
  reads : traffic.client.Reads letter.payload reply result
  context : ∀ context, Api.context result = some context → context = contextAt traffic.draws
  sent : ∃ id clientIndex, ∀ asked context, (traffic.draws, asked) ∈ traffic.received →
    traffic.client.Asks asked context →
      asked = asking message id clientIndex (contextAt traffic.draws)

/-- A draw. -/
def Traffic.draw (traffic : Traffic) : Traffic :=
  { traffic with
    client := { traffic.client with contextCounter := nextCounter traffic.client.contextCounter }
    draws := traffic.draws + 1 }

/-- A new draw belongs to no request yet. -/
theorem Traffic.Orderly.draw (orderly : traffic.Orderly) (request : Bytes) :
    traffic.draw.Current traffic.draw.client (traffic.draws + 1) request := by
  refine ⟨rfl, rfl, ⟨orderly.distinct, ?_, ?_⟩, ?_⟩
  · show nextCounter traffic.client.contextCounter = nextCounter^[traffic.draws + 1] 0
    rw [orderly.counter, Function.iterate_succ_apply']
  · intro number asked context member asks
    obtain ⟨old, same⟩ := orderly.received number asked context member asks
    exact ⟨Nat.le_succ_of_le old, same⟩
  · intro asked context member asks
    have old := (orderly.received _ asked context member asks).1
    omega

theorem Traffic.Orderly.contextOf_draw (orderly : traffic.Orderly) :
    contextOf (nextCounter traffic.client.contextCounter) = contextAt (traffic.draws + 1) := by
  rw [contextAt, drawn, Function.iterate_succ_apply', orderly.counter]

/-- The letter that was received is returned only if it has the id of the reply and the
context. -/
theorem Traffic.Current.returning {client : Client} {draws : Nat} {replyId id : UInt16}
    {clientIndex : UInt32}
    (current : traffic.Current client draws (asking message id clientIndex (contextAt draws)))
    (answers : Answers request reply)
    (listed : client.messageId (Api.nameCrc reply.Message) = some replyId)
    {received : Option MsgBuf}
    (has : ∀ taken, received = some taken → ∃ letter, traffic.Has taken letter) :
    (returning reply.Message replyId (contextAt draws) received).Ensures corresponding
      (fun result mid => mid.Orderly ∧ mid.draws = draws ∧
        ∃ letter, mid.Answered message result letter)
      (fun _ mid => mid.Orderly ∧ mid.draws ≤ draws) traffic := by
  obtain ⟨rfl, rfl, orderly, sent⟩ := current
  have stopped : traffic.Orderly ∧ traffic.draws ≤ traffic.draws := ⟨orderly, le_refl _⟩
  cases received with
  | none => exact stopped
  | some taken =>
      obtain ⟨letter, has⟩ := has taken rfl
      refine (has.readable.messageId fun _ _ => stopped).bind fun named still answered => ?_
      obtain ⟨namedBy, rfl⟩ := answered
      split
      · refine ensures_perform.mpr fun done mid freed => ?_
        obtain rfl := freed
        exact stopped
      next same =>
      obtain rfl := not_not.mp same
      refine (has.readable.decode reply.Message).bind fun decoded still answered => ?_
      obtain ⟨rfl, rfl⟩ := answered
      refine ensures_perform.mpr fun done still freed => ?_
      obtain rfl := freed
      refine ensures_bind.mpr (ensures_mapErr (fun result decoded => ?_) fun _ _ => stopped)
      have answered : (∀ context, Api.context result = some context →
          context = contextAt still.draws) →
          still.Answered message result letter := fun context =>
        ⟨answers, ⟨_, has.found⟩, has.honest, ⟨⟨named, namedBy, listed⟩, decoded⟩, context,
          id, clientIndex, sent⟩
      split
      · next carried carries =>
        split
        · next same =>
          refine ⟨orderly, rfl, letter, answered fun context carries' => ?_⟩
          rw [← same]
          exact Option.some.inj (carries'.symm.trans carries)
        · exact stopped
      · next carries =>
        refine ⟨orderly, rfl, letter, answered fun context carries' => ?_⟩
        cases carries.symm.trans carries'

/-- However an `invoke` ends, what the server received keeps its contexts, and there is at most
one draw. -/
theorem Traffic.Orderly.invoke (orderly : traffic.Orderly) (reply : MessageType) (fuel : Nat)
    (message : request.Message) :
    (invoke reply.Message fuel message).Ensures corresponding
      (fun result mid => mid.Orderly ∧ mid.draws = traffic.draws + 1 ∧
        ∃ letter, mid.Answered message result letter)
      (fun _ mid => mid.Orderly ∧ mid.draws ≤ traffic.draws + 1) traffic := by
  refine ensures_invoke_of fun self still answered => ?_
  obtain ⟨rfl, rfl⟩ := answered
  refine ⟨fun _ => ⟨orderly, Nat.le_succ _⟩,
    fun clientIndex service requestId replyId ready => ?_⟩
  have answers : Answers request reply := ⟨service, ready.declared, ready.replied⟩
  have requests : (Api.service request.Message).isSome := by
    rw [ready.declared]
    rfl
  -- The draw.
  refine ensures_perform.mpr fun self still answered => ?_
  obtain ⟨rfl, rfl⟩ := answered
  refine ensures_perform.mpr fun stored mid answered => ?_
  obtain rfl : mid = still.draw := answered
  rw [orderly.contextOf_draw]
  have drawn := orderly.draw (asking message requestId clientIndex (contextAt (still.draws + 1)))
  -- The request.
  have sent : ∀ mid, still.draw.Sends
      (Api.setRequestHeader message requestId clientIndex (contextAt (still.draws + 1))) mid →
        mid.Current still.draw.client (still.draws + 1)
          (asking message requestId clientIndex (contextAt (still.draws + 1))) := by
    intro mid sends
    refine drawn.sends sends fun context serializes asks => ?_
    have listed : still.draw.client.messageId (Api.nameCrc request.Message) =
        some (request.id (Api.setRequestHeader message requestId clientIndex
          (contextAt (still.draws + 1)))) := by
      rw [id_setRequestHeader requests]
      exact ready.requestId
    obtain ⟨-, carries⟩ := drawn.orderly.distinct.asks listed serializes asks
    exact ⟨context_setRequestHeader requests carries, rfl⟩
  have stops : ∀ mid : Traffic, mid.Current still.draw.client (still.draws + 1)
      (asking message requestId clientIndex (contextAt (still.draws + 1))) →
        mid.Orderly ∧ mid.draws ≤ still.draws + 1 :=
    fun mid current => ⟨current.orderly, current.count.le⟩
  refine ensures_bind.mpr ((ensures_sends _ _).mono (fun _ mid sends => ?_)
    fun _ mid sends => stops mid (sent mid sends))
  refine ensures_perform.mpr fun instant last answered => ?_
  obtain rfl := answered
  refine (((sent _ sends).receive _ fuel).mono (fun _ _ => id) fun _ => stops).bind
    fun received last held => ?_
  exact held.1.returning answers ready.replyId held.2

end Invoke

/-! ## Every sequence of calls -/

/-- One call of `invoke`, however it ends. -/
def Issue (traffic traffic' : Traffic) : Prop :=
  ∃ (request reply : MessageType) (message : request.Message) (fuel : Nat)
    (out : Outcome Error reply.Message),
    (invoke reply.Message fuel message).Runs corresponding traffic out traffic'

/-- The client has just been connected: the server has had no request but that of `connect`. -/
structure Traffic.Fresh (traffic : Traffic) : Prop where
  distinct : traffic.client.Distinct
  counter : traffic.client.contextCounter = 0
  draws : traffic.draws = 0
  received : ∀ number asked context, (number, asked) ∈ traffic.received →
    traffic.client.Asks asked context → number = 0 ∧ context = 0

/-- A number of calls, one after another. -/
def Issues : (count : Nat) → Traffic → Traffic → Prop
  | 0, traffic, traffic' => traffic' = traffic
  | count + 1, traffic, traffic' => ∃ mid, Issues count traffic mid ∧ Issue mid traffic'

section Issues

variable {start earlier traffic traffic' : Traffic}

theorem Traffic.Fresh.orderly (fresh : traffic.Fresh) : traffic.Orderly := by
  refine ⟨fresh.distinct, by rw [fresh.counter, fresh.draws]; rfl, ?_⟩
  intro number asked context member asks
  obtain ⟨rfl, rfl⟩ := fresh.received number asked context member asks
  exact ⟨Nat.zero_le _, rfl⟩

theorem Traffic.Orderly.issue (orderly : traffic.Orderly) (issue : Issue traffic traffic') :
    traffic'.Orderly ∧ traffic'.draws ≤ traffic.draws + 1 := by
  obtain ⟨request, reply, message, fuel, out, run⟩ := issue
  have ended := (orderly.invoke reply fuel message).of_runs run
  cases out with
  | ok result => exact ⟨ended.1, ended.2.1.le⟩
  | error reason => exact ended
  | panic => exact ended
  | pending => exact ended

/-- Every call keeps the order and draws at most once. -/
theorem Traffic.Orderly.issues {count : Nat} (orderly : traffic.Orderly)
    (issues : Issues count traffic traffic') :
    traffic'.Orderly ∧ traffic'.draws ≤ traffic.draws + count := by
  induction count generalizing traffic' with
  | zero =>
      obtain rfl : traffic' = traffic := issues
      exact ⟨orderly, le_refl _⟩
  | succ count ih =>
      obtain ⟨mid, before, issue⟩ := issues
      obtain ⟨middle, few⟩ := ih before
      obtain ⟨after, one⟩ := middle.issue issue
      exact ⟨after, by omega⟩

/-- A letter with the context of the last draw was made for the request of that draw, if the
counter has not come round since. -/
theorem Traffic.Answered.own {request reply : MessageType} {message : request.Message}
    {result : reply.Message} {letter : Letter} {context : UInt32}
    (answered : traffic.Answered message result letter) (orderly : traffic.Orderly)
    (some_ : 0 < traffic.draws) (carries : Api.context result = some context) :
    ∃ number asked, letter.origin = some number ∧ (number, asked) ∈ traffic.received ∧
      (traffic.draws < number + (2 ^ 31 - 1) → number = traffic.draws ∧
        ∃ id clientIndex, asked = asking message id clientIndex context) := by
  obtain ⟨number, asked, origin, member, asks⟩ :=
    answered.honest request reply result context answered.answers answered.reads carries
  obtain ⟨order, same⟩ := orderly.received number asked context member asks
  refine ⟨number, asked, origin, member, fun near => ?_⟩
  have last := answered.context context carries
  obtain rfl := contextAt_inj order near some_ (same.symm.trans last)
  obtain ⟨id, clientIndex, sent⟩ := answered.sent
  exact ⟨rfl, id, clientIndex, same ▸ sent asked context member asks⟩

/-- **Correlation.** What an `invoke` returns was read from a letter of the declared reply type,
made for the very request of that call, unless `2 ^ 31 - 1` calls or more lie between the two; and
over that many draws all contexts differ, all have the high bit set, and none is the high bit
alone. -/
theorem correlated {start earlier before after : Traffic} {count counted : Nat}
    (fresh : start.Fresh) (first : Issues counted start earlier)
    (issues : Issues count earlier before) (request reply : MessageType) (fuel : Nat)
    (message : request.Message) (result : reply.Message) (context : UInt32)
    (run : (invoke reply.Message fuel message).Runs corresponding before (.ok result) after)
    (carries : Api.context result = some context) :
    (∃ letter number asked, after.Answered message result letter ∧ letter.origin = some number ∧
      (number, asked) ∈ after.received ∧
        (earlier.draws < number → count < 2 ^ 31 - 1 → number = before.draws + 1 ∧
          ∃ id clientIndex, asked = asking message id clientIndex context)) ∧
      ∀ (counter : UInt32) (left right : Nat),
        (left < right → right < left + (2 ^ 31 - 1) → drawn counter left ≠ drawn counter right) ∧
          drawn counter left &&& 0x80000000 = 0x80000000 ∧ drawn counter left ≠ 0x80000000 := by
  constructor
  · obtain ⟨middle, -⟩ := fresh.orderly.issues first
    obtain ⟨orderly, few⟩ := middle.issues issues
    obtain ⟨ordered, draws, letter, answered⟩ := (orderly.invoke reply fuel message).of_runs run
    obtain ⟨number, asked, origin, member, own⟩ :=
      answered.own ordered (draws ▸ Nat.succ_pos _) carries
    refine ⟨letter, number, asked, answered, origin, member, fun since near => ?_⟩
    rw [← draws]
    exact own (by omega)
  · intro counter left right
    refine ⟨fun order near same => ?_, drawn_and_high counter left, fun same => ?_⟩
    · exact absurd (drawn_inj order.le near same) order.ne
    · have high := drawn_high counter left
      rw [same] at high
      exact absurd high (by decide)

end Issues

/-! ## A ping and its reply -/

/-- The requests and replies that the server of the example knows. -/
def pingTable : List (String × UInt16) :=
  [(Api.nameCrc ControlPing, 1), (Api.nameCrc ControlPingReply, 2)]

/-- A ping as the server receives it. -/
def pingWith (context : UInt32) : MessageType.controlPing.Message :=
  ({ id := 1, clientIndex := 7, context := context } : ControlPing)

def pongWith (context : UInt32) : MessageType.controlPingReply.Message :=
  ({ id := 2, context := context, retval := 0, clientIndex := 7, vpePid := 9 } : ControlPingReply)

/-- A server of pings. To the call of the draw `n` comes the reply to the ping `delivers n`, if it
has been received, or nothing; a call that finds nothing is dropped. -/
def pinging (delivers : Nat → Option Nat) : Device Op Op.Ret Traffic := fun op traffic =>
  match op with
  | .load => some (traffic.client, traffic)
  | .store client => some ((), { traffic with client := client, draws := traffic.draws + 1 })
  | .now => some (0, traffic)
  | .sleep => some (false, traffic)
  | .allocate payloadLen => some (.ok ⟨512, payloadLen, 0⟩, traffic)
  | .output message => some (List.replicate message.payloadLen 0, traffic)
  | .fill message output =>
      some ((), { traffic with drafts := Function.update traffic.drafts message.payload output })
  | .add _ element =>
      some (.ok (), { traffic with
        received := (traffic.draws, traffic.drafts (leNat element)) :: traffic.received })
  | .sub _ =>
      match delivers traffic.draws with
      | none => some (.error .empty, traffic)
      | some number =>
          if traffic.client.messageIds = pingTable ∧
              (number, encoding (pingWith (contextAt number))) ∈ traffic.received then
            some (.ok (leBytes 8 1024), { traffic with
              mail := Function.update traffic.mail (leNat (leBytes 8 1024))
                (some ⟨some number, encoding (pongWith (contextAt number))⟩) })
          else none
  | .fromAddress address =>
      (traffic.mail address).map fun letter =>
        (.ok ⟨address, letter.payload.length, letter.payload.length⟩, traffic)
  | .bytes message => (traffic.mail message.payload).map fun letter => (letter.payload, traffic)
  | .free _ => some ((), traffic)
  | _ => none

section Ping

theorem pairs_pingTable {client : Client} (table : client.messageIds = pingTable) :
    client.Pairs .controlPing .controlPingReply := by
  intro type
  rw [Client.messageId, table]
  cases type <;> decide +kernel

theorem serializes_pingWith (context : UInt32) :
    Serializes (pingWith context) (encoding (pingWith context)) :=
  serializes_encoding (show MessageType.controlPing.Short (pingWith context) from trivial)

theorem serializes_pongWith (context : UInt32) :
    Serializes (pongWith context) (encoding (pongWith context)) :=
  serializes_encoding (show MessageType.controlPingReply.Short (pongWith context) from trivial)

theorem reads_pingWith {client : Client} (table : client.messageIds = pingTable)
    (context : UInt32) :
    client.Reads (encoding (pingWith context)) .controlPing (pingWith context) :=
  Client.reads_encoding (pairs_pingTable table .controlPing) (serializes_pingWith context)

/-- The reply carries the context of the ping. -/
theorem honest_pong {traffic : Traffic} (table : traffic.client.messageIds = pingTable)
    {number : Nat} {context : UInt32}
    (member : (number, encoding (pingWith context)) ∈ traffic.received) :
    Letter.Honest traffic.client traffic.received
      ⟨some number, encoding (pongWith context)⟩ :=
  (pairs_pingTable table).distinct.honest (pairs_pingTable table .controlPingReply)
    (serializes_pongWith context) rfl member
    ⟨.controlPing, pingWith context, reads_pingWith table context, rfl, rfl⟩

theorem pinging_sound (delivers : Nat → Option Nat) (op : Op) (traffic : Traffic)
    (answer : op.Ret) (traffic' : Traffic)
    (answered : pinging delivers op traffic = some (answer, traffic')) :
    corresponding op traffic answer traffic' := by
  cases op with
  | load =>
      cases answered
      exact ⟨rfl, rfl⟩
  | allocate payloadLen =>
      cases answered
      exact ⟨rfl, .inr ⟨512, by omega, rfl⟩⟩
  | output message =>
      cases answered
      exact ⟨List.length_replicate .., rfl⟩
  | add header element =>
      cases answered
      exact .inr rfl
  | sub queue =>
      simp only [pinging] at answered
      split at answered
      · cases answered
        exact .inl ⟨_, rfl, rfl⟩
      · split at answered
        · next known =>
            cases answered
            exact .inr ⟨leBytes 8 1024, _, rfl, honest_pong known.1 known.2, rfl⟩
        · cases answered
  | fromAddress address =>
      cases found : traffic.mail address with
      | none =>
          simp only [pinging, found, Option.map_none] at answered
          cases answered
      | some letter =>
          simp only [pinging, found, Option.map_some] at answered
          cases answered
          exact ⟨rfl, .inr ⟨letter, found, rfl⟩⟩
  | bytes message =>
      cases found : traffic.mail message.payload with
      | none =>
          simp only [pinging, found, Option.map_none] at answered
          cases answered
      | some letter =>
          simp only [pinging, found, Option.map_some] at answered
          cases answered
          exact ⟨rfl, fun other same =>
            congrArg Letter.payload (Option.some.inj (found.symm.trans same))⟩
  | store client =>
      cases answered
      rfl
  | now =>
      cases answered
      rfl
  | sleep =>
      cases answered
      rfl
  | fill message output =>
      cases answered
      rfl
  | free message =>
      cases answered
      rfl
  | _ => cases answered

/-- A client that has just been connected to that server. -/
def quiet : Traffic where
  client :=
    { header := 0, inputQueue := ⟨64, ⟨1, 8⟩⟩, clientIndex := some 7, messageIds := pingTable
      contextCounter := 0, handleKeepalives := true }
  draws := 0
  drafts := fun _ => []
  received := []
  mail := fun _ => none

theorem fresh_quiet : quiet.Fresh :=
  ⟨(pairs_pingTable rfl).distinct, rfl, rfl, fun _ _ _ member => (by cases member)⟩

/-- A ping without a header. -/
def bare : MessageType.controlPing.Message :=
  ({ id := 0, clientIndex := 0, context := 0 } : ControlPing)

/-- A ping in a given state. -/
def pinged (delivers : Nat → Option Nat) (traffic : Traffic) :
    Outcome Error MessageType.controlPingReply.Message × Traffic :=
  (invoke MessageType.controlPingReply.Message 2 bare).exec (pinging delivers) traffic

theorem runs_pinged {delivers : Nat → Option Nat} {traffic : Traffic}
    (answered : (pinged delivers traffic).1 ≠ .panic) :
    (invoke MessageType.controlPingReply.Message 2 bare).Runs corresponding traffic
      (pinged delivers traffic).1 (pinged delivers traffic).2 :=
  runs_of_exec (pinging_sound delivers) rfl answered

theorem issue_pinged {delivers : Nat → Option Nat} {traffic : Traffic}
    (answered : (pinged delivers traffic).1 ≠ .panic) :
    Issue traffic (pinged delivers traffic).2 :=
  ⟨.controlPing, .controlPingReply, bare, 2, _, runs_pinged answered⟩

instance : DecidableEq MessageType.controlPingReply.Message :=
  inferInstanceAs (DecidableEq ControlPingReply)

/-- The reply to the first ping comes to the second call, the one to the second is lost. -/
def straggling (draw : Nat) : Option Nat :=
  if draw = 1 then none else if draw = 2 then some 1 else some draw

/-- The state behind the first call, which is dropped. -/
def forsaken : Traffic := (pinged straggling quiet).2

/-- The state behind the second call, which is given the reply to the first. -/
def mismatched : Traffic := (pinged straggling forsaken).2

theorem pinged_straggling :
    (pinged straggling quiet).1 = .pending ∧
      (pinged straggling forsaken).1 = .error (.contextMismatch 0x80000002 0x80000001) ∧
        (pinged straggling mismatched).1 = .ok (pongWith 0x80000003) := by
  decide +kernel

/-- Behind a call that was dropped and one that was given its reply, the third ping is answered
with the reply that was made for it. -/
theorem correlated_ping :
    ∃ letter, (pinged straggling mismatched).2.Answered bare (pongWith 0x80000003) letter ∧
      letter.origin = some 3 ∧ ∃ asked, (3, asked) ∈ (pinged straggling mismatched).2.received ∧
        ∃ id clientIndex, asked = asking bare id clientIndex 0x80000003 := by
  obtain ⟨dropped, failed, returned⟩ := pinged_straggling
  have first : Issue quiet forsaken :=
    issue_pinged fun fault => (by cases dropped.symm.trans fault)
  have second : Issue forsaken mismatched :=
    issue_pinged fun fault => (by cases failed.symm.trans fault)
  have run := runs_pinged fun fault => (by cases returned.symm.trans fault)
  rw [returned] at run
  have none_ : Issues 0 quiet quiet := rfl
  have both : Issues 2 quiet mismatched := ⟨forsaken, ⟨quiet, none_, first⟩, second⟩
  obtain ⟨⟨letter, number, asked, answered, origin, member, own⟩, -⟩ :=
    correlated fresh_quiet none_ both .controlPing .controlPingReply 2 bare (pongWith 0x80000003)
      0x80000003 run rfl
  have numbers : (pinged straggling mismatched).2.received.map Prod.fst = [3, 2, 1] := by
    decide +kernel
  have draws : mismatched.draws = 2 := by decide +kernel
  have among : number ∈ (pinged straggling mismatched).2.received.map Prod.fst :=
    List.mem_map_of_mem member
  have positive : ∀ other ∈ [3, 2, 1], 0 < other := by decide
  obtain ⟨last, asks⟩ := own (positive number (numbers ▸ among)) (by decide)
  have third : number = 3 := last.trans (congrArg (· + 1) draws)
  exact ⟨letter, answered, third ▸ origin, asked, third ▸ member, asks⟩

end Ping

end Netsystem.Connection
