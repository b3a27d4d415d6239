import Netsystem.Api.TableRoundTrip
import Netsystem.Connection.Correlation
import Netsystem.Connection.Lifecycle

/-!
# Under which ids a client sends

The server tells a client its ids in the table that `connect` reads: for every message that it has
registered, the name with the check of its declaration, and the id. `understood` is about every
sequence of the calls of a client, however they end: a payload that the server is given has an id
under which the server has registered a message with the name and the check of the client's own
declaration, and is read back as one of that type. The request of `connect` alone has an id of its
own.
-/

namespace Netsystem.Connection

open Netsystem.Api Netsystem.Prog

/-! ## Keys -/

section Keys

variable {name name' : String} {crc crc' : UInt32}

theorem hexDigit_inj {left right : UInt32} (small : left.toNat < 16) (small' : right.toNat < 16)
    (same : hexDigit left = hexDigit right) : left = right := by
  have digits : ∀ left right : Fin 16, "0123456789abcdef".toList.getD left.1 '0' =
      "0123456789abcdef".toList.getD right.1 '0' → left = right := by decide
  exact UInt32.toNat_inj.mp (Fin.mk.inj (digits ⟨left.toNat, small⟩ ⟨right.toNat, small'⟩ same))

/-- One hexadecimal digit of a word, the most significant first. -/
theorem nibble_toNat (crc : UInt32) {digit : Nat} (bound : digit < 8) :
    ((crc >>> UInt32.ofNat ((7 - digit) * 4)) &&& 15).toNat =
      crc.toNat / 2 ^ ((7 - digit) * 4) % 16 := by
  have mask : (15 : UInt32).toNat = 2 ^ 4 - 1 := rfl
  rw [UInt32.toNat_and, mask, Nat.and_two_pow_sub_one_eq_mod, UInt32.toNat_shiftRight,
    UInt32.toNat_ofNat', Nat.shiftRight_eq_div_pow]
  congr 3
  omega

/-- Two words with the same eight digits are the same. -/
theorem eq_of_nibbles {left right : Nat} (small : left < 2 ^ 32) (small' : right < 2 ^ 32)
    (same : ∀ digit < 8, left / 2 ^ ((7 - digit) * 4) % 16 = right / 2 ^ ((7 - digit) * 4) % 16) :
    left = right := by
  have first := same 0 (by omega)
  have second := same 1 (by omega)
  have third := same 2 (by omega)
  have fourth := same 3 (by omega)
  have fifth := same 4 (by omega)
  have sixth := same 5 (by omega)
  have seventh := same 6 (by omega)
  have eighth := same 7 (by omega)
  norm_num at first second third fourth fifth sixth seventh eighth
  omega

/-- A key tells the name and the check. -/
theorem nameCrcOf_inj (same : nameCrcOf name crc = nameCrcOf name' crc') :
    name = name' ∧ crc = crc' := by
  have lists := congrArg String.toList same
  simp only [nameCrcOf, String.toList_append, String.toList_ofList, List.append_assoc] at lists
  obtain ⟨names, keys⟩ := List.append_inj' lists (by simp)
  have digits := List.map_inj_left.mp (List.append_inj_right keys rfl)
  refine ⟨String.toList_inj.mp names,
    UInt32.toNat_inj.mp (eq_of_nibbles crc.toNat_lt crc'.toNat_lt ?_)⟩
  intro digit bound
  rw [← nibble_toNat crc bound, ← nibble_toNat crc' bound]
  refine congrArg UInt32.toNat (hexDigit_inj ?_ ?_ (digits digit (List.mem_range.mpr bound)))
  · rw [nibble_toNat crc bound]
    exact Nat.mod_lt _ (by omega)
  · rw [nibble_toNat crc' bound]
    exact Nat.mod_lt _ (by omega)

end Keys

/-! ## Registrations -/

/-- A message as the server has registered it. -/
structure Registration : Type where
  name : String
  crc : UInt32
  id : UInt16
  deriving DecidableEq, Repr

/-- The entry of the server's table. -/
def Registration.entry (registration : Registration) : String × UInt16 :=
  (nameCrcOf registration.name registration.crc, registration.id)

/-- The server's table of its messages. -/
def tableOf (registered : List Registration) : Bytes :=
  encodeTable (registered.map Registration.entry)

/-- The server has a message with the name and the check of the client's declaration under the
id. -/
def Registers (registered : List Registration) (type : MessageType) (id : UInt16) : Prop :=
  ⟨Api.name type.Message, Api.crc type.Message, id⟩ ∈ registered

/-- The ids of the client are those under which the server has registered its messages. -/
def Client.Informed (client : Client) (registered : List Registration) : Prop :=
  ∀ (type : MessageType) (id : UInt16),
    client.messageId (Api.nameCrc type.Message) = some id → Registers registered type id

/-- The payload is read under its id as the message that it was made of. -/
def Understood (registered : List Registration) (payload : Bytes) : Prop :=
  ∃ (type : MessageType) (message : type.Message),
    (type = .memclntCreateV2 ∧ type.id message = memclntCreateV2Id ∨
      Registers registered type (type.id message)) ∧
      Api.messageId payload = .ok (type.id message) ∧
      Api.decode type.Message payload = .ok message

section Registrations

variable {registered : List Registration} {client : Client}

/-- A client without ids is not misinformed. -/
theorem informed_nil (empty : client.messageIds = []) : client.Informed registered := by
  intro type id listed
  rw [Client.messageId, empty] at listed
  cases listed

/-- The table that a client has read says of a declaration what the server has registered. -/
theorem informed_of_table (table : client.messageIds = registered.map Registration.entry) :
    client.Informed registered := by
  intro type id listed
  rw [Client.messageId, table] at listed
  obtain ⟨before, after, split, -⟩ := List.lookup_eq_some_iff.mp listed
  have member : (Api.nameCrc type.Message, id) ∈ (registered.map Registration.entry).reverse := by
    rw [split]
    exact List.mem_append_right _ List.mem_cons_self
  obtain ⟨registration, inside, same⟩ := List.mem_map.mp (List.mem_reverse.mp member)
  obtain ⟨key, rfl⟩ := Prod.mk.inj same
  obtain ⟨name, crc⟩ := nameCrcOf_inj key
  rw [Registers, ← name, ← crc]
  exact inside

/-- A table is read back, whatever is behind it. -/
theorem deserialize_tableOf (few : registered.length < 2 ^ 32)
    (short : ∀ registration ∈ registered, (toUtf8 registration.entry.1).length < 2 ^ 64)
    (rest : Bytes) :
    deserializeMessageTable (tableOf registered ++ rest) =
      .ok (registered.map Registration.entry) := by
  have whole := reads_table
    (by rwa [List.length_map]) (List.forall_mem_map.mpr short)
  rw [deserializeMessageTable, tableOf, whole rest]

/-- What was encoded under a registered id is understood. -/
theorem understood_of_serializes {type : MessageType} {message : type.Message}
    (named : type = .memclntCreateV2 ∧ type.id message = memclntCreateV2Id ∨
      Registers registered type (type.id message))
    (serializes : Serializes message (encoding message)) :
    Understood registered (encoding message) :=
  ⟨type, message, named, type.messageId_encode message,
    MessageType.decode_of_serializes serializes⟩

end Registrations

/-! ## The wire -/

/-- The client, the buffers that it has filled, and the payloads that the server was given. -/
structure Wire : Type where
  client : Client
  drafts : Nat → Bytes
  given : List Bytes

/-- A server that has registered the messages, and shows a client their table. A payload that the
client adds may be lost, and what it is sent is anything. -/
def serving (registered : List Registration) : Handler Op Op.Ret Wire
  | .load, wire, client, wire' => client = wire.client ∧ wire' = wire
  | .store client, wire, _, wire' => wire' = { wire with client := client }
  | .remainingFrom _, wire, remaining, wire' =>
      wire' = wire ∧ ∀ bytes, remaining = some bytes → ∃ rest, bytes = tableOf registered ++ rest
  | .allocate payloadLen, wire, answer, wire' =>
      wire' = wire ∧ ((∃ reason, answer = .error reason) ∨
        ∃ payload, payload < 2 ^ 64 ∧ answer = .ok ⟨payload, payloadLen, 0⟩)
  | .output message, wire, output, wire' => output.length = message.payloadLen ∧ wire' = wire
  | .fill message output, wire, _, wire' =>
      wire' = { wire with drafts := Function.update wire.drafts message.payload output }
  | .add _ element, wire, _, wire' =>
      wire' = wire ∨ wire' = { wire with given := wire.drafts (leNat element) :: wire.given }
  | _, wire, _, wire' => wire' = wire

/-- The client knows no id but those of its server, and the server understands what it was
given. -/
structure Wire.Honest (registered : List Registration) (wire : Wire) : Prop where
  informed : wire.client.Informed registered
  given : ∀ payload ∈ wire.given, Understood registered payload

/-- An operation that neither changes the fields nor enqueues a payload. -/
def Op.Silent : Op → Prop
  | .store _ => False
  | .add _ _ => False
  | _ => True

section Silence

variable {registered : List Registration} {wire : Wire}

theorem silent_of_reads (op : Op) (reads : op.Reads) : op.Silent := by
  cases op <;> trivial

theorem silent_of_waits (op : Op) (waits : op.Waits) : op.Silent := by
  cases op <;> trivial

theorem Wire.Honest.silent {op : Op} {answer : op.Ret} {wire' : Wire} (quiet : op.Silent)
    (honest : wire.Honest registered) (answered : serving registered op wire answer wire') :
    wire'.Honest registered := by
  cases op with
  | load => obtain ⟨-, rfl⟩ := answered; exact honest
  | store client => cases quiet
  | remainingFrom address => obtain ⟨rfl, -⟩ := answered; exact honest
  | allocate payloadLen => obtain ⟨rfl, -⟩ := answered; exact honest
  | output message => obtain ⟨-, rfl⟩ := answered; exact honest
  | fill message output => obtain rfl := answered; exact ⟨honest.informed, honest.given⟩
  | add header element => cases quiet
  | _ => obtain rfl := answered; exact honest

end Silence

/-! ## What every call keeps -/

/-- However the call ends, an honest wire stays honest. -/
structure Keeps (registered : List Registration) {α : Type} (call : Call α) : Prop where
  ensures : ∀ wire : Wire, wire.Honest registered →
    call.Ensures (serving registered) (fun _ => Wire.Honest registered)
      (fun _ => Wire.Honest registered) wire

section Keeping

variable {registered : List Registration} {α β : Type}

theorem keeps_of_silent {call : Call α} (silent : call.Uses Op.Silent) : Keeps registered call :=
  ⟨fun _ honest =>
    silent.ensures (fun _ _ _ _ quiet honest answered => honest.silent quiet answered) honest⟩

theorem keeps_done (outcome : Outcome Error α) :
    Keeps registered (done outcome : Call α) := keeps_of_silent trivial

theorem Keeps.bind {call : Call α} {f : α → Call β} (first : Keeps registered call)
    (rest : ∀ value, Keeps registered (f value)) : Keeps registered (call.bind f) :=
  ⟨fun wire honest => (first.ensures wire honest).bind fun value => (rest value).ensures⟩

theorem keeps_perform {op : Op} {f : op.Ret → Call α} (silent : op.Silent)
    (rest : ∀ answer, Keeps registered (f answer)) : Keeps registered ((perform op).bind f) :=
  (keeps_of_silent (uses_perform silent)).bind rest

/-- The fields that a call loads are those of an informed client. -/
theorem keeps_load {f : Client → Call α}
    (rest : ∀ self, self.Informed registered → Keeps registered (f self)) :
    Keeps registered (load.bind f) := by
  refine ⟨fun wire honest => ?_⟩
  refine ensures_perform.mpr fun self mid answered => ?_
  obtain ⟨rfl, rfl⟩ := answered
  exact (rest mid.client honest.informed).ensures mid honest

theorem keeps_store {client : Client} (informed : client.Informed registered) :
    Keeps registered (store client) := by
  refine ⟨fun wire honest => ?_⟩
  refine ensures_perform.mpr fun done mid answered => ?_
  obtain rfl := answered
  exact ⟨informed, honest.given⟩

/-- What is looked up among the fields of an informed client. -/
theorem keeps_messageId (type : MessageType) {self : Client} {reason : Error}
    {f : UInt16 → Call α} (informed : self.Informed registered)
    (rest : ∀ id, Registers registered type id → Keeps registered (f id)) :
    Keeps registered ((okOr (self.messageId (Api.nameCrc type.Message)) reason).bind f) :=
  ⟨fun wire honest => ensures_bind.mpr (ensures_okOr
    (fun id listed => (rest id (informed type id listed)).ensures wire honest) fun _ => honest)⟩

/-- A message under an id that is registered for its type, sent or not. -/
theorem keeps_sendMessage {type : MessageType} {message : type.Message}
    (named : type = .memclntCreateV2 ∧ type.id message = memclntCreateV2Id ∨
      Registers registered type (type.id message)) :
    Keeps registered (sendMessage message) := by
  refine ⟨fun wire honest => ?_⟩
  refine ensures_bind.mpr (ensures_mapErr (fun payloadLen measured => ?_) fun _ _ => honest)
  refine ensures_perform.mpr fun allocated still answered => ?_
  obtain ⟨rfl, ⟨reason, rfl⟩ | ⟨payload, small, rfl⟩⟩ := answered
  · exact honest
  refine (encode_whole measured fun _ _ => id).bind fun encoded mid answered => ?_
  obtain ⟨rfl, rfl⟩ := answered
  refine ensures_perform.mpr fun self mid answered => ?_
  obtain ⟨-, rfl⟩ := answered
  refine ensures_perform.mpr fun added last answered => ?_
  have word : leNat (leBytes 8 payload) = payload := leNat_leBytes (by omega)
  have after : last.Honest registered := by
    obtain rfl | rfl := answered
    · exact ⟨honest.informed, honest.given⟩
    · obtain ⟨short, counted, usize⟩ := (serializedLen_eq_ok_iff _ _ _).mp measured
      have serializes : Serializes message (encoding message) :=
        (serializes_iff _ _).mpr ⟨short, rfl, by rwa [encoding, counted]⟩
      refine ⟨honest.informed, List.forall_mem_cons.mpr ⟨?_, honest.given⟩⟩
      simp only [word, Function.update_self]
      exact understood_of_serializes named serializes
  cases added with
  | ok done => exact after
  | error source =>
      dsimp only
      split
      · exact after
      · refine ensures_perform.mpr fun done mid freed => ?_
        obtain rfl := freed
        exact after

theorem keeps_keepaliveReply {reply : MemclntKeepaliveReply}
    (listed : Registers registered .memclntKeepaliveReply reply.id) :
    Keeps registered (sendMessage reply) :=
  @keeps_sendMessage _ .memclntKeepaliveReply reply (.inr listed)

theorem keeps_deleteRequest {request : MemclntDelete}
    (listed : Registers registered .memclntDelete request.id) :
    Keeps registered (sendMessage request) :=
  @keeps_sendMessage _ .memclntDelete request (.inr listed)

theorem keeps_createRequest {request : MemclntCreateV2} (own : request.id = memclntCreateV2Id) :
    Keeps registered (sendMessage request) :=
  @keeps_sendMessage _ .memclntCreateV2 request (.inl ⟨rfl, own⟩)

theorem keeps_answerKeepalive {self : Client} (informed : self.Informed registered)
    (message : MsgBuf) : Keeps registered (answerKeepalive self message) := by
  refine (keeps_of_silent (uses_decode silent_of_reads _ _)).bind fun decoded => ?_
  refine (keeps_of_silent (uses_free silent_of_reads _)).bind fun _ => ?_
  refine (keeps_of_silent uses_mapErr).bind fun request => ?_
  exact keeps_messageId .memclntKeepaliveReply informed fun id listed =>
    keeps_keepaliveReply listed

theorem keeps_accept {self : Client} (informed : self.Informed registered) (address : Bytes) :
    Keeps registered (accept self address) := by
  refine keeps_perform trivial fun named => ?_
  refine (keeps_of_silent uses_mapErr).bind fun message => ?_
  refine (keeps_of_silent (uses_messageId silent_of_reads _)).bind fun id => ?_
  split
  · exact (keeps_answerKeepalive informed message).bind fun _ => keeps_done _
  · exact keeps_done _

theorem keeps_receive (deadline fuel : Nat) : Keeps registered (receive deadline fuel) := by
  induction fuel with
  | zero => exact keeps_done _
  | succ fuel ih =>
      refine keeps_load fun self informed => ?_
      refine keeps_perform trivial fun taken => ?_
      cases taken with
      | ok address =>
          refine (keeps_accept informed address).bind fun received => ?_
          cases received with
          | some message => exact keeps_done _
          | none => exact ih
      | error source =>
          cases source with
          | empty =>
              refine (keeps_of_silent (uses_now.mono silent_of_waits)).bind fun instant => ?_
              split
              · exact keeps_done _
              · exact (keeps_of_silent (uses_sleep.mono silent_of_waits)).bind fun _ => ih
          | _ => exact keeps_done _

/-- What a waiting call does with a message. -/
theorem keeps_reply {Reply : Type} [Api Reply] (message : MsgBuf) {expected : UInt16}
    {ignored : UInt16 → Call α} {rest : Except Api.Error Reply → Call α}
    (ignores : ∀ id, Keeps registered (ignored id))
    (goes : ∀ decoded, Keeps registered (rest decoded)) :
    Keeps registered ((messageId message).bind fun id =>
      if id ≠ expected then (free message).bind fun _ => ignored id
      else (decode Reply message).bind fun decoded =>
        (free message).bind fun _ => rest decoded) := by
  refine (keeps_of_silent (uses_messageId silent_of_reads message)).bind fun id => ?_
  split
  · exact (keeps_of_silent (uses_free silent_of_reads message)).bind fun _ => ignores id
  · exact (keeps_of_silent (uses_decode silent_of_reads Reply message)).bind fun decoded =>
      (keeps_of_silent (uses_free silent_of_reads message)).bind fun _ => goes decoded

/-! ### The calls -/

theorem keeps_nextContext : Keeps registered nextContext := by
  refine keeps_load fun self informed => ?_
  have advanced : Client.Informed { self with contextCounter := nextCounter self.contextCounter }
      registered := informed
  exact (keeps_store advanced).bind fun _ => keeps_done _

/-- Every call of `invoke` sends its request under an id that is registered for it. -/
theorem keeps_invoke {request : MessageType} (reply : MessageType) (fuel : Nat)
    (message : request.Message) : Keeps registered (invoke reply.Message fuel message) := by
  refine ⟨fun wire honest => ?_⟩
  refine ensures_invoke_of fun self still answered => ?_
  obtain ⟨rfl, rfl⟩ := answered
  refine ⟨fun _ => honest, fun clientIndex service requestId replyId ready => ?_⟩
  have requests : (Api.service request.Message).isSome := by
    rw [ready.declared]
    rfl
  have listed := honest.informed request requestId ready.requestId
  have sent : ∀ context, Keeps registered
      (sendMessage (Api.setRequestHeader message requestId clientIndex context)) := fun context =>
    keeps_sendMessage (.inr (by rwa [id_setRequestHeader requests]))
  have whole :
      Keeps registered (exchange reply.Message fuel message clientIndex requestId replyId) := by
    refine keeps_nextContext.bind fun context => (sent context).bind fun _ => ?_
    refine (keeps_of_silent (uses_now.mono silent_of_waits)).bind fun instant => ?_
    refine (keeps_receive _ fuel).bind fun received => ?_
    cases received with
    | none => exact keeps_done _
    | some taken =>
        refine keeps_reply taken (fun _ => keeps_done _) fun decoded => ?_
        refine (keeps_of_silent uses_mapErr).bind fun result => ?_
        split
        · split <;> exact keeps_done _
        · exact keeps_done _
  exact whole.ensures still honest

theorem keeps_releaseQueue : Keeps registered releaseQueue := by
  refine keeps_of_silent (uses_perform_bind trivial fun self => ?_)
  split
  · exact trivial
  · exact uses_perform_bind trivial fun _ => uses_perform trivial

theorem keeps_awaitDeleteReply (clientIndex : UInt32) (deleteReplyId : UInt16)
    (deadline fuel : Nat) :
    Keeps registered (awaitDeleteReply clientIndex deleteReplyId deadline fuel) := by
  induction fuel with
  | zero => exact keeps_done _
  | succ fuel ih =>
      refine (keeps_receive deadline _).bind fun received => ?_
      cases received with
      | none => exact keeps_done _
      | some message =>
          refine keeps_reply message (fun _ => ih) fun decoded => ?_
          refine (keeps_of_silent uses_mapErr).bind fun reply => ?_
          split <;> exact keeps_done _

theorem keeps_disconnect (fuel : Nat) : Keeps registered (disconnect fuel) := by
  refine keeps_load fun self informed => ?_
  refine (keeps_of_silent uses_okOr).bind fun clientIndex => ?_
  refine keeps_messageId .memclntDelete informed fun deleteId listed => ?_
  refine (keeps_of_silent uses_okOr).bind fun deleteReplyId => ?_
  refine (keeps_deleteRequest listed).bind fun _ => ?_
  refine (keeps_of_silent (uses_now.mono silent_of_waits)).bind fun instant => ?_
  refine (keeps_awaitDeleteReply _ _ _ fuel).bind fun _ => keeps_load fun self _ => ?_
  exact (keeps_store (informed_nil rfl)).bind fun _ => keeps_releaseQueue

theorem keeps_awaitCreateReply (path : String) (deadline fuel : Nat) :
    Keeps registered (awaitCreateReply path deadline fuel) := by
  induction fuel with
  | zero => exact keeps_done _
  | succ fuel ih =>
      refine (keeps_receive deadline _).bind fun received => ?_
      cases received with
      | none => exact keeps_done _
      | some message =>
        exact keeps_reply message (fun _ => ih) fun decoded => keeps_of_silent uses_mapErr

theorem silent_allocateClientQueue (responseQueueSize : UInt32) :
    (allocateClientQueue responseQueueSize).Uses Op.Silent := by
  refine uses_mapErr.bind fun bytes => ?_
  split
  · exact trivial
  · refine uses_perform_bind trivial fun allocated => uses_okOr.bind fun address => ?_
    refine uses_perform_bind trivial fun initialized => ?_
    cases initialized with
    | ok done => exact trivial
    | error source => exact uses_perform_bind trivial fun _ => trivial

/-- The client is informed by the table, and without ids before. -/
theorem keeps_connect (few : registered.length < 2 ^ 32)
    (short : ∀ registration ∈ registered, (toUtf8 registration.entry.1).length < 2 ^ 64)
    (fuel : Nat) (name path : String) (responseQueueSize : UInt32) (handleKeepalives : Bool) :
    Keeps registered (connect fuel name path responseQueueSize handleKeepalives) := by
  refine (keeps_of_silent (uses_now.mono silent_of_waits)).bind fun instant => ?_
  refine (keeps_of_silent ((uses_awaitRegion _ _ _).mono silent_of_waits)).bind fun _ => ?_
  refine (keeps_of_silent ((uses_awaitHeader _ _ _).mono silent_of_waits)).bind fun header => ?_
  refine keeps_perform trivial fun validated => (keeps_of_silent uses_mapErr).bind fun _ => ?_
  refine (keeps_of_silent (silent_allocateClientQueue _)).bind fun queue => ?_
  refine (keeps_store (informed_nil rfl)).bind fun _ => (keeps_createRequest rfl).bind fun _ => ?_
  refine (keeps_awaitCreateReply _ _ fuel).bind fun reply => ?_
  split
  · exact keeps_releaseQueue.bind fun _ => keeps_done _
  · refine ⟨fun wire honest => ?_⟩
    refine ensures_perform.mpr fun remaining still answered => ?_
    obtain ⟨rfl, shown⟩ := answered
    refine ensures_bind.mpr (ensures_okOr (fun table found => ?_) fun _ => honest)
    obtain ⟨rest, rfl⟩ := shown table found
    refine ensures_bind.mpr (ensures_mapErr (fun messageIds read => ?_) fun _ _ => honest)
    obtain rfl := Except.ok.inj ((deserialize_tableOf few short rest).symm.trans read)
    refine ensures_perform.mpr fun self mid answered => ?_
    obtain ⟨rfl, rfl⟩ := answered
    exact (keeps_store (informed_of_table rfl)).ensures mid honest

end Keeping

/-! ## Every sequence of calls -/

/-- One call of a client, however it ends. -/
inductive Calling (registered : List Registration) (wire wire' : Wire) : Prop where
  | connect {fuel : Nat} {name path : String} {responseQueueSize : UInt32}
      {handleKeepalives : Bool} {out : Outcome Error Unit}
      (run : (connect fuel name path responseQueueSize handleKeepalives).Runs (serving registered)
        wire out wire')
  | invoke {request reply : MessageType} {message : request.Message} {fuel : Nat}
      {out : Outcome Error reply.Message}
      (run : (invoke reply.Message fuel message).Runs (serving registered) wire out wire')
  | disconnect {fuel : Nat} {out : Outcome Error Unit}
      (run : (disconnect fuel).Runs (serving registered) wire out wire')
  | release {out : Outcome Error Unit}
      (run : releaseQueue.Runs (serving registered) wire out wire')

section Callings

variable {registered : List Registration} {wire wire' start finish : Wire}

theorem Keeps.honest {α : Type} {call : Call α} {out : Outcome Error α}
    (keeps : Keeps registered call) (honest : wire.Honest registered)
    (run : call.Runs (serving registered) wire out wire') : wire'.Honest registered :=
  (keeps.ensures wire honest).always run

theorem Wire.Honest.calling (few : registered.length < 2 ^ 32)
    (short : ∀ registration ∈ registered, (toUtf8 registration.entry.1).length < 2 ^ 64)
    (honest : wire.Honest registered) (calling : Calling registered wire wire') :
    wire'.Honest registered := by
  cases calling with
  | connect run => exact (keeps_connect few short _ _ _ _ _).honest honest run
  | invoke run => exact (keeps_invoke _ _ _).honest honest run
  | disconnect run => exact (keeps_disconnect _).honest honest run
  | release run => exact keeps_releaseQueue.honest honest run

/-- **Ids.** Whatever calls a client makes of a server that shows it the table of its messages,
the server understands every payload that it is given. -/
theorem understood (few : registered.length < 2 ^ 32)
    (short : ∀ registration ∈ registered, (toUtf8 registration.entry.1).length < 2 ^ 64)
    (fresh : start.client.messageIds = []) (silent : start.given = [])
    (calls : Relation.ReflTransGen (Calling registered) start finish) :
    ∀ payload ∈ finish.given, Understood registered payload := by
  have opened : start.Honest registered :=
    ⟨informed_nil fresh, fun _ member => (by rw [silent] at member; cases member)⟩
  have honest : finish.Honest registered := by
    induction calls with
    | refl => exact opened
    | tail before calling ih => exact ih.calling few short calling
  exact honest.given

end Callings

/-! ## A connection opened and closed -/

/-- The messages of a server that can close a connection. -/
def closing : List Registration :=
  [⟨Api.name MemclntDelete, Api.crc MemclntDelete, 27⟩,
    ⟨Api.name MemclntDeleteReply, Api.crc MemclntDeleteReply, 28⟩]

def Wire.record (wire : Wire) : Op → Wire
  | .store client => { wire with client := client }
  | .fill message output =>
      { wire with drafts := Function.update wire.drafts message.payload output }
  | .add _ element => { wire with given := wire.drafts (leNat element) :: wire.given }
  | _ => wire

/-- The server that replies at once. -/
def recorded : Device Op Op.Ret Wire := fun op wire =>
  some (prompt ⟨wire.client, []⟩ op, wire.record op)

theorem recorded_sound (op : Op) (wire : Wire) (answer : op.Ret) (wire' : Wire)
    (answered : recorded op wire = some (answer, wire')) :
    serving closing op wire answer wire' := by
  cases answered
  cases op with
  | load => exact ⟨rfl, rfl⟩
  | remainingFrom address =>
      refine ⟨rfl, fun bytes shown => ⟨[], ?_⟩⟩
      rw [List.append_nil]
      exact (Option.some.inj shown).symm
  | allocate payloadLen => exact ⟨rfl, .inr ⟨32768, by omega, rfl⟩⟩
  | output message => exact ⟨List.length_replicate .., rfl⟩
  | add header element => exact .inr rfl
  | _ => rfl

/-- Nothing is given before the first call. -/
def unopened : Wire := ⟨blank, fun _ => [], []⟩

/-- The first call, and the end of a connection after it. -/
def reopened : Outcome Error Unit × Wire :=
  ((connect 2 "cli" "/dev/shm/api" 16 false).bind fun _ => disconnect 2).exec recorded unopened

theorem reopened_returns : reopened.1 = .ok () := by decide +kernel

theorem calling_of_recorded {fuel fuel' : Nat} {name path : String} {responseQueueSize : UInt32}
    {handleKeepalives : Bool}
    (returned : (((connect fuel name path responseQueueSize handleKeepalives).bind
      fun _ => disconnect fuel').exec recorded unopened).1 = .ok ()) :
    Relation.ReflTransGen (Calling closing) unopened
      (((connect fuel name path responseQueueSize handleKeepalives).bind
        fun _ => disconnect fuel').exec recorded unopened).2 := by
  have run := runs_of_exec recorded_sound (Prod.ext returned rfl) fun same => (by cases same)
  obtain ⟨_, mid, left, right⟩ := runs_bind_ok.mp run
  exact .tail (.single (.connect left)) (.disconnect right)

/-- The server is given the request that opens the connection and the one that closes it. -/
theorem understood_recorded : reopened.2.given.length = 2 ∧
    ∀ payload ∈ reopened.2.given, Understood closing payload :=
  ⟨by decide +kernel, understood (by decide) (by decide +kernel) rfl rfl
    (calling_of_recorded reopened_returns)⟩

end Netsystem.Connection
