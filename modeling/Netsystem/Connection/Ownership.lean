import Netsystem.Connection.Lifecycle
import Netsystem.Connection.Send

/-!
# Who frees the messages that a client takes

A ledger of the buffers that pass through the hands of one client. `held` are those that it
removed from its response queue and did not free, `drafts` those that it allocated and neither
sent nor freed. A read of a buffer that is not held and a release of one that is neither are
misuse, and so is a message table that is read out of a freed buffer. The server may enqueue what
it likes, and the queue may report a failed signal after a removal.

Each call frees what it removed, with two exceptions (`Removal.Sound`): a payload too short for an
id, and a removal that the queue reported as an error.
-/

namespace Netsystem.Connection

open Netsystem.Api Netsystem.Shmem Netsystem.Prog

/-! ## The ledger -/

/-- A buffer that left the response queue, and the error that the removal was reported with. -/
structure Removal : Type where
  address : Nat
  payload : Bytes
  reported : Option SvmQueueError
  deriving DecidableEq

/-- The removal was reported as done, and the payload holds an id. -/
def Removal.Sound (removal : Removal) : Prop :=
  removal.reported = none ∧ 2 ≤ removal.payload.length

instance (removal : Removal) : Decidable removal.Sound := by
  unfold Removal.Sound
  infer_instance

/-- The bytes of a message buffer in front of its payload. -/
def prefixLen : Nat := 16

/-- One of the `count` bytes from `start` on belongs to the buffer. -/
def Extent.Meets (buffer : Extent) (start count : Nat) : Prop :=
  0 < count ∧ start < buffer.address + buffer.length ∧ buffer.address - prefixLen < start + count

instance (buffer : Extent) (start count : Nat) : Decidable (buffer.Meets start count) := by
  unfold Extent.Meets
  infer_instance

/-- The client's fields, the payloads behind addresses that name a message, and what became of the
buffers of messages and of the blocks of queues. -/
structure Ledger : Type where
  client : Client
  payloads : Nat → Option Bytes
  held : List Nat
  drafts : List Nat
  sent : List Nat
  removals : List Removal
  freed : List Extent
  taken : List Allocation
  returned : List Allocation
  queued : Bool
  crossed : Bool
  misread : Bool
  misreleased : Bool

namespace Ledger

variable (ledger : Ledger)

/-- Memory that is handed out again is no longer that of a freed buffer. -/
def reuse (start count : Nat) : Ledger :=
  { ledger with freed := ledger.freed.filter fun buffer => ¬ buffer.Meets start count }

/-- A message with this payload leaves the response queue. -/
def remove (address : Nat) (payload : Bytes) (reported : Option SvmQueueError) : Ledger :=
  { ledger.reuse (address - prefixLen) (prefixLen + payload.length) with
    payloads := Function.update ledger.payloads address (some payload)
    held := address :: ledger.held
    removals := ⟨address, payload, reported⟩ :: ledger.removals }

/-- An element leaves the response queue that names no message. -/
def dangle (address : Nat) : Ledger :=
  { ledger with payloads := Function.update ledger.payloads address none }

/-- The heap hands out a buffer to the client. -/
def draft (address length : Nat) : Ledger :=
  { ledger.reuse (address - prefixLen) (prefixLen + length) with
    drafts := address :: ledger.drafts }

/-- A buffer goes over to the server. -/
def commit (address : Nat) : Ledger :=
  { ledger with
    drafts := ledger.drafts.erase address
    sent := address :: ledger.sent }

/-- A read of a message. -/
def read (address : Nat) : Ledger :=
  { ledger with misread := ledger.misread || decide (address ∉ ledger.held) }

/-- A read of the server's table. -/
def inspect (address count : Nat) : Ledger :=
  { ledger with
    crossed := ledger.crossed || ledger.freed.any fun buffer => buffer.Meets address count
    misread := ledger.misread || ledger.freed.any fun buffer => buffer.Meets address count }

/-- `MsgBuf::free`. -/
def release (message : MsgBuf) : Ledger :=
  if message.payload ∈ ledger.held then
    { ledger with
      held := ledger.held.erase message.payload
      freed := message.extent :: ledger.freed }
  else if message.payload ∈ ledger.drafts then
    { ledger with drafts := ledger.drafts.erase message.payload }
  else { ledger with misreleased := true }

/-- The buffers of the removals that are not sound. -/
def lost : List Nat :=
  (ledger.removals.filter fun removal => ¬ removal.Sound).map Removal.address

/-- Nothing that was removed is left to free, and nothing was read or freed that had been freed
before. -/
def Clean : Prop := ledger.held = [] ∧ ledger.misread = false ∧ ledger.misreleased = false

/-- Every removal so far was sound, and no table lay in a freed buffer. -/
def Sound : Prop := (∀ removal ∈ ledger.removals, removal.Sound) ∧ ledger.crossed = false

/-- The state between two messages: what is held is lost. -/
structure Settled : Prop where
  held : ledger.held = ledger.lost
  drafts : ledger.drafts = []
  misread : ledger.misread = ledger.crossed
  misreleased : ledger.misreleased = false

/-- The client has the message in hand. -/
structure Holding (message : MsgBuf) (payload : Bytes) : Prop where
  held : ledger.held = message.payload :: ledger.lost
  drafts : ledger.drafts = []
  misread : ledger.misread = ledger.crossed
  misreleased : ledger.misreleased = false
  found : ledger.payloads message.payload = some payload
  length : message.payloadLen = payload.length
  initialized : message.initializedLen = payload.length
  id : 2 ≤ payload.length

/-- The fields of the client, the removals and the blocks of queues are as they were. -/
structure Beside (mid : Ledger) : Prop where
  client : mid.client = ledger.client
  removals : mid.removals = ledger.removals
  taken : mid.taken = ledger.taken
  returned : mid.returned = ledger.returned
  queued : mid.queued = ledger.queued

end Ledger

/-- The queue's report of a removal. -/
def Reports (element : Bytes) : Option SvmQueueError → Except SvmQueueError Bytes → Prop
  | none, answer => answer = .ok element
  | some reason, answer => committed reason .sub = true ∧ answer = .error reason

/-- A region with a heap and two queues under an arbitrary server. The heap hands out no buffer
that the client holds. -/
def owning : Handler Op Op.Ret Ledger
  | .load, ledger, client, ledger' => client = ledger.client ∧ ledger' = ledger
  | .store client, ledger, _, ledger' => ledger' = { ledger with client := client }
  | .remainingFrom address, ledger, answer, ledger' =>
      (answer = none ∧ ledger' = ledger) ∨
        ∃ table, answer = some table ∧ ledger' = ledger.inspect address (tableLength table)
  | .allocateZeroed size align, ledger, answer, ledger' =>
      (answer = none ∧ ledger' = ledger) ∨
        ∃ address, answer = some address ∧
          ledger' = { ledger.reuse address size with
            taken := ⟨address, size, align⟩ :: ledger.taken }
  | .deallocate address size align, ledger, _, ledger' =>
      ledger' = { ledger with returned := ⟨address, size, align⟩ :: ledger.returned }
  | .init _ _, ledger, answer, ledger' =>
      ledger' = { ledger with queued := ledger.queued || answer.toBool }
  | .sub _, ledger, answer, ledger' =>
      (∃ reason, committed reason .sub = false ∧ answer = .error reason ∧ ledger' = ledger) ∨
        ∃ address reported, address < 2 ^ 64 ∧ Reports (leBytes 8 address) reported answer ∧
          (ledger' = ledger.dangle address ∨
            ∃ payload, ledger' = ledger.remove address payload reported)
  | .add _ element, ledger, answer, ledger' =>
      (answer = .ok () ∧ ledger' = ledger.commit (leNat element)) ∨
        (∃ reason, committed reason .add = true ∧ answer = .error reason ∧
          ledger' = ledger.commit (leNat element)) ∨
        ∃ reason, committed reason .add = false ∧ answer = .error reason ∧ ledger' = ledger
  | .fromAddress address, ledger, answer, ledger' =>
      match ledger.payloads address with
      | some payload =>
          answer = .ok ⟨address, payload.length, payload.length⟩ ∧ ledger' = ledger.read address
      | none => ∃ reason, answer = .error reason ∧ ledger' = ledger
  | .allocate payloadLen, ledger, answer, ledger' =>
      (∃ reason, answer = .error reason ∧ ledger' = ledger) ∨
        ∃ address, address < 2 ^ 64 ∧ address ∉ ledger.held ∧
          answer = .ok ⟨address, payloadLen, 0⟩ ∧ ledger' = ledger.draft address payloadLen
  | .output message, ledger, answer, ledger' =>
      answer.length = message.payloadLen ∧ ledger' = ledger
  | .bytes message, ledger, answer, ledger' =>
      some answer = ledger.payloads message.payload ∧ ledger' = ledger.read message.payload
  | .free message, ledger, _, ledger' => ledger' = ledger.release message
  | _, ledger, _, ledger' => ledger' = ledger

/-! ## One message -/

section Steps

variable {ledger mid : Ledger} {message : MsgBuf} {payload : Bytes}
  {stop : Stop Error → Ledger → Prop}

theorem Ledger.Beside.refl : ledger.Beside ledger := ⟨rfl, rfl, rfl, rfl, rfl⟩

theorem Ledger.Beside.trans {last : Ledger} (first : ledger.Beside mid)
    (second : mid.Beside last) : ledger.Beside last :=
  ⟨second.client.trans first.client, second.removals.trans first.removals,
    second.taken.trans first.taken, second.returned.trans first.returned,
    second.queued.trans first.queued⟩

theorem Ledger.read_of_mem {address : Nat} (member : address ∈ ledger.held) :
    ledger.read address = ledger := by
  unfold Ledger.read
  rw [decide_eq_false (not_not.mpr member), Bool.or_false]

theorem Ledger.Holding.mem (holding : ledger.Holding message payload) :
    message.payload ∈ ledger.held := by
  rw [holding.held]
  exact List.mem_cons_self

/-- A held message reads as its payload. -/
theorem readable_of_mem (member : message.payload ∈ ledger.held)
    (found : ledger.payloads message.payload = some payload)
    (initialized : message.payloadLen ≤ message.initializedLen) :
    Readable owning ledger message payload := by
  refine ⟨initialized, fun bytes mid answered => ?_⟩
  obtain ⟨same, rfl⟩ := answered
  exact ⟨Option.some.inj (same.trans found), Ledger.read_of_mem member⟩

theorem Ledger.Holding.readable (holding : ledger.Holding message payload) :
    Readable owning ledger message payload :=
  readable_of_mem holding.mem holding.found
    (Nat.le_of_eq (holding.length.trans holding.initialized.symm))

/-- The id of a message in hand. -/
theorem Ledger.Holding.messageId (holding : ledger.Holding message payload) :
    (messageId message).Ensures owning
      (fun id mid => Api.messageId payload = .ok id ∧ mid = ledger) stop ledger := by
  refine holding.readable.messageId fun reason failed => ?_
  rw [messageId_eq, if_pos holding.id] at failed
  cases failed

/-- What was taken is given back. -/
theorem Ledger.Holding.free (holding : ledger.Holding message payload) :
    (free message).Ensures owning (fun _ mid => mid.Settled ∧ ledger.Beside mid) stop ledger := by
  intro done mid released
  have released : mid = ledger.release message := released
  rw [Ledger.release, if_pos holding.mem] at released
  subst released
  refine ⟨⟨?_, holding.drafts, holding.misread, holding.misreleased⟩, rfl, rfl, rfl, rfl, rfl⟩
  show ledger.held.erase message.payload = ledger.lost
  rw [holding.held, List.erase_cons_head]

end Steps

/-! ## Sending -/

section Sending

variable {ledger : Ledger}

/-- The client's own buffer goes back to the heap. -/
theorem Ledger.Settled.withdraw (settled : ledger.Settled) {address length initialized : Nat}
    (fresh : address ∉ ledger.held) :
    ((ledger.draft address length).release ⟨address, length, initialized⟩).Settled ∧
      ledger.Beside ((ledger.draft address length).release ⟨address, length, initialized⟩) := by
  have other : address ∉ (ledger.draft address length).held := fresh
  have own : address ∈ (ledger.draft address length).drafts := List.mem_cons_self
  rw [Ledger.release, if_neg other, if_pos own]
  refine ⟨⟨settled.held, ?_, settled.misread, settled.misreleased⟩, rfl, rfl, rfl, rfl, rfl⟩
  show (address :: ledger.drafts).erase address = []
  rw [List.erase_cons_head, settled.drafts]

/-- The client's own buffer goes over to the server. -/
theorem Ledger.Settled.commit (settled : ledger.Settled) {address length : Nat} :
    ((ledger.draft address length).commit address).Settled ∧
      ledger.Beside ((ledger.draft address length).commit address) := by
  refine ⟨⟨settled.held, ?_, settled.misread, settled.misreleased⟩, rfl, rfl, rfl, rfl, rfl⟩
  show (address :: ledger.drafts).erase address = []
  rw [List.erase_cons_head, settled.drafts]

/-- `send_message` neither takes nor frees a message of the response queue, and it keeps
nothing. -/
theorem sendMessage_settled {Message : Type} [Api Message] (message : Message)
    (settled : ledger.Settled) :
    (sendMessage message).Ensures owning (fun _ mid => mid.Settled ∧ ledger.Beside mid)
      (fun _ mid => mid.Settled ∧ ledger.Beside mid) ledger := by
  have start : ledger.Settled ∧ ledger.Beside ledger := ⟨settled, .refl⟩
  refine ensures_bind.mpr (ensures_mapErr (fun payloadLen measured => ?_) fun _ _ => start)
  refine ensures_perform.mpr fun allocated mid answered => ?_
  obtain ⟨reason, rfl, rfl⟩ | ⟨address, small, fresh, rfl, rfl⟩ := answered
  · exact start
  refine (encode_whole measured fun _ _ => id).bind fun encoded mid answered => ?_
  obtain ⟨rfl, rfl⟩ := answered
  refine ensures_perform.mpr fun self mid answered => ?_
  obtain ⟨rfl, rfl⟩ := answered
  have sent : ((ledger.draft address payloadLen).commit (leNat (leBytes 8 address))).Settled ∧
      ledger.Beside ((ledger.draft address payloadLen).commit (leNat (leBytes 8 address))) := by
    have word : leNat (leBytes 8 address) = address := leNat_leBytes (by omega)
    rw [word]
    exact settled.commit
  refine ensures_perform.mpr fun added mid answered => ?_
  obtain ⟨rfl, rfl⟩ | ⟨reason, kept, rfl, rfl⟩ | ⟨reason, refused, rfl, rfl⟩ := answered
  · exact sent
  · simp only [kept, if_true]
    exact sent
  · simp only [refused, Bool.false_eq_true, if_false]
    refine ensures_perform.mpr fun done mid released => ?_
    obtain rfl := released
    exact settled.withdraw fresh

end Sending

/-! ## Receiving -/

-- What a message is made of does not matter any more.
attribute [local irreducible] sendMessage

section Receiving

variable {ledger : Ledger} {message : MsgBuf} {payload : Bytes} {address : Nat} {α : Type}
  {value : α → Ledger → Prop} {stop : Stop Error → Ledger → Prop}

/-- A message that is freed unread. -/
theorem Ledger.Holding.discard (holding : ledger.Holding message payload) {rest : Unit → Call α}
    (after : ∀ mid : Ledger, mid.Settled → ledger.Beside mid →
      (rest ()).Ensures owning value stop mid) :
    ((Connection.free message).bind rest).Ensures owning value stop ledger :=
  holding.free.bind fun _ mid freed => after mid freed.1 freed.2

/-- A message that is decoded and freed, whatever the decoder says. -/
theorem Ledger.Holding.consume (Message : Type) [Api Message]
    (holding : ledger.Holding message payload) {rest : Except Api.Error Message → Call α}
    (after : ∀ mid : Ledger, mid.Settled → ledger.Beside mid →
      (rest (Api.decode Message payload)).Ensures owning value stop mid) :
    ((Connection.decode Message message).bind fun decoded =>
      (Connection.free message).bind fun _ => rest decoded).Ensures owning value stop ledger := by
  refine (holding.readable.decode Message).bind fun decoded mid answered => ?_
  obtain ⟨rfl, rfl⟩ := answered
  exact holding.discard after

/-- What a waiting call does with a message: one with another id than expected is given back, the
expected one is decoded first. -/
theorem Ledger.Holding.reply (Reply : Type) [Api Reply] (holding : ledger.Holding message payload)
    {expected : UInt16} {ignored : UInt16 → Call α} {rest : Except Api.Error Reply → Call α}
    (ignores : ∀ id (mid : Ledger), mid.Settled → (ignored id).Ensures owning value stop mid)
    (goes : ∀ decoded (mid : Ledger), mid.Settled →
      (rest decoded).Ensures owning value stop mid) :
    ((Connection.messageId message).bind fun id =>
      if id ≠ expected then (Connection.free message).bind fun _ => ignored id
      else (Connection.decode Reply message).bind fun decoded =>
        (Connection.free message).bind fun _ => rest decoded).Ensures owning value stop
          ledger := by
  refine holding.messageId.bind fun id last answered => ?_
  obtain ⟨-, rfl⟩ := answered
  split
  · exact holding.discard fun mid settled _ => ignores id mid settled
  · exact holding.consume Reply fun mid settled _ => goes _ mid settled

/-- A message with an id, removed without a complaint, is in hand. -/
theorem Ledger.Settled.remove (settled : ledger.Settled) (long : 2 ≤ payload.length) :
    (ledger.remove address payload none).Holding ⟨address, payload.length, payload.length⟩
      payload := by
  have sound : (⟨address, payload, none⟩ : Removal).Sound := ⟨rfl, long⟩
  have same : (ledger.remove address payload none).lost = ledger.lost := by
    unfold Ledger.lost Ledger.remove
    rw [List.filter_cons_of_neg (by simpa using sound)]
  refine ⟨?_, settled.drafts, settled.misread, settled.misreleased, ?_, rfl, rfl, long⟩
  · rw [same, ← settled.held]
    rfl
  · exact Function.update_self ..

/-- Any other removed message is lost. -/
theorem Ledger.Settled.lose (settled : ledger.Settled) {reported : Option SvmQueueError}
    (unsound : ¬ (⟨address, payload, reported⟩ : Removal).Sound) :
    (ledger.remove address payload reported).Settled := by
  have more : (ledger.remove address payload reported).lost = address :: ledger.lost := by
    unfold Ledger.lost Ledger.remove
    rw [List.filter_cons_of_pos (by simpa using unsound)]
    rfl
  refine ⟨?_, settled.drafts, settled.misread, settled.misreleased⟩
  rw [more, ← settled.held]
  rfl

/-- A removal that the queue reports as an error. -/
theorem Ledger.Settled.report (settled : ledger.Settled) {reason : SvmQueueError} :
    (ledger.remove address payload (some reason)).Settled :=
  settled.lose fun sound => (by cases sound.1)

theorem Ledger.Settled.dangle (settled : ledger.Settled) : (ledger.dangle address).Settled :=
  ⟨settled.held, settled.drafts, settled.misread, settled.misreleased⟩

/-- An address that names no message is an error. -/
theorem ensures_accept_dangling (self : Client) {value : Option MsgBuf → Ledger → Prop}
    (small : address < 2 ^ 64) (stops : ∀ reason, stop (.error reason) (ledger.dangle address)) :
    (accept self (leBytes 8 address)).Ensures owning value stop (ledger.dangle address) := by
  have word : leNat (leBytes 8 address) = address := leNat_leBytes (by omega)
  have nothing : (ledger.dangle address).payloads address = none := Function.update_self ..
  unfold accept
  rw [word]
  refine ensures_perform.mpr fun named mid answered => ?_
  simp only [owning, nothing] at answered
  obtain ⟨reason, rfl, rfl⟩ := answered
  exact stops _

/-- What `receive` makes of a message with an id. -/
def dispatch (self : Client) (message : MsgBuf) (id : UInt16) : Call (Option MsgBuf) :=
  if self.handleKeepalives ∧ some id = self.messageId (Api.nameCrc MemclntKeepalive) then do
    answerKeepalive self message
    pure none
  else pure (some message)

/-- A removed message is dispatched by its id. Without an id it is neither handed on nor freed. -/
theorem ensures_accept (self : Client) {value : Option MsgBuf → Ledger → Prop}
    (small : address < 2 ^ 64) (settled : ledger.Settled)
    (dispatched : ∀ id, Api.messageId payload = .ok id →
      (ledger.remove address payload none).Holding ⟨address, payload.length, payload.length⟩
        payload →
      (dispatch self ⟨address, payload.length, payload.length⟩ id).Ensures owning value stop
        (ledger.remove address payload none))
    (short : payload.length < 2 → ∀ reason,
      stop (.error reason) (ledger.remove address payload none)) :
    (accept self (leBytes 8 address)).Ensures owning value stop
      (ledger.remove address payload none) := by
  have word : leNat (leBytes 8 address) = address := leNat_leBytes (by omega)
  have found : (ledger.remove address payload none).payloads address = some payload :=
    Function.update_self ..
  have member : address ∈ (ledger.remove address payload none).held := List.mem_cons_self
  unfold accept
  rw [word]
  refine ensures_perform.mpr fun named mid answered => ?_
  simp only [owning, found] at answered
  obtain ⟨rfl, rfl⟩ := answered
  rw [Ledger.read_of_mem member]
  by_cases long : 2 ≤ payload.length
  · have holding : (ledger.remove address payload none).Holding
        ⟨address, payload.length, payload.length⟩ payload := settled.remove long
    refine holding.messageId.bind fun id mid answered => ?_
    obtain ⟨named, rfl⟩ := answered
    exact dispatched id named holding
  · have reading : (messageId ⟨address, payload.length, payload.length⟩).Ensures owning
        (fun _ _ => False) stop (ledger.remove address payload none) := by
      have readable : Readable owning (ledger.remove address payload none)
          ⟨address, payload.length, payload.length⟩ payload :=
        readable_of_mem member found (Nat.le_refl _)
      refine (readable.messageId fun _ _ => short (Nat.lt_of_not_le long) _).mono
        (fun id mid named => ?_) fun _ _ => id
      have named := named.1
      rw [messageId_eq, if_neg long] at named
      cases named
    exact reading.bind fun _ _ => False.elim

/-- Induction on the passes of the loop: `between` holds between two of them. -/
theorem ensures_receive (deadline fuel : Nat) {between : Ledger → Prop}
    {received : Option MsgBuf → Ledger → Prop}
    (nothing : ∀ mid, between mid → received none mid)
    (stops : ∀ end_ mid, between mid → stop end_ mid)
    (reports : ∀ address payload reason mid, between mid →
      stop (.error (.queue reason)) (mid.remove address payload (some reason)))
    (dangles : ∀ address reason mid, between mid → stop (.error reason) (mid.dangle address))
    (accepts : ∀ address payload mid, between mid → address < 2 ^ 64 →
      (accept mid.client (leBytes 8 address)).Ensures owning
        (fun taken last => match taken with
          | some message => received (some message) last
          | none => between last)
        stop (mid.remove address payload none))
    (start : between ledger) :
    (receive deadline fuel).Ensures owning received stop ledger := by
  induction fuel generalizing ledger with
  | zero => exact stops _ _ start
  | succ fuel ih =>
      refine ensures_perform.mpr fun self mid answered => ?_
      obtain ⟨rfl, rfl⟩ := answered
      refine ensures_perform.mpr fun taken last answered => ?_
      obtain ⟨reason, refused, rfl, rfl⟩ | ⟨address, reported, small, named, left⟩ := answered
      · cases reason with
        | empty =>
            refine ensures_perform.mpr fun instant last answered => ?_
            obtain rfl := answered
            split
            · exact nothing _ start
            · refine ensures_perform.mpr fun resumed last answered => ?_
              obtain rfl := answered
              cases resumed with
              | true => exact ih start
              | false => exact stops _ _ start
        | _ => exact stops _ _ start
      · cases reported with
        | none =>
            obtain rfl := named
            obtain rfl | ⟨payload, rfl⟩ := left
            · exact Ensures.bind (ensures_accept_dangling _ small
                fun reason => dangles _ reason _ start) fun _ _ => False.elim
            · refine (accepts address payload _ start small).bind fun taken last after => ?_
              cases taken with
              | none => exact ih after
              | some message => exact after
        | some reason =>
            obtain ⟨kept, rfl⟩ := named
            have stopped : stop (.error (.queue reason)) last := by
              obtain rfl | ⟨payload, rfl⟩ := left
              · exact dangles _ _ _ start
              · exact reports _ _ _ _ start
            cases reason with
            | empty => cases kept
            | _ => exact stopped

/-- A keepalive is freed before it is answered. -/
theorem answerKeepalive_settled (self : Client) (holding : ledger.Holding message payload) :
    (answerKeepalive self message).Ensures owning (fun _ => Ledger.Settled)
      (fun _ => Ledger.Settled) ledger := by
  refine holding.consume MemclntKeepalive fun mid settled _ => ?_
  refine ensures_bind.mpr (ensures_mapErr (fun request _ => ?_) fun _ _ => settled)
  refine ensures_bind.mpr (ensures_okOr (fun replyId _ => ?_) fun _ => settled)
  exact (sendMessage_settled _ settled).mono (fun _ _ sent => sent.1) fun _ _ sent => sent.1

/-- What `receive` leaves behind. -/
def Ledger.Received (ledger : Ledger) : Option MsgBuf → Prop
  | none => ledger.Settled
  | some message => ∃ payload, ledger.Holding message payload

theorem receive_received (deadline fuel : Nat) (settled : ledger.Settled) :
    (receive deadline fuel).Ensures owning (fun received mid => mid.Received received)
      (fun _ => Ledger.Settled) ledger := by
  refine ensures_receive deadline fuel (fun _ => id) (fun _ _ => id)
    (fun _ _ _ _ settled => settled.report) (fun _ _ _ settled => settled.dangle)
    (fun address payload mid settled small => ?_) settled
  refine ensures_accept _ small settled (fun id _ holding => ?_) fun short _ => ?_
  · unfold dispatch
    split
    · exact (answerKeepalive_settled _ holding).bind fun _ _ settled => settled
    · exact ⟨payload, holding⟩
  · exact settled.lose fun sound => Nat.not_lt.mpr sound.2 short

end Receiving

/-! ## The calls -/

section Calls

variable {ledger : Ledger}

theorem Ledger.Settled.store (settled : ledger.Settled) (client : Client) :
    Ledger.Settled { ledger with client := client } :=
  ⟨settled.held, settled.drafts, settled.misread, settled.misreleased⟩

/-- A table read out of a freed buffer crosses it and is misuse. -/
theorem Ledger.Settled.inspect (settled : ledger.Settled) (address count : Nat) :
    (ledger.inspect address count).Settled := by
  refine ⟨settled.held, settled.drafts, ?_, settled.misreleased⟩
  unfold Ledger.inspect
  rw [settled.misread]

theorem nextContext_settled (settled : ledger.Settled) :
    nextContext.Ensures owning (fun _ => Ledger.Settled) (fun _ => Ledger.Settled) ledger := by
  refine ensures_perform.mpr fun self mid answered => ?_
  obtain ⟨rfl, rfl⟩ := answered
  refine ensures_perform.mpr fun done last answered => ?_
  obtain rfl := answered
  exact ⟨settled.held, settled.drafts, settled.misread, settled.misreleased⟩

theorem sent_settled {Message : Type} [Api Message] (message : Message)
    (settled : ledger.Settled) :
    (sendMessage message).Ensures owning (fun _ => Ledger.Settled) (fun _ => Ledger.Settled)
      ledger :=
  (sendMessage_settled message settled).mono (fun _ _ sent => sent.1) fun _ _ sent => sent.1

theorem invoke_settled {Request : Type} (Reply : Type) [Api Request] [Api Reply] (fuel : Nat)
    (request : Request) (settled : ledger.Settled) :
    (invoke Reply fuel request).Ensures owning (fun _ => Ledger.Settled)
      (fun _ => Ledger.Settled) ledger := by
  refine ensures_invoke_of fun self mid answered => ?_
  obtain ⟨rfl, rfl⟩ := answered
  refine ⟨fun _ => settled, fun clientIndex service requestId replyId _ => ?_⟩
  refine (nextContext_settled settled).bind fun context mid settled => ?_
  refine (sent_settled _ settled).bind fun _ mid settled => ?_
  refine ensures_perform.mpr fun instant last answered => ?_
  obtain rfl := answered
  refine (receive_received _ fuel settled).bind fun received mid settled => ?_
  cases received with
  | none => exact settled
  | some message =>
      obtain ⟨payload, holding⟩ := settled
      refine holding.reply Reply (fun _ _ settled => settled) fun decoded mid settled => ?_
      refine ensures_bind.mpr (ensures_mapErr (fun reply _ => ?_) fun _ _ => settled)
      split
      · split <;> exact settled
      · exact settled

/-- Only the queue's own memory goes back to the heap. -/
theorem releaseQueue_settled (settled : ledger.Settled) :
    releaseQueue.Ensures owning (fun _ => Ledger.Settled) (fun _ => Ledger.Settled) ledger := by
  refine ensures_perform.mpr fun self mid answered => ?_
  obtain ⟨rfl, rfl⟩ := answered
  split
  · exact settled
  · refine ensures_perform.mpr fun done cleaned answered => ?_
    have same : cleaned = mid := answered
    intro done last answered
    obtain rfl := answered
    rw [same]
    exact ⟨settled.held, settled.drafts, settled.misread, settled.misreleased⟩

/-- Induction on the passes of the loop. -/
theorem awaitDeleteReply_settled (clientIndex : UInt32) (deleteReplyId : UInt16)
    (deadline fuel : Nat) (settled : ledger.Settled) :
    (awaitDeleteReply clientIndex deleteReplyId deadline fuel).Ensures owning
      (fun _ => Ledger.Settled) (fun _ => Ledger.Settled) ledger := by
  induction fuel generalizing ledger with
  | zero => exact settled
  | succ fuel ih =>
      refine (receive_received _ _ settled).bind fun received mid settled => ?_
      cases received with
      | none => exact settled
      | some message =>
          obtain ⟨payload, holding⟩ := settled
          refine holding.reply MemclntDeleteReply (fun _ _ settled => ih settled)
            fun decoded mid settled => ?_
          refine ensures_bind.mpr (ensures_mapErr (fun reply _ => ?_) fun _ _ => settled)
          split <;> exact settled

theorem disconnect_settled (fuel : Nat) (settled : ledger.Settled) :
    (disconnect fuel).Ensures owning (fun _ => Ledger.Settled) (fun _ => Ledger.Settled)
      ledger := by
  refine ensures_perform.mpr fun self mid answered => ?_
  obtain ⟨rfl, rfl⟩ := answered
  refine ensures_bind.mpr (ensures_okOr (fun clientIndex _ => ?_) fun _ => settled)
  refine ensures_bind.mpr (ensures_okOr (fun deleteId _ => ?_) fun _ => settled)
  refine ensures_bind.mpr (ensures_okOr (fun deleteReplyId _ => ?_) fun _ => settled)
  refine (sent_settled _ settled).bind fun _ mid settled => ?_
  refine ensures_perform.mpr fun instant last answered => ?_
  obtain rfl := answered
  refine (awaitDeleteReply_settled _ _ _ fuel settled).bind fun _ mid settled => ?_
  refine ensures_perform.mpr fun self last answered => ?_
  obtain ⟨rfl, rfl⟩ := answered
  refine ensures_perform.mpr fun done final answered => ?_
  obtain rfl := answered
  exact releaseQueue_settled
    ⟨settled.held, settled.drafts, settled.misread, settled.misreleased⟩

theorem Invocation.settled (fuel : Nat) (settled : ledger.Settled) (invocation : Invocation) :
    (invocation.run fuel).Ensures owning (fun _ => Ledger.Settled) (fun _ => Ledger.Settled)
      ledger := by
  cases invocation with
  | invoke Reply request =>
      exact (invoke_settled Reply fuel request settled).bind fun _ _ settled => settled
  | disconnect => exact disconnect_settled fuel settled

/-- Induction on the calls. -/
theorem Ledger.Settled.session {ledger' : Ledger} (settled : ledger.Settled)
    (session : Session owning ledger ledger') : ledger'.Settled := by
  induction session with
  | refl => exact settled
  | tail _ next ih =>
      obtain ⟨fuel, invocation, out, run⟩ := next
      exact (Invocation.settled fuel ih invocation).always run

/-! ### Opening the connection -/

/-- Waiting changes nothing. -/
theorem ensures_waits {α : Type} {call : Call α} (uses : call.Uses Op.Waits) :
    call.Ensures owning (fun _ mid => mid = ledger) (fun _ mid => mid = ledger) ledger := by
  refine uses.ensures (fun op before answer after waits same answered => ?_) rfl
  cases op <;> first | exact answered.trans same | exact absurd waits not_false

theorem ensures_waits_settled {α : Type} {call : Call α} (uses : call.Uses Op.Waits)
    (settled : ledger.Settled) :
    call.Ensures owning (fun _ => Ledger.Settled) (fun _ => Ledger.Settled) ledger :=
  (ensures_waits uses).mono (fun _ _ same => same ▸ settled) fun _ _ same => same ▸ settled

theorem allocateClientQueue_settled (responseQueueSize : UInt32) (settled : ledger.Settled) :
    (allocateClientQueue responseQueueSize).Ensures owning (fun _ => Ledger.Settled)
      (fun _ => Ledger.Settled) ledger := by
  refine ensures_bind.mpr (ensures_mapErr (fun bytes _ => ?_) fun _ _ => settled)
  split
  · exact settled
  refine ensures_perform.mpr fun allocated mid answered => ?_
  obtain ⟨rfl, rfl⟩ | ⟨address, rfl, rfl⟩ := answered
  · exact settled
  refine ensures_perform.mpr fun created last answered => ?_
  obtain rfl := answered
  cases created with
  | ok done => exact ⟨settled.held, settled.drafts, settled.misread, settled.misreleased⟩
  | error source =>
      refine ensures_perform.mpr fun done last answered => ?_
      obtain rfl := answered
      exact ⟨settled.held, settled.drafts, settled.misread, settled.misreleased⟩

/-- Induction on the passes of the loop. -/
theorem awaitCreateReply_settled (path : String) (deadline fuel : Nat)
    (settled : ledger.Settled) :
    (awaitCreateReply path deadline fuel).Ensures owning (fun _ => Ledger.Settled)
      (fun _ => Ledger.Settled) ledger := by
  induction fuel generalizing ledger with
  | zero => exact settled
  | succ fuel ih =>
      refine (receive_received _ _ settled).bind fun received mid settled => ?_
      cases received with
      | none => exact settled
      | some message =>
          obtain ⟨payload, holding⟩ := settled
          exact holding.reply MemclntCreateV2Reply (fun _ _ settled => ih settled)
            fun _ mid settled => ensures_mapErr (fun _ _ => settled) fun _ _ => settled

theorem connect_settled (fuel : Nat) (name path : String) (responseQueueSize : UInt32)
    (handleKeepalives : Bool) (settled : ledger.Settled) :
    (connect fuel name path responseQueueSize handleKeepalives).Ensures owning
      (fun _ => Ledger.Settled) (fun _ => Ledger.Settled) ledger := by
  refine (ensures_waits_settled uses_now settled).bind fun instant mid settled => ?_
  refine (ensures_waits_settled (uses_awaitRegion path _ fuel) settled).bind
    fun _ mid settled => ?_
  refine (ensures_waits_settled (uses_awaitHeader path _ fuel) settled).bind
    fun header mid settled => ?_
  refine ensures_perform.mpr fun validated last answered => ?_
  obtain rfl := answered
  refine ensures_bind.mpr (ensures_mapErr (fun _ _ => ?_) fun _ _ => settled)
  refine (allocateClientQueue_settled responseQueueSize settled).bind fun queue mid settled => ?_
  refine ensures_perform.mpr fun done last answered => ?_
  obtain rfl := answered
  have stored := sent_settled (createRequest queue name handleKeepalives)
    (settled.store ⟨header, queue, none, [], 0, handleKeepalives⟩)
  refine stored.bind fun _ mid settled => ?_
  refine (awaitCreateReply_settled path _ fuel settled).bind fun reply mid settled => ?_
  split
  · exact (releaseQueue_settled settled).bind fun _ _ settled => settled
  refine ensures_perform.mpr fun remaining last answered => ?_
  obtain ⟨rfl, rfl⟩ | ⟨table, rfl, rfl⟩ := answered
  · exact settled
  have inspected : (mid.inspect reply.messageTable.toNat (tableLength table)).Settled :=
    settled.inspect _ _
  refine ensures_bind.mpr (ensures_okOr (fun found _ => ?_) fun _ => inspected)
  refine ensures_bind.mpr (ensures_mapErr (fun messageIds _ => ?_) fun _ _ => inspected)
  refine ensures_perform.mpr fun self last answered => ?_
  obtain ⟨rfl, rfl⟩ := answered
  intro done last answered
  obtain rfl := answered
  exact ⟨inspected.held, inspected.drafts, inspected.misread, inspected.misreleased⟩

end Calls

/-! ## Every run -/

/-- Nothing has happened yet. -/
def Ledger.fresh (client : Client) (payloads : Nat → Option Bytes) : Ledger :=
  { client := client, payloads := payloads, held := [], drafts := [], sent := [], removals := []
    freed := [], taken := [], returned := [], queued := false, crossed := false, misread := false
    misreleased := false }

theorem Ledger.settled_fresh (client : Client) (payloads : Nat → Option Bytes) :
    (Ledger.fresh client payloads).Settled := ⟨rfl, rfl, rfl, rfl⟩

/-- Between two calls the ledger is clean exactly when every removal was sound. -/
theorem Ledger.Settled.clean_iff {ledger : Ledger} (settled : ledger.Settled) :
    ledger.Clean ↔ ledger.Sound := by
  unfold Ledger.Clean Ledger.Sound
  rw [settled.held, settled.misread, Ledger.lost, List.map_eq_nil_iff, List.filter_eq_nil_iff]
  constructor
  · intro ⟨lost, crossed, _⟩
    exact ⟨fun removal member => by simpa using lost removal member, crossed⟩
  · intro ⟨sound, crossed⟩
    exact ⟨fun removal member => by simpa using sound removal member, crossed,
      settled.misreleased⟩

/-- **Ownership of received messages.** After `connect` and any calls, each of which may fail or
be dropped, every buffer that was removed has been freed once and none was used afterwards, if and
only if every removal was sound and no message table lay in a freed buffer. -/
theorem clean_iff_sound {client : Client} {payloads : Nat → Option Bytes} {fuel : Nat}
    {name path : String} {responseQueueSize : UInt32} {handleKeepalives : Bool}
    {out : Outcome Error Unit} {ledger ledger' : Ledger}
    (opened : (connect fuel name path responseQueueSize handleKeepalives).Runs owning
      (.fresh client payloads) out ledger)
    (session : Session owning ledger ledger') : ledger'.Clean ↔ ledger'.Sound :=
  have start := (connect_settled fuel name path responseQueueSize handleKeepalives
    (Ledger.settled_fresh client payloads)).always opened
  (start.session session).clean_iff

/-! ## One message and no other -/

/-- A region where the server has enqueued one payload, and where every addition is answered
alike. -/
def desk (payload : Bytes) (added : Except SvmQueueError Unit) : Device Op Op.Ret Ledger :=
  fun op ledger =>
    match op with
    | .load => some (ledger.client, ledger)
    | .store client => some ((), { ledger with client := client })
    | .now => some (0, ledger)
    | .sleep => some (true, ledger)
    | .attach _ => some (.ok (), ledger)
    | .userContext => some (some 4096, ledger)
    | .validate _ => some (.ok (), ledger)
    | .remainingFrom _ => some (none, ledger)
    | .allocateZeroed size align => some (some 8192, { ledger.reuse 8192 size with
        taken := ⟨8192, size, align⟩ :: ledger.taken })
    | .deallocate address size align => some ((), { ledger with
        returned := ⟨address, size, align⟩ :: ledger.returned })
    | .init _ _ => some (.ok (), { ledger with queued := true })
    | .cleanup _ => some ((), ledger)
    | .sub _ => some (.ok (leBytes 8 16384), ledger.remove 16384 payload none)
    | .add _ element =>
        match added with
        | .ok () => some (.ok (), ledger.commit (leNat element))
        | .error source => if committed source .add then none else some (.error source, ledger)
    | .fromAddress address =>
        (ledger.payloads address).map fun payload =>
          (.ok ⟨address, payload.length, payload.length⟩, ledger.read address)
    | .allocate payloadLen =>
        if 32768 ∈ ledger.held then none
        else some (.ok ⟨32768, payloadLen, 0⟩, ledger.draft 32768 payloadLen)
    | .output message => some (List.replicate message.payloadLen 0, ledger)
    | .fill _ _ => some ((), ledger)
    | .bytes message =>
        (ledger.payloads message.payload).map
          fun payload => (payload, ledger.read message.payload)
    | .free message => some ((), ledger.release message)

theorem desk_sound (payload : Bytes) (added : Except SvmQueueError Unit) (op : Op)
    (ledger : Ledger) (answer : op.Ret) (ledger' : Ledger)
    (answered : desk payload added op ledger = some (answer, ledger')) :
    owning op ledger answer ledger' := by
  cases op with
  | load =>
      cases answered
      exact ⟨rfl, rfl⟩
  | remainingFrom address =>
      cases answered
      exact .inl ⟨rfl, rfl⟩
  | allocateZeroed size align =>
      cases answered
      exact .inr ⟨8192, rfl, rfl⟩
  | init address config =>
      cases answered
      simp only [owning, Except.toBool, Bool.or_true]
  | sub queue =>
      cases answered
      exact .inr ⟨16384, none, by omega, rfl, .inr ⟨payload, rfl⟩⟩
  | add header element =>
      cases added with
      | ok done =>
          cases answered
          exact .inl ⟨rfl, rfl⟩
      | error source =>
          simp only [desk] at answered
          split at answered
          · cases answered
          · next refused =>
              cases answered
              exact .inr (.inr ⟨source, Bool.eq_false_iff.mpr refused, rfl, rfl⟩)
  | fromAddress address =>
      cases found : ledger.payloads address with
      | none =>
          simp only [desk, found, Option.map_none] at answered
          cases answered
      | some payload =>
          simp only [desk, found, Option.map_some] at answered
          cases answered
          simp only [owning, found, and_self]
  | allocate payloadLen =>
      simp only [desk] at answered
      split at answered
      · cases answered
      · next fresh =>
          cases answered
          exact .inr ⟨32768, by omega, fresh, rfl, rfl⟩
  | output message =>
      cases answered
      exact ⟨List.length_replicate .., rfl⟩
  | bytes message =>
      cases found : ledger.payloads message.payload with
      | none =>
          simp only [desk, found, Option.map_none] at answered
          cases answered
      | some payload =>
          simp only [desk, found, Option.map_some] at answered
          cases answered
          exact ⟨found.symm, rfl⟩
  | _ =>
      cases answered
      rfl

/-- A run on the desk that ends in an error. -/
theorem runs_of_desk {payload : Bytes} {added : Except SvmQueueError Unit} {call : Call Unit}
    {ledger : Ledger} {reason : Error}
    (failed : (call.exec (desk payload added) ledger).1 = .error reason) :
    call.Runs owning ledger (.error reason) (call.exec (desk payload added) ledger).2 :=
  runs_of_exec (desk_sound payload added) (Prod.ext failed rfl) fun same => (by cases same)

/-- A reply to `memclnt_create_v2` that rejects it. -/
def rejection : Bytes :=
  beBytes 2 26 ++ beBytes 4 0 ++ beBytes 4 (2 ^ 32 - 1) ++ beBytes 8 0 ++ beBytes 4 7 ++
    beBytes 8 64

/-- The call of a client that finds `payload` in its queue. -/
def attempted (payload : Bytes) (added : Except SvmQueueError Unit) :
    Outcome Error Unit × Ledger :=
  (connect 2 "cli" "/dev/shm/api" 16 false).exec (desk payload added) (.fresh blank fun _ => none)

/-- The client takes the rejection and gives its queue back. -/
theorem attempted_rejection :
    (attempted rejection (.ok ())).1 = .error (.createRejected (-1)) ∧
      (attempted rejection (.ok ())).2.removals = [⟨16384, rejection, none⟩] ∧
      (attempted rejection (.ok ())).2.crossed = false ∧
      (attempted rejection (.ok ())).2.taken ≠ [] := by
  decide +kernel

/-- The rejecting reply is freed. -/
theorem clean_iff_sound_rejected :
    ∃ ledger' : Ledger, ledger'.removals ≠ [] ∧ ledger'.Clean := by
  obtain ⟨failed, removals, crossed, -⟩ := attempted_rejection
  have sound : ∀ removal ∈ (attempted rejection (.ok ())).2.removals, removal.Sound := by
    rw [removals]
    decide
  refine ⟨(attempted rejection (.ok ())).2, ?_, ?_⟩
  · rw [removals]
    exact List.cons_ne_nil _ _
  · exact (clean_iff_sound (runs_of_desk failed) .refl).mpr ⟨sound, crossed⟩

/-- A message of one byte is never freed. -/
theorem short_not_clean :
    ¬ ∀ (client : Client) (payloads : Nat → Option Bytes) (fuel : Nat) (name path : String)
      (responseQueueSize : UInt32) (handleKeepalives : Bool) (out : Outcome Error Unit)
      (ledger ledger' : Ledger),
      (connect fuel name path responseQueueSize handleKeepalives).Runs owning
        (.fresh client payloads) out ledger →
      Session owning ledger ledger' → ledger'.Clean := by
  intro always
  have ended : (attempted [7] (.ok ())).1 = .error (.codec (.custom "truncated API message")) ∧
      (attempted [7] (.ok ())).2.held = [16384] := by decide +kernel
  obtain ⟨failed, held⟩ := ended
  have clean := always _ _ _ _ _ _ _ _ _ _ (runs_of_desk failed) .refl
  exact List.cons_ne_nil _ _ (held.symm.trans clean.1)

end Netsystem.Connection
