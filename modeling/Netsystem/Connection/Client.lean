import Netsystem.Api.Message
import Netsystem.Api.Table
import Netsystem.Shmem.Queue

/-!
# The connection

`hammer-binary-api-client/src/client.rs` as programs over what one client does to the world: calls
on its two queues and on the Data Heap, the methods of `MsgBuf`, its clock, and loads and stores
of its own fields. A duration is a number of nanoseconds.

A future is suspended only by `tokio::time::sleep`. There it may be dropped, and the call is then
abandoned (`pending`); the loops take a bound on their passes and are abandoned when it is spent.
The region, the process id of the consumer and the overflow of `Instant` are left out.
-/

namespace Netsystem.Connection

open Netsystem.Api Netsystem.Shmem

/-! ## Errors -/

/-- `std::io::ErrorKind`, as far as it is looked at. -/
inductive ErrorKind : Type where
  | notFound | wouldBlock | other
  deriving DecidableEq, Repr

inductive SvmRegionError : Type where
  | opening (path : String) (source : ErrorKind)
  | backingMetadata (source : ErrorKind)
  | notReady
  | unsupportedVersion (found expected : Nat)
  | virtualBaseMismatch (found expected : Nat)
  | virtualSizeMismatch (mapped declared : Nat)
  | invalidFlags (bits : Nat)
  | missingDataHeap
  | pvtHeapLayout
  | dataHeapLayout
  | fixedMapping (base size : Nat) (source : ErrorKind)
  | addressRangeOccupied (base size : Nat)
  | unmapping (base size : Nat) (source : ErrorKind)
  deriving DecidableEq, Repr

inductive MemoryError : Type where
  | invalidHeader
  | unsupportedVersion (found expected : Nat)
  | elementSizeMismatch (requested stored : Nat)
  | queue (source : SvmQueueError)
  | allocationFailed (bytes : Nat)
  | codec (source : Api.Error)
  deriving DecidableEq, Repr

inductive Error : Type where
  | alreadyConnected
  | notConnected
  | connectTimeout (path : String)
  | region (source : SvmRegionError)
  | memory (source : MemoryError)
  | queue (source : SvmQueueError)
  | codec (source : Api.Error)
  | createRejected (response : Int32)
  | messageUnavailable (nameCrc : String)
  | requestHasNoReply
  | replyTypeMismatch (expected actual : String)
  | responseTimeout (context : UInt32)
  | unexpectedMessage (id expected : UInt16)
  | contextMismatch (expected received : UInt32)
  | disconnectTimeout (clientIndex : UInt32)
  deriving DecidableEq

/-! ## State and operations -/

def connectTimeout : Nat := 10 * 10 ^ 9

def disconnectTimeout : Nat := 2 * 10 ^ 9

/-- A message in shared memory: the address of its payload and two lengths. -/
structure MsgBuf : Type where
  payload : Nat
  payloadLen : Nat
  initializedLen : Nat
  deriving DecidableEq, Repr

/-- The response queue: its address and the words of its header that never change. -/
structure InputQueue : Type where
  address : Nat
  header : SvmQueue
  deriving DecidableEq, Repr

/-- `Client`; `header` is the address of the shared API header, and of two entries of
`messageIds` with one name the later counts. -/
structure Client : Type where
  header : Nat
  inputQueue : InputQueue
  clientIndex : Option UInt32
  messageIds : List (String × UInt16)
  contextCounter : UInt32
  handleKeepalives : Bool
  deriving DecidableEq

/-- `Client::message_id`. -/
def Client.messageId (client : Client) (nameCrc : String) : Option UInt16 :=
  client.messageIds.reverse.lookup nameCrc

/-- `attach`, `userContext` and `validate` are `SvmRegion::attach`, `SvmRegion::user_context` and
`ShmemHeader::validate`; `output` and `fill` are the two halves of the write of `MsgBuf::encode`,
and `bytes` is the read of `MsgBuf::as_bytes`. -/
inductive Op : Type where
  | load
  | store (client : Client)
  | now
  | sleep
  | attach (path : String)
  | userContext
  | validate (header : Nat)
  | remainingFrom (address : Nat)
  | allocateZeroed (size align : Nat)
  | deallocate (address size align : Nat)
  | init (address : Nat) (config : SvmQueueConfig)
  | cleanup (queue : InputQueue)
  | sub (queue : InputQueue)
  | add (header : Nat) (element : Bytes)
  | fromAddress (address : Nat)
  | allocate (payloadLen : Nat)
  | output (message : MsgBuf)
  | fill (message : MsgBuf) (output : Bytes)
  | bytes (message : MsgBuf)
  | free (message : MsgBuf)

abbrev Op.Ret : Op → Type
  | .load => Client
  | .store _ => Unit
  | .now => Nat
  | .sleep => Bool
  | .attach _ => Except SvmRegionError Unit
  | .userContext => Option Nat
  | .validate _ => Except MemoryError Unit
  | .remainingFrom _ => Option Bytes
  | .allocateZeroed _ _ => Option Nat
  | .deallocate _ _ _ => Unit
  | .init _ _ => Except SvmQueueError Unit
  | .cleanup _ => Unit
  | .sub _ => Except SvmQueueError Bytes
  | .add _ _ => Except SvmQueueError Unit
  | .fromAddress _ => Except MemoryError MsgBuf
  | .allocate _ => Except MemoryError MsgBuf
  | .output _ => Bytes
  | .fill _ _ => Unit
  | .bytes _ => Bytes
  | .free _ => Unit

abbrev Call (α : Type) : Type := Prog Op Op.Ret Error α

/-! One operation each, at the type of its answer. -/

def load : Call Client := Prog.perform Op.load

def store (client : Client) : Call Unit := Prog.perform (Op.store client)

def now : Call Nat := Prog.perform Op.now

/-- `tokio::time::sleep`: the future is polled again, or it has been dropped. -/
def sleep : Call Unit := do
  if ← Prog.perform Op.sleep then pure () else .pending

def free (message : MsgBuf) : Call Unit := Prog.perform (Op.free message)

/-- `ok_or`. -/
def okOr {α : Type} (value : Option α) (reason : Error) : Call α :=
  match value with
  | some value => pure value
  | none => .throw reason

/-- `map_err` and `?`. -/
def mapErr {α ε : Type} (result : Except ε α) (wrap : ε → Error) : Call α :=
  match result with
  | .ok value => pure value
  | .error source => .throw (wrap source)

section Rules

variable {σ α ε : Type} {handler : Prog.Handler Op Op.Ret σ} {value : α → σ → Prop}
  {stop : Stop Error → σ → Prop} {s : σ} {allowed : Op → Prop}

theorem ensures_okOr {option : Option α} {reason : Error}
    (values : ∀ result, option = some result → value result s)
    (stops : option = none → stop (.error reason) s) :
    (okOr option reason).Ensures handler value stop s := by
  cases option with
  | some result => exact values result rfl
  | none => exact stops rfl

theorem ensures_mapErr {result : Except ε α} {wrap : ε → Error}
    (values : ∀ success, result = .ok success → value success s)
    (stops : ∀ reason, result = .error reason → stop (.error (wrap reason)) s) :
    (mapErr result wrap).Ensures handler value stop s := by
  cases result with
  | ok success => exact values success rfl
  | error reason => exact stops reason rfl

@[simp] theorem uses_okOr {option : Option α} {reason : Error} :
    (okOr option reason).Uses allowed := by
  cases option <;> exact trivial

@[simp] theorem uses_mapErr {result : Except ε α} {wrap : ε → Error} :
    (mapErr result wrap).Uses allowed := by
  cases result <;> exact trivial

end Rules

/-! ## Messages -/

/-- `MsgBuf::as_bytes`. -/
def asBytes (message : MsgBuf) : Call (Except Api.Error Bytes) :=
  if message.initializedLen < message.payloadLen then
    pure (.error (.custom "API message payload is not initialized"))
  else do
    let bytes ← Prog.perform (Op.bytes message)
    pure (.ok bytes)

/-- `MsgBuf::decode`. -/
def decode (Message : Type) [Api Message] (message : MsgBuf) :
    Call (Except Api.Error Message) := do
  let bytes ← asBytes message
  pure (bytes.bind (Api.decode Message))

/-- The free function `message_id`. -/
def messageId (message : MsgBuf) : Call UInt16 := do
  let bytes ← asBytes message
  mapErr (bytes.bind Api.messageId) .codec

/-- `MsgBuf::encode`: a failed write leaves what it had written. -/
def encode {Message : Type} [Api Message] (allocation : MsgBuf) (value : Message) :
    Call (Except Api.Error MsgBuf) := do
  let output ← Prog.perform (Op.output allocation)
  let encoded := serialize (Api.shape Message) (Api.toVal value) output
  Prog.perform (Op.fill allocation (encoded.2.getD output))
  pure (encoded.1.map fun written =>
    { allocation with initializedLen := max allocation.initializedLen written })

/-- In the state the message is initialized and reads as the payload. -/
structure Readable {σ : Type} (handler : Prog.Handler Op Op.Ret σ) (s : σ) (message : MsgBuf)
    (payload : Bytes) : Prop where
  initialized : message.payloadLen ≤ message.initializedLen
  bytes : ∀ bytes s', handler (.bytes message) s bytes s' → bytes = payload ∧ s' = s

section Reading

variable {σ : Type} {handler : Prog.Handler Op Op.Ret σ} {s : σ} {message : MsgBuf}
  {payload : Bytes} {stop : Stop Error → σ → Prop}

theorem Readable.asBytes (readable : Readable handler s message payload) :
    (asBytes message).Ensures handler (fun bytes s' => bytes = .ok payload ∧ s' = s) stop s := by
  unfold Connection.asBytes
  rw [if_neg (Nat.not_lt.mpr readable.initialized)]
  refine Prog.ensures_perform.mpr fun bytes s' answered => ?_
  obtain ⟨rfl, rfl⟩ := readable.bytes bytes s' answered
  exact ⟨rfl, rfl⟩

theorem Readable.decode (readable : Readable handler s message payload) (Message : Type)
    [Api Message] :
    (decode Message message).Ensures handler
      (fun decoded s' => decoded = Api.decode Message payload ∧ s' = s) stop s := by
  refine readable.asBytes.bind fun bytes s' answered => ?_
  obtain ⟨rfl, rfl⟩ := answered
  exact ⟨rfl, rfl⟩

theorem Readable.messageId (readable : Readable handler s message payload)
    (stops : ∀ reason, Api.messageId payload = .error reason → stop (.error (.codec reason)) s) :
    (messageId message).Ensures handler
      (fun id s' => Api.messageId payload = .ok id ∧ s' = s) stop s := by
  refine readable.asBytes.bind fun bytes s' answered => ?_
  obtain ⟨rfl, rfl⟩ := answered
  exact ensures_mapErr (fun id named => ⟨named, rfl⟩) stops

end Reading

/-! ## Queues -/

/-- `committed`. -/
def committed (source : SvmQueueError) (operation : SvmQueueOperation) : Bool :=
  match source with
  | .signalAfterCommit reported _ => reported = operation
  | .eventSignalAfterCommit reported _ => reported = operation
  | _ => false

/-- `Client::send_message`. -/
def sendMessage {Message : Type} [Api Message] (message : Message) : Call Unit := do
  let payloadLen ← mapErr (serializedLen (Api.shape Message) (Api.toVal message)) .codec
  let allocated ← Prog.perform (Op.allocate payloadLen)
  let allocation ← mapErr allocated .memory
  let encoded ← encode allocation message
  let allocation ← mapErr encoded .codec
  let self ← load
  match ← Prog.perform (Op.add self.header (leBytes 8 allocation.payload)) with
  | .ok () => pure ()
  | .error source =>
      if committed source .add then pure ()
      else do
        free allocation
        .throw (.queue source)

/-- The answer of `receive` to a keepalive. -/
def answerKeepalive (self : Client) (message : MsgBuf) : Call Unit := do
  let decoded ← decode MemclntKeepalive message
  free message
  let request ← mapErr decoded .codec
  let replyId ← okOr (self.messageId (Api.nameCrc MemclntKeepaliveReply))
    (.messageUnavailable (Api.nameCrc MemclntKeepaliveReply))
  sendMessage
    ({ id := replyId, context := request.clientIndex, retval := 0 } : MemclntKeepaliveReply)

/-- What `receive` makes of an address from the queue: a message for its caller, or a keepalive,
which is answered. -/
def accept (self : Client) (address : Bytes) : Call (Option MsgBuf) := do
  let named ← Prog.perform (Op.fromAddress (leNat address))
  let message ← mapErr named .memory
  let id ← messageId message
  if self.handleKeepalives ∧ some id = self.messageId (Api.nameCrc MemclntKeepalive) then do
    answerKeepalive self message
    pure none
  else pure (some message)

/-- `Client::receive`. -/
def receive (deadline : Nat) : (fuel : Nat) → Call (Option MsgBuf)
  | 0 => .pending
  | fuel + 1 => do
      let self ← load
      match ← Prog.perform (Op.sub self.inputQueue) with
      | .ok address => do
          match ← accept self address with
          | some message => pure (some message)
          | none => receive deadline fuel
      | .error .empty => do
          let instant ← now
          if deadline ≤ instant then pure none
          else do
            sleep
            receive deadline fuel
      | .error source => .throw (.queue source)

/-! ## Requests -/

/-- One pass of the loop of `next_context`. -/
def advance (counter : UInt32) : UInt32 := (counter + 1) &&& 0x7fffffff

/-- The loop of `next_context`, which passes over zero. -/
def nextCounter (counter : UInt32) : UInt32 :=
  if advance counter ≠ 0 then advance counter else nextCounter (advance counter)
termination_by if advance counter = 0 then 1 else 0
decreasing_by
  rename_i again
  rw [not_not.mp again]
  decide

/-- The context that goes with a value of the counter. -/
def contextOf (counter : UInt32) : UInt32 := counter ||| 0x80000000

/-- `Client::next_context`. -/
def nextContext : Call UInt32 := do
  let self ← load
  store { self with contextCounter := nextCounter self.contextCounter }
  pure (contextOf (nextCounter self.contextCounter))

/-- `Client::invoke`. Every way through the body of its loop returns. -/
def invoke {Request : Type} (Reply : Type) [Api Request] [Api Reply] (fuel : Nat)
    (request : Request) : Call Reply := do
  let self ← load
  let clientIndex ← okOr self.clientIndex .notConnected
  let service ← okOr (Api.service Request) .requestHasNoReply
  let expected ← okOr service.reply .requestHasNoReply
  if expected ≠ Api.name Reply then .throw (.replyTypeMismatch expected (Api.name Reply))
  else do
    let requestId ← okOr (self.messageId (Api.nameCrc Request))
      (.messageUnavailable (Api.nameCrc Request))
    let replyId ← okOr (self.messageId (Api.nameCrc Reply))
      (.messageUnavailable (Api.nameCrc Reply))
    let context ← nextContext
    sendMessage (Api.setRequestHeader request requestId clientIndex context)
    let instant ← now
    match ← receive (instant + connectTimeout) fuel with
    | none => .throw (.responseTimeout context)
    | some message => do
        let id ← messageId message
        if id ≠ replyId then do
          free message
          .throw (.unexpectedMessage id replyId)
        else do
          let decoded ← decode Reply message
          free message
          let reply ← mapErr decoded .codec
          match Api.context reply with
          | some received =>
              if received = context then pure reply
              else .throw (.contextMismatch context received)
          | none => pure reply

/-- What `invoke` makes of what it has received. -/
def returning (Reply : Type) [Api Reply] (replyId : UInt16) (context : UInt32) :
    Option MsgBuf → Call Reply
  | none => .throw (.responseTimeout context)
  | some message => do
      let id ← messageId message
      if id ≠ replyId then do
        free message
        .throw (.unexpectedMessage id replyId)
      else do
        let decoded ← decode Reply message
        free message
        let reply ← mapErr decoded .codec
        match Api.context reply with
        | some received =>
            if received = context then pure reply
            else .throw (.contextMismatch context received)
        | none => pure reply

/-- `invoke` from the draw of its context on. -/
def exchange {Request : Type} (Reply : Type) [Api Request] [Api Reply] (fuel : Nat)
    (request : Request) (clientIndex : UInt32) (requestId replyId : UInt16) : Call Reply := do
  let context ← nextContext
  sendMessage (Api.setRequestHeader request requestId clientIndex context)
  let instant ← now
  let received ← receive (instant + connectTimeout) fuel
  returning Reply replyId context received

section Requesting

variable {σ : Type} {handler : Prog.Handler Op Op.Ret σ} {s : σ}

/-- What `invoke` has checked before it draws a context. -/
structure Ready (Request Reply : Type) [Api Request] [Api Reply] (client : Client)
    (clientIndex : UInt32) (service : Service) (requestId replyId : UInt16) : Prop where
  index : client.clientIndex = some clientIndex
  declared : Api.service Request = some service
  replied : service.reply = some (Api.name Reply)
  requestId : client.messageId (Api.nameCrc Request) = some requestId
  replyId : client.messageId (Api.nameCrc Reply) = some replyId

/-- Before its draw `invoke` only looks at the fields, and stops if one of them is missing. -/
theorem ensures_invoke_of {Request Reply : Type} [Api Request] [Api Reply] {fuel : Nat}
    {request : Request} {value : Reply → σ → Prop} {stop : Stop Error → σ → Prop}
    (rest : ∀ self mid, handler .load s self mid → (∀ reason, stop (.error reason) mid) ∧
      ∀ clientIndex service requestId replyId,
        Ready Request Reply self clientIndex service requestId replyId →
          (exchange Reply fuel request clientIndex requestId replyId).Ensures handler value
            stop mid) :
    (invoke Reply fuel request).Ensures handler value stop s := by
  refine Prog.ensures_perform.mpr fun self mid answered => ?_
  obtain ⟨stops, goes⟩ := rest self mid answered
  refine Prog.ensures_bind.mpr (ensures_okOr (fun clientIndex index => ?_) fun _ => stops _)
  refine Prog.ensures_bind.mpr (ensures_okOr (fun service declared => ?_) fun _ => stops _)
  refine Prog.ensures_bind.mpr (ensures_okOr (fun expected replied => ?_) fun _ => stops _)
  split
  · exact stops _
  next same =>
  refine Prog.ensures_bind.mpr (ensures_okOr (fun requestId request => ?_) fun _ => stops _)
  refine Prog.ensures_bind.mpr (ensures_okOr (fun replyId reply => ?_) fun _ => stops _)
  exact goes clientIndex service requestId replyId
    ⟨index, declared, not_not.mp same ▸ replied, request, reply⟩

end Requesting

/-! ## Closing the connection -/

/-- The alignment of a queue. -/
def cacheLineBytes : Nat := 64

/-- The configuration that `release_queue` reads back from the queue. -/
def InputQueue.config (queue : InputQueue) : SvmQueueConfig :=
  { nels := UInt32.ofNat queue.header.maxsize, elsize := UInt32.ofNat queue.header.elsize }

/-- `Client::release_queue`. -/
def releaseQueue : Call Unit := do
  let self ← load
  match self.inputQueue.config.sizeToAlloc with
  | .error _ => .panic
  | .ok bytes => do
      Prog.perform (Op.cleanup self.inputQueue)
      Prog.perform (Op.deallocate self.inputQueue.address bytes cacheLineBytes)

/-- The loop of `disconnect`. -/
def awaitDeleteReply (clientIndex : UInt32) (deleteReplyId : UInt16) (deadline : Nat) :
    (fuel : Nat) → Call Unit
  | 0 => .pending
  | fuel + 1 => do
      match ← receive deadline (fuel + 1) with
      | none => .throw (.disconnectTimeout clientIndex)
      | some message => do
          let id ← messageId message
          if id ≠ deleteReplyId then do
            free message
            awaitDeleteReply clientIndex deleteReplyId deadline fuel
          else do
            let decoded ← decode MemclntDeleteReply message
            free message
            let reply ← mapErr decoded .codec
            if reply.response < 0 then .throw (.createRejected reply.response) else pure ()

/-- `Client::disconnect`. -/
def disconnect (fuel : Nat) : Call Unit := do
  let self ← load
  let clientIndex ← okOr self.clientIndex .notConnected
  let deleteId ← okOr (self.messageId (Api.nameCrc MemclntDelete))
    (.messageUnavailable (Api.nameCrc MemclntDelete))
  let deleteReplyId ← okOr (self.messageId (Api.nameCrc MemclntDeleteReply))
    (.messageUnavailable (Api.nameCrc MemclntDeleteReply))
  sendMessage
    ({ id := deleteId, index := clientIndex, handle := 0, doCleanup := false } : MemclntDelete)
  let instant ← now
  awaitDeleteReply clientIndex deleteReplyId (instant + disconnectTimeout) fuel
  let self ← load
  store { self with clientIndex := none, messageIds := [] }
  releaseQueue

/-! ## Opening the connection -/

def retryable : SvmRegionError → Bool
  | .opening _ .notFound => true
  | .opening _ .wouldBlock => true
  | .notReady => true
  | _ => false

/-- The loop around `SvmRegion::attach`. -/
def awaitRegion (path : String) (deadline : Nat) : (fuel : Nat) → Call Unit
  | 0 => .pending
  | fuel + 1 => do
      match ← Prog.perform (Op.attach path) with
      | .ok () => pure ()
      | .error source =>
          if retryable source then do
            let instant ← now
            if instant < deadline then do
              sleep
              awaitRegion path deadline fuel
            else .throw (.region source)
          else .throw (.region source)

/-- The loop around `SvmRegion::user_context`. -/
def awaitHeader (path : String) (deadline : Nat) : (fuel : Nat) → Call Nat
  | 0 => .pending
  | fuel + 1 => do
      match ← Prog.perform Op.userContext with
      | some header => pure header
      | none => do
          let instant ← now
          if deadline ≤ instant then .throw (.connectTimeout path)
          else do
            sleep
            awaitHeader path deadline fuel

/-- The configuration of the response queue: its elements are addresses. -/
def queueConfig (responseQueueSize : UInt32) : SvmQueueConfig :=
  { nels := responseQueueSize, elsize := 8 }

/-- `allocate_client_queue`; an allocation is never larger than `isize::MAX`. -/
def allocateClientQueue (responseQueueSize : UInt32) : Call InputQueue := do
  let bytes ← mapErr (queueConfig responseQueueSize).sizeToAlloc .queue
  if 2 ^ 63 - cacheLineBytes < bytes then .throw (.queue .layoutOverflow)
  else do
    let allocated ← Prog.perform (Op.allocateZeroed bytes cacheLineBytes)
    let address ← okOr allocated (.queue .layoutOverflow)
    match ← Prog.perform (Op.init address (queueConfig responseQueueSize)) with
    | .ok () => pure ⟨address, { maxsize := responseQueueSize.toNat, elsize := 8 }⟩
    | .error source => do
        Prog.perform (Op.deallocate address bytes cacheLineBytes)
        .throw (.queue source)

/-- The loop of `connect` around `receive`. -/
def awaitCreateReply (path : String) (deadline : Nat) : (fuel : Nat) → Call MemclntCreateV2Reply
  | 0 => .pending
  | fuel + 1 => do
      match ← receive deadline (fuel + 1) with
      | none => .throw (.connectTimeout path)
      | some message => do
          let id ← messageId message
          if id ≠ memclntCreateV2ReplyId then do
            free message
            awaitCreateReply path deadline fuel
          else do
            let decoded ← decode MemclntCreateV2Reply message
            free message
            mapErr decoded .codec

/-- The request of `connect`. -/
def createRequest (queue : InputQueue) (name : String) (handleKeepalives : Bool) :
    MemclntCreateV2 :=
  { id := memclntCreateV2Id, context := 0, ctxQuota := 0
    inputQueue := UInt64.ofNat queue.address, name := FixedString.fromStr 64 name
    apiVersions := Repeated.ofFn 8 fun _ => 0, keepalive := handleKeepalives }

/-- `Client::connect`; the client that it returns is the one that it has stored. -/
def connect (fuel : Nat) (name path : String) (responseQueueSize : UInt32)
    (handleKeepalives : Bool) : Call Unit := do
  let instant ← now
  awaitRegion path (instant + connectTimeout) fuel
  let header ← awaitHeader path (instant + connectTimeout) fuel
  let validated ← Prog.perform (Op.validate header)
  mapErr validated .memory
  let queue ← allocateClientQueue responseQueueSize
  store
    { header := header, inputQueue := queue, clientIndex := none, messageIds := []
      contextCounter := 0, handleKeepalives := handleKeepalives }
  sendMessage (createRequest queue name handleKeepalives)
  let reply ← awaitCreateReply path (instant + connectTimeout) fuel
  if reply.response < 0 then do
    releaseQueue
    .throw (.createRejected reply.response)
  else do
    let remaining ← Prog.perform (Op.remainingFrom reply.messageTable.toNat)
    let table ← okOr remaining (.memory .invalidHeader)
    let messageIds ← mapErr (deserializeMessageTable table) .codec
    let self ← load
    store { self with messageIds := messageIds, clientIndex := some reply.index }

section Waiting

open Prog

/-- Waiting for the region or for the time to pass. -/
def Op.Waits : Op → Prop
  | .now => True
  | .sleep => True
  | .attach _ => True
  | .userContext => True
  | _ => False

theorem uses_now : now.Uses Op.Waits := uses_perform trivial

theorem uses_sleep : sleep.Uses Op.Waits := by
  refine (uses_perform trivial).bind fun awake => ?_
  split <;> exact trivial

theorem uses_awaitRegion (path : String) (deadline fuel : Nat) :
    (awaitRegion path deadline fuel).Uses Op.Waits := by
  induction fuel with
  | zero => exact trivial
  | succ fuel ih =>
      refine (uses_perform trivial).bind fun attached => ?_
      cases attached with
      | ok done => exact trivial
      | error source =>
          dsimp only
          split
          · refine (uses_perform trivial).bind fun instant => ?_
            split
            · exact uses_sleep.bind fun _ => ih
            · exact trivial
          · exact trivial

theorem uses_awaitHeader (path : String) (deadline fuel : Nat) :
    (awaitHeader path deadline fuel).Uses Op.Waits := by
  induction fuel with
  | zero => exact trivial
  | succ fuel ih =>
      refine (uses_perform trivial).bind fun context => ?_
      cases context with
      | some header => exact trivial
      | none =>
          refine (uses_perform trivial).bind fun instant => ?_
          split
          · exact trivial
          · exact uses_sleep.bind fun _ => ih

end Waiting

section Reading

open Prog

/-- Reading a removed message and freeing it. -/
def Op.Reads : Op → Prop
  | .bytes _ => True
  | .free _ => True
  | _ => False

variable {allowed : Op → Prop} (reads : ∀ op : Op, op.Reads → allowed op)

include reads

theorem uses_asBytes (message : MsgBuf) : (asBytes message).Uses allowed := by
  unfold asBytes
  split
  · exact trivial
  · exact uses_perform_bind (reads _ trivial) fun _ => trivial

theorem uses_decode (Message : Type) [Api Message] (message : MsgBuf) :
    (decode Message message).Uses allowed :=
  (uses_asBytes reads message).bind fun _ => trivial

theorem uses_messageId (message : MsgBuf) : (messageId message).Uses allowed :=
  (uses_asBytes reads message).bind fun _ => uses_mapErr

theorem uses_free (message : MsgBuf) : (free message).Uses allowed :=
  uses_perform (reads _ trivial)

end Reading

section Handling

open Prog

/-- Reading a removed message, freeing it and sending another. -/
def Op.Handles : Op → Prop
  | .load => True
  | .add _ _ => True
  | .fromAddress _ => True
  | .allocate _ => True
  | .output _ => True
  | .fill _ _ => True
  | .bytes _ => True
  | .free _ => True
  | _ => False

variable {allowed : Op → Prop} (handles : ∀ op : Op, op.Handles → allowed op)

include handles

theorem reads_of_handles (op : Op) (reads : op.Reads) : allowed op := by
  cases op with
  | bytes message => exact handles _ trivial
  | free message => exact handles _ trivial
  | _ => cases reads

theorem uses_encode {Message : Type} [Api Message] (allocation : MsgBuf) (value : Message) :
    (encode allocation value).Uses allowed :=
  uses_perform_bind (handles _ trivial) fun _ =>
    uses_perform_bind (handles _ trivial) fun _ => trivial

theorem uses_sendMessage {Message : Type} [Api Message] (message : Message) :
    (sendMessage message).Uses allowed := by
  refine uses_mapErr.bind fun _ => uses_perform_bind (handles _ trivial) fun _ =>
    uses_mapErr.bind fun _ => (uses_encode handles _ _).bind fun _ => uses_mapErr.bind fun _ =>
      uses_perform_bind (handles _ trivial) fun _ =>
        uses_perform_bind (handles _ trivial) fun added => ?_
  cases added with
  | ok done => exact trivial
  | error source =>
      dsimp only
      split
      · exact trivial
      · exact (uses_free (reads_of_handles handles) _).bind fun _ => trivial

theorem uses_answerKeepalive (self : Client) (message : MsgBuf) :
    (answerKeepalive self message).Uses allowed :=
  (uses_decode (reads_of_handles handles) _ _).bind fun _ =>
    (uses_free (reads_of_handles handles) _).bind fun _ =>
      uses_mapErr.bind fun _ => uses_okOr.bind fun _ => uses_sendMessage handles _

theorem uses_accept (self : Client) (address : Bytes) : (accept self address).Uses allowed := by
  refine uses_perform_bind (handles _ trivial) fun _ => uses_mapErr.bind fun message =>
    (uses_messageId (reads_of_handles handles) message).bind fun _ => ?_
  split
  · exact (uses_answerKeepalive handles self message).bind fun _ => trivial
  · exact trivial

/-- What a waiting call does with a message: one with another id than expected is freed, the
expected one is decoded first. -/
theorem uses_reply {Reply α : Type} [Api Reply] (message : MsgBuf) {expected : UInt16}
    {ignored : UInt16 → Call α} {rest : Except Api.Error Reply → Call α}
    (ignores : ∀ id, (ignored id).Uses allowed) (goes : ∀ decoded, (rest decoded).Uses allowed) :
    ((messageId message).bind fun id =>
      if id ≠ expected then (free message).bind fun _ => ignored id
      else (decode Reply message).bind fun decoded =>
        (free message).bind fun _ => rest decoded).Uses allowed := by
  refine (uses_messageId (reads_of_handles handles) message).bind fun id => ?_
  split
  · exact (uses_free (reads_of_handles handles) message).bind fun _ => ignores id
  · exact (uses_decode (reads_of_handles handles) Reply message).bind fun decoded =>
      (uses_free (reads_of_handles handles) message).bind fun _ => goes decoded

theorem uses_returning (Reply : Type) [Api Reply] (replyId : UInt16) (context : UInt32)
    (received : Option MsgBuf) : (returning Reply replyId context received).Uses allowed := by
  cases received with
  | none => exact trivial
  | some message =>
      refine uses_reply handles message (fun _ => trivial) fun decoded =>
        uses_mapErr.bind fun reply => ?_
      split
      · split <;> exact trivial
      · exact trivial

end Handling

/-! ## The calls of one client -/

/-- A call on a connected client. -/
inductive Invocation : Type 1 where
  | invoke {Request : Type} (Reply : Type) [Api Request] [Api Reply] (request : Request)
  | disconnect

/-- The call with its result forgotten. -/
def Invocation.run (fuel : Nat) : Invocation → Call Unit
  | @invoke _ Reply _ _ request => do
      let _ ← Connection.invoke Reply fuel request
      pure ()
  | .disconnect => Connection.disconnect fuel

section Session

variable {σ : Type} (handler : Prog.Handler Op Op.Ret σ)

/-- One call, to its end or until it is dropped. -/
def Next (s s' : σ) : Prop :=
  ∃ (fuel : Nat) (invocation : Invocation) (out : Outcome Error Unit),
    (invocation.run fuel).Runs handler s out s'

/-- Any sequence of calls. -/
def Session : σ → σ → Prop := Relation.ReflTransGen (Next handler)

end Session

end Netsystem.Connection
