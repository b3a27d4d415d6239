import Netsystem.Connection.Correlation

/-!
# The services

`hammer-binary-api-rpc/src/session.rs` and `vpe.rs`: calls of `Client::invoke` that report the
verdict of the server. A `History` is any sequence of such calls on a client, with other requests
between them. `verdicts_own` says what a history is to the server: every verdict that a call
reports was given on the very request of that call, which the server received with the arguments
of the call, and no two calls report on one request.
-/

namespace Netsystem.Rpc

open Netsystem.Api Netsystem.Connection Netsystem.Prog

/-! ## Application namespaces -/

inductive AppNamespaceAddDelRetval : Type where
  | invalid | notSupported
  deriving DecidableEq, Repr

/-- `try_from`. -/
def AppNamespaceAddDelRetval.tryFrom (retval : Int32) : Except Int32 AppNamespaceAddDelRetval :=
  if retval = -19 then .ok .invalid
  else if retval = -10 then .ok .notSupported
  else .error retval

inductive AppNamespaceAddDelError : Type where
  | client (source : Connection.Error)
  | rejected (retval : AppNamespaceAddDelRetval)
  | unknownRetval (retval : Int32)
  deriving DecidableEq

/-- A request, whose error is handed on, and the verdict of its reply. -/
def calling {ε α : Type} (request reply : MessageType) (wrap : Connection.Error → ε)
    (verdict : reply.Message → Except ε α) (fuel : Nat) (message : request.Message) :
    Prog Op Op.Ret ε α :=
  (invoke reply.Message fuel message).attempt.bind fun answered =>
    match answered with
    | .error source => .throw (wrap source)
    | .ok reply => .ofExcept (verdict reply)

/-- `namespace_index`. -/
def namespaceIndex (reply : AppNamespaceAddDelReply) : Except AppNamespaceAddDelError UInt32 :=
  if reply.retval = 0 then .ok reply.appnsIndex
  else
    match AppNamespaceAddDelRetval.tryFrom reply.retval with
    | .ok retval => .error (.rejected retval)
    | .error retval => .error (.unknownRetval retval)

namespace NamespaceService

/-- The request of `add_or_rebind`. -/
def addition (secret : UInt64) (swIfIndex ip4FibId ip6FibId : UInt32)
    (namespaceId : FixedString 64) : AppNamespaceAddDel where
  id := 0
  clientIndex := 0
  context := 0
  secret := secret
  isAdd := true
  swIfIndex := ⟨swIfIndex⟩
  ip4FibId := ip4FibId
  ip6FibId := ip6FibId
  namespaceId := namespaceId
  sockName := ""

/-- The request of `delete`. -/
def removal (namespaceId : FixedString 64) : AppNamespaceAddDel where
  id := 0
  clientIndex := 0
  context := 0
  secret := 0
  isAdd := false
  swIfIndex := ⟨0xffffffff⟩
  ip4FibId := 0xffffffff
  ip6FibId := 0xffffffff
  namespaceId := namespaceId
  sockName := ""

/-- `NamespaceService::add_or_rebind`. -/
def addOrRebind (fuel : Nat) (secret : UInt64) (swIfIndex ip4FibId ip6FibId : UInt32)
    (namespaceId : FixedString 64) : Prog Op Op.Ret AppNamespaceAddDelError UInt32 :=
  calling .appNamespaceAddDel .appNamespaceAddDelReply .client namespaceIndex fuel
    (addition secret swIfIndex ip4FibId ip6FibId namespaceId)

/-- `NamespaceService::delete`. -/
def delete (fuel : Nat) (namespaceId : FixedString 64) :
    Prog Op Op.Ret AppNamespaceAddDelError Unit :=
  calling .appNamespaceAddDel .appNamespaceAddDelReply .client
    (fun reply => (namespaceIndex reply).map fun _ => ()) fuel (removal namespaceId)

end NamespaceService

/-! ## The version of the server -/

inductive VpeError : Type where
  | client (source : Connection.Error)
  | rejected (retval : Int32)

/-- The end of `show_version`. -/
def accepted (reply : ShowVersionReply) : Except VpeError ShowVersionReply :=
  if reply.retval ≠ 0 then .error (.rejected reply.retval) else .ok reply

/-- `VpeService::show_version`. -/
def VpeService.showVersion (fuel : Nat) : Prog Op Op.Ret VpeError ShowVersionReply :=
  calling .showVersion .showVersionReply .client accepted fuel
    ({ id := 0, clientIndex := 0, context := 0 } : ShowVersion)

/-! ## What a call reports -/

/-- The verdict of the server, as far as a call reports it. -/
inductive Decision : Type where
  | index (appnsIndex : UInt32)
  | deleted
  | version (reply : ShowVersionReply)
  | rejected (retval : Int32)

/-- The code of a retval that has a name. -/
def AppNamespaceAddDelRetval.code : AppNamespaceAddDelRetval → Int32
  | .invalid => -19
  | .notSupported => -10

def AppNamespaceAddDelError.decision : AppNamespaceAddDelError → Option Decision
  | .client _ => none
  | .rejected retval => some (.rejected retval.code)
  | .unknownRetval retval => some (.rejected retval)

def VpeError.decision : VpeError → Option Decision
  | .client _ => none
  | .rejected retval => some (.rejected retval)

/-- What the end of a call says of the verdict. -/
def reported {ε α : Type} (value : α → Decision) (error : ε → Option Decision) :
    Outcome ε α → Option Decision
  | .ok result => some (value result)
  | .error reason => error reason
  | .panic => none
  | .pending => none

inductive ServiceCall : Type where
  | addOrRebind (secret : UInt64) (swIfIndex ip4FibId ip6FibId : UInt32)
      (namespaceId : FixedString 64)
  | delete (namespaceId : FixedString 64)
  | showVersion

namespace ServiceCall

/-- The call runs and reports the verdict, or none. -/
def Serves (fuel : Nat) (decision : Option Decision) (traffic traffic' : Traffic) :
    ServiceCall → Prop
  | addOrRebind secret swIfIndex ip4FibId ip6FibId namespaceId =>
      ∃ out, (NamespaceService.addOrRebind fuel secret swIfIndex ip4FibId ip6FibId
        namespaceId).Runs
          corresponding traffic out traffic' ∧
        decision = reported .index AppNamespaceAddDelError.decision out
  | delete namespaceId =>
      ∃ out, (NamespaceService.delete fuel namespaceId).Runs corresponding traffic out traffic' ∧
        decision = reported (fun _ => .deleted) AppNamespaceAddDelError.decision out
  | showVersion =>
      ∃ out, (VpeService.showVersion fuel).Runs corresponding traffic out traffic' ∧
        decision = reported .version VpeError.decision out

def request : ServiceCall → MessageType
  | addOrRebind _ _ _ _ _ => .appNamespaceAddDel
  | delete _ => .appNamespaceAddDel
  | showVersion => .showVersion

def reply : ServiceCall → MessageType
  | addOrRebind _ _ _ _ _ => .appNamespaceAddDelReply
  | delete _ => .appNamespaceAddDelReply
  | showVersion => .showVersionReply

/-- The arguments of the call in its request. -/
def message : (call : ServiceCall) → call.request.Message
  | addOrRebind secret swIfIndex ip4FibId ip6FibId namespaceId =>
      NamespaceService.addition secret swIfIndex ip4FibId ip6FibId namespaceId
  | delete namespaceId => NamespaceService.removal namespaceId
  | showVersion => ({ id := 0, clientIndex := 0, context := 0 } : ShowVersion)

/-- The verdict that a reply carries. -/
def verdict : (call : ServiceCall) → call.reply.Message → Decision
  | addOrRebind _ _ _ _ _, reply =>
      if AppNamespaceAddDelReply.retval reply = 0
        then .index (AppNamespaceAddDelReply.appnsIndex reply)
      else .rejected (AppNamespaceAddDelReply.retval reply)
  | delete _, reply =>
      if AppNamespaceAddDelReply.retval reply = 0 then .deleted
      else .rejected (AppNamespaceAddDelReply.retval reply)
  | showVersion, reply =>
      if ShowVersionReply.retval reply = 0 then .version reply
      else .rejected (ShowVersionReply.retval reply)

end ServiceCall

section Calls

variable {traffic traffic' : Traffic} {ε α : Type} {request reply : MessageType}

/-- What a request came back with. -/
def answered : Outcome Connection.Error α → Option α
  | .ok value => some value
  | .error _ => none
  | .panic => none
  | .pending => none

/-- A call runs its request to the end, and then has no more to do. -/
theorem runs_calling {wrap : Connection.Error → ε} {verdict : reply.Message → Except ε α}
    {fuel : Nat} {message : request.Message} {out : Outcome ε α} {value : α → Decision}
    {error : ε → Option Decision} {decide : reply.Message → Decision}
    (unwrapped : ∀ source, error (wrap source) = none)
    (accepts : ∀ result made, verdict result = .ok made → value made = decide result)
    (refuses : ∀ result reason, verdict result = .error reason →
      error reason = some (decide result))
    (run : (calling request reply wrap verdict fuel message).Runs corresponding traffic out
      traffic') :
    ∃ answer, (invoke reply.Message fuel message).Runs corresponding traffic answer traffic' ∧
      reported value error out = (answered answer).map decide := by
  rcases runs_bind.mp run with ⟨result, mid, tried, rest⟩ | ⟨reason, tried, rfl⟩ | ⟨tried, rfl⟩ |
    ⟨tried, rfl⟩
  · rcases runs_attempt.mp tried with ⟨result, ran, same⟩ | ⟨source, ran, same⟩ |
      ⟨_, same⟩ | ⟨_, same⟩
    · cases same
      refine ⟨.ok result, ?_⟩
      cases made : verdict result with
      | ok value =>
          simp only [made] at rest
          obtain ⟨rfl, rfl⟩ := rest
          exact ⟨ran, congrArg some (accepts result _ made)⟩
      | error reason =>
          simp only [made] at rest
          obtain ⟨rfl, rfl⟩ := rest
          exact ⟨ran, refuses result _ made⟩
    · cases same
      obtain ⟨rfl, rfl⟩ := rest
      exact ⟨.error source, ran, unwrapped source⟩
    · cases same
    · cases same
  · rcases runs_attempt.mp tried with ⟨_, _, same⟩ | ⟨_, _, same⟩ | ⟨_, same⟩ | ⟨_, same⟩ <;>
      cases same
  · rcases runs_attempt.mp tried with ⟨_, _, same⟩ | ⟨_, _, same⟩ | ⟨ran, _⟩ | ⟨_, same⟩
    · cases same
    · cases same
    · exact ⟨.panic, ran, rfl⟩
    · cases same
  · rcases runs_attempt.mp tried with ⟨_, _, same⟩ | ⟨_, _, same⟩ | ⟨_, same⟩ | ⟨ran, _⟩
    · cases same
    · cases same
    · cases same
    · exact ⟨.pending, ran, rfl⟩

theorem code_of_tryFrom {retval : Int32} {named : AppNamespaceAddDelRetval}
    (found : AppNamespaceAddDelRetval.tryFrom retval = .ok named) : named.code = retval := by
  unfold AppNamespaceAddDelRetval.tryFrom at found
  split at found
  · next same => cases found; exact same.symm
  · split at found
    · next same => cases found; exact same.symm
    · cases found

theorem retval_of_tryFrom {retval unknown : Int32}
    (missed : AppNamespaceAddDelRetval.tryFrom retval = .error unknown) : unknown = retval := by
  unfold AppNamespaceAddDelRetval.tryFrom at missed
  split at missed
  · cases missed
  · split at missed
    · cases missed
    · cases missed; rfl

/-- A refusal of the server is reported with its code. -/
theorem decision_of_namespaceIndex {reply : AppNamespaceAddDelReply}
    {reason : AppNamespaceAddDelError} (refused : namespaceIndex reply = .error reason) :
    reply.retval ≠ 0 ∧ reason.decision = some (.rejected reply.retval) := by
  unfold namespaceIndex at refused
  split at refused
  · cases refused
  next failed =>
  refine ⟨failed, ?_⟩
  cases named : AppNamespaceAddDelRetval.tryFrom reply.retval with
  | ok retval =>
      simp only [named] at refused
      cases refused
      exact congrArg (some ∘ Decision.rejected) (code_of_tryFrom named)
  | error retval =>
      simp only [named] at refused
      cases refused
      exact congrArg (some ∘ Decision.rejected) (retval_of_tryFrom named)

theorem index_of_namespaceIndex {reply : AppNamespaceAddDelReply} {index : UInt32}
    (granted : namespaceIndex reply = .ok index) : reply.retval = 0 ∧
      reply.appnsIndex = index := by
  unfold namespaceIndex at granted
  split at granted
  · next zero => cases granted; exact ⟨zero, rfl⟩
  · cases named : AppNamespaceAddDelRetval.tryFrom reply.retval <;>
      simp only [named] at granted <;>
      cases granted

/-- A call is its request, and reports the verdict of the reply. -/
theorem ServiceCall.invoked {call : ServiceCall} {fuel : Nat} {decision : Option Decision}
    (serves : call.Serves fuel decision traffic traffic') :
    ∃ answer, (invoke call.reply.Message fuel call.message).Runs corresponding traffic answer
      traffic' ∧ decision = (answered answer).map call.verdict := by
  cases call with
  | addOrRebind secret swIfIndex ip4FibId ip6FibId namespaceId =>
      obtain ⟨out, run, rfl⟩ := serves
      refine runs_calling (fun _ => rfl) (fun result index made => ?_)
        (fun result reason made => ?_) run
      · obtain ⟨zero, rfl⟩ := index_of_namespaceIndex made
        exact (if_pos zero).symm
      · obtain ⟨failed, same⟩ := decision_of_namespaceIndex made
        exact same.trans (congrArg some (if_neg failed).symm)
  | delete namespaceId =>
      obtain ⟨out, run, rfl⟩ := serves
      refine runs_calling (fun _ => rfl) (fun result _ made => ?_)
        (fun result reason made => ?_) run
      · cases granted : namespaceIndex result with
        | ok index => exact (if_pos (index_of_namespaceIndex granted).1).symm
        | error reason => rw [granted] at made; cases made
      · cases granted : namespaceIndex result with
        | ok index => rw [granted] at made; cases made
        | error refusal =>
            rw [granted] at made
            cases made
            obtain ⟨failed, same⟩ := decision_of_namespaceIndex granted
            exact same.trans (congrArg some (if_neg failed).symm)
  | showVersion =>
      obtain ⟨out, run, rfl⟩ := serves
      refine runs_calling (fun _ => rfl) (fun result version made => ?_)
        (fun result reason made => ?_) run
      · unfold accepted at made
        split at made
        · cases made
        · next zero => cases made; exact (if_pos (not_not.mp zero)).symm
      · unfold accepted at made
        split at made
        · next failed => cases made; exact congrArg some (if_neg failed).symm
        · cases made

/-- A service call is one call of `invoke`. -/
theorem ServiceCall.issue {call : ServiceCall} {fuel : Nat} {decision : Option Decision}
    (serves : call.Serves fuel decision traffic traffic') : Issue traffic traffic' := by
  obtain ⟨answer, run, -⟩ := ServiceCall.invoked serves
  exact ⟨_, _, _, fuel, answer, run⟩

end Calls

/-! ## Histories -/

/-- A call that has ended, what it reported, and the traffic that it left. -/
structure Entry : Type where
  call : ServiceCall
  decision : Option Decision
  after : Traffic

/-- Calls of the services one after another, between any other requests of the client. -/
inductive History (start : Traffic) : List Entry → Traffic → Prop where
  | nil : History start [] start
  | serve {entries : List Entry} {before after : Traffic} {call : ServiceCall} {fuel : Nat}
      {decision : Option Decision} (history : History start entries before)
      (serves : call.Serves fuel decision before after) :
      History start (entries ++ [⟨call, decision, after⟩]) after
  | other {entries : List Entry} {before after : Traffic} (history : History start entries before)
      (issue : Issue before after) : History start entries after

/-- The server has given the verdict on the request of the call, which came with its arguments. -/
def Entry.Own (entry : Entry) (decision : Decision) (received : List (Nat × Bytes)) : Prop :=
  ∃ (letter : Letter) (asked : Bytes) (reply : entry.call.reply.Message),
    (∃ address, entry.after.mail address = some letter) ∧
      letter.origin = some entry.after.draws ∧ (entry.after.draws, asked) ∈ received ∧
        (∃ id clientIndex context, Api.decode entry.call.request.Message asked =
          .ok (Api.setRequestHeader entry.call.message id clientIndex context)) ∧
          Api.decode entry.call.reply.Message letter.payload = .ok reply ∧
            decision = entry.call.verdict reply

/-- The server forgets no request, and no context is handed back. -/
structure Grows (traffic traffic' : Traffic) : Prop where
  draws : traffic.draws ≤ traffic'.draws
  received : traffic.received ⊆ traffic'.received

section Histories

variable {start before after traffic traffic' : Traffic} {entries : List Entry}

theorem Grows.refl : Grows traffic traffic := ⟨le_refl _, fun _ member => member⟩

theorem Grows.answered {op : Op} {answer : op.Ret} (grows : Grows start traffic)
    (answered : corresponding op traffic answer traffic') : Grows start traffic' := by
  cases op with
  | load => obtain ⟨-, rfl⟩ := answered; exact grows
  | store client =>
      obtain rfl := answered
      exact ⟨grows.draws.trans (Nat.le_succ _), grows.received⟩
  | allocate payloadLen => obtain ⟨rfl, -⟩ := answered; exact grows
  | output message => obtain ⟨-, rfl⟩ := answered; exact grows
  | fill message output => obtain rfl := answered; exact ⟨grows.draws, grows.received⟩
  | add header element =>
      obtain rfl | rfl := answered
      · exact grows
      · exact ⟨grows.draws, fun _ member => List.mem_cons_of_mem _ (grows.received member)⟩
  | sub queue =>
      obtain ⟨_, -, rfl⟩ | ⟨_, _, -, -, rfl⟩ := answered
      · exact grows
      · exact ⟨grows.draws, grows.received⟩
  | fromAddress address => obtain ⟨rfl, -⟩ := answered; exact grows
  | bytes message => obtain ⟨rfl, -⟩ := answered; exact grows
  | _ => obtain rfl := answered; exact grows

theorem grows_of_issue (issue : Issue traffic traffic') : Grows traffic traffic' := by
  obtain ⟨_, _, _, _, _, run⟩ := issue
  exact run.preserves (Grows traffic) (fun _ _ _ _ grows answered =>
    grows.answered answered) .refl

theorem Entry.Own.mono {entry : Entry} {decision : Decision}
    {received received' : List (Nat × Bytes)}
    (own : entry.Own decision received) (more : received ⊆ received') :
    entry.Own decision received' := by
  obtain ⟨letter, asked, reply, mailed, origin, member, rest⟩ := own
  exact ⟨letter, asked, reply, mailed, origin, more member, rest⟩

/-- The requests of the services have no long strings. -/
theorem ServiceCall.short_asking (call : ServiceCall) (id : UInt16)
    (clientIndex context : UInt32) :
    call.request.Short (Api.setRequestHeader call.message id clientIndex context) := by
  have empty : (toUtf8 "").length < 2 ^ 32 := by decide
  cases call with
  | addOrRebind secret swIfIndex ip4FibId ip6FibId namespaceId => exact empty
  | delete namespaceId => exact empty
  | showVersion => exact trivial

theorem ServiceCall.decode_asking (call : ServiceCall) (id : UInt16)
    (clientIndex context : UInt32) :
    Api.decode call.request.Message (asking call.message id clientIndex context) =
      .ok (Api.setRequestHeader call.message id clientIndex context) :=
  MessageType.decode_of_serializes
    (serializes_encoding (call.short_asking id clientIndex context))

/-- Every reply carries a context. -/
theorem ServiceCall.context_reply (call : ServiceCall) (reply : call.reply.Message) :
    ∃ context, Api.context reply = some context := by
  cases call <;> exact ⟨_, rfl⟩

/-- A call that reports a verdict has drawn a context, and the verdict is on the request with
it. -/
theorem ServiceCall.own {call : ServiceCall} {fuel : Nat} {decision : Decision}
    (orderly : before.Orderly) (serves : call.Serves fuel (some decision) before after) :
    after.draws = before.draws + 1 ∧ (after.draws < 2 ^ 31 - 1 →
      Entry.Own ⟨call, some decision, after⟩ decision after.received) := by
  obtain ⟨answer, run, reported⟩ := ServiceCall.invoked serves
  have ended := (orderly.invoke call.reply fuel call.message).of_runs run
  cases answer with
  | ok reply =>
      obtain rfl : decision = call.verdict reply := Option.some.inj reported
      obtain ⟨ordered, draws, letter, answered⟩ := ended
      refine ⟨draws, fun turn => ?_⟩
      obtain ⟨context, carries⟩ := call.context_reply reply
      obtain ⟨number, asked, origin, member, own⟩ :=
        answered.own ordered (draws ▸ Nat.succ_pos _) carries
      obtain ⟨rfl, id, clientIndex, rfl⟩ := own (by omega)
      exact ⟨letter, _, reply, answered.delivered, origin, member,
        ⟨id, clientIndex, context, call.decode_asking id clientIndex context⟩,
        answered.reads.2, rfl⟩
  | error reason => cases reported
  | panic => cases reported
  | pending => cases reported

/-- What a history leaves behind. -/
structure Settled (entries : List Entry) (finish : Traffic) : Prop where
  orderly : finish.Orderly
  numbered : ∀ entry ∈ entries, entry.after.draws ≤ finish.draws
  own : ∀ entry ∈ entries, ∀ decision, entry.decision = some decision →
    finish.draws < 2 ^ 31 - 1 → entry.Own decision finish.received
  apart : entries.Pairwise fun earlier later =>
    later.decision.isSome → earlier.after.draws < later.after.draws

/-- Other requests leave the verdicts as they are. -/
theorem Settled.issue (settled : Settled entries before) (issue : Issue before after) :
    Settled entries after := by
  have grows := grows_of_issue issue
  refine ⟨(settled.orderly.issue issue).1, fun entry member => ?_,
    fun entry member decision same turn => ?_, settled.apart⟩
  · exact (settled.numbered entry member).trans grows.draws
  · exact (settled.own entry member decision same (by have := grows.draws; omega)).mono
      grows.received

theorem Settled.serve {call : ServiceCall} {fuel : Nat} {decision : Option Decision}
    (settled : Settled entries before) (serves : call.Serves fuel decision before after) :
    Settled (entries ++ [⟨call, decision, after⟩]) after := by
  have kept := settled.issue (ServiceCall.issue serves)
  refine ⟨kept.orderly, fun entry member => ?_, fun entry member verdict same turn => ?_, ?_⟩
  · rcases List.mem_append.mp member with old | new
    · exact kept.numbered entry old
    · obtain rfl := List.mem_singleton.mp new
      exact le_refl _
  · rcases List.mem_append.mp member with old | new
    · exact kept.own entry old verdict same turn
    · obtain rfl := List.mem_singleton.mp new
      obtain rfl : decision = some verdict := same
      exact (ServiceCall.own settled.orderly serves).2 turn
  · refine List.pairwise_append.mpr ⟨settled.apart, List.pairwise_singleton _ _, ?_⟩
    intro earlier old later new reports
    obtain rfl := List.mem_singleton.mp new
    obtain ⟨verdict, rfl⟩ := Option.isSome_iff_exists.mp reports
    have drawn := (ServiceCall.own settled.orderly serves).1
    have numbered := settled.numbered earlier old
    show earlier.after.draws < after.draws
    omega

/-- **Verdicts.** On a client that has just been connected, every verdict that a call reports was
given on a request with the arguments of that call, and on a later one than those of all calls
before it. -/
theorem verdicts_own {finish : Traffic} (fresh : start.Fresh)
    (history : History start entries finish) (turn : finish.draws < 2 ^ 31 - 1) :
    (∀ entry ∈ entries, ∀ decision, entry.decision = some decision →
      entry.Own decision finish.received) ∧
      entries.Pairwise fun earlier later =>
        later.decision.isSome → earlier.after.draws < later.after.draws := by
  have settled : Settled entries finish := by
    clear turn
    induction history with
    | nil =>
        exact ⟨fresh.orderly, fun _ member => (by cases member), fun _ member =>
          (by cases member), .nil⟩
    | serve history serves ih => exact ih.serve serves
    | other history issue ih => exact ih.issue issue
  exact ⟨fun entry member decision same => settled.own entry member decision same turn,
    settled.apart⟩

end Histories

/-! ## One namespace -/

/-- The types that the server of the example knows. -/
def namespaceTable : List (String × UInt16) :=
  [(Api.nameCrc AppNamespaceAddDel, 1), (Api.nameCrc AppNamespaceAddDelReply, 2)]

def tenant : FixedString 64 := .fromStr 64 "tenant"

/-- The request for the namespace as the server receives it. -/
def binding (context : UInt32) : MessageType.appNamespaceAddDel.Message :=
  Api.setRequestHeader (NamespaceService.addition 11 3 0 0 tenant) 1 7 context

def bound (context : UInt32) : MessageType.appNamespaceAddDelReply.Message :=
  ({ id := 2, context := context, retval := 0, appnsIndex := 5 } : AppNamespaceAddDelReply)

/-- A server that grants one namespace: to the call of the draw `n` comes the reply to the request
`delivers n`, if it has been received, or nothing. It moves the messages as the one that answers
pings does. -/
def granting (delivers : Nat → Option Nat) : Device Op Op.Ret Traffic
  | .sub queue, traffic =>
      match delivers traffic.draws with
      | none => pinging (fun _ => none) (.sub queue) traffic
      | some number =>
          if traffic.client.messageIds = namespaceTable ∧
              traffic.received.contains (number, encoding (binding (contextAt number))) then
            some (.ok (leBytes 8 1024), { traffic with
              mail := Function.update traffic.mail (leNat (leBytes 8 1024))
                (some ⟨some number, encoding (bound (contextAt number))⟩) })
          else none
  | op, traffic => pinging (fun _ => none) op traffic

def unbound : Traffic :=
  { quiet with client := { quiet.client with messageIds := namespaceTable } }

/-- The reply to the first request is lost. -/
def losing (draw : Nat) : Option Nat := if draw = 1 then none else some draw

def requested (traffic : Traffic) : Outcome AppNamespaceAddDelError UInt32 × Traffic :=
  (NamespaceService.addOrRebind 2 11 3 0 0 tenant).exec (granting losing) traffic

/-- The state behind the first call, which is dropped. -/
def undecided : Traffic := (requested unbound).2

def granted : Traffic := (requested undecided).2

section Granting

theorem pairs_namespaceTable {client : Client} (table : client.messageIds = namespaceTable) :
    client.Pairs .appNamespaceAddDel .appNamespaceAddDelReply := by
  intro type
  rw [Client.messageId, table]
  cases type <;> decide +kernel

theorem fresh_unbound : unbound.Fresh :=
  ⟨(pairs_namespaceTable rfl).distinct, rfl, rfl, fun _ _ _ member => (by cases member)⟩

theorem honest_bound {traffic : Traffic} (table : traffic.client.messageIds = namespaceTable)
    {number : Nat} {context : UInt32}
    (member : (number, encoding (binding context)) ∈ traffic.received) :
    Letter.Honest traffic.client traffic.received ⟨some number, encoding (bound context)⟩ := by
  have pairs := pairs_namespaceTable table
  have sent : Serializes (binding context) (encoding (binding context)) :=
    serializes_encoding ((ServiceCall.addOrRebind 11 3 0 0 tenant).short_asking 1 7 context)
  have returned : Serializes (bound context) (encoding (bound context)) :=
    serializes_encoding
      (show MessageType.appNamespaceAddDelReply.Short (bound context) from trivial)
  exact pairs.distinct.honest (pairs .appNamespaceAddDelReply) returned rfl member
    ⟨.appNamespaceAddDel, binding context,
      Client.reads_encoding (pairs .appNamespaceAddDel) sent, rfl, rfl⟩

theorem granting_sound (delivers : Nat → Option Nat) (op : Op) (traffic : Traffic)
    (answer : op.Ret) (traffic' : Traffic)
    (answered : granting delivers op traffic = some (answer, traffic')) :
    corresponding op traffic answer traffic' := by
  cases op with
  | sub queue =>
      simp only [granting] at answered
      split at answered
      · exact pinging_sound (fun _ => none) _ _ _ _ answered
      · split at answered
        · next known =>
            cases answered
            have member := List.contains_iff_mem.mp known.2
            exact .inr ⟨leBytes 8 1024, _, rfl, honest_bound known.1 member, rfl⟩
        · cases answered
  | _ => exact pinging_sound (fun _ => none) _ _ _ _ answered

theorem serves_requested {traffic : Traffic} (answered : (requested traffic).1 ≠ .panic) :
    (ServiceCall.addOrRebind 11 3 0 0 tenant).Serves 2
      (reported .index AppNamespaceAddDelError.decision (requested traffic).1) traffic
      (requested traffic).2 :=
  ⟨_, runs_of_exec (granting_sound losing) rfl answered, rfl⟩

theorem requested_losing :
    (requested unbound).1 = .pending ∧ (requested undecided).1 = .ok 5 := by decide +kernel

/-- Behind a call that was dropped, the index that the second one returned is the one that the
server gave the tenant on the second request. -/
theorem verdicts_own_granted : undecided.draws < granted.draws ∧ ∃ letter asked,
    (∃ address, granted.mail address = some letter) ∧ letter.origin = some granted.draws ∧
      (granted.draws, asked) ∈ granted.received := by
  obtain ⟨dropped, returned⟩ := requested_losing
  have first := serves_requested fun fault => (by cases dropped.symm.trans fault)
  have second := serves_requested fun fault => (by cases returned.symm.trans fault)
  rw [dropped] at first
  rw [returned] at second
  have turn : granted.draws < 2 ^ 31 - 1 := by decide +kernel
  change (ServiceCall.addOrRebind 11 3 0 0 tenant).Serves 2 _ unbound undecided at first
  change (ServiceCall.addOrRebind 11 3 0 0 tenant).Serves 2 _ undecided granted at second
  generalize undecided = before, granted = after at first second turn ⊢
  have history := (History.nil.serve first).serve second
  obtain ⟨own, apart⟩ := verdicts_own fresh_unbound history turn
  obtain ⟨letter, asked, reply, mailed, origin, member, -⟩ :=
    own _ (List.mem_append_right _ (List.mem_singleton_self _)) (.index 5) rfl
  obtain ⟨later, -⟩ := List.pairwise_cons.mp apart
  exact ⟨later _ (List.mem_singleton_self _) rfl, letter, asked, mailed, origin, member⟩

end Granting

end Netsystem.Rpc
