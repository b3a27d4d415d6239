import Netsystem.Connection.Ownership

/-!
# What a failed `connect` leaves in the Data Heap

`connect` takes a block for the response queue and buffers for its messages. The buffers go to the
server or back to the heap (`sendMessage_settled`). The block goes back in two places only: where
the queue cannot be initialised in it, and behind a reply that rejects the client (`repaid_iff`).
Every other error path from the allocation on drops the client with the block still allocated,
also where the server has never heard of the queue.
-/

namespace Netsystem.Connection

open Netsystem.Api Netsystem.Shmem Netsystem.Prog

/-! ## Debts -/

/-- The payload decodes to a reply with a negative response. -/
def negative (payload : Bytes) : Bool :=
  match Api.decode MemclntCreateV2Reply payload with
  | .ok reply => reply.response < 0
  | .error _ => false

/-- The message was handed over by the queue, and it is a reply that rejects the client. -/
def Removal.Rejects (removal : Removal) : Prop :=
  removal.reported = none ∧ Api.messageId removal.payload = .ok memclntCreateV2ReplyId ∧
    negative removal.payload = true

namespace Ledger

variable (ledger : Ledger)

/-- The client has been told that the server rejects it. -/
def Rejected : Prop := ∃ removal ∈ ledger.removals, removal.Rejects

/-- The client has no memory of the Data Heap any more, and it gave back everything once. -/
def Repaid : Prop :=
  ledger.returned = ledger.taken ∧ ledger.drafts = [] ∧ ledger.misreleased = false

/-- Before the response queue. -/
structure Debtless : Prop where
  settled : ledger.Settled
  taken : ledger.taken = []
  returned : ledger.returned = []
  queued : ledger.queued = false
  removals : ledger.removals = []

/-- The client has a response queue in the block, no message table, and no rejection so far. -/
structure Indebted (queue : InputQueue) (block : Allocation) : Prop where
  settled : ledger.Settled
  inputQueue : ledger.client.inputQueue = queue
  messageIds : ledger.client.messageIds = []
  taken : ledger.taken = [block]
  returned : ledger.returned = []
  queued : ledger.queued = true
  rejected : ¬ ledger.Rejected

/-- The client was rejected, and it still has the block. -/
structure Dismissed (queue : InputQueue) (block : Allocation) : Prop where
  settled : ledger.Settled
  inputQueue : ledger.client.inputQueue = queue
  taken : ledger.taken = [block]
  returned : ledger.returned = []
  rejected : ledger.Rejected

/-- How `connect` fails: the debts are paid exactly where there never was a queue, or the client
was rejected. -/
def Fails (stop : Stop Error) : Prop :=
  ∀ reason, stop = .error reason → (ledger.Repaid ↔ ledger.queued = false ∨ ledger.Rejected)

end Ledger

section Debts

variable {ledger mid : Ledger} {queue : InputQueue} {block : Allocation} {stop : Stop Error}

theorem Ledger.Debtless.fails (debtless : ledger.Debtless) : ledger.Fails stop :=
  fun _ _ => ⟨fun _ => .inl debtless.queued, fun _ =>
    ⟨debtless.returned.trans debtless.taken.symm, debtless.settled.drafts,
      debtless.settled.misreleased⟩⟩

theorem Ledger.Indebted.fails (indebted : ledger.Indebted queue block) : ledger.Fails stop := by
  refine fun _ _ => ⟨fun repaid => ?_, fun either => ?_⟩
  · have same := repaid.1
    rw [indebted.returned, indebted.taken] at same
    cases same
  · obtain unqueued | rejected := either
    · rw [indebted.queued] at unqueued
      cases unqueued
    · exact absurd rejected indebted.rejected

theorem Ledger.Rejected.of_beside (beside : ledger.Beside mid) :
    mid.Rejected ↔ ledger.Rejected := by
  unfold Ledger.Rejected
  rw [beside.removals]

theorem Ledger.Indebted.of_beside (indebted : ledger.Indebted queue block) (settled : mid.Settled)
    (beside : ledger.Beside mid) : mid.Indebted queue block where
  settled := settled
  inputQueue := by rw [beside.client, indebted.inputQueue]
  messageIds := by rw [beside.client, indebted.messageIds]
  taken := by rw [beside.taken, indebted.taken]
  returned := by rw [beside.returned, indebted.returned]
  queued := by rw [beside.queued, indebted.queued]
  rejected := fun rejected => indebted.rejected ((Ledger.Rejected.of_beside beside).mp rejected)

/-- Another message was taken, which is no rejection. -/
theorem Ledger.Indebted.of_removals {removal : Removal} (indebted : ledger.Indebted queue block)
    (settled : mid.Settled) (client : mid.client = ledger.client)
    (removals : mid.removals = removal :: ledger.removals) (taken : mid.taken = ledger.taken)
    (returned : mid.returned = ledger.returned) (queued : mid.queued = ledger.queued)
    (other : ¬ removal.Rejects) : mid.Indebted queue block where
  settled := settled
  inputQueue := by rw [client, indebted.inputQueue]
  messageIds := by rw [client, indebted.messageIds]
  taken := by rw [taken, indebted.taken]
  returned := by rw [returned, indebted.returned]
  queued := by rw [queued, indebted.queued]
  rejected := by
    intro ⟨found, member, rejects⟩
    rw [removals] at member
    obtain rfl | earlier := List.mem_cons.mp member
    · exact other rejects
    · exact indebted.rejected ⟨found, earlier, rejects⟩

end Debts

/-! ## The way to a connection -/

-- What a message is made of does not matter any more.
attribute [local irreducible] sendMessage

section Opening

variable {ledger : Ledger} {queue : InputQueue} {block : Allocation}

/-- A queue that is handed on lies in the one block; a failed allocation leaves no debt. -/
theorem allocateClientQueue_owes (responseQueueSize : UInt32) (debtless : ledger.Debtless) :
    (allocateClientQueue responseQueueSize).Ensures owning
      (fun queue mid => ∃ block, queue.Within block ∧ ∀ client : Client,
        client.inputQueue = queue → client.messageIds = [] →
          Ledger.Indebted { mid with client := client } queue block)
      (fun stop mid => mid.Fails stop) ledger := by
  have settled := debtless.settled
  refine ensures_bind.mpr (ensures_mapErr (fun bytes size => ?_) fun _ _ => debtless.fails)
  split
  · exact debtless.fails
  refine ensures_perform.mpr fun allocated mid answered => ?_
  obtain ⟨rfl, rfl⟩ | ⟨address, rfl, rfl⟩ := answered
  · exact debtless.fails
  refine ensures_perform.mpr fun created last answered => ?_
  obtain rfl := answered
  cases created with
  | ok done =>
      refine ⟨⟨address, bytes, cacheLineBytes⟩, ⟨?_, rfl, rfl⟩, fun client same none_ => ?_⟩
      · rw [← size, InputQueue.config, queueConfig, UInt32.ofNat_toNat]
        rfl
      · refine ⟨⟨settled.held, settled.drafts, settled.misread, settled.misreleased⟩, same, none_,
          ?_, debtless.returned, Bool.or_true _, ?_⟩
        · exact congrArg _ debtless.taken
        · rintro ⟨removal, member, -⟩
          have none_ : removal ∈ ledger.removals := member
          rw [debtless.removals] at none_
          cases none_
  | error source =>
      refine ensures_perform.mpr fun done last answered => ?_
      obtain rfl := answered
      refine fun _ _ => ⟨fun _ => .inl ?_, fun _ => ⟨?_, settled.drafts, settled.misreleased⟩⟩
      · exact (Bool.or_false _).trans debtless.queued
      · show _ :: ledger.returned = _ :: ledger.taken
        rw [debtless.returned, debtless.taken]

/-- A message that `receive` hands on: the last one taken. -/
def Ledger.Delivered (queue : InputQueue) (block : Allocation) (ledger : Ledger) :
    Option MsgBuf → Prop
  | none => ledger.Indebted queue block
  | some message => ∃ earlier payload, Ledger.Indebted earlier queue block ∧
      ledger = earlier.remove message.payload payload none ∧ ledger.Holding message payload

/-- Without a message table no message is taken for a keepalive. -/
theorem receive_delivered (deadline fuel : Nat) (indebted : ledger.Indebted queue block) :
    (receive deadline fuel).Ensures owning
      (fun received mid => mid.Delivered queue block received)
      (fun _ mid => mid.Indebted queue block) ledger := by
  refine ensures_receive deadline fuel (fun _ => id) (fun _ _ => id)
    (fun address payload reason mid indebted => ?_) (fun address reason mid indebted => ?_)
    (fun address payload mid indebted small => ?_) indebted
  · exact indebted.of_removals indebted.settled.report rfl rfl rfl rfl rfl
      fun rejects => (by cases rejects.1)
  · exact indebted.of_beside indebted.settled.dangle ⟨rfl, rfl, rfl, rfl, rfl⟩
  · refine ensures_accept _ small indebted.settled (fun id _ holding => ?_) fun short _ => ?_
    · have unlisted : mid.client.messageId (Api.nameCrc MemclntKeepalive) = none := by
        rw [Client.messageId, indebted.messageIds]
        rfl
      have other : ¬ (mid.client.handleKeepalives ∧
          some id = mid.client.messageId (Api.nameCrc MemclntKeepalive)) := by
        rw [unlisted]
        exact fun same => (by cases same.2)
      rw [dispatch, if_neg other]
      exact ⟨mid, payload, indebted, rfl, holding⟩
    · have unsound : ¬ (⟨address, payload, none⟩ : Removal).Sound :=
        fun sound => Nat.not_lt.mpr sound.2 short
      refine indebted.of_removals (indebted.settled.lose unsound) rfl rfl rfl rfl rfl ?_
      intro ⟨_, named, _⟩
      rw [messageId_eq, if_neg (Nat.not_le.mpr short)] at named
      cases named

/-- A message that was taken and is no rejection leaves the client in debt. -/
theorem Ledger.Indebted.freed {earlier mid : Ledger} {message : MsgBuf} {payload : Bytes}
    (indebted : earlier.Indebted queue block) (settled : mid.Settled)
    (beside : (earlier.remove message.payload payload none).Beside mid)
    (other : ¬ (⟨message.payload, payload, none⟩ : Removal).Rejects) :
    mid.Indebted queue block :=
  indebted.of_removals settled beside.client beside.removals beside.taken beside.returned
    beside.queued other

/-- Induction on the passes of the loop. -/
theorem awaitCreateReply_replied (path : String) (deadline fuel : Nat)
    (indebted : ledger.Indebted queue block) :
    (awaitCreateReply path deadline fuel).Ensures owning
      (fun reply mid => if reply.response < 0 then mid.Dismissed queue block
        else mid.Indebted queue block)
      (fun _ mid => mid.Indebted queue block) ledger := by
  induction fuel generalizing ledger with
  | zero => exact indebted
  | succ fuel ih =>
      refine (receive_delivered _ _ indebted).bind fun received mid delivered => ?_
      cases received with
      | none => exact delivered
      | some message =>
          obtain ⟨earlier, payload, indebted, removed, holding⟩ := delivered
          refine holding.messageId.bind fun id last answered => ?_
          obtain ⟨named, rfl⟩ := answered
          split
          · next other =>
              refine holding.discard fun mid settled beside => ih ?_
              rw [removed] at beside
              refine indebted.freed settled beside fun rejects => other ?_
              exact Except.ok.inj (named.symm.trans rejects.2.1)
          · next same =>
              refine holding.consume MemclntCreateV2Reply fun mid settled beside => ?_
              rw [removed] at beside
              refine ensures_mapErr (fun reply decoded => ?_) fun reason failed => ?_
              · split
                · next below =>
                    refine ⟨settled, ?_, ?_, ?_, ?_⟩
                    · exact (congrArg Client.inputQueue beside.client).trans indebted.inputQueue
                    · exact beside.taken.trans indebted.taken
                    · exact beside.returned.trans indebted.returned
                    · refine ⟨⟨message.payload, payload, none⟩, ?_, rfl, ?_, ?_⟩
                      · rw [beside.removals]
                        exact List.mem_cons_self
                      · rw [named, not_not.mp same]
                      · simp only [negative, decoded, below, decide_true]
                · next welcome =>
                    refine indebted.freed settled beside fun rejects => welcome ?_
                    have below := rejects.2.2
                    simp only [negative, decoded, decide_eq_true_eq] at below
                    exact below
              · refine indebted.freed settled beside fun rejects => ?_
                have below := rejects.2.2
                simp only [negative, failed, Bool.false_eq_true] at below

/-- The block of the queue goes back. -/
theorem releaseQueue_repays (within : queue.Within block)
    (dismissed : ledger.Dismissed queue block) :
    releaseQueue.Ensures owning (fun _ mid => mid.Repaid ∧ mid.Rejected)
      (fun _ _ => False) ledger := by
  refine ensures_perform.mpr fun self mid answered => ?_
  obtain ⟨rfl, rfl⟩ := answered
  rw [dismissed.inputQueue, within.size]
  refine ensures_perform.mpr fun done cleaned answered => ?_
  have same : cleaned = mid := answered
  intro done last answered
  obtain rfl := answered
  rw [same]
  refine ⟨⟨?_, dismissed.settled.drafts, dismissed.settled.misreleased⟩, dismissed.rejected⟩
  show _ :: mid.returned = mid.taken
  rw [dismissed.returned, dismissed.taken, ← within.address, ← within.align]

/-- Waiting leaves no debt. -/
theorem ensures_waits_debtless {α : Type} {call : Call α} (uses : call.Uses Op.Waits)
    (debtless : ledger.Debtless) :
    call.Ensures owning (fun _ => Ledger.Debtless) (fun stop mid => mid.Fails stop) ledger :=
  (ensures_waits uses).mono (fun _ _ same => same ▸ debtless)
    fun _ _ same => same ▸ debtless.fails

theorem connect_fails (fuel : Nat) (name path : String) (responseQueueSize : UInt32)
    (handleKeepalives : Bool) (debtless : ledger.Debtless) :
    (connect fuel name path responseQueueSize handleKeepalives).Ensures owning
      (fun _ _ => True) (fun stop mid => mid.Fails stop) ledger := by
  refine (ensures_waits_debtless uses_now debtless).bind fun instant mid debtless => ?_
  refine (ensures_waits_debtless (uses_awaitRegion path _ fuel) debtless).bind
    fun _ mid debtless => ?_
  refine (ensures_waits_debtless (uses_awaitHeader path _ fuel) debtless).bind
    fun header mid debtless => ?_
  refine ensures_perform.mpr fun validated last answered => ?_
  obtain rfl := answered
  refine ensures_bind.mpr (ensures_mapErr (fun _ _ => ?_) fun _ _ => debtless.fails)
  refine (allocateClientQueue_owes responseQueueSize debtless).bind fun queue mid owes => ?_
  obtain ⟨block, within, owes⟩ := owes
  refine ensures_perform.mpr fun done last answered => ?_
  obtain rfl := answered
  have indebted := owes ⟨header, queue, none, [], 0, handleKeepalives⟩ rfl rfl
  -- The request goes out or comes back, but the queue stays.
  have sent := (sendMessage_settled (createRequest queue name handleKeepalives)
    indebted.settled).mono (fun _ _ sent => indebted.of_beside sent.1 sent.2)
      fun _ _ sent => indebted.of_beside sent.1 sent.2
  refine (sent.mono (fun _ _ => id) fun _ _ => Ledger.Indebted.fails).bind
    fun _ mid indebted => ?_
  refine ((awaitCreateReply_replied path _ fuel indebted).mono (fun _ _ => id)
    fun _ _ => Ledger.Indebted.fails).bind fun reply mid replied => ?_
  split
  · next below =>
      rw [if_pos below] at replied
      refine ((releaseQueue_repays within replied).mono (fun _ _ => id)
        fun _ _ => False.elim).bind fun _ last repaid => ?_
      exact fun _ _ => ⟨fun _ => .inr repaid.2, fun _ => repaid.1⟩
  · next welcome =>
      rw [if_neg welcome] at replied
      refine ensures_perform.mpr fun remaining last answered => ?_
      obtain ⟨rfl, rfl⟩ | ⟨table, rfl, rfl⟩ := answered
      · exact replied.fails
      have inspected : Ledger.Indebted (mid.inspect reply.messageTable.toNat (tableLength table))
          queue block :=
        replied.of_beside (replied.settled.inspect _ _) ⟨rfl, rfl, rfl, rfl, rfl⟩
      refine ensures_bind.mpr (ensures_okOr (fun found _ => ?_) fun _ => inspected.fails)
      refine ensures_bind.mpr (ensures_mapErr (fun messageIds _ => ?_) fun _ _ => inspected.fails)
      exact fun _ _ _ _ _ _ => trivial

end Opening

/-- **What a failed `connect` gives back.** Whatever the region, the heap, the queues and the
server answer, everything that the client allocated has gone back, once each, if and only if no
queue was ever initialised or a reply that rejects the client was taken from it. -/
theorem repaid_iff {client : Client} {payloads : Nat → Option Bytes} {fuel : Nat}
    {name path : String} {responseQueueSize : UInt32} {handleKeepalives : Bool} {reason : Error}
    {ledger' : Ledger}
    (failed : (connect fuel name path responseQueueSize handleKeepalives).Runs owning
      (.fresh client payloads) (.error reason) ledger') :
    ledger'.Repaid ↔ ledger'.queued = false ∨ ledger'.Rejected :=
  have debtless : (Ledger.fresh client payloads).Debtless :=
    ⟨Ledger.settled_fresh client payloads, rfl, rfl, rfl, rfl⟩
  (connect_fails fuel name path responseQueueSize handleKeepalives debtless).of_runs failed
    reason rfl

/-- A client that was rejected has given its queue back. -/
theorem repaid_iff_rejected : ∃ ledger' : Ledger, ledger'.taken ≠ [] ∧ ledger'.Repaid := by
  obtain ⟨failed, removals, -, taken⟩ := attempted_rejection
  have rejects : Removal.Rejects ⟨16384, rejection, none⟩ :=
    ⟨rfl, by decide +kernel, by decide +kernel⟩
  refine ⟨(attempted rejection (.ok ())).2, taken,
    (repaid_iff (runs_of_desk failed)).mpr (.inr ?_)⟩
  · have member : ⟨16384, rejection, none⟩ ∈ (attempted rejection (.ok ())).2.removals := by
      rw [removals]
      exact List.mem_singleton_self _
    exact ⟨_, member, rejects⟩

/-- A client that finds the server's queue full, and so has told the server nothing, keeps the
block of its own queue. -/
theorem full_queue_not_repaid :
    ¬ ∀ (client : Client) (payloads : Nat → Option Bytes) (fuel : Nat) (name path : String)
      (responseQueueSize : UInt32) (handleKeepalives : Bool) (reason : Error) (ledger' : Ledger),
      (connect fuel name path responseQueueSize handleKeepalives).Runs owning
        (.fresh client payloads) (.error reason) ledger' →
      ledger'.sent = [] → ledger'.Repaid := by
  intro always
  have ended : (attempted [] (.error .queueFull)).1 = .error (.queue .queueFull) ∧
      (attempted [] (.error .queueFull)).2.sent = [] ∧
      (attempted [] (.error .queueFull)).2.taken ≠ [] ∧
      (attempted [] (.error .queueFull)).2.returned = [] := by decide +kernel
  obtain ⟨failed, sent, taken, returned⟩ := ended
  have repaid := always _ _ _ _ _ _ _ _ _ (runs_of_desk failed) sent
  exact taken (repaid.1.symm.trans returned)

end Netsystem.Connection
