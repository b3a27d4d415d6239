import Netsystem.Connection.Client

/-!
# A busy lock at a poll

Two runs of one call whose polls of the input queue answer alike, except that some of them find
the lock held (`LockBusy`). `polled` is the client on such a trace of outcomes: its fields are its
own, and everything but the polls is answered by a machine that never looks at the trace.

`receive` goes on after a poll that found the queue empty, and fails after one that found it
locked. So the runs are alike exactly when they are the first time held up at the same place, or
nowhere (`alike_iff_held_alike`).
-/

namespace Netsystem.Connection

open Netsystem.Api Netsystem.Shmem Netsystem.Prog

/-! ## Traces of polls -/

/-- The outcome of one `sub`. -/
abbrev Poll : Type := Except SvmQueueError Bytes

/-- The poll found the lock held. -/
def Poll.held : Poll → Bool
  | .error .lockBusy => true
  | _ => false

theorem Poll.eq_of_held {poll : Poll} (held : poll.held = true) : poll = .error .lockBusy := by
  unfold Poll.held at held
  split at held
  · rfl
  · cases held

theorem Poll.held_error (reason : SvmQueueError) :
    Poll.held (.error reason) = decide (reason = .lockBusy) := by
  cases reason <;> rfl

/-- The trace had the lock always been free. -/
def uncontended (polls : List Poll) : List Poll := polls.filter fun poll => !poll.held

theorem uncontended_cons_of_held {poll : Poll} (held : poll.held = true) (polls : List Poll) :
    uncontended (poll :: polls) = uncontended polls :=
  List.filter_cons_of_neg (by simp [held])

theorem uncontended_cons_of_free {poll : Poll} (free : poll.held = false) (polls : List Poll) :
    uncontended (poll :: polls) = poll :: uncontended polls :=
  List.filter_cons_of_pos (by simp [free])

/-- What the trace takes from the queue. -/
def elements (polls : List Poll) : List Bytes := polls.filterMap Except.toOption

theorem elements_uncontended (polls : List Poll) :
    elements (uncontended polls) = elements polls := by
  induction polls with
  | nil => rfl
  | cons poll polls ih =>
      cases held : poll.held with
      | true =>
          rw [uncontended_cons_of_held held, Poll.eq_of_held held]
          exact ih
      | false =>
          rw [uncontended_cons_of_free held, elements, List.filterMap_cons, elements,
            List.filterMap_cons]
          split
          · exact ih
          · exact congrArg _ ih

/-! ## The client on a trace -/

/-- The fields of the client, what its polls will find, and everything else. -/
structure Polled (τ : Type) : Type where
  client : Client
  polls : List Poll
  others : τ

namespace Polled

variable {τ : Type} (state : Polled τ) {polls : List Poll}

/-- What is left in the queue. -/
def content : List Bytes := elements state.polls

/-- The next poll. After the last one the queue stays empty. -/
def poll : Poll × Polled τ :=
  match state.polls with
  | [] => (.error .empty, state)
  | poll :: polls => (poll, { state with polls := polls })

variable {state}

theorem content_eq (same : uncontended state.polls = uncontended polls) :
    Polled.content { state with polls := polls } = state.content := by
  rw [content, content, ← elements_uncontended, ← same, elements_uncontended]

/-- A poll takes at most the element that it answers with. -/
theorem content_poll : state.content = state.poll.1.toOption.toList ++ state.poll.2.content := by
  obtain ⟨client, polls, others⟩ := state
  cases polls with
  | nil => rfl
  | cons poll polls => cases poll <;> rfl

theorem poll_client : state.poll.2.client = state.client := by
  unfold poll
  split <;> rfl

/-- Two polls that find the lock free answer alike. -/
theorem poll_alike (same : uncontended state.polls = uncontended polls)
    (free : state.poll.1.held = false)
    (free' : (Polled.poll { state with polls := polls }).1.held = false) :
    ∃ rest, Polled.poll { state with polls := polls } =
        (state.poll.1, { state.poll.2 with polls := rest }) ∧
      uncontended state.poll.2.polls = uncontended rest := by
  obtain ⟨client, trace, others⟩ := state
  cases trace with
  | nil =>
      cases polls with
      | nil => exact ⟨[], rfl, rfl⟩
      | cons poll' rest' =>
          have kept : uncontended (poll' :: rest') = poll' :: uncontended rest' :=
            uncontended_cons_of_free free' rest'
          cases same.trans kept
  | cons poll rest =>
      have kept : uncontended (poll :: rest) = poll :: uncontended rest :=
        uncontended_cons_of_free free rest
      cases polls with
      | nil => cases kept.symm.trans same
      | cons poll' rest' =>
          have kept' : uncontended (poll' :: rest') = poll' :: uncontended rest' :=
            uncontended_cons_of_free free' rest'
          obtain ⟨rfl, tails⟩ := List.cons.inj (kept.symm.trans (same.trans kept'))
          exact ⟨rest', rfl, tails⟩

end Polled

section Device

variable {τ : Type}

def polled (machine : Device Op Op.Ret τ) : Device Op Op.Ret (Polled τ)
  | .load, state => some (state.client, state)
  | .store client, state => some ((), { state with client := client })
  | .sub _, state => some state.poll
  | op, state =>
      (machine op state.others).map fun answered =>
        (answered.1, { state with others := answered.2 })

/-- A poll that found the lock held. -/
def busy : (op : Op) → op.Ret → Bool
  | .sub _, poll => Poll.held poll
  | _, _ => false

variable {α : Type} (machine : Device Op Op.Ret τ)

/-- What is left in the queue when a poll of the call first finds the lock held. -/
def heldAt (call : Call α) (state : Polled τ) : Option (List Bytes) :=
  (call.meets (polled machine) busy state).map Polled.content

/-- Two runs end alike, with the same fields and the same left in the queue. -/
structure Alike (run run' : Outcome Error α × Polled τ) : Prop where
  outcome : run'.1 = run.1
  client : run'.2.client = run.2.client
  content : run'.2.content = run.2.content

end Device

/-- The calls that receive. -/
inductive Receiver : Type → Type 1 where
  | receive (deadline : Nat) : Receiver (Option MsgBuf)
  | invoke {Request : Type} (Reply : Type) [Api Request] [Api Reply] (request : Request) :
      Receiver Reply
  | disconnect : Receiver Unit
  | awaitCreateReply (path : String) (deadline : Nat) : Receiver MemclntCreateV2Reply

def Receiver.run {α : Type} (fuel : Nat) : Receiver α → Call α
  | .receive deadline => Connection.receive deadline fuel
  | @invoke _ Reply _ _ request => Connection.invoke Reply fuel request
  | .disconnect => Connection.disconnect fuel
  | .awaitCreateReply path deadline => Connection.awaitCreateReply path deadline fuel

/-! ## Waiting at an empty queue -/

/-- The fields of the client, and whether a poll found the lock held. -/
structure Idle : Type where
  client : Client
  held : Bool

/-- Nothing is ever taken from the queue. -/
def idling : Handler Op Op.Ret Idle
  | .load, idle, client, idle' => client = idle.client ∧ idle' = idle
  | .store client, idle, _, idle' => idle' = { idle with client := client }
  | .sub _, idle, poll, idle' =>
      ∃ reason, poll = .error reason ∧ idle' = { idle with held := idle.held || Poll.held poll }
  | _, idle, _, idle' => idle' = idle

/-- As long as nothing is taken from the queue, the call changes no field, gives only a `value`
and fails with `LockBusy` only because of a poll. -/
def Idles {α : Type} (value : α → Prop) (call : Call α) : Prop :=
  ∀ client, call.Ensures idling (fun result idle => value result ∧ idle = ⟨client, false⟩)
    (fun stop idle => idle.client = client ∧
      (stop = .error (.queue .lockBusy) → idle.held = true)) ⟨client, false⟩

section Idles

variable {α β : Type} {value : α → Prop} {value' : β → Prop} {call : Call α} {next : α → Call β}

theorem Idles.bind (first : Idles value call)
    (rest : ∀ result, value result → Idles value' (next result)) :
    Idles value' (call.bind next) := by
  intro client
  refine (first client).bind fun result idle ended => ?_
  obtain ⟨given, rfl⟩ := ended
  exact rest result given client

theorem idles_pure {result : α} (given : value result) : Idles value (.done (.ok result)) :=
  fun _ => ⟨given, rfl⟩

theorem idles_pending : Idles value .pending :=
  fun _ => ⟨rfl, fun same => by cases same⟩

theorem idles_throw {reason : Error} (other : reason ≠ .queue .lockBusy) :
    Idles value (.throw reason) :=
  fun _ => ⟨rfl, fun same => absurd (Stop.error.inj same) other⟩

theorem idles_load {next : Client → Call β} (rest : ∀ self, Idles value' (next self)) :
    Idles value' (load.bind next) := by
  rintro client self idle ⟨rfl, rfl⟩
  exact rest _ _

theorem idles_now {next : Nat → Call β} (rest : ∀ instant, Idles value' (next instant)) :
    Idles value' (now.bind next) := by
  rintro client instant idle rfl
  exact rest _ _

theorem idles_sleep {next : Unit → Call β} (rest : Idles value' (next ())) :
    Idles value' (sleep.bind next) := by
  rintro client awake idle rfl
  cases awake with
  | true => exact rest client
  | false => exact ⟨rfl, fun same => by cases same⟩

/-- A poll that takes nothing and what follows it, which gives up at a held lock. -/
theorem idles_poll {queue : InputQueue} {next : Poll → Call β}
    (gives : next (.error .lockBusy) = .throw (.queue .lockBusy))
    (rest : ∀ reason, reason ≠ .lockBusy → Idles value' (next (.error reason))) :
    Idles value' ((perform (Op.sub queue)).bind next) := by
  rintro client poll idle ⟨reason, rfl, rfl⟩
  show (next (.error reason)).Ensures idling _ _ ⟨client, Poll.held (.error reason)⟩
  by_cases held : reason = .lockBusy
  · rw [held, gives]
    exact ⟨rfl, fun _ => rfl⟩
  · rw [Poll.held_error, decide_eq_false held]
    exact rest reason held client

end Idles

/-! ## Calls that give up at a held lock -/

/-- Everything but a poll. -/
def Op.Unpolled : Op → Prop
  | .sub _ => False
  | _ => True

theorem unpolled_of_waits (op : Op) (waits : op.Waits) : op.Unpolled := by
  cases op <;> first | exact trivial | exact absurd waits not_false

theorem unpolled_of_handles (op : Op) (handles : op.Handles) : op.Unpolled := by
  cases op <;> first | exact trivial | exact absurd handles not_false

/-- Each poll of the call that finds the lock held ends it; one that finds the queue empty leaves
it idle. -/
inductive GivesUp {α : Type} (value : α → Prop) : Call α → Prop where
  | done (outcome : Outcome Error α) : GivesUp value (.done outcome)
  | step {op : Op} {next : op.Ret → Call α} (unpolled : op.Unpolled)
      (rest : ∀ answer, GivesUp value (next answer)) : GivesUp value (.step op next)
  | poll {queue : InputQueue} {next : Poll → Call α}
      (gives : next (.error .lockBusy) = .throw (.queue .lockBusy))
      (idles : ∀ reason, reason ≠ .lockBusy → Idles value (next (.error reason)))
      (rest : ∀ poll, GivesUp value (next poll)) : GivesUp value (.step (.sub queue) next)

section GivesUp

variable {α β : Type} {value : α → Prop} {value' : β → Prop} {call : Call α} {next : α → Call β}

theorem GivesUp.of_uses (uses : call.Uses Op.Unpolled) : GivesUp value call := by
  induction call with
  | done outcome => exact .done outcome
  | step op next ih => exact .step uses.1 fun answer => ih answer (uses.2 answer)

theorem GivesUp.bind (first : GivesUp value call)
    (idles : ∀ result, value result → Idles value' (next result))
    (rest : ∀ result, GivesUp value' (next result)) : GivesUp value' (call.bind next) := by
  induction first with
  | done outcome =>
      cases outcome with
      | ok result => exact rest result
      | error reason => exact .done _
      | panic => exact .done _
      | pending => exact .done _
  | step unpolled _ ih => exact .step unpolled ih
  | poll gives idle _ ih =>
      refine .poll (by rw [gives]; rfl) (fun reason other => (idle reason other).bind idles) ih

theorem GivesUp.after (uses : call.Uses Op.Unpolled)
    (rest : ∀ result, GivesUp value' (next result)) : GivesUp value' (call.bind next) := by
  have first : GivesUp (fun _ => False) call := .of_uses uses
  exact first.bind (fun _ => False.elim) rest

end GivesUp

/-! ## One run -/

section Run

variable {τ α : Type} {machine : Device Op Op.Ret τ} {state : Polled τ} {value : α → Prop}
  {call : Call α}

theorem busy_of_unpolled {op : Op} (unpolled : op.Unpolled) (answer : op.Ret) :
    busy op answer = false := by
  cases op <;> first | rfl | exact absurd unpolled not_false

/-- What is no poll is answered whatever the trace. -/
theorem polled_of_unpolled (machine : Device Op Op.Ret τ) (state : Polled τ) {op : Op}
    (unpolled : op.Unpolled) (polls : List Poll) :
    polled machine op { state with polls := polls } =
      (polled machine op state).map fun answered =>
        (answered.1, { answered.2 with polls := polls }) := by
  cases op with
  | sub queue => exact absurd unpolled not_false
  | load => rfl
  | store client => rfl
  | _ =>
      simp only [polled, Option.map_map]
      rfl

theorem polls_of_unpolled {op : Op} {answer : op.Ret} {mid : Polled τ} (unpolled : op.Unpolled)
    (answered : polled machine op state = some (answer, mid)) : mid.polls = state.polls := by
  have same : polled machine op state = (polled machine op state).map fun answered =>
      (answered.1, { answered.2 with polls := state.polls }) :=
    polled_of_unpolled machine state unpolled state.polls
  rw [answered] at same
  exact congrArg (fun answered => answered.2.polls) (Option.some.inj same)

theorem idling_of_unpolled {op : Op} {answer : op.Ret} {mid : Polled τ} (unpolled : op.Unpolled)
    (answered : polled machine op state = some (answer, mid)) (held : Bool) :
    idling op ⟨state.client, held⟩ answer ⟨mid.client, held⟩ := by
  cases op with
  | sub queue => exact absurd unpolled not_false
  | load =>
      cases answered
      exact ⟨rfl, rfl⟩
  | store client =>
      cases answered
      rfl
  | _ =>
      obtain ⟨given, -, same⟩ := Option.map_eq_some_iff.mp answered
      cases same
      rfl

theorem heldAt_step {op : Op} {next : op.Ret → Call α} {answer : op.Ret} {mid : Polled τ}
    (unpolled : op.Unpolled) (answered : polled machine op state = some (answer, mid)) :
    heldAt machine (.step op next) state = heldAt machine (next answer) mid := by
  rw [heldAt, meets_step_of_answer answered, busy_of_unpolled unpolled]
  rfl

theorem heldAt_refused {op : Op} {next : op.Ret → Call α}
    (refused : polled machine op state = none) : heldAt machine (.step op next) state = none := by
  rw [heldAt, meets_step_of_refused refused]
  rfl

theorem exec_poll {queue : InputQueue} {next : Poll → Call α} :
    exec (polled machine) (.step (.sub queue) next) state =
      (next state.poll.1).exec (polled machine) state.poll.2 := rfl

theorem heldAt_poll {queue : InputQueue} {next : Poll → Call α} :
    heldAt machine (.step (.sub queue) next) state =
      if state.poll.1.held then some state.poll.2.content
      else heldAt machine (next state.poll.1) state.poll.2 :=
  apply_ite (Option.map Polled.content) ..

/-- A run that is held up ends there. -/
theorem GivesUp.exec_of_held (givesUp : GivesUp value call) {content : List Bytes}
    (held : heldAt machine call state = some content) :
    (call.exec (polled machine) state).1 = .error (.queue .lockBusy) ∧
      (call.exec (polled machine) state).2.content = content := by
  induction givesUp generalizing state with
  | done outcome => cases held
  | @step op next unpolled _ ih =>
      cases answered : polled machine op state with
      | none =>
          rw [heldAt_refused answered] at held
          cases held
      | some answer =>
          rw [heldAt_step unpolled answered] at held
          rw [exec_step_of_answer answered]
          exact ih answer.1 held
  | @poll queue next gives _ _ ih =>
      rw [heldAt_poll] at held
      rw [exec_poll]
      by_cases busy : state.poll.1.held = true
      · rw [if_pos busy] at held
        rw [Poll.eq_of_held busy, gives]
        exact ⟨rfl, Option.some.inj held⟩
      · rw [if_neg busy] at held
        exact ih state.poll.1 held

/-- Elements leave the queue from its head. -/
theorem content_suffix_exec (machine : Device Op Op.Ret τ) (call : Call α) (state : Polled τ) :
    (call.exec (polled machine) state).2.content <:+ state.content := by
  induction call generalizing state with
  | done outcome => exact List.suffix_rfl
  | step op next ih =>
      cases answered : polled machine op state with
      | none =>
          have refused : exec (polled machine) (.step op next) state = (.panic, state) :=
            exec_step_of_refused answered
          exact refused ▸ List.suffix_rfl
      | some answer =>
          rw [exec_step_of_answer answered]
          refine (ih answer.1 answer.2).trans ?_
          by_cases unpolled : op.Unpolled
          · have same : answer.2.content = state.content :=
              congrArg elements (polls_of_unpolled unpolled answered)
            exact same ▸ List.suffix_rfl
          · obtain ⟨queue, rfl⟩ : ∃ queue, op = .sub queue := by
              cases op <;> first | exact ⟨_, rfl⟩ | exact absurd trivial unpolled
            obtain rfl := Option.some.inj answered
            exact ⟨_, state.content_poll.symm⟩

/-- A run takes an element, meets a fault or idles. -/
theorem taken_or_idle (machine : Device Op Op.Ret τ) (call : Call α) (state : Polled τ)
    (held : Bool) :
    (call.exec (polled machine) state).2.content.length < state.content.length ∨
      (call.exec (polled machine) state).1 = .panic ∨
      ∃ idle, call.Runs idling ⟨state.client, held⟩ (call.exec (polled machine) state).1 idle ∧
        (call.exec (polled machine) state).2.client = idle.client ∧
        (idle.held = true → held = true ∨ (heldAt machine call state).isSome) := by
  induction call generalizing state held with
  | done outcome => exact .inr (.inr ⟨_, ⟨rfl, rfl⟩, rfl, .inl⟩)
  | step op next ih =>
      by_cases unpolled : op.Unpolled
      · cases answered : polled machine op state with
        | none =>
            rw [exec_step_of_refused answered]
            exact .inr (.inl rfl)
        | some answer =>
            rw [exec_step_of_answer answered, heldAt_step unpolled answered]
            have same : answer.2.content = state.content :=
              congrArg elements (polls_of_unpolled unpolled answered)
            rw [← same]
            rcases ih answer.1 answer.2 held with taken | fault | ⟨idle, run, client, found⟩
            · exact .inl taken
            · exact .inr (.inl fault)
            · have answers := idling_of_unpolled unpolled answered held
              exact .inr (.inr ⟨idle, ⟨answer.1, _, answers, run⟩, client, found⟩)
      · obtain ⟨queue, rfl⟩ : ∃ queue, op = .sub queue := by
          cases op <;> first | exact ⟨_, rfl⟩ | exact absurd trivial unpolled
        rw [exec_poll, heldAt_poll]
        have split := state.content_poll
        cases outcome : state.poll.1 with
        | ok element =>
            rw [outcome] at split
            have kept := (content_suffix_exec machine (next (.ok element)) state.poll.2).length_le
            refine .inl ?_
            rw [split]
            exact Nat.lt_succ_of_le kept
        | error reason =>
            rw [outcome] at split
            rw [split]
            rcases ih (.error reason) state.poll.2 (held || Poll.held (.error reason)) with
              taken | fault | ⟨idle, run, client, found⟩
            · exact .inl taken
            · exact .inr (.inl fault)
            · rw [state.poll_client] at run
              refine .inr (.inr ⟨idle, ⟨_, _, ⟨reason, rfl, rfl⟩, run⟩, client, fun marked => ?_⟩)
              rcases found marked with before | after
              · rcases Bool.or_eq_true_iff.mp before with before | now
                · exact .inl before
                · rw [if_pos now]
                  exact .inr rfl
              · refine .inr ?_
                split_ifs
                · rfl
                · exact after

/-- A run like one held up at once is held up before it takes anything. -/
theorem GivesUp.alike_held_iff (givesUp : GivesUp value call) (idles : Idles value call)
    {stopped : Polled τ} (client : stopped.client = state.client)
    (content : stopped.content = state.content) :
    Alike (.error (.queue .lockBusy), stopped) (call.exec (polled machine) state) ↔
      heldAt machine call state = some stopped.content := by
  have idle := taken_or_idle machine call state false
  constructor
  · rintro ⟨failed, -, left⟩
    rcases idle with taken | fault | ⟨idle, run, -, found⟩
    · rw [left, content] at taken
      exact absurd taken (Nat.lt_irrefl _)
    · rw [fault] at failed
      cases failed
    · rw [failed] at run
      obtain ⟨-, marked⟩ := (idles state.client).of_runs run
      rcases found (marked rfl) with impossible | somewhere
      · cases impossible
      · obtain ⟨where_, held⟩ := Option.isSome_iff_exists.mp somewhere
        rw [held, ← (givesUp.exec_of_held held).2, left]
  · intro held
    obtain ⟨failed, left⟩ := givesUp.exec_of_held held
    refine ⟨failed, ?_, left⟩
    rcases idle with taken | fault | ⟨idle, run, same, -⟩
    · rw [left, content] at taken
      exact absurd taken (Nat.lt_irrefl _)
    · rw [failed] at fault
      cases fault
    · rw [failed] at run
      obtain ⟨kept, -⟩ := (idles state.client).of_runs run
      rw [same, kept, client]

end Run

/-! ## Two runs -/

section Runs

variable {τ α : Type} {machine : Device Op Op.Ret τ} {state : Polled τ} {polls : List Poll}
  {value : α → Prop} {call : Call α}

theorem alike_comm {run run' : Outcome Error α × Polled τ} : Alike run run' ↔ Alike run' run :=
  ⟨fun alike => ⟨alike.outcome.symm, alike.client.symm, alike.content.symm⟩,
    fun alike => ⟨alike.outcome.symm, alike.client.symm, alike.content.symm⟩⟩

/-- Where one run is held up at once, the other is alike if it is held up before it takes
anything. -/
theorem alike_poll_iff {queue : InputQueue} {next : Poll → Call α}
    (givesUp : GivesUp value (.step (.sub queue) next))
    (gives : next (.error .lockBusy) = .throw (.queue .lockBusy))
    (idles : Idles value (.step (.sub queue) next)) {state' : Polled τ}
    (client : state.client = state'.client) (content : state.content = state'.content)
    (held : state.poll.1.held = true) :
    Alike (exec (polled machine) (.step (.sub queue) next) state)
        (exec (polled machine) (.step (.sub queue) next) state') ↔
      heldAt machine (.step (.sub queue) next) state =
        heldAt machine (.step (.sub queue) next) state' := by
  have split := state.content_poll
  rw [Poll.eq_of_held held] at split
  have stopped : exec (polled machine) (.step (.sub queue) next) state =
      (.error (.queue .lockBusy), state.poll.2) := by
    rw [exec_poll, Poll.eq_of_held held, gives]
    rfl
  rw [stopped, heldAt_poll, if_pos held, @eq_comm _ (some _)]
  exact givesUp.alike_held_iff idles (state.poll_client.trans client) (split.symm.trans content)

/-- Two runs of a call on traces that differ in busy locks only end alike exactly when they are
held up at the same place, or nowhere: up to the first held lock they go together, and after it
one of them ends. -/
theorem GivesUp.alike_iff (givesUp : GivesUp value call)
    (same : uncontended state.polls = uncontended polls) :
    Alike (call.exec (polled machine) state)
        (call.exec (polled machine) { state with polls := polls }) ↔
      heldAt machine call state = heldAt machine call { state with polls := polls } := by
  induction givesUp generalizing state polls with
  | done outcome => exact ⟨fun _ => rfl, fun _ => ⟨rfl, rfl, state.content_eq same⟩⟩
  | @step op next unpolled _ ih =>
      have answered' := polled_of_unpolled machine state unpolled polls
      cases answered : polled machine op state with
      | none =>
          rw [answered] at answered'
          rw [exec_step_of_refused answered, exec_step_of_refused answered',
            heldAt_refused answered, heldAt_refused answered']
          exact ⟨fun _ => rfl, fun _ => ⟨rfl, rfl, state.content_eq same⟩⟩
      | some answer =>
          rw [answered] at answered'
          rw [exec_step_of_answer answered, exec_step_of_answer answered',
            heldAt_step unpolled answered, heldAt_step unpolled answered']
          refine ih answer.1 ?_
          rw [polls_of_unpolled unpolled answered, same]
  | @poll queue next gives idle rest ih =>
      have givesUp : GivesUp value (.step (.sub queue) next) := .poll gives idle rest
      have idles : Idles value (.step (.sub queue) next) := idles_poll gives idle
      have content := state.content_eq same
      by_cases held : state.poll.1.held = true
      · exact alike_poll_iff givesUp gives idles rfl content.symm held
      by_cases held' : (Polled.poll { state with polls := polls }).1.held = true
      · rw [alike_comm, eq_comm]
        exact alike_poll_iff givesUp gives idles rfl content held'
      · obtain ⟨others, polled_, tails⟩ := state.poll_alike same (Bool.eq_false_iff.mpr held)
          (Bool.eq_false_iff.mpr held')
        rw [exec_poll, exec_poll, heldAt_poll, heldAt_poll, if_neg held, if_neg held', polled_]
        exact ih state.poll.1 tails

end Runs

/-! ## The calls that receive -/

section Receivers

-- What a message is made of does not matter any more.
attribute [local irreducible] sendMessage

/-- What `receive` does about the outcome of its poll. -/
def react (deadline fuel : Nat) (self : Client) : Poll → Call (Option MsgBuf)
  | .ok address => do
      match ← accept self address with
      | some message => pure (some message)
      | none => receive deadline fuel
  | .error .empty => do
      let instant ← now
      if deadline ≤ instant then pure none
      else do
        sleep
        receive deadline fuel
  | .error source => .throw (.queue source)

theorem receive_succ (deadline fuel : Nat) :
    receive deadline (fuel + 1) = load.bind fun self =>
      .step (.sub self.inputQueue) (react deadline fuel self) := by
  refine congrArg load.bind (funext fun self => congrArg (Prog.step _) (funext fun poll => ?_))
  cases poll with
  | ok address => rfl
  | error source => cases source <;> rfl

theorem idles_react {deadline fuel : Nat} (again : Idles (· = none) (receive deadline fuel))
    (self : Client) (reason : SvmQueueError) (other : reason ≠ .lockBusy) :
    Idles (· = none) (react deadline fuel self (.error reason)) := by
  have fails : Idles (· = (none : Option MsgBuf)) (.throw (.queue reason)) :=
    idles_throw fun same => other (Error.queue.inj same)
  cases reason with
  | empty =>
      refine idles_now fun instant => ?_
      split
      · exact idles_pure rfl
      · exact idles_sleep again
  | _ => exact fails

/-- While the queue gives nothing, `receive` can only find that it is too late. -/
theorem idles_receive (deadline fuel : Nat) : Idles (· = none) (receive deadline fuel) := by
  induction fuel with
  | zero => exact idles_pending
  | succ fuel ih =>
      rw [receive_succ]
      exact idles_load fun self => idles_poll rfl (idles_react ih self)

theorem givesUp_receive (deadline fuel : Nat) : GivesUp (· = none) (receive deadline fuel) := by
  induction fuel with
  | zero => exact .done .pending
  | succ fuel ih =>
      rw [receive_succ]
      refine .step trivial fun self =>
        .poll rfl (idles_react (idles_receive deadline fuel) self) fun poll => ?_
      cases poll with
      | ok address =>
          refine .after (uses_accept unpolled_of_handles self address) fun message => ?_
          cases message with
          | some message => exact .done _
          | none => exact ih
      | error source =>
          cases source with
          | empty =>
              refine .after (uses_now.mono unpolled_of_waits) fun instant => ?_
              split
              · exact .done _
              · exact .after (uses_sleep.mono unpolled_of_waits) fun _ => ih
          | _ => exact .done _

/-- A message in hand is looked at without another poll. -/
theorem givesUp_reply {Reply α : Type} [Api Reply] {value : α → Prop} (message : MsgBuf)
    {expected : UInt16} {ignored : UInt16 → Call α} {rest : Except Api.Error Reply → Call α}
    (ignores : ∀ id, GivesUp value (ignored id))
    (goes : ∀ decoded, (rest decoded).Uses Op.Unpolled) :
    GivesUp value ((messageId message).bind fun id =>
      if id ≠ expected then (free message).bind fun _ => ignored id
      else (decode Reply message).bind fun decoded =>
        (free message).bind fun _ => rest decoded) := by
  refine .after (uses_messageId (reads_of_handles unpolled_of_handles) message) fun id => ?_
  split
  · exact .after (uses_free (reads_of_handles unpolled_of_handles) message) fun _ => ignores id
  · exact .of_uses ((uses_decode (reads_of_handles unpolled_of_handles) Reply message).bind
      fun decoded =>
      (uses_free (reads_of_handles unpolled_of_handles) message).bind fun _ => goes decoded)

theorem givesUp_awaitDeleteReply (clientIndex : UInt32) (deleteReplyId : UInt16)
    (deadline fuel : Nat) :
    GivesUp (fun _ => False) (awaitDeleteReply clientIndex deleteReplyId deadline fuel) := by
  induction fuel with
  | zero => exact .done .pending
  | succ fuel ih =>
      refine (givesUp_receive deadline (fuel + 1)).bind ?_ fun message => ?_
      · rintro _ rfl
        exact idles_throw fun same => (by cases same)
      cases message with
      | none => exact .done _
      | some message =>
          refine givesUp_reply message (fun _ => ih) fun decoded =>
            uses_mapErr.bind fun reply => ?_
          split <;> exact trivial

theorem givesUp_awaitCreateReply (path : String) (deadline fuel : Nat) :
    GivesUp (fun _ => False) (awaitCreateReply path deadline fuel) := by
  induction fuel with
  | zero => exact .done .pending
  | succ fuel ih =>
      refine (givesUp_receive deadline (fuel + 1)).bind ?_ fun message => ?_
      · rintro _ rfl
        exact idles_throw fun same => (by cases same)
      cases message with
      | none => exact .done _
      | some message =>
          exact givesUp_reply message (fun _ => ih) fun _ => uses_mapErr

theorem uses_releaseQueue : releaseQueue.Uses Op.Unpolled := by
  refine uses_perform_bind trivial fun self => ?_
  split
  · exact trivial
  · exact uses_perform_bind trivial fun _ => uses_perform trivial

theorem givesUp_disconnect (fuel : Nat) : GivesUp (fun _ => False) (disconnect fuel) := by
  refine .after (uses_perform trivial) fun self => .after uses_okOr fun clientIndex =>
    .after uses_okOr fun deleteId => .after uses_okOr fun deleteReplyId =>
      .after (uses_sendMessage unpolled_of_handles _) fun _ =>
        .after (uses_now.mono unpolled_of_waits) fun instant => ?_
  refine (givesUp_awaitDeleteReply clientIndex deleteReplyId _ fuel).bind (fun _ => False.elim)
    fun _ => ?_
  exact .of_uses (uses_perform_bind trivial fun self =>
    uses_perform_bind trivial fun _ => uses_releaseQueue)

theorem givesUp_invoke {Request : Type} (Reply : Type) [Api Request] [Api Reply] (fuel : Nat)
    (request : Request) : GivesUp (fun _ => False) (invoke Reply fuel request) := by
  refine .after (uses_perform trivial) fun self => .after uses_okOr fun clientIndex =>
    .after uses_okOr fun service => .after uses_okOr fun expected => ?_
  split
  · exact .done _
  refine .after uses_okOr fun requestId => .after uses_okOr fun replyId =>
    .after (uses_perform_bind trivial fun self => uses_perform_bind trivial fun _ => trivial)
      fun context => .after (uses_sendMessage unpolled_of_handles _) fun _ =>
        .after (uses_now.mono unpolled_of_waits) fun instant => ?_
  refine (givesUp_receive _ fuel).bind ?_ fun message => ?_
  · rintro _ rfl
    exact idles_throw fun same => (by cases same)
  cases message with
  | none => exact .done _
  | some message =>
      refine givesUp_reply message (fun _ => .done _) fun decoded =>
        uses_mapErr.bind fun reply => ?_
      split
      · split <;> exact trivial
      · exact trivial

theorem Receiver.givesUp {α : Type} (receiver : Receiver α) (fuel : Nat) :
    ∃ value, GivesUp value (receiver.run fuel) := by
  cases receiver with
  | receive deadline => exact ⟨_, givesUp_receive deadline fuel⟩
  | invoke _ request => exact ⟨_, givesUp_invoke α fuel request⟩
  | disconnect => exact ⟨_, givesUp_disconnect fuel⟩
  | awaitCreateReply path deadline => exact ⟨_, givesUp_awaitCreateReply path deadline fuel⟩

/-- Two runs of one call, on traces that differ in busy locks only, end alike exactly when their
polls are first held up at the same place of the queue, or never. -/
theorem alike_iff_held_alike {τ α : Type} (receiver : Receiver α) (fuel : Nat)
    (machine : Device Op Op.Ret τ) (state : Polled τ) (polls : List Poll)
    (same : uncontended state.polls = uncontended polls) :
    Alike ((receiver.run fuel).exec (polled machine) state)
        ((receiver.run fuel).exec (polled machine) { state with polls := polls }) ↔
      heldAt machine (receiver.run fuel) state =
        heldAt machine (receiver.run fuel) { state with polls := polls } := by
  obtain ⟨value, givesUp⟩ := receiver.givesUp fuel
  exact givesUp.alike_iff same

/-- A clock that stands still, and a message of two bytes at every address. -/
def standing : Device Op Op.Ret Unit := fun op _ =>
  match op with
  | .now => some (0, ())
  | .sleep => some (true, ())
  | .fromAddress address => some (.ok ⟨address, 2, 2⟩, ())
  | .bytes _ => some ([0, 7], ())
  | _ => none

/-- A client before its first poll. -/
def awaiting (polls : List Poll) : Polled Unit where
  client :=
    { header := 0, inputQueue := ⟨64, ⟨1, 8⟩⟩, clientIndex := none, messageIds := []
      contextCounter := 0, handleKeepalives := true }
  polls := polls
  others := ()

/-- After the message has come a held lock no longer matters. -/
theorem alike_iff_held_alike_received :
    Alike
      ((Receiver.run 3 (.receive 1)).exec (polled standing)
        (awaiting [.error .empty, .ok (leBytes 8 512), .error .lockBusy]))
      ((Receiver.run 3 (.receive 1)).exec (polled standing)
        (awaiting [.error .empty, .ok (leBytes 8 512)])) :=
  (alike_iff_held_alike (.receive 1) 3 standing
    (awaiting [.error .empty, .ok (leBytes 8 512), .error .lockBusy])
    [.error .empty, .ok (leBytes 8 512)] rfl).mpr (by decide +kernel)

/-- The message is there, and the clock stands before the deadline; one poll that finds the lock
held, and `receive` fails. -/
theorem held_lock_fails :
    uncontended [.error .lockBusy, .ok (leBytes 8 512)] = [.ok (leBytes 8 512)] ∧
      ((Receiver.run 3 (.receive 1)).exec (polled standing)
        (awaiting [.ok (leBytes 8 512)])).1 = .ok (some ⟨512, 2, 2⟩) ∧
      ((Receiver.run 3 (.receive 1)).exec (polled standing)
        (awaiting [.error .lockBusy, .ok (leBytes 8 512)])).1 =
          .error (.queue .lockBusy) := by
  refine ⟨rfl, ?_, ?_⟩ <;> decide +kernel

end Receivers

end Netsystem.Connection
