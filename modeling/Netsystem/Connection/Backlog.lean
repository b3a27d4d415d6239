import Netsystem.Connection.Correlation

/-!
# Replies that come too late for their requests

One client whose server answers every request once, in order, after any delay, and nothing else
comes through the input queue. A call that fails or is dropped leaves its reply behind: it is
still owed (`Post.owed`), and comes ahead of the replies to later requests. `own_iff` says which
calls of `invoke`, after any others, return their own reply.

`instants` are the readings of the clock, one for each look into the queue and one for each
`Instant::now`; `arrives` is when the reply to each request is in the queue.
-/

namespace Netsystem.Connection

open Netsystem.Api Netsystem.Shmem Netsystem.Prog

/-! ## A prompt or a late server -/

/-- The message is a reply to the payload: of the declared type, and with the context of the
request where that type has one. -/
def Client.Replies (client : Client) (asked : Bytes) {reply : MessageType}
    (message : reply.Message) : Prop :=
  ∃ (request : MessageType) (read : request.Message), client.Reads asked request read ∧
    Answers request reply ∧
      client.messageId (Api.nameCrc reply.Message) = some (reply.id message) ∧
      (∀ context, Api.context message = some context → Api.context read = some context) ∧
        Serializes message (encoding message)

/-- The client, its buffers, the number of requests that the server received, the readings of the
clock so far, the replies that were not taken yet with their arrivals, the last of them to be
made, and the messages in the client's hands. -/
structure Post : Type where
  client : Client
  drafts : Nat → Bytes
  count : Nat
  tick : Nat
  owed : List (Nat × Bytes)
  latest : Bytes
  mail : Nat → Option Bytes

/-- The first reply is in the client's hands. -/
def Post.taking (post : Post) (address : Nat) (payload : Bytes)
    (rest : List (Nat × Bytes)) : Post :=
  { post with
    tick := post.tick + 1
    owed := rest
    mail := Function.update post.mail address (some payload) }

section Server

variable (instants arrives : Nat → Nat)

/-- No lock is contended and no queue fails. -/
def answering : Handler Op Op.Ret Post
  | .load, post, client, post' => client = post.client ∧ post' = post
  | .store client, post, _, post' => post' = { post with client := client }
  | .now, post, instant, post' =>
      instant = instants post.tick ∧ post' = { post with tick := post.tick + 1 }
  | .sleep, post, awake, post' => awake = true ∧ post' = post
  | .allocate payloadLen, post, answer, post' =>
      post' = post ∧ ((∃ reason, answer = .error reason) ∨
        ∃ payload, payload < 2 ^ 64 ∧ answer = .ok ⟨payload, payloadLen, 0⟩)
  | .output message, post, output, post' => output.length = message.payloadLen ∧ post' = post
  | .fill message output, post, _, post' =>
      post' = { post with drafts := Function.update post.drafts message.payload output }
  | .add _ element, post, answer, post' =>
      answer = .ok () ∧ ∃ (reply : MessageType) (message : reply.Message),
        post.client.Replies (post.drafts (leNat element)) message ∧
          post' = { post with
            count := post.count + 1
            owed := post.owed ++ [(arrives post.count, encoding message)]
            latest := encoding message }
  | .sub _, post, answer, post' =>
      (∃ arrival payload rest element, post.owed = (arrival, payload) :: rest ∧
        arrival ≤ instants post.tick ∧ answer = .ok element ∧
          post' = post.taking (leNat element) payload rest) ∨
        (∀ first ∈ post.owed.head?, instants post.tick < first.1) ∧ answer = .error .empty ∧
          post' = { post with tick := post.tick + 1 }
  | .fromAddress address, post, answer, post' =>
      post' = post ∧ ∀ payload, post.mail address = some payload →
        answer = .ok ⟨address, payload.length, payload.length⟩
  | .bytes message, post, bytes, post' =>
      post' = post ∧ ∀ payload, post.mail message.payload = some payload → bytes = payload
  | _, post, _, post' => post' = post

/-- Before a look at the clock finds the deadline reached, the client looks into the queue at or
after the arrival. The first look into the queue is at the reading `tick`. -/
def Timely (tick deadline arrival : Nat) : Prop :=
  ∃ pass, arrival ≤ instants (tick + 2 * pass) ∧
    ∀ earlier, earlier < pass → instants (tick + 2 * earlier + 1) < deadline

/-- The passes of the loop last until the deadline. -/
def Lasts (tick deadline fuel : Nat) : Prop :=
  ∃ pass, pass < fuel ∧ deadline ≤ instants (tick + 2 * pass + 1)

variable {instants} {tick deadline arrival : Nat}

theorem timely_of_le (now : arrival ≤ instants tick) : Timely instants tick deadline arrival :=
  ⟨0, now, fun _ before => absurd before (Nat.not_lt_zero _)⟩

theorem not_timely (early : instants tick < arrival) (late : deadline ≤ instants (tick + 1)) :
    ¬ Timely instants tick deadline arrival := by
  rintro ⟨pass, there, open_⟩
  cases pass with
  | zero => exact absurd there (Nat.not_le.mpr early)
  | succ pass => exact absurd (open_ 0 (Nat.succ_pos _)) (Nat.not_lt.mpr late)

/-- After a pass that found neither the reply nor the deadline it is as before. -/
theorem timely_succ (early : instants tick < arrival) (open_ : instants (tick + 1) < deadline) :
    Timely instants (tick + 2) deadline arrival ↔ Timely instants tick deadline arrival := by
  have shift : ∀ pass, tick + 2 + 2 * pass = tick + 2 * (pass + 1) := fun pass => by omega
  constructor
  · rintro ⟨pass, there, before⟩
    refine ⟨pass + 1, shift pass ▸ there, fun earlier order => ?_⟩
    cases earlier with
    | zero => exact open_
    | succ earlier => exact shift earlier ▸ before earlier (by omega)
  · rintro ⟨pass, there, before⟩
    cases pass with
    | zero => exact absurd there (Nat.not_le.mpr early)
    | succ pass =>
        refine ⟨pass, (shift pass).symm ▸ there, fun earlier order => ?_⟩
        have later := before (earlier + 1) (by omega)
        rwa [← shift earlier] at later

theorem lasts_succ {fuel : Nat} (lasts : Lasts instants tick deadline (fuel + 1))
    (open_ : instants (tick + 1) < deadline) : Lasts instants (tick + 2) deadline fuel := by
  obtain ⟨pass, inside, over_⟩ := lasts
  cases pass with
  | zero => exact absurd over_ (Nat.not_le.mpr open_)
  | succ pass =>
      have shift : tick + 2 + 2 * pass + 1 = tick + 2 * (pass + 1) + 1 := by omega
      exact ⟨pass, by omega, shift ▸ over_⟩

end Server

theorem name_inj {type type' : MessageType}
    (same : Api.name type.Message = Api.name type'.Message) : type = type' := by
  cases type <;> cases type' <;> first | rfl | exact absurd same (by decide)

/-- A request has one declared reply. -/
theorem Answers.unique {request reply reply' : MessageType} (answers : Answers request reply)
    (answers' : Answers request reply') : reply = reply' := by
  obtain ⟨service, declared, named⟩ := answers
  obtain ⟨service', declared', named'⟩ := answers'
  obtain rfl := Option.some.inj (declared.symm.trans declared')
  exact name_inj (Option.some.inj (named.symm.trans named'))

/-! ## Payloads of replies -/

/-- The payload is some reply as the server encodes it. -/
def Client.Wired (client : Client) (payload : Bytes) : Prop :=
  ∃ (request reply : MessageType) (message : reply.Message), Answers request reply ∧
    client.messageId (Api.nameCrc reply.Message) = some (reply.id message) ∧
      Serializes message (encoding message) ∧ payload = encoding message

section Payloads

variable {client : Client} {payload asked : Bytes} {reply : MessageType} {message : reply.Message}

theorem Client.Replies.wired (replies : client.Replies asked message) :
    client.Wired (encoding message) := by
  obtain ⟨request, _, _, answers, listed, _, serializes⟩ := replies
  exact ⟨request, reply, message, answers, listed, serializes, rfl⟩

/-- What a payload is read as is what it was encoded from. -/
theorem Client.Wired.encoding_eq (wired : client.Wired payload) (distinct : client.Distinct)
    (reads : client.Reads payload reply message) : encoding message = payload := by
  obtain ⟨request, reply', message', _, listed, serializes, rfl⟩ := wired
  cases distinct.reads listed serializes reads
  rfl

theorem not_answers_keepalive (request : MessageType) : ¬ Answers request .memclntKeepalive := by
  rintro ⟨service, declared, named⟩
  cases request <;> first
    | (cases declared; done)
    | (obtain rfl := Option.some.inj declared; exact absurd named (by decide))

/-- A reply has an id, which is not that of a keepalive. -/
theorem Client.Wired.messageId (wired : client.Wired payload) (distinct : client.Distinct) :
    ∃ id, Api.messageId payload = .ok id ∧
      client.messageId (Api.nameCrc MemclntKeepalive) ≠ some id := by
  obtain ⟨request, reply, message, answers, listed, -, rfl⟩ := wired
  refine ⟨reply.id message, reply.messageId_encode message, fun same => ?_⟩
  obtain rfl := distinct reply .memclntKeepalive _ listed same
  exact not_answers_keepalive request answers

end Payloads

namespace Post

/-- Every reply that is owed is one that the client can read. -/
structure Sound (post : Post) : Prop where
  distinct : post.client.Distinct
  owed : ∀ entry ∈ post.owed, post.client.Wired entry.2

/-- The message of the client holds the payload. -/
structure Has (post : Post) (message : MsgBuf) (payload : Bytes) : Prop where
  found : post.mail message.payload = some payload
  initialized : message.payloadLen ≤ message.initializedLen

/-- A request was answered. -/
structure Asked {type : MessageType} (arrives : Nat → Nat) (message : type.Message)
    {reply : MessageType} (own : reply.Message) (post post' : Post) : Prop where
  client : post'.client = post.client
  tick : post'.tick = post.tick
  count : post'.count = post.count + 1
  owed : post'.owed = post.owed ++ [(arrives post.count, encoding own)]
  latest : post'.latest = encoding own
  serializes : Serializes message (encoding message)
  replies : post.client.Replies (encoding message) own

/-- A draw of a context. -/
def draw (post : Post) : Post :=
  { post with
    client := { post.client with contextCounter := nextCounter post.client.contextCounter } }

/-- Nothing was asked. -/
structure Silent (post post' : Post) : Prop where
  client : post'.client = post.client
  count : post'.count = post.count
  owed : post'.owed = post.owed

end Post

section Steps

variable {instants arrives : Nat → Nat} {post : Post} {payload : Bytes} {message : MsgBuf}
  {stop : Stop Error → Post → Prop}

theorem ensures_asks {type : MessageType} (message : type.Message) (post : Post) :
    (sendMessage message).Ensures (answering instants arrives)
      (fun _ post' => ∃ (reply : MessageType) (own : reply.Message),
        post.Asked arrives message own post')
      (fun _ post' => post.Silent post') post := by
  have nothing : post.Silent post := ⟨rfl, rfl, rfl⟩
  refine ensures_bind.mpr (ensures_mapErr (fun payloadLen measured => ?_) fun _ _ => nothing)
  refine ensures_perform.mpr fun allocated still answered => ?_
  obtain ⟨rfl, ⟨reason, rfl⟩ | ⟨payload, small, rfl⟩⟩ := answered
  · exact nothing
  refine (encode_whole measured fun _ _ => id).bind fun encoded mid answered => ?_
  obtain ⟨rfl, rfl⟩ := answered
  refine ensures_perform.mpr fun self mid answered => ?_
  obtain ⟨-, rfl⟩ := answered
  refine ensures_perform.mpr fun added last answered => ?_
  obtain ⟨rfl, reply, own, replies, rfl⟩ := answered
  have word : leNat (leBytes 8 payload) = payload := leNat_leBytes (by omega)
  simp only [word, Function.update_self] at replies
  obtain ⟨short, counted, usize⟩ := (serializedLen_eq_ok_iff _ _ _).mp measured
  refine ⟨reply, own, rfl, rfl, rfl, rfl, rfl, (serializes_iff _ _).mpr ⟨short, rfl, ?_⟩, replies⟩
  rwa [encoding, counted]

theorem Post.Has.readable (has : post.Has message payload) :
    Readable (answering instants arrives) post message payload :=
  ⟨has.initialized, fun _ _ answered => ⟨answered.2 payload has.found, answered.1⟩⟩

end Steps

/-! ## Receiving the first reply -/

/-- Replies may have been taken, and nothing was asked. -/
structure Post.Later (post post' : Post) : Prop where
  client : post'.client = post.client
  count : post'.count = post.count
  latest : post'.latest = post.latest
  owed : post'.owed ⊆ post.owed

/-- What `receive` gives when the payload is the first to come. -/
def Post.Gives (instants : Nat → Nat) (deadline arrival : Nat) (payload : Bytes) (post : Post)
    (post' : Post) : Option MsgBuf → Prop
  | none => ¬ Timely instants post.tick deadline arrival
  | some message => Timely instants post.tick deadline arrival ∧ post'.Has message payload

section Receiving

variable {instants arrives : Nat → Nat} {post : Post} {arrival : Nat} {payload : Bytes}
  {rest : List (Nat × Bytes)}

theorem Post.Later.sound {post' : Post} (later : post.Later post') (sound : post.Sound) :
    post'.Sound := by
  refine ⟨?_, fun entry member => ?_⟩
  · rw [later.client]
    exact sound.distinct
  · rw [later.client]
    exact sound.owed entry (later.owed member)

/-- A reply is no keepalive and is handed on. -/
theorem accept_wired (post : Post) {element : Bytes} (distinct : post.client.Distinct)
    (wired : post.client.Wired payload) (found : post.mail (leNat element) = some payload) :
    (accept post.client element).Ensures (answering instants arrives)
      (fun received post' => post' = post ∧
        ∃ message, received = some message ∧ post.Has message payload)
      (fun _ _ => False) post := by
  obtain ⟨id, named, other⟩ := wired.messageId distinct
  refine ensures_perform.mpr fun taken still answered => ?_
  obtain ⟨rfl, given⟩ := answered
  rw [given payload found]
  have has : still.Has ⟨leNat element, payload.length, payload.length⟩ payload :=
    ⟨found, Nat.le_refl _⟩
  refine (has.readable.messageId fun reason failed => ?_).bind fun id' mid answered => ?_
  · cases named.symm.trans failed
  obtain ⟨named', rfl⟩ := answered
  obtain rfl := Except.ok.inj (named.symm.trans named')
  rw [if_neg fun keepalive => other keepalive.2.symm]
  exact ⟨rfl, _, rfl, has⟩

/-- Induction on the passes of the loop. -/
theorem receive_first (sound : post.Sound) (owed : post.owed = (arrival, payload) :: rest)
    (deadline fuel : Nat) :
    (receive deadline fuel).Ensures (answering instants arrives)
      (fun received post' => post.Later post' ∧
        post.Gives instants deadline arrival payload post' received)
      (fun _ post' => post.Later post' ∧ ¬ Lasts instants post.tick deadline fuel) post := by
  induction fuel generalizing post with
  | zero =>
      refine ⟨⟨rfl, rfl, rfl, List.Subset.refl _⟩, ?_⟩
      rintro ⟨pass, inside, -⟩
      exact absurd inside (Nat.not_lt_zero _)
  | succ fuel ih =>
      refine ensures_perform.mpr fun self still answered => ?_
      obtain ⟨rfl, rfl⟩ := answered
      refine ensures_perform.mpr fun taken mid answered => ?_
      obtain ⟨arrival', payload', rest', element, owed', there, rfl, rfl⟩ |
        ⟨early, rfl, rfl⟩ := answered
      · obtain ⟨entry, rfl⟩ := List.cons.inj (owed.symm.trans owed')
        obtain ⟨rfl, rfl⟩ := Prod.mk.inj entry
        have wired : still.client.Wired payload :=
          sound.owed (arrival, payload) (owed ▸ List.mem_cons_self)
        have found : (still.taking (leNat element) payload rest).mail (leNat element) =
            some payload := Function.update_self ..
        refine Ensures.bind (Ensures.mono (accept_wired _ sound.distinct wired found)
          (fun _ _ => id) fun _ _ => False.elim) fun received last held => ?_
        obtain ⟨rfl, message, rfl, has⟩ := held
        refine ⟨⟨rfl, rfl, rfl, ?_⟩, timely_of_le there, has⟩
        rw [owed]
        exact List.subset_cons_self _ _
      · have before : instants still.tick < arrival :=
          early (arrival, payload) (by rw [owed]; rfl)
        refine ensures_perform.mpr fun instant last answered => ?_
        obtain ⟨rfl, rfl⟩ := answered
        split
        · next late =>
          exact ⟨⟨rfl, rfl, rfl, List.Subset.refl _⟩, not_timely before late⟩
        · next open_ =>
          have open_ := Nat.lt_of_not_le open_
          refine ensures_perform.mpr fun awake last answered => ?_
          obtain ⟨rfl, rfl⟩ := answered
          have again :=
            @ih { still with tick := still.tick + 2 } ⟨sound.distinct, sound.owed⟩ owed
          refine again.mono (fun received post' ended => ?_) fun end_ post' ended => ?_
          · obtain ⟨later, gives⟩ := ended
            refine ⟨⟨later.client, later.count, later.latest, later.owed⟩, ?_⟩
            cases received with
            | none => exact fun timely => gives ((timely_succ before open_).mpr timely)
            | some message => exact ⟨(timely_succ before open_).mp gives.1, gives.2⟩
          · obtain ⟨later, short⟩ := ended
            exact ⟨⟨later.client, later.count, later.latest, later.owed⟩,
              fun lasts => short (lasts_succ lasts open_)⟩

end Receiving

/-! ## One call of `invoke` -/

section Own

variable {instants arrives : Nat → Nat} {post : Post} {request reply : MessageType}

/-- What was received is returned, unless it is not the own reply of the request. -/
theorem Post.Has.returning {taken : MsgBuf} {payload : Bytes} {own : reply.Message}
    {replyId : UInt16} {context : UInt32} (has : post.Has taken payload)
    (distinct : post.client.Distinct) (wired : post.client.Wired payload)
    (listed : post.client.messageId (Api.nameCrc reply.Message) = some replyId)
    (id : replyId = reply.id own) (serializes : Serializes own (encoding own))
    (carries : ∀ received, Api.context own = some received → received = context) :
    (returning reply.Message replyId context (some taken)).Ensures (answering instants arrives)
      (fun result post' => post' = post ∧ encoding result = payload)
      (fun _ post' => post' = post ∧ encoding own ≠ payload) post := by
  obtain ⟨named, namedBy, -⟩ := wired.messageId distinct
  refine (has.readable.messageId fun reason failed => ?_).bind fun id' still answered => ?_
  · cases namedBy.symm.trans failed
  obtain ⟨namedBy', rfl⟩ := answered
  split
  · next other =>
    refine ensures_perform.mpr fun done mid freed => ?_
    obtain rfl := freed
    refine ⟨rfl, fun same => other ?_⟩
    have ownId : Api.messageId (encoding own) = .ok (reply.id own) := reply.messageId_encode own
    rw [same] at ownId
    rw [id]
    exact Except.ok.inj (namedBy'.symm.trans ownId)
  next same =>
  obtain rfl := not_not.mp same
  have back : encoding own = payload → Api.decode reply.Message payload = .ok own := by
    rintro rfl
    exact MessageType.decode_of_serializes serializes
  refine (has.readable.decode reply.Message).bind fun decoded still answered => ?_
  obtain ⟨rfl, rfl⟩ := answered
  refine ensures_perform.mpr fun done still freed => ?_
  obtain rfl := freed
  refine ensures_bind.mpr (ensures_mapErr (fun result decoded => ?_) fun reason failed => ?_)
  · have returned : encoding result = payload :=
      wired.encoding_eq distinct ⟨⟨id', namedBy', listed⟩, decoded⟩
    split
    · next received carried =>
      split
      · exact ⟨rfl, returned⟩
      · next other =>
        refine ⟨rfl, fun same => other ?_⟩
        obtain rfl := Except.ok.inj (decoded.symm.trans (back same))
        exact carries received carried
    · exact ⟨rfl, returned⟩
  · refine ⟨rfl, fun same => ?_⟩
    cases (back same).symm.trans failed

/-- What the server made of a request. -/
theorem Client.Replies.own {client : Client} {message : request.Message} {own : reply.Message}
    (replies : client.Replies (encoding message) own) (distinct : client.Distinct)
    (listed : client.messageId (Api.nameCrc request.Message) = some (request.id message))
    (serializes : Serializes message (encoding message)) :
    Answers request reply ∧
      client.messageId (Api.nameCrc reply.Message) = some (reply.id own) ∧
      (∀ context, Api.context own = some context → Api.context message = some context) ∧
      Serializes own (encoding own) := by
  obtain ⟨request', read, reads, facts⟩ := replies
  cases distinct.reads listed serializes reads
  exact facts

theorem Post.Asked.sound {message : request.Message} {own : reply.Message} {post' : Post}
    (asked : post.Asked arrives message own post') (sound : post.Sound) : post'.Sound := by
  refine ⟨asked.client ▸ sound.distinct, fun entry member => ?_⟩
  rw [asked.client]
  rw [asked.owed] at member
  rcases List.mem_append.mp member with old | new
  · exact sound.owed entry old
  · obtain rfl := List.mem_singleton.mp new
    exact asked.replies.wired

theorem Post.Silent.sound {post' : Post} (silent : post.Silent post') (sound : post.Sound) :
    post'.Sound := by
  refine ⟨silent.client ▸ sound.distinct, fun entry member => ?_⟩
  rw [silent.client]
  exact sound.owed entry (silent.owed ▸ member)

/-- The first reply is waited for and returned, unless it is not the own one. -/
theorem Post.Sound.awaits {arrival : Nat} {payload : Bytes} {rest : List (Nat × Bytes)}
    {own : reply.Message} {replyId : UInt16} {context : UInt32} (sound : post.Sound)
    (owed : post.owed = (arrival, payload) :: rest) (latest : post.latest = encoding own)
    (listed : post.client.messageId (Api.nameCrc reply.Message) = some replyId)
    (id : replyId = reply.id own) (serializes : Serializes own (encoding own))
    (carries : ∀ received, Api.context own = some received → received = context)
    (deadline fuel : Nat) :
    (do
      let received ← receive deadline fuel
      returning reply.Message replyId context received : Call reply.Message).Ensures
        (answering instants arrives)
      (fun result post' => (post'.Sound ∧ post'.latest = encoding own) ∧
        (encoding result = encoding own ↔
          payload = encoding own ∧ Timely instants post.tick deadline arrival))
      (fun _ post' => (post'.Sound ∧ post'.latest = encoding own) ∧
        (Lasts instants post.tick deadline fuel →
          ¬ (payload = encoding own ∧ Timely instants post.tick deadline arrival))) post := by
  refine ensures_bind.mpr ((receive_first sound owed deadline fuel).mono
    (fun received mid ended => ?_) fun _ mid ended => ?_)
  · obtain ⟨later, gives⟩ := ended
    have kept : mid.Sound ∧ mid.latest = encoding own :=
      ⟨later.sound sound, later.latest.trans latest⟩
    cases received with
    | none => exact ⟨kept, fun _ own => gives own.2⟩
    | some taken =>
        obtain ⟨timely, has⟩ := gives
        have wired : post.client.Wired payload :=
          sound.owed (arrival, payload) (owed ▸ List.mem_cons_self)
        rw [← later.client] at wired listed
        refine (has.returning kept.1.distinct wired listed id serializes carries).mono
          (fun result post' ended => ?_) fun _ post' ended => ?_
        · obtain ⟨rfl, returned⟩ := ended
          refine ⟨kept, ?_⟩
          rw [returned]
          exact ⟨fun own => ⟨own, timely⟩, And.left⟩
        · obtain ⟨rfl, other⟩ := ended
          exact ⟨kept, fun _ own => other own.1.symm⟩
  · obtain ⟨later, short⟩ := ended
    exact ⟨⟨later.sound sound, later.latest.trans latest⟩, fun lasts => absurd lasts short⟩

/-- The first reply that is owed once the own reply is. -/
def Post.first (arrives : Nat → Nat) (post : Post) (own : Bytes) : Nat × Bytes :=
  post.owed.headD (arrives post.count, own)

/-- The first reply that is owed is the own reply, and it comes in time. -/
def Post.Prompt (instants arrives : Nat → Nat) (post : Post) (own : Bytes) : Prop :=
  (post.first arrives own).2 = own ∧
    Timely instants (post.tick + 1) (instants post.tick + connectTimeout)
      (post.first arrives own).1

theorem Post.owed_first (post : Post) (arrives : Nat → Nat) (own : Bytes) :
    ∃ rest, post.owed ++ [(arrives post.count, own)] = post.first arrives own :: rest := by
  unfold Post.first
  cases post.owed with
  | nil => exact ⟨[], rfl⟩
  | cons entry rest => exact ⟨rest ++ [(arrives post.count, own)], rfl⟩

/-- Where nothing else is owed, the own reply only has to come in time. -/
theorem Post.prompt_iff_of_owed_nil (owed : post.owed = []) (own : Bytes) :
    post.Prompt instants arrives own ↔
      Timely instants (post.tick + 1) (instants post.tick + connectTimeout)
        (arrives post.count) := by
  rw [Post.Prompt, Post.first, owed]
  exact and_iff_right rfl

theorem Post.Sound.invoke (sound : post.Sound) (reply : MessageType) (fuel : Nat)
    (message : request.Message) :
    (invoke reply.Message fuel message).Ensures (answering instants arrives)
      (fun result post' => post'.Sound ∧
        (encoding result = post'.latest ↔ post.Prompt instants arrives post'.latest))
      (fun _ post' => post'.Sound ∧ (post'.count = post.count + 1 →
        Lasts instants (post.tick + 1) (instants post.tick + connectTimeout) fuel →
          ¬ post.Prompt instants arrives post'.latest)) post := by
  refine ensures_invoke_of fun self still answered => ?_
  obtain ⟨rfl, rfl⟩ := answered
  refine ⟨fun _ => ⟨sound, fun same => absurd same (Nat.ne_of_lt (Nat.lt_succ_self _))⟩,
    fun clientIndex service requestId replyId ready => ?_⟩
  have answers : Answers request reply := ⟨service, ready.declared, ready.replied⟩
  have requests : (Api.service request.Message).isSome := by
    rw [ready.declared]
    rfl
  -- The draw changes the counter alone.
  refine ensures_perform.mpr fun self drawn answered => ?_
  obtain ⟨rfl, rfl⟩ := answered
  refine ensures_perform.mpr fun stored mid answered => ?_
  obtain rfl : mid = drawn.draw := answered
  have afterDraw : drawn.draw.Sound := ⟨sound.distinct, sound.owed⟩
  refine ensures_bind.mpr ((ensures_asks _ _).mono (fun _ sent asks => ?_) fun _ mid silent => ?_)
  · obtain ⟨reply', own, asked⟩ := asks
    have asking : drawn.draw.client.messageId (Api.nameCrc request.Message) = some (request.id
        (Api.setRequestHeader message requestId clientIndex
          (contextOf (nextCounter drawn.client.contextCounter)))) := by
      rw [id_setRequestHeader requests]
      exact ready.requestId
    obtain ⟨answers', ownListed, carries, serializes⟩ :=
      asked.replies.own sound.distinct asking asked.serializes
    obtain rfl := answers.unique answers'
    -- The clock is read, and then the queue.
    refine ensures_perform.mpr fun instant last answered => ?_
    obtain ⟨rfl, rfl⟩ := answered
    obtain ⟨rest, owed⟩ := drawn.owed_first arrives (encoding own)
    have ticked : Post.Sound { sent with tick := sent.tick + 1 } :=
      ⟨(asked.sound afterDraw).distinct, (asked.sound afterDraw).owed⟩
    have id : replyId = reply.id own := Option.some.inj (ready.replyId.symm.trans ownListed)
    have tick : sent.tick = drawn.tick := asked.tick
    rw [← tick]
    refine (ticked.awaits (asked.owed.trans owed) asked.latest (asked.client ▸ ready.replyId) id
      serializes
      (fun received carried => context_setRequestHeader requests (carries received carried))
        (instants sent.tick + connectTimeout) fuel).mono
      (fun result post' ended => ?_) fun _ post' ended => ?_
    · obtain ⟨⟨sound, latest⟩, returned⟩ := ended
      rw [latest]
      unfold Post.Prompt
      rw [← tick]
      exact ⟨sound, returned⟩
    · obtain ⟨⟨sound, latest⟩, failed⟩ := ended
      rw [latest]
      unfold Post.Prompt
      rw [← tick]
      exact ⟨sound, fun _ => failed⟩
  · refine ⟨silent.sound afterDraw, fun sent => ?_⟩
    exact absurd (silent.count.symm.trans sent) (Nat.ne_of_lt (Nat.lt_succ_self _))

end Own

/-! ## Every sequence of calls -/

/-- One call of `invoke`, however it ends. -/
def Tries (instants arrives : Nat → Nat) (post post' : Post) : Prop :=
  ∃ (request reply : MessageType) (message : request.Message) (fuel : Nat)
    (out : Outcome Error reply.Message),
    (invoke reply.Message fuel message).Runs (answering instants arrives) post out post'

/-- No reply is owed. -/
structure Post.Fresh (post : Post) : Prop where
  distinct : post.client.Distinct
  owed : post.owed = []

section Calls

variable {instants arrives : Nat → Nat} {post post' : Post}

theorem Post.Fresh.sound (fresh : post.Fresh) : post.Sound :=
  ⟨fresh.distinct, fun entry member => by rw [fresh.owed] at member; cases member⟩

theorem Post.Sound.tries (sound : post.Sound) (tries : Tries instants arrives post post') :
    post'.Sound := by
  obtain ⟨request, reply, message, fuel, out, run⟩ := tries
  exact ((sound.invoke reply fuel message).mono
    (fun _ _ => And.left) fun _ _ => And.left).always run

theorem Post.Sound.calls (sound : post.Sound)
    (calls : Relation.ReflTransGen (Tries instants arrives) post post') : post'.Sound := by
  induction calls with
  | refl => exact sound
  | tail _ tries ih => exact ih.tries tries

/-- **Backlog.** After any calls, a call whose request the server received and which is not
dropped returns its own reply exactly if the first reply that is owed is that reply, byte for
byte, and a look into the queue finds it before a look at the clock finds the deadline reached. -/
theorem own_iff {instants arrives : Nat → Nat} {start post post' : Post} (fresh : start.Fresh)
    (calls : Relation.ReflTransGen (Tries instants arrives) start post)
    {request reply : MessageType}
    (message : request.Message) (fuel : Nat) (out : Outcome Error reply.Message)
    (run : (invoke reply.Message fuel message).Runs (answering instants arrives) post out post')
    (received : post'.count = post.count + 1)
    (lasts : Lasts instants (post.tick + 1) (instants post.tick + connectTimeout) fuel) :
    (∃ result, out = .ok result ∧ encoding result = post'.latest) ↔
      post.Prompt instants arrives post'.latest := by
  have ended := ((fresh.sound.calls calls).invoke reply fuel message).of_runs run
  have without (none_ : ∀ result, out ≠ .ok result)
      (failed : ¬ post.Prompt instants arrives post'.latest) :
      (∃ result, out = .ok result ∧ encoding result = post'.latest) ↔
        post.Prompt instants arrives post'.latest := by
    refine iff_of_false ?_ failed
    rintro ⟨result, same, -⟩
    exact none_ result same
  cases out with
  | ok result =>
      rw [← ended.2]
      constructor
      · rintro ⟨result', same, own⟩
        rwa [Outcome.ok.inj same]
      · exact fun own => ⟨result, rfl, own⟩
  | error reason => exact without (fun _ same => by cases same) (ended.2 received lasts)
  | panic => exact without (fun _ same => by cases same) (ended.2 received lasts)
  | pending => exact without (fun _ same => by cases same) (ended.2 received lasts)

end Calls

/-! ## A reply that comes late -/

/-- A clock that is read once in a timeout. -/
def slow (tick : Nat) : Nat := tick * connectTimeout

/-- A server of pings; there is always room in the heap. -/
def ponging (arrives : Nat → Nat) : Device Op Op.Ret Post := fun op post =>
  match op with
  | .load => some (post.client, post)
  | .store client => some ((), { post with client := client })
  | .now => some (slow post.tick, { post with tick := post.tick + 1 })
  | .sleep => some (true, post)
  | .allocate payloadLen => some (.ok ⟨512, payloadLen, 0⟩, post)
  | .output message => some (List.replicate message.payloadLen 0, post)
  | .fill message output =>
      some ((), { post with drafts := Function.update post.drafts message.payload output })
  | .add _ element =>
      if post.client.messageIds = pingTable ∧ post.drafts (leNat element) =
          encoding (pingWith (contextOf post.client.contextCounter)) then
        some (.ok (), { post with
          count := post.count + 1
          owed := post.owed ++
            [(arrives post.count, encoding (pongWith (contextOf post.client.contextCounter)))]
          latest := encoding (pongWith (contextOf post.client.contextCounter)) })
      else none
  | .sub _ =>
      match post.owed with
      | [] => some (.error .empty, { post with tick := post.tick + 1 })
      | (arrival, payload) :: rest =>
          if arrival ≤ slow post.tick then
            some (.ok (leBytes 8 1024), post.taking (leNat (leBytes 8 1024)) payload rest)
          else some (.error .empty, { post with tick := post.tick + 1 })
  | .fromAddress address =>
      (post.mail address).map fun payload => (.ok ⟨address, payload.length, payload.length⟩, post)
  | .bytes message => (post.mail message.payload).map fun payload => (payload, post)
  | .free _ => some ((), post)
  | _ => none

section Late

variable {arrives : Nat → Nat}

theorem replies_pongWith {client : Client} (table : client.messageIds = pingTable)
    (context : UInt32) : client.Replies (encoding (pingWith context)) (pongWith context) := by
  refine ⟨.controlPing, pingWith context, reads_pingWith table context, ⟨_, rfl, rfl⟩, ?_, ?_,
    serializes_pongWith context⟩
  · exact pairs_pingTable table .controlPingReply
  · exact fun carried same => same

theorem ponging_sound (op : Op) (post : Post) (answer : op.Ret) (post' : Post)
    (answered : ponging arrives op post = some (answer, post')) :
    answering slow arrives op post answer post' := by
  cases op with
  | load =>
      cases answered
      exact ⟨rfl, rfl⟩
  | now =>
      cases answered
      exact ⟨rfl, rfl⟩
  | sleep =>
      cases answered
      exact ⟨rfl, rfl⟩
  | allocate payloadLen =>
      cases answered
      exact ⟨rfl, .inr ⟨512, by omega, rfl⟩⟩
  | output message =>
      cases answered
      exact ⟨List.length_replicate .., rfl⟩
  | add header element =>
      simp only [ponging] at answered
      split at answered
      · next known =>
          cases answered
          obtain ⟨table, asked⟩ := known
          exact ⟨rfl, .controlPingReply, _, asked ▸ replies_pongWith table _, rfl⟩
      · cases answered
  | sub queue =>
      simp only [ponging] at answered
      split at answered
      · next owed =>
          cases answered
          exact .inr ⟨by rw [owed]; exact fun _ member => (by cases member), rfl, rfl⟩
      · next arrival payload rest owed =>
          split at answered
          · next there =>
              cases answered
              exact .inl ⟨arrival, payload, rest, _, owed, there, rfl, rfl⟩
          · next early =>
              cases answered
              refine .inr ⟨fun first member => ?_, rfl, rfl⟩
              rw [owed] at member
              obtain rfl := Option.some.inj member
              exact Nat.lt_of_not_le early
  | fromAddress address =>
      cases found : post.mail address with
      | none =>
          simp only [ponging, found, Option.map_none] at answered
          cases answered
      | some payload =>
          simp only [ponging, found, Option.map_some] at answered
          cases answered
          refine ⟨rfl, fun payload' same => ?_⟩
          obtain rfl := Option.some.inj (found.symm.trans same)
          rfl
  | bytes message =>
      cases found : post.mail message.payload with
      | none =>
          simp only [ponging, found, Option.map_none] at answered
          cases answered
      | some payload =>
          simp only [ponging, found, Option.map_some] at answered
          cases answered
          exact ⟨rfl, fun payload' same => Option.some.inj (found.symm.trans same)⟩
  | store client =>
      cases answered
      rfl
  | fill message output =>
      cases answered
      rfl
  | free message =>
      cases answered
      rfl
  | _ => cases answered

/-- A client that has just been connected to that server. -/
def connected : Post where
  client :=
    { header := 0, inputQueue := ⟨64, ⟨1, 8⟩⟩, clientIndex := some 7, messageIds := pingTable
      contextCounter := 0, handleKeepalives := true }
  drafts := fun _ => []
  count := 0
  tick := 0
  owed := []
  latest := []
  mail := fun _ => none

theorem fresh_connected : connected.Fresh := ⟨(pairs_pingTable rfl).distinct, rfl⟩

/-- The same server, while the heap is full. -/
def starving (arrives : Nat → Nat) : Device Op Op.Ret Post := fun op post =>
  match op with
  | .allocate payloadLen => some (.error (.allocationFailed payloadLen), post)
  | op => ponging arrives op post

theorem starving_sound (op : Op) (post : Post) (answer : op.Ret) (post' : Post)
    (answered : starving arrives op post = some (answer, post')) :
    answering slow arrives op post answer post' := by
  cases op with
  | allocate payloadLen =>
      cases answered
      exact ⟨rfl, .inl ⟨_, rfl⟩⟩
  | _ => exact ponging_sound _ _ _ _ answered

/-- A ping in a given state. -/
def pings (device : Device Op Op.Ret Post) (post : Post) :
    Outcome Error MessageType.controlPingReply.Message × Post :=
  (invoke MessageType.controlPingReply.Message 2 bare).exec device post

theorem runs_pings {device : Device Op Op.Ret Post} {post : Post}
    (sound : ∀ op post answer post', device op post = some (answer, post') →
      answering slow arrives op post answer post') (returned : (pings device post).1 ≠ .panic) :
    (invoke MessageType.controlPingReply.Message 2 bare).Runs (answering slow arrives) post
      (pings device post).1 (pings device post).2 :=
  runs_of_exec sound rfl returned

theorem tries_pings {device : Device Op Op.Ret Post} {post : Post}
    (sound : ∀ op post answer post', device op post = some (answer, post') →
      answering slow arrives op post answer post') (returned : (pings device post).1 ≠ .panic) :
    Tries slow arrives post (pings device post).2 :=
  ⟨.controlPing, .controlPingReply, bare, 2, _, runs_pings sound returned⟩

/-- Every reply takes more than two timeouts. -/
def late (count : Nat) : Nat := (count + 2) * connectTimeout + 1

/-- The state after the first ping. -/
def abandoned : Post := (pings (ponging late) connected).2

theorem pings_late :
    (pings (ponging late) connected).1 = .error (.responseTimeout 0x80000001) ∧
      abandoned.tick = 3 ∧ abandoned.count = 1 := by
  decide +kernel

/-- The reply to the second ping comes in time, behind that to the first. -/
theorem pings_abandoned :
    (pings (ponging late) abandoned).1 = .error (.contextMismatch 0x80000002 0x80000001) ∧
      (pings (ponging late) abandoned).2.count = abandoned.count + 1 := by
  decide +kernel

/-- A reply that is in the queue before the deadline is not always returned. -/
theorem late_reply_fails :
    ¬ ∀ (instants arrives : Nat → Nat) (start post post' : Post) (request reply : MessageType)
      (message : request.Message) (fuel : Nat) (out : Outcome Error reply.Message),
      Monotone instants → Monotone arrives → start.Fresh →
        Relation.ReflTransGen (Tries instants arrives) start post →
          (invoke reply.Message fuel message).Runs (answering instants arrives) post out post' →
            post'.count = post.count + 1 →
              Lasts instants (post.tick + 1) (instants post.tick + connectTimeout) fuel →
                arrives post.count < instants post.tick + connectTimeout →
                  ∃ result, out = .ok result ∧ encoding result = post'.latest := by
  intro claim
  obtain ⟨timedOut, tick, count⟩ := pings_late
  obtain ⟨failed, sent⟩ := pings_abandoned
  have first : Tries slow late connected abandoned :=
    tries_pings ponging_sound fun fault => (by cases timedOut.symm.trans fault)
  have clock : Monotone slow := fun _ _ order => Nat.mul_le_mul_right _ order
  have order : Monotone late := fun _ _ order =>
    Nat.add_le_add_right (Nat.mul_le_mul_right _ (Nat.add_le_add_right order 2)) 1
  obtain ⟨result, same, -⟩ := claim slow late connected abandoned _ .controlPing .controlPingReply
    bare 2 _ clock order fresh_connected (.single first)
    (runs_pings ponging_sound fun fault => (by cases failed.symm.trans fault)) sent
    (by rw [tick]; exact ⟨0, by decide, by decide⟩) (by rw [tick, count]; decide)
  cases failed.symm.trans same

/-- The state after a ping for which the heap had no room. -/
def starved : Post := (pings (starving fun _ => 0) connected).2

/-- Behind a ping that failed before it was sent, the reply to the next one is returned. Behind a
ping that timed out it is not, for the reply that is still owed is ahead of it. -/
theorem own_iff_behind :
    ((pings (starving fun _ => 0) connected).1 = .error (.memory (.allocationFailed 10)) ∧
      ∃ result, (pings (ponging fun _ => 0) starved).1 = .ok result ∧
        encoding result = (pings (ponging fun _ => 0) starved).2.latest) ∧
    (pings (ponging late) connected).1 = .error (.responseTimeout 0x80000001) ∧
      ¬ abandoned.Prompt slow late (pings (ponging late) abandoned).2.latest := by
  have full : (pings (starving fun _ => 0) connected).1 =
      .error (.memory (.allocationFailed 10)) := by decide +kernel
  have ended : (pings (ponging fun _ => 0) starved).1 = .ok (pongWith 0x80000002) ∧
      (pings (ponging fun _ => 0) starved).2.count = starved.count + 1 ∧
        starved.tick = 0 ∧ starved.owed = [] := by decide +kernel
  obtain ⟨returned, sent, fresh, owed⟩ := ended
  obtain ⟨timedOut, tick, -⟩ := pings_late
  obtain ⟨failed, received⟩ := pings_abandoned
  refine ⟨⟨full, ?_⟩, timedOut, fun prompt => ?_⟩
  · have behind : Tries slow (fun _ => 0) connected starved :=
      tries_pings starving_sound fun fault => (by cases full.symm.trans fault)
    have run := runs_pings ponging_sound fun fault => (by cases returned.symm.trans fault)
    have lasts : Lasts slow (starved.tick + 1) (slow starved.tick + connectTimeout) 2 := by
      rw [fresh]
      exact ⟨0, by decide, by decide⟩
    refine (own_iff fresh_connected (.single behind) bare 2 _ run sent lasts).mpr ?_
    exact (Post.prompt_iff_of_owed_nil owed _).mpr (timely_of_le (Nat.zero_le _))
  · have behind : Tries slow late connected abandoned :=
      tries_pings ponging_sound fun fault => (by cases timedOut.symm.trans fault)
    have run := runs_pings ponging_sound fun fault => (by cases failed.symm.trans fault)
    have lasts : Lasts slow (abandoned.tick + 1) (slow abandoned.tick + connectTimeout) 2 := by
      rw [tick]
      exact ⟨0, by decide, by decide⟩
    obtain ⟨result, same, -⟩ :=
      (own_iff fresh_connected (.single behind) bare 2 _ run received lasts).mpr prompt
    cases failed.symm.trans same

end Late

end Netsystem.Connection
