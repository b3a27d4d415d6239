import Netsystem.Bytes
import Netsystem.Program

/-!
# The handoff of the segment descriptor

`receive_segment_fd` of `hammer-stats-client/src/client.rs`, with the macros of `libc` that walk a
control buffer. The socket is left out, and so is the payload of the message: `recvmsg` is given
no room for one.

`scan` walks the bytes that `recvmsg` left behind. A `ControlMessage` is what the other side sent:
`scan_layout` says what the walk makes of a sequence of them, and `accounted_iff` when every
descriptor among them is returned or closed.
-/

namespace Netsystem.Stats.Handoff

/-! ## Errors and operations -/

/-- `std::io::ErrorKind`, as far as it is looked at. -/
inductive ErrorKind : Type where
  | interrupted | wouldBlock | timedOut | other
  deriving DecidableEq, Repr

inductive Error : Type where
  | ancillaryData (receivedFds : Nat) (truncated : Bool)
  | receive (source : ErrorKind)
  | handoffTimeout
  deriving DecidableEq, Repr

/-- What `recvmsg` leaves in the header of the message: the control bytes up to `msg_controllen`,
and `MSG_CTRUNC`. -/
structure Message : Type where
  control : Bytes
  truncated : Bool
  deriving DecidableEq, Repr

inductive Op : Type where
  | recvmsg
  | close (descriptor : Nat)

abbrev Op.Ret : Op → Type
  | .recvmsg => Except ErrorKind Message
  | .close _ => Unit

abbrev Call (α : Type) : Type := Prog Op Op.Ret Error α

/-! ## Control messages -/

/-- `size_of::<cmsghdr>()`. -/
def cmsghdrBytes : Nat := 16

/-- `size_of::<RawFd>()`. -/
def rawFdBytes : Nat := 4

/-- `CMSG_ALIGN`. -/
def cmsgAlign (length : Nat) : Nat := (length + 7) / 8 * 8

/-- `CMSG_LEN`. -/
def cmsgLen (length : Nat) : Nat := cmsgAlign cmsghdrBytes + length

/-- `CMSG_SPACE`. -/
def cmsgSpace (length : Nat) : Nat := cmsgAlign cmsghdrBytes + cmsgAlign length

def solSocket : Nat := 1

def scmRights : Nat := 1

/-- `CMSG_FIRSTHDR`. -/
def firstHeader (control : Bytes) : Option Nat :=
  if cmsghdrBytes ≤ control.length then some 0 else none

/-- `CMSG_NXTHDR`. -/
def nextHeader (control : Bytes) (current : Nat) : Option Nat :=
  let length := leNat (window control current 8)
  if length < cmsghdrBytes then none
  else
    let next := current + cmsgAlign length
    if control.length < next + cmsghdrBytes then none
    else if control.length < next + cmsgAlign (leNat (window control next 8)) then none
    else some next

theorem nextHeader_lt {control : Bytes} {current next : Nat}
    (found : nextHeader control current = some next) : current < next ∧
      next < control.length := by
  unfold nextHeader at found
  dsimp only at found
  split at found
  · cases found
  split at found
  · cases found
  split at found
  · cases found
  cases found
  unfold cmsgAlign cmsghdrBytes at *
  omega

/-- The variables of the loop. -/
structure Found : Type where
  descriptor : Option Nat
  receivedFds : Nat
  deriving DecidableEq, Repr

/-- One pass of the loop, at the header `current`. -/
def visit (control : Bytes) (current : Nat) (found : Found) : Found :=
  let length := leNat (window control current 8)
  let level := leNat (window control (current + 8) 4)
  let kind := leNat (window control (current + 12) 4)
  if level = solSocket ∧ kind = scmRights ∧ cmsgLen 0 + rawFdBytes ≤ length then
    let rawFd :=
      (BitVec.ofNat 32 (leNat (window control (current + cmsghdrBytes) rawFdBytes))).toInt
    { receivedFds := found.receivedFds + 1
      descriptor :=
        if 0 ≤ rawFd ∧ found.descriptor.isNone then some rawFd.toNat else found.descriptor }
  else found

/-- The loop over the headers. -/
def scan (control : Bytes) (current : Nat) (found : Found) : Found :=
  match _more : nextHeader control current with
  | none => visit control current found
  | some next => scan control next (visit control current found)
termination_by control.length - current
decreasing_by
  have further := nextHeader_lt _more
  omega

/-- The search of the control bytes for descriptors. -/
def search (control : Bytes) : Found :=
  let start : Found := { descriptor := none, receivedFds := 0 }
  match firstHeader control with
  | none => start
  | some current => scan control current start

/-! ## The handoff -/

/-- The loop around `recvmsg`. -/
def receive : (fuel : Nat) → Call Message
  | 0 => .pending
  | fuel + 1 => do
      match ← Prog.perform Op.recvmsg with
      | .ok message => pure message
      | .error .interrupted => receive fuel
      | .error .wouldBlock => .throw .handoffTimeout
      | .error .timedOut => .throw .handoffTimeout
      | .error .other => .throw (.receive .other)

/-- The verdict on what was found; a descriptor that is not returned is dropped. -/
def conclude (found : Found) (truncated : Bool) : Call Nat :=
  match found.descriptor with
  | some descriptor =>
      if found.receivedFds = 1 ∧ !truncated then pure descriptor
      else do
        Prog.perform (Op.close descriptor)
        .throw (.ancillaryData found.receivedFds truncated)
  | none => .throw (.ancillaryData found.receivedFds truncated)

/-- `receive_segment_fd`. -/
def receiveSegmentFd (fuel : Nat) : Call Nat := do
  let message ← receive fuel
  conclude (search message.control) message.truncated

/-! ## What the other side sent -/

/-- An open file of this process. -/
structure Descriptor : Type where
  number : Nat
  small : number < 2 ^ 31

/-- A control message as it is delivered: descriptors, or data of another level or type. -/
inductive ControlMessage : Type where
  | rights (descriptors : List Descriptor)
  | other (level kind : Nat) (data : Bytes) (level_lt : level < 2 ^ 32) (kind_lt : kind < 2 ^ 32)
      (foreign : ¬ (level = solSocket ∧ kind = scmRights))

namespace ControlMessage

/-- The descriptors that the message installs. -/
def descriptors : ControlMessage → List Nat
  | .rights descriptors => descriptors.map Descriptor.number
  | .other _ _ _ _ _ _ => []

def level : ControlMessage → Nat
  | .rights _ => solSocket
  | .other level _ _ _ _ _ => level

def kind : ControlMessage → Nat
  | .rights _ => scmRights
  | .other _ kind _ _ _ _ => kind

/-- The bytes behind the header. -/
def data : ControlMessage → Bytes
  | .rights descriptors =>
    descriptors.flatMap fun descriptor => leBytes rawFdBytes descriptor.number
  | .other _ _ data _ _ _ => data

/-- The message in a control buffer, with its padding. -/
def bytes (message : ControlMessage) : Bytes :=
  leBytes 8 (cmsgLen message.data.length) ++ leBytes 4 message.level ++ leBytes 4 message.kind ++
    message.data ++
    List.replicate (cmsgAlign message.data.length - message.data.length) 0

/-- What one pass of the loop makes of the message. -/
def meet (message : ControlMessage) (found : Found) : Found :=
  match message.descriptors with
  | [] => found
  | descriptor :: _ =>
      { receivedFds := found.receivedFds + 1
        descriptor := found.descriptor.or (some descriptor) }

end ControlMessage

/-- The control bytes of a sequence of messages. -/
def layout (messages : List ControlMessage) : Bytes := messages.flatMap ControlMessage.bytes

/-! ## The walk -/

theorem cmsgSpace_eq (length : Nat) : cmsgSpace length = cmsgAlign (cmsgLen length) := by
  unfold cmsgSpace cmsgLen cmsgAlign cmsghdrBytes
  omega

theorem cmsgLen_le_space (length : Nat) : cmsgLen length ≤ cmsgSpace length := by
  unfold cmsgSpace cmsgLen cmsgAlign
  omega

theorem length_bytes (message : ControlMessage) :
    message.bytes.length = cmsgSpace message.data.length := by
  have padded : message.data.length ≤ cmsgAlign message.data.length := by
    unfold cmsgAlign
    omega
  simp only [ControlMessage.bytes, List.length_append, length_leBytes, List.length_replicate]
  unfold cmsgSpace cmsgAlign cmsghdrBytes at *
  omega

/-- The fields of a header, in front of `data` and whatever follows it. -/
theorem header_windows (message : ControlMessage) (front rest : Bytes) :
    window (front ++ (message.bytes ++ rest)) front.length 8 =
        leBytes 8 (cmsgLen message.data.length) ∧
      window (front ++ (message.bytes ++ rest)) (front.length + 8) 4 = leBytes 4 message.level ∧
      window (front ++ (message.bytes ++ rest)) (front.length + 12) 4 = leBytes 4 message.kind ∧
      ∀ width ≤ message.data.length,
        window (front ++ (message.bytes ++ rest)) (front.length + cmsghdrBytes) width =
          window message.data 0 width := by
  let tail := message.data ++
    (List.replicate (cmsgAlign message.data.length - message.data.length) 0 ++ rest)
  have split : message.bytes ++ rest = leBytes 8 (cmsgLen message.data.length) ++
      (leBytes 4 message.level ++ (leBytes 4 message.kind ++ tail)) := by
    simp only [ControlMessage.bytes, tail, List.append_assoc]
  have at_offset : ∀ offset width, window (front ++ (message.bytes ++ rest))
      (front.length + offset) width = window (message.bytes ++ rest) offset width :=
    fun offset width => window_append_right front (message.bytes ++ rest) offset width
  refine ⟨?_, ?_, ?_, fun width inside => ?_⟩
  · rw [← Nat.add_zero front.length, at_offset, split, window_front (length_leBytes ..)]
  · rw [at_offset, split, window_behind (length_leBytes ..) _ 0,
      window_front (length_leBytes ..)]
  · rw [at_offset, split, window_behind (length_leBytes ..) _ 4,
      window_behind (length_leBytes ..) _ 0, window_front (length_leBytes ..)]
  · have hdr : cmsghdrBytes = 8 + (4 + (4 + 0)) := rfl
    rw [hdr, at_offset, split, window_behind (length_leBytes ..),
      window_behind (length_leBytes ..), window_behind (length_leBytes ..)]
    exact window_append_left (by rwa [Nat.zero_add])

theorem toInt_descriptor (descriptor : Descriptor) :
    (BitVec.ofNat 32 (leNat (leBytes rawFdBytes descriptor.number))).toInt =
      (descriptor.number : Int) := by
  have small := descriptor.small
  rw [leNat_leBytes (by unfold rawFdBytes; omega), BitVec.toInt_eq_toNat_of_lt]
  · rw [BitVec.toNat_ofNat, Nat.mod_eq_of_lt (by omega)]
  · rw [BitVec.toNat_ofNat, Nat.mod_eq_of_lt (by omega)]
    omega

theorem level_lt (message : ControlMessage) : message.level < 256 ^ 4 := by
  cases message with
  | rights descriptors => exact (by decide : 1 < 256 ^ 4)
  | other level kind data level_lt kind_lt foreign => exact level_lt

theorem kind_lt (message : ControlMessage) : message.kind < 256 ^ 4 := by
  cases message with
  | rights descriptors => exact (by decide : 1 < 256 ^ 4)
  | other level kind data level_lt kind_lt foreign => exact kind_lt

/-- One pass of the loop over a message. -/
theorem visit_bytes (message : ControlMessage) (front rest : Bytes) (found : Found)
    (small : cmsgLen message.data.length < 2 ^ 64) :
    visit (front ++ (message.bytes ++ rest)) front.length found = message.meet found := by
  obtain ⟨length, level, kind, data⟩ := header_windows message front rest
  unfold visit
  rw [length, level, kind, leNat_leBytes small, leNat_leBytes (level_lt message),
    leNat_leBytes (kind_lt message)]
  cases message with
  | rights descriptors =>
      cases descriptors with
      | nil => rfl
      | cons first others =>
          have starts : window (ControlMessage.rights (first :: others)).data 0 rawFdBytes =
              leBytes rawFdBytes first.number := window_front (length_leBytes ..) _
          have room : rawFdBytes ≤ (ControlMessage.rights (first :: others)).data.length := by
            simp [ControlMessage.data]
          have fits : cmsgLen 0 + rawFdBytes ≤
              cmsgLen (ControlMessage.rights (first :: others)).data.length := by
            unfold cmsgLen
            omega
          rw [if_pos ⟨rfl, rfl, fits⟩, data rawFdBytes room, starts, toInt_descriptor]
          obtain ⟨descriptor, receivedFds⟩ := found
          cases descriptor <;> simp [ControlMessage.meet, ControlMessage.descriptors]
  | other level kind data level_lt kind_lt foreign =>
      exact if_neg fun same => foreign ⟨same.1, same.2.1⟩

theorem nextHeader_last (message : ControlMessage) (front : Bytes)
    (small : cmsgLen message.data.length < 2 ^ 64) :
    nextHeader (front ++ message.bytes) front.length = none := by
  have length := (header_windows message front []).1
  rw [List.append_nil] at length
  have beyond : (front ++ message.bytes).length <
      front.length + cmsgAlign (cmsgLen message.data.length) + cmsghdrBytes := by
    rw [List.length_append, length_bytes, cmsgSpace_eq]
    unfold cmsghdrBytes
    omega
  unfold nextHeader
  rw [length, leNat_leBytes small]
  dsimp only
  rw [if_pos beyond, ite_self]

theorem nextHeader_more (message next : ControlMessage) (front rest : Bytes)
    (small : (front ++ (message.bytes ++ (next.bytes ++ rest))).length < 2 ^ 64) :
    nextHeader (front ++ (message.bytes ++ (next.bytes ++ rest))) front.length =
      some (front ++ message.bytes).length := by
  have length := (header_windows message front (next.bytes ++ rest)).1
  have following := (header_windows next (front ++ message.bytes) rest).1
  rw [List.append_assoc] at following
  simp only [List.length_append, length_bytes] at small
  have smaller := cmsgLen_le_space message.data.length
  have smaller' := cmsgLen_le_space next.data.length
  have here : front.length + cmsgAlign (cmsgLen message.data.length) =
      (front ++ message.bytes).length := by
    rw [List.length_append, length_bytes, cmsgSpace_eq]
  have header : cmsghdrBytes ≤ cmsgLen message.data.length := by
    unfold cmsgLen cmsgAlign cmsghdrBytes
    omega
  have header' : cmsghdrBytes ≤ cmsgSpace next.data.length := by
    unfold cmsgSpace cmsgAlign cmsghdrBytes
    omega
  unfold nextHeader
  rw [length, leNat_leBytes (by omega)]
  dsimp only
  rw [if_neg (by omega), here, following, leNat_leBytes (by omega), ← cmsgSpace_eq]
  simp only [List.length_append, length_bytes]
  rw [if_neg (by omega), if_neg (by omega)]

/-- The walk meets every message once, in order. -/
theorem scan_layout (messages : List ControlMessage) :
    ∀ (message : ControlMessage) (front : Bytes) (found : Found),
      (front ++ layout (message :: messages)).length < 2 ^ 64 →
      scan (front ++ layout (message :: messages)) front.length found =
        (message :: messages).foldl (fun found message => message.meet found) found := by
  induction messages with
  | nil =>
      intro message front found small
      have alone : layout [message] = message.bytes := List.append_nil _
      have fits : cmsgLen message.data.length < 2 ^ 64 := by
        rw [alone, List.length_append, length_bytes] at small
        have smaller := cmsgLen_le_space message.data.length
        omega
      have met := visit_bytes message front [] found fits
      rw [List.append_nil] at met
      rw [alone, scan, nextHeader_last message front fits]
      exact met
  | cons next messages ih =>
      intro message front found small
      have two : layout (message :: next :: messages) =
          message.bytes ++ (next.bytes ++ layout messages) := rfl
      have fits : cmsgLen message.data.length < 2 ^ 64 := by
        rw [two, List.length_append, List.length_append, length_bytes] at small
        have smaller := cmsgLen_le_space message.data.length
        omega
      have behind : front ++ (message.bytes ++ (next.bytes ++ layout messages)) =
          (front ++ message.bytes) ++ layout (next :: messages) := (List.append_assoc ..).symm
      have met := visit_bytes message front (next.bytes ++ layout messages) found fits
      rw [two] at small ⊢
      rw [scan, nextHeader_more message next front (layout messages) small, met]
      dsimp only
      rw [behind] at small ⊢
      exact ih next (front ++ message.bytes) (message.meet found) small

/-- What the search finds among messages. -/
theorem search_layout {messages : List ControlMessage}
    (small : (layout messages).length < 2 ^ 64) :
    search (layout messages) =
      messages.foldl (fun found message => message.meet found)
        { descriptor := none, receivedFds := 0 } := by
  cases messages with
  | nil => rfl
  | cons message messages =>
      have header : cmsghdrBytes ≤ (layout (message :: messages)).length := by
        have first : layout (message :: messages) = message.bytes ++ layout messages := rfl
        rw [first, List.length_append, length_bytes]
        unfold cmsgSpace cmsgAlign cmsghdrBytes
        omega
      rw [search, firstHeader, if_pos header]
      exact scan_layout messages message [] _ small

/-! ## Deliveries -/

/-- What one call of `receive_segment_fd` does to the descriptors of the process: the messages
that it received, whether some were cut off, and the descriptors that it closed. -/
structure Handed : Type where
  messages : List ControlMessage
  truncated : Bool
  closed : List Nat

/-- The descriptors that the call received. -/
def Handed.received (handed : Handed) : List Nat :=
  handed.messages.flatMap ControlMessage.descriptors

/-- The call at its start. -/
def Handed.none : Handed := { messages := [], truncated := false, closed := [] }

/-- The kernel fails, or delivers a sequence of messages that the control buffer of
`CMSG_SPACE(size_of::<RawFd>())` bytes has room for. -/
def kernel : Prog.Handler Op Op.Ret Handed
  | .recvmsg, s, answer, s' =>
      (∃ source, answer = .error source ∧ s' = s) ∨
      ∃ messages truncated, (layout messages).length ≤ cmsgSpace rawFdBytes ∧
        answer = .ok { control := layout messages, truncated := truncated } ∧
        s' = { s with messages := messages, truncated := truncated }
  | .close descriptor, s, _, s' => s' = { s with closed := descriptor :: s.closed }

/-- The descriptors that the caller now owns. -/
def owned : Outcome Error Nat → List Nat
  | .ok descriptor => [descriptor]
  | .error _ => []
  | .panic => []
  | .pending => []

/-- A descriptor is returned exactly when it is the only one and nothing was cut off, and every
other one has been closed once. -/
structure Accounted (out : Outcome Error Nat) (handed : Handed) : Prop where
  returned : ∀ descriptor, out = .ok descriptor ↔
    handed.received = [descriptor] ∧ handed.truncated = false
  closed : (owned out ++ handed.closed).Perm handed.received

/-! ## The account of a call -/

/-- The control buffer has room for one message. -/
theorem messages_of_fits {messages : List ControlMessage}
    (fits : (layout messages).length ≤ cmsgSpace rawFdBytes) :
    messages = [] ∨ ∃ message, messages = [message] := by
  cases messages with
  | nil => exact .inl rfl
  | cons message messages =>
      cases messages with
      | nil => exact .inr ⟨message, rfl⟩
      | cons next messages =>
          have two : layout (message :: next :: messages) =
              message.bytes ++ (next.bytes ++ layout messages) := rfl
          rw [two, List.length_append, List.length_append, length_bytes, length_bytes] at fits
          unfold cmsgSpace cmsgAlign cmsghdrBytes rawFdBytes at fits
          omega

/-- The loop around `recvmsg` ends with what was delivered, or with nothing received. -/
theorem runs_receive {fuel : Nat} {out : Outcome Error Message} {s : Handed}
    (run : (receive fuel).Runs kernel Handed.none out s) :
    (∃ messages truncated, (layout messages).length ≤ cmsgSpace rawFdBytes ∧
      out = .ok { control := layout messages, truncated := truncated } ∧
      s = { messages := messages, truncated := truncated, closed := [] }) ∨
    (∀ message, out ≠ .ok message) ∧ s = Handed.none := by
  induction fuel with
  | zero =>
      obtain ⟨rfl, rfl⟩ := run
      exact .inr ⟨fun _ same => (by cases same), rfl⟩
  | succ fuel ih =>
      obtain ⟨answer, mid, answered, rest⟩ := run
      rcases answered with ⟨source, rfl, rfl⟩ | ⟨messages, truncated, fits, rfl, rfl⟩
      · cases source with
        | interrupted => exact ih rest
        | wouldBlock =>
            obtain ⟨rfl, rfl⟩ := rest
            exact .inr ⟨fun _ same => (by cases same), rfl⟩
        | timedOut =>
            obtain ⟨rfl, rfl⟩ := rest
            exact .inr ⟨fun _ same => (by cases same), rfl⟩
        | other =>
            obtain ⟨rfl, rfl⟩ := rest
            exact .inr ⟨fun _ same => (by cases same), rfl⟩
      · obtain ⟨rfl, rfl⟩ := rest
        exact .inl ⟨messages, truncated, fits, rfl, rfl⟩

/-- Where nothing was received and nothing closed, every way to end without a value is in
order. -/
theorem accounted_of_nothing {out : Outcome Error Nat} {s : Handed}
    (received : s.received = []) (closed : s.closed = []) (valueless : ∀ value, out ≠ .ok value) :
    Accounted out s := by
  refine ⟨fun descriptor => ?_, ?_⟩
  · rw [received]
    refine ⟨fun same => absurd same (valueless descriptor), fun same => ?_⟩
    cases same.1
  · rw [received, closed]
    cases out with
    | ok value => exact absurd rfl (valueless value)
    | error reason => exact .refl _
    | panic => exact .refl _
    | pending => exact .refl _

/-- A loop that gives no message has received nothing. -/
theorem untouched_of_receive {fuel : Nat} {out : Outcome Error Message} {s : Handed}
    (run : (receive fuel).Runs kernel Handed.none out s) (never : ∀ message, out ≠ .ok message) :
    s = Handed.none := by
  rcases runs_receive run with ⟨messages, truncated, -, same, -⟩ | ⟨-, none⟩
  · exact absurd same (never _)
  · exact none

/-- The call answers for the first descriptor that it received, and for no other. -/
theorem accounted_of_first {out : Outcome Error Nat} {s : Handed} {descriptor : Nat}
    {others : List Nat} (received : s.received = descriptor :: others)
    (once : owned out ++ s.closed = [descriptor])
    (verdict : ∀ value, out = .ok value ↔ value = descriptor ∧ s.truncated = false) :
    Accounted out s ↔ others = [] := by
  constructor
  · intro accounted
    have all := accounted.closed.length_eq
    rw [once, received, List.length_singleton, List.length_cons] at all
    exact List.length_eq_zero_iff.mp (Nat.succ.inj all).symm
  · intro alone
    rw [alone] at received
    refine ⟨fun value => ?_, ?_⟩
    · rw [verdict, received, List.singleton_inj, eq_comm]
    · rw [once, received]

/-- The end of the call, after the delivery of one message. -/
theorem conclude_single {message : ControlMessage} {truncated : Bool} {out : Outcome Error Nat}
    {s : Handed}
    (run : (conclude (message.meet { descriptor := none, receivedFds := 0 }) truncated).Runs
      kernel { messages := [message], truncated := truncated, closed := [] } out s) :
    Accounted out s ↔ ∀ message ∈ s.messages, message.descriptors.length ≤ 1 := by
  have received : ∀ closed, (Handed.mk [message] truncated closed).received =
      message.descriptors :=
    fun _ => List.append_nil _
  have single : (∀ other ∈ [message], other.descriptors.length ≤ 1) ↔
      message.descriptors.length ≤ 1 := List.forall_mem_singleton
  unfold ControlMessage.meet at run
  cases carried : message.descriptors with
  | nil =>
      rw [carried] at run single
      obtain ⟨rfl, rfl⟩ := run
      refine iff_of_true (accounted_of_nothing ?_ rfl fun _ same => by cases same) ?_
      · rw [received, carried]
      · exact single.mpr (Nat.zero_le _)
  | cons descriptor others =>
      have alone : (descriptor :: others).length ≤ 1 ↔ others = [] := by
        rw [List.length_cons, ← List.length_eq_zero_iff]
        omega
      rw [carried, alone] at single
      rw [carried] at run
      cases truncated with
      | false =>
          obtain ⟨rfl, rfl⟩ := run
          refine (accounted_of_first ?_ rfl fun value => ?_).trans single.symm
          · rw [received, carried]
          · simp [eq_comm]
      | true =>
          obtain ⟨_, _, rfl, rfl, rfl⟩ := run
          refine (accounted_of_first ?_ rfl fun value => ?_).trans single.symm
          · rw [received, carried]
          · simp

/-- A call whose first `recvmsg` delivers the messages. -/
theorem runs_delivered (messages : List ControlMessage) (truncated : Bool)
    {out : Outcome Error Nat} {s : Handed}
    (fits : (layout messages).length ≤ cmsgSpace rawFdBytes)
    (rest : (conclude (messages.foldl (fun found message => message.meet found)
      { descriptor := none, receivedFds := 0 }) truncated).Runs kernel
        { messages := messages, truncated := truncated, closed := [] } out s) :
    (receiveSegmentFd 1).Runs kernel Handed.none out s := by
  have small : (layout messages).length < 2 ^ 64 := by
    have capacity : cmsgSpace rawFdBytes = 24 := rfl
    omega
  rw [← search_layout small] at rest
  let message : Message := { control := layout messages, truncated := truncated }
  refine Prog.runs_bind.mpr (.inl ⟨message, _, ?_, rest⟩)
  exact ⟨_, _, .inr ⟨messages, truncated, fits, rfl, rfl⟩, rfl, rfl⟩

/-- **The handoff.** The descriptors of a call are accounted for exactly when no message carried
more than one. -/
theorem accounted_iff {fuel : Nat} {out : Outcome Error Nat} {s : Handed}
    (run : (receiveSegmentFd fuel).Runs kernel Handed.none out s) :
    Accounted out s ↔ ∀ message ∈ s.messages, message.descriptors.length ≤ 1 := by
  have nothing : (∀ value, out ≠ .ok value) → s = Handed.none →
      (Accounted out s ↔ ∀ message ∈ s.messages, message.descriptors.length ≤ 1) := by
    rintro valueless rfl
    refine iff_of_true (accounted_of_nothing rfl rfl valueless) ?_
    exact fun message member => absurd member (List.not_mem_nil)
  rcases Prog.runs_bind.mp run with ⟨message, mid, received, rest⟩ | ⟨reason, received, rfl⟩ |
    ⟨received, rfl⟩ | ⟨received, rfl⟩
  · rcases runs_receive received with ⟨messages, truncated, fits, same, rfl⟩ | ⟨never, _⟩
    · cases same
      have small : (layout messages).length < 2 ^ 64 := by
        have capacity : cmsgSpace rawFdBytes = 24 := rfl
        omega
      dsimp only at rest
      rw [search_layout small] at rest
      rcases messages_of_fits fits with rfl | ⟨message, rfl⟩
      · obtain ⟨rfl, rfl⟩ := rest
        refine iff_of_true (accounted_of_nothing rfl rfl fun _ same => by cases same) ?_
        exact fun message member => absurd member (List.not_mem_nil)
      · exact conclude_single rest
    · exact absurd rfl (never message)
  · exact nothing (fun _ same => by cases same)
      (untouched_of_receive received fun _ same => by cases same)
  · exact nothing (fun _ same => by cases same)
      (untouched_of_receive received fun _ same => by cases same)
  · exact nothing (fun _ same => by cases same)
      (untouched_of_receive received fun _ same => by cases same)

/-- Descriptor 7 in a message of its own. -/
theorem accounted_seven :
    Accounted (.ok 7)
      { messages := [.rights [⟨7, by decide⟩]], truncated := false, closed := [] } := by
  have run : (receiveSegmentFd 1).Runs kernel Handed.none (.ok 7)
      { messages := [.rights [⟨7, by decide⟩]], truncated := false, closed := [] } :=
    runs_delivered [.rights [⟨7, by decide⟩]] false (by decide) ⟨rfl, rfl⟩
  exact (accounted_iff run).mpr (by simp [ControlMessage.descriptors])

/-- Descriptors 7 and 8 in one message: the call returns 7, and 8 stays open. -/
theorem pair_not_accounted :
    ¬ ∀ (fuel : Nat) (out : Outcome Error Nat) (s : Handed),
      (receiveSegmentFd fuel).Runs kernel Handed.none out s → Accounted out s := by
  intro always
  have run : (receiveSegmentFd 1).Runs kernel Handed.none (.ok 7)
      { messages := [.rights [⟨7, by decide⟩, ⟨8, by decide⟩]], truncated := false,
        closed := [] } :=
    runs_delivered [.rights [⟨7, by decide⟩, ⟨8, by decide⟩]] false (by decide) ⟨rfl, rfl⟩
  have two := (always 1 _ _ run).closed.length_eq
  exact absurd two (by decide)

end Netsystem.Stats.Handoff
