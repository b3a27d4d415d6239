import Netsystem.Expansion
import Netsystem.Holdings
import Netsystem.Stats.Client
import Netsystem.Stats.Handoff

/-!
# Connecting to a segment

`StatsClient::connect` of `hammer-stats-client/src/client.rs`: the socket, the handoff of the
descriptor, and the mapping that is left of it. `connected` is the account of a call: it holds one
mapping or none, and no descriptor but those that the handoff forgets (`Handoff.accounted_iff`).
-/

namespace Netsystem.Stats.Connect

open Holdings (Range Space Others Holds Accounts beside beside_nil beside_cons
  beside_update beside_eq_false amid_alone)
open Handoff (ControlMessage)

/-- The text of an `io::Error` of the system. -/
abbrev IoError : Type := String

inductive ConnectError : Type where
  | connect (path : Bytes) (source : IoError)
  | socketPathTooLong (path : Bytes) (max : Nat)
  | handoff (source : Handoff.Error)
  | fstat (source : IoError)
  | invalidSegmentSize (size : Int)
  | mapping (source : IoError)
  | segment (source : Error)
  deriving DecidableEq, Repr

/-! ## System calls -/

inductive Syscall : Type where
  | socket
  | setCloexec (fd : Nat)
  | connect (fd : Nat) (address : Bytes) (length : Nat)
  | setTimeout (fd seconds : Nat)
  | handoff (op : Handoff.Op)
  | close (fd : Nat)
  | fstat (fd : Nat)
  | mmap (fd length : Nat)
  | load (load : Load)
  | munmap (range : Range)

@[reducible] def Syscall.Ret : Syscall → Type
  | .socket => Except IoError Nat
  | .setCloexec _ => Except IoError Unit
  | .connect _ _ _ => Except IoError Unit
  | .setTimeout _ _ => Except IoError Unit
  | .handoff op => op.Ret
  | .close _ => Unit
  | .fstat _ => Except IoError Int
  | .mmap _ _ => Except IoError Nat
  | .load _ => Bytes
  | .munmap _ => Bool

abbrev Connecting (α : Type) : Type := Prog Syscall Syscall.Ret ConnectError α

/-- `HANDOFF_TIMEOUT`. -/
def handoffTimeout : Nat := 10

/-- `sun_path.len()`. -/
def sunPathBytes : Nat := 108

/-- `socket_address`: the bytes of `sun_path`, and the length of the address. -/
def socketAddress (path : Bytes) : Except ConnectError (Bytes × Nat) :=
  if sunPathBytes ≤ path.length then .error (.socketPathTooLong path (sunPathBytes - 1))
  else .ok (path ++ List.replicate (sunPathBytes - path.length) 0, 2 + path.length + 1)

/-- An error with a descriptor given back. -/
def closing {α : Type} (fd : Nat) (reason : ConnectError) : Connecting α :=
  .step (.close fd) fun _ => .throw reason

/-- `connect_socket`. -/
def connectSocket (path : Bytes) : Connecting Nat :=
  .step .socket fun raw =>
    match raw with
    | .error source => .throw (.connect path source)
    | .ok socket =>
        .step (.setCloexec socket) fun applied =>
          match applied with
          | .error source => closing socket (.connect path source)
          | .ok _ =>
              match socketAddress path with
              | .error reason => closing socket reason
              | .ok (address, length) =>
                  .step (.connect socket address length) fun connected =>
                    match connected with
                    | .error source => closing socket (.connect path source)
                    | .ok _ =>
                        .step (.setTimeout socket handoffTimeout) fun applied =>
                          match applied with
                          | .error source => closing socket (.connect path source)
                          | .ok _ => .done (.ok socket)

/-- `receive_segment_fd`. -/
def receiveSegmentFd (fuel : Nat) : Prog Syscall Syscall.Ret Handoff.Error Nat :=
  (Handoff.receiveSegmentFd fuel).expand fun op => Prog.perform (Syscall.handoff op)

/-- The header of the mapped segment, and its version. -/
def checkSegment (length : Nat) : Prog Syscall Syscall.Ret Error Unit :=
  ((readHeader .opening ⟨0, length⟩).bind fun header => lift header.validateVersion).expand
    fun load => Prog.perform (Syscall.load load)

/-- `SegmentMapping::new`; a length of `off_t` fits `usize`. -/
def segmentMapping (fd : Nat) : Connecting Range :=
  .step (.fstat fd) fun status =>
    match status with
    | .error source => .throw (.fstat source)
    | .ok size =>
        if size ≤ 0 then .throw (.invalidSegmentSize size)
        else
          .step (.mmap fd size.toNat) fun mapped =>
            match mapped with
            | .error source => .throw (.mapping source)
            | .ok pointer =>
                let mapping : Range := ⟨pointer, size.toNat⟩
                (checkSegment mapping.size).attempt.bind fun checked =>
                  match checked with
                  | .ok _ => .done (.ok mapping)
                  | .error reason =>
                      .step (.munmap mapping) fun done =>
                        if done then .throw (.segment reason) else .panic

/-- `StatsClient::connect` from the received descriptor on, which it gives back in any case. -/
def connectSegment (segmentFd : Nat) : Connecting Range :=
  (segmentMapping segmentFd).attempt.bind fun mapped =>
    match mapped with
    | .error reason => closing segmentFd reason
    | .ok mapping => .step (.close segmentFd) fun _ => .done (.ok mapping)

/-- `StatsClient::connect`, with at most `fuel` calls of `recvmsg`. -/
def connect (path : Bytes) (fuel : Nat) : Connecting Range :=
  (connectSocket path).bind fun socket =>
    (receiveSegmentFd fuel).attempt.bind fun received =>
      match received with
      | .error reason => closing socket (.handoff reason)
      | .ok segmentFd => .step (.close socket) fun _ => connectSegment segmentFd

/-! ## The kernel -/

/-- What the client holds, and the descriptors that were handed to it. -/
abbrev Linked : Type := Holdings.Held Unit (List Nat)

namespace Linked

def setFile (s : Linked) (fd : Nat) (held : Bool) : Linked :=
  { s with space := s.space.setFile fd held }

def put (s : Linked) (range : Range) (owner : Option (Holdings.Owner Unit)) : Linked :=
  { s with space := s.space.put range owner }

/-- Descriptors are installed. -/
def deliver (s : Linked) (received : List Nat) : Linked where
  space := { s.space with files := beside s.space.files received }
  record := received

end Linked

/-- The descriptors of a sequence of messages. -/
def received (messages : List ControlMessage) : List Nat :=
  messages.flatMap ControlMessage.descriptors

/-- The system calls. Any of them may fail; a control message installs descriptors that were not
open, and the bytes of the segment are whatever the server writes. -/
inductive Kernel : (op : Syscall) → Linked → op.Ret → Linked → Prop
  | socket {s : Linked} {fd : Nat} : s.space.files fd = false →
    Kernel .socket s (.ok fd) (s.setFile fd true)
  | socketFailed {s : Linked} {source : IoError} : Kernel .socket s (.error source) s
  | setCloexec {s : Linked} {fd : Nat} {answer : Except IoError Unit} :
    Kernel (.setCloexec fd) s answer s
  | connect {s : Linked} {fd length : Nat} {address : Bytes} {answer : Except IoError Unit} :
    Kernel (.connect fd address length) s answer s
  | setTimeout {s : Linked} {fd seconds : Nat} {answer : Except IoError Unit} :
    Kernel (.setTimeout fd seconds) s answer s
  | recvmsg {s : Linked} {messages : List ControlMessage} {truncated : Bool} :
    (Handoff.layout messages).length ≤ Handoff.cmsgSpace Handoff.rawFdBytes →
    (received messages).Nodup → (∀ fd ∈ received messages, s.space.files fd = false) →
    Kernel (.handoff .recvmsg) s (.ok ⟨Handoff.layout messages, truncated⟩)
      (s.deliver (received messages))
  | recvmsgFailed {s : Linked} {source : Handoff.ErrorKind} :
    Kernel (.handoff .recvmsg) s (.error source) s
  | handoffClose {s : Linked} {fd : Nat} : Kernel (.handoff (.close fd)) s ()
    (s.setFile fd false)
  | close {s : Linked} {fd : Nat} : Kernel (.close fd) s () (s.setFile fd false)
  | fstat {s : Linked} {fd : Nat} {answer : Except IoError Int} : Kernel (.fstat fd) s answer s
  | mmap {s : Linked} {fd length address : Nat} :
    (∀ other, (⟨address, length⟩ : Range).Has other → s.space.owner other = none) →
    Kernel (.mmap fd length) s (.ok address) (s.put ⟨address, length⟩ (some (.mine ())))
  | mmapFailed {s : Linked} {fd length : Nat} {source : IoError} :
    Kernel (.mmap fd length) s (.error source) s
  | load {s : Linked} {load : Load} {answer : Bytes} : Kernel (.load load) s answer s
  | munmap {s : Linked} {range : Range} : Kernel (.munmap range) s true (s.put range none)
  | munmapFailed {s : Linked} {range : Range} : Kernel (.munmap range) s false s

/-- A system call, after the others did what they like. -/
abbrev kernel : Prog.Handler Syscall Syscall.Ret Linked := Holdings.amid Kernel

/-- Calls that change nothing that is accounted for. -/
def Syscall.Idle : Syscall → Prop
  | .setCloexec _ | .connect _ _ _ | .setTimeout _ _ | .fstat _ | .load _ => True
  | _ => False

theorem idle_of_handled (op : Syscall) (mid : Linked) (answer : op.Ret) (s' : Linked)
    (idle : op.Idle) (handled : Kernel op mid answer s') : s' = mid := by
  cases handled
  case setCloexec | connect | setTimeout | fstat | load => rfl
  all_goals exact idle.elim

section Accounts

variable {files : Nat → Bool} {lost : Nat → Prop} {handed : List Nat}
  {held : Option (Range × Unit)} {s : Linked} {α ε : Type} {fd : Nat}
  {value : α → Linked → Prop} {stop : Stop ε → Linked → Prop}

theorem ensures_close (accounts : Accounts (Function.update files fd true) lost handed held s)
    (fresh : files fd = false) {next : Unit → Prog Syscall Syscall.Ret ε α}
    (rest : ∀ s', Accounts files lost handed held s' → (next ()).Ensures kernel value stop s') :
    (Prog.step (.close fd) next).Ensures kernel value stop s :=
  accounts.close fresh (fun _ _ _ handled => by cases handled; rfl) fun _ => rest

/-- An error with a descriptor given back. -/
theorem closing_accounts (accounts : Accounts (Function.update files fd true) lost handed held s)
    (fresh : files fd = false) (reason : ConnectError) :
    (closing fd reason : Connecting α).Ensures kernel (fun _ _ => False)
      (fun _ s' => Accounts files lost handed held s') s :=
  ensures_close accounts fresh fun _ closed => closed

/-! ## The socket -/

/-- A socket that was not open before, or nothing. -/
theorem connectSocket_accounts (path : Bytes) (bare : Accounts files lost handed none s) :
    (connectSocket path).Ensures kernel
      (fun socket s' => files socket = false ∧
        Accounts (Function.update files socket true) lost handed none s')
      (fun _ s' => Accounts files lost handed none s') s := by
  refine bare.call fun mid answer s' quiet handled => ?_
  cases handled with
  | socketFailed => exact ⟨quiet, rfl⟩
  | @socket _ socket fresh =>
      have unheld : files socket = false := by rw [← quiet.files]; exact fresh
      have opened : Accounts (Function.update files socket true) lost handed none
          (Linked.setFile ⟨mid, handed⟩ socket true) := ⟨quiet.setFile socket true, rfl⟩
      have failed (reason : ConnectError) (last : Linked)
          (kept : Accounts (Function.update files socket true) lost handed none last) :
          (closing socket reason : Connecting Nat).Ensures kernel
            (fun socket s' => files socket = false ∧
              Accounts (Function.update files socket true) lost handed none s')
            (fun _ s' => Accounts files lost handed none s') last :=
        (closing_accounts kept unheld reason).mono (fun _ _ => False.elim) fun _ _ => id
      refine opened.idle (idle_of_handled (.setCloexec socket) · · · trivial)
        fun applied last kept => ?_
      cases applied with
      | error source => exact failed _ _ kept
      | ok _ =>
          dsimp only
          split
          · exact failed _ _ kept
          · next address length _ =>
              refine kept.idle (idle_of_handled (.connect socket address length) · · · trivial)
                fun connected last kept => ?_
              cases connected with
              | error source => exact failed _ _ kept
              | ok _ =>
                  refine kept.idle (idle_of_handled (.setTimeout socket _) · · · trivial)
                    fun applied last kept => ?_
                  cases applied with
                  | error source => exact failed _ _ kept
                  | ok _ => exact ⟨unheld, kept⟩

/-! ## The handoff -/

/-- At most two descriptors, all of them new. -/
structure Fresh (files : Nat → Bool) (handed : List Nat) : Prop where
  few : handed.length ≤ 2
  nodup : handed.Nodup
  fresh : ∀ fd ∈ handed, files fd = false

/-- What is new beside a descriptor is not that descriptor. -/
theorem Fresh.apart (new : Fresh (Function.update files fd true) handed) :
    fd ∉ handed ∧ Fresh files handed := by
  have outside : fd ∉ handed := fun member => by
    have held := new.fresh fd member
    rw [Function.update_self] at held
    cases held
  refine ⟨outside, new.few, new.nodup, fun other member => ?_⟩
  have apart : other ≠ fd := fun same => outside (same ▸ member)
  rw [← new.fresh other member, Function.update_of_ne apart]

/-- A sequence of messages that the control buffer has room for. -/
def Fits (messages : List ControlMessage) : Prop :=
  (Handoff.layout messages).length ≤ Handoff.cmsgSpace Handoff.rawFdBytes

/-- The search finds the first of the descriptors that were delivered, and takes it for the only
one. -/
theorem Fits.search {messages : List ControlMessage} (fits : Fits messages) :
    Handoff.search (Handoff.layout messages) =
      ⟨(received messages).head?, min 1 (received messages).length⟩ := by
  have small : (Handoff.layout messages).length < 2 ^ 64 := by
    have capacity : Handoff.cmsgSpace Handoff.rawFdBytes = 24 := rfl
    unfold Fits at fits
    omega
  rw [Handoff.search_layout small]
  rcases Handoff.messages_of_fits fits with rfl | ⟨message, rfl⟩
  · rfl
  · have one : received [message] = message.descriptors := List.append_nil _
    rw [one, List.foldl_cons, List.foldl_nil, ControlMessage.meet]
    cases message.descriptors with
    | nil => rfl
    | cons fd more => exact congrArg (Handoff.Found.mk _) (by simp)

/-- The control buffer has room for one descriptor, and through its padding for another. -/
theorem Fits.few {messages : List ControlMessage} (fits : Fits messages) :
    (received messages).length ≤ 2 := by
  rcases Handoff.messages_of_fits fits with rfl | ⟨message, rfl⟩
  · exact Nat.zero_le _
  · have one : received [message] = message.descriptors := List.append_nil _
    have alone : Handoff.layout [message] = message.bytes := List.append_nil _
    rw [Fits, alone, Handoff.length_bytes] at fits
    rw [one]
    cases message with
    | other level kind data level_lt kind_lt foreign => exact Nat.zero_le _
    | rights descriptors =>
        have bytes : (ControlMessage.rights descriptors).data.length =
            descriptors.length * 4 := by
          simp [ControlMessage.data, Handoff.rawFdBytes]
        rw [bytes] at fits
        show (descriptors.map Handoff.Descriptor.number).length ≤ 2
        rw [List.length_map]
        unfold Handoff.cmsgSpace Handoff.cmsgAlign Handoff.cmsghdrBytes Handoff.rawFdBytes at fits
        omega

/-- The operations of the handoff are system calls. -/
abbrev handoffCall (op : Handoff.Op) : Prog Syscall Syscall.Ret Handoff.Error op.Ret :=
  Prog.perform (Syscall.handoff op)

theorem receive_accounts (fuel : Nat) (bare : Accounts files lost [] none s) :
    ((Handoff.receive fuel).expand handoffCall).Ensures kernel
      (fun message s' => ∃ messages, Fits messages ∧ Fresh files (received messages) ∧
        message.control = Handoff.layout messages ∧
        Accounts (beside files (received messages)) lost (received messages) none s')
      (fun _ s' => Accounts files lost [] none s') s := by
  induction fuel generalizing s with
  | zero => exact bare
  | succ fuel ih =>
      refine bare.call fun mid answer s' quiet handled => ?_
      cases handled with
      | @recvmsg _ messages truncated fits nodup fresh =>
          have new : ∀ fd ∈ received messages, files fd = false := by
            rw [← quiet.files]
            exact fresh
          refine ⟨messages, fits, ⟨Fits.few fits, nodup, new⟩, rfl,
            ⟨?_, quiet.lost, quiet.mine⟩, rfl⟩
          exact congrArg (beside · (received messages)) quiet.files
      | @recvmsgFailed _ source =>
          have kept : Accounts files lost [] none (⟨mid, []⟩ : Linked) := ⟨quiet, rfl⟩
          cases source with
          | interrupted => exact ih kept
          | wouldBlock => exact kept
          | timedOut => exact kept
          | other => exact kept

/-- The verdict on a delivery: its first descriptor is returned, or nothing is; the others stay
open. -/
theorem conclude_accounts {messages : List ControlMessage} (truncated : Bool)
    (fits : Fits messages) (new : Fresh files (received messages))
    (accounts : Accounts (beside files (received messages)) lost (received messages) none s) :
    ((Handoff.conclude (Handoff.search (Handoff.layout messages)) truncated).expand
        handoffCall).Ensures kernel
      (fun fd s' => ∃ more, Fresh files (fd :: more) ∧
        Accounts (beside files (fd :: more)) lost (fd :: more) none s')
      (fun _ s' => ∃ all, Fresh files all ∧ Accounts (beside files all.tail) lost all none s')
        s := by
  rw [fits.search]
  cases all : received messages with
  | nil =>
      rw [all] at new accounts
      exact ⟨[], new, accounts⟩
  | cons fd more =>
      rw [all] at new accounts
      have fresh : beside files more fd = false :=
        beside_eq_false (new.fresh fd (List.mem_cons_self ..)) (List.nodup_cons.mp new.nodup).1
      show Prog.Ensures kernel _ _
        (Prog.expand handoffCall (if _ ∧ _ then pure fd else _)) s
      split
      · exact ⟨more, new, accounts⟩
      · rw [beside_cons] at accounts
        refine accounts.close fresh (fun _ _ _ handled => by cases handled; rfl)
          fun _ s' kept => ?_
        exact ⟨fd :: more, new, kept⟩

theorem receiveSegmentFd_accounts (fuel : Nat) (bare : Accounts files lost [] none s) :
    (receiveSegmentFd fuel).Ensures kernel
      (fun fd s' => ∃ more, Fresh files (fd :: more) ∧
        Accounts (beside files (fd :: more)) lost (fd :: more) none s')
      (fun _ s' => ∃ all, Fresh files all ∧ Accounts (beside files all.tail) lost all none s')
        s := by
  have split : receiveSegmentFd fuel = ((Handoff.receive fuel).expand handoffCall).bind
    fun message =>
      (Handoff.conclude (Handoff.search message.control) message.truncated).expand handoffCall :=
    Prog.expand_bind _ _
  rw [split]
  refine Prog.ensures_bind.mpr ((receive_accounts fuel bare).mono (fun message mid taken => ?_)
    fun end_ s' kept => ?_)
  · obtain ⟨messages, fits, new, control, accounts⟩ := taken
    rw [control]
    exact conclude_accounts message.truncated fits new accounts
  · exact ⟨[], ⟨Nat.zero_le _, .nil, nofun⟩, by rwa [List.tail_nil, beside_nil]⟩

/-! ## The mapping -/

theorem checkSegment_short {length : Nat} (short : length < sizeOfSharedHeader) :
    checkSegment length = .throw (.protocol .invalidMapping) := by
  have nowhere : (⟨0, length⟩ : Slice).get 0 sizeOfSharedHeader = none := if_neg (by simp; omega)
  rw [checkSegment, readHeader, nowhere]
  rfl

theorem uses_checkSegment {length : Nat} : (checkSegment length).Uses Syscall.Idle :=
  Prog.uses_expand fun _ => ⟨trivial, fun _ => trivial⟩

/-- A mapping with room for a header, or nothing. -/
theorem segmentMapping_accounts (accounts : Accounts files lost handed none s) :
    (segmentMapping fd).Ensures kernel
      (fun mapping s' => sizeOfSharedHeader ≤ mapping.size ∧
        Accounts files lost handed (some (mapping, ())) s')
      (fun stop s' => ∀ reason, stop = .error reason → Accounts files lost handed none s') s := by
  refine accounts.idle (idle_of_handled (.fstat fd) · · · trivial) fun status mid kept => ?_
  cases status with
  | error source => exact fun _ _ => kept
  | ok size =>
      dsimp only
      split
      · exact fun _ _ => kept
      refine kept.call fun mid answer s' quiet handled => ?_
      cases handled with
      | mmapFailed => exact fun _ _ => ⟨quiet, rfl⟩
      | @mmap _ _ _ pointer free =>
          have mapped : Accounts files lost handed (some (⟨pointer, size.toNat⟩, ()))
              (Linked.put ⟨mid, handed⟩ ⟨pointer, size.toNat⟩ (some (.mine ()))) :=
            ⟨quiet.map free (), rfl⟩
          have rejected (reason : Error) (last : Linked)
              (kept : Accounts files lost handed (some (⟨pointer, size.toNat⟩, ())) last) :
              (Prog.step (.munmap ⟨pointer, size.toNat⟩) fun done =>
                if done then .throw (.segment reason) else .panic :
                  Connecting Range).Ensures kernel
                (fun mapping s' => sizeOfSharedHeader ≤ mapping.size ∧
                  Accounts files lost handed (some (mapping, ())) s')
                (fun stop s' => ∀ reason, stop = .error reason →
                  Accounts files lost handed none s') last :=
            kept.call fun mid answer s' still handled => by
              cases handled with
              | munmap => exact fun _ _ => ⟨still.unmap, rfl⟩
              | munmapFailed => exact nofun
          by_cases room : sizeOfSharedHeader ≤ size.toNat
          · refine mapped.attempted uses_checkSegment idle_of_handled
              (fun checked last kept => ?_)
              fun end_ s' other reason same => absurd same (other reason)
            cases checked with
            | ok done => exact ⟨room, kept⟩
            | error reason => exact rejected reason last kept
          · dsimp only
            rw [checkSegment_short (Nat.lt_of_not_le room)]
            exact rejected _ _ mapped

/-! ## The whole call -/

/-- What is left of a call: of the descriptors that were handed over all but the first are
open. -/
structure Leaves (files : Nat → Bool) (lost : Nat → Prop) (held : Option (Range × Unit))
    (s : Linked) : Prop where
  holds : Holds (beside files s.record.tail) lost held s.space
  few : s.record.length ≤ 2

theorem Leaves.of_accounts (few : handed.length ≤ 2)
    (accounts : Accounts (beside files handed.tail) lost handed held s) :
    Leaves files lost held s := by
  obtain ⟨holds, rfl⟩ := accounts
  exact ⟨holds, few⟩

theorem connectSegment_accounts {more : List Nat} (new : Fresh files (fd :: more))
    (accounts : Accounts (beside files (fd :: more)) lost (fd :: more) none s) :
    (connectSegment fd).Ensures kernel
      (fun mapping s' => sizeOfSharedHeader ≤ mapping.size ∧
        Leaves files lost (some (mapping, ())) s')
      (fun stop s' => ∀ reason, stop = .error reason → Leaves files lost none s') s := by
  have fresh : beside files more fd = false :=
    beside_eq_false (new.fresh fd (List.mem_cons_self ..)) (List.nodup_cons.mp new.nodup).1
  refine Prog.ensures_bind.mpr (Prog.ensures_attempt.mpr ((segmentMapping_accounts accounts).mono
    (fun mapping mid held => ?_) fun end_ mid bare => ?_))
  · obtain ⟨room, held⟩ := held
    rw [beside_cons] at held
    exact ensures_close held fresh fun s' left => ⟨room, .of_accounts new.few left⟩
  · cases end_ with
    | error reason =>
        have kept := bare reason rfl
        rw [beside_cons] at kept
        exact (closing_accounts kept fresh reason).mono (fun _ _ => False.elim)
          fun _ _ left _ _ => .of_accounts new.few left
    | panic => exact nofun
    | pending => exact nofun

theorem connect_accounts (path : Bytes) (fuel : Nat) (bare : Accounts files lost [] none s) :
    (connect path fuel).Ensures kernel
      (fun mapping s' => sizeOfSharedHeader ≤ mapping.size ∧
        Leaves files lost (some (mapping, ())) s')
      (fun stop s' => ∀ reason, stop = .error reason → Leaves files lost none s') s := by
  refine Prog.ensures_bind.mpr
    ((connectSocket_accounts path bare).mono (fun socket mid opened => ?_)
    fun _ _ kept _ _ => .of_accounts (Nat.zero_le _) (by rwa [List.tail_nil, beside_nil]))
  obtain ⟨fresh, accounts⟩ := opened
  refine Prog.ensures_bind.mpr
    (Prog.ensures_attempt.mpr ((receiveSegmentFd_accounts fuel accounts).mono
    (fun fd last taken => ?_) fun end_ last left => ?_))
  · obtain ⟨more, new, held⟩ := taken
    obtain ⟨apart, new⟩ := new.apart
    rw [beside_update] at held
    exact ensures_close held (beside_eq_false fresh apart) fun s' kept =>
      connectSegment_accounts new kept
  · obtain ⟨all, new, held⟩ := left
    obtain ⟨apart, new⟩ := new.apart
    have outside : socket ∉ all.tail := fun member => apart (List.mem_of_mem_tail member)
    rw [beside_update] at held
    cases end_ with
    | error reason =>
        exact (closing_accounts held (beside_eq_false fresh outside) _).mono
          (fun _ _ => False.elim) fun _ _ kept _ _ => .of_accounts new.few kept
    | panic => exact nofun
    | pending => exact nofun

/-- **Connecting holds a mapping or nothing.** Whatever the system calls answer, whatever the
listener hands over and whatever others map meanwhile, a call that returns leaves one mapping with
room for the header, or none, and the descriptors that were open before; of a delivery of two
descriptors the second is open as well. Nothing of others is unmapped. -/
theorem connected {path : Bytes} {fuel : Nat} {out : Outcome ConnectError Range} {s' : Linked}
    (bare : ∀ address purpose, s.space.owner address ≠ some (.mine purpose))
    (start : s.record = []) (run : (connect path fuel).Runs kernel s out s') :
    (∀ mapping, out = .ok mapping → sizeOfSharedHeader ≤ mapping.size ∧
        Leaves s.space.files s.space.lost (some (mapping, ())) s') ∧
      ∀ reason, out = .error reason → Leaves s.space.files s.space.lost none s' := by
  have empty : Accounts s.space.files s.space.lost [] none s :=
    ⟨⟨rfl, fun _ => Iff.rfl, fun address purpose => iff_of_false (bare address purpose) nofun⟩,
      start⟩
  have ended := (connect_accounts path fuel empty).of_runs run
  cases out with
  | ok mapping => exact ⟨fun _ same => by cases same; exact ended, nofun⟩
  | error reason => exact ⟨nofun, fun _ _ => ended reason rfl⟩
  | panic => exact ⟨nofun, nofun⟩
  | pending => exact ⟨nofun, nofun⟩

/-- Nothing is mapped, open or handed over. -/
def nothingHeld : Linked := ⟨⟨fun _ => none, fun _ => false, fun _ => False⟩, []⟩

/-- Descriptors 7 and 8 in one message. -/
def pair : List ControlMessage := [.rights [⟨7, by decide⟩, ⟨8, by decide⟩]]

/-- A segment of version 2 without entries. -/
def emptySegment : Bytes := leBytes 8 2 ++ List.replicate 264 0

/-- The loads of the segment while nobody writes to it. -/
def loading : Prog.Device Syscall Syscall.Ret Unit
  | .load load, s => some (window emptySegment load.offset load.width, s)
  | _, _ => none

theorem loading_sound (s : Linked) (op : Syscall) (before : Unit) (answer : op.Ret) (after : Unit)
    (answered : loading op before = some (answer, after)) :
    kernel op (Function.const Unit s before) answer (Function.const Unit s after) := by
  cases op with
  | load load => exact amid_alone .load
  | _ => cases answered

theorem runs_checkSegment (s : Linked) : (checkSegment 272).Runs kernel s (.ok ()) s := by
  have checked : (checkSegment 272).exec loading () = (.ok (), ()) := by decide +kernel
  exact Prog.runs_of_exec (loading_sound s) checked nofun

/-- A listener that hands two descriptors over: the first is mapped and closed, the second stays
open. -/
theorem connected_pair : ∃ s',
    Leaves (fun _ => false) (fun _ => False) (some (⟨4096, 272⟩, ())) s' ∧
      s'.space.files 7 = false ∧ s'.space.files 8 = true := by
  have fits : Fits pair := by unfold Fits; decide
  have checked (s : Linked) : (checkSegment 272).attempt.Runs kernel s
      (.ok (.ok ()) : Outcome ConnectError _) s :=
    Prog.runs_attempt.mpr (.inl ⟨(), runs_checkSegment s, rfl⟩)
  have run : (connect [47] 1).Runs kernel nothingHeld (.ok ⟨4096, 272⟩)
      (((((nothingHeld.setFile 3 true).deliver [7, 8]).setFile 3 false).put
        ⟨4096, 272⟩ (some (.mine ()))).setFile 7 false) := by
    refine ⟨.ok 3, _, amid_alone (.socket rfl), .ok (), _, amid_alone .setCloexec, .ok (), _,
      amid_alone .connect, .ok (), _, amid_alone .setTimeout, .ok ⟨Handoff.layout pair, false⟩, _,
      amid_alone (.recvmsg fits (by decide) (by decide)), ?_⟩
    show Prog.Runs kernel ((Prog.expand handoffCall
      (Handoff.conclude (Handoff.search (Handoff.layout pair)) false)).attempt.bind _) _ _ _
    rw [fits.search]
    refine ⟨(), _, amid_alone .close, ?_⟩
    refine Prog.runs_bind_ok.mpr ⟨.ok ⟨4096, 272⟩, _,
      Prog.runs_attempt.mpr (.inl ⟨_, ?_, rfl⟩), (), _, amid_alone .close, rfl, rfl⟩
    refine ⟨.ok 272, _, amid_alone .fstat, .ok 4096, _, amid_alone (.mmap fun _ _ => rfl), ?_⟩
    exact Prog.runs_bind_ok.mpr ⟨_, _, checked _, rfl, rfl⟩
  exact ⟨_, ((connected (fun _ _ owned => by cases owned) rfl run).1 _ rfl).2, rfl, rfl⟩

end Accounts

end Netsystem.Stats.Connect
