import Mathlib.Data.List.TakeWhile
import Netsystem.Bytes
import Netsystem.Program

/-!
# The command line client

`hammerctl/src/main.rs`: the arguments, one connection, the command and a line feed on it, and the
reply up to its first NUL, printed as it arrives. The reply comes in chunks that the server and
the kernel cut as they like (`World.coming`); any read and any write may fail.

`commanded` says what a run does for every list of arguments, and `Answered` what becomes of the
reply.
-/

namespace Netsystem.Hammerctl

open Prog

/-- `OsString`, the bytes of an argument. -/
abbrev OsString : Type := Bytes

/-- The text of an `io::Error` of the system. -/
abbrev IoError : Type := String

/-- The errors of `run`, with the texts that `main` prints before it exits with 1. -/
inductive CliError : Type where
  /-- missing CLI socket path -/
  | missingSocketPath
  /-- missing command; use hammerctl [-s SOCKET] COMMAND ... -/
  | missingCommand
  /-- command is not UTF-8 -/
  | notUtf8
  /-- connect SOCKET: SOURCE -/
  | connect (socket : OsString) (source : IoError)
  /-- CLI connection closed before command completion -/
  | closed
  | io (source : IoError)
  deriving DecidableEq, Repr

/-! ## The program -/

inductive CliOp : Type where
  | println (text : String)
  | connect (socket : OsString)
  | writeAll (bytes : Bytes)
  | fillBuf
  | consume (count : Nat)
  | print (bytes : Bytes)
  | flush

@[reducible] def CliOp.Ret : CliOp → Type
  | .println _ => Except IoError Unit
  | .connect _ => Except IoError Unit
  | .writeAll _ => Except IoError Unit
  | .fillBuf => Except IoError Bytes
  | .consume _ => Unit
  | .print _ => Except IoError Unit
  | .flush => Except IoError Unit

abbrev Command (α : Type) : Type := Prog CliOp CliOp.Ret CliError α

def DEFAULT_SOCKET : OsString := toUtf8 "/run/hammer/cli.sock"

def socketFlags : List OsString := [toUtf8 "-s", toUtf8 "--socket"]

def helpFlags : List OsString := [toUtf8 "-h", toUtf8 "--help"]

/-- What the arguments ask for. -/
inductive Request : Type where
  | help
  | command (socket : OsString) (words : List OsString)
  deriving DecidableEq, Repr

/-- The loop over the arguments: options come before the command, and the command takes the
rest. -/
def request (socket : OsString) : List OsString → Except CliError Request
  | [] => .error .missingCommand
  | argument :: rest =>
      if argument ∈ socketFlags then
        match rest with
        | [] => .error .missingSocketPath
        | path :: rest => request path rest
      else if argument ∈ helpFlags then .ok .help
      else .ok (.command socket (argument :: rest))

/-- `?` on a result of the system. -/
def tried {α : Type} (answer : Except IoError α) : Command α :=
  match answer with
  | .ok value => .done (.ok value)
  | .error source => .throw (.io source)

/-- The loop of `execute`, for at most `fuel` rounds. -/
def transfer : (fuel : Nat) → Command Unit
  | 0 => .pending
  | fuel + 1 =>
      .step .fillBuf fun answer => (tried answer).bind fun available =>
        if available = [] then .throw .closed
        else
          let completed := available.idxOf? 0
          let length := completed.getD available.length
          .step (.print (available.take length)) fun printed => (tried printed).bind fun _ =>
            .step (.consume (length + if completed.isSome then 1 else 0)) fun _ =>
              if completed.isSome then pure () else transfer fuel

/-- `execute`. -/
def execute (fuel : Nat) (command : String) : Command Unit :=
  .step (.writeAll (toUtf8 command)) fun sent => (tried sent).bind fun _ =>
    .step (.writeAll [10]) fun ended => (tried ended).bind fun _ =>
      (transfer fuel).bind fun _ => .step .flush tried

/-- What follows the arguments in `run`. `println!` panics where the standard output fails. -/
def carryOut (fuel : Nat) : Request → Command Unit
  | .help =>
      .step (.println "Usage: hammerctl [-s SOCKET] [COMMAND ...]") fun printed =>
        match printed with
        | .ok _ => pure ()
        | .error _ => .panic
  | .command socket words =>
      match words.mapM fromUtf8 with
      | none => .throw .notUtf8
      | some texts =>
          .step (.connect socket) fun connected =>
            match connected with
            | .error source => .throw (.connect socket source)
            | .ok _ => execute fuel (" ".intercalate texts)

/-- `run`. -/
def run (fuel : Nat) (arguments : List OsString) : Command Unit := do
  let asked ← ofExcept (request DEFAULT_SOCKET arguments)
  carryOut fuel asked

/-! ## The world -/

/-- What the server still sends before it closes, what the reader has buffered of it, and what the
client has connected to, sent and printed. -/
structure World : Type where
  coming : Bytes
  buffer : Bytes
  connected : List OsString
  sent : Bytes
  printed : Bytes

/-- What is left of the reply. -/
def World.reply (world : World) : Bytes := world.buffer ++ world.coming

/-- The system, which may fail at any point, after it took a part of what was written. -/
inductive Handled : (op : CliOp) → World → op.Ret → World → Prop
  | println {world : World} {text : String} : Handled (.println text) world (.ok ())
      { world with printed := world.printed ++ toUtf8 text ++ [10] }
  | printlnFailed {world : World} {text : String} {source : IoError} {part : Bytes} :
    part <+: toUtf8 text ++ [10] → Handled (.println text) world (.error source)
      { world with printed := world.printed ++ part }
  | connect {world : World} {socket : OsString} : Handled (.connect socket) world (.ok ())
      { world with connected := world.connected ++ [socket], buffer := [] }
  | connectFailed {world : World} {socket : OsString} {source : IoError} :
    Handled (.connect socket) world (.error source) world
  | writeAll {world : World} {bytes : Bytes} : Handled (.writeAll bytes) world (.ok ())
      { world with sent := world.sent ++ bytes }
  | writeFailed {world : World} {bytes part : Bytes} {source : IoError} : part <+: bytes →
    Handled (.writeAll bytes) world (.error source) { world with sent := world.sent ++ part }
  | buffered {world : World} : world.buffer ≠ [] →
    Handled .fillBuf world (.ok world.buffer) world
  | read {world : World} {chunk rest : Bytes} : world.buffer = [] → world.coming = chunk ++ rest →
    (chunk = [] → rest = []) →
    Handled .fillBuf world (.ok chunk) { world with buffer := chunk, coming := rest }
  | readFailed {world : World} {source : IoError} : world.buffer = [] →
    Handled .fillBuf world (.error source) world
  | consume {world : World} {count : Nat} : Handled (.consume count) world ()
      { world with buffer := world.buffer.drop count }
  | print {world : World} {bytes : Bytes} : Handled (.print bytes) world (.ok ())
      { world with printed := world.printed ++ bytes }
  | printFailed {world : World} {bytes part : Bytes} {source : IoError} : part <+: bytes →
    Handled (.print bytes) world (.error source) { world with printed := world.printed ++ part }
  | flush {world : World} : Handled .flush world (.ok ()) world
  | flushFailed {world : World} {source : IoError} : Handled .flush world (.error source) world

/-! ## The reply -/

section Reply

variable {fuel : Nat} {world world' : World} {out : Outcome CliError Unit}

/-- How the loop ends, with `shown` printed of the reply and `left` left of it after `fuel`
rounds. -/
def Ended (fuel : Nat) (reply shown left : Bytes) : Outcome CliError Unit → Prop
  | .ok _ => reply = shown ++ 0 :: left
  | .error .closed => reply = shown ∧ left = []
  | .error (.io _) => shown <+: reply
  | .pending => shown <+: reply ∧ fuel ≤ shown.length
  | _ => False

/-- Everything up to the first NUL of the reply is printed, or a part of that. -/
def Transferred (fuel : Nat) (world : World) (out : Outcome CliError Unit)
    (world' : World) : Prop :=
  world'.sent = world.sent ∧ world'.connected = world.connected ∧
    ∃ shown, world'.printed = world.printed ++ shown ∧ 0 ∉ shown ∧
      Ended fuel world.reply shown world'.reply out

/-- A round that prints all of its buffer, before the others. -/
theorem Ended.round {available reply shown left : Bytes} (filled : available ≠ [])
    (ended : Ended fuel reply shown left out) :
    Ended (fuel + 1) (available ++ reply) (available ++ shown) left out := by
  have front (taken : shown <+: reply) : available ++ shown <+: available ++ reply :=
    (List.prefix_append_right_inj available).mpr taken
  cases out with
  | ok value => exact (congrArg (available ++ ·) ended).trans (List.append_assoc _ _ _).symm
  | error reason =>
      cases reason with
      | closed => exact ⟨congrArg (available ++ ·) ended.1, ended.2⟩
      | io source => exact front ended
      | _ => exact ended.elim
  | panic => exact ended.elim
  | pending =>
      have grown := List.length_pos_iff.mpr filled
      refine ⟨front ended.1, ?_⟩
      rw [List.length_append]
      have short := ended.2
      omega

/-- A NUL is where its position says, and nowhere before it. -/
theorem cut_at {available : Bytes} {stop : Nat} (found : available.idxOf? 0 = some stop) :
    available = available.take stop ++ 0 :: available.drop (stop + 1) ∧
      0 ∉ available.take stop := by
  obtain ⟨bound, here, before⟩ := List.idxOf?_eq_some_iff.mp found
  refine ⟨?_, fun member => ?_⟩
  · rw [← here, ← List.drop_eq_getElem_cons bound, List.take_append_drop]
  · obtain ⟨index, inside, same⟩ := List.getElem_of_mem member
    rw [List.getElem_take] at same
    exact before index (Nat.lt_of_lt_of_le inside (List.length_take_le _ _)) same

/-- A filled buffer holds the front of the reply. -/
theorem Handled.fillBuf {answer : Except IoError Bytes}
    (handled : Handled .fillBuf world answer world') :
    (∃ source, answer = .error source ∧ world' = world) ∨
      ∃ available coming, answer = .ok available ∧ world.reply = available ++ coming ∧
        (available = [] → coming = []) ∧
        world' = { world with buffer := available, coming := coming } := by
  cases handled with
  | buffered filled => exact .inr ⟨_, _, rfl, rfl, fun empty => absurd empty filled, rfl⟩
  | read empty coming closed =>
      exact .inr ⟨_, _, rfl, by rw [World.reply, empty, coming]; rfl, closed, rfl⟩
  | readFailed => exact .inl ⟨_, rfl, rfl⟩

theorem Handled.printed {bytes : Bytes} {answer : Except IoError Unit}
    (handled : Handled (.print bytes) world answer world') :
    (∃ source part, answer = .error source ∧ part <+: bytes ∧
        world' = { world with printed := world.printed ++ part }) ∨
      answer = .ok () ∧ world' = { world with printed := world.printed ++ bytes } := by
  cases handled with
  | print => exact .inr ⟨rfl, rfl⟩
  | printFailed taken => exact .inl ⟨_, _, rfl, taken, rfl⟩

/-- What is done with a filled buffer. -/
theorem runs_available {available coming : Bytes} (filled : available ≠ [])
    (run : (let completed := available.idxOf? 0
      let length := completed.getD available.length
      step (.print (available.take length)) fun printed => (tried printed).bind fun _ =>
        step (.consume (length + if completed.isSome then 1 else 0)) fun _ =>
          if completed.isSome then pure () else transfer fuel : Command Unit).Runs Handled
        { world with buffer := available, coming := coming } out world')
    (ih : ∀ {world}, (transfer fuel).Runs Handled world out world' →
      Transferred fuel world out world') (reply : world.reply = available ++ coming) :
    Transferred (fuel + 1) world out world' := by
  dsimp only at run
  obtain ⟨answer, mid, handled, run⟩ := run
  cases completed : available.idxOf? 0 with
  | some stop =>
      obtain ⟨cut, clean⟩ := cut_at completed
      rw [completed] at handled run
      rcases handled.printed with ⟨source, part, rfl, taken, rfl⟩ | ⟨rfl, rfl⟩
      · obtain ⟨rfl, rfl⟩ := run
        refine ⟨rfl, rfl, part, rfl, fun nul => clean (taken.subset nul), ?_⟩
        rw [reply]
        exact taken.trans ((List.take_prefix _ _).trans (List.prefix_append _ _))
      · obtain ⟨_, _, consumed, rfl, rfl⟩ := run
        cases consumed
        refine ⟨rfl, rfl, _, rfl, clean, ?_⟩
        rw [reply]
        show available ++ coming = available.take stop ++ 0 ::
          (available.drop (stop + 1) ++ coming)
        rw [← List.cons_append, ← List.append_assoc, ← cut]
  | none =>
      have clean : 0 ∉ available := List.idxOf?_eq_none_iff.mp completed
      rw [completed] at handled run
      rcases handled.printed with ⟨source, part, rfl, taken, rfl⟩ | ⟨rfl, rfl⟩
      · obtain ⟨rfl, rfl⟩ := run
        have front : part <+: available := taken.trans (List.take_prefix _ _)
        refine ⟨rfl, rfl, part, rfl, fun nul => clean (front.subset nul), ?_⟩
        rw [reply]
        exact front.trans (List.prefix_append _ _)
      · obtain ⟨_, _, consumed, run⟩ := run
        cases consumed
        obtain ⟨sent, connected, shown, printed, bare, ended⟩ := ih run
        refine ⟨sent, connected, available ++ shown, ?_, ?_, ?_⟩
        · rw [printed]
          show world.printed ++ available.take available.length ++ shown = _
          rw [List.take_length, List.append_assoc]
        · rw [List.mem_append, not_or]
          exact ⟨clean, bare⟩
        · have rest : available.drop (available.length + 0) ++ coming = coming := by simp
          rw [reply, ← rest]
          exact ended.round filled

theorem transferred (run : (transfer fuel).Runs Handled world out world') :
    Transferred fuel world out world' := by
  induction fuel generalizing world with
  | zero =>
      obtain ⟨rfl, rfl⟩ := run
      exact ⟨rfl, rfl, [], (List.append_nil _).symm, List.not_mem_nil, List.nil_prefix,
        Nat.le_refl _⟩
  | succ fuel ih =>
      obtain ⟨answer, mid, filled, run⟩ := run
      rcases filled.fillBuf with ⟨source, rfl, rfl⟩ | ⟨available, coming, rfl, reply, closed, rfl⟩
      · obtain ⟨rfl, rfl⟩ := run
        exact ⟨rfl, rfl, [], (List.append_nil _).symm, List.not_mem_nil, List.nil_prefix⟩
      · change Prog.Runs Handled (if available = [] then _ else _) _ _ _ at run
        split at run
        · next empty =>
            obtain ⟨rfl, rfl⟩ := run
            obtain rfl := closed empty
            subst empty
            exact ⟨rfl, rfl, [], (List.append_nil _).symm, List.not_mem_nil, reply, rfl⟩
        · next filled => exact runs_available filled run ih reply

/-- What becomes of a command on an open connection: it is sent with a line feed, and then the
reply is transferred; or a part of it is sent and nothing of the reply is printed. -/
def Answered (fuel : Nat) (command : Bytes) (world : World) (out : Outcome CliError Unit)
    (world' : World) : Prop :=
  world'.connected = world.connected ∧
    ∃ sent shown, world'.sent = world.sent ++ sent ∧ world'.printed = world.printed ++ shown ∧
      0 ∉ shown ∧ Ended fuel world.reply shown world'.reply out ∧
      (sent = command ++ [10] ∨
        sent <+: command ++ [10] ∧ shown = [] ∧ ∃ source, out = .error (.io source))

theorem Handled.written {bytes : Bytes} {answer : Except IoError Unit}
    (handled : Handled (.writeAll bytes) world answer world') :
    (∃ source part, answer = .error source ∧ part <+: bytes ∧
        world' = { world with sent := world.sent ++ part }) ∨
      answer = .ok () ∧ world' = { world with sent := world.sent ++ bytes } := by
  cases handled with
  | writeAll => exact .inr ⟨rfl, rfl⟩
  | writeFailed taken => exact .inl ⟨_, _, rfl, taken, rfl⟩

/-- A part of a command that could not be written. -/
theorem answered_of_part {command part : Bytes} {source : IoError}
    (taken : part <+: command ++ [10]) :
    Answered fuel command world (.error (.io source)) { world with sent := world.sent ++ part } :=
  ⟨rfl, part, [], rfl, (List.append_nil _).symm, List.not_mem_nil, List.nil_prefix,
    .inr ⟨taken, rfl, source, rfl⟩⟩

theorem answered {command : String} (run : (execute fuel command).Runs Handled world out world') :
    Answered fuel (toUtf8 command) world out world' := by
  obtain ⟨first, mid, handled, run⟩ := run
  rcases handled.written with ⟨source, part, rfl, taken, rfl⟩ | ⟨rfl, rfl⟩
  · obtain ⟨rfl, rfl⟩ := run
    exact answered_of_part (taken.trans (List.prefix_append _ _))
  · obtain ⟨second, mid, handled, run⟩ := run
    rcases handled.written with ⟨source, part, rfl, taken, rfl⟩ | ⟨rfl, rfl⟩
    · obtain ⟨rfl, rfl⟩ := run
      have front := (List.prefix_append_right_inj (toUtf8 command)).mpr taken
      have sent : Answered fuel (toUtf8 command) world (.error (.io source))
          { world with sent := world.sent ++ (toUtf8 command ++ part) } := answered_of_part front
      rwa [← List.append_assoc] at sent
    · have flushed : Transferred fuel
          { world with sent := world.sent ++ toUtf8 command ++ [10] } out world' := by
        have whole : ((transfer fuel).bind fun _ => step .flush tried).Runs Handled
          { world with sent := world.sent ++ toUtf8 command ++ [10] } out world' := run
        rcases runs_bind.mp whole with ⟨_, last, moved, result, left, handled, run⟩ |
          ⟨reason, moved, rfl⟩ | ⟨moved, rfl⟩ | ⟨moved, rfl⟩
        · obtain ⟨sent, connected, shown, printed, clean, ended⟩ := transferred moved
          cases handled with
          | flush =>
              obtain ⟨rfl, rfl⟩ := run
              exact ⟨sent, connected, shown, printed, clean, ended⟩
          | flushFailed =>
              obtain ⟨rfl, rfl⟩ := run
              exact ⟨sent, connected, shown, printed, clean, _, ended.symm⟩
        · exact transferred moved
        · exact transferred moved
        · exact transferred moved
      obtain ⟨sent, connected, shown, printed, clean, ended⟩ := flushed
      exact ⟨connected, _, shown, sent.trans (List.append_assoc _ _ _), printed, clean, ended,
        .inl rfl⟩

/-- **The reply.** Where no read and no write fails and the rounds suffice, the reply is printed
up to its first NUL, whatever its chunks, and nothing behind the NUL is lost; the command has
completed exactly where there is a NUL, and where there is none the connection closed too
early. -/
theorem reply_shown {command : String} (enough : world.reply.length < fuel)
    (run : (execute fuel command).Runs Handled world out world')
    (working : ∀ source, out ≠ .error (.io source)) :
    world'.sent = world.sent ++ (toUtf8 command ++ [10]) ∧
      world'.printed = world.printed ++ world.reply.takeWhile (· ≠ 0) ∧
      world'.reply = (world.reply.dropWhile (· ≠ 0)).tail ∧
      (out = .ok () ↔ 0 ∈ world.reply) ∧ (out = .error .closed ↔ 0 ∉ world.reply) := by
  obtain ⟨_, sent, shown, sentEq, printed, clean, ended, part⟩ := answered run
  have apart : ∀ byte ∈ shown, decide (byte ≠ 0) = true := fun byte member =>
    decide_eq_true fun zero => clean (zero ▸ member)
  have whole : sent = toUtf8 command ++ [10] :=
    part.resolve_right fun ⟨_, _, source, failed⟩ => working source failed
  rw [sentEq, printed, whole]
  cases out with
  | ok value =>
      have reply : world.reply = shown ++ 0 :: world'.reply := ended
      rw [reply, List.takeWhile_append_of_pos apart, List.dropWhile_append_of_pos apart]
      simp
  | error reason =>
      cases reason with
      | closed =>
          obtain ⟨reply, left⟩ : world.reply = shown ∧ world'.reply = [] := ended
          rw [reply, left, List.takeWhile_eq_self_iff.mpr apart,
            List.dropWhile_eq_nil_iff.mpr apart]
          simp [clean]
      | io source => exact absurd rfl (working source)
      | _ => exact ended.elim
  | panic => exact ended.elim
  | pending =>
      obtain ⟨front, rounds⟩ : shown <+: world.reply ∧ fuel ≤ shown.length := ended
      exact absurd (Nat.lt_of_le_of_lt front.length_le enough) (Nat.not_lt_of_le rounds)

/-- A server that answers in two chunks, and goes on. -/
def answering (connected : List OsString) : World := ⟨[111, 107, 0, 33], [], connected, [], []⟩

theorem runs_answering (command : String) (connected : List OsString) :
    (execute 5 command).Runs Handled (answering connected) (.ok ())
      ⟨[], [33], connected, toUtf8 command ++ [10], [111, 107]⟩ := by
  refine ⟨.ok (), _, .writeAll, .ok (), _, .writeAll, .ok [111],
    ⟨[107, 0, 33], [111], connected, _, []⟩, .read rfl rfl nofun, .ok (), _, .print, (), _,
    .consume, ?_⟩
  exact ⟨.ok [107, 0, 33], ⟨[], [107, 0, 33], connected, _, [111]⟩, .read rfl rfl nofun, .ok (),
    _, .print, (), _, .consume, .ok (), _, .flush, rfl, rfl⟩

theorem reply_shown_answering : (answering []).reply.takeWhile (· ≠ 0) = [111, 107] ∧
    ([33] : Bytes) = ((answering []).reply.dropWhile (· ≠ 0)).tail := by
  have shown := reply_shown (by decide) (runs_answering "show" []) nofun
  exact ⟨rfl, shown.2.2.1⟩

end Reply

/-! ## The arguments -/

section Arguments

variable {socket : OsString} {arguments tail : List OsString}

/-- Options in front of the rest of the arguments. -/
def withSettings (settings : List (OsString × OsString)) (tail : List OsString) : List OsString :=
  settings.flatMap (fun setting => [setting.1, setting.2]) ++ tail

theorem request_withSettings {settings : List (OsString × OsString)}
    (flags : ∀ setting ∈ settings, setting.1 ∈ socketFlags) :
    request socket (withSettings settings tail) =
      request ((settings.map Prod.snd).getLastD socket) tail := by
  induction settings generalizing socket with
  | nil => rfl
  | cons setting settings ih =>
      rw [List.forall_mem_cons] at flags
      have first : withSettings (setting :: settings) tail =
          setting.1 :: setting.2 :: withSettings settings tail := rfl
      rw [first, request, if_pos flags.1, ih flags.2, List.map_cons, List.getLastD_cons]

/-- The options are all pairs of a flag and a path that the arguments begin with. -/
theorem exists_settings : ∀ arguments : List OsString, ∃ settings tail,
    arguments = withSettings settings tail ∧ (∀ setting ∈ settings, setting.1 ∈ socketFlags) ∧
      ∀ flag path rest, tail = flag :: path :: rest → flag ∉ socketFlags
  | [] => ⟨[], [], rfl, nofun, nofun⟩
  | [argument] => ⟨[], [argument], rfl, nofun, nofun⟩
  | flag :: path :: rest => by
      by_cases setting : flag ∈ socketFlags
      · obtain ⟨settings, tail, rfl, flags, ended⟩ := exists_settings rest
        exact ⟨(flag, path) :: settings, tail, rfl, List.forall_mem_cons.mpr ⟨setting, flags⟩,
          ended⟩
      · refine ⟨[], flag :: path :: rest, rfl, nofun, ?_⟩
        rintro flag' path' rest' ⟨⟩
        exact setting

/-- The line that the help prints. -/
def usage : Bytes := toUtf8 "Usage: hammerctl [-s SOCKET] [COMMAND ...]" ++ [10]

/-- What a run does that has read its options: the first argument behind them decides. -/
inductive Commanded (fuel : Nat) (socket : OsString) (world : World) :
    List OsString → Outcome CliError Unit → World → Prop
  | bare : Commanded fuel socket world [] (.error .missingCommand) world
  | dangling {flag : OsString} : flag ∈ socketFlags →
    Commanded fuel socket world [flag] (.error .missingSocketPath) world
  | help {flag : OsString} {rest : List OsString} : flag ∈ helpFlags →
    Commanded fuel socket world (flag :: rest) (.ok ())
      { world with printed := world.printed ++ usage }
  | helpFailed {flag : OsString} {rest : List OsString} {part : Bytes} : flag ∈ helpFlags →
    part <+: usage → Commanded fuel socket world (flag :: rest) .panic
      { world with printed := world.printed ++ part }
  | foreign {word : OsString} {words : List OsString} : word ∉ socketFlags ++ helpFlags →
    (∃ argument ∈ word :: words, fromUtf8 argument = none) →
    Commanded fuel socket world (word :: words) (.error .notUtf8) world
  | refused {word : OsString} {words : List OsString} {source : IoError} :
    word ∉ socketFlags ++ helpFlags → (∀ argument ∈ word :: words, fromUtf8 argument ≠ none) →
    Commanded fuel socket world (word :: words) (.error (.connect socket source)) world
  | answered {word : OsString} {words : List OsString} {texts : List String}
    {out : Outcome CliError Unit} {world' : World} : word ∉ socketFlags ++ helpFlags →
    word :: words = texts.map toUtf8 →
    Answered fuel (toUtf8 (" ".intercalate texts))
      { world with connected := world.connected ++ [socket], buffer := [] } out world' →
    Commanded fuel socket world (word :: words) out world'

theorem mapM_fromUtf8_eq_some {arguments : List OsString} {texts : List String} :
    arguments.mapM fromUtf8 = some texts ↔ arguments = texts.map toUtf8 := by
  induction arguments generalizing texts with
  | nil => cases texts <;> simp
  | cons argument arguments ih =>
      rw [List.mapM_cons]
      simp only [Option.bind_eq_bind, Option.bind_eq_some_iff, ih, fromUtf8_eq_some_iff,
        Option.pure_def, Option.some.injEq]
      constructor
      · rintro ⟨text, rfl, texts, rfl, rfl⟩
        rfl
      · intro encoded
        obtain ⟨text, rest, rfl, same, others⟩ := List.map_eq_cons_iff.mp encoded.symm
        exact ⟨text, same.symm, rest, others.symm, rfl⟩

theorem mapM_fromUtf8_eq_none {arguments : List OsString} :
    arguments.mapM fromUtf8 = none ↔ ∃ argument ∈ arguments, fromUtf8 argument = none := by
  induction arguments with
  | nil => simp
  | cons argument arguments ih =>
      rw [List.mapM_cons]
      cases decoded : fromUtf8 argument with
      | none => simp [decoded]
      | some text =>
          cases rest : arguments.mapM fromUtf8 with
          | none => simp [decoded, ih.mp rest]
          | some texts =>
              have none_ := mt ih.mpr (by rw [rest]; nofun)
              simpa [decoded] using none_

variable {fuel : Nat} {world world' : World} {out : Outcome CliError Unit}

theorem commanded_of_word {word : OsString} {words : List OsString}
    (plain : word ∉ socketFlags ++ helpFlags)
    (run : (carryOut fuel (.command socket (word :: words))).Runs Handled world out world') :
    Commanded fuel socket world (word :: words) out world' := by
  unfold carryOut at run
  dsimp only at run
  cases decoded : (word :: words).mapM fromUtf8 with
  | none =>
      rw [decoded] at run
      obtain ⟨rfl, rfl⟩ := run
      exact .foreign plain (mapM_fromUtf8_eq_none.mp decoded)
  | some texts =>
      rw [decoded] at run
      obtain ⟨answer, mid, handled, run⟩ := run
      have encoded := mapM_fromUtf8_eq_some.mp decoded
      cases handled with
      | connect => exact .answered plain encoded (Hammerctl.answered run)
      | connectFailed =>
          obtain ⟨rfl, rfl⟩ := run
          refine .refused plain fun argument member undecoded => ?_
          cases decoded.symm.trans (mapM_fromUtf8_eq_none.mpr ⟨argument, member, undecoded⟩)

/-- A run that has read its options. -/
theorem commanded_of_tail
    (ended : ∀ flag path rest, tail = flag :: path :: rest → flag ∉ socketFlags)
    (run : ((ofExcept (request socket tail)).bind (carryOut fuel)).Runs Handled world
      out world') :
    Commanded fuel socket world tail out world' := by
  unfold request at run
  split at run
  · obtain ⟨rfl, rfl⟩ := run
    exact .bare
  · next argument rest =>
      by_cases setting : argument ∈ socketFlags
      · rw [if_pos setting] at run
        cases rest with
        | nil =>
            obtain ⟨rfl, rfl⟩ := run
            exact .dangling setting
        | cons path rest => exact absurd setting (ended argument path rest rfl)
      · rw [if_neg setting] at run
        by_cases help : argument ∈ helpFlags
        · rw [if_pos help] at run
          obtain ⟨answer, mid, handled, run⟩ := run
          cases handled with
          | println =>
              obtain ⟨rfl, rfl⟩ := run
              rw [List.append_assoc]
              exact .help help
          | printlnFailed taken =>
              obtain ⟨rfl, rfl⟩ := run
              exact .helpFailed help taken
        · rw [if_neg help] at run
          refine commanded_of_word ?_ run
          rw [List.mem_append, not_or]
          exact ⟨setting, help⟩

/-- **Every run of the client.** The arguments are options and what follows them. The last path of
an option is the socket; what follows is an error before anything is done, the help, or a command
that is sent whole over one connection and answered with everything up to the first NUL, however
the reply is cut. A failure leaves a part of that. -/
theorem commanded (run : (Hammerctl.run fuel arguments).Runs Handled world out world') :
    ∃ settings tail, arguments = withSettings settings tail ∧
      (∀ setting ∈ settings, setting.1 ∈ socketFlags) ∧
      Commanded fuel ((settings.map Prod.snd).getLastD DEFAULT_SOCKET) world tail out world' := by
  obtain ⟨settings, tail, rfl, flags, ended⟩ := exists_settings arguments
  rw [Hammerctl.run, bind_eq, request_withSettings flags] at run
  exact ⟨settings, tail, rfl, flags, commanded_of_tail ended run⟩

theorem commanded_answering : ∃ settings tail,
    [toUtf8 "-s", toUtf8 "/a", toUtf8 "show", toUtf8 "-h"] = withSettings settings tail ∧
      (∀ setting ∈ settings, setting.1 ∈ socketFlags) ∧
      Commanded 5 ((settings.map Prod.snd).getLastD DEFAULT_SOCKET) (answering []) tail (.ok ())
        ⟨[], [33], [toUtf8 "/a"], toUtf8 "show -h" ++ [10], [111, 107]⟩ := by
  refine commanded ?_
  have asked : request DEFAULT_SOCKET [toUtf8 "-s", toUtf8 "/a", toUtf8 "show", toUtf8 "-h"] =
      .ok (.command (toUtf8 "/a") [toUtf8 "show", toUtf8 "-h"]) := by decide +kernel
  have texts : [toUtf8 "show", toUtf8 "-h"].mapM fromUtf8 = some ["show", "-h"] :=
    mapM_fromUtf8_eq_some.mpr rfl
  rw [Hammerctl.run, asked, bind_eq]
  refine (?_ : (carryOut 5 (.command (toUtf8 "/a") [toUtf8 "show", toUtf8 "-h"])).Runs _ _ _ _)
  unfold carryOut
  dsimp only
  rw [texts]
  exact ⟨.ok (), _, .connect, runs_answering "show -h" _⟩

end Arguments

end Netsystem.Hammerctl
