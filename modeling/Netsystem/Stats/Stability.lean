import Netsystem.Stats.Client

/-!
# Errors from the middle of a publication

What the successive attempts of `with_published_directory` see is arbitrary here (`Attempt`): two
header copies, and for each load in between the segment as it is at that moment. The closing copy
of an attempt is what a copy made after the last of its loads shows, whether the reader makes it
or not.

`run_reading` finds the call again as the first attempt that is not tried again. An attempt whose
directory does not resolve or decode ends the call before its closing copy is made, so an error of
the directory need not come from a stable snapshot (`read_unstable`). It does where every attempt
that is not stable sees a directory that decodes (`settled_iff`).
-/

namespace Netsystem.Stats

open Prog

/-! ## What the attempts see -/

/-- The words of the two header copies of one attempt, and the byte at each offset of the segment
for each of the loads in between. -/
structure Attempt : Type where
  header : HeaderCopy → HeaderWord → UInt64
  segment : (clock offset : Nat) → UInt8

namespace Attempt

variable (attempt : Attempt)

def copy (which : HeaderCopy) : SharedHeader where
  version := (attempt.header which .version).toNat
  base := (attempt.header which .base).toNat
  epoch := (attempt.header which .epoch).toNat
  inProgress := (attempt.header which .inProgress).toNat
  directoryVector := (attempt.header which .directoryVector).toNat

/-- The loads between the header copies, counted by the state. -/
def device (length : Nat) : Device Load (fun _ => Bytes) Nat := fun load clock =>
  if load.offset + load.width ≤ length then
    some ((List.range' load.offset load.width).map (attempt.segment clock), clock + 1)
  else none

/-- The closing copy shows the version and the epoch of the opening one and no write. -/
structure Stable : Prop where
  version : (attempt.copy .closing).version = (attempt.copy .opening).version
  epoch : (attempt.copy .closing).epoch = (attempt.copy .opening).epoch
  idle : (attempt.copy .closing).isWriteInProgress = false

/-- The opening copy shows a supported version and no write. -/
structure Admitted : Prop where
  version : (attempt.copy .opening).validateVersion = .ok ()
  idle : (attempt.copy .opening).isWriteInProgress = false

end Attempt

/-- The directory is resolved, and decoded. -/
def decoding {α : Type} (decode : Decoder α) (mapping : Slice) (header : SharedHeader) :
    Reader α := do
  let directory ← PublishedVector.resolve mapping header.base header.directoryVector
    sizeOfDirectoryEntry
  decode mapping header.base directory

namespace Attempt

variable {α : Type} (length : Nat) (decode : Decoder α) (attempt : Attempt)

/-- What the directory comes to as the attempt sees it. -/
def outcome : Outcome Error α :=
  ((decoding decode ⟨0, length⟩ (attempt.copy .opening)).exec (attempt.device length) 0).1

/-- How the call ends with a value decoded by the attempt, unless it tries again. -/
def closed (value : α) : Option (Outcome Error α) :=
  match (attempt.copy .closing).validateVersion with
  | .error source => some (.error (.protocol source))
  | .ok _ =>
      if (attempt.copy .closing).isWriteInProgress = false ∧
          (attempt.copy .closing).epoch = (attempt.copy .opening).epoch then
        some (.ok value)
      else none

/-- How the call ends with the attempt, unless it tries again. -/
def reading : Option (Outcome Error α) :=
  match (attempt.copy .opening).validateVersion with
  | .error source => some (.error (.protocol source))
  | .ok _ =>
      if (attempt.copy .opening).isWriteInProgress then none
      else
        match attempt.outcome length decode with
        | .ok value => attempt.closed value
        | .error reason => some (.error reason)
        | .panic => some .panic
        | .pending => some .pending

end Attempt

/-- The number of attempts begun, and of the loads that the last of them made. -/
structure Moment : Type where
  opened : Nat
  loads : Nat

/-- A mapping of `length` bytes on which one attempt after the other sees what it sees: the first
load of an opening copy begins the next. -/
def timeline (length : Nat) (seen : Nat → Attempt) : Device Load (fun _ => Bytes) Moment :=
  fun load moment =>
    match load.site with
    | .header .opening .version =>
        some (leBytes 8 ((seen moment.opened).header .opening .version).toNat,
          ⟨moment.opened + 1, 0⟩)
    | .header which word =>
        some (leBytes 8 ((seen (moment.opened - 1)).header which word).toNat, moment)
    | .data =>
        ((seen (moment.opened - 1)).device length load moment.loads).map fun answer =>
          (answer.1, ⟨moment.opened, answer.2⟩)

/-! ## One attempt -/

section Attempts

variable {α : Type} {length : Nat} {seen : Nat → Attempt} {index clock : Nat}

/-- Between its header copies an attempt is on its own. -/
theorem exec_timeline {p : Reader α} (confined : p.Performs Load.OnData) :
    p.exec (timeline length seen) ⟨index + 1, clock⟩ =
      ((p.exec ((seen index).device length) clock).1,
        ⟨index + 1, (p.exec ((seen index).device length) clock).2⟩) := by
  induction p generalizing clock with
  | done outcome => rfl
  | step load next ih =>
      obtain ⟨data, rest⟩ := confined
      have site : load.site = .data := data
      have loaded : timeline length seen load ⟨index + 1, clock⟩ =
          ((seen index).device length load clock).map fun answer =>
            (answer.1, ⟨index + 1, answer.2⟩) := by
        simp only [timeline, site, Nat.add_sub_cancel]
      rw [exec_step, exec_step, loaded]
      cases (seen index).device length load clock with
      | none => rfl
      | some answer => exact ih answer.1 (rest answer.1)

theorem leNat_word (word : UInt64) : leNat (leBytes 8 word.toNat) = word.toNat :=
  leNat_leBytes word.toNat_lt

theorem get_header (long : sizeOfSharedHeader ≤ length) :
    (⟨0, length⟩ : Slice).get 0 sizeOfSharedHeader = some ⟨0, sizeOfSharedHeader⟩ :=
  if_pos ⟨Nat.zero_le _, long⟩

theorem exec_word {which : HeaderCopy} {word : HeaderWord} {value : UInt64}
    {moment moment' : Moment}
    (answered : timeline length seen ⟨.header which word, 0 + word.offset, 8⟩ moment =
      some (leBytes 8 value.toNat, moment')) :
    (readWord which ⟨0, length⟩ word).exec (timeline length seen) moment =
      (.ok value.toNat, moment') := by
  unfold readWord
  rw [bind_eq, bind_perform, exec_step_of_answer answered, pure_eq, exec_done, leNat_word]

/-- An opening copy begins an attempt. -/
theorem exec_opening (long : sizeOfSharedHeader ≤ length) :
    (readHeader .opening ⟨0, length⟩).exec (timeline length seen) ⟨index, clock⟩ =
      (.ok ((seen index).copy .opening), ⟨index + 1, 0⟩) := by
  unfold readHeader
  simp only [get_header long, bind_eq]
  rw [exec_bind_of_ok (exec_word rfl), exec_bind_of_ok (exec_word rfl),
    exec_bind_of_ok (exec_word rfl), exec_bind_of_ok (exec_word rfl),
    exec_bind_of_ok (exec_word rfl)]
  rfl

/-- A closing copy belongs to the attempt that was begun last. -/
theorem exec_closing (long : sizeOfSharedHeader ≤ length) :
    (readHeader .closing ⟨0, length⟩).exec (timeline length seen) ⟨index + 1, clock⟩ =
      (.ok ((seen index).copy .closing), ⟨index + 1, clock⟩) := by
  unfold readHeader
  simp only [get_header long, bind_eq]
  rw [exec_bind_of_ok (exec_word rfl), exec_bind_of_ok (exec_word rfl),
    exec_bind_of_ok (exec_word rfl), exec_bind_of_ok (exec_word rfl),
    exec_bind_of_ok (exec_word rfl)]
  rfl

variable {decode : Decoder α} {operation : String}

theorem performs_decoding {mapping : Slice} (header : SharedHeader)
    (confined : ∀ base directory, (decode mapping base directory).Performs Load.OnData) :
    (decoding decode mapping header).Performs Load.OnData :=
  PublishedVector.performs_resolve.bind fun directory => confined header.base directory

/-- What follows a decoded value. -/
theorem exec_closed (long : sizeOfSharedHeader ≤ length) (value : α) (again : Reader α) :
    ((readHeader .closing ⟨0, length⟩).bind fun closing =>
      (lift closing.validateVersion).bind fun _ =>
        if closing.isWriteInProgress = false ∧
            closing.epoch = ((seen index).copy .opening).epoch then
          .done (.ok value)
        else again).exec (timeline length seen) ⟨index + 1, clock⟩ =
      match (seen index).closed value with
      | some out => (out, ⟨index + 1, clock⟩)
      | none => again.exec (timeline length seen) ⟨index + 1, clock⟩ := by
  unfold Attempt.closed
  rw [exec_bind_of_ok (exec_closing long)]
  cases ((seen index).copy .closing).validateVersion with
  | error source => rfl
  | ok done =>
      rw [lift_ok, Prog.bind_ok]
      dsimp only
      split <;> rfl

/-- One attempt ends the call with its reading, or hands over to the next. -/
theorem exec_attempt (seen : Nat → Attempt) (operation : String)
    (long : sizeOfSharedHeader ≤ length)
    (confined : ∀ base directory, (decode ⟨0, length⟩ base directory).Performs Load.OnData)
    (index clock attempts : Nat) :
    ∃ clock', (publishedAttempts ⟨0, length⟩ operation decode (attempts + 1)).exec
        (timeline length seen) ⟨index, clock⟩ =
      match (seen index).reading length decode with
      | some out => (out, ⟨index + 1, clock'⟩)
      | none => (publishedAttempts ⟨0, length⟩ operation decode attempts).exec
          (timeline length seen) ⟨index + 1, clock'⟩ := by
  rw [publishedAttempts, bind_eq, exec_bind_of_ok (exec_opening long), Attempt.reading]
  cases (seen index).copy .opening |>.validateVersion with
  | error source => exact ⟨0, rfl⟩
  | ok done =>
      rw [bind_eq, lift_ok, Prog.bind_ok]
      by_cases writing : ((seen index).copy .opening).isWriteInProgress = true
      · refine ⟨0, ?_⟩
        simp only [if_pos writing]
      · have confined := performs_decoding ((seen index).copy .opening) confined
        simp only [if_neg writing, bind_eq]
        rw [← Prog.bind_assoc, exec_bind, ← bind_eq, ← decoding, exec_timeline confined]
        refine ⟨(((decoding decode ⟨0, length⟩ ((seen index).copy .opening)).exec
          ((seen index).device length) 0).2), ?_⟩
        rw [← Attempt.outcome]
        cases (seen index).outcome length decode with
        | ok value => exact exec_closed long value _
        | error reason => rfl
        | panic => rfl
        | pending => rfl

/-- A call ends with the reading of the first attempt that has one, or exhausts its attempts. -/
theorem run_reading (long : sizeOfSharedHeader ≤ length)
    (confined : ∀ base directory, (decode ⟨0, length⟩ base directory).Performs Load.OnData)
    (attempts : Nat) {out : Outcome Error α} {moment : Moment}
    (run : (publishedAttempts ⟨0, length⟩ operation decode attempts).exec (timeline length seen)
      ⟨index, clock⟩ = (out, moment)) :
    (∃ last, index ≤ last ∧ last < index + attempts ∧
      (∀ earlier, index ≤ earlier → earlier < last →
        (seen earlier).reading length decode = none) ∧
      (seen last).reading length decode = some out ∧ moment.opened = last + 1) ∨
    ((∀ attempt, index ≤ attempt → attempt < index + attempts →
        (seen attempt).reading length decode = none) ∧
      out = .error (.retryExhausted operation RETRY_LIMIT)) := by
  induction attempts generalizing index clock with
  | zero =>
      obtain ⟨rfl, rfl⟩ := Prod.mk.inj run
      exact .inr ⟨fun attempt above below => absurd below (Nat.not_lt.mpr above), rfl⟩
  | succ attempts ih =>
      obtain ⟨clock', step⟩ := exec_attempt seen operation long confined index clock attempts
      rw [run] at step
      cases read : (seen index).reading length decode with
      | some ended =>
          rw [read] at step
          obtain ⟨rfl, rfl⟩ := Prod.mk.inj step
          refine .inl ⟨index, Nat.le_refl _, by omega, ?_, read, rfl⟩
          exact fun earlier above below => absurd below (Nat.not_lt.mpr above)
      | none =>
          rw [read] at step
          rcases ih step.symm with ⟨last, above, below, before, ended, opened⟩ | ⟨all, exhausted⟩
          · refine .inl ⟨last, by omega, by omega, ?_, ended, opened⟩
            intro earlier from_ upto
            rcases Nat.eq_or_lt_of_le from_ with rfl | later
            · exact read
            · exact before earlier later upto
          · refine .inr ⟨?_, exhausted⟩
            intro attempt from_ upto
            rcases Nat.eq_or_lt_of_le from_ with rfl | later
            · exact read
            · exact all attempt later (by omega)

end Attempts

/-! ## Errors of the directory -/

/-- The error is about what the directory holds, and not about the header. -/
def Error.OfDirectory : Error → Prop
  | .retryExhausted _ _ => False
  | .protocol source => source.OfLayout
  | _ => True

/-- The end of a call, with the last attempt that it began. -/
structure Settled {α : Type} (out : Outcome Error α) (last : Attempt) : Prop where
  /-- An error of the directory is reported from a stable snapshot. -/
  reported : ∀ reason, out = .error reason → reason.OfDirectory → last.Stable
  /-- Where an attempt is not stable, the call goes on or refuses the version. -/
  retried : ¬ last.Stable →
    (∃ operation, out = .error (.retryExhausted operation RETRY_LIMIT)) ∨
      ∃ actual, out = .error (.protocol (.versionMismatch actual STAT_SEGMENT_VERSION))

/-- In every attempt that the call comes to and that gets to its directory, a directory that is
not stable still resolves and decodes. -/
def Careful {α : Type} (length : Nat) (decode : Decoder α) (seen : Nat → Attempt) : Prop :=
  ∀ index < RETRY_LIMIT, (∀ earlier < index, (seen earlier).reading length decode = none) →
    (seen index).Admitted → ¬ (seen index).Stable →
      ∃ value, (seen index).outcome length decode = .ok value

/-- The call settles on what its attempts see of a mapping of `length` bytes. -/
def SettledCall {α : Type} (call : Slice → Reader α) (length : Nat)
    (seen : Nat → Attempt) : Prop :=
  Settled ((call ⟨0, length⟩).exec (timeline length seen) ⟨0, 0⟩).1
    (seen (((call ⟨0, length⟩).exec (timeline length seen) ⟨0, 0⟩).2.opened - 1))

section Settling

variable {α : Type} {length : Nat} {seen : Nat → Attempt} {decode : Decoder α} {attempt : Attempt}

theorem validateVersion_cases (header : SharedHeader) :
    (header.validateVersion = .ok () ∧ header.version = STAT_SEGMENT_VERSION) ∨
      header.validateVersion = .error (.versionMismatch header.version STAT_SEGMENT_VERSION) := by
  unfold SharedHeader.validateVersion
  split
  · next same => exact .inl ⟨rfl, same⟩
  · exact .inr rfl

/-- What ends a call with a decoded value: the version of the closing copy, or a stable
snapshot. -/
theorem closed_cases {value : α} {out : Outcome Error α}
    (supported : (attempt.copy .opening).version = STAT_SEGMENT_VERSION)
    (closed : attempt.closed value = some out) :
    (∃ actual, out = .error (.protocol (.versionMismatch actual STAT_SEGMENT_VERSION))) ∨
      (out = .ok value ∧ attempt.Stable) := by
  unfold Attempt.closed at closed
  rcases validateVersion_cases (attempt.copy .closing) with ⟨valid, same⟩ | refused
  · rw [valid] at closed
    dsimp only at closed
    split at closed
    · next still =>
        obtain rfl := Option.some.inj closed
        exact .inr ⟨rfl, same.trans supported.symm, still.2, still.1⟩
    · cases closed
  · rw [refused] at closed
    obtain rfl := Option.some.inj closed
    exact .inl ⟨_, rfl⟩

/-- What ends a call in an attempt: a version, a value of a stable snapshot, or a directory that
does not decode. -/
theorem reading_cases {out : Outcome Error α} (read : attempt.reading length decode = some out) :
    (∃ actual, out = .error (.protocol (.versionMismatch actual STAT_SEGMENT_VERSION))) ∨
      (∃ value, out = .ok value ∧ attempt.Stable) ∨
      (attempt.Admitted ∧ out = attempt.outcome length decode ∧ ∀ value, out ≠ .ok value) := by
  unfold Attempt.reading at read
  rcases validateVersion_cases (attempt.copy .opening) with ⟨valid, supported⟩ | refused
  · rw [valid] at read
    dsimp only at read
    split at read
    · cases read
    · next idle =>
        have admitted : attempt.Admitted := ⟨valid, Bool.eq_false_of_not_eq_true idle⟩
        cases came : attempt.outcome length decode with
        | ok value =>
            rw [came] at read
            rcases closed_cases supported read with refused | ⟨same, stable⟩
            · exact .inl refused
            · exact .inr (.inl ⟨value, same, stable⟩)
        | error reason =>
            rw [came] at read
            obtain rfl := Option.some.inj read
            exact .inr (.inr ⟨admitted, rfl, fun _ same => by cases same⟩)
        | panic =>
            rw [came] at read
            obtain rfl := Option.some.inj read
            exact .inr (.inr ⟨admitted, rfl, fun _ same => by cases same⟩)
        | pending =>
            rw [came] at read
            obtain rfl := Option.some.inj read
            exact .inr (.inr ⟨admitted, rfl, fun _ same => by cases same⟩)
  · rw [refused] at read
    obtain rfl := Option.some.inj read
    exact .inl ⟨_, rfl⟩

/-- A directory that does not decode ends the call. -/
theorem reading_of_admitted (admitted : attempt.Admitted)
    (failed : ∀ value, attempt.outcome length decode ≠ .ok value) :
    attempt.reading length decode = some (attempt.outcome length decode) := by
  unfold Attempt.reading
  rw [admitted.version]
  simp only [admitted.idle, Bool.false_eq_true, if_false]
  cases came : attempt.outcome length decode with
  | ok value => exact absurd came (failed value)
  | error reason => rfl
  | panic => rfl
  | pending => rfl

/-- What ends the decoding of an attempt is an error of the directory. -/
theorem ofDirectory_of_outcome {reason : Error}
    (faults : ∀ base directory, (decode ⟨0, length⟩ base directory).Blames Error.OfDirectory)
    (came : attempt.outcome length decode = .error reason) : reason.OfDirectory := by
  have blames : (decoding decode ⟨0, length⟩ (attempt.copy .opening)).Blames Error.OfDirectory :=
    (PublishedVector.blames_resolve fun _ fault => fault).bind fun directory =>
      faults (attempt.copy .opening).base directory
  exact blames.exec came

/-- The retry loop reports errors of the directory from stable snapshots only, and tries every
other attempt again, exactly where each attempt that is not stable sees a directory that
decodes. -/
theorem settled_iff_careful (operation : String) (long : sizeOfSharedHeader ≤ length)
    (confined : ∀ base directory, (decode ⟨0, length⟩ base directory).Performs Load.OnData)
    (faults : ∀ base directory, (decode ⟨0, length⟩ base directory).Blames Error.OfDirectory)
    {out : Outcome Error α} {moment : Moment}
    (run : (withPublishedDirectory ⟨0, length⟩ operation decode).exec (timeline length seen)
      ⟨0, 0⟩ = (out, moment)) :
    Settled out (seen (moment.opened - 1)) ↔ Careful length decode seen := by
  have ends := run_reading long confined RETRY_LIMIT run
  constructor
  · intro settled index within before admitted unstable
    by_contra undecoded
    have failed : ∀ value, (seen index).outcome length decode ≠ .ok value :=
      fun value decoded => undecoded ⟨value, decoded⟩
    have stops := reading_of_admitted admitted failed
    rcases ends with ⟨last, -, below, earlier, read, opened⟩ | ⟨all, -⟩
    · -- The first attempt that has a reading is this one.
      obtain rfl : last = index := by
        rcases Nat.lt_trichotomy last index with less | same | more
        · exact absurd (read.symm.trans (before last less)) (by simp)
        · exact same
        · exact absurd (stops.symm.trans (earlier index (Nat.zero_le _) more)) (by simp)
      obtain rfl := Option.some.inj (stops.symm.trans read)
      rw [opened, Nat.add_sub_cancel] at settled
      rcases settled.retried unstable with ⟨other, exhausted⟩ | ⟨actual, refused⟩
      · exact absurd (ofDirectory_of_outcome faults exhausted) not_false
      · exact absurd (ofDirectory_of_outcome faults refused) not_false
    · exact absurd (stops.symm.trans (all index (Nat.zero_le _) (by omega))) (by simp)
  · intro careful
    rcases ends with ⟨last, -, below, before, read, opened⟩ | ⟨-, exhausted⟩
    · rw [opened, Nat.add_sub_cancel]
      rcases reading_cases read with ⟨actual, refused⟩ | ⟨value, same, stable⟩ |
        ⟨admitted, same, failed⟩
      · refine ⟨?_, fun _ => .inr ⟨actual, refused⟩⟩
        intro reason other directory
        obtain rfl := Outcome.error.inj (refused.symm.trans other)
        exact absurd directory not_false
      · exact ⟨fun _ _ _ => stable, fun unstable => absurd stable unstable⟩
      · have stable : (seen last).Stable := by
          by_contra unstable
          obtain ⟨value, decoded⟩ := careful last (by omega)
            (fun earlier below => before earlier (Nat.zero_le _) below) admitted unstable
          exact failed value (same.trans decoded)
        exact ⟨fun _ _ _ => stable, fun unstable => absurd stable unstable⟩
    · refine ⟨?_, fun _ => .inl ⟨operation, exhausted⟩⟩
      intro reason other directory
      obtain rfl := Outcome.error.inj (exhausted.symm.trans other)
      exact absurd directory not_false

/-- `names` and `read` do so exactly where each attempt that they come to and that is not stable
sees a directory that decodes. -/
theorem settled_iff (long : sizeOfSharedHeader ≤ length) (seen : Nat → Attempt) :
    (SettledCall names length seen ↔ Careful length decodeNames seen) ∧
      ∀ name, SettledCall (read · name) length seen ↔ Careful length (decodeNamed name) seen := by
  have layout : ∀ source : ProtocolError, source.OfLayout → (Error.protocol source).OfDirectory :=
    fun _ fault => fault
  constructor
  · exact settled_iff_careful "names" long (fun _ _ => performs_decodeNames)
      (fun _ _ => Blames.collectFrom (fun _ => blames_entryName layout) 0 _) rfl
  · intro name
    refine settled_iff_careful "read" long (fun _ _ => performs_decodeNamed) ?_ rfl
    intro base directory
    refine (blames_findEntryFrom layout).bind fun found => ?_
    cases found with
    | none => exact blames_throw trivial
    | some index => exact blames_decodeEntry layout (fun _ => trivial) trivial

end Settling

/-! ## A directory with one free slot -/

/-- A directory of one entry, all zero, and a writer that has begun by the time of the closing
copy, or none. -/
def freeSlot (writing : Bool) : Attempt where
  header
    | _, .version => 2
    | _, .directoryVector => 48
    | .closing, .inProgress => if writing then 1 else 0
    | _, _ => 0
  segment _ offset := if offset = 40 then 1 else 0

/-- A directory of one entry, the scalar `a`, and a writer that has begun by the time of the
closing copy. -/
def overlapped : Attempt where
  header := (freeSlot true).header
  segment _ offset := if offset = 40 ∨ offset = 48 then 1 else if offset = 64 then 97 else 0

/-- The first attempt is overlapped, and after it the entry is gone. -/
def removed (index : Nat) : Attempt := if index = 0 then overlapped else freeSlot false

theorem careful_removed {α : Type} {decode : Decoder α} {value : α}
    (decoded : overlapped.outcome 192 decode = .ok value) : Careful 192 decode removed := by
  intro index _ _ _ unstable
  by_cases first : index = 0
  · exact ⟨value, by rwa [removed, if_pos first]⟩
  · rw [removed, if_neg first] at unstable
    exact absurd ⟨rfl, rfl, rfl⟩ unstable

/-- An overlapped attempt whose directory decodes is tried again, and the name is reported missing
from the stable snapshot of the second attempt. -/
theorem settled_removed : ¬ overlapped.Stable ∧
    ((read ⟨0, 192⟩ "a").exec (timeline 192 removed) ⟨0, 0⟩).1 = .error (.metricNotFound "a") ∧
    ((read ⟨0, 192⟩ "a").exec (timeline 192 removed) ⟨0, 0⟩).2.opened = 2 ∧
    SettledCall names 192 removed ∧ SettledCall (read · "a") 192 removed := by
  have long : sizeOfSharedHeader ≤ 192 := by decide
  have named : overlapped.outcome 192 decodeNames = .ok ["a"] := by decide +kernel
  have found : overlapped.outcome 192 (decodeNamed "a") = .ok (.scalar 0) := by decide +kernel
  have settled := settled_iff long removed
  refine ⟨fun stable => ?_, by decide +kernel, by decide +kernel,
    settled.1.mpr (careful_removed named), (settled.2 "a").mpr (careful_removed found)⟩
  have writing : (overlapped.copy .closing).isWriteInProgress = true := rfl
  exact Bool.noConfusion (writing.symm.trans stable.idle)

/-- A name is reported missing from a directory that is being written. -/
theorem read_unstable : ¬ ∀ (length : Nat) (seen : Nat → Attempt) (name : String),
    sizeOfSharedHeader ≤ length → SettledCall (read · name) length seen := by
  intro always
  have settled := always 192 (fun _ => freeSlot true) "a" (by decide)
  have missing : ((read ⟨0, 192⟩ "a").exec (timeline 192 fun _ => freeSlot true) ⟨0, 0⟩).1 =
      .error (.metricNotFound "a") := by decide +kernel
  have stable : (freeSlot true).Stable := settled.reported _ missing trivial
  have writing : ((freeSlot true).copy .closing).isWriteInProgress = true := rfl
  exact Bool.noConfusion (writing.symm.trans stable.idle)

end Netsystem.Stats
