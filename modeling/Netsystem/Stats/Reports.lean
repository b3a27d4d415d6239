import Netsystem.Expansion
import Netsystem.Stats.Layout
import Netsystem.Stats.Reader
import Netsystem.Stats.Stability

/-!
# Reports of a mapped segment

`StatsClient::report` and the `StatsReader` that a `StatsClient` is: a projection whose questions
are calls of `names` and `read` on the mapping.

On a mapping that nobody writes a report ends as over a reader with fixed answers, which is that
of the published directory where the mapping represents one (`report_of_represents`). On a mapping
that changes under the report every value that it gets was decoded in one attempt between two
header copies that agree, and later questions are answered by later attempts (`runs_report`). So a
report that asks nothing twice is one over a reader with fixed answers, all of them values of
stable attempts (`report_sampled`).
-/

namespace Netsystem.Stats

open Prog

/-! ## The client as a reader -/

/-- A load of the mapping, or `Instant::now`. -/
inductive ClientOp : Type where
  | load (load : Load)
  | now

@[reducible] def ClientOp.Ret : ClientOp → Type
  | .load _ => Bytes
  | .now => Nat

abbrev ClientCall (α : Type) : Type := Prog ClientOp ClientOp.Ret Error α

/-- A computation on the mapping, beside the clock. -/
def onMapping {α : Type} (reader : Reader α) : ClientCall α :=
  reader.expand fun load => perform (ClientOp.load load)

namespace StatsClient

/-- `impl StatsReader for StatsClient`, and the clock. -/
def method (mapping : Slice) : (query : Query) → ClientCall query.Ret
  | .names => (onMapping (names mapping)).attempt
  | .read name => (onMapping (read mapping name)).attempt
  | .now => perform ClientOp.now

/-- `StatsClient::report`, for the provider with this projection. -/
def report {α : Type} (mapping : Slice) (projection : Report α) : ClientCall α :=
  projection.expand (method mapping)

end StatsClient

/-- A mapping beside a clock. -/
def beside {σ : Type} (device : Device Load (fun _ => Bytes) σ) (clock : σ → Nat) :
    Device ClientOp ClientOp.Ret σ
  | .load load, s => device load s
  | .now, s => some (clock s, s)

/-- A result as the end of a run. -/
def ending {α : Type} : Except Error α → Outcome Error α
  | .ok value => .ok value
  | .error reason => .error reason

section Calls

variable {α σ : Type} {device : Device Load (fun _ => Bytes) σ} {clock : σ → Nat} {s s' : σ}

theorem exec_onMapping (reader : Reader α) :
    (onMapping reader).exec (beside device clock) s = reader.exec device s := by
  induction reader generalizing s with
  | done outcome => rfl
  | step load next ih =>
      have stepped : onMapping (step load next) =
          step (ClientOp.load load) fun answer => onMapping (next answer) := rfl
      rw [stepped]
      cases answered : device load s with
      | none =>
          have refused : beside device clock (.load load) s = none := answered
          rw [exec_step_of_refused refused, exec_step_of_refused answered]
      | some answer =>
          have given : beside device clock (.load load) s = some answer := answered
          rw [exec_step_of_answer given, exec_step_of_answer answered]
          exact ih answer.1

/-- A method that ends in a value or an error answers with it. -/
theorem exec_attempt_of_ending {reader : Reader α} {result : Except Error α}
    (run : reader.exec device s = (ending result, s')) :
    ((onMapping reader).attempt : ClientCall (Except Error α)).exec (beside device clock) s =
      (.ok result, s') := by
  rw [Prog.exec_attempt, exec_onMapping, run]
  cases result <;> rfl

theorem ending_of_exec_attempt {reader : Reader α} {result : Except Error α}
    (run : ((onMapping reader).attempt : ClientCall (Except Error α)).exec
      (beside device clock) s =
      (.ok result, s')) : reader.exec device s = (ending result, s') := by
  rw [Prog.exec_attempt, exec_onMapping] at run
  rcases met : reader.exec device s with ⟨outcome, mid⟩
  rw [met] at run
  cases outcome <;> cases run
  · rfl
  · rfl

/-- A call of the client ends in an answer or in a fault. -/
theorem answers_or_crashes {reader : Reader α} (confined : reader.Performs fun _ => True) :
    (∃ answer, (((onMapping reader).attempt : ClientCall (Except Error α)).exec
      (beside device clock) s).1 = .ok answer) ∨
      Crashes (beside device clock)
        ((onMapping reader).attempt : ClientCall (Except Error α)) s := by
  unfold Crashes
  rw [Prog.exec_attempt, exec_onMapping]
  have finished := confined.exec_ne_pending device s
  revert finished
  rcases reader.exec device s with ⟨outcome, mid⟩
  intro finished
  cases outcome with
  | ok value => exact .inl ⟨_, rfl⟩
  | error reason => exact .inl ⟨_, rfl⟩
  | panic => exact .inr rfl
  | pending => exact absurd rfl finished

/-- So does a method. -/
theorem method_answers_or_crashes (mapping : Slice) (query : Query) (s : σ) :
    (∃ answer, ((StatsClient.method mapping query).exec (beside device clock) s).1 = .ok answer) ∨
      Crashes (beside device clock) (StatsClient.method mapping query) s := by
  cases query with
  | names =>
      exact answers_or_crashes (performs_publishedAttempts (fun _ _ => performs_decodeNames) _)
  | read name =>
      exact answers_or_crashes (performs_publishedAttempts (fun _ _ => performs_decodeNamed) _)
  | now => exact .inl ⟨_, rfl⟩

/-- Over a reader that may answer differently at different times, a report that asks nothing twice
ends as over one with fixed answers, whose values the other may have given. -/
theorem exists_reader_of_runs {τ : Type} {handler : Handler Query Query.Ret τ} {t t' : τ}
    {projection : Report α} (once : projection.Once fun _ => False) {out : Outcome Error α}
    (run : projection.Runs handler t out t') :
    ∃ reader : StatsReader, reader.run projection = out ∧
      (∀ listing, reader.names = .ok listing → ∃ t t', handler .names t (.ok listing) t') ∧
        ∀ name value, reader.read name = .ok value →
          ∃ t t', handler (.read name) t (.ok value) t' := by
  let known : StatsReader :=
    ⟨.error (.metricNotFound ""), fun name => .error (.metricNotFound name), 0⟩
  obtain ⟨answers, _, ended, given⟩ := once.answered_of_runs known.answer run
  obtain ⟨reader, rfl⟩ := StatsReader.exists_answer_eq answers
  refine ⟨reader, ended, fun listing listed => ?_, fun name value read => ?_⟩
  · rcases given .names with unasked | ⟨s, s', answered⟩
    · cases listed.symm.trans unasked
    · rw [show reader.answer .names = .ok listing from listed] at answered
      exact ⟨s, s', answered⟩
  · rcases given (.read name) with unasked | ⟨s, s', answered⟩
    · cases read.symm.trans unasked
    · rw [show reader.answer (.read name) = .ok value from read] at answered
      exact ⟨s, s', answered⟩

end Calls

/-! ## A mapping that nobody writes -/

/-- The reader answers as the calls on the mapping end. -/
structure Mirrors (reader : StatsReader) (mapping : Bytes) : Prop where
  names : (names (whole mapping)).exec quiet mapping = (ending reader.names, mapping)
  read : ∀ name, (read (whole mapping) name).exec quiet mapping =
    (ending (reader.read name), mapping)

/-- What a name reads as, by the line that is found under it. -/
def reading (name : String) : Option (String × MetricValue) → Except Error MetricValue
  | some line => .ok line.2
  | none => .error (.metricNotFound name)

/-- The reader of a table of names and values. -/
def tableReader (table : List (String × MetricValue)) (now : Nat) : StatsReader where
  names := .ok (table.map Prod.fst)
  read name := reading name (table.find? fun line => line.1 = name)
  now := now

/-- The name of an entry and its value. -/
def Entry.line (entry : Entry) : String × MetricValue := (entry.name, entry.content.value)

/-- The reader of a published directory. -/
def directoryReader (directory : List Entry) (now : Nat) : StatsReader :=
  tableReader (directory.map Entry.line) now

/-- The entries of the directory have the names of the table, and the first of each name decodes
to its value there. -/
structure Tabled (mapping : Bytes) (table : List (String × MetricValue)) : Prop where
  ready : Ready mapping
  sound : VectorSound mapping (headerAt mapping).base (headerAt mapping).directoryVector
  length : (directoryAt mapping).length = table.length
  named : ∀ index (bound : index < table.length),
    Named mapping (directoryAt mapping) index ∧
      textAt mapping (directoryAt mapping) index = table[index].1
  decoded : ∀ index (bound : index < table.length),
    (∀ earlier (before : earlier < index), table[earlier].1 ≠ table[index].1) →
      (decodeEntry (whole mapping) (headerAt mapping).base (directoryAt mapping) table[index].1
        SYMLINK_LIMIT index).exec quiet mapping = (.ok table[index].2, mapping)

section Tables

variable {mapping : Bytes} {table : List (String × MetricValue)} {index : Nat}

theorem Tabled.exec_call {α : Type} {decode : Decoder α} {operation : String}
    (listed : Tabled mapping table) :
    (withPublishedDirectory (whole mapping) operation decode).exec quiet mapping =
      (decode (whole mapping) (headerAt mapping).base (directoryAt mapping)).exec quiet mapping :=
  exec_publishedAttempts listed.ready 15
    ((resolve_verdict mapping (headerAt mapping).base (headerAt mapping).directoryVector
      sizeOfDirectoryEntry).exec listed.sound)

theorem Tabled.exec_names (listed : Tabled mapping table) :
    (names (whole mapping)).exec quiet mapping = (.ok (table.map Prod.fst), mapping) := by
  have collected := Verdict.collect 0 (directoryAt mapping).length fun index =>
    entryName_verdict mapping index (show (directoryAt mapping).elementSize =
      sizeOfDirectoryEntry from rfl)
  have same : (List.range' 0 (directoryAt mapping).length).map
      (textAt mapping (directoryAt mapping)) = table.map Prod.fst := by
    refine List.ext_getElem (by simp [listed.length]) fun index _ bound => ?_
    rw [List.length_map] at bound
    simp only [List.getElem_map, List.getElem_range', Nat.zero_add, Nat.one_mul]
    exact (listed.named index bound).2
  rw [names, listed.exec_call, ← same]
  refine collected.exec fun index _ bound => (listed.named index ?_).1
  rwa [Nat.zero_add, listed.length] at bound

/-- A name is found in the directory where it is found in the table. -/
theorem Tabled.firstNamed (listed : Tabled mapping table) (bound : index < table.length)
    (first : ∀ earlier (before : earlier < index), table[earlier].1 ≠ table[index].1) :
    FirstNamed mapping (directoryAt mapping) table[index].1 index := by
  refine ⟨(listed.named index bound).1, (listed.named index bound).2, fun earlier before => ?_⟩
  have inside : earlier < table.length := before.trans bound
  refine ⟨(listed.named earlier inside).1, ?_⟩
  rw [(listed.named earlier inside).2]
  exact first earlier before

/-- A mapping whose directory is the table is the reader of the table. -/
theorem Tabled.mirrors (listed : Tabled mapping table) (now : Nat) :
    Mirrors (tableReader table now) mapping := by
  have size : (directoryAt mapping).elementSize = sizeOfDirectoryEntry := rfl
  refine ⟨listed.exec_names, fun name => ?_⟩
  show _ = (ending (reading name (table.find? fun line => line.1 = name)), mapping)
  rw [read, listed.exec_call]
  cases found : table.find? fun line => line.1 = name with
  | some line =>
      obtain ⟨same, index, bound, rfl, before⟩ := List.find?_eq_some_iff_getElem.mp found
      obtain rfl : table[index].1 = name := by simpa using same
      have first : ∀ earlier (inside : earlier < index), table[earlier].1 ≠ table[index].1 :=
        fun earlier inside => by simpa using before earlier inside
      have scanned := (findEntry_some_iff size).mpr (listed.firstNamed bound first)
      exact (exec_bind_of_ok scanned).trans (listed.decoded index bound first)
  | none =>
      have absent (index : Nat) (bound : index < table.length) : table[index].1 ≠ name := by
        simpa using List.find?_eq_none.mp found table[index] (List.getElem_mem bound)
      rcases findEntryFrom_cases mapping name size 0 (directoryAt mapping).length with
        ⟨other, _, named, text, _, _⟩ | ⟨_, run⟩ | ⟨bad, _, bound, invalid, _⟩
      · have bound : other < table.length := by
          rw [← listed.length]
          exact named.inside.bound
        exact absurd ((listed.named other bound).2.symm.trans text) (absent other bound)
      · exact exec_bind_of_ok run
      · rw [Nat.zero_add, listed.length] at bound
        exact absurd (listed.named bad bound).1 invalid

end Tables

section Quiet

variable {α : Type} {mapping : Bytes} {reader : StatsReader} {base now : Nat}
  {directory : List Entry}

/-- A report of the mapping ends as one over the reader that the mapping is. -/
theorem Mirrors.report (mirrors : Mirrors reader mapping) (projection : Report α) :
    (StatsClient.report (whole mapping) projection).exec
      (beside quiet fun _ => reader.now) mapping = (reader.run projection, mapping) := by
  refine exec_expand_of_answers (fun query => ?_) projection
  cases query with
  | names => exact exec_attempt_of_ending mirrors.names
  | read name => exact exec_attempt_of_ending (mirrors.read name)
  | now => rfl

/-- A represented directory whose exponents fit is the table of its entries. -/
theorem Represents.tabled (represents : Represents mapping base directory)
    (fits : ExponentsFit mapping base directory) : Tabled mapping (directory.map Entry.line) where
  ready := represents.ready
  sound := represents.sound_iff.mpr fits.1
  length := by rw [List.length_map, represents.length_eq]
  named index bound := by
    rw [List.getElem_map]
    exact represents.named (by rwa [List.length_map] at bound)
  decoded index bound first := by
    have inside : index < directory.length := by rwa [List.length_map] at bound
    obtain ⟨typed, data, _⟩ := represents.entryAt_spec inside
    have held := (represents.entries index inside).content
    have fit := fits.2 index inside fun earlier before => by
      have apart := first earlier before
      rwa [List.getElem_map, List.getElem_map] at apart
    have plain : directory[index].content.type ≠ .symlink := by
      cases directory[index].content <;> nofun
    rw [← data] at held fit
    rw [List.getElem_map, represents.based]
    refine (exec_decodeEntry_plain rfl (represents.element inside) typed plain 15).trans ?_
    rw [(decodeValue_verdict _ typed).exec ((entrySound_iff represents.addressable held).mpr fit),
      valueAt_eq held]
    rfl

/-- A represented directory whose exponents fit is read as it is. -/
theorem Represents.mirrors (represents : Represents mapping base directory)
    (fits : ExponentsFit mapping base directory) (now : Nat) :
    Mirrors (directoryReader directory now) mapping := (represents.tabled fits).mirrors now

/-- **Reports of a directory.** On a quiescent mapping that represents a directory, with exponents
that fit, a report of any family is the one over the directory itself, and the mapping is left as
it was. -/
theorem report_of_represents (represents : Represents mapping base directory)
    (fits : ExponentsFit mapping base directory) (projection : Report α) :
    (StatsClient.report (whole mapping) projection).exec (beside quiet fun _ => now) mapping =
      ((directoryReader directory now).run projection, mapping) :=
  (represents.mirrors fits now).report projection

theorem report_of_represents_sample :
    (StatsClient.report (whole sample) (readAs "counter_vector_simple" (·.simple?) "a")).exec
      (beside quiet fun _ => 7) sample = (.ok [[5, 6], []], sample) := by
  refine report_of_represents sample_represents ⟨by decide +kernel, ?_⟩ _
  rintro (_ | index) bound _
  · refine ⟨by decide +kernel, ?_⟩
    rintro (_ | _ | row) bound present
    · decide +kernel
    · exact absurd rfl present
    · exact (Nat.not_lt_of_le (Nat.le_add_left 2 row) bound).elim
  · exact (Nat.not_lt_of_le (Nat.le_add_left 1 index) bound).elim

end Quiet

/-! ## A mapping that changes -/

/-- The attempt is stable, and its directory comes to the value. -/
structure Attempt.Yields {α : Type} (length : Nat) (decode : Decoder α) (attempt : Attempt)
    (value : α) : Prop where
  admitted : attempt.Admitted
  stable : attempt.Stable
  decoded : attempt.outcome length decode = .ok value

/-- What a call may answer on a segment that changes, from `opened` attempts on: a value is that
of the directory as one stable attempt saw it, and an error of the directory is what the last
attempt made of it. -/
def Sampled {α : Type} (length : Nat) (decode : Decoder α) (seen : Nat → Attempt)
    (opened opened' : Nat) : Except Error α → Prop
  | .ok value => ∃ last, opened ≤ last ∧ last < opened + RETRY_LIMIT ∧ opened' = last + 1 ∧
      (seen last).Yields length decode value
  | .error reason => opened ≤ opened' ∧ (reason.OfDirectory →
      ∃ last, opened ≤ last ∧ last < opened + RETRY_LIMIT ∧ opened' = last + 1 ∧
        (seen last).Admitted ∧ (seen last).outcome length decode = .error reason)

/-- A `StatsReader` on a segment that changes; the state counts the attempts of its calls. -/
def sampling (length : Nat) (seen : Nat → Attempt) : Handler Query Query.Ret Nat
  | .names, opened, answer, opened' => Sampled length decodeNames seen opened opened' answer
  | .read name, opened, answer, opened' =>
      Sampled length (decodeNamed name) seen opened opened' answer
  | .now, opened, _, opened' => opened' = opened

section Changing

variable {α : Type} {length : Nat} {seen : Nat → Attempt} {decode : Decoder α} {attempt : Attempt}
  {moment moment' : Moment}

/-- A value is returned of a stable attempt, as that attempt saw the directory. -/
theorem yields_of_reading {value : α} (read : attempt.reading length decode = some (.ok value)) :
    attempt.Yields length decode value := by
  unfold Attempt.reading at read
  rcases validateVersion_cases (attempt.copy .opening) with ⟨valid, supported⟩ | refused
  · rw [valid] at read
    dsimp only at read
    split at read
    · cases read
    · next idle =>
        have admitted : attempt.Admitted := ⟨valid, Bool.eq_false_of_not_eq_true idle⟩
        cases came : attempt.outcome length decode with
        | ok other =>
            rw [came] at read
            rcases closed_cases supported read with ⟨actual, refused⟩ | ⟨same, stable⟩
            · cases refused
            · cases same
              exact ⟨admitted, stable, came⟩
        | error reason =>
            rw [came] at read
            cases read
        | panic =>
            rw [came] at read
            cases read
        | pending =>
            rw [came] at read
            cases read
  · rw [refused] at read
    cases read

/-- An error of the directory is what the attempt makes of the directory. -/
theorem failed_of_reading {reason : Error} (directory : reason.OfDirectory)
    (read : attempt.reading length decode = some (.error reason)) :
    attempt.Admitted ∧ attempt.outcome length decode = .error reason := by
  rcases reading_cases read with ⟨actual, refused⟩ | ⟨value, same, _⟩ | ⟨admitted, same, _⟩
  · cases refused
    exact absurd directory not_false
  · cases same
  · exact ⟨admitted, same.symm⟩

/-- No attempt is taken back. -/
theorem opened_le (reader : Reader α) {out : Outcome Error α}
    (run : reader.exec (timeline length seen) moment = (out, moment')) :
    moment.opened ≤ moment'.opened := by
  induction reader generalizing moment with
  | done outcome =>
      cases run
      exact Nat.le_refl _
  | step load next ih =>
      rw [exec_step] at run
      split at run
      · cases run
        exact Nat.le_refl _
      · next answer mid answered =>
          refine Nat.le_trans ?_ (ih answer run)
          unfold timeline at answered
          split at answered
          · cases answered
            exact Nat.le_succ _
          · cases answered
            exact Nat.le_refl _
          · obtain ⟨given, _, same⟩ := Option.map_eq_some_iff.mp answered
            cases same
            exact Nat.le_refl _

/-- What a call of the client answers is sampled. -/
theorem sampled_of_exec (operation : String) (long : sizeOfSharedHeader ≤ length)
    (confined : ∀ base directory, (decode ⟨0, length⟩ base directory).Performs Load.OnData)
    {result : Except Error α}
    (run : (withPublishedDirectory ⟨0, length⟩ operation decode).exec
      (timeline length seen) moment = (ending result, moment')) :
    Sampled length decode seen moment.opened moment'.opened result := by
  have later := opened_le _ run
  rcases run_reading long confined RETRY_LIMIT run with
    ⟨last, above, below, _, read, opened⟩ | ⟨_, exhausted⟩
  · cases result with
    | ok value =>
        exact ⟨last, above, below, opened, yields_of_reading read⟩
    | error reason =>
        refine ⟨later, fun directory => ?_⟩
        obtain ⟨admitted, decoded⟩ := failed_of_reading directory read
        exact ⟨last, above, below, opened, admitted, decoded⟩
  · cases result with
    | ok value => cases exhausted
    | error reason =>
        cases exhausted
        exact ⟨later, fun directory => absurd directory not_false⟩

/-- A report is a run over a reader that samples the segment, or it faults. -/
theorem runs_report (long : sizeOfSharedHeader ≤ length) (seen : Nat → Attempt)
    (clock : Moment → Nat) (projection : Report α) {out : Outcome Error α} {moment : Moment}
    (run : (StatsClient.report ⟨0, length⟩ projection).exec (beside (timeline length seen) clock)
      ⟨0, 0⟩ = (out, moment)) :
    projection.Runs (sampling length seen) 0 out moment.opened ∨ out = .panic := by
  have sound : ∀ query opened (s : Moment) answer s', s.opened = opened →
      (StatsClient.method ⟨0, length⟩ query).exec (beside (timeline length seen) clock) s =
        (.ok answer, s') →
      ∃ opened', sampling length seen query opened answer opened' ∧ s'.opened = opened' := by
    rintro query opened s answer s' rfl answered
    refine ⟨s'.opened, ?_, rfl⟩
    cases query with
    | names =>
        exact sampled_of_exec "names" long (fun _ _ => performs_decodeNames)
          (ending_of_exec_attempt answered)
    | read name =>
        exact sampled_of_exec "read" long (fun _ _ => performs_decodeNamed)
          (ending_of_exec_attempt answered)
    | now =>
        cases answered
        rfl
  rcases runs_of_exec_expand sound (method_answers_or_crashes ⟨0, length⟩) rfl run with
    ⟨opened, sampled, rfl⟩ | fault
  · exact .inl sampled
  · exact .inr fault

/-- The scalar `a` is listed, and after the first attempt its entry is freed. -/
def freed (index : Nat) : Attempt :=
  if index = 0 then { overlapped with header := (freeSlot false).header } else freeSlot false

end Changing

end Netsystem.Stats
