import Netsystem.Stats.Protocol

/-!
# What a family projection reads

`hammer-stats-client/src/reader.rs` and `provider.rs`. A projection touches the world through the
two methods of a `StatsReader` and through the monotonic clock, so its report is a program over
these three questions. A reader whose answers stay the same is a `StatsReader` here; `run` is how
a report over it ends. A report that asks no question twice ends over any other reader as it ends
over one of these (`Prog.Once.outcome_of_runs`).

The typed reads of the family modules (`read_gauge`, `read_counter` and the like) differ in the
kinds of value they accept and in the label of a mismatch only.
-/

namespace Netsystem.Stats

/-! ## Questions and answers -/

/-- `StatsReader::names`, `StatsReader::read` and `Instant::now`. -/
inductive Query : Type where
  | names
  | read (name : String)
  | now
  deriving DecidableEq, Repr

@[reducible] def Query.Ret : Query → Type
  | .names => Except Error (List String)
  | .read _ => Except Error MetricValue
  | .now => Nat

/-- A computation of a provider. -/
abbrev Report (α : Type) : Type := Prog Query Query.Ret Error α

/-- One question whose answer is turned into a value or an error. -/
def ask {α : Type} (query : Query) (accept : query.Ret → Except Error α) : Report α :=
  .step query fun answer => Prog.ofExcept (accept answer)

/-- `reader.names()?`. -/
def readerNames : Report (List String) := ask .names id

/-- `Instant::now()`. -/
def instantNow : Report Nat := ask .now .ok

/-! ## Typed reads -/

def metricTypeName : MetricValue → String
  | .scalar _ => "scalar_index"
  | .gauge _ => "gauge"
  | .simple _ => "counter_vector_simple"
  | .combined _ => "counter_vector_combined"
  | .names _ => "name_vector"
  | .histogram _ => "histogram_log2"
  | .ring _ => "ring_buffer"

/-- The value of an answer whose kind `accept` takes; another kind is a mismatch. -/
def accepted {α : Type} (expected : String) (accept : MetricValue → Option α) (name : String)
    (answer : Except Error MetricValue) : Except Error α :=
  match answer with
  | .error reason => .error reason
  | .ok value =>
      match accept value with
      | some content => .ok content
      | none => .error (.unexpectedMetricType name expected (metricTypeName value))

/-- `match reader.read(name)? { .. }` with one accepted kind of value. -/
def readAs {α : Type} (expected : String) (accept : MetricValue → Option α) (name : String) :
    Report α := ask (.read name) (accepted expected accept name)

theorem accepted_eq_ok_iff {α : Type} {expected name : String} {accept : MetricValue → Option α}
    {answer : Except Error MetricValue} {content : α} :
    accepted expected accept name answer = .ok content ↔
      ∃ value, answer = .ok value ∧ accept value = some content := by
  cases answer with
  | error reason => simp [accepted]
  | ok value =>
      cases taken : accept value with
      | none => simp [accepted, taken]
      | some other => simp [accepted, taken]

def MetricValue.simple? : MetricValue → Option (List (List UInt64))
  | .simple rows => some rows
  | _ => none

def MetricValue.names? : MetricValue → Option (List String)
  | .names listed => some listed
  | _ => none

def MetricValue.gauge? : MetricValue → Option UInt64
  | .gauge value => some value
  | _ => none

def MetricValue.scalarOrGauge? : MetricValue → Option UInt64
  | .scalar value => some value
  | .gauge value => some value
  | _ => none

@[simp] theorem MetricValue.simple?_eq_some {value : MetricValue} {rows : List (List UInt64)} :
    value.simple? = some rows ↔ value = .simple rows := by
  cases value <;> simp [simple?]

@[simp] theorem MetricValue.names?_eq_some {value : MetricValue} {listed : List String} :
    value.names? = some listed ↔ value = .names listed := by
  cases value <;> simp [names?]

@[simp] theorem MetricValue.gauge?_eq_some {value : MetricValue} {reading : UInt64} :
    value.gauge? = some reading ↔ value = .gauge reading := by
  cases value <;> simp [gauge?]

@[simp] theorem MetricValue.scalarOrGauge?_eq_some {value : MetricValue} {reading : UInt64} :
    value.scalarOrGauge? = some reading ↔ value = .scalar reading ∨ value = .gauge reading := by
  cases value <;> simp [scalarOrGauge?]

/-! ## Readers with fixed answers -/

/-- A `StatsReader` whose `read` is a function of the name, at one reading of the clock. -/
structure StatsReader : Type where
  names : Except Error (List String)
  read : String → Except Error MetricValue
  now : Nat

namespace StatsReader

variable {α β : Type} {reader : StatsReader}

def answer (reader : StatsReader) : (query : Query) → query.Ret
  | .names => reader.names
  | .read name => reader.read name
  | .now => reader.now

/-- How a report over the reader ends. -/
def run (reader : StatsReader) (report : Report α) : Outcome Error α :=
  report.outcome reader.answer

/-- Every reader with fixed answers is one of these. -/
theorem exists_answer_eq (answers : (query : Query) → query.Ret) :
    ∃ reader : StatsReader, reader.answer = answers := by
  refine ⟨⟨answers .names, fun name => answers (.read name), answers .now⟩,
    funext fun query => ?_⟩
  cases query <;> rfl

theorem run_bind {p : Report α} {f : α → Report β} :
    reader.run (p.bind f) =
      match reader.run p with
      | .ok value => reader.run (f value)
      | .error reason => .error reason
      | .panic => .panic
      | .pending => .pending := by
  simp only [run]
  rw [Prog.outcome_bind]
  cases p.outcome reader.answer <;> rfl

theorem run_ofExcept_bind {result : Except Error α} {f : α → Report β} :
    reader.run ((Prog.ofExcept result).bind f) =
      match result with
      | .ok value => reader.run (f value)
      | .error reason => .error reason := by
  cases result <;> rfl

/-- A question followed by the rest of the report. -/
theorem run_ask_bind {query : Query} {accept : query.Ret → Except Error α} {f : α → Report β} :
    reader.run ((ask query accept).bind f) =
      match accept (reader.answer query) with
      | .ok value => reader.run (f value)
      | .error reason => .error reason := run_ofExcept_bind

theorem run_ofExcept_bind_of_ok {result : Except Error α} {f : α → Report β} {value : α}
    (ended : result = .ok value) :
    reader.run ((Prog.ofExcept result).bind f) = reader.run (f value) := by
  rw [run_ofExcept_bind, ended]

theorem run_ask_bind_of_ok {query : Query} {accept : query.Ret → Except Error α}
    {f : α → Report β} {value : α} (taken : accept (reader.answer query) = .ok value) :
    reader.run ((ask query accept).bind f) = reader.run (f value) :=
  run_ofExcept_bind_of_ok taken

theorem run_readAs_bind_of_ok {expected name : String} {accept : MetricValue → Option α}
    {f : α → Report β} {value : MetricValue} {content : α} (read : reader.read name = .ok value)
    (taken : accept value = some content) :
    reader.run ((readAs expected accept name).bind f) = reader.run (f content) :=
  run_ask_bind_of_ok (accepted_eq_ok_iff.mpr ⟨value, read, taken⟩)

/-- The report ends in an error. -/
def Fails (reader : StatsReader) (report : Report α) : Prop :=
  ∃ reason, reader.run report = .error reason

/-- A checked result that is an error ends the report there. -/
theorem or_fails_ofExcept {claim : Prop} {result : Except Error α} {f : α → Report β}
    (value : ∀ value, result = .ok value → claim ∨ reader.Fails (f value)) :
    claim ∨ reader.Fails ((Prog.ofExcept result).bind f) := by
  cases ended : result with
  | error reason => exact .inr ⟨reason, run_ofExcept_bind⟩
  | ok content => exact value content ended

theorem or_fails_ask {claim : Prop} {query : Query} {accept : query.Ret → Except Error α}
    {f : α → Report β}
    (value : ∀ value, accept (reader.answer query) = .ok value → claim ∨ reader.Fails (f value)) :
    claim ∨ reader.Fails ((ask query accept).bind f) :=
  or_fails_ofExcept value

end StatsReader

section Once

variable {α β : Type} {past : Query → Prop}

theorem once_ofExcept_bind {result : Except Error α} {f : α → Report β}
    (once : ∀ value, (f value).Once past) : ((Prog.ofExcept result).bind f).Once past := by
  cases result with
  | error reason => trivial
  | ok value => exact once value

theorem once_ask_bind {query : Query} {accept : query.Ret → Except Error α} {f : α → Report β}
    (fresh : ¬ past query)
    (once : ∀ value, (f value).Once fun other => past other ∨ other = query) :
    ((ask query accept).bind f).Once past :=
  ⟨fresh, fun _ => once_ofExcept_bind once⟩

/-- A report that asks nothing twice ends over every reader as over one with fixed answers. -/
theorem exists_run_eq {report : Report α} (once : report.Once fun _ => False) {σ : Type}
    {handler : Prog.Handler Query Query.Ret σ} {s s' : σ} {out : Outcome Error α}
    (run : report.Runs handler s out s') : ∃ reader : StatsReader, reader.run report = out := by
  let known : StatsReader := ⟨.ok [], fun _ => .ok (.scalar 0), 0⟩
  obtain ⟨answers, _, ended⟩ := once.outcome_of_runs known.answer run
  obtain ⟨reader, same⟩ := StatsReader.exists_answer_eq answers
  exact ⟨reader, by rw [StatsReader.run, same, ended]⟩

end Once

end Netsystem.Stats
