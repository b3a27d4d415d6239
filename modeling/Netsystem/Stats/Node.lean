import Netsystem.Stats.Reader

/-!
# The node projection

`hammer-stats-client/src/node.rs`: the node-name vector and four counter vectors, one row per
thread and one column per graph node, read one after another and checked against each other and
against the published number of worker threads. `NodeStats::node` then indexes every row without a
further check.

The expected number of rows is the worker count plus one, by a checked addition whose overflow is
a panic. So the report of a family that passes every check of shape faults on a worker count of
`u64::MAX`, although the module says that a malformed family is an error; on every other reader
the report is as its checks promise (`NodeStatsProvider.sound_iff`).
-/

namespace Netsystem.Stats

/-! ## The report -/

/-- One of the four counters the family publishes. -/
inductive NodeCounter : Type where
  | clocks | vectors | calls | suspends
  deriving DecidableEq, Repr

/-- One node's four counters, one value per thread in thread order. -/
structure NodeUsage : Type where
  name : String
  clocks : List UInt64
  vectors : List UInt64
  calls : List UInt64
  suspends : List UInt64
  deriving DecidableEq, Repr

def NodeUsage.counter (usage : NodeUsage) : NodeCounter → List UInt64
  | .clocks => usage.clocks
  | .vectors => usage.vectors
  | .calls => usage.calls
  | .suspends => usage.suspends

/-- One reading of the whole family: row = thread, column = node slot. -/
structure NodeStats : Type where
  names : List String
  clocks : List (List UInt64)
  vectors : List (List UInt64)
  calls : List (List UInt64)
  suspends : List (List UInt64)
  sampledAt : Nat
  deriving DecidableEq, Repr

def NodeStats.threadCount (stats : NodeStats) : Nat := stats.clocks.length

def NodeStats.counter (stats : NodeStats) : NodeCounter → List (List UInt64)
  | .clocks => stats.clocks
  | .vectors => stats.vectors
  | .calls => stats.calls
  | .suspends => stats.suspends

/-- `counter.iter().map(|row| row[slot]).collect()`. -/
def column (counter : List (List UInt64)) (slot : Nat) : Report (List UInt64) :=
  match counter with
  | [] => pure []
  | row :: rest =>
      match row[slot]? with
      | none => Prog.panic
      | some value => do
          let values ← column rest slot
          pure (value :: values)

/-- `NodeStats::node`: a name that the vector carries once has a column. -/
def NodeStats.node (stats : NodeStats) (name : String) : Report (Option NodeUsage) :=
  match stats.names.zipIdx.filter (fun published => published.1 == name) with
  | [] => pure none
  | (_, slot) :: [] => do
      let clocks ← column stats.clocks slot
      let vectors ← column stats.vectors slot
      let calls ← column stats.calls slot
      let suspends ← column stats.suspends slot
      pure (some { name, clocks, vectors, calls, suspends })
  | _ :: _ :: _ => pure none

namespace NodeStatsProvider

def NAMES : String := "/sys/node/names"
def CLOCKS : String := "/sys/node/clocks"
def VECTORS : String := "/sys/node/vectors"
def CALLS : String := "/sys/node/calls"
def SUSPENDS : String := "/sys/node/suspends"
def WORKER_THREAD_COUNT : String := "/sys/num_worker_threads"

def readNodeNames : (name : String) → Report (List String) := readAs "name_vector" (·.names?)

def readCounter : (name : String) → Report (List (List UInt64)) :=
  readAs "counter_vector_simple" (·.simple?)

def readU64 : (name : String) → Report UInt64 :=
  readAs "scalar_index or gauge" (·.scalarOrGauge?)

/-- The loop over the row counts of the other counters. -/
def checkRows (rows : Nat) : List (String × List (List UInt64)) → Except Error Unit
  | [] => .ok ()
  | (name, counter) :: rest =>
      if counter.length ≠ rows then .error (.unexpectedRowCount name rows counter.length)
      else checkRows rows rest

/-- The loop over the rows of one counter, the first of which is row `row`. -/
def checkColumns (columns : Nat) (name : String) :
    (row : Nat) → List (List UInt64) → Except Error Unit
  | _, [] => .ok ()
  | row, values :: rest =>
      if values.length ≠ columns then
        .error (.unexpectedColumnCount (name ++ " row " ++ toString row) columns values.length)
      else checkColumns columns name (row + 1) rest

/-- The loop over the counters whose rows are checked. -/
def checkCounters (columns : Nat) : List (String × List (List UInt64)) → Except Error Unit
  | [] => .ok ()
  | (name, counter) :: rest => do
      checkColumns columns name 0 counter
      checkCounters columns rest

/-- `usize::try_from(count)`, which cannot fail on a 64-bit host, and `checked_add(1)`, each under
`expect`. -/
def expectedRows (workerThreadCount : UInt64) : Report Nat :=
  if workerThreadCount.toNat + 1 < 2 ^ 64 then pure (workerThreadCount.toNat + 1)
  else Prog.panic

/-- `NodeStatsProvider::report`. -/
def report : Report (Option NodeStats) := do
  let listed ← readerNames
  if NAMES ∉ listed then pure none
  else
    let sampledAt ← instantNow
    let names ← readNodeNames NAMES
    let clocks ← readCounter CLOCKS
    let vectors ← readCounter VECTORS
    let calls ← readCounter CALLS
    let suspends ← readCounter SUSPENDS
    let rows := clocks.length
    let _ ← Prog.ofExcept
      (checkRows rows [(VECTORS, vectors), (CALLS, calls), (SUSPENDS, suspends)])
    let _ ← Prog.ofExcept (checkCounters names.length
      [(CLOCKS, clocks), (VECTORS, vectors), (CALLS, calls), (SUSPENDS, suspends)])
    let workerThreadCount ← readU64 WORKER_THREAD_COUNT
    let expected ← expectedRows workerThreadCount
    if rows ≠ expected then
      Prog.throw (.workerCountMismatch CLOCKS workerThreadCount.toNat rows)
    else pure (some { names, clocks, vectors, calls, suspends, sampledAt })

/-! ## What the checks establish -/

theorem checkRows_ok_iff {rows : Nat} {counters : List (String × List (List UInt64))} :
    checkRows rows counters = .ok () ↔ ∀ counter ∈ counters, counter.2.length = rows := by
  induction counters with
  | nil => simp [checkRows]
  | cons head counters ih =>
      obtain ⟨name, counter⟩ := head
      by_cases same : counter.length = rows
      · simp [checkRows, same, ih]
      · simp [checkRows, same]

theorem checkColumns_ok_iff {columns row : Nat} {name : String} {counter : List (List UInt64)} :
    checkColumns columns name row counter = .ok () ↔
      ∀ values ∈ counter, values.length = columns := by
  induction counter generalizing row with
  | nil => simp [checkColumns]
  | cons values counter ih =>
      by_cases same : values.length = columns
      · simp [checkColumns, same, ih]
      · simp [checkColumns, same]

theorem checkCounters_ok_iff {columns : Nat} {counters : List (String × List (List UInt64))} :
    checkCounters columns counters = .ok () ↔
      ∀ counter ∈ counters, ∀ values ∈ counter.2, values.length = columns := by
  induction counters with
  | nil => simp [checkCounters]
  | cons head counters ih =>
      obtain ⟨name, counter⟩ := head
      cases checked : checkColumns columns name 0 counter with
      | error reason =>
          have ragged := mt checkColumns_ok_iff.mpr (by rw [checked]; simp)
          simp only [checkCounters, checked, List.forall_mem_cons]
          exact iff_of_false (fun same => by cases same) fun all => ragged all.1
      | ok checkedUnit =>
          have straight := checkColumns_ok_iff.mp checked
          simp only [checkCounters, checked, List.forall_mem_cons]
          exact ih.trans (and_iff_right straight).symm

/-- The directory entry of a counter. -/
def entry : NodeCounter → String
  | .clocks => CLOCKS
  | .vectors => VECTORS
  | .calls => CALLS
  | .suspends => SUSPENDS

/-- The five vectors as the reader gives them, in shapes that fit each other. -/
structure Published (reader : StatsReader) (stats : NodeStats) : Prop where
  names : reader.read NAMES = .ok (.names stats.names)
  counter : ∀ counter, reader.read (entry counter) = .ok (.simple (stats.counter counter))
  rows : ∀ counter, (stats.counter counter).length = stats.threadCount
  columns : ∀ counter, ∀ row ∈ stats.counter counter, row.length = stats.names.length
  sampled : stats.sampledAt = reader.now

/-- The reader gives `workers` as the number of worker threads. -/
def WorkerCount (reader : StatsReader) (workers : UInt64) : Prop :=
  reader.read WORKER_THREAD_COUNT = .ok (.scalar workers) ∨
    reader.read WORKER_THREAD_COUNT = .ok (.gauge workers)

variable {reader : StatsReader} {listing : List String} {stats : NodeStats} {workers : UInt64}

theorem run_readNodeNames {α : Type} {name : String} {names : List String}
    {f : List String → Report α} (read : reader.read name = .ok (.names names)) :
    reader.run ((readNodeNames name).bind f) = reader.run (f names) :=
  StatsReader.run_readAs_bind_of_ok read rfl

theorem run_readCounter {α : Type} {name : String} {rows : List (List UInt64)}
    {f : List (List UInt64) → Report α} (read : reader.read name = .ok (.simple rows)) :
    reader.run ((readCounter name).bind f) = reader.run (f rows) :=
  StatsReader.run_readAs_bind_of_ok read rfl

theorem run_readU64 {α : Type} {f : UInt64 → Report α} (counted : WorkerCount reader workers) :
    reader.run ((readU64 WORKER_THREAD_COUNT).bind f) = reader.run (f workers) := by
  cases counted with
  | inl scalar => exact StatsReader.run_readAs_bind_of_ok scalar rfl
  | inr gauge => exact StatsReader.run_readAs_bind_of_ok gauge rfl

theorem Published.checkRows_ok (published : Published reader stats) :
    checkRows stats.clocks.length
      [(VECTORS, stats.vectors), (CALLS, stats.calls), (SUSPENDS, stats.suspends)] = .ok () := by
  refine checkRows_ok_iff.mpr ?_
  simp only [List.forall_mem_cons, List.not_mem_nil, false_implies, implies_true, and_true]
  exact ⟨published.rows .vectors, published.rows .calls, published.rows .suspends⟩

theorem Published.checkCounters_ok (published : Published reader stats) :
    checkCounters stats.names.length
      [(CLOCKS, stats.clocks), (VECTORS, stats.vectors), (CALLS, stats.calls),
        (SUSPENDS, stats.suspends)] = .ok () := by
  refine checkCounters_ok_iff.mpr ?_
  simp only [List.forall_mem_cons, List.not_mem_nil, false_implies, implies_true, and_true]
  exact ⟨published.columns .clocks, published.columns .vectors, published.columns .calls,
    published.columns .suspends⟩

/-- A family whose shapes fit leaves the worker count to decide. -/
theorem run_report_of_published (listed : reader.names = .ok listing) (present : NAMES ∈ listing)
    (published : Published reader stats) (counted : WorkerCount reader workers) :
    reader.run report =
      if workers.toNat + 1 < 2 ^ 64 then
        if stats.threadCount ≠ workers.toNat + 1 then
          .error (.workerCountMismatch CLOCKS workers.toNat stats.threadCount)
        else .ok (some stats)
      else .panic := by
  have clocks : reader.read CLOCKS = .ok (.simple stats.clocks) := published.counter .clocks
  have vectors : reader.read VECTORS = .ok (.simple stats.vectors) := published.counter .vectors
  have calls : reader.read CALLS = .ok (.simple stats.calls) := published.counter .calls
  have suspends : reader.read SUSPENDS = .ok (.simple stats.suspends) :=
    published.counter .suspends
  simp only [report, Prog.bind_eq]
  rw [readerNames, StatsReader.run_ask_bind_of_ok listed, if_neg (not_not_intro present),
    instantNow, StatsReader.run_ask_bind_of_ok rfl, run_readNodeNames published.names,
    run_readCounter clocks, run_readCounter vectors, run_readCounter calls,
    run_readCounter suspends, StatsReader.run_ofExcept_bind_of_ok published.checkRows_ok,
    StatsReader.run_ofExcept_bind_of_ok published.checkCounters_ok, run_readU64 counted]
  have tail : expectedRows workers = if workers.toNat + 1 < 2 ^ 64 then
      .done (.ok (workers.toNat + 1)) else .done .panic := rfl
  rw [tail]
  split
  · rw [Prog.bind_ok, NodeStats.threadCount]
    split
    · rfl
    · rw [StatsReader.answer, ← published.sampled]
      rfl
  · rfl

/-- A family whose shapes do not fit is an error. -/
theorem published_or_fails (listed : reader.names = .ok listing) (present : NAMES ∈ listing) :
    (∃ stats workers, Published reader stats ∧ WorkerCount reader workers) ∨
      reader.Fails report := by
  simp only [report, Prog.bind_eq, readerNames, instantNow, readNodeNames, readCounter, readU64,
    readAs]
  refine StatsReader.or_fails_ask fun names listedNames => ?_
  rw [if_neg (not_not_intro (Except.ok.inj (listed.symm.trans listedNames) ▸ present))]
  refine StatsReader.or_fails_ask fun sampledAt sampled => ?_
  refine StatsReader.or_fails_ask fun nodeNames readNames => ?_
  refine StatsReader.or_fails_ask fun clocks readClocks => ?_
  refine StatsReader.or_fails_ask fun vectors readVectors => ?_
  refine StatsReader.or_fails_ask fun calls readCalls => ?_
  refine StatsReader.or_fails_ask fun suspends readSuspends => ?_
  refine StatsReader.or_fails_ofExcept fun _ rows => ?_
  refine StatsReader.or_fails_ofExcept fun _ columns => ?_
  refine StatsReader.or_fails_ask fun workers readWorkers => .inl ?_
  have read (counter : NodeCounter) {found : List (List UInt64)}
      (taken : accepted "counter_vector_simple" (·.simple?) (entry counter)
        (reader.read (entry counter)) = .ok found) :
      reader.read (entry counter) = .ok (.simple found) := by
    obtain ⟨value, answered, kind⟩ := accepted_eq_ok_iff.mp taken
    rw [answered, MetricValue.simple?_eq_some.mp kind]
  have named : reader.read NAMES = .ok (.names nodeNames) := by
    obtain ⟨value, answered, kind⟩ := accepted_eq_ok_iff.mp readNames
    rw [← MetricValue.names?_eq_some.mp kind]
    exact answered
  have counted : WorkerCount reader workers := by
    obtain ⟨value, answered, kind⟩ := accepted_eq_ok_iff.mp readWorkers
    cases MetricValue.scalarOrGauge?_eq_some.mp kind with
    | inl scalar => exact .inl (scalar ▸ answered)
    | inr gauge => exact .inr (gauge ▸ answered)
  have equal := checkRows_ok_iff.mp rows
  have straight := checkCounters_ok_iff.mp columns
  simp only [List.forall_mem_cons, List.not_mem_nil, false_implies, implies_true, and_true]
    at equal straight
  obtain ⟨vectorRows, callRows, suspendRows⟩ := equal
  obtain ⟨clockColumns, vectorColumns, callColumns, suspendColumns⟩ := straight
  refine ⟨⟨nodeNames, clocks, vectors, calls, suspends, reader.now⟩, workers, ?_, counted⟩
  constructor
  case names => exact named
  case counter =>
    intro counter
    cases counter with
    | clocks => exact read .clocks readClocks
    | vectors => exact read .vectors readVectors
    | calls => exact read .calls readCalls
    | suspends => exact read .suspends readSuspends
  case rows =>
    intro counter
    cases counter with
    | clocks => rfl
    | vectors => exact vectorRows
    | calls => exact callRows
    | suspends => exact suspendRows
  case columns =>
    intro counter
    cases counter with
    | clocks => exact clockColumns
    | vectors => exact vectorColumns
    | calls => exact callColumns
    | suspends => exact suspendColumns
  case sampled => rfl

end NodeStatsProvider

/-! ## The column of a name -/

theorem column_eq {counter : List (List UInt64)} {slot : Nat}
    (inside : ∀ row ∈ counter, slot < row.length) :
    ∃ values, column counter slot = .done (.ok values) ∧
      values.map some = counter.map fun row => row[slot]? := by
  induction counter with
  | nil => exact ⟨[], rfl, rfl⟩
  | cons row rest ih =>
      rw [List.forall_mem_cons] at inside
      obtain ⟨values, same, cells⟩ := ih inside.2
      have cell : row[slot]? = some row[slot] := List.getElem?_eq_getElem inside.1
      refine ⟨row[slot] :: values, ?_, ?_⟩
      · rw [column, cell]
        simp only [Prog.bind_eq, same, Prog.bind_ok, Prog.pure_eq]
      · rw [List.map_cons, List.map_cons, cells, cell]

theorem length_matching {names : List String} {name : String} :
    (names.zipIdx.filter fun published => published.1 == name).length = names.count name := by
  rw [← List.countP_eq_length_filter, List.count_eq_countP]
  conv_rhs => rw [← List.zipIdx_map_fst 0 names, List.countP_map]
  rfl

namespace NodeStats

variable {stats : NodeStats} {name : String}

/-- What `node` answers for a name: the column of every counter, where one slot carries the
name. -/
structure Located (stats : NodeStats) (name : String) (usage : Option NodeUsage) : Prop where
  single : usage.isSome ↔ stats.names.count name = 1
  named : ∀ found, usage = some found → found.name = name
  cells : ∀ found, usage = some found → ∀ slot : Nat, stats.names[slot]? = some name →
    ∀ counter, (found.counter counter).map some =
      (stats.counter counter).map fun row => row[slot]?

/-- Rows as long as the list of names are indexed inside their bounds. -/
theorem located (straight : ∀ counter, ∀ row ∈ stats.counter counter,
      row.length = stats.names.length) (name : String) :
    ∃ usage, stats.node name = .done (.ok usage) ∧ stats.Located name usage := by
  have counted : (stats.names.zipIdx.filter fun published => published.1 == name).length =
      stats.names.count name := length_matching
  unfold node
  split
  · next matching =>
      rw [matching] at counted
      exact ⟨none, rfl, by simp [← counted], fun _ same => (by cases same),
        fun _ same => (by cases same)⟩
  · next here slot matching =>
      rw [matching] at counted
      have only : ∀ other, stats.names[other]? = some name ↔ other = slot ∧ name = here := by
        intro other
        have member : (name, other) ∈ stats.names.zipIdx.filter (fun entry => entry.1 == name) ↔
            stats.names[other]? = some name := by
          simp [List.mem_filter, List.mem_zipIdx_iff_getElem?]
        rw [← member, matching, List.mem_singleton, Prod.mk.injEq, and_comm]
      have inside : slot < stats.names.length := by
        have here : (here, slot) ∈ stats.names.zipIdx :=
          (List.mem_filter.mp (matching ▸ List.mem_singleton_self _)).1
        exact (List.getElem?_eq_some_iff.mp (List.mem_zipIdx_iff_getElem?.mp here)).1
      have columns (counter : NodeCounter) : ∃ values,
          column (stats.counter counter) slot = .done (.ok values) ∧
            values.map some = (stats.counter counter).map fun row => row[slot]? :=
        column_eq fun row member => straight counter row member ▸ inside
      obtain ⟨clocks, clocksEq, clockCells⟩ := columns .clocks
      obtain ⟨vectors, vectorsEq, vectorCells⟩ := columns .vectors
      obtain ⟨calls, callsEq, callCells⟩ := columns .calls
      obtain ⟨suspends, suspendsEq, suspendCells⟩ := columns .suspends
      simp only [counter] at clocksEq vectorsEq callsEq suspendsEq
      refine ⟨some ⟨name, clocks, vectors, calls, suspends⟩, ?_, ?_⟩
      · simp only [Prog.bind_eq, clocksEq, vectorsEq, callsEq, suspendsEq, Prog.bind_ok,
          Prog.pure_eq]
      · constructor
        case single => simp [← counted]
        case named => exact fun found same => (Option.some.inj same) ▸ rfl
        case cells =>
          intro found same other published counter
          cases same
          rw [((only other).mp published).1]
          cases counter with
          | clocks => exact clockCells
          | vectors => exact vectorCells
          | calls => exact callCells
          | suspends => exact suspendCells
  · next first second others matching =>
      rw [matching] at counted
      exact ⟨none, rfl, by simp [← counted], fun _ same => (by cases same),
        fun _ same => (by cases same)⟩

end NodeStats

/-! ## The report as a whole -/

namespace NodeStatsProvider

variable {reader : StatsReader}

/-- No entry is read twice. -/
theorem once_report : report.Once fun _ => False := by
  simp only [report, Prog.bind_eq, readerNames, instantNow, readNodeNames, readCounter, readU64,
    readAs]
  refine once_ask_bind id fun listed => ?_
  split
  · trivial
  · refine once_ask_bind (by simp) fun _ => once_ask_bind (by simp) fun _ => ?_
    refine once_ask_bind (by decide) fun _ => once_ask_bind (by decide) fun _ => ?_
    refine once_ask_bind (by decide) fun _ => once_ask_bind (by decide) fun _ => ?_
    refine once_ofExcept_bind fun _ => once_ofExcept_bind fun _ => ?_
    refine once_ask_bind (by decide) fun workers => ?_
    unfold expectedRows
    split
    · rw [Prog.pure_eq, Prog.bind_ok]
      split <;> trivial
    · trivial

/-- A reader whose answers change can bring about no end that fixed answers do not. -/
theorem exists_reader_of_runs {σ : Type} {handler : Prog.Handler Query Query.Ret σ} {s s' : σ}
    {out : Outcome Error (Option NodeStats)} (run : report.Runs handler s out s') :
    ∃ reader : StatsReader, reader.run report = out := exists_run_eq once_report run

/-- What the family promises of a report over `reader` that ends in `out`. -/
structure Reported (reader : StatsReader) (out : Outcome Error (Option NodeStats)) : Prop where
  returned : (∃ report, out = .ok report) ∨ ∃ reason, out = .error reason
  absent : out = .ok none ↔ ∃ listing, reader.names = .ok listing ∧ NAMES ∉ listing
  rows : ∀ stats, out = .ok (some stats) → ∃ workers, WorkerCount reader workers ∧
    ∀ counter, (stats.counter counter).length = workers.toNat + 1
  columns : ∀ stats, out = .ok (some stats) →
    ∀ counter, ∀ row ∈ stats.counter counter, row.length = stats.names.length
  located : ∀ stats, out = .ok (some stats) →
    ∀ name, ∃ usage, stats.node name = .done (.ok usage) ∧ stats.Located name usage

/-- A family that passes every check of its shape stands beside a worker count of `u64::MAX`. -/
def Overflows (reader : StatsReader) : Prop :=
  ∃ listing stats, reader.names = .ok listing ∧ NAMES ∈ listing ∧ Published reader stats ∧
    WorkerCount reader (UInt64.ofNat (2 ^ 64 - 1))

theorem Reported.of_error {out : Outcome Error (Option NodeStats)} {reason : Error}
    (present : ∀ listing, reader.names = .ok listing → NAMES ∈ listing)
    (failed : out = .error reason) : Reported reader out := by
  subst failed
  constructor
  case returned => exact .inr ⟨reason, rfl⟩
  case absent =>
    constructor
    · intro same
      cases same
    · rintro ⟨listing, listed, missing⟩
      exact absurd (present listing listed) missing
  case rows => exact fun _ same => (by cases same)
  case columns => exact fun _ same => (by cases same)
  case located => exact fun _ same => (by cases same)

theorem Reported.of_absent {listing : List String} {out : Outcome Error (Option NodeStats)}
    (listed : reader.names = .ok listing) (missing : NAMES ∉ listing)
    (ended : out = .ok none) : Reported reader out := by
  subst ended
  constructor
  case returned => exact .inl ⟨none, rfl⟩
  case absent => exact iff_of_true rfl ⟨listing, listed, missing⟩
  case rows => exact fun _ same => (by cases same)
  case columns => exact fun _ same => (by cases same)
  case located => exact fun _ same => (by cases same)

theorem Reported.of_published {listing : List String} {stats : NodeStats} {workers : UInt64}
    {out : Outcome Error (Option NodeStats)} (listed : reader.names = .ok listing)
    (present : NAMES ∈ listing) (published : Published reader stats)
    (counted : WorkerCount reader workers) (threads : stats.threadCount = workers.toNat + 1)
    (ended : out = .ok (some stats)) : Reported reader out := by
  subst ended
  constructor
  case returned => exact .inl ⟨_, rfl⟩
  case absent =>
    constructor
    · intro same
      cases same
    · rintro ⟨other, otherListed, missing⟩
      cases listed.symm.trans otherListed
      exact absurd present missing
  case rows =>
    intro found same
    cases same
    exact ⟨workers, counted, fun counter => (published.rows counter).trans threads⟩
  case columns =>
    intro found same
    cases same
    exact published.columns
  case located =>
    intro found same
    cases same
    exact NodeStats.located published.columns

/-- The report keeps its promise on every reader but those whose worker count is `u64::MAX` beside
a family of fitting shapes. -/
theorem reported_iff (reader : StatsReader) :
    Reported reader (reader.run report) ↔ ¬ Overflows reader := by
  constructor
  · rintro reported ⟨listing, stats, listed, present, published, counted⟩
    have faults : reader.run report = .panic := by
      rw [run_report_of_published listed present published counted, if_neg (by decide)]
    rw [faults] at reported
    rcases reported.returned with ⟨_, same⟩ | ⟨_, same⟩ <;> cases same
  · intro bounded
    cases listed : reader.names with
    | error reason =>
        have failed : reader.run report = .error reason := by
          simp only [report, Prog.bind_eq, readerNames]
          rw [StatsReader.run_ask_bind, StatsReader.answer, listed]
          rfl
        exact .of_error (fun _ same => (by rw [listed] at same; cases same)) failed
    | ok listing =>
        by_cases present : NAMES ∈ listing
        · have always : ∀ other, reader.names = .ok other → NAMES ∈ other := by
            intro other same
            cases listed.symm.trans same
            exact present
          rcases published_or_fails listed present with
            ⟨stats, workers, published, counted⟩ | failed
          · have ended := run_report_of_published listed present published counted
            split at ended
            · split at ended
              · exact .of_error always ended
              · next threads =>
                exact .of_published listed present published counted (not_not.mp threads) ended
            · next high =>
              have full : workers = UInt64.ofNat (2 ^ 64 - 1) := by
                have bound := workers.toNat_lt
                rw [← UInt64.toNat_inj, UInt64.toNat_ofNat']
                omega
              exact absurd ⟨listing, stats, listed, present, published, full ▸ counted⟩ bounded
          · obtain ⟨reason, failed⟩ := failed
            exact .of_error always failed
        · have ended : reader.run report = .ok none := by
            simp only [report, Prog.bind_eq, readerNames]
            rw [StatsReader.run_ask_bind_of_ok listed, if_pos present]
            rfl
          exact .of_absent listed present ended

/-- One node on one thread beside a worker count of `u64::MAX`. -/
def overflowing : StatsReader where
  names := .ok [NAMES]
  read name :=
    if name = NAMES then .ok (.names ["ip4-input"])
    else if name = WORKER_THREAD_COUNT then .ok (.gauge (UInt64.ofNat (2 ^ 64 - 1)))
    else .ok (.simple [[7]])
  now := 0

/-- The family is well formed and the report faults. -/
theorem overflowing_not_reported : ¬ Reported overflowing (overflowing.run report) := by
  have faults : overflowing.run report = .panic := by decide +kernel
  intro reported
  rw [faults] at reported
  rcases reported.returned with ⟨_, same⟩ | ⟨_, same⟩ <;> cases same

end NodeStatsProvider

end Netsystem.Stats
