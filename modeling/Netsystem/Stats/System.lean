import Netsystem.Stats.Reader

/-!
# The system projection

`hammer-stats-client/src/system.rs`: six entries, two of them per-worker rows that are checked
against the number of workers, and the rates of the main loops between two reports. The division
of a count by a time is floating point and stays a parameter here (`perSecond`).
-/

namespace Netsystem.Stats

/-! ## The report -/

/-- One process reading of the `/sys` family. -/
structure SystemStats : Type where
  workerThreadCount : UInt64
  mainLoopCounts : List UInt64
  loopRatesPerSecond : List UInt64
  heartbeat : UInt64
  boottimeUnixSeconds : UInt64
  /-- Zero (no clear baseline yet) is mapped to `none`. -/
  lastStatsClearUnixSeconds : Option UInt64
  sampledAt : Nat
  deriving DecidableEq, Repr

namespace SystemStatsProvider

def WORKER_THREADS : String := "/sys/num_worker_threads"
def MAIN_LOOP_COUNTS : String := "/sys/main_loop_count_per_worker"
def LOOP_RATES : String := "/sys/loops_per_worker"
def LAST_STATS_CLEAR : String := "/sys/last_stats_clear"
def HEARTBEAT : String := "/sys/heartbeat"
def BOOTTIME : String := "/sys/boottime"

def readU64 : (name : String) → Report UInt64 :=
  readAs "scalar_index or gauge" (·.scalarOrGauge?)

/-- The one row of a per-worker vector. -/
def singleRow (name : String) : List (List UInt64) → Except Error (List UInt64)
  | [row] => .ok row
  | rows => .error (.unexpectedRowCount name 1 rows.length)

def readRow (name : String) : Report (List UInt64) := do
  let rows ← readAs "counter_vector_simple" (·.simple?) name
  Prog.ofExcept (singleRow name rows)

/-- The loop over the per-worker vectors and their numbers of columns. -/
def checkWorkers (workerThreadCount : UInt64) : List (String × Nat) → Except Error Unit
  | [] => .ok ()
  | (name, columns) :: rest =>
      if columns ≠ workerThreadCount.toNat then
        .error (.workerCountMismatch name workerThreadCount.toNat columns)
      else checkWorkers workerThreadCount rest

/-- `SystemStatsProvider::report`. `usize::try_from` cannot fail on a 64-bit host. -/
def report : Report SystemStats := do
  let sampledAt ← instantNow
  let workerThreadCount ← readU64 WORKER_THREADS
  let mainLoopCounts ← readRow MAIN_LOOP_COUNTS
  let loopRatesPerSecond ← readRow LOOP_RATES
  let _ ← Prog.ofExcept (checkWorkers workerThreadCount
    [(MAIN_LOOP_COUNTS, mainLoopCounts.length), (LOOP_RATES, loopRatesPerSecond.length)])
  let lastStatsClear ← readU64 LAST_STATS_CLEAR
  let heartbeat ← readU64 HEARTBEAT
  let boottimeUnixSeconds ← readU64 BOOTTIME
  pure {
    workerThreadCount, mainLoopCounts, loopRatesPerSecond, heartbeat, boottimeUnixSeconds
    lastStatsClearUnixSeconds := if lastStatsClear ≠ 0 then some lastStatsClear else none
    sampledAt }

/-! ## What is read -/

/-- The reader gives the number under the name, as a scalar or as a gauge. -/
def Counted (reader : StatsReader) (name : String) (value : UInt64) : Prop :=
  reader.read name = .ok (.scalar value) ∨ reader.read name = .ok (.gauge value)

/-- The six entries as the reader gives them, the rows with one column for each worker. -/
structure Published (reader : StatsReader) (stats : SystemStats) : Prop where
  workers : Counted reader WORKER_THREADS stats.workerThreadCount
  loops : reader.read MAIN_LOOP_COUNTS = .ok (.simple [stats.mainLoopCounts])
  rates : reader.read LOOP_RATES = .ok (.simple [stats.loopRatesPerSecond])
  loopColumns : stats.mainLoopCounts.length = stats.workerThreadCount.toNat
  rateColumns : stats.loopRatesPerSecond.length = stats.workerThreadCount.toNat
  clear : Counted reader LAST_STATS_CLEAR (stats.lastStatsClearUnixSeconds.getD 0)
  baseline : stats.lastStatsClearUnixSeconds ≠ some 0
  heartbeat : Counted reader HEARTBEAT stats.heartbeat
  boottime : Counted reader BOOTTIME stats.boottimeUnixSeconds
  sampled : stats.sampledAt = reader.now

variable {reader : StatsReader}

theorem accepted_u64_iff {name : String} {value : UInt64} :
    accepted "scalar_index or gauge" (·.scalarOrGauge?) name (reader.read name) = .ok value ↔
      Counted reader name value := by
  rw [accepted_eq_ok_iff, Counted]
  constructor
  · rintro ⟨found, read, kind⟩
    rcases MetricValue.scalarOrGauge?_eq_some.mp kind with rfl | rfl
    · exact .inl read
    · exact .inr read
  · rintro (read | read)
    · exact ⟨_, read, rfl⟩
    · exact ⟨_, read, rfl⟩

theorem singleRow_eq_ok_iff {name : String} {rows : List (List UInt64)} {row : List UInt64} :
    singleRow name rows = .ok row ↔ rows = [row] := by
  unfold singleRow
  split
  · simp
  · next several =>
      refine iff_of_false nofun ?_
      rintro rfl
      exact several row rfl

theorem checkWorkers_ok_iff {workers : UInt64} {vectors : List (String × Nat)} :
    checkWorkers workers vectors = .ok () ↔ ∀ vector ∈ vectors, vector.2 = workers.toNat := by
  induction vectors with
  | nil => simp [checkWorkers]
  | cons head vectors ih =>
      obtain ⟨name, columns⟩ := head
      by_cases same : columns = workers.toNat
      · simp [checkWorkers, same, ih]
      · simp [checkWorkers, same]

theorem readRow_bind {α : Type} {name : String} {f : List UInt64 → Report α} :
    (readRow name).bind f = (readAs "counter_vector_simple" (·.simple?) name).bind fun rows =>
      (Prog.ofExcept (singleRow name rows)).bind f := Prog.bind_assoc _ _ _

theorem run_readU64 {α : Type} {name : String} {value : UInt64} {f : UInt64 → Report α}
    (counted : Counted reader name value) :
    reader.run ((readU64 name).bind f) = reader.run (f value) :=
  StatsReader.run_ask_bind_of_ok (accepted_u64_iff.mpr counted)

theorem run_readRow {α : Type} {name : String} {row : List UInt64} {f : List UInt64 → Report α}
    (read : reader.read name = .ok (.simple [row])) :
    reader.run ((readRow name).bind f) = reader.run (f row) := by
  have taken : (MetricValue.simple [row]).simple? = some [row] := rfl
  rw [readRow_bind, StatsReader.run_readAs_bind_of_ok read taken,
    StatsReader.run_ofExcept_bind_of_ok (singleRow_eq_ok_iff.mpr rfl)]

/-- A row that the report goes on with. -/
theorem or_fails_readRow {α : Type} {claim : Prop} {name : String} {f : List UInt64 → Report α}
    (row : ∀ row, reader.read name = .ok (.simple [row]) → claim ∨ reader.Fails (f row)) :
    claim ∨ reader.Fails ((readRow name).bind f) := by
  rw [readRow_bind]
  refine StatsReader.or_fails_ask fun rows taken => ?_
  refine StatsReader.or_fails_ofExcept fun found single => ?_
  obtain rfl := singleRow_eq_ok_iff.mp single
  obtain ⟨value, read, kind⟩ := accepted_eq_ok_iff.mp taken
  exact row found (MetricValue.simple?_eq_some.mp kind ▸ read)

theorem run_report_of_published {stats : SystemStats} (published : Published reader stats) :
    reader.run report = .ok stats := by
  have checked : checkWorkers stats.workerThreadCount
      [(MAIN_LOOP_COUNTS, stats.mainLoopCounts.length),
      (LOOP_RATES, stats.loopRatesPerSecond.length)] = .ok () := by
    refine checkWorkers_ok_iff.mpr ?_
    simp only [List.forall_mem_cons, List.not_mem_nil, false_implies, implies_true, and_true]
    exact ⟨published.loopColumns, published.rateColumns⟩
  have clear : (if stats.lastStatsClearUnixSeconds.getD 0 ≠ 0 then
      some (stats.lastStatsClearUnixSeconds.getD 0) else none) =
        stats.lastStatsClearUnixSeconds := by
    have baseline := published.baseline
    cases cleared : stats.lastStatsClearUnixSeconds with
    | none => rfl
    | some at_ =>
        rw [cleared] at baseline
        exact if_pos fun zero => baseline (congrArg some zero)
  simp only [report, Prog.bind_eq]
  rw [instantNow, StatsReader.run_ask_bind_of_ok rfl, run_readU64 published.workers,
    run_readRow published.loops, run_readRow published.rates,
    StatsReader.run_ofExcept_bind_of_ok checked, run_readU64 published.clear,
    run_readU64 published.heartbeat, run_readU64 published.boottime, clear]
  exact congrArg (fun now => Outcome.ok { stats with sampledAt := now }) published.sampled.symm

/-- A family that is not there, or whose rows do not fit its workers, is an error. -/
theorem published_or_fails (reader : StatsReader) :
    (∃ stats, Published reader stats) ∨ reader.Fails report := by
  simp only [report, Prog.bind_eq, instantNow, readU64, readAs]
  refine StatsReader.or_fails_ask fun sampledAt sampled => ?_
  refine StatsReader.or_fails_ask fun workers readWorkers => ?_
  refine or_fails_readRow fun loops readLoops => ?_
  refine or_fails_readRow fun rates readRates => ?_
  refine StatsReader.or_fails_ofExcept fun _ checked => ?_
  refine StatsReader.or_fails_ask fun clear readClear => ?_
  refine StatsReader.or_fails_ask fun heartbeat readHeartbeat => ?_
  refine StatsReader.or_fails_ask fun boottime readBoottime => .inl ?_
  have columns := checkWorkers_ok_iff.mp checked
  simp only [List.forall_mem_cons, List.not_mem_nil, false_implies, implies_true, and_true]
    at columns
  refine ⟨⟨workers, loops, rates, heartbeat, boottime, if clear ≠ 0 then some clear else none,
    reader.now⟩, ?_⟩
  constructor
  case workers => exact accepted_u64_iff.mp readWorkers
  case loops => exact readLoops
  case rates => exact readRates
  case loopColumns => exact columns.1
  case rateColumns => exact columns.2
  case clear =>
    have same : (if clear ≠ 0 then some clear else none).getD 0 = clear := by
      split
      · rfl
      · next zero => exact (not_not.mp zero).symm
    show Counted reader LAST_STATS_CLEAR _
    rw [same]
    exact accepted_u64_iff.mp readClear
  case baseline =>
    show (if clear ≠ 0 then some clear else none) ≠ some 0
    split
    · next baseline => exact fun same => baseline (Option.some.inj same)
    · nofun
  case heartbeat => exact accepted_u64_iff.mp readHeartbeat
  case boottime => exact accepted_u64_iff.mp readBoottime
  case sampled => rfl

/-- **The system report.** The report is there exactly where the six entries read as they should,
the rows with one column for each worker, and is then made of them; everything else is an
error. -/
theorem report_iff (reader : StatsReader) :
    (∀ stats, reader.run report = .ok stats ↔ Published reader stats) ∧
      ((∃ stats, Published reader stats) ∨ ∃ reason, reader.run report = .error reason) := by
  refine ⟨fun stats => ⟨fun run => ?_, run_report_of_published⟩, published_or_fails reader⟩
  rcases published_or_fails reader with ⟨other, published⟩ | ⟨reason, failed⟩
  · cases (run_report_of_published published).symm.trans run
    exact published
  · cases failed.symm.trans run

end SystemStatsProvider

/-! ## Rates between two reports -/

namespace SystemStats

section Rates

variable {ρ : Type}

/-- The loop over the counters of two readings. -/
def loopRates (perSecond : Nat → Nat → ρ) (elapsed : Nat) :
    List UInt64 → List UInt64 → Option (List ρ)
  | current :: counts, previous :: earlier =>
      if previous ≤ current then
        (loopRates perSecond elapsed counts earlier).map
          (perSecond (current - previous).toNat elapsed :: ·)
      else none
  | _, _ => some []

/-- `SystemStats::main_loop_rates_per_second`. -/
def mainLoopRatesPerSecond (perSecond : Nat → Nat → ρ) (stats earlier : SystemStats) :
    Option (List ρ) :=
  if stats.sampledAt < earlier.sampledAt then none
  else
    let elapsed := stats.sampledAt - earlier.sampledAt
    if elapsed = 0 ∨ stats.mainLoopCounts.length ≠ earlier.mainLoopCounts.length then none
    else loopRates perSecond elapsed stats.mainLoopCounts earlier.mainLoopCounts

/-- What passed between two readings: the time, and the loops of each worker. -/
structure Window : Type where
  elapsed : Nat
  deltas : List Nat

namespace Window

def rates (perSecond : Nat → Nat → ρ) (window : Window) : List ρ :=
  window.deltas.map fun delta => perSecond delta window.elapsed

/-- One window after the other. -/
def append (first second : Window) : Window where
  elapsed := first.elapsed + second.elapsed
  deltas := List.zipWith (· + ·) first.deltas second.deltas

/-- A window and those that follow it. -/
def total (window : Window) : List Window → Window
  | [] => window
  | next :: windows => window.append (next.total windows)

end Window

/-- Counts that grew by the deltas. -/
inductive Advanced : (earlier : List UInt64) → (deltas : List Nat) → (later : List UInt64) → Prop
  | nil : Advanced [] [] []
  | cons {count count' : UInt64} {delta : Nat} {earlier later : List UInt64} {deltas : List Nat} :
    count'.toNat = count.toNat + delta → Advanced earlier deltas later →
    Advanced (count :: earlier) (delta :: deltas) (count' :: later)

/-- The later reading is the earlier one after the window. -/
structure Spans (earlier later : SystemStats) (window : Window) : Prop where
  positive : 0 < window.elapsed
  sampled : later.sampledAt = earlier.sampledAt + window.elapsed
  counts : Advanced earlier.mainLoopCounts window.deltas later.mainLoopCounts

variable {perSecond : Nat → Nat → ρ} {earlier later : SystemStats}

theorem Advanced.length {before after : List UInt64} {deltas : List Nat}
    (advanced : Advanced before deltas after) : after.length = before.length := by
  induction advanced with
  | nil => rfl
  | cons _ _ ih => exact congrArg (· + 1) ih

theorem Advanced.trans {before between after : List UInt64} {deltas deltas' : List Nat}
    (first : Advanced before deltas between) (second : Advanced between deltas' after) :
    Advanced before (List.zipWith (· + ·) deltas deltas') after := by
  induction first generalizing deltas' after with
  | nil =>
      cases second
      exact .nil
  | cons grown _ ih =>
      cases second with
      | cons grown' second => exact .cons (by rw [grown', grown, Nat.add_assoc]) (ih second)

theorem Spans.trans {middle : SystemStats} {window window' : Window}
    (first : Spans earlier middle window) (second : Spans middle later window') :
    Spans earlier later (window.append window') where
  positive := Nat.add_pos_left first.positive _
  sampled := by rw [second.sampled, first.sampled, Nat.add_assoc]; rfl
  counts := first.counts.trans second.counts

theorem loopRates_eq_some_iff {elapsed : Nat} {after before : List UInt64}
    (same : after.length = before.length) {rates : List ρ} :
    loopRates perSecond elapsed after before = some rates ↔
      ∃ deltas, Advanced before deltas after ∧
        rates = deltas.map fun delta => perSecond delta elapsed := by
  induction after generalizing before rates with
  | nil =>
      obtain rfl := List.length_eq_zero_iff.mp same.symm
      constructor
      · rintro ⟨⟩
        exact ⟨[], .nil, rfl⟩
      · rintro ⟨deltas, ⟨⟩, rfl⟩
        rfl
  | cons current after ih =>
      obtain ⟨previous, before, rfl⟩ := List.exists_cons_of_length_eq_add_one same.symm
      have tails : after.length = before.length := Nat.succ.inj same
      rw [loopRates]
      constructor
      · intro made
        split at made
        · next grown =>
            obtain ⟨others, rest, rfl⟩ := Option.map_eq_some_iff.mp made
            obtain ⟨deltas, advanced, rfl⟩ := (ih tails).mp rest
            refine ⟨(current - previous).toNat :: deltas, .cons ?_ advanced, rfl⟩
            rw [UInt64.toNat_sub_of_le _ _ grown]
            exact (Nat.add_sub_of_le (UInt64.le_iff_toNat_le.mp grown)).symm
        · cases made
      · rintro ⟨deltas, advanced, rfl⟩
        cases advanced with
        | @cons _ _ delta _ _ deltas grown advanced =>
            have ordered : previous ≤ current := UInt64.le_iff_toNat_le.mpr (by omega)
            have delta_eq : (current - previous).toNat = delta := by
              rw [UInt64.toNat_sub_of_le _ _ ordered]
              omega
            rw [if_pos ordered, (ih tails).mpr ⟨deltas, advanced, rfl⟩, delta_eq]
            rfl

/-- Two readings can be differenced exactly where a window lies between them. -/
theorem mainLoopRatesPerSecond_eq_some_iff {rates : List ρ} :
    later.mainLoopRatesPerSecond perSecond earlier = some rates ↔
      ∃ window, Spans earlier later window ∧ rates = window.rates perSecond := by
  unfold mainLoopRatesPerSecond
  constructor
  · intro made
    split at made
    · cases made
    · next older =>
        dsimp only at made
        split at made
        · cases made
        · next apart =>
            rw [not_or, not_not] at apart
            obtain ⟨deltas, advanced, rfl⟩ := (loopRates_eq_some_iff apart.2).mp made
            exact ⟨⟨later.sampledAt - earlier.sampledAt, deltas⟩,
              ⟨Nat.pos_of_ne_zero apart.1, (Nat.add_sub_of_le (Nat.le_of_not_lt older)).symm,
                advanced⟩, rfl⟩
  · rintro ⟨⟨elapsed, deltas⟩, spans, rfl⟩
    have sampled : later.sampledAt = earlier.sampledAt + elapsed := spans.sampled
    have positive : 0 < elapsed := spans.positive
    have elapsed_eq : later.sampledAt - earlier.sampledAt = elapsed := by omega
    have counts := spans.counts
    rw [if_neg (by omega), elapsed_eq]
    dsimp only
    rw [if_neg (not_or.mpr ⟨Nat.ne_of_gt positive, not_not.mpr counts.length⟩)]
    exact (loopRates_eq_some_iff counts.length).mpr ⟨deltas, counts, rfl⟩

/-- The windows between the readings of a series. -/
inductive Series : SystemStats → List SystemStats → List Window → SystemStats → Prop
  | nil {first : SystemStats} : Series first [] [] first
  | cons {first next last : SystemStats} {samples : List SystemStats} {window : Window}
    {windows : List Window} : Spans first next window → Series next samples windows last →
    Series first (next :: samples) (window :: windows) last

theorem Series.spans {first last : SystemStats} {samples : List SystemStats} {window : Window}
    {windows : List Window} (series : Series first samples (window :: windows) last) :
    Spans first last (window.total windows) := by
  induction windows generalizing first samples window with
  | nil =>
      cases series with
      | cons spans rest =>
          cases rest
          exact spans
  | cons next windows ih =>
      cases series with
      | cons spans rest => exact spans.trans (ih rest)

/-- **Rates over a series.** Where each reading of a series can be differenced with the one before
it, the last can be differenced with the first, over the time and the loops of all the windows
between them together. -/
theorem rates_of_series (perSecond : Nat → Nat → ρ) {first next : SystemStats}
    {samples : List SystemStats}
    (chain : (first :: next :: samples).IsChain fun earlier later =>
      (later.mainLoopRatesPerSecond perSecond earlier).isSome) :
    ∃ window windows,
      Series first (next :: samples) (window :: windows) ((next :: samples).getLast nofun) ∧
      ((next :: samples).getLast nofun).mainLoopRatesPerSecond perSecond first =
        some ((window.total windows).rates perSecond) := by
  have windowed : ∃ window windows,
      Series first (next :: samples) (window :: windows) ((next :: samples).getLast nofun) := by
    induction samples generalizing first next with
    | nil =>
        obtain ⟨rates, made⟩ := Option.isSome_iff_exists.mp (List.isChain_cons_cons.mp chain).1
        obtain ⟨window, spans, _⟩ := mainLoopRatesPerSecond_eq_some_iff.mp made
        exact ⟨window, [], .cons spans .nil⟩
    | cons later samples ih =>
        obtain ⟨here, rest⟩ := List.isChain_cons_cons.mp chain
        obtain ⟨rates, made⟩ := Option.isSome_iff_exists.mp here
        obtain ⟨window, spans, _⟩ := mainLoopRatesPerSecond_eq_some_iff.mp made
        obtain ⟨second, windows, series⟩ := ih rest
        exact ⟨window, second :: windows, .cons spans series⟩
  obtain ⟨window, windows, series⟩ := windowed
  exact ⟨window, windows, series,
    mainLoopRatesPerSecond_eq_some_iff.mpr ⟨_, series.spans, rfl⟩⟩

/-- A reading of two workers, for the counts and the time. -/
def sampleAt (counts : List UInt64) (now : Nat) : SystemStats :=
  ⟨2, counts, [0, 0], 0, 0, none, now⟩

theorem rates_of_series_three : ∃ window windows,
    Series (sampleAt [1, 5] 10) [sampleAt [1, 9] 11, sampleAt [4, 9] 20] (window :: windows)
      (sampleAt [4, 9] 20) ∧
    (sampleAt [4, 9] 20).mainLoopRatesPerSecond Prod.mk (sampleAt [1, 5] 10) =
      some ((window.total windows).rates Prod.mk) :=
  rates_of_series Prod.mk (by decide)

end Rates

end SystemStats

end Netsystem.Stats
