import Netsystem.Stats.Reports
import Netsystem.Text

/-!
# The memory projection

`hammer-stats-client/src/memory.rs`: one counter vector for each heap, a single row of seven
columns. The heaps are read one after the other in the order of the listing, a name that is listed
twice twice, and the first one that is not such a row ends the report. `runs_report` says so of
every way in which the calls may be answered; `heaps_published` is the report over answers that
stay the same, and `heaps_sampled` the one of a segment that changes.
-/

namespace Netsystem.Stats

/-! ## The report -/

/-- One memory heap as the server last sampled it. -/
structure MemoryHeapUsage : Type where
  name : String
  totalBytes : UInt64
  usedBytes : UInt64
  freeBytes : UInt64
  usedMmapBytes : UInt64
  maxAllocatedBytes : UInt64
  freeChunkCount : UInt64
  releasableBytes : UInt64
  deriving DecidableEq, Repr

structure MemoryStats : Type where
  heaps : List MemoryHeapUsage
  deriving DecidableEq, Repr

/-- `MemoryStats::heap`. -/
def MemoryStats.heap (stats : MemoryStats) (name : String) : Option MemoryHeapUsage :=
  stats.heaps.find? fun heap => heap.name == name

namespace MemoryStatsProvider

/-- `/mem/<heap>` names carry the heap; `/mem/<heap>/<alias>` names do not. -/
def isHeapEntry (name : String) : Bool :=
  match stripPrefix "/mem/" name with
  | none => false
  | some remainder => remainder ≠ "" ∧ '/' ∉ remainder.toList

/-- One 1-row, 7-column reading as its heap value. -/
def heapUsage (name heapName : String) (rows : List (List UInt64)) :
    Except Error MemoryHeapUsage :=
  match rows with
  | [columns] =>
      match columns with
      | [total, used, free, usedMmap, maxAllocated, freeChunkCount, releasable] =>
          .ok ⟨heapName, total, used, free, usedMmap, maxAllocated, freeChunkCount, releasable⟩
      | _ => .error (.unexpectedColumnCount name 7 columns.length)
  | _ => .error (.unexpectedRowCount name 1 rows.length)

def readHeap : (name : String) → Report (List (List UInt64)) :=
  readAs "counter_vector_simple" (·.simple?)

/-- The loop over the heap entries. -/
def collectHeaps : List String → (heaps : List MemoryHeapUsage) → Report (List MemoryHeapUsage)
  | [], heaps => pure heaps
  | name :: rest, heaps =>
      match stripPrefix "/mem/" name with
      | none => Prog.panic
      | some heapName => do
          let rows ← readHeap name
          let usage ← Prog.ofExcept (heapUsage name heapName rows)
          collectHeaps rest (heaps ++ [usage])

/-- `MemoryStatsProvider::report`. -/
def report : Report MemoryStats := do
  let names ← readerNames
  let heaps ← collectHeaps (names.filter isHeapEntry) []
  pure { heaps }

/-! ## Heap entries and their rows -/

/-- The directory entry of a heap. -/
def heapEntry (heap : String) : String := "/mem/" ++ heap

/-- The seven columns of a heap, in the order of the server. -/
def row (usage : MemoryHeapUsage) : List UInt64 :=
  [usage.totalBytes, usage.usedBytes, usage.freeBytes, usage.usedMmapBytes,
    usage.maxAllocatedBytes, usage.freeChunkCount, usage.releasableBytes]

theorem heapEntry_inj {left right : String} : heapEntry left = heapEntry right ↔
    left = right := by
  refine ⟨fun same => ?_, congrArg heapEntry⟩
  have texts := congrArg String.toList same
  rw [heapEntry, heapEntry, String.toList_append, String.toList_append] at texts
  exact String.toList_inj.mp (List.append_cancel_left texts)

theorem isHeapEntry_iff {name : String} :
    isHeapEntry name ↔ ∃ heap, name = heapEntry heap ∧ heap ≠ "" ∧ '/' ∉ heap.toList := by
  unfold isHeapEntry
  split
  · next unprefixed =>
      refine iff_of_false Bool.false_ne_true ?_
      rintro ⟨heap, rfl, _⟩
      cases unprefixed.symm.trans (stripPrefix_eq_some_iff.mpr rfl)
  · next remainder prefixed =>
      obtain rfl := stripPrefix_eq_some_iff.mp prefixed
      rw [decide_eq_true_iff]
      constructor
      · exact fun named => ⟨remainder, rfl, named⟩
      · rintro ⟨heap, same, named⟩
        exact heapEntry_inj.mp same ▸ named

/-- What a reading that is not one row of seven counters is reported as. -/
inductive Refused (name : String) : Except Error MetricValue → Error → Prop
  | failed {reason : Error} : Refused name (.error reason) reason
  | kind {value : MetricValue} : (∀ rows, value ≠ .simple rows) →
    Refused name (.ok value)
      (.unexpectedMetricType name "counter_vector_simple" (metricTypeName value))
  | rows {rows : List (List UInt64)} : rows.length ≠ 1 →
    Refused name (.ok (.simple rows)) (.unexpectedRowCount name 1 rows.length)
  | columns {columns : List UInt64} : columns.length ≠ 7 →
    Refused name (.ok (.simple [columns])) (.unexpectedColumnCount name 7 columns.length)

theorem heapUsage_eq_ok_iff {name heap : String} {rows : List (List UInt64)}
    {usage : MemoryHeapUsage} :
    heapUsage name heap rows = .ok usage ↔ usage.name = heap ∧ rows = [row usage] := by
  constructor
  · intro made
    unfold heapUsage at made
    split at made
    · split at made
      · cases made
        exact ⟨rfl, rfl⟩
      · cases made
    · cases made
  · rintro ⟨rfl, rfl⟩
    rfl

theorem heapUsage_eq_error_iff {name heap : String} {rows : List (List UInt64)} {reason : Error} :
    heapUsage name heap rows = .error reason ↔ Refused name (.ok (.simple rows)) reason := by
  constructor
  · intro made
    unfold heapUsage at made
    split at made
    · next columns =>
        split at made
        · cases made
        · next short =>
            cases made
            refine .columns fun seven => ?_
            match columns, seven with
            | [total, used, free, usedMmap, maxAllocated, freeChunkCount, releasable], _ =>
                exact short _ _ _ _ _ _ _ rfl
    · next several =>
        cases made
        refine .rows fun one => ?_
        obtain ⟨columns, rfl⟩ := List.length_eq_one_iff.mp one
        exact several columns rfl
  · intro refused
    cases refused with
    | kind other => exact absurd rfl (other rows)
    | rows several =>
        unfold heapUsage
        split
        · exact absurd rfl several
        · rfl
    | columns short =>
        unfold heapUsage
        dsimp only
        split
        · exact absurd rfl short
        · rfl

/-- The two checks of a reading, one after the other. -/
def readUsage (heap : String) (answer : Except Error MetricValue) :
    Except Error MemoryHeapUsage :=
  (accepted "counter_vector_simple" (·.simple?) (heapEntry heap) answer).bind
    (heapUsage (heapEntry heap) heap)

theorem readUsage_eq_ok_iff {heap : String} {answer : Except Error MetricValue}
    {usage : MemoryHeapUsage} :
    readUsage heap answer = .ok usage ↔ usage.name = heap ∧
      answer = .ok (.simple [row usage]) := by
  constructor
  · intro made
    cases taken : accepted "counter_vector_simple" (·.simple?) (heapEntry heap) answer with
    | error reason =>
        rw [readUsage, taken] at made
        cases made
    | ok rows =>
        rw [readUsage, taken] at made
        obtain ⟨named, rfl⟩ := heapUsage_eq_ok_iff.mp made
        obtain ⟨value, answered, kind⟩ := accepted_eq_ok_iff.mp taken
        exact ⟨named, by rw [answered, MetricValue.simple?_eq_some.mp kind]⟩
  · rintro ⟨rfl, rfl⟩
    rfl

theorem readUsage_eq_error_iff {heap : String} {answer : Except Error MetricValue}
    {reason : Error} :
    readUsage heap answer = .error reason ↔ Refused (heapEntry heap) answer reason := by
  rcases answer with failure | value
  · constructor
    · rintro ⟨⟩
      exact .failed
    · rintro ⟨⟩
      rfl
  · cases value with
    | simple rows => exact heapUsage_eq_error_iff
    | _ =>
        constructor
        · rintro ⟨⟩
          exact .kind nofun
        · rintro ⟨⟩
          rfl

/-! ## Runs of the report -/

section Runs

variable {σ : Type} {handler : Prog.Handler Query Query.Ret σ}

/-- The heaps of the entries, each read when its turn comes, up to the first that is refused. -/
inductive Read (handler : Prog.Handler Query Query.Ret σ) :
    σ → List String → Except Error (List MemoryHeapUsage) → σ → Prop
  | nil {s : σ} : Read handler s [] (.ok []) s
  | refused {s s' : σ} {name : String} {rest : List String} {answer : Except Error MetricValue}
    {reason : Error} : handler (.read name) s answer s' → Refused name answer reason →
    Read handler s (name :: rest) (.error reason) s'
  | heap {s mid s' : σ} {name : String} {usage : MemoryHeapUsage} {rest : List String}
    {result : Except Error (List MemoryHeapUsage)} : name = heapEntry usage.name →
    handler (.read name) s (.ok (.simple [row usage])) mid → Read handler mid rest result s' →
    Read handler s (name :: rest) (result.map (usage :: ·)) s'

/-- One heap entry of the loop. -/
theorem collectHeaps_cons (heap : String) (rest : List String) (heaps : List MemoryHeapUsage) :
    collectHeaps (heapEntry heap :: rest) heaps =
      .step (.read (heapEntry heap)) fun answer =>
        (Prog.ofExcept (readUsage heap answer)).bind fun usage =>
          collectHeaps rest (heaps ++ [usage]) := by
  have prefixed : stripPrefix "/mem/" (heapEntry heap) = some heap :=
    stripPrefix_eq_some_iff.mpr rfl
  rw [collectHeaps, prefixed]
  refine congrArg (Prog.step _) (funext fun answer => ?_)
  show (Prog.ofExcept (accepted _ _ _ answer)).bind _ = _
  unfold readUsage
  cases accepted "counter_vector_simple" (·.simple?) (heapEntry heap) answer <;> rfl

theorem map_push (heaps : List MemoryHeapUsage) (usage : MemoryHeapUsage)
    (result : Except Error (List MemoryHeapUsage)) :
    (result.map (usage :: ·)).map (heaps ++ ·) = result.map (heaps ++ [usage] ++ ·) := by
  cases result <;> simp [Except.map]

/-- The loop reads its entries, and ends in their heaps or in the first refusal. -/
theorem runs_collectHeaps {names : List String} (entries : ∀ name ∈ names, isHeapEntry name)
    {heaps : List MemoryHeapUsage} {s s' : σ} {out : Outcome Error (List MemoryHeapUsage)} :
    (collectHeaps names heaps).Runs handler s out s' ↔
      ∃ result, Read handler s names result s' ∧ out = ending (result.map (heaps ++ ·)) := by
  induction names generalizing heaps s out with
  | nil =>
      constructor
      · rintro ⟨rfl, rfl⟩
        exact ⟨_, .nil, by simp [Except.map, ending]⟩
      · rintro ⟨result, read, rfl⟩
        cases read
        exact ⟨by simp [Except.map, ending], rfl⟩
  | cons name rest ih =>
      rw [List.forall_mem_cons] at entries
      obtain ⟨heap, rfl, _⟩ := isHeapEntry_iff.mp entries.1
      rw [collectHeaps_cons, Prog.runs_step]
      constructor
      · rintro ⟨answer, mid, answered, run⟩
        cases made : readUsage heap answer with
        | error reason =>
            rw [made] at run
            obtain ⟨rfl, rfl⟩ := run
            exact ⟨_, .refused answered (readUsage_eq_error_iff.mp made), rfl⟩
        | ok usage =>
            rw [made] at run
            obtain ⟨result, read, rfl⟩ := (ih entries.2).mp run
            obtain ⟨rfl, rfl⟩ := readUsage_eq_ok_iff.mp made
            exact ⟨_, .heap rfl answered read, by rw [map_push]⟩
      · rintro ⟨result, read, rfl⟩
        cases read with
        | refused answered refused =>
            refine ⟨_, _, answered, ?_⟩
            rw [readUsage_eq_error_iff.mpr refused]
            exact ⟨rfl, rfl⟩
        | heap named answered read =>
            obtain rfl := heapEntry_inj.mp named
            refine ⟨_, _, answered, ?_⟩
            rw [readUsage_eq_ok_iff.mpr ⟨rfl, rfl⟩]
            exact (ih entries.2).mpr ⟨_, read, by rw [map_push]⟩

/-- A report lists the names once and reads its entries, whatever the answers. -/
theorem runs_report {s s' : σ} {out : Outcome Error MemoryStats} :
    report.Runs handler s out s' ↔
      (∃ reason, handler .names s (.error reason) s' ∧ out = .error reason) ∨
      ∃ listing mid result, handler .names s (.ok listing) mid ∧
        Read handler mid (listing.filter isHeapEntry) result s' ∧
        out = ending (result.map MemoryStats.mk) := by
  have entries (listing : List String) : ∀ name ∈ listing.filter isHeapEntry, isHeapEntry name :=
    fun name member => (List.mem_filter.mp member).2
  have unfolded : report = .step .names fun answer => (Prog.ofExcept answer).bind fun names =>
      (collectHeaps (names.filter isHeapEntry) []).bind fun heaps => .done (.ok ⟨heaps⟩) := rfl
  rw [unfolded, Prog.runs_step]
  have tail (listing : List String) (mid : σ) :
      ((collectHeaps (listing.filter isHeapEntry) []).bind fun heaps =>
        (.done (.ok ⟨heaps⟩) : Report MemoryStats)).Runs handler mid out s' ↔
      ∃ result, Read handler mid (listing.filter isHeapEntry) result s' ∧
        out = ending (result.map MemoryStats.mk) := by
    rw [Prog.runs_bind]
    simp only [runs_collectHeaps (entries listing)]
    constructor
    · rintro (⟨heaps, last, ⟨result, read, ended⟩, rfl, rfl⟩ |
        ⟨reason, ⟨result, read, ended⟩, rfl⟩ | ⟨⟨result, read, ended⟩, rfl⟩ |
        ⟨⟨result, read, ended⟩, rfl⟩)
      all_goals cases result <;> cases ended <;> exact ⟨_, read, rfl⟩
    · rintro ⟨result, read, rfl⟩
      cases result with
      | ok heaps => exact .inl ⟨heaps, _, ⟨_, read, rfl⟩, rfl, rfl⟩
      | error reason => exact .inr (.inl ⟨reason, ⟨_, read, rfl⟩, rfl⟩)
  constructor
  · rintro ⟨answer, mid, answered, run⟩
    rcases answer with reason | listing
    · obtain ⟨rfl, rfl⟩ := run
      exact .inl ⟨reason, answered, rfl⟩
    · obtain ⟨result, read, ended⟩ := (tail listing mid).mp run
      exact .inr ⟨listing, mid, result, answered, read, ended⟩
  · rintro (⟨reason, answered, rfl⟩ | ⟨listing, mid, result, answered, read, ended⟩)
    · exact ⟨_, _, answered, rfl, rfl⟩
    · exact ⟨_, _, answered, (tail listing mid).mpr ⟨result, read, ended⟩⟩

end Runs

/-! ## Answers that stay the same -/

section Fixed

variable {reader : StatsReader} {listing : List String}

/-- `usage` is the heap of the entry, with the row that the reader gives for it. -/
def Published (reader : StatsReader) (name : String) (usage : MemoryHeapUsage) : Prop :=
  name = heapEntry usage.name ∧ reader.read name = .ok (.simple [row usage])

/-- The first of the entries that is refused. -/
def RefusedFirst (reader : StatsReader) (names : List String) (reason : Error) : Prop :=
  ∃ passed name rest, names = passed ++ name :: rest ∧
    (∀ earlier ∈ passed, ∃ usage, Published reader earlier usage) ∧
      Refused name (reader.read name) reason

theorem row_inj {left right : MemoryHeapUsage} (named : left.name = right.name)
    (same : row left = row right) : left = right := by
  cases left
  cases right
  simp only [row, List.cons.injEq, and_true] at same
  simp only [MemoryHeapUsage.mk.injEq]
  exact ⟨named, same⟩

theorem Published.unique {name : String} {left right : MemoryHeapUsage}
    (leftRead : Published reader name left) (rightRead : Published reader name right) :
    left = right := by
  have same := leftRead.2.symm.trans rightRead.2
  simp only [Except.ok.injEq, MetricValue.simple.injEq, List.cons.injEq, and_true] at same
  exact row_inj (heapEntry_inj.mp (leftRead.1.symm.trans rightRead.1)) same

/-- The answers of the reader. -/
def fixed (reader : StatsReader) : Prog.Handler Query Query.Ret Unit :=
  fun query s given s' => given = reader.answer query ∧ s' = s

theorem read_fixed {names : List String} {result : Except Error (List MemoryHeapUsage)}
    {s s' : Unit} :
    Read (fixed reader) s names result s' ↔
      match result with
      | .ok heaps => List.Forall₂ (Published reader) names heaps
      | .error reason => RefusedFirst reader names reason := by
  constructor
  · intro read
    induction read with
    | nil => exact .nil
    | refused answered refused =>
        obtain ⟨rfl, _⟩ := answered
        exact ⟨[], _, _, rfl, nofun, refused⟩
    | @heap s mid s' name usage rest result named answered read ih =>
        have published : Published reader name usage := ⟨named, answered.1.symm⟩
        cases result with
        | ok heaps => exact .cons published ih
        | error reason =>
            obtain ⟨passed, other, later, rfl, readable, refused⟩ := ih
            exact ⟨name :: passed, other, later, rfl,
              List.forall_mem_cons.mpr ⟨⟨usage, published⟩, readable⟩, refused⟩
  · intro found
    cases result with
    | ok heaps =>
        induction found with
        | nil => exact .nil
        | cons published _ ih =>
            exact .heap published.1 ⟨published.2.symm, rfl⟩ ih
    | error reason =>
        obtain ⟨passed, name, rest, rfl, readable, refused⟩ := found
        induction passed with
        | nil => exact .refused ⟨rfl, rfl⟩ refused
        | cons earlier passed ih =>
            rw [List.forall_mem_cons] at readable
            obtain ⟨usage, published⟩ := readable.1
            exact .heap published.1 ⟨published.2.symm, rfl⟩ (ih readable.2)

theorem run_report_eq (listed : reader.names = .ok listing) {out : Outcome Error MemoryStats} :
    reader.run report = out ↔
      ∃ result, Read (fixed reader) () (listing.filter isHeapEntry) result () ∧
      out = ending (result.map MemoryStats.mk) := by
  have runs : reader.run report = out ↔ report.Runs (fixed reader) () out () := by
    refine Iff.trans ?_ Prog.runs_fixed.symm
    exact ⟨fun same => ⟨same.symm, rfl⟩, fun same => same.1.symm⟩
  rw [runs, runs_report]
  constructor
  · rintro (⟨reason, answered, _⟩ | ⟨names, _, result, answered, read, ended⟩)
    · cases answered.1.trans listed
    · cases answered.1.trans listed
      exact ⟨result, read, ended⟩
  · rintro ⟨result, read, ended⟩
    exact .inr ⟨listing, (), result, ⟨listed.symm, rfl⟩, read, ended⟩

/-- Looking a heap up in the heaps of the entries. -/
theorem find?_heaps {names : List String} {heaps : List MemoryHeapUsage}
    (published : List.Forall₂ (Published reader) names heaps) (heap : String)
    (usage : MemoryHeapUsage) :
    (heaps.find? fun other => other.name == heap) = some usage ↔
      usage.name = heap ∧ heapEntry heap ∈ names ∧ Published reader (heapEntry heap) usage := by
  induction published with
  | nil => simp
  | @cons name other names heaps here rest ih =>
      rw [List.find?_cons]
      obtain ⟨rfl, read⟩ := here
      by_cases same : other.name = heap
      · subst same
        rw [beq_self_eq_true]
        constructor
        · rintro ⟨⟩
          exact ⟨rfl, List.mem_cons_self, rfl, read⟩
        · rintro ⟨_, _, found⟩
          exact congrArg some (found.unique ⟨rfl, read⟩).symm
      · rw [beq_eq_false_iff_ne.mpr same, ih, List.mem_cons, heapEntry_inj]
        simp [Ne.symm same]

/-- **The heaps of a reader.** The report of a listing is there exactly where each heap entry
reads as one row of seven counters, with one heap for each entry in the order of the listing; else
it is the error of the first entry that does not. A heap is looked up exactly where its entry is
listed, with the row that its entry reads as. -/
theorem heaps_published (reader : StatsReader) (listed : reader.names = .ok listing) :
    (∀ stats, reader.run report = .ok stats ↔
        List.Forall₂ (Published reader) (listing.filter isHeapEntry) stats.heaps) ∧
      (∀ reason, reader.run report = .error reason ↔
        RefusedFirst reader (listing.filter isHeapEntry) reason) ∧
      ((∃ stats, reader.run report = .ok stats) ∨ ∃ reason, reader.run report = .error reason) ∧
      ∀ stats, reader.run report = .ok stats → ∀ heap usage, stats.heap heap = some usage ↔
        usage.name = heap ∧ heapEntry heap ∈ listing.filter isHeapEntry ∧
          reader.read (heapEntry heap) = .ok (.simple [row usage]) := by
  have ended (result : Except Error (List MemoryHeapUsage)) :
      reader.run report = ending (result.map MemoryStats.mk) ↔
        Read (fixed reader) () (listing.filter isHeapEntry) result () := by
    rw [run_report_eq listed]
    constructor
    · rintro ⟨other, read, same⟩
      cases result <;> cases other <;> cases same <;> exact read
    · exact fun read => ⟨result, read, rfl⟩
  have ok (stats : MemoryStats) : reader.run report = .ok stats ↔
      List.Forall₂ (Published reader) (listing.filter isHeapEntry) stats.heaps :=
    (ended (.ok stats.heaps)).trans read_fixed
  refine ⟨ok, fun reason => (ended (.error reason)).trans read_fixed, ?_, ?_⟩
  · obtain ⟨result, _, same⟩ := (run_report_eq listed).mp rfl
    cases result with
    | ok heaps => exact .inl ⟨_, same⟩
    | error reason => exact .inr ⟨_, same⟩
  · intro stats run heap usage
    rw [MemoryStats.heap, find?_heaps ((ok stats).mp run)]
    constructor
    · rintro ⟨named, member, _, read⟩
      exact ⟨named, member, read⟩
    · rintro ⟨rfl, member, read⟩
      exact ⟨rfl, member, rfl, read⟩

/-- Two heaps, listed the other way round than by name, beside an alias of one of them. -/
def twoHeaps : StatsReader where
  names := .ok ["/mem/stat", "/sys/heartbeat", "/mem/main", "/mem/stat/total"]
  read name :=
    .ok (.simple [if name = "/mem/stat" then [7, 6, 5, 4, 3, 2, 1] else [0, 0, 0, 0, 0, 0, 9]])
  now := 0

theorem heaps_published_twoHeaps :
    twoHeaps.run report =
      .ok ⟨[⟨"stat", 7, 6, 5, 4, 3, 2, 1⟩, ⟨"main", 0, 0, 0, 0, 0, 0, 9⟩]⟩ := by
  refine ((heaps_published twoHeaps rfl).1 _).mpr ?_
  exact .cons ⟨rfl, rfl⟩ (.cons ⟨rfl, rfl⟩ .nil)

end Fixed

/-! ## Answers of a segment that changes -/

section Changing

variable {length : Nat} {seen : Nat → Attempt}

/-- The attempts that give the heaps of the entries their rows. -/
def Sampling (length : Nat) (seen : Nat → Attempt) (names : List String)
    (heaps : List MemoryHeapUsage) (attempts : List Nat) : Prop :=
  attempts.length = heaps.length ∧
    List.Forall₂ (fun name (heap : MemoryHeapUsage × Nat) => name = heapEntry heap.1.name ∧
      (seen heap.2).Yields length (decodeNamed name) (.simple [row heap.1])) names
        (heaps.zip attempts)

theorem sampling_of_read {names : List String} {result : Except Error (List MemoryHeapUsage)}
    {heaps : List MemoryHeapUsage} {opened opened' : Nat}
    (read : Read (sampling length seen) opened names result opened')
    (ended : result = .ok heaps) :
    ∃ attempts, Sampling length seen names heaps attempts ∧
      (∀ attempt ∈ attempts, opened ≤ attempt) ∧ attempts.Pairwise (· < ·) := by
  induction read generalizing heaps with
  | nil =>
      cases ended
      exact ⟨[], ⟨rfl, .nil⟩, nofun, .nil⟩
  | refused => cases ended
  | @heap opened mid opened' name usage rest result named answered read ih =>
      cases result with
      | error reason => cases ended
      | ok others =>
          cases ended
          obtain ⟨attempts, ⟨counted, sampled⟩, later, increasing⟩ := ih rfl
          obtain ⟨last, above, _, rfl, yields⟩ := answered
          refine ⟨last :: attempts, ⟨congrArg (· + 1) counted, .cons ⟨named, yields⟩ sampled⟩,
            ?_, ?_⟩
          · rw [List.forall_mem_cons]
            exact ⟨above, fun attempt member => Nat.le_trans (by omega) (later attempt member)⟩
          · exact List.pairwise_cons.mpr ⟨later, increasing⟩

/-- **The heaps of a live segment.** Whatever the successive attempts see, a report that is there
has the heaps of a listing that one stable attempt saw, in its order, and each heap has the row
that a stable attempt of its own, later than those before it, saw under its entry. -/
theorem heaps_sampled (long : sizeOfSharedHeader ≤ length) (seen : Nat → Attempt)
    (clock : Moment → Nat) {stats : MemoryStats} {moment : Moment}
    (run : (StatsClient.report ⟨0, length⟩ report).exec (beside (timeline length seen) clock)
      ⟨0, 0⟩ = (.ok stats, moment)) :
    ∃ first listing attempts, (seen first).Yields length decodeNames listing ∧
      Sampling length seen (listing.filter isHeapEntry) stats.heaps attempts ∧
      (first :: attempts).Pairwise (· < ·) := by
  have sampled := (Stats.runs_report long seen clock report run).resolve_right nofun
  rcases runs_report.mp sampled with ⟨reason, _, ended⟩ |
    ⟨listing, mid, result, listed, read, ended⟩
  · cases ended
  · cases result with
    | error reason => cases ended
    | ok heaps =>
        cases ended
        obtain ⟨first, _, _, rfl, yields⟩ := listed
        obtain ⟨attempts, taken, later, increasing⟩ := sampling_of_read read rfl
        exact ⟨first, listing, attempts, yields, taken,
          List.pairwise_cons.mpr ⟨later, increasing⟩⟩

/-- A segment at base 4096 with one heap, of the counters 7 to 1. -/
def oneHeap : Bytes :=
  List.replicate 40 0 ++ [1, 0, 0, 0, 0, 3, 0, 0] ++
    (leBytes 8 2 ++ leBytes 8 (4096 + 200) ++ "/mem/a".toUTF8.toList ++ List.replicate 122 0) ++
    [1, 0, 0, 0, 0, 3, 0, 0] ++ leBytes 8 (4096 + 216) ++
    [7, 0, 0, 0, 0, 3, 0, 0] ++ [7, 6, 5, 4, 3, 2, 1].flatMap (leBytes 8)

/-- The segment as an attempt sees it at the epoch. -/
def oneHeapAt (epoch : UInt64) : Attempt where
  header
    | _, .version => 2
    | _, .base => 4096
    | _, .epoch => epoch
    | _, .inProgress => 0
    | _, .directoryVector => 4096 + 48
  segment _ offset := oneHeap.getD offset 0

/-- Published again between the listing and the reading. -/
theorem heaps_sampled_oneHeap :
    ∃ first listing attempts, (oneHeapAt (UInt64.ofNat first)).Yields 272 decodeNames listing ∧
      Sampling 272 (fun attempt => oneHeapAt (UInt64.ofNat attempt)) (listing.filter isHeapEntry)
        [⟨"a", 7, 6, 5, 4, 3, 2, 1⟩] attempts ∧ (first :: attempts).Pairwise (· < ·) := by
  have long : sizeOfSharedHeader ≤ 272 := by decide
  have reported : ((StatsClient.report ⟨0, 272⟩ report).exec
      (beside (timeline 272 fun attempt => oneHeapAt (UInt64.ofNat attempt)) Moment.loads)
        ⟨0, 0⟩).1 =
        .ok ⟨[⟨"a", 7, 6, 5, 4, 3, 2, 1⟩]⟩ := by
    decide +kernel
  exact heaps_sampled long _ Moment.loads (Prod.ext reported rfl)

end Changing

end MemoryStatsProvider

end Netsystem.Stats
