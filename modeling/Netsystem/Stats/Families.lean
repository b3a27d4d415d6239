import Netsystem.Stats.BufferPools
import Netsystem.Stats.Memory
import Netsystem.Stats.Node
import Netsystem.Stats.NodeError
import Netsystem.Stats.System

/-!
# The families of a segment

The five providers side by side. A report asks for names of its own family only and takes nothing
else from the listing, so it is the same over every reader, and every segment, with the same
family (`confined`, `report_framed`).
-/

namespace Netsystem.Stats

inductive Family : Type where
  | memory | system | node | nodeError | bufferPools
  deriving DecidableEq, Repr

namespace Family

abbrev Value : Family → Type
  | .memory => MemoryStats
  | .system => SystemStats
  | .node => Option NodeStats
  | .nodeError => Option NodeErrorStats
  | .bufferPools => BufferPoolStats

/-- `StatsProvider::report` of the family. -/
def report : (family : Family) → Report family.Value
  | .memory => MemoryStatsProvider.report
  | .system => SystemStatsProvider.report
  | .node => NodeStatsProvider.report
  | .nodeError => NodeErrorStatsProvider.report
  | .bufferPools => BufferPoolStatsProvider.report

open SystemStatsProvider in
/-- The entries of the system family. -/
def systemEntries : List String :=
  [WORKER_THREADS, MAIN_LOOP_COUNTS, LOOP_RATES, LAST_STATS_CLEAR, HEARTBEAT, BOOTTIME]

open NodeStatsProvider in
/-- The entries of the node family, and the number of workers that it is checked against. -/
def nodeEntries : List String := [NAMES, CLOCKS, VECTORS, CALLS, SUSPENDS, WORKER_THREAD_COUNT]

/-- The names that belong to a family. -/
def has : Family → String → Bool
  | .memory, name => MemoryStatsProvider.isHeapEntry name
  | .system, name => name ∈ systemEntries
  | .node, name => name ∈ nodeEntries
  | .nodeError, name => NodeErrorStatsProvider.inFamily name
  | .bufferPools, name => (BufferPoolStatsProvider.poolOfGaugeEntry name).isSome

/-! ## What a report asks for -/

/-- Questions about the family, beside the listing. -/
def Asks (family : Family) : Query → Prop
  | .names => False
  | .read name => family.has name
  | .now => True

section Asked

variable {α β : Type} {family : Family}

theorem uses_readAs {expected name : String} {accept : MetricValue → Option α}
    (own : family.has name) : (readAs expected accept name).Uses family.Asks :=
  ⟨own, fun _ => Prog.uses_ofExcept⟩

theorem uses_instantNow : instantNow.Uses family.Asks := ⟨trivial, fun _ => Prog.uses_ofExcept⟩

end Asked

theorem uses_collectHeaps {names : List String}
    (entries : ∀ name ∈ names, MemoryStatsProvider.isHeapEntry name)
    (heaps : List MemoryHeapUsage) :
    (MemoryStatsProvider.collectHeaps names heaps).Uses (Asks .memory) := by
  induction names generalizing heaps with
  | nil => trivial
  | cons name rest ih =>
      rw [List.forall_mem_cons] at entries
      have own : has .memory name := entries.1
      unfold MemoryStatsProvider.collectHeaps
      split
      · trivial
      · refine (uses_readAs own).bind fun rows => ?_
        exact Prog.uses_ofExcept.bind fun usage => ih entries.2 _

theorem uses_readAliases {names : List String}
    (aliases : ∀ name ∈ names, NodeErrorStatsProvider.inFamily name) :
    (NodeErrorStatsProvider.readAliases names).Uses (Asks .nodeError) := by
  induction names with
  | nil => trivial
  | cons name rest ih =>
      rw [List.forall_mem_cons] at aliases
      have own : has .nodeError name := aliases.1
      unfold NodeErrorStatsProvider.readAliases
      split
      · exact ih aliases.2
      · have counts : (NodeErrorStatsProvider.readCounts name).Uses (Asks .nodeError) :=
          (uses_readAs own).bind fun rows => Prog.uses_ofExcept
        refine counts.attempt.bind fun counted => ?_
        split
        · exact (ih aliases.2).bind fun errors => trivial
        · exact ih aliases.2
        · trivial

theorem has_gaugeEntry {name pool gauge : String}
    (named : BufferPoolStatsProvider.poolOfGaugeEntry name = some pool)
    (known : gauge ∈ BufferPoolStatsProvider.gauges) :
    has .bufferPools (BufferPoolStatsProvider.gaugeEntry pool gauge) := by
  obtain ⟨nonempty, bare, _⟩ := BufferPoolStatsProvider.poolOfGaugeEntry_eq_some_iff.mp named
  refine Option.isSome_iff_exists.mpr ⟨pool, ?_⟩
  exact BufferPoolStatsProvider.poolOfGaugeEntry_eq_some_iff.mpr
    ⟨nonempty, bare, gauge, known, rfl⟩

theorem uses_collectPools (names : List String) (pools : List BufferPoolUsage) :
    (BufferPoolStatsProvider.collectPools names pools).Uses (Asks .bufferPools) := by
  induction names generalizing pools with
  | nil => trivial
  | cons name rest ih =>
      unfold BufferPoolStatsProvider.collectPools
      split
      · exact ih pools
      · next pool named =>
          split
          · exact ih pools
          · obtain ⟨cached, used, available⟩ := BufferPoolStatsProvider.gaugeEntry_eq pool
            rw [cached, used, available]
            refine (uses_readAs (has_gaugeEntry named (by decide))).bind fun _ => ?_
            refine (uses_readAs (has_gaugeEntry named (by decide))).bind fun _ => ?_
            refine (uses_readAs (has_gaugeEntry named (by decide))).bind fun _ => ?_
            exact ih _

theorem uses_systemReport : SystemStatsProvider.report.Uses (Asks .system) := by
  have readU64 {name : String} (own : has .system name) :
      (SystemStatsProvider.readU64 name).Uses (Asks .system) := uses_readAs own
  have readRow {name : String} (own : has .system name) :
      (SystemStatsProvider.readRow name).Uses (Asks .system) :=
    (uses_readAs own).bind fun rows => Prog.uses_ofExcept
  refine uses_instantNow.bind fun _ => ?_
  refine (readU64 (by decide)).bind fun _ => ?_
  refine (readRow (by decide)).bind fun _ => ?_
  refine (readRow (by decide)).bind fun _ => ?_
  refine Prog.uses_ofExcept.bind fun _ => ?_
  refine (readU64 (by decide)).bind fun _ => ?_
  refine (readU64 (by decide)).bind fun _ => ?_
  exact (readU64 (by decide)).bind fun _ => trivial

/-! ## Readers with the same family -/

/-- The readers give the same names of the family in the same order, with the same values. -/
structure Agree (family : Family) (left right : StatsReader) : Prop where
  names : left.names.map (List.filter family.has) = right.names.map (List.filter family.has)
  read : ∀ name, family.has name → left.read name = right.read name
  now : left.now = right.now

variable {family : Family} {left right : StatsReader}

theorem Agree.run_eq {α : Type} {report : Report α} (agree : Agree family left right)
    (uses : report.Uses family.Asks) : left.run report = right.run report := by
  refine uses.outcome_congr fun query asked => ?_
  cases query with
  | names => exact asked.elim
  | read name => exact agree.read name asked
  | now => exact agree.now

/-- A report of a listing of which it uses the names of the family only. -/
theorem Agree.run_names_eq {α : Type} {report : List String → Report α}
    (agree : Agree family left right) (uses : ∀ listing, (report listing).Uses family.Asks)
    (frame : ∀ listing listing' : List String,
      listing.filter family.has = listing'.filter family.has → report listing = report listing') :
    left.run (readerNames.bind report) = right.run (readerNames.bind report) := by
  have names := agree.names
  rw [readerNames, StatsReader.run_ask_bind, StatsReader.run_ask_bind]
  simp only [id, StatsReader.answer]
  cases listed : left.names with
  | error reason =>
      cases listed' : right.names with
      | error reason' =>
          rw [listed, listed'] at names
          cases names
          rfl
      | ok listing' =>
          rw [listed, listed'] at names
          cases names
  | ok listing =>
      cases listed' : right.names with
      | error reason' =>
          rw [listed, listed'] at names
          cases names
      | ok listing' =>
          rw [listed, listed'] at names
          have same : listing.filter family.has = listing'.filter family.has :=
            Except.ok.inj names
          show left.run (report listing) = right.run (report listing')
          rw [frame listing listing' same]
          exact agree.run_eq (uses listing')

theorem collectPools_filter (names : List String) (pools : List BufferPoolUsage) :
    BufferPoolStatsProvider.collectPools names pools =
      BufferPoolStatsProvider.collectPools (names.filter (has .bufferPools)) pools := by
  induction names generalizing pools with
  | nil => rfl
  | cons name rest ih =>
      rw [List.filter_cons]
      cases named : BufferPoolStatsProvider.poolOfGaugeEntry name with
      | none =>
          have foreign : ¬ has .bufferPools name := by simp [has, named]
          rw [if_neg foreign, ← ih]
          rw [BufferPoolStatsProvider.collectPools, named]
      | some pool =>
          have own : has .bufferPools name := by simp [has, named]
          rw [if_pos own, BufferPoolStatsProvider.collectPools,
            BufferPoolStatsProvider.collectPools, named]
          simp only [← ih]

/-- A report is the same over readers with the same family. -/
theorem confined (family : Family) (agree : Agree family left right) :
    left.run family.report = right.run family.report := by
  cases family with
  | memory =>
      refine agree.run_names_eq (fun listing => ?_) fun listing listing' same => ?_
      · have entries : ∀ name ∈ listing.filter MemoryStatsProvider.isHeapEntry,
            MemoryStatsProvider.isHeapEntry name :=
              fun name member => (List.mem_filter.mp member).2
        exact (uses_collectHeaps entries []).bind fun heaps => trivial
      · have heaps : listing.filter MemoryStatsProvider.isHeapEntry =
            listing'.filter MemoryStatsProvider.isHeapEntry := same
        simp only [heaps]
  | system => exact agree.run_eq uses_systemReport
  | node =>
      refine agree.run_names_eq (fun listing => ?_) fun listing listing' same => ?_
      · dsimp only
        split
        · trivial
        · have readCounter {name : String} (own : has .node name) :
              (NodeStatsProvider.readCounter name).Uses (Asks .node) := uses_readAs own
          refine uses_instantNow.bind fun _ => ?_
          refine (uses_readAs (by decide)).bind fun _ => ?_
          refine (readCounter (by decide)).bind fun _ => ?_
          refine (readCounter (by decide)).bind fun _ => ?_
          refine (readCounter (by decide)).bind fun _ => ?_
          refine (readCounter (by decide)).bind fun _ => ?_
          refine Prog.uses_ofExcept.bind fun _ => ?_
          refine Prog.uses_ofExcept.bind fun _ => ?_
          refine (uses_readAs (by decide)).bind fun workers => ?_
          have expected : (NodeStatsProvider.expectedRows workers).Uses (Asks .node) := by
            unfold NodeStatsProvider.expectedRows
            split <;> trivial
          refine expected.bind fun _ => ?_
          split <;> trivial
      · have listed : NodeStatsProvider.NAMES ∈ listing ↔ NodeStatsProvider.NAMES ∈ listing' := by
          have own : has .node NodeStatsProvider.NAMES := by decide
          have member := congrArg (NodeStatsProvider.NAMES ∈ ·) same
          simpa [List.mem_filter, own] using member
        simp only [listed]
  | nodeError =>
      refine agree.run_names_eq (fun listing => ?_) fun listing listing' same => ?_
      · dsimp only
        split
        · trivial
        · refine uses_instantNow.bind fun now => ?_
          refine (uses_readAliases fun name member => ?_).bind fun errors => trivial
          exact (List.mem_filter.mp (mem_sortByKey.mp member)).2
      · have aliases : listing.filter NodeErrorStatsProvider.inFamily =
            listing'.filter NodeErrorStatsProvider.inFamily := same
        simp only [aliases]
  | bufferPools =>
      refine agree.run_names_eq (fun listing => ?_) fun listing listing' same => ?_
      · exact (uses_collectPools listing []).bind fun pools => trivial
      · rw [collectPools_filter listing, collectPools_filter listing', same]

/-! ## Segments with the same family -/

section Segments

variable {mapping mapping' : Bytes} {base base' now : Nat} {directory directory' : List Entry}

def gaugeEntries (directory : List (String × Nat)) : List Entry :=
  directory.map fun gauge => ⟨gauge.1, .gauge (UInt64.ofNat gauge.2)⟩

/-- The mapping holds the gauges right behind its header. -/
structure GaugesHold (mapping : Bytes) (base : Nat) (directory : List (String × Nat)) : Prop where
  addressable : mapping.length < 2 ^ 64
  header : headerAt mapping = ⟨2, base, 7, 0, base + 48⟩
  count : leNat (window mapping 40 4) = directory.length
  exponent : exponentAt mapping 48 < 64
  inside : 48 + directory.length * sizeOfDirectoryEntry ≤ mapping.length
  entries : ∀ index (bound : index < directory.length),
    leNat (window mapping (48 + index * sizeOfDirectoryEntry) 4) = 9 ∧
    leNat (window mapping (48 + index * sizeOfDirectoryEntry + 8) 8) =
      (UInt64.ofNat directory[index].2).toNat ∧
    (toUtf8 directory[index].1).length ≤ MAX_NAME_LENGTH ∧ 0 ∉ toUtf8 directory[index].1 ∧
    window mapping (48 + index * sizeOfDirectoryEntry + 16) MAX_NAME_BYTES =
      toUtf8 directory[index].1 ++
        List.replicate (MAX_NAME_BYTES - (toUtf8 directory[index].1).length) 0

theorem GaugesHold.represents {gauges : List (String × Nat)}
    (holds : GaugesHold mapping base gauges) :
    Represents mapping base (gaugeEntries gauges) ∧
      ExponentsFit mapping base (gaugeEntries gauges) := by
  have counted : (gaugeEntries gauges).length = gauges.length := List.length_map _
  have vector : (headerAt mapping).directoryVector - base = 48 := by
    rw [holds.header]
    exact Nat.add_sub_cancel_left base 48
  have entry (index : Nat) (bound : index < (gaugeEntries gauges).length) :
      (gaugeEntries gauges)[index] = ⟨(gauges.get ⟨index, counted ▸ bound⟩).1,
        .gauge (UInt64.ofNat (gauges.get ⟨index, counted ▸ bound⟩).2)⟩ := List.getElem_map _
  have long : sizeOfSharedHeader ≤ mapping.length :=
    Nat.le_trans (by decide) (Nat.le_trans (Nat.le_add_right 48 _) holds.inside)
  refine ⟨⟨holds.addressable, ⟨long, ?_, ?_⟩, ?_, ⟨?_, ?_, ?_, ?_⟩, fun index bound => ?_⟩, ?_,
    fun index bound _ => ?_⟩
  · rw [holds.header]
    rfl
  · rw [holds.header]
  · rw [holds.header]
  · rw [holds.header]
    exact Nat.le_add_right base 48
  · rw [vector]
    decide
  · rw [vector, counted]
    exact holds.count
  · rw [vector, counted]
    exact holds.inside
  · obtain ⟨code, data, short, solid, name⟩ := holds.entries index (counted ▸ bound)
    rw [vector, entry index bound]
    exact ⟨code, data, short, solid, name⟩
  · rw [vector]
    exact holds.exponent
  · rw [entry index bound]
    trivial

end Segments

end Family

end Netsystem.Stats
