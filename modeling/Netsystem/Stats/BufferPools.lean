import Netsystem.Stats.Reader
import Netsystem.Text

/-!
# The buffer-pool projection

`hammer-stats-client/src/buffer_pools.rs`. The pools are read off the names of their gauges, each
pool at the first of them, and sorted by name.
-/

namespace Netsystem.Stats

/-! ## The report -/

/-- One Buffer Pool as the server last sampled it. -/
structure BufferPoolUsage : Type where
  name : String
  cached : UInt64
  used : UInt64
  available : UInt64
  deriving DecidableEq, Repr

structure BufferPoolStats : Type where
  pools : List BufferPoolUsage
  deriving DecidableEq, Repr

namespace BufferPoolStatsProvider

/-- `matches!(gauge, "cached" | "used" | "available")`. -/
def gauges : List String := ["cached", "used", "available"]

def poolOfGaugeEntry (name : String) : Option String := do
  let rest ← stripPrefix "/buffer-pools/" name
  let (pool, gauge) ← splitOnce '/' rest
  if gauge ∈ gauges ∧ pool ≠ "" then some pool else none

def readGauge : (name : String) → Report UInt64 := readAs "gauge" (·.gauge?)

/-- The loop over the names: a pool is read at the first of its gauges. -/
def collectPools : List String → (pools : List BufferPoolUsage) → Report (List BufferPoolUsage)
  | [], pools => pure pools
  | name :: rest, pools =>
      match poolOfGaugeEntry name with
      | none => collectPools rest pools
      | some poolName =>
          if pools.any fun pool => pool.name == poolName then collectPools rest pools
          else do
            let cached ← readGauge ("/buffer-pools/" ++ poolName ++ "/cached")
            let used ← readGauge ("/buffer-pools/" ++ poolName ++ "/used")
            let available ← readGauge ("/buffer-pools/" ++ poolName ++ "/available")
            collectPools rest (pools ++ [{ name := poolName, cached, used, available }])

/-- `BufferPoolStatsProvider::report`. The sort is unstable, but no two pools share a name. -/
def report : Report BufferPoolStats := do
  let names ← readerNames
  let pools ← collectPools names []
  pure { pools := sortByKey (·.name) pools }

/-! ## Gauge entries -/

/-- The directory entry of one gauge of a pool. -/
def gaugeEntry (pool gauge : String) : String := "/buffer-pools/" ++ pool ++ "/" ++ gauge

theorem toList_gaugeEntry (pool gauge : String) :
    (gaugeEntry pool gauge).toList =
      "/buffer-pools/".toList ++ (pool.toList ++ '/' :: gauge.toList) := by
  show ("/buffer-pools/" ++ pool ++ "/" ++ gauge).toList = _
  simp

/-- `pool` is named by a gauge of the listing. -/
def Listed (listing : List String) (pool : String) : Prop :=
  pool ≠ "" ∧ '/' ∉ pool.toList ∧ ∃ gauge ∈ gauges, gaugeEntry pool gauge ∈ listing

theorem poolOfGaugeEntry_eq_some_iff {name pool : String} :
    poolOfGaugeEntry name = some pool ↔
      pool ≠ "" ∧ '/' ∉ pool.toList ∧ ∃ gauge ∈ gauges, name = gaugeEntry pool gauge := by
  unfold poolOfGaugeEntry
  simp only [Option.bind_eq_bind, Option.bind_eq_some_iff, stripPrefix_eq_some_iff, Prod.exists,
    splitOnce_eq_some_iff, Option.ite_none_right_eq_some, Option.some.injEq]
  constructor
  · rintro ⟨rest, text, first, gauge, ⟨split, bare⟩, ⟨known, named⟩, rfl⟩
    refine ⟨named, bare, gauge, known, ?_⟩
    rw [text, ← String.toList_inj, toList_gaugeEntry]
    simp [split]
  · rintro ⟨named, bare, gauge, known, text⟩
    refine ⟨pool ++ "/" ++ gauge, ?_, pool, gauge, ⟨?_, bare⟩, ⟨known, named⟩, rfl⟩
    · rw [text, ← String.toList_inj, toList_gaugeEntry]
      simp
    · simp

theorem listed_iff {listing : List String} {pool : String} :
    Listed listing pool ↔ ∃ name ∈ listing, poolOfGaugeEntry name = some pool := by
  simp only [poolOfGaugeEntry_eq_some_iff, Listed]
  constructor
  · rintro ⟨named, bare, gauge, known, member⟩
    exact ⟨_, member, named, bare, gauge, known, rfl⟩
  · rintro ⟨name, member, named, bare, gauge, known, rfl⟩
    exact ⟨named, bare, gauge, known, member⟩

/-! ## Reading the pools -/

/-- `usage` holds the pool's three gauge values. -/
structure Gauged (reader : StatsReader) (usage : BufferPoolUsage) : Prop where
  cached : reader.read (gaugeEntry usage.name "cached") = .ok (.gauge usage.cached)
  used : reader.read (gaugeEntry usage.name "used") = .ok (.gauge usage.used)
  available : reader.read (gaugeEntry usage.name "available") = .ok (.gauge usage.available)

variable {reader : StatsReader}

theorem Gauged.unique {left right : BufferPoolUsage} (leftRead : Gauged reader left)
    (rightRead : Gauged reader right) (same : left.name = right.name) : left = right := by
  obtain ⟨name, cached, used, available⟩ := left
  obtain ⟨other, cached', used', available'⟩ := right
  simp only at same
  subst same
  cases leftRead.cached.symm.trans rightRead.cached
  cases leftRead.used.symm.trans rightRead.used
  cases leftRead.available.symm.trans rightRead.available
  rfl

/-- All three gauges of the pool read as gauges. -/
def Readable (reader : StatsReader) (pool : String) : Prop :=
  ∀ gauge ∈ gauges, ∃ value, reader.read (gaugeEntry pool gauge) = .ok (.gauge value)

theorem readable_iff {pool : String} :
    Readable reader pool ↔ ∃ usage : BufferPoolUsage, usage.name = pool ∧
      Gauged reader usage := by
  constructor
  · intro readable
    obtain ⟨cached, cachedRead⟩ := readable "cached" (by decide)
    obtain ⟨used, usedRead⟩ := readable "used" (by decide)
    obtain ⟨available, availableRead⟩ := readable "available" (by decide)
    exact ⟨⟨pool, cached, used, available⟩, rfl, cachedRead, usedRead, availableRead⟩
  · rintro ⟨usage, rfl, gauged⟩ gauge known
    simp only [gauges, List.mem_cons, List.not_mem_nil, or_false] at known
    rcases known with rfl | rfl | rfl
    · exact ⟨_, gauged.cached⟩
    · exact ⟨_, gauged.used⟩
    · exact ⟨_, gauged.available⟩

/-- The texts that the report reads are the entries of the gauges. -/
theorem gaugeEntry_eq (pool : String) :
    "/buffer-pools/" ++ pool ++ "/cached" = gaugeEntry pool "cached" ∧
      "/buffer-pools/" ++ pool ++ "/used" = gaugeEntry pool "used" ∧
        "/buffer-pools/" ++ pool ++ "/available" = gaugeEntry pool "available" := by
  simp [← String.toList_inj, toList_gaugeEntry]

theorem run_readGauge {α : Type} {name : String} {value : UInt64} {f : UInt64 → Report α}
    (read : reader.read name = .ok (.gauge value)) :
    reader.run ((readGauge name).bind f) = reader.run (f value) :=
  StatsReader.run_readAs_bind_of_ok read rfl

theorem accepted_gauge_iff {name : String} {value : UInt64} :
    accepted "gauge" (·.gauge?) name (reader.read name) = .ok value ↔
      reader.read name = .ok (.gauge value) := by
  simp [accepted_eq_ok_iff]

/-- The pools collected from `names`, in the order of their first gauges. -/
structure Collected (reader : StatsReader) (names : List String) (pools : List BufferPoolUsage) :
    Prop where
  distinct : (pools.map (·.name)).Nodup
  found : ∀ pool, pool ∈ pools.map (·.name) ↔ ∃ name ∈ names, poolOfGaugeEntry name = some pool
  gauged : ∀ usage ∈ pools, Gauged reader usage

theorem collected_nil : Collected reader [] [] := ⟨List.nodup_nil, by simp, by simp⟩

/-- A name that brings no pool, or one that is there already. -/
theorem Collected.skip {names : List String} {name : String} {pools : List BufferPoolUsage}
    (collected : Collected reader names pools)
    (known : ∀ pool, poolOfGaugeEntry name = some pool → pool ∈ pools.map (·.name)) :
    Collected reader (names ++ [name]) pools := by
  refine ⟨collected.distinct, fun pool => ?_, collected.gauged⟩
  rw [collected.found]
  constructor
  · rintro ⟨other, member, named⟩
    exact ⟨other, List.mem_append_left _ member, named⟩
  · rintro ⟨other, member, named⟩
    rcases List.mem_append.mp member with before | last
    · exact ⟨other, before, named⟩
    · rw [List.mem_singleton.mp last] at named
      exact (collected.found pool).mp (known pool named)

theorem Collected.push {names : List String} {name : String} {pools : List BufferPoolUsage}
    {usage : BufferPoolUsage} (collected : Collected reader names pools)
    (named : poolOfGaugeEntry name = some usage.name) (fresh : usage.name ∉ pools.map (·.name))
    (gauged : Gauged reader usage) : Collected reader (names ++ [name]) (pools ++ [usage]) := by
  constructor
  case distinct =>
    rw [List.map_append]
    exact List.nodup_append_comm.mp (List.nodup_cons.mpr ⟨fresh, collected.distinct⟩)
  case found =>
    intro pool
    rw [List.map_append, List.mem_append, collected.found]
    simp only [List.mem_append, List.mem_singleton, List.map_cons, List.map_nil, or_and_right,
      exists_or, exists_eq_left, named, Option.some.injEq]
    exact or_congr_right eq_comm
  case gauged =>
    intro other member
    rcases List.mem_append.mp member with before | last
    · exact collected.gauged other before
    · rw [List.mem_singleton.mp last]
      exact gauged

/-- The loop, from the pools of the names that it has passed. -/
theorem Collected.run {seen rest : List String} {pools : List BufferPoolUsage}
    (collected : Collected reader seen pools)
    (readable : ∀ name ∈ rest, ∀ pool, poolOfGaugeEntry name = some pool → Readable reader pool) :
    ∃ all, reader.run (collectPools rest pools) = .ok all ∧
      Collected reader (seen ++ rest) all := by
  induction rest generalizing seen pools with
  | nil => exact ⟨pools, rfl, by rwa [List.append_nil]⟩
  | cons name rest ih =>
      rw [List.forall_mem_cons] at readable
      have go {pools' : List BufferPoolUsage}
          (stepped : Collected reader (seen ++ [name]) pools') :
          ∃ all, reader.run (collectPools rest pools') = .ok all ∧
            Collected reader (seen ++ name :: rest) all := by
        obtain ⟨all, ended, final⟩ := ih stepped readable.2
        rw [List.append_assoc] at final
        exact ⟨all, ended, final⟩
      unfold collectPools
      split
      · next unnamed =>
        refine go (collected.skip fun pool named => ?_)
        rw [unnamed] at named
        cases named
      · next poolName named =>
        split
        · next there =>
          refine go (collected.skip fun pool other => ?_)
          cases named.symm.trans other
          simpa using there
        · next fresh =>
          obtain ⟨usage, rfl, gauged⟩ := readable_iff.mp (readable.1 poolName named)
          have missing : usage.name ∉ pools.map (·.name) := by simpa using fresh
          obtain ⟨cached, used, available⟩ := gaugeEntry_eq usage.name
          rw [cached, used, available]
          simp only [Prog.bind_eq]
          rw [run_readGauge gauged.cached, run_readGauge gauged.used,
            run_readGauge gauged.available]
          exact go (collected.push named missing gauged)

/-- A pool that is not there yet and whose gauges cannot be read ends the loop. -/
theorem readable_or_fails {rest : List String} {pools : List BufferPoolUsage} :
    (∀ name ∈ rest, ∀ pool, poolOfGaugeEntry name = some pool →
      pool ∈ pools.map (·.name) ∨ Readable reader pool) ∨
        reader.Fails (collectPools rest pools) := by
  induction rest generalizing pools with
  | nil => exact .inl fun name member => (by cases member)
  | cons name rest ih =>
      unfold collectPools
      split
      · next unnamed =>
        refine ih.imp_left fun readable => List.forall_mem_cons.mpr
          ⟨fun pool named => ?_, readable⟩
        rw [unnamed] at named
        cases named
      · next poolName named =>
        have head {pools' : List BufferPoolUsage}
            (here : poolName ∈ pools'.map (·.name) ∨ Readable reader poolName) :
            ∀ pool, poolOfGaugeEntry name = some pool →
              pool ∈ pools'.map (·.name) ∨ Readable reader pool := by
          intro pool other
          cases named.symm.trans other
          exact here
        split
        · next there =>
          have member : poolName ∈ pools.map (·.name) := by simpa using there
          exact ih.imp_left fun readable => List.forall_mem_cons.mpr
            ⟨head (.inl member), readable⟩
        · next fresh =>
          obtain ⟨cachedText, usedText, availableText⟩ := gaugeEntry_eq poolName
          rw [cachedText, usedText, availableText]
          simp only [Prog.bind_eq, readGauge, readAs]
          refine StatsReader.or_fails_ask fun cached cachedRead => ?_
          refine StatsReader.or_fails_ask fun used usedRead => ?_
          refine StatsReader.or_fails_ask fun available availableRead => ?_
          have whole : Readable reader poolName :=
            readable_iff.mpr ⟨⟨poolName, cached, used, available⟩, rfl,
              accepted_gauge_iff.mp cachedRead, accepted_gauge_iff.mp usedRead,
              accepted_gauge_iff.mp availableRead⟩
          refine ih.imp_left fun readable => List.forall_mem_cons.mpr ⟨head (.inr whole), ?_⟩
          intro other member pool found
          rcases readable other member pool found with there | read
          · rw [List.map_append, List.mem_append] at there
            rcases there with before | last
            · exact .inl before
            · rw [List.map_singleton, List.mem_singleton] at last
              exact .inr (last ▸ whole)
          · exact .inr read

/-! ## The report as a whole -/

variable {listing : List String}

/-- The pools of the report: all that are listed, each once, by name, with their own gauges. -/
structure Complete (reader : StatsReader) (listing : List String) (stats : BufferPoolStats) :
    Prop where
  increasing : stats.pools.Pairwise fun left right => left.name < right.name
  listed : ∀ pool, (∃ usage ∈ stats.pools, usage.name = pool) ↔ Listed listing pool
  gauged : ∀ usage ∈ stats.pools, Gauged reader usage

/-- At most one report is complete. -/
theorem Complete.unique {left right : BufferPoolStats}
    (leftComplete : Complete reader listing left)
    (rightComplete : Complete reader listing right) : left = right := by
  have within {one other : BufferPoolStats} (oneComplete : Complete reader listing one)
      (otherComplete : Complete reader listing other) :
      ∀ usage ∈ one.pools, usage ∈ other.pools := by
    intro usage member
    have named := (oneComplete.listed usage.name).mp ⟨usage, member, rfl⟩
    obtain ⟨twin, there, same⟩ := (otherComplete.listed usage.name).mpr named
    rw [(oneComplete.gauged usage member).unique (otherComplete.gauged twin there) same.symm]
    exact there
  have distinct {one : BufferPoolStats} (oneComplete : Complete reader listing one) :
      one.pools.Nodup := by
    refine List.Pairwise.imp ?_ oneComplete.increasing
    intro left right below same
    exact lt_irrefl _ (same ▸ below)
  have perm : left.pools.Perm right.pools :=
    (List.perm_ext_iff_of_nodup (distinct leftComplete) (distinct rightComplete)).mpr
      fun usage => ⟨within leftComplete rightComplete usage,
        within rightComplete leftComplete usage⟩
  have same : left.pools = right.pools :=
    perm.eq_of_pairwise
      (fun _ _ _ _ below above => absurd (below.trans above) (lt_irrefl _))
      leftComplete.increasing rightComplete.increasing
  cases left
  cases right
  exact congrArg BufferPoolStats.mk same

theorem Collected.complete {pools : List BufferPoolUsage}
    (collected : Collected reader listing pools) :
    Complete reader listing ⟨sortByKey (·.name) pools⟩ := by
  have perm := sortByKey_perm BufferPoolUsage.name pools
  constructor
  case increasing =>
    exact strict_of_sorted (sortByKey_pairwise _ _)
      ((perm.map _).nodup_iff.mpr collected.distinct)
  case listed =>
    intro pool
    rw [listed_iff, ← collected.found, List.mem_map]
    exact exists_congr fun usage => and_congr_left fun _ => mem_sortByKey
  case gauged => exact fun usage member => collected.gauged usage (mem_sortByKey.mp member)

/-- The report ends in a complete one, or in an error where a listed pool cannot be read. -/
theorem complete_or_fails (reader : StatsReader) (listed : reader.names = .ok listing) :
    ((∀ pool, Listed listing pool → Readable reader pool) ∧
      ∃ stats, reader.run report = .ok stats ∧ Complete reader listing stats) ∨
    (¬ (∀ pool, Listed listing pool → Readable reader pool) ∧ reader.Fails report) := by
  have start : reader.run report = reader.run ((collectPools listing []).bind fun pools =>
      .done (.ok { pools := sortByKey (·.name) pools })) := by
    simp only [report, Prog.bind_eq, readerNames]
    exact StatsReader.run_ask_bind_of_ok listed
  by_cases readable : ∀ pool, Listed listing pool → Readable reader pool
  · have each : ∀ name ∈ listing, ∀ pool, poolOfGaugeEntry name = some pool →
        Readable reader pool :=
      fun name member pool named => readable pool (listed_iff.mpr ⟨name, member, named⟩)
    obtain ⟨pools, ended, collected⟩ := collected_nil.run each
    refine .inl ⟨readable, _, ?_, collected.complete⟩
    rw [start, StatsReader.run_bind, ended]
    rfl
  · refine .inr ⟨readable, ?_⟩
    have split : _ ∨ reader.Fails (collectPools listing []) := readable_or_fails
    rcases split with each | failed
    · refine absurd (fun pool given => ?_) readable
      obtain ⟨name, member, named⟩ := listed_iff.mp given
      exact (each name member pool named).resolve_left (by simp)
    · obtain ⟨reason, failed⟩ := failed
      exact ⟨reason, by rw [start, StatsReader.run_bind, failed]⟩

/-- The report is complete, it is there exactly when every listed pool can be read, and it depends
on the set of the listed names only. -/
theorem pools_complete (reader : StatsReader) (listed : reader.names = .ok listing) :
    (∀ stats, reader.run report = .ok stats → Complete reader listing stats) ∧
      ((∃ stats, reader.run report = .ok stats) ↔
        ∀ pool, Listed listing pool → Readable reader pool) ∧
      ∀ other : List String, (∀ name, name ∈ other ↔ name ∈ listing) →
        ∀ stats, reader.run report = .ok stats →
          { reader with names := .ok other }.run report = .ok stats := by
  rcases complete_or_fails reader listed with ⟨readable, made, ended, complete⟩ |
    ⟨unread, reason, failed⟩
  · refine ⟨fun stats same => ?_, iff_of_true ⟨made, ended⟩ readable,
      fun other alike stats same => ?_⟩
    · cases ended.symm.trans same
      exact complete
    · cases ended.symm.trans same
      have named : ∀ pool, Listed other pool ↔ Listed listing pool := by
        simp only [Listed, alike, implies_true]
      rcases complete_or_fails { reader with names := .ok other } rfl with
        ⟨_, twin, twinEnded, twinComplete⟩ | ⟨unread, _⟩
      · have moved : Complete reader listing twin :=
          ⟨twinComplete.increasing, fun pool => (twinComplete.listed pool).trans (named pool),
            fun usage member => ⟨(twinComplete.gauged usage member).cached,
              (twinComplete.gauged usage member).used,
              (twinComplete.gauged usage member).available⟩⟩
        rw [twinEnded, complete.unique moved]
      · exact absurd (fun pool given => readable pool ((named pool).mp given)) unread
  · have never : ∀ stats, reader.run report ≠ .ok stats := by
      intro stats same
      cases failed.symm.trans same
    exact ⟨fun stats same => absurd same (never stats),
      iff_of_false (fun given => given.elim never) unread,
      fun _ _ stats same => absurd same (never stats)⟩

/-- Two pools whose gauges are listed interleaved and repeatedly. -/
def interleaved : StatsReader where
  names := .ok ["/buffer-pools/numa-1/used", "/sys/heartbeat", "/buffer-pools/numa-0/cached",
    "/buffer-pools/numa-1/cached", "/buffer-pools/numa-1/used"]
  read _ := .ok (.gauge 7)
  now := 0

theorem pools_complete_interleaved :
    interleaved.run report = .ok ⟨[⟨"numa-0", 7, 7, 7⟩, ⟨"numa-1", 7, 7, 7⟩]⟩ ∧
      ∀ stats, interleaved.run report = .ok stats →
        { interleaved with names := .ok ["/buffer-pools/numa-0/cached",
            "/buffer-pools/numa-1/cached", "/buffer-pools/numa-1/used", "/sys/heartbeat"] }.run
          report = .ok stats := by
  refine ⟨by decide +kernel, (pools_complete interleaved rfl).2.2 _ fun name => ?_⟩
  simp only [List.mem_cons, List.not_mem_nil, or_false]
  tauto

end BufferPoolStatsProvider

end Netsystem.Stats
