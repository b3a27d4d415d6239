import Mathlib.Data.List.Forall2
import Mathlib.Data.Prod.Lex
import Netsystem.Stats.Reader
import Netsystem.Text

/-!
# The node-error projection

`hammer-stats-client/src/node_error.rs`: every `/err/<node>/<error>` alias of the directory, read
in the order of the names and reported in the order of node and error.

The report is absent when no listed name begins with `/err/`. The module and its test say that it
is absent when no alias is listed; the two differ on a listing that has names of the family and no
alias among them, and on no other (`NodeErrorStatsProvider.family_iff`).
-/

namespace Netsystem.Stats

/-! ## The report -/

/-- One node error's counters, one value per runtime thread. -/
structure NodeErrorCounters : Type where
  node : String
  error : String
  counts : List UInt64
  deriving DecidableEq, Repr

structure NodeErrorStats : Type where
  errors : List NodeErrorCounters
  sampledAt : Nat
  deriving DecidableEq, Repr

/-- The order of the report: by node, then by error. -/
def NodeErrorCounters.key (counters : NodeErrorCounters) : String ×ₗ String :=
  toLex (counters.node, counters.error)

namespace NodeErrorStatsProvider

def PREFIX : String := "/err"

/-- The filter of the listing: `PREFIX` and then a `/`. -/
def inFamily (name : String) : Bool :=
  match stripPrefix PREFIX name with
  | none => false
  | some rest => (stripPrefix "/" rest).isSome

def aliasParts (name : String) : Option (String × String) := do
  let rest ← (stripPrefix PREFIX name).bind (stripPrefix "/")
  let (node, error) ← splitOnce '/' rest
  if node ≠ "" ∧ error ≠ "" then some (node, error) else none

/-- The loop of `read_counts` over the rows, the first of which is row `row`. -/
def countsFrom (name : String) : (row : Nat) → List (List UInt64) → Except Error (List UInt64)
  | _, [] => .ok []
  | row, values :: rest =>
      match values with
      | [value] => (countsFrom name (row + 1) rest).map (value :: ·)
      | values =>
          .error (.unexpectedColumnCount (name ++ " row " ++ toString row) 1 values.length)

def readCounts (name : String) : Report (List UInt64) := do
  let rows ← readAs "counter_vector_simple" (·.simple?) name
  Prog.ofExcept (countsFrom name 0 rows)

/-- The loop over the aliases. An alias that vanished since the listing is passed over. -/
def readAliases : List String → Report (List NodeErrorCounters)
  | [] => pure []
  | name :: rest =>
      match aliasParts name with
      | none => readAliases rest
      | some (node, error) => do
          let counted ← (readCounts name).attempt
          match counted with
          | .ok counts => do
              let errors ← readAliases rest
              pure ({ node, error, counts } :: errors)
          | .error (.metricNotFound _) => readAliases rest
          | .error reason => Prog.throw reason

/-- `NodeErrorStatsProvider::report`. -/
def report : Report (Option NodeErrorStats) := do
  let listed ← readerNames
  let aliases := listed.filter inFamily
  if aliases = [] then pure none
  else
    let sampledAt ← instantNow
    let errors ← readAliases (sortByKey id aliases)
    pure (some { errors := sortByKey (·.key) errors, sampledAt })

/-! ## Aliases -/

/-- `name` is `/err/<node>/<error>` with both names. -/
structure Alias (name node error : String) : Prop where
  text : name = "/err/" ++ node ++ "/" ++ error
  hasNode : node ≠ ""
  bare : '/' ∉ node.toList
  hasError : error ≠ ""

def IsAlias (name : String) : Prop := ∃ node error, Alias name node error

/-- `name` begins like the names of the family. -/
def Begins (name : String) : Prop := ∃ rest, name = "/err/" ++ rest

theorem stripped_iff {name rest : String} :
    (∃ middle, stripPrefix PREFIX name = some middle ∧ stripPrefix "/" middle = some rest) ↔
      name = "/err/" ++ rest := by
  constructor
  · rintro ⟨middle, first, second⟩
    rw [stripPrefix_eq_some_iff.mp first,
      stripPrefix_eq_some_iff.mp second, ← String.append_assoc]
    rfl
  · intro same
    refine ⟨"/" ++ rest, stripPrefix_eq_some_iff.mpr ?_, stripPrefix_eq_some_iff.mpr rfl⟩
    rw [same, ← String.append_assoc]
    rfl

theorem inFamily_iff {name : String} : inFamily name = true ↔ Begins name := by
  unfold inFamily Begins
  simp only [← stripped_iff]
  cases stripPrefix PREFIX name with
  | none => simp
  | some middle => simp [Option.isSome_iff_exists]

theorem aliasParts_eq_some_iff {name node error : String} :
    aliasParts name = some (node, error) ↔ Alias name node error := by
  unfold aliasParts
  simp only [Option.bind_eq_bind, Option.bind_eq_some_iff, stripped_iff, Prod.exists,
    splitOnce_eq_some_iff, Option.ite_none_right_eq_some, Option.some.injEq, Prod.mk.injEq]
  constructor
  · rintro ⟨rest, text, first, second, ⟨split, bare⟩, ⟨nodeNamed, errorNamed⟩, rfl, rfl⟩
    refine ⟨?_, nodeNamed, bare, errorNamed⟩
    rw [text, ← String.toList_inj]
    simp [split]
  · intro spelled
    refine ⟨node ++ "/" ++ error, ?_, node, error, ⟨?_, spelled.bare⟩,
      ⟨spelled.hasNode, spelled.hasError⟩, rfl, rfl⟩
    · rw [spelled.text, ← String.toList_inj]
      simp
    · simp

theorem IsAlias.begins {name : String} (spelled : IsAlias name) : Begins name := by
  obtain ⟨node, error, parts⟩ := spelled
  refine ⟨node ++ "/" ++ error, ?_⟩
  rw [parts.text, ← String.toList_inj]
  simp

/-! ## Reading the aliases -/

variable {reader : StatsReader} {name : String}

/-- The rows have one column each, and `counts` is that column. -/
theorem countsFrom_ok_iff {row : Nat} {rows : List (List UInt64)} {counts : List UInt64} :
    countsFrom name row rows = .ok counts ↔ rows = counts.map fun count => [count] := by
  induction rows generalizing row counts with
  | nil => cases counts <;> simp [countsFrom]
  | cons values rest ih =>
      unfold countsFrom
      split
      · next value =>
          cases counted : countsFrom name (row + 1) rest with
          | error reason =>
              have ragged : ∀ others : List UInt64, rest ≠ others.map fun count => [count] := by
                intro others same
                cases counted.symm.trans (ih.mpr same)
              cases counts with
              | nil => simp [Except.map]
              | cons count others => simp [Except.map, ragged others]
          | ok others =>
              rw [ih.mp counted]
              cases counts with
              | nil => simp [Except.map]
              | cons count counts =>
                  have single : Function.Injective fun count : UInt64 => [count] :=
                    fun _ _ same => List.singleton_inj.mp same
                  simp [Except.map, List.map_inj_right single]
      · next wide =>
          refine iff_of_false (fun same => (by cases same)) fun same => ?_
          cases counts with
          | nil => cases same
          | cons count others =>
              rw [List.map_cons, List.cons.injEq] at same
              exact wide count same.1

theorem countsFrom_ne_metricNotFound {row : Nat} {rows : List (List UInt64)} {missing : String} :
    countsFrom name row rows ≠ .error (.metricNotFound missing) := by
  induction rows generalizing row with
  | nil => exact fun same => (by cases same)
  | cons values rest ih =>
      unfold countsFrom
      split
      · intro same
        cases counted : countsFrom name (row + 1) rest with
        | error reason =>
            rw [counted] at same
            cases same
            exact ih counted
        | ok others =>
            rw [counted] at same
            cases same
      · exact fun same => (by cases same)

/-- What one alias reads as. -/
def counted (reader : StatsReader) (name : String) : Except Error (List UInt64) := do
  let rows ← accepted "counter_vector_simple" (·.simple?) name (reader.read name)
  countsFrom name 0 rows

/-- The alias is gone since the listing. -/
def Vanished (reader : StatsReader) (name : String) : Prop :=
  ∃ missing, reader.read name = .error (.metricNotFound missing)

/-- The alias is a simple counter vector with one column per row. -/
def Column (reader : StatsReader) (name : String) (counts : List UInt64) : Prop :=
  reader.read name = .ok (.simple (counts.map fun count => [count]))

def Readable (reader : StatsReader) (name : String) : Prop :=
  Vanished reader name ∨ ∃ counts, Column reader name counts

theorem counted_ok_iff {counts : List UInt64} :
    counted reader name = .ok counts ↔ Column reader name counts := by
  unfold counted Column
  cases read : reader.read name with
  | error reason => simp [accepted, bind, Except.bind]
  | ok value =>
      cases kind : value.simple? with
      | none =>
          have other : ∀ rows, value ≠ .simple rows := by
            rintro rows rfl
            cases kind
          simp [accepted, bind, Except.bind, kind, other]
      | some rows =>
          rw [MetricValue.simple?_eq_some.mp kind]
          simp [accepted, MetricValue.simple?, bind, Except.bind, countsFrom_ok_iff]

theorem counted_vanished_iff {missing : String} :
    counted reader name = .error (.metricNotFound missing) ↔
      reader.read name = .error (.metricNotFound missing) := by
  unfold counted
  cases read : reader.read name with
  | error reason => simp [accepted, bind, Except.bind]
  | ok value =>
      cases kind : value.simple? with
      | none => simp [accepted, bind, Except.bind, kind]
      | some rows =>
          simp [accepted, bind, Except.bind, kind, countsFrom_ne_metricNotFound]

theorem run_attempt_readCounts {α : Type} {f : Except Error (List UInt64) → Report α} :
    reader.run ((readCounts name).attempt.bind f) = reader.run (f (counted reader name)) := by
  change reader.run ((((Prog.ofExcept (accepted "counter_vector_simple" (·.simple?) name
    (reader.read name)) : Report _).bind fun rows =>
      Prog.ofExcept (countsFrom name 0 rows)).attempt).bind f) = _
  unfold counted
  cases accepted "counter_vector_simple" (·.simple?) name (reader.read name) with
  | error reason => rfl
  | ok rows =>
      simp only [bind, Except.bind]
      rw [Prog.ofExcept, Prog.bind_ok]
      cases countsFrom name 0 rows <;> rfl

/-- The report's entry of a listed name. -/
def entry (reader : StatsReader) (name : String) : Option NodeErrorCounters :=
  match aliasParts name, counted reader name with
  | some (node, error), .ok counts => some { node, error, counts }
  | _, _ => none

/-- `counters` is the entry of the alias `name`, with the column that the alias reads as. -/
structure Entry (reader : StatsReader) (name : String) (counters : NodeErrorCounters) : Prop where
  named : Alias name counters.node counters.error
  column : Column reader name counters.counts

theorem entry_eq_some_iff {counters : NodeErrorCounters} :
    entry reader name = some counters ↔ Entry reader name counters := by
  have both : Entry reader name counters ↔
      aliasParts name = some (counters.node, counters.error) ∧
      counted reader name = .ok counters.counts := by
    rw [aliasParts_eq_some_iff, counted_ok_iff]
    exact ⟨fun given => ⟨given.named, given.column⟩, fun given => ⟨given.1, given.2⟩⟩
  rw [both]
  unfold entry
  cases aliasParts name with
  | none => simp
  | some parts =>
      obtain ⟨node, error⟩ := parts
      cases counted reader name with
      | error reason => simp
      | ok counts =>
          cases counters
          simp [and_assoc]

theorem isAlias_of_parts {node error : String} (parts : aliasParts name = some (node, error)) :
    IsAlias name := ⟨node, error, aliasParts_eq_some_iff.mp parts⟩

theorem not_isAlias_of_parts (parts : aliasParts name = none) : ¬ IsAlias name := by
  rintro ⟨node, error, spelled⟩
  rw [aliasParts_eq_some_iff.mpr spelled] at parts
  cases parts

/-- Readable aliases give their entries. -/
theorem run_readAliases_of_readable {names : List String}
    (readable : ∀ name ∈ names, IsAlias name → Readable reader name) :
    reader.run (readAliases names) = .ok (names.filterMap (entry reader)) := by
  induction names with
  | nil => rfl
  | cons name rest ih =>
      rw [List.forall_mem_cons] at readable
      have tail := ih readable.2
      unfold readAliases
      split
      · next parts =>
          have skipped : entry reader name = none := by simp [entry, parts]
          rw [List.filterMap_cons_none skipped]
          exact tail
      · next node error parts =>
          rw [Prog.bind_eq, run_attempt_readCounts]
          rcases readable.1 (isAlias_of_parts parts) with ⟨missing, vanished⟩ | ⟨counts, column⟩
          · have skipped : entry reader name = none := by
              simp [entry, parts, counted_vanished_iff.mpr vanished]
            rw [counted_vanished_iff.mpr vanished, List.filterMap_cons_none skipped]
            exact tail
          · have taken : entry reader name = some ⟨node, error, counts⟩ := by
              simp [entry, parts, counted_ok_iff.mpr column]
            rw [counted_ok_iff.mpr column, List.filterMap_cons_some taken]
            simp only [Prog.bind_eq]
            rw [StatsReader.run_bind, tail]
            rfl

/-- An alias that cannot be read ends the report. -/
theorem fails_readAliases {names : List String}
    (unreadable : ∃ name ∈ names, IsAlias name ∧ ¬ Readable reader name) :
    reader.Fails (readAliases names) := by
  induction names with
  | nil =>
      obtain ⟨_, member, _⟩ := unreadable
      cases member
  | cons name rest ih =>
      have later (passed : ¬ (IsAlias name ∧ ¬ Readable reader name)) :
          reader.Fails (readAliases rest) := by
        obtain ⟨other, member, unread⟩ := unreadable
        rcases List.mem_cons.mp member with rfl | behind
        · exact absurd unread passed
        · exact ih ⟨other, behind, unread⟩
      unfold readAliases
      split
      · next parts => exact later fun unread => not_isAlias_of_parts parts unread.1
      · next node error parts =>
          simp only [StatsReader.Fails, Prog.bind_eq]
          rw [run_attempt_readCounts]
          split
          · next counts read =>
              obtain ⟨reason, failed⟩ :=
                later fun unread => unread.2 (.inr ⟨counts, counted_ok_iff.mp read⟩)
              exact ⟨reason, by rw [StatsReader.run_bind, failed]⟩
          · next missing read =>
              exact later fun unread => unread.2 (.inl ⟨missing, counted_vanished_iff.mp read⟩)
          · next reason _ _ => exact ⟨reason, rfl⟩

/-! ## The published family -/

variable {listing : List String}

instance : DecidablePred IsAlias := fun name =>
  decidable_of_iff ((aliasParts name).isSome = true) (by
    rw [Option.isSome_iff_exists, Prod.exists]
    exact exists_congr fun node => exists_congr fun error => aliasParts_eq_some_iff)

/-- The report has one entry for every listed alias whose read succeeds, sorted. -/
structure Family (reader : StatsReader) (listing : List String) (stats : NodeErrorStats) :
    Prop where
  sorted : stats.errors.Pairwise fun left right => left.key ≤ right.key
  complete : ∃ arranged, List.Forall₂ (Entry reader) arranged stats.errors ∧
    arranged.Perm (listing.filter fun name => IsAlias name ∧ (reader.read name).isOk)

/-- What the module promises of a report over a listing that ends in `out`. -/
structure Reported (reader : StatsReader) (listing : List String)
    (out : Outcome Error (Option NodeErrorStats)) : Prop where
  absent : out = .ok none ↔ ∀ name ∈ listing, ¬ IsAlias name
  published : (∃ name ∈ listing, IsAlias name) →
    (∀ name ∈ listing, IsAlias name → Readable reader name) →
      ∃ stats, out = .ok (some stats) ∧ Family reader listing stats
  refused : (∃ name ∈ listing, IsAlias name ∧ ¬ Readable reader name) →
    ∃ reason, out = .error reason
  unordered : ∀ other : List String, other.Perm listing →
    { reader with names := .ok other }.run report = out

/-- The reading of the aliases does not look at the listing. -/
theorem run_readAliases_names {names : List String} {listed : Except Error (List String)} :
    { reader with names := listed }.run (readAliases names) = reader.run (readAliases names) := by
  induction names with
  | nil => rfl
  | cons name rest ih =>
      unfold readAliases
      split
      · exact ih
      · next node error parts =>
          have same : counted { reader with names := listed } name = counted reader name := rfl
          rw [Prog.bind_eq, run_attempt_readCounts, run_attempt_readCounts, same]
          split
          · rw [Prog.bind_eq, StatsReader.run_bind, StatsReader.run_bind, ih]
            rfl
          · exact ih
          · rfl

/-- The aliases are read off the listing in the order of their names. -/
theorem run_report (listed : reader.names = .ok listing) :
    reader.run report =
      if listing.filter inFamily = [] then .ok none
      else
        match reader.run (readAliases (sortByKey id (listing.filter inFamily))) with
        | .ok errors => .ok (some ⟨sortByKey (·.key) errors, reader.now⟩)
        | .error reason => .error reason
        | .panic => .panic
        | .pending => .pending := by
  simp only [report, Prog.bind_eq, readerNames, instantNow]
  rw [StatsReader.run_ask_bind_of_ok listed]
  split
  · rfl
  · rw [StatsReader.run_ask_bind_of_ok rfl, StatsReader.run_bind]
    cases reader.run (readAliases (sortByKey id (listing.filter inFamily))) <;> rfl

theorem run_report_of_perm {other : List String} (listed : reader.names = .ok listing)
    (perm : other.Perm listing) :
    { reader with names := .ok other }.run report = reader.run report := by
  have filtered : (other.filter inFamily).Perm (listing.filter inFamily) := perm.filter _
  have empty : other.filter inFamily = [] ↔ listing.filter inFamily = [] := by
    constructor
    · intro none
      exact (none ▸ filtered).symm.eq_nil
    · intro none
      exact (none ▸ filtered).eq_nil
  have sorted : sortByKey id (other.filter inFamily) = sortByKey id (listing.filter inFamily) :=
    eq_of_sorted_perm (fun _ _ _ _ same => same)
      ((sortByKey_perm _ _).trans (filtered.trans (sortByKey_perm _ _).symm))
      (sortByKey_pairwise _ _) (sortByKey_pairwise _ _)
  rw [run_report listed, run_report rfl, sorted, run_readAliases_names]
  simp only [empty]

theorem filterMap_entry :
    (listing.filter inFamily).filterMap (entry reader) = listing.filterMap (entry reader) := by
  rw [List.filterMap_filter]
  refine List.filterMap_congr fun name _ => ?_
  split
  · rfl
  · next outside =>
    symm
    rw [Option.eq_none_iff_forall_ne_some]
    intro counters taken
    have spelled : IsAlias name := ⟨_, _, (entry_eq_some_iff.mp taken).named⟩
    exact outside (inFamily_iff.mpr spelled.begins)

/-- Readable aliases are reported as the family. -/
theorem family_of_readable
    (readable : ∀ name ∈ listing, IsAlias name → Readable reader name) :
    Family reader listing
      ⟨sortByKey (·.key) ((sortByKey id (listing.filter inFamily)).filterMap (entry reader)),
        reader.now⟩ := by
  have read : (sortByKey NodeErrorCounters.key
      ((sortByKey id (listing.filter inFamily)).filterMap (entry reader))).Perm
        (listing.filterMap (entry reader)) := by
    have moved := (sortByKey_perm id (listing.filter inFamily)).filterMap (entry reader)
    rw [filterMap_entry] at moved
    exact (sortByKey_perm NodeErrorCounters.key _).trans moved
  have beside : List.Forall₂ (Entry reader)
      (listing.filter fun name => (entry reader name).isSome)
        (listing.filterMap (entry reader)) :=
    (forall₂_filterMap (f := entry reader) listing).imp fun _ _ => entry_eq_some_iff.mp
  have chosen : (listing.filter fun name => (entry reader name).isSome) =
      listing.filter fun name => IsAlias name ∧ (reader.read name).isOk := by
    refine List.filter_congr fun name member => ?_
    rw [Bool.eq_iff_iff, decide_eq_true_eq, Option.isSome_iff_exists]
    constructor
    · rintro ⟨counters, taken⟩
      have made := entry_eq_some_iff.mp taken
      exact ⟨⟨_, _, made.named⟩, by rw [made.column]; rfl⟩
    · rintro ⟨spelled, succeeds⟩
      rcases readable name member spelled with ⟨missing, vanished⟩ | ⟨counts, column⟩
      · rw [vanished] at succeeds
        cases succeeds
      · obtain ⟨node, error, parts⟩ := spelled
        exact ⟨⟨node, error, counts⟩, entry_eq_some_iff.mpr ⟨parts, column⟩⟩
  obtain ⟨arranged, perm, entries⟩ := exists_arranged beside read
  exact ⟨sortByKey_pairwise _ _, arranged, entries, chosen ▸ perm⟩

/-- The report keeps the module's promise exactly on the listings that have an alias, or no name
that begins like one. -/
theorem family_iff (reader : StatsReader) (listed : reader.names = .ok listing) :
    Reported reader listing (reader.run report) ↔
      (∃ name ∈ listing, IsAlias name) ∨ ∀ name ∈ listing, ¬ Begins name := by
  have shape := run_report listed
  have empty : listing.filter inFamily = [] ↔ ∀ name ∈ listing, ¬ Begins name := by
    simp [List.filter_eq_nil_iff, inFamily_iff]
  constructor
  · intro reported
    by_cases absent : ∀ name ∈ listing, ¬ Begins name
    · exact .inr absent
    · refine .inl ?_
      by_contra noAlias
      have none := reported.absent.mpr fun name member spelled => noAlias ⟨name, member, spelled⟩
      rw [if_neg (mt empty.mp absent)] at shape
      rw [shape] at none
      split at none <;> cases none
  · intro condition
    have none_iff : (∀ name ∈ listing, ¬ Begins name) ↔ ∀ name ∈ listing, ¬ IsAlias name := by
      constructor
      · exact fun absent name member spelled => absent name member spelled.begins
      · intro noAlias
        rcases condition with ⟨name, member, spelled⟩ | absent
        · exact absurd spelled (noAlias name member)
        · exact absent
    have nonempty (given : ∃ name ∈ listing, IsAlias name) : listing.filter inFamily ≠ [] := by
      obtain ⟨name, member, spelled⟩ := given
      exact fun none => empty.mp none name member spelled.begins
    constructor
    case absent =>
      rw [← none_iff, ← empty, shape]
      split
      · next none => simp [none]
      · next found =>
        refine iff_of_false ?_ found
        split <;> exact fun same => (by cases same)
    case published =>
      intro given readable
      refine ⟨_, ?_, family_of_readable readable⟩
      rw [shape, if_neg (nonempty given), run_readAliases_of_readable]
      intro name member
      exact readable name (List.mem_filter.mp (mem_sortByKey.mp member)).1
    case refused =>
      rintro ⟨name, member, spelled, unread⟩
      have kept : name ∈ sortByKey id (listing.filter inFamily) :=
        mem_sortByKey.mpr (List.mem_filter.mpr ⟨member, inFamily_iff.mpr spelled.begins⟩)
      obtain ⟨reason, failed⟩ := fails_readAliases ⟨name, kept, spelled, unread⟩
      exact ⟨reason, by rw [shape, if_neg (nonempty ⟨name, member, spelled⟩), failed]⟩
    case unordered => exact fun other perm => run_report_of_perm listed perm

/-- Two aliases out of order, one of them vanished, and a name without an error. -/
def thinned : StatsReader where
  names := .ok ["/err/ip4-local/bad-length", "/err/ip4-local", "/err/arp/late", "/sys/heartbeat"]
  read name :=
    if name = "/err/ip4-local/bad-length" then .ok (.simple [[3], [4]])
    else .error (.metricNotFound name)
  now := 5

theorem family_iff_thinned :
    thinned.run report = .ok (some ⟨[⟨"ip4-local", "bad-length", [3, 4]⟩], 5⟩) ∧
      Reported thinned
        ["/err/ip4-local/bad-length", "/err/ip4-local", "/err/arp/late", "/sys/heartbeat"]
        (thinned.run report) := by
  refine ⟨by decide +kernel, (family_iff thinned rfl).mpr (.inl ?_)⟩
  exact ⟨"/err/ip4-local/bad-length", by decide, by decide +kernel⟩

/-- One name that begins like an alias and is none: the report is there, and it is empty. -/
def unaliased : StatsReader where
  names := .ok ["/err/ip4-local"]
  read name := .error (.metricNotFound name)
  now := 0

theorem unaliased_not_reported :
    unaliased.run report = .ok (some ⟨[], 0⟩) ∧
      ¬ Reported unaliased ["/err/ip4-local"] (unaliased.run report) := by
  have ended : unaliased.run report = .ok (some ⟨[], 0⟩) := by decide +kernel
  have bare : ∀ name ∈ ["/err/ip4-local"], ¬ IsAlias name := by decide +kernel
  refine ⟨ended, fun reported => ?_⟩
  cases ended.symm.trans (reported.absent.mpr bare)

end NodeErrorStatsProvider

end Netsystem.Stats
