import Netsystem.Stats.Node
import Netsystem.Stats.Reports
import Netsystem.Stats.Symlinks

/-!
# Aliases of the counters of a node

A counter of a node is published twice: as a column of the vector `/sys/node/<counter>`, and under
the name `/nodes/<node>/<counter>`, a symlink to that vector with the slot of the node.
`NodeStats::node` takes the column out of a report of the family (`column`), the client crops the
rows of the vector on its way back over the symlink (`MetricValue::column`). `alias_agrees`: the
two say the same.
-/

namespace Netsystem.Stats

open Prog

/-! ## Reading over a symlink -/

/-- The first entry named `linked` is a symlink to the first entry named `name`, with the column
`slot`; and the end of the chain of symlinks from there is in the reader's reach. -/
structure Linked (mapping : Bytes) (linked name : String) (slot : Nat) : Prop where
  chain : ∃ index columns final directoryType,
    FirstNamed mapping (directoryAt mapping) linked index ∧
      (entryAt mapping (directoryAt mapping) index).type = .ok .symlink ∧
        (entryAt mapping (directoryAt mapping) index).data.toNat / 2 ^ 32 = slot ∧
          FirstNamed mapping (directoryAt mapping) name
            ((entryAt mapping (directoryAt mapping) index).data.toNat % 2 ^ 32) ∧
            Hops mapping (directoryAt mapping) columns
              ((entryAt mapping (directoryAt mapping) index).data.toNat % 2 ^ 32) final ∧
              final.type = .ok directoryType ∧ columns.length + 1 < SYMLINK_LIMIT

section Linking

variable {mapping : Bytes} {base : Nat} {linked name : String} {slot : Nat} {value : MetricValue}

/-- A symlink to an entry that is none. -/
theorem linked_of_plain {index target : Nat} {directoryType : DirectoryType}
    (first : FirstNamed mapping (directoryAt mapping) linked index)
    (link : (entryAt mapping (directoryAt mapping) index).type = .ok .symlink)
    (data : (entryAt mapping (directoryAt mapping) index).data.toNat = target + slot * 2 ^ 32)
    (small : target < 2 ^ 32) (found : FirstNamed mapping (directoryAt mapping) name target)
    (known : (entryAt mapping (directoryAt mapping) target).type = .ok directoryType)
    (plain : directoryType ≠ .symlink) : Linked mapping linked name slot := by
  have low : (entryAt mapping (directoryAt mapping) index).data.toNat % 2 ^ 32 =
      target := by omega
  have high : (entryAt mapping (directoryAt mapping) index).data.toNat / 2 ^ 32 = slot := by omega
  have landed : Hops mapping (directoryAt mapping) [] target
      (entryAt mapping (directoryAt mapping) target) :=
    .here found.named.1 fun same => plain (Except.ok.inj (known.symm.trans same))
  exact ⟨index, [], _, directoryType, first, link, high, low ▸ found, low ▸ landed, known,
    by decide⟩

/-- What an entry decodes to does not depend on the name that is asked for. -/
theorem exec_decodeValue_of_other {entry : DirectoryEntry} {directoryType : DirectoryType}
    {other : String} (typed : entry.type = .ok directoryType)
    (decoded : (decodeValue (whole mapping) base entry name directoryType).exec quiet mapping =
      (.ok value, mapping)) :
    (decodeValue (whole mapping) base entry other directoryType).exec quiet mapping =
      (.ok value, mapping) := by
  have sound := (decodeValue_verdict name typed).sound decoded
  rw [(decodeValue_verdict other typed).exec sound, ← (decodeValue_verdict name typed).exec sound,
    decoded]

/-- A symlink is read as the column of what it leads to. -/
theorem exec_read_of_linked (ready : Ready mapping)
    (sound : VectorSound mapping (headerAt mapping).base (headerAt mapping).directoryVector)
    (links : Linked mapping linked name slot)
    (reads : (read (whole mapping) name).exec quiet mapping = (.ok value, mapping)) :
    (read (whole mapping) linked).exec quiet mapping =
      (lift (value.column slot)).exec quiet mapping := by
  obtain ⟨index, columns, final, directoryType, first, link, rfl, target, hops, known, near⟩ :=
    links.chain
  have size : (directoryAt mapping).elementSize = sizeOfDirectoryEntry := rfl
  rw [exec_read_of_firstNamed ready sound target,
    hops.exec_decodeEntry size (Nat.lt_of_succ_lt near) known] at reads
  rcases decoded :
    (decodeValue (whole mapping) (headerAt mapping).base final name directoryType).exec
    quiet mapping with ⟨outcome, mid⟩
  rw [exec_bind, decoded] at reads
  cases outcome with
  | ok inner =>
      obtain rfl := mapping_of_exec decoded
      cases cropped : inner.crop columns with
      | ok outer =>
          simp only [cropped, lift_ok, exec_done, Prod.mk.injEq, Outcome.ok.injEq] at reads
          obtain ⟨rfl, -⟩ := reads
          rw [exec_read_of_firstNamed ready sound first,
            (Hops.hop first.named.1 link hops).exec_decodeEntry size near known,
            exec_bind_of_ok (exec_decodeValue_of_other known decoded), MetricValue.crop, cropped]
          rfl
      | error reason =>
          simp only [cropped] at reads
          cases reads
  | error reason => cases reads
  | panic => cases reads
  | pending => cases reads

end Linking

/-! ## Columns -/

/-- Where every row has a cell in the slot, cropping leaves these cells. -/
theorem cropRows_of_cells {α : Type} {rows : List (List α)} {slot : Nat} {values : List α}
    (cells : values.map some = rows.map fun row => row[slot]?) :
    cropRows rows slot = .ok (values.map fun value => [value]) := by
  induction rows generalizing values with
  | nil =>
      obtain rfl : values = [] := List.map_eq_nil_iff.mp cells
      rfl
  | cons row rest ih =>
      cases values with
      | nil => cases cells
      | cons value values =>
          rw [List.map_cons, List.map_cons, List.cons.injEq] at cells
          obtain ⟨cell, others⟩ := cells
          rw [cropRows_cons cell.symm, ih others]
          rfl

/-! ## Reports of a mapping that nobody writes -/

/-- The answers of the mapping to the questions of a projection. -/
def answering (mapping : Bytes) : Handler Query Query.Ret Unit
  | .names, _, answer, _ => (names (whole mapping)).exec quiet mapping = (ending answer, mapping)
  | .read name, _, answer, _ =>
      (read (whole mapping) name).exec quiet mapping = (ending answer, mapping)
  | .now, _, _, _ => True

/-- The values of the reader are those of the mapping. -/
structure Tells (mapping : Bytes) (reader : StatsReader) : Prop where
  names : ∀ listing, reader.names = .ok listing →
    (names (whole mapping)).exec quiet mapping = (.ok listing, mapping)
  read : ∀ name value, reader.read name = .ok value →
    (read (whole mapping) name).exec quiet mapping = (.ok value, mapping)

section Reporting

variable {α : Type} {mapping mapping' : Bytes} {clock : Bytes → Nat}

/-- A report that asks nothing twice ends as over a reader whose values are those of the mapping,
or it faults. -/
theorem report_tells {projection : Report α} (once : projection.Once fun _ => False)
    {out : Outcome Error α}
    (run : (StatsClient.report (whole mapping) projection).exec (beside quiet clock) mapping =
      (out, mapping')) :
    (∃ reader, Tells mapping reader ∧ reader.run projection = out) ∨ out = .panic := by
  have sound : ∀ query (state : Unit) s answer s', s = mapping →
      (StatsClient.method (whole mapping) query).exec (beside quiet clock) s = (.ok answer, s') →
        ∃ state', answering mapping query state answer state' ∧ s' = mapping := by
    rintro query state s answer s' rfl answered
    cases query with
    | names =>
        have ended := ending_of_exec_attempt answered
        obtain rfl := mapping_of_exec ended
        exact ⟨(), ended, rfl⟩
    | read name =>
        have ended := ending_of_exec_attempt answered
        obtain rfl := mapping_of_exec ended
        exact ⟨(), ended, rfl⟩
    | now =>
        cases answered
        exact ⟨(), trivial, rfl⟩
  have asked :=
    runs_of_exec_expand (t := ()) sound (method_answers_or_crashes (whole mapping)) rfl run
  refine asked.imp_left fun asked => ?_
  obtain ⟨_, asked, -⟩ := asked
  obtain ⟨reader, ended, names, reads⟩ := exists_reader_of_runs once asked
  refine ⟨reader, ⟨fun listing listed => ?_, fun name value read => ?_⟩, ended⟩
  · obtain ⟨_, _, told⟩ := names listing listed
    exact told
  · obtain ⟨_, _, told⟩ := reads name value read
    exact told

end Reporting

/-! ## The counters of a node -/

/-- A report with a family was made of vectors that the reader gave. -/
theorem NodeStatsProvider.published_of_report {reader : StatsReader} {stats : NodeStats}
    (ended : reader.run NodeStatsProvider.report = .ok (some stats)) :
    NodeStatsProvider.Published reader stats := by
  cases listed : reader.names with
  | error reason =>
      simp only [report, bind_eq, readerNames] at ended
      rw [StatsReader.run_ask_bind, StatsReader.answer, listed] at ended
      cases ended
  | ok listing =>
      by_cases present : NAMES ∈ listing
      · rcases published_or_fails listed present with
          ⟨found, workers, published, counted⟩ | failed
        · rw [run_report_of_published listed present published counted] at ended
          split at ended
          · split at ended
            · cases ended
            · cases ended
              exact published
          · cases ended
        · obtain ⟨reason, failed⟩ := failed
          cases failed.symm.trans ended
      · simp only [report, bind_eq, readerNames] at ended
        rw [StatsReader.run_ask_bind_of_ok listed, if_pos present] at ended
        cases ended

section Agreeing

variable {mapping : Bytes} {clock : Bytes → Nat} {stats : NodeStats} {linked name : String}
    {slot : Nat}

/-- **Aliases.** On a mapping that nobody writes, a name that a report of the family carries once
has its own counters, and every symlink to one of the vectors with the slot of that name is read
as that counter of the node, one value for each thread. -/
theorem alias_agrees (ready : Ready mapping)
    (sound : VectorSound mapping (headerAt mapping).base (headerAt mapping).directoryVector)
    (reported : (StatsClient.report (whole mapping) NodeStatsProvider.report).exec
      (beside quiet clock) mapping = (.ok (some stats), mapping))
    (single : stats.names.count name = 1) (placed : stats.names[slot]? = some name) :
    ∃ usage, stats.node name = .done (.ok (some usage)) ∧ usage.name = name ∧
      ∀ counter, Linked mapping linked (NodeStatsProvider.entry counter) slot →
        (read (whole mapping) linked).exec quiet mapping =
          (.ok (.simple ((usage.counter counter).map fun value => [value])), mapping) := by
  rcases report_tells NodeStatsProvider.once_report reported with ⟨reader, tells, ended⟩ | fault
  · have published := NodeStatsProvider.published_of_report ended
    obtain ⟨usage, found, located⟩ := NodeStats.located published.columns name
    obtain ⟨usage, rfl⟩ := Option.isSome_iff_exists.mp (located.single.mpr single)
    refine ⟨usage, found, located.named usage rfl, fun counter links => ?_⟩
    have given := tells.read _ _ (published.counter counter)
    have cropped := cropRows_of_cells (located.cells usage rfl slot placed counter)
    rw [exec_read_of_linked ready sound links given, MetricValue.column, cropped]
    rfl
  · cases fault

end Agreeing

/-! ## Two nodes -/

/-- An entry of a directory. -/
def namedEntry (directoryType data : Nat) (name : String) : Bytes :=
  leBytes 8 directoryType ++ (leBytes 8 data ++
    (toUtf8 name ++ List.replicate (128 - (toUtf8 name).length) 0))

/-- The family of two nodes on one thread, with one vector under its four names, and the alias of
a counter of the second. -/
def twoNodes : Bytes :=
  [leBytes 8 2, leBytes 8 0, leBytes 8 0, leBytes 8 0, leBytes 8 120,
    leBytes 8 2, leBytes 8 64, leBytes 8 66, [109, 0, 110, 0, 0, 0, 0, 0],
    leBytes 8 1, leBytes 8 96, leBytes 8 2, leBytes 8 7, leBytes 8 9,
    leBytes 8 7, namedEntry 4 48 "/sys/node/names", namedEntry 2 80 "/sys/node/clocks",
    namedEntry 2 80 "/sys/node/vectors", namedEntry 2 80 "/sys/node/calls",
    namedEntry 2 80 "/sys/node/suspends", namedEntry 1 0 "/sys/num_worker_threads",
    namedEntry 6 (3 + 2 ^ 32) "/nodes/n/calls"].flatten

def twoNodesTable : List (String × MetricValue) :=
  [("/sys/node/names", .names ["m", "n"]), ("/sys/node/clocks", .simple [[7, 9]]),
    ("/sys/node/vectors", .simple [[7, 9]]), ("/sys/node/calls", .simple [[7, 9]]),
    ("/sys/node/suspends", .simple [[7, 9]]), ("/sys/num_worker_threads", .scalar 0),
    ("/nodes/n/calls", .simple [[9]])]

def twoNodesStats : NodeStats :=
  ⟨["m", "n"], [[7, 9]], [[7, 9]], [[7, 9]], [[7, 9]], 0⟩

theorem directoryAt_twoNodes : directoryAt twoNodes = ⟨120, 7, 8, 144⟩ := by decide +kernel

theorem nameText_twoNodes : ∀ index (bound : index < twoNodesTable.length),
    (entryAt twoNodes ⟨120, 7, 8, 144⟩ index).nameText = .ok twoNodesTable[index].1 := by
  decide +kernel

theorem element_twoNodes {index : Nat} (bound : index < 7) :
    ElementInside twoNodes ⟨120, 7, 8, 144⟩ index := by
  have long : twoNodes.length = 1128 := by decide +kernel
  have inside : 120 + index * 144 + 144 ≤ 1128 := by omega
  exact ⟨bound, inside.trans_eq long.symm, inside.trans_lt (by decide)⟩

/-- What the entries of the family decode to. -/
theorem value_twoNodes {index : Nat} (bound : index < 6) : ∃ directoryType value,
    (entryAt twoNodes ⟨120, 7, 8, 144⟩ index).type = .ok directoryType ∧
      directoryType ≠ .symlink ∧ (twoNodesTable.map Prod.snd)[index]? = some value ∧
        (decodeValue (whole twoNodes) 0 (entryAt twoNodes ⟨120, 7, 8, 144⟩ index) ""
          directoryType).exec quiet twoNodes = (.ok value, twoNodes) :=
  match index, bound with
  | 0, _ => ⟨.nameVector, _, by decide +kernel, nofun, rfl, exec_quiet_eq (by decide +kernel)⟩
  | 1, _ | 2, _ | 3, _ | 4, _ =>
      ⟨.counterVectorSimple, _, by decide +kernel, nofun, rfl, exec_quiet_eq (by decide +kernel)⟩
  | 5, _ => ⟨.scalarIndex, _, by decide +kernel, nofun, rfl, exec_quiet_eq (by decide +kernel)⟩

theorem exec_plain_twoNodes (name : String) (hops : Nat) {index : Nat} (bound : index < 6)
    {value : MetricValue} (listed : (twoNodesTable.map Prod.snd)[index]? = some value) :
    (decodeEntry (whole twoNodes) 0 ⟨120, 7, 8, 144⟩ name (hops + 1) index).exec quiet twoNodes =
      (.ok value, twoNodes) := by
  obtain ⟨directoryType, same, known, plain, given, decoded⟩ := value_twoNodes bound
  obtain rfl := Option.some.inj (given.symm.trans listed)
  rw [exec_decodeEntry_plain rfl (element_twoNodes (bound.trans (by decide))) known plain]
  exact exec_decodeValue_of_other known decoded

theorem alias_twoNodes : (entryAt twoNodes ⟨120, 7, 8, 144⟩ 6).type = .ok .symlink ∧
    (entryAt twoNodes ⟨120, 7, 8, 144⟩ 6).data.toNat = 3 + 1 * 2 ^ 32 := by decide +kernel

theorem tabled_twoNodes : Tabled twoNodes twoNodesTable where
  ready := ⟨by decide +kernel, by decide +kernel, by decide +kernel⟩
  sound := ⟨⟨by decide +kernel, by decide +kernel, by decide +kernel⟩, by decide +kernel⟩
  length := by rw [directoryAt_twoNodes]; rfl
  named index bound := by
    have text := nameText_twoNodes index bound
    rw [directoryAt_twoNodes]
    exact ⟨⟨element_twoNodes bound, _, text⟩, by rw [textAt, text]; rfl⟩
  decoded index bound _ := by
    have base : (headerAt twoNodes).base = 0 := by decide +kernel
    rw [directoryAt_twoNodes, base]
    rcases Nat.lt_or_ge index 6 with plain | last
    · have listed : (twoNodesTable.map Prod.snd)[index]? = some twoNodesTable[index].2 := by
        rw [List.getElem?_map, List.getElem?_eq_getElem bound]
        rfl
      exact exec_plain_twoNodes _ 15 plain listed
    · obtain rfl : index = 6 := by
        have small : index < 7 := bound
        omega
      obtain ⟨link, data⟩ := alias_twoNodes
      have target : (3 + 1 * 2 ^ 32) % 2 ^ 32 = 3 ∧ (3 + 1 * 2 ^ 32) / 2 ^ 32 = 1 := by decide
      refine (exec_decodeEntry_symlink rfl (element_twoNodes bound) link 15).trans ?_
      rw [data, target.1, target.2, exec_bind_of_ok (exec_plain_twoNodes _ 14 (by decide) rfl)]
      rfl

theorem linked_twoNodes :
    Linked twoNodes "/nodes/n/calls" (NodeStatsProvider.entry .calls) 1 := by
  obtain ⟨link, data⟩ := alias_twoNodes
  have first : FirstNamed twoNodes (directoryAt twoNodes) "/nodes/n/calls" 6 :=
    @Tabled.firstNamed twoNodes _ 6 tabled_twoNodes (by decide) (by decide +kernel)
  have target : FirstNamed twoNodes (directoryAt twoNodes) (NodeStatsProvider.entry .calls) 3 :=
    @Tabled.firstNamed twoNodes _ 3 tabled_twoNodes (by decide) (by decide +kernel)
  have known : (entryAt twoNodes ⟨120, 7, 8, 144⟩ 3).type =
      .ok .counterVectorSimple := by decide +kernel
  rw [← directoryAt_twoNodes] at link data known
  exact @linked_of_plain twoNodes _ _ 1 6 3 .counterVectorSimple first link data
    (by decide) target known nofun

theorem report_twoNodes :
    (StatsClient.report (whole twoNodes) NodeStatsProvider.report).exec (beside quiet fun _ => 0)
      twoNodes = (.ok (some twoNodesStats), twoNodes) :=
  ((tabled_twoNodes.mirrors 0).report NodeStatsProvider.report).trans
    (congrArg (·, twoNodes) (by decide +kernel))

/-- The alias of the second node and its column are the same counter. -/
theorem alias_agrees_twoNodes : ∃ usage, twoNodesStats.node "n" = .done (.ok (some usage)) ∧
    (read (whole twoNodes) "/nodes/n/calls").exec quiet twoNodes =
      (.ok (.simple (usage.calls.map fun value => [value])), twoNodes) := by
  have single : twoNodesStats.names.count "n" = 1 := by decide +kernel
  have placed : twoNodesStats.names[1]? = some "n" := rfl
  obtain ⟨usage, found, -, agrees⟩ := alias_agrees tabled_twoNodes.ready tabled_twoNodes.sound
    report_twoNodes single placed
  exact ⟨usage, found, agrees .calls linked_twoNodes⟩

end Netsystem.Stats
