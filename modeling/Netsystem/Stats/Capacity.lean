import Netsystem.Reserving
import Netsystem.Stats.Totality

/-!
# What the stats client reserves

The functions of `hammer-stats-client/src/client.rs` with their `Vec::with_capacity` calls.
`erase_names` and `erase_read` tie them to `names` and `read`: the reservations aside, they are
the same programs. `resolve` hands on the length word of a vector as it stands in the mapping and
no caller compares it with the mapping before it reserves; `NamesFit` and `ReadFits` say of the
bytes of a mapping when the reserved counts are nevertheless covered.
-/

namespace Netsystem.Stats

namespace Capacity

abbrev Reserver (α : Type) : Type := Prog (Reserving Load) (Reserving.Ret fun _ => Bytes) Error α

/-- `Vec::with_capacity(vector.len())`: the elements are read from the mapping from the vector's
data on. -/
def withCapacity (mapping : Slice) (vector : PublishedVector) : Reserver Unit :=
  Prog.reserve vector.length (mapping.length - vector.dataOffset)

/-- `inner_u64_vector`. -/
def innerU64Vector (mapping : Slice) (base : Nat) (outer : PublishedVector) (row : Nat) :
    Reserver (Option (List UInt64)) := do
  match ← (innerVector mapping base outer row sizeOfU64).plain with
  | none => pure none
  | some inner => do
      withCapacity mapping inner
      let values ← Prog.collectFrom (fun column => (inner.u64 mapping column).plain) 0
        inner.length
      pure (some values)

def simpleRow (mapping : Slice) (base : Nat) (outer : PublishedVector) (row : Nat) :
    Reserver (List UInt64) := do
  let values ← innerU64Vector mapping base outer row
  pure (values.getD [])

def combinedRow (mapping : Slice) (base : Nat) (outer : PublishedVector) (row : Nat) :
    Reserver (List Counter) := do
  match ← (innerVector mapping base outer row sizeOfCounter).plain with
  | none => pure []
  | some inner => do
      withCapacity mapping inner
      Prog.collectFrom (fun column => (readCounter inner mapping column).plain) 0 inner.length

/-- `name_vector`. -/
def nameVector (mapping : Slice) (base : Nat) (entry : DirectoryEntry) :
    Reserver (List String) := do
  let pointer ← (lift entry.nameVectorPointer).plain
  let outer ← (PublishedVector.resolve mapping base pointer sizeOfPointer).plain
  withCapacity mapping outer
  Prog.collectFrom (fun index => (nameElement mapping base outer index).plain) 0 outer.length

/-- The arms of `decode_entry` for entries that are not symlinks. -/
def decodeValue (mapping : Slice) (base : Nat) (entry : DirectoryEntry) (name : String) :
    DirectoryType → Reserver MetricValue
  | .counterVectorSimple => do
      let vector ← (vectorOf mapping base entry).plain
      withCapacity mapping vector
      let rows ← Prog.collectFrom (simpleRow mapping base vector) 0 vector.length
      pure (.simple rows)
  | .counterVectorCombined => do
      let vector ← (vectorOf mapping base entry).plain
      withCapacity mapping vector
      let rows ← Prog.collectFrom (combinedRow mapping base vector) 0 vector.length
      pure (.combined rows)
  | .nameVector => do
      let names ← nameVector mapping base entry
      pure (.names names)
  -- a scalar, a gauge or an unsupported type: nothing to reserve
  | directoryType => (Stats.decodeValue mapping base entry name directoryType).plain

/-- `decode_entry` with `hops` symlink hops left. -/
def decodeEntry (mapping : Slice) (base : Nat) (directory : PublishedVector) (name : String) :
    (hops index : Nat) → Reserver MetricValue
  | 0, _ => .throw (.symlinkCycle name SYMLINK_LIMIT)
  | hops + 1, index => do
      let entry ← (readEntry directory mapping index).plain
      let directoryType ← (lift entry.type).plain
      if directoryType = .symlink then do
        let (target, column) ← (lift entry.symlink).plain
        let value ← decodeEntry mapping base directory name hops target
        (lift (value.column column)).plain
      else decodeValue mapping base entry name directoryType

abbrev Decoder (α : Type) : Type := Slice → Nat → PublishedVector → Reserver α

/-- The attempts left of `with_published_directory`. -/
def publishedAttempts {α : Type} (mapping : Slice) (operation : String) (decode : Decoder α) :
    Nat → Reserver α
  | 0 => .throw (.retryExhausted operation RETRY_LIMIT)
  | attempts + 1 => do
      let header ← (readHeader .opening mapping).plain
      (lift header.validateVersion).plain
      if header.isWriteInProgress then publishedAttempts mapping operation decode attempts
      else do
        let directory ← (PublishedVector.resolve mapping header.base header.directoryVector
          sizeOfDirectoryEntry).plain
        let value ← decode mapping header.base directory
        let closing ← (readHeader .closing mapping).plain
        (lift closing.validateVersion).plain
        if closing.isWriteInProgress = false ∧ closing.epoch = header.epoch then pure value
        else publishedAttempts mapping operation decode attempts

/-- The closure of `StatsClient::names`. -/
def decodeNames : Decoder (List String) := fun mapping _ directory => do
  withCapacity mapping directory
  Prog.collectFrom (fun index => (entryName directory mapping index).plain) 0 directory.length

/-- The closure of `StatsClient::read`: `find_entry` reserves nothing. -/
def decodeNamed (name : String) : Decoder MetricValue := fun mapping base directory => do
  match ← (findEntry directory mapping name).plain with
  | none => .throw (.metricNotFound name)
  | some index => decodeEntry mapping base directory name SYMLINK_LIMIT index

/-- `StatsClient::names`. -/
def names (mapping : Slice) : Reserver (List String) :=
  publishedAttempts mapping "names" decodeNames RETRY_LIMIT

/-- `StatsClient::read`. -/
def read (mapping : Slice) (name : String) : Reserver MetricValue :=
  publishedAttempts mapping "read" (decodeNamed name) RETRY_LIMIT

open Prog

/-! ## The same programs -/

section Erase

variable {mapping : Slice} {base : Nat}

theorem erase_withCapacity {vector : PublishedVector} :
    (withCapacity mapping vector).erase = .done (.ok ()) := erase_reserve

theorem erase_simpleRow {outer : PublishedVector} {row : Nat} :
    (simpleRow mapping base outer row).erase = Stats.simpleRow mapping base outer row := by
  simp only [simpleRow, innerU64Vector, Stats.simpleRow, Stats.innerU64Vector, bind_eq, pure_eq,
    erase_bind, erase_plain, erase_done]
  congr 2
  funext inner
  cases inner with
  | none => exact erase_done
  | some inner =>
      simp only [erase_bind, erase_withCapacity, bind_ok, erase_collect_plain, erase_done]

theorem erase_combinedRow {outer : PublishedVector} {row : Nat} :
    (combinedRow mapping base outer row).erase = Stats.combinedRow mapping base outer row := by
  simp only [combinedRow, Stats.combinedRow, bind_eq, pure_eq, erase_bind, erase_plain]
  congr 1
  funext inner
  cases inner with
  | none => exact erase_done
  | some inner => simp only [erase_bind, erase_withCapacity, bind_ok, erase_collect_plain]

theorem erase_nameVector {entry : DirectoryEntry} :
    (nameVector mapping base entry).erase = Stats.nameVector mapping base entry := by
  simp only [nameVector, Stats.nameVector, bind_eq, erase_bind, erase_plain, erase_withCapacity,
    bind_ok, erase_collect_plain]

theorem erase_decodeValue {entry : DirectoryEntry} {name : String}
    (directoryType : DirectoryType) :
    (decodeValue mapping base entry name directoryType).erase =
      Stats.decodeValue mapping base entry name directoryType := by
  cases directoryType with
  | counterVectorSimple =>
      simp only [decodeValue, Stats.decodeValue, bind_eq, pure_eq, erase_bind, erase_plain,
        erase_withCapacity, bind_ok, erase_collectFrom, erase_simpleRow, erase_done]
  | counterVectorCombined =>
      simp only [decodeValue, Stats.decodeValue, bind_eq, pure_eq, erase_bind, erase_plain,
        erase_withCapacity, bind_ok, erase_collectFrom, erase_combinedRow, erase_done]
  | nameVector =>
      simp only [decodeValue, Stats.decodeValue, bind_eq, pure_eq, erase_bind, erase_nameVector,
        erase_done]
  | scalarIndex => exact erase_plain _
  | gauge => exact erase_plain _
  | illegal => exact erase_plain _
  | empty => exact erase_plain _
  | symlink => exact erase_plain _
  | histogramLog2 => exact erase_plain _
  | ringBuffer => exact erase_plain _

theorem erase_decodeEntry {directory : PublishedVector} {name : String} (hops index : Nat) :
    (decodeEntry mapping base directory name hops index).erase =
      Stats.decodeEntry mapping base directory name hops index := by
  induction hops generalizing index with
  | zero => exact erase_throw
  | succ hops ih =>
      simp only [decodeEntry, Stats.decodeEntry, bind_eq, erase_bind, erase_plain]
      congr 1
      funext entry
      congr 1
      funext directoryType
      split
      · simp only [erase_bind, ih, erase_plain]
      · exact erase_decodeValue directoryType

theorem erase_publishedAttempts {α : Type} {operation : String} {decode : Decoder α}
    {erased : Stats.Decoder α}
    (decoded : ∀ base directory, (decode mapping base directory).erase =
      erased mapping base directory)
    (attempts : Nat) :
    (publishedAttempts mapping operation decode attempts).erase =
      Stats.publishedAttempts mapping operation erased attempts := by
  induction attempts with
  | zero => exact erase_throw
  | succ attempts ih =>
      simp only [publishedAttempts, Stats.publishedAttempts, bind_eq, erase_bind, erase_plain]
      congr 1
      funext header
      congr 1
      funext _
      split
      · exact ih
      · simp only [erase_bind, erase_plain, decoded]
        congr 1
        funext directory
        congr 1
        funext value
        congr 1
        funext closing
        congr 1
        funext _
        split
        · exact erase_done
        · exact ih

theorem erase_decodeNames {directory : PublishedVector} :
    (decodeNames mapping base directory).erase = Stats.decodeNames mapping base directory := by
  simp only [decodeNames, Stats.decodeNames, bind_eq, erase_bind, erase_withCapacity, bind_ok,
    erase_collect_plain]

theorem erase_decodeNamed {directory : PublishedVector} {name : String} :
    (decodeNamed name mapping base directory).erase =
      Stats.decodeNamed name mapping base directory := by
  simp only [decodeNamed, Stats.decodeNamed, bind_eq, erase_bind, erase_plain]
  congr 1
  funext found
  cases found with
  | none => exact erase_throw
  | some index => exact erase_decodeEntry SYMLINK_LIMIT index

/-- The reservations aside, these are the calls of the client. -/
theorem erase_names : (names mapping).erase = Stats.names mapping :=
  erase_publishedAttempts (fun _ _ => erase_decodeNames) RETRY_LIMIT

theorem erase_read {name : String} : (read mapping name).erase = Stats.read mapping name :=
  erase_publishedAttempts (fun _ _ => erase_decodeNamed) RETRY_LIMIT

end Erase

/-! ## When the reserved counts are covered -/

variable {mapping : Bytes} {base : Nat} {name : String}

/-- The vector counts no more elements than the mapping holds bytes from its data on. -/
def VectorFits (mapping : Bytes) (vector : PublishedVector) : Prop :=
  vector.length ≤ mapping.length - vector.dataOffset

theorem fits_withCapacity_bind {α : Type} {vector : PublishedVector} {next : Unit → Reserver α} :
    Fits quiet ((withCapacity (whole mapping) vector).bind next) mapping ↔
      VectorFits mapping vector ∧ Fits quiet (next ()) mapping := fits_reserve_bind

/-- The vector of row `row` fits, if the client comes to resolve one. -/
def RowFits (mapping : Bytes) (base size : Nat) (outer : PublishedVector) (row : Nat) : Prop :=
  ElementInside mapping outer row → pointerAt mapping outer row ≠ 0 →
    VectorSound mapping base (pointerAt mapping outer row) →
      VectorFits mapping (vectorAt mapping base (pointerAt mapping outer row) size)

section Rows

variable {outer : PublishedVector} {row : Nat}

/-- A row reserves for the vector that its pointer names, if it names one. -/
theorem fits_innerVector_bind {β : Type} {size : Nat} (wide : outer.elementSize = sizeOfPointer)
    {next : Option PublishedVector → Reserver β} (absent : Fits quiet (next none) mapping)
    (present : ∀ inner, Fits quiet (next (some inner)) mapping ↔ VectorFits mapping inner) :
    Fits quiet ((innerVector (whole mapping) base outer row size).plain.bind next) mapping ↔
      RowFits mapping base size outer row := by
  rw [(innerVector_verdict mapping base size row wide).fits_plain_bind]
  by_cases zero : pointerAt mapping outer row = 0
  · rw [if_pos zero]
    exact ⟨fun _ _ nonzero => absurd zero nonzero, fun _ _ => absent⟩
  · rw [if_neg zero, present]
    exact ⟨fun fits inside _ sound => fits ⟨inside, fun _ => sound⟩,
      fun fits both => fits both.1 zero (both.2 zero)⟩

theorem fits_simpleRow (wide : outer.elementSize = sizeOfPointer) :
    Fits quiet (simpleRow (whole mapping) base outer row) mapping ↔
      RowFits mapping base sizeOfU64 outer row := by
  refine (fits_bind_of_fits fun _ _ => fits_done).trans ?_
  refine fits_innerVector_bind wide fits_done fun inner => ?_
  refine fits_withCapacity_bind.trans (and_iff_left ?_)
  exact (fits_bind_of_fits fun _ _ => fits_done).mpr (fits_collect_plain 0 inner.length)

theorem fits_combinedRow (wide : outer.elementSize = sizeOfPointer) :
    Fits quiet (combinedRow (whole mapping) base outer row) mapping ↔
      RowFits mapping base sizeOfCounter outer row := by
  refine fits_innerVector_bind wide fits_done fun inner => ?_
  exact fits_withCapacity_bind.trans (and_iff_left (fits_collect_plain 0 inner.length))

end Rows

/-- The vector of pointers at `pointer` fits, and so does every row after sound ones only. -/
structure RowsFit (mapping : Bytes) (base size pointer : Nat) : Prop where
  outer : VectorFits mapping (vectorAt mapping base pointer sizeOfPointer)
  rows : ∀ row, row < (vectorAt mapping base pointer sizeOfPointer).length →
    (∀ earlier, earlier < row →
      RowSound mapping base size (vectorAt mapping base pointer sizeOfPointer) earlier) →
    RowFits mapping base size (vectorAt mapping base pointer sizeOfPointer) row

/-- Both counter vectors reserve for their outer vector, then row by row. -/
theorem fits_rows {β : Type} {size : Nat} (pointer : Nat)
    {row : PublishedVector → Nat → Reserver β} (found : PublishedVector → Nat → β)
    (each : ∀ outer index, outer.elementSize = sizeOfPointer →
      Verdict quiet (row outer index).erase mapping (RowSound mapping base size outer index)
        (RowDefect mapping base outer index) (found outer index))
    (fit : ∀ outer index, outer.elementSize = sizeOfPointer →
      (Fits quiet (row outer index) mapping ↔ RowFits mapping base size outer index))
    (wrap : List β → MetricValue) :
    Fits quiet ((PublishedVector.resolve (whole mapping) base pointer sizeOfPointer).plain.bind
        fun outer => (withCapacity (whole mapping) outer).bind fun _ =>
          (collectFrom (row outer) 0 outer.length).bind fun rows => .done (.ok (wrap rows)))
        mapping ↔
      (VectorSound mapping base pointer → RowsFit mapping base size pointer) := by
  rw [(resolve_verdict mapping base pointer sizeOfPointer).fits_plain_bind]
  refine imp_congr_right fun _ => ?_
  rw [fits_withCapacity_bind, fits_bind_of_fits fun _ _ => fits_done,
    Verdict.fits_collect 0 _ fun index => each _ index rfl]
  constructor
  · rintro ⟨fits, rows⟩
    refine ⟨fits, fun index bound reached => (fit _ index rfl).mp ?_⟩
    exact rows index (Nat.zero_le index) (by omega) fun earlier _ below => reached earlier below
  · rintro ⟨fits, rows⟩
    refine ⟨fits, fun index _ bound reached => (fit _ index rfl).mpr ?_⟩
    exact rows index (by omega) fun earlier below => reached earlier (Nat.zero_le earlier) below

/-- What decoding the entry reserves is covered. -/
def EntryFits (mapping : Bytes) (base : Nat) (entry : DirectoryEntry) : DirectoryType → Prop
  | .counterVectorSimple =>
      VectorSound mapping base entry.data.toNat →
        RowsFit mapping base sizeOfU64 entry.data.toNat
  | .counterVectorCombined =>
      VectorSound mapping base entry.data.toNat →
        RowsFit mapping base sizeOfCounter entry.data.toNat
  | .nameVector =>
      VectorSound mapping base entry.data.toNat →
        VectorFits mapping (vectorAt mapping base entry.data.toNat sizeOfPointer)
  | _ => True

theorem fits_decodeValue {entry : DirectoryEntry} {directoryType : DirectoryType}
    (typed : entry.type = .ok directoryType) :
    Fits quiet (decodeValue (whole mapping) base entry name directoryType) mapping ↔
      EntryFits mapping base entry directoryType := by
  cases directoryType with
  | counterVectorSimple =>
      rw [decodeValue, vectorOf_eq typed (by simp)]
      refine fits_rows entry.data.toNat (rowAt (u64At mapping) mapping base sizeOfU64)
        (fun outer row wide => ?_) (fun outer row wide => fits_simpleRow wide) MetricValue.simple
      rw [erase_simpleRow]
      exact simpleRow_verdict mapping base outer row wide
  | counterVectorCombined =>
      rw [decodeValue, vectorOf_eq typed (by simp)]
      refine fits_rows entry.data.toNat (rowAt (counterAt mapping) mapping base sizeOfCounter)
        (fun outer row wide => ?_) (fun outer row wide => fits_combinedRow wide)
        MetricValue.combined
      rw [erase_combinedRow]
      exact combinedRow_verdict mapping base outer row wide
  | nameVector =>
      refine (fits_bind_of_fits fun _ _ => fits_done).trans ?_
      rw [nameVector, nameVectorPointer_of_type typed]
      refine (resolve_verdict mapping base entry.data.toNat sizeOfPointer).fits_plain_bind.trans
        ?_
      refine imp_congr_right fun _ => ?_
      exact fits_withCapacity_bind.trans (and_iff_left (fits_collect_plain 0 _))
  | scalarIndex => exact iff_of_true fits_plain trivial
  | gauge => exact iff_of_true fits_plain trivial
  | illegal => exact iff_of_true fits_plain trivial
  | empty => exact iff_of_true fits_plain trivial
  | symlink => exact iff_of_true fits_plain trivial
  | histogramLog2 => exact iff_of_true fits_plain trivial
  | ringBuffer => exact iff_of_true fits_plain trivial

section Directory

variable {directory : PublishedVector}

/-- Decoding reserves for the entry that the symlinks lead to and for no other. -/
theorem fits_decodeEntry (size : directory.elementSize = sizeOfDirectoryEntry)
    (hops index : Nat) :
    Fits quiet (decodeEntry (whole mapping) base directory name hops index) mapping ↔
      ∀ final directoryType, Leads mapping directory hops index final →
        final.type = .ok directoryType → EntryFits mapping base final directoryType := by
  induction hops generalizing index with
  | zero =>
      refine iff_of_true fits_throw ?_
      intro final directoryType leads
      cases leads
  | succ hops ih =>
      rw [decodeEntry, bind_eq, (readEntry_verdict mapping index size).fits_plain_bind]
      by_cases inside : ElementInside mapping directory index
      · rw [forall_prop_of_true inside]
        cases typed : (entryAt mapping directory index).type with
        | error reason =>
            simp only [leads_of_plain inside (show _ ≠ _ by simp [typed])]
            refine iff_of_true fits_throw ?_
            rintro _ directoryType rfl valid
            rw [typed] at valid
            cases valid
        | ok directoryType =>
            rw [lift_ok, bind_eq, plain, bind_ok]
            by_cases link : directoryType = .symlink
            · subst link
              rw [if_pos rfl, symlink_of_type typed, lift_ok, bind_eq, plain, bind_ok]
              simp only [leads_of_symlink inside typed]
              exact (fits_bind_of_fits fun _ _ => fits_plain).trans (ih _)
            · rw [if_neg link, fits_decodeValue typed]
              simp only [leads_of_plain inside (show _ ≠ _ by simp [typed, link])]
              constructor
              · rintro fits _ other rfl valid
                rw [typed] at valid
                cases valid
                exact fits
              · intro fits
                exact fits _ directoryType rfl typed
      · exact iff_of_true (fun holds => absurd holds inside) fun _ _ leads =>
          absurd leads.inside inside

theorem fits_decodeNames :
    Fits quiet (decodeNames (whole mapping) base directory) mapping ↔
      VectorFits mapping directory :=
  fits_withCapacity_bind.trans (and_iff_left (fits_collect_plain 0 directory.length))

/-- Reading a name reserves for its first entry. -/
theorem fits_decodeNamed (size : directory.elementSize = sizeOfDirectoryEntry) :
    Fits quiet (decodeNamed name (whole mapping) base directory) mapping ↔
      ∀ index, FirstNamed mapping directory name index → ∀ final directoryType,
        Leads mapping directory SYMLINK_LIMIT index final → final.type = .ok directoryType →
          EntryFits mapping base final directoryType := by
  rw [decodeNamed, bind_eq, fits_plain_bind]
  constructor
  · intro fits index first
    have scanned := (findEntry_some_iff size).mpr first
    exact (fits_decodeEntry size SYMLINK_LIMIT index).mp (fits (some index) mapping scanned)
  · intro fits found mid scanned
    obtain rfl := mapping_of_exec scanned
    cases found with
    | none => exact fits_throw
    | some index =>
        have first := (findEntry_some_iff size).mp scanned
        exact (fits_decodeEntry size SYMLINK_LIMIT index).mpr (fits index first)

end Directory

section Attempts

variable {α : Type} {operation : String} {decode : Decoder α}

/-- Without a header to go by nothing is reserved. -/
theorem fits_of_not_ready (unready : ¬ Ready mapping) (attempts : Nat) :
    Fits quiet (publishedAttempts (whole mapping) operation decode attempts) mapping := by
  induction attempts with
  | zero => exact fits_throw
  | succ attempts ih =>
      rw [publishedAttempts, bind_eq]
      rcases unready_cases unready with short | ⟨long, version | ⟨valid, writing⟩⟩
      · exact fits_plain_bind_of_error (exec_readHeader_of_short .opening short)
      · rw [fits_plain_bind_of_ok (exec_readHeader long), SharedHeader.validateVersion,
          if_neg version]
        exact fits_throw
      · rw [fits_plain_bind_of_ok (exec_readHeader long), valid, bind_eq, plain, bind_ok,
          if_pos writing]
        exact ih

/-- On a ready mapping the first attempt decides what is reserved. -/
theorem fits_publishedAttempts (attempts : Nat) :
    Fits quiet (publishedAttempts (whole mapping) operation decode (attempts + 1)) mapping ↔
      (Ready mapping →
        VectorSound mapping (headerAt mapping).base (headerAt mapping).directoryVector →
          Fits quiet (decode (whole mapping) (headerAt mapping).base (directoryAt mapping))
            mapping) := by
  by_cases ready : Ready mapping
  · rw [forall_prop_of_true ready, publishedAttempts, bind_eq,
      fits_plain_bind_of_ok (exec_readHeader ready.long), ready.valid, bind_eq, plain, bind_ok,
      ready.idle, if_neg Bool.false_ne_true, bind_eq,
        (resolve_verdict mapping (headerAt mapping).base
        (headerAt mapping).directoryVector sizeOfDirectoryEntry).fits_plain_bind]
    refine imp_congr_right fun sound => fits_bind.trans (and_iff_left ?_)
    intro value mid decoded
    obtain rfl := mapping_of_exec decoded
    rw [bind_eq, fits_plain_bind_of_ok (exec_readHeader ready.long), ready.valid, bind_eq, plain,
      bind_ok, if_pos ⟨ready.idle, rfl⟩]
    exact fits_done
  · exact iff_of_true (fits_of_not_ready ready _) fun holds => absurd holds ready

end Attempts

/-- The directory that `names` lists fits. -/
def NamesFit (mapping : Bytes) : Prop :=
  Ready mapping →
    VectorSound mapping (headerAt mapping).base (headerAt mapping).directoryVector →
      VectorFits mapping (directoryAt mapping)

/-- The entry that the first one named `name` leads to, along at most `SYMLINK_LIMIT` entries,
fits. -/
def ReadFits (mapping : Bytes) (name : String) : Prop :=
  Ready mapping →
    VectorSound mapping (headerAt mapping).base (headerAt mapping).directoryVector →
      ∀ index, FirstNamed mapping (directoryAt mapping) name index → ∀ final directoryType,
        Leads mapping (directoryAt mapping) SYMLINK_LIMIT index final →
          final.type = .ok directoryType →
            EntryFits mapping (headerAt mapping).base final directoryType

theorem fits_names : Fits quiet (names (whole mapping)) mapping ↔ NamesFit mapping :=
  (fits_publishedAttempts 15).trans
    (imp_congr_right fun _ => imp_congr_right fun _ => fits_decodeNames)

theorem fits_read (name : String) :
    Fits quiet (read (whole mapping) name) mapping ↔ ReadFits mapping name :=
  (fits_publishedAttempts 15).trans
    (imp_congr_right fun _ => imp_congr_right fun _ => fits_decodeNamed rfl)

end Capacity

end Netsystem.Stats
