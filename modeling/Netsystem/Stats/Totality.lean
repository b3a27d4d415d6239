import Netsystem.Stats.Values

/-!
# When the reader returns

`names` and `read` on a mapping of any length and content, as a segment that nobody writes. Two
places fault: the shift `VECTOR_MIN_ALIGN << exponent` of a vector header whose exponent is 64 or
more, and the slice of a name pointer past the end of the mapping. `NamesDefect` and `ReadDefect`
say when one of them is reached; `returns_iff` is the exact condition.
-/

namespace Netsystem.Stats

open Prog

variable {mapping : Bytes} {base : Nat} {directory : PublishedVector} {name : String}

/-! ## Finding an entry -/

/-- Entry `index` is the first one named `name`, after valid names only. -/
structure FirstNamed (mapping : Bytes) (directory : PublishedVector) (name : String)
    (index : Nat) : Prop where
  named : Named mapping directory index
  text : textAt mapping directory index = name
  before : ∀ earlier, earlier < index →
    Named mapping directory earlier ∧ textAt mapping directory earlier ≠ name

theorem FirstNamed.unique {index other : Nat} (first : FirstNamed mapping directory name index)
    (second : FirstNamed mapping directory name other) : index = other := by
  rcases Nat.lt_trichotomy index other with before | same | after
  · exact absurd first.text (second.before index before).2
  · exact same
  · exact absurd second.text (first.before other after).2

/-- The scan stops at the first entry with the name, runs to the end over other valid names, or
stops at the first invalid name. -/
theorem findEntryFrom_cases (mapping : Bytes) (name : String)
    (size : directory.elementSize = sizeOfDirectoryEntry)
    (index count : Nat) :
    (∃ found, index ≤ found ∧ Named mapping directory found ∧
        textAt mapping directory found = name ∧
        (∀ earlier, index ≤ earlier → earlier < found →
          Named mapping directory earlier ∧ textAt mapping directory earlier ≠ name) ∧
        (findEntryFrom directory (whole mapping) name index count).exec quiet mapping =
          (.ok (some found), mapping)) ∨
      ((∀ other, index ≤ other → other < index + count →
          Named mapping directory other ∧ textAt mapping directory other ≠ name) ∧
        (findEntryFrom directory (whole mapping) name index count).exec quiet mapping =
          (.ok none, mapping)) ∨
      (∃ bad, index ≤ bad ∧ bad < index + count ∧ ¬ Named mapping directory bad ∧
        (∀ earlier, index ≤ earlier → earlier < bad →
          Named mapping directory earlier ∧ textAt mapping directory earlier ≠ name) ∧
        ∃ reason, (findEntryFrom directory (whole mapping) name index count).exec quiet mapping =
          (.error reason, mapping)) := by
  induction count generalizing index with
  | zero => exact .inr (.inl ⟨fun other low high => by omega, rfl⟩)
  | succ count ih =>
      have verdict := entryName_verdict mapping index size
      by_cases named : Named mapping directory index
      · have run := verdict.exec named
        by_cases text : textAt mapping directory index = name
        · refine .inl ⟨index, Nat.le_refl index, named, text, fun earlier low high =>
            by omega, ?_⟩
          rw [findEntryFrom, bind_eq, exec_bind_of_ok run, if_pos text]
          rfl
        · have head : ∀ earlier, index ≤ earlier → ¬ index + 1 ≤ earlier →
              Named mapping directory earlier ∧ textAt mapping directory earlier ≠ name := by
            intro earlier low high
            obtain rfl : earlier = index := by omega
            exact ⟨named, text⟩
          have next : (findEntryFrom directory (whole mapping) name index (count + 1)).exec quiet
              mapping =
                (findEntryFrom directory (whole mapping) name (index + 1) count).exec quiet
                mapping := by
            rw [findEntryFrom, bind_eq, exec_bind_of_ok run, if_neg text]
          rw [next]
          rcases ih (index + 1) with ⟨found, low, valid, same, before, run⟩ | ⟨all, run⟩ |
            ⟨bad, low, high, invalid, before, run⟩
          · refine .inl ⟨found, by omega, valid, same, fun earlier from_ below => ?_, run⟩
            by_cases later : index + 1 ≤ earlier
            · exact before earlier later below
            · exact head earlier from_ later
          · refine .inr (.inl ⟨fun other from_ below => ?_, run⟩)
            by_cases later : index + 1 ≤ other
            · exact all other later (by omega)
            · exact head other from_ later
          · refine .inr
              (.inr ⟨bad, by omega, by omega, invalid, fun earlier from_ below => ?_, run⟩)
            by_cases later : index + 1 ≤ earlier
            · exact before earlier later below
            · exact head earlier from_ later
      · refine .inr (.inr ⟨index, Nat.le_refl index, by omega, named,
          fun earlier low high => by omega, ?_⟩)
        obtain ⟨reason, run⟩ := verdict.error_of_neither
          (performs_entryName.exec_ne_pending quiet mapping) named id
        exact ⟨reason, exec_bind_of_error (exec_quiet_eq run)⟩

/-- `find_entry` answers with an index exactly when that is the first entry of the name. -/
theorem findEntry_some_iff (size : directory.elementSize = sizeOfDirectoryEntry) {index : Nat} :
    (findEntry directory (whole mapping) name).exec quiet mapping = (.ok (some index), mapping) ↔
      FirstNamed mapping directory name index := by
  rcases findEntryFrom_cases mapping name size 0 directory.length with
    ⟨found, _, named, text, before, run⟩ | ⟨others, run⟩ |
      ⟨bad, _, _, invalid, before, reason, run⟩
  · have first : FirstNamed mapping directory name found :=
      ⟨named, text, fun earlier below => before earlier (Nat.zero_le earlier) below⟩
    rw [findEntry, run]
    constructor
    · intro same
      cases same
      exact first
    · intro other
      rw [first.unique other]
  · rw [findEntry, run]
    constructor
    · intro same
      cases same
    intro first
    have bound := first.named.inside.bound
    exact absurd first.text (others index (Nat.zero_le index) (by omega)).2
  · rw [findEntry, run]
    constructor
    · intro same
      cases same
    intro first
    rcases Nat.lt_trichotomy bad index with earlier | same | later
    · exact absurd (first.before bad earlier).1 invalid
    · exact absurd (same ▸ first.named) invalid
    · exact absurd first.text (before index (Nat.zero_le index) later).2

theorem not_crashes_findEntry (size : directory.elementSize = sizeOfDirectoryEntry) :
    ¬ Crashes quiet (findEntry directory (whole mapping) name) mapping := by
  intro fault
  rcases findEntryFrom_cases mapping name size 0 directory.length with
    ⟨_, _, _, _, _, run⟩ | ⟨_, run⟩ | ⟨_, _, _, _, _, _, run⟩ <;>
  · rw [Crashes, findEntry, run] at fault
    cases fault

/-! ## Faults of one decoding -/

/-- From entry `index`, at most `hops` entries along the symlinks lead to the entry `final`. -/
inductive Leads (mapping : Bytes) (directory : PublishedVector) : Nat → Nat →
    DirectoryEntry → Prop
  | here {hops index : Nat} (inside : ElementInside mapping directory index)
      (plain : (entryAt mapping directory index).type ≠ .ok .symlink) :
      Leads mapping directory (hops + 1) index (entryAt mapping directory index)
  | hop {hops index : Nat} {final : DirectoryEntry}
      (inside : ElementInside mapping directory index)
      (link : (entryAt mapping directory index).type = .ok .symlink)
      (rest : Leads mapping directory hops
        ((entryAt mapping directory index).data.toNat % 2 ^ 32) final) :
      Leads mapping directory (hops + 1) index final

section Leads

variable {hops index : Nat} {final : DirectoryEntry}

theorem Leads.inside (leads : Leads mapping directory hops index final) :
    ElementInside mapping directory index := by
  cases leads with
  | here inside _ => exact inside
  | hop inside _ _ => exact inside

theorem leads_of_plain (inside : ElementInside mapping directory index)
    (plain : (entryAt mapping directory index).type ≠ .ok .symlink) :
    Leads mapping directory (hops + 1) index final ↔ final = entryAt mapping directory index := by
  constructor
  · intro leads
    cases leads with
    | here _ _ => rfl
    | hop _ link _ => exact absurd link plain
  · rintro rfl
    exact .here inside plain

theorem leads_of_symlink (inside : ElementInside mapping directory index)
    (link : (entryAt mapping directory index).type = .ok .symlink) :
    Leads mapping directory (hops + 1) index final ↔
      Leads mapping directory hops ((entryAt mapping directory index).data.toNat % 2 ^ 32)
        final := by
  constructor
  · intro leads
    cases leads with
    | here _ plain => exact absurd link plain
    | hop _ _ rest => exact rest
  · exact .hop inside link

end Leads

section Follow

variable {index : Nat}

/-- A symlink is followed with one hop less, and its column is applied to what comes back. -/
theorem exec_decodeEntry_symlink (size : directory.elementSize = sizeOfDirectoryEntry)
    (inside : ElementInside mapping directory index)
    (link : (entryAt mapping directory index).type = .ok .symlink) (hops : Nat) :
    (decodeEntry (whole mapping) base directory name (hops + 1) index).exec quiet mapping =
      ((decodeEntry (whole mapping) base directory name hops
        ((entryAt mapping directory index).data.toNat % 2 ^ 32)).bind fun value =>
          lift (value.column ((entryAt mapping directory index).data.toNat / 2 ^ 32))).exec quiet
            mapping := by
  rw [decodeEntry, bind_eq, exec_bind_of_ok ((readEntry_verdict mapping index size).exec inside),
    link, lift_ok, bind_eq, bind_ok, if_pos rfl, symlink_of_type link, lift_ok, bind_eq, bind_ok]
  rfl

theorem exec_decodeEntry_plain (size : directory.elementSize = sizeOfDirectoryEntry)
    (inside : ElementInside mapping directory index) {directoryType : DirectoryType}
    (known : (entryAt mapping directory index).type = .ok directoryType)
    (plain : directoryType ≠ .symlink) (hops : Nat) :
    (decodeEntry (whole mapping) base directory name (hops + 1) index).exec quiet mapping =
      (decodeValue (whole mapping) base (entryAt mapping directory index) name directoryType).exec
        quiet mapping := by
  rw [decodeEntry, bind_eq, exec_bind_of_ok ((readEntry_verdict mapping index size).exec inside),
    known, lift_ok, bind_eq, bind_ok, if_neg plain]

end Follow

/-- Decoding faults exactly when the symlinks lead to a defective entry. -/
theorem crashes_decodeEntry (size : directory.elementSize = sizeOfDirectoryEntry)
    (hops index : Nat) :
    Crashes quiet (decodeEntry (whole mapping) base directory name hops index) mapping ↔
      ∃ final directoryType, Leads mapping directory hops index final ∧
        final.type = .ok directoryType ∧ EntryDefect mapping base final directoryType := by
  induction hops generalizing index with
  | zero =>
      constructor
      · intro fault
        cases fault
      · rintro ⟨final, directoryType, ⟨⟩, _⟩
  | succ hops ih =>
      have entry := readEntry_verdict mapping index size
      by_cases inside : ElementInside mapping directory index
      · cases typed : (entryAt mapping directory index).type with
        | error reason =>
            rw [decodeEntry, bind_eq, crashes_bind_of_ok (entry.exec inside), typed]
            simp only [leads_of_plain inside (show _ ≠ _ by simp [typed])]
            constructor
            · intro fault
              cases fault
            · rintro ⟨_, directoryType, rfl, valid, _⟩
              rw [typed] at valid
              cases valid
        | ok directoryType =>
            by_cases link : directoryType = .symlink
            · subst link
              simp only [leads_of_symlink inside typed]
              rw [Crashes, exec_decodeEntry_symlink size inside typed, ← Crashes,
                crashes_bind, ih]
              simp [lift]
            · simp only [leads_of_plain inside (show _ ≠ _ by simp [typed, link])]
              rw [Crashes, exec_decodeEntry_plain size inside typed link, ← Crashes,
                (decodeValue_verdict name typed).crashes]
              simp [typed]
      · constructor
        · intro fault
          rw [decodeEntry, bind_eq, entry.crashes_bind] at fault
          exact absurd (fault.resolve_left id).1 inside
        · rintro ⟨_, _, leads, _⟩
          exact absurd leads.inside inside

theorem not_crashes_decodeNames (mapping : Bytes) (base : Nat)
    (size : directory.elementSize = sizeOfDirectoryEntry) :
    ¬ Crashes quiet (decodeNames (whole mapping) base directory) mapping := by
  intro fault
  obtain ⟨_, _, _, _, never⟩ :=
    (Verdict.collect 0 directory.length fun index =>
      entryName_verdict mapping index size).crashes.mp fault
  exact never

theorem crashes_decodeNamed (mapping : Bytes) (base : Nat) (name : String)
    (size : directory.elementSize = sizeOfDirectoryEntry) :
    Crashes quiet (decodeNamed name (whole mapping) base directory) mapping ↔
      ∃ index, FirstNamed mapping directory name index ∧ ∃ final directoryType,
        Leads mapping directory SYMLINK_LIMIT index final ∧ final.type = .ok directoryType ∧
          EntryDefect mapping base final directoryType := by
  rw [decodeNamed, bind_eq, crashes_bind, or_iff_right (not_crashes_findEntry size)]
  constructor
  · rintro ⟨found, mid, scanned, fault⟩
    obtain rfl := mapping_of_exec scanned
    cases found with
    | none => cases fault
    | some index =>
        exact ⟨index, (findEntry_some_iff size).mp scanned,
          (crashes_decodeEntry size _ _).mp fault⟩
  · rintro ⟨index, first, leads⟩
    exact ⟨some index, mapping, (findEntry_some_iff size).mpr first,
      (crashes_decodeEntry size _ _).mpr leads⟩

/-! ## Faults of a call -/

section Attempts

variable {α : Type} {decode : Decoder α} {operation : String}

theorem not_crashes_of_not_ready (unready : ¬ Ready mapping) (attempts : Nat) :
    ¬ Crashes quiet (publishedAttempts (whole mapping) operation decode attempts) mapping := by
  induction attempts with
  | zero => simp [publishedAttempts]
  | succ attempts ih =>
      rcases unready_cases unready with short | ⟨long, version | ⟨valid, writing⟩⟩
      · intro fault
        rw [publishedAttempts, bind_eq, Crashes,
          exec_bind_of_error (exec_readHeader_of_short .opening short)] at fault
        cases fault
      · rw [publishedAttempts, bind_eq, crashes_bind_of_ok (exec_readHeader long),
          SharedHeader.validateVersion, if_neg version]
        intro fault
        cases fault
      · rw [publishedAttempts, bind_eq, crashes_bind_of_ok (exec_readHeader long), valid, bind_eq,
          bind_ok, if_pos writing]
        exact ih

/-- A call faults in the directory's vector header or in the decoding of its first attempt. -/
theorem crashes_publishedAttempts (attempts : Nat) :
    Crashes quiet (publishedAttempts (whole mapping) operation decode (attempts + 1)) mapping ↔
      Ready mapping ∧
        (VectorDefect mapping (headerAt mapping).base (headerAt mapping).directoryVector ∨
          VectorSound mapping (headerAt mapping).base (headerAt mapping).directoryVector ∧
            Crashes quiet (decode (whole mapping) (headerAt mapping).base (directoryAt mapping))
              mapping) := by
  by_cases ready : Ready mapping
  · have resolve := resolve_verdict mapping (headerAt mapping).base
      (headerAt mapping).directoryVector sizeOfDirectoryEntry
    by_cases sound : VectorSound mapping (headerAt mapping).base
      (headerAt mapping).directoryVector
    · rw [Crashes, exec_publishedAttempts ready attempts (resolve.exec sound)]
      exact ⟨fun fault => ⟨ready, .inr ⟨sound, fault⟩⟩, fun both =>
        both.2.elim (fun defect => absurd defect (resolve.disjoint sound)) And.right⟩
    · rw [publishedAttempts, bind_eq, crashes_bind_of_ok (exec_readHeader ready.long),
        ready.valid, bind_eq, bind_ok, ready.idle, if_neg Bool.false_ne_true, bind_eq,
        resolve.crashes_bind]
      exact ⟨fun fault => ⟨ready, fault.imp_right fun both => absurd both.1 sound⟩,
        fun faults => faults.2.imp_right fun both => absurd both.1 sound⟩
  · exact ⟨fun fault => absurd fault (not_crashes_of_not_ready ready _),
      fun both => absurd both.1 ready⟩

end Attempts

/-- `names` reaches a directory whose vector header makes the alignment shift overflow. -/
def NamesDefect (mapping : Bytes) : Prop :=
  Ready mapping ∧
    VectorDefect mapping (headerAt mapping).base (headerAt mapping).directoryVector

/-- `read` reaches such a directory, or the first entry named `name` leads along at most
`SYMLINK_LIMIT` entries to one whose decoding overflows the shift or slices past the mapping. -/
def ReadDefect (mapping : Bytes) (name : String) : Prop :=
  NamesDefect mapping ∨ Ready mapping ∧
    VectorSound mapping (headerAt mapping).base (headerAt mapping).directoryVector ∧
      ∃ index, FirstNamed mapping (directoryAt mapping) name index ∧ ∃ final directoryType,
        Leads mapping (directoryAt mapping) SYMLINK_LIMIT index final ∧
          final.type = .ok directoryType ∧
            EntryDefect mapping (headerAt mapping).base final directoryType

theorem crashes_names : Crashes quiet (names (whole mapping)) mapping ↔ NamesDefect mapping := by
  have calm : ¬ Crashes quiet (decodeNames (whole mapping) (headerAt mapping).base
      (directoryAt mapping)) mapping := not_crashes_decodeNames mapping _ rfl
  refine (crashes_publishedAttempts 15).trans ?_
  simp only [calm, and_false, or_false, NamesDefect]

theorem crashes_read (name : String) :
    Crashes quiet (read (whole mapping) name) mapping ↔ ReadDefect mapping name := by
  refine (crashes_publishedAttempts 15).trans ?_
  rw [crashes_decodeNamed mapping _ name (show (directoryAt mapping).elementSize =
    sizeOfDirectoryEntry from rfl), and_or_left]
  rfl

/-- On every mapping and for every name, `names` and `read` return unless they reach one of the
two unchecked computations. -/
theorem returns_iff (mapping : Bytes) (name : String) :
    (Returns quiet (names (whole mapping)) mapping ↔ ¬ NamesDefect mapping) ∧
      (Returns quiet (read (whole mapping) name) mapping ↔ ¬ ReadDefect mapping name) := by
  constructor
  · rw [← crashes_names]
    exact returns_iff_not_crashes (performs_publishedAttempts (fun _ _ => performs_decodeNames) _)
  · rw [← crashes_read]
    exact returns_iff_not_crashes (performs_publishedAttempts (fun _ _ => performs_decodeNamed) _)

/-- A segment of 48 bytes whose empty directory has the alignment exponent 64. -/
def overflowing : Bytes :=
  leBytes 8 2 ++ leBytes 8 0 ++ leBytes 8 0 ++ leBytes 8 0 ++ leBytes 8 48 ++
    [0, 0, 0, 0, 0, 64, 0, 0]

/-- The reader is not total: on this segment `names` faults. -/
theorem names_not_total : ¬ ∀ mapping name, Returns quiet (names (whole mapping)) mapping ∧
    Returns quiet (read (whole mapping) name) mapping := by
  intro total
  have panics : ((names (whole overflowing)).exec quiet overflowing).1 = .panic := by
    decide +kernel
  exact absurd panics ((returns_iff_not_crashes (performs_publishedAttempts
    (fun _ _ => performs_decodeNames) _)).mp (total overflowing "a").1)

end Netsystem.Stats
