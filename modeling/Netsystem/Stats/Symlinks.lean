import Netsystem.Stats.Totality

/-!
# Symlinks

The entries of a directory form a graph in which a symlink has one edge, with a column on it.
`Hops columns index final` says that the edges from entry `index` lead to the entry `final`, which
is no symlink, over the given columns. `decode_entry` follows at most fifteen edges and answers
with the value of `final`, cropped by the columns from the last to the first; where the first
entry that is no symlink is sixteen edges away it reports a cycle, although its limit is sixteen
(`resolution_iff`).
-/

namespace Netsystem.Stats

open Prog

/-! ## Columns -/

namespace MetricValue

/-- The columns applied one after the other, the last of the list first. -/
def crop (value : MetricValue) : List Nat → Except ProtocolError MetricValue
  | [] => .ok value
  | column :: columns => (value.crop columns).bind fun cropped => cropped.column column

/-- The lengths of the rows that `column` crops. -/
def rowLengths : MetricValue → List Nat
  | .simple rows => rows.map List.length
  | .combined rows => rows.map List.length
  | .histogram rows => rows.map List.length
  | _ => []

/-- One of the crops meets a row without its column. -/
def Lacks (value : MetricValue) : List Nat → Prop
  | [] => False
  | column :: columns => value.Lacks columns ∨
      ∃ cropped, value.crop columns = .ok cropped ∧ ∃ length ∈ cropped.rowLengths, length ≤ column

theorem layout_crop (value : MetricValue) (columns : List Nat) : Layout (value.crop columns) := by
  induction columns with
  | nil => exact layout_ok
  | cons column columns ih => exact ih.bind fun cropped => cropped.layout_column column

end MetricValue

theorem cropRows_cons {α : Type} {row : List α} {rest : List (List α)} {column : Nat} {value : α}
    (found : row[column]? = some value) :
    cropRows (row :: rest) column = (cropRows rest column).map ([value] :: ·) := by
  rw [cropRows, found]
  cases cropRows rest column with
  | error reason => rfl
  | ok cropped => rfl

theorem map_error_iff {ε α β : Type} {result : Except ε α} {f : α → β} :
    (∃ reason, result.map f = .error reason) ↔ ∃ reason, result = .error reason := by
  cases result with
  | error reason => exact ⟨fun _ => ⟨reason, rfl⟩, fun _ => ⟨reason, rfl⟩⟩
  | ok value =>
      constructor
      · intro failed
        obtain ⟨reason, same⟩ := failed
        cases same
      · intro failed
        obtain ⟨reason, same⟩ := failed
        cases same

/-- Cropping fails at a row that lacks the column, and only there. -/
theorem cropRows_error_iff {α : Type} (rows : List (List α)) (column : Nat) :
    (∃ reason, cropRows rows column = .error reason) ↔
      ∃ length ∈ rows.map List.length, length ≤ column := by
  induction rows with
  | nil => simp [cropRows]
  | cons row rest ih =>
      rw [List.map_cons, List.exists_mem_cons_iff]
      rcases found : row[column]? with _ | value
      · have short : row.length ≤ column := List.getElem?_eq_none_iff.mp found
        have failed : cropRows (row :: rest) column =
            .error (.elementOutOfBounds column row.length) := by
          rw [cropRows, found]
        exact ⟨fun _ => .inl short, fun _ => ⟨_, failed⟩⟩
      · have long : column < row.length := (List.getElem?_eq_some_iff.mp found).1
        rw [cropRows_cons found, map_error_iff, ih]
        exact ⟨.inr, fun either => either.resolve_left (Nat.not_le.mpr long)⟩

namespace MetricValue

theorem column_error_iff (value : MetricValue) (column : Nat) :
    (∃ reason, value.column column = .error reason) ↔
      ∃ length ∈ value.rowLengths, length ≤ column := by
  have rows : ∀ {α : Type} (rows : List (List α)) (f : List (List α) → MetricValue),
      (∃ reason, (cropRows rows column).map f = .error reason) ↔
        ∃ length ∈ rows.map List.length, length ≤ column :=
    fun rows f => map_error_iff.trans (cropRows_error_iff rows column)
  cases value with
  | simple listed => exact rows listed .simple
  | combined listed => exact rows listed .combined
  | histogram listed => exact rows listed .histogram
  | scalar word => simp [MetricValue.column, rowLengths]
  | gauge word => simp [MetricValue.column, rowLengths]
  | names listed => simp [MetricValue.column, rowLengths]
  | ring values => simp [MetricValue.column, rowLengths]

/-- A chain of crops fails exactly where one of them meets a row without its column. -/
theorem crop_error_iff (value : MetricValue) (columns : List Nat) :
    (∃ reason, value.crop columns = .error reason) ↔ value.Lacks columns := by
  induction columns with
  | nil => simp [crop, Lacks]
  | cons column columns ih =>
      rw [crop, Lacks, ← ih]
      cases cropped : value.crop columns with
      | error reason => exact ⟨fun _ => .inl ⟨reason, rfl⟩, fun _ => ⟨reason, rfl⟩⟩
      | ok inner =>
          refine (inner.column_error_iff column).trans ⟨fun lacks => .inr ⟨inner, rfl, lacks⟩, ?_⟩
          intro either
          rcases either with ⟨reason, same⟩ | ⟨other, same, lacks⟩
          · cases same
          · cases same
            exact lacks

end MetricValue

/-! ## Chains of symlinks -/

/-- The symlinks from entry `index` lead to `final`, over these columns. -/
inductive Hops (mapping : Bytes) (directory : PublishedVector) :
    List Nat → Nat → DirectoryEntry → Prop
  | here {index : Nat} (inside : ElementInside mapping directory index)
      (plain : (entryAt mapping directory index).type ≠ .ok .symlink) :
      Hops mapping directory [] index (entryAt mapping directory index)
  | hop {columns : List Nat} {index : Nat} {final : DirectoryEntry}
      (inside : ElementInside mapping directory index)
      (link : (entryAt mapping directory index).type = .ok .symlink)
      (rest : Hops mapping directory columns
        ((entryAt mapping directory index).data.toNat % 2 ^ 32) final) :
      Hops mapping directory ((entryAt mapping directory index).data.toNat / 2 ^ 32 :: columns)
        index final

/-- Every entry lies inside the mapping and has a known type code, and every symlink names an
entry of the directory. -/
structure WellFormed (mapping : Bytes) (directory : PublishedVector) : Prop where
  inside : ∀ index < directory.length, ElementInside mapping directory index
  known : ∀ index < directory.length, ∃ directoryType,
    (entryAt mapping directory index).type = .ok directoryType
  inRange : ∀ index < directory.length, (entryAt mapping directory index).type = .ok .symlink →
    (entryAt mapping directory index).data.toNat % 2 ^ 32 < directory.length

section Chains

variable {mapping : Bytes} {base : Nat} {directory : PublishedVector} {name : String}
  {columns columns' : List Nat} {index : Nat} {final final' : DirectoryEntry}

/-- A chain has one length and one end. -/
theorem Hops.unique (first : Hops mapping directory columns index final)
    (second : Hops mapping directory columns' index final') :
    columns = columns' ∧ final = final' := by
  induction first generalizing columns' with
  | here inside plain =>
      cases second with
      | here _ _ => exact ⟨rfl, rfl⟩
      | hop _ link _ => exact absurd link plain
  | hop inside link rest ih =>
      cases second with
      | here _ plain => exact absurd link plain
      | hop _ _ rest' =>
          rcases ih rest' with ⟨rfl, rfl⟩
          exact ⟨rfl, rfl⟩

/-- The end of a chain has a known type. -/
theorem Hops.known (hops : Hops mapping directory columns index final)
    (wellFormed : WellFormed mapping directory) (bound : index < directory.length) :
    ∃ directoryType, final.type = .ok directoryType := by
  induction hops with
  | here _ _ => exact wellFormed.known _ bound
  | hop _ link _ ih => exact ih (wellFormed.inRange _ bound link)

/-- A chain shorter than the limit is followed to its end and cropped on the way back. -/
theorem Hops.exec_decodeEntry (size : directory.elementSize = sizeOfDirectoryEntry)
    (hops : Hops mapping directory columns index final) {limit : Nat}
    (within : columns.length < limit) {directoryType : DirectoryType}
    (known : final.type = .ok directoryType) :
    (decodeEntry (whole mapping) base directory name limit index).exec quiet mapping =
      ((decodeValue (whole mapping) base final name directoryType).bind fun value =>
        lift (value.crop columns)).exec quiet mapping := by
  induction hops generalizing limit with
  | here inside plain =>
      cases limit with
      | zero => cases within
      | succ limit =>
          have other : directoryType ≠ .symlink := by
            intro link
            rw [link] at known
            exact plain known
          exact (exec_decodeEntry_plain size inside known other limit).trans
            (congrArg (fun p => exec quiet p mapping) (bind_pure _)).symm
  | hop inside link rest ih =>
      cases limit with
      | zero => cases within
      | succ limit =>
          rw [exec_decodeEntry_symlink size inside link, exec_bind,
            ih (Nat.lt_of_succ_lt_succ within) known, ← exec_bind, Prog.bind_assoc]
          congr 2
          funext value
          rw [MetricValue.crop]
          cases value.crop _ with
          | error reason => rfl
          | ok cropped => rfl

/-- Where no end is in reach, the reader reports a cycle. -/
theorem exec_decodeEntry_cycle (size : directory.elementSize = sizeOfDirectoryEntry)
    (wellFormed : WellFormed mapping directory) (limit : Nat) (bound : index < directory.length)
    (far : ∀ columns final, Hops mapping directory columns index final → limit ≤ columns.length) :
    (decodeEntry (whole mapping) base directory name limit index).exec quiet mapping =
      (.error (.symlinkCycle name SYMLINK_LIMIT), mapping) := by
  induction limit generalizing index with
  | zero => rfl
  | succ limit ih =>
      have inside := wellFormed.inside index bound
      by_cases link : (entryAt mapping directory index).type = .ok .symlink
      · rw [exec_decodeEntry_symlink size inside link]
        refine exec_bind_of_error (ih (wellFormed.inRange index bound link) ?_)
        intro columns final hops
        exact Nat.le_of_succ_le_succ (far _ _ (.hop inside link hops))
      · exact absurd (far [] _ (.here inside link)) (Nat.not_succ_le_zero limit)

end Chains

/-! ## Resolution -/

/-- What reading entry `index` under `name` is to come to: the value at the end of a chain of at
most `SYMLINK_LIMIT` symlinks, cropped by the columns from the last symlink to the first; a cycle
where there is no such chain; and an end in any case. -/
structure Resolution (mapping : Bytes) (base : Nat) (directory : PublishedVector) (name : String)
    (index : Nat) (out : Outcome Error MetricValue) : Prop where
  cropped : ∀ columns final directoryType value, Hops mapping directory columns index final →
    columns.length ≤ SYMLINK_LIMIT → final.type = .ok directoryType →
    ((decodeValue (whole mapping) base final name directoryType).exec quiet mapping).1 =
      .ok value → (∀ result, value.crop columns = .ok result → out = .ok result) ∧
      (∀ source, value.crop columns = .error source → out = .error (.protocol source)) ∧
      ((∃ reason, out = .error reason) ↔ value.Lacks columns)
  cycle : (∃ reported depth, out = .error (.symlinkCycle reported depth)) ↔
    ¬ ∃ columns final, Hops mapping directory columns index final ∧ columns.length ≤ SYMLINK_LIMIT
  ends : out ≠ .pending

section Resolutions

variable {mapping : Bytes} {base : Nat} {directory : PublishedVector} {name : String}
  {index : Nat} {columns : List Nat} {final : DirectoryEntry}

/-- No cycle is reported by what comes after the last hop. -/
theorem exec_cropped_ne_cycle {directoryType : DirectoryType} (reported : String) (depth : Nat) :
    (((decodeValue (whole mapping) base final name directoryType).bind fun value =>
      lift (value.crop columns)).exec quiet mapping).1 ≠
        .error (.symlinkCycle reported depth) := by
  intro ended
  have layout : ∀ source, source.OfLayout →
      Error.protocol source ≠ .symlinkCycle reported depth :=
    fun _ _ same => by cases same
  have unsupported : ∀ label, Error.unsupportedDirectoryType name label ≠
      .symlinkCycle reported depth := fun _ same => by cases same
  have blames : ((decodeValue (whole mapping) base final name directoryType).bind fun value =>
      lift (value.crop columns)).Blames (· ≠ .symlinkCycle reported depth) :=
    (blames_decodeValue layout unsupported directoryType).bind fun value =>
      blames_lift layout (value.layout_crop columns)
  exact blames.exec ended rfl

/-- What a decoded value becomes under the crops. -/
theorem cropped_of_decoded {directoryType : DirectoryType} {value : MetricValue}
    (decoded :
      ((decodeValue (whole mapping) base final name directoryType).exec quiet mapping).1 =
      .ok value) {out : Outcome Error MetricValue}
    (run : (((decodeValue (whole mapping) base final name directoryType).bind fun value =>
      lift (value.crop columns)).exec quiet mapping).1 = out) :
    (∀ result, value.crop columns = .ok result → out = .ok result) ∧
      (∀ source, value.crop columns = .error source → out = .error (.protocol source)) ∧
      ((∃ reason, out = .error reason) ↔ value.Lacks columns) := by
  rw [exec_bind_of_ok (exec_quiet_eq decoded)] at run
  subst run
  refine ⟨?_, ?_, ?_⟩
  · intro result cropped
    rw [cropped]
    rfl
  · intro source cropped
    rw [cropped]
    rfl
  · rw [← MetricValue.crop_error_iff]
    cases value.crop columns with
    | error source => exact ⟨fun _ => ⟨source, rfl⟩, fun _ => ⟨.protocol source, rfl⟩⟩
    | ok result =>
        constructor
        · intro failed
          obtain ⟨reason, same⟩ := failed
          cases same
        · intro failed
          obtain ⟨reason, same⟩ := failed
          cases same

/-- Resolution is as it should be for every chain but one of exactly `SYMLINK_LIMIT` symlinks. -/
theorem decodeEntry_resolution_iff (size : directory.elementSize = sizeOfDirectoryEntry)
    (wellFormed : WellFormed mapping directory) (bound : index < directory.length) :
    Resolution mapping base directory name index
        ((decodeEntry (whole mapping) base directory name SYMLINK_LIMIT index).exec quiet
          mapping).1 ↔
      ¬ ∃ columns final, Hops mapping directory columns index final ∧
        columns.length = SYMLINK_LIMIT := by
  have cycles : (∀ columns final, Hops mapping directory columns index final →
      SYMLINK_LIMIT ≤ columns.length) →
      (decodeEntry (whole mapping) base directory name SYMLINK_LIMIT index).exec quiet mapping =
        (.error (.symlinkCycle name SYMLINK_LIMIT), mapping) :=
    exec_decodeEntry_cycle size wellFormed SYMLINK_LIMIT bound
  have ends : ((decodeEntry (whole mapping) base directory name SYMLINK_LIMIT index).exec quiet
      mapping).1 ≠ .pending := performs_decodeEntry.exec_ne_pending quiet mapping
  constructor
  · intro resolution limit
    obtain ⟨columns, final, hops, exact⟩ := limit
    have run := cycles fun _ _ other => by rw [(other.unique hops).1, exact]
    exact resolution.cycle.mp ⟨name, SYMLINK_LIMIT, by rw [run]⟩ ⟨columns, final, hops, exact.le⟩
  · intro apart
    by_cases near : ∃ columns final, Hops mapping directory columns index final ∧
        columns.length ≤ SYMLINK_LIMIT
    · obtain ⟨columns, final, hops, within⟩ := near
      obtain ⟨directoryType, known⟩ := hops.known wellFormed bound
      have short : columns.length < SYMLINK_LIMIT :=
        Nat.lt_of_le_of_ne within fun same => apart ⟨columns, final, hops, same⟩
      have followed : (decodeEntry (whole mapping) base directory name SYMLINK_LIMIT index).exec
          quiet mapping = ((decodeValue (whole mapping) base final name directoryType).bind
            fun value => lift (value.crop columns)).exec quiet mapping :=
        hops.exec_decodeEntry size short known
      have run := congrArg Prod.fst followed
      refine ⟨?_, ?_, ends⟩
      · intro columns' final' directoryType' value hops' _ known' decoded
        obtain ⟨rfl, rfl⟩ := hops.unique hops'
        obtain rfl : directoryType = directoryType' := Except.ok.inj (known.symm.trans known')
        exact cropped_of_decoded decoded run.symm
      · refine ⟨?_, fun none_ => absurd ⟨columns, final, hops, within⟩ none_⟩
        intro reported
        obtain ⟨reported, depth, same⟩ := reported
        exact absurd (run.symm.trans same) (exec_cropped_ne_cycle reported depth)
    · have run := cycles fun columns final hops => by
        by_contra short
        exact near ⟨columns, final, hops, by omega⟩
      refine ⟨?_, ⟨fun _ => near, fun _ => ⟨name, SYMLINK_LIMIT, by rw [run]⟩⟩, ends⟩
      intro columns final directoryType value hops within _ _
      exact absurd ⟨columns, final, hops, within⟩ near

/-- Reading a name decodes the first entry that carries it. -/
theorem exec_read_of_firstNamed (ready : Ready mapping)
    (sound : VectorSound mapping (headerAt mapping).base (headerAt mapping).directoryVector)
    (first : FirstNamed mapping (directoryAt mapping) name index) :
    (read (whole mapping) name).exec quiet mapping =
      (decodeEntry (whole mapping) (headerAt mapping).base (directoryAt mapping) name
        SYMLINK_LIMIT index).exec quiet mapping := by
  have resolved := (resolve_verdict mapping (headerAt mapping).base
    (headerAt mapping).directoryVector sizeOfDirectoryEntry).exec sound
  refine (exec_publishedAttempts ready 15 resolved).trans ?_
  have size : (directoryAt mapping).elementSize = sizeOfDirectoryEntry := rfl
  exact exec_bind_of_ok ((findEntry_some_iff size).mpr first)

/-- On every mapping with a well-formed directory, every entry resolves as it should unless
exactly `SYMLINK_LIMIT` symlinks lead from it to the first entry that is none, and so does every
name whose first entry it is. -/
theorem resolution_iff (ready : Ready mapping)
    (sound : VectorSound mapping (headerAt mapping).base (headerAt mapping).directoryVector)
    (wellFormed : WellFormed mapping (directoryAt mapping))
    (bound : index < (directoryAt mapping).length) (name : String) :
    (Resolution mapping (headerAt mapping).base (directoryAt mapping) name index
        ((decodeEntry (whole mapping) (headerAt mapping).base (directoryAt mapping) name
          SYMLINK_LIMIT index).exec quiet mapping).1 ↔
      ¬ ∃ columns final, Hops mapping (directoryAt mapping) columns index final ∧
        columns.length = SYMLINK_LIMIT) ∧
    (FirstNamed mapping (directoryAt mapping) name index →
      (Resolution mapping (headerAt mapping).base (directoryAt mapping) name index
          ((read (whole mapping) name).exec quiet mapping).1 ↔
        ¬ ∃ columns final, Hops mapping (directoryAt mapping) columns index final ∧
          columns.length = SYMLINK_LIMIT)) := by
  refine ⟨decodeEntry_resolution_iff rfl wellFormed bound, ?_⟩
  intro first
  rw [exec_read_of_firstNamed ready sound first]
  exact decodeEntry_resolution_iff rfl wellFormed bound

end Resolutions

/-! ## Sixteen hops -/

/-- An entry named `a`. -/
def entryBytes (directoryType data : Nat) : Bytes :=
  leBytes 4 directoryType ++ [0, 0, 0, 0] ++ leBytes 8 data ++ 97 :: List.replicate 127 0

/-- A segment whose directory is a chain of `length` symlinks to a scalar. -/
def chained (length : Nat) : Bytes :=
  leBytes 8 2 ++ leBytes 8 0 ++ leBytes 8 0 ++ leBytes 8 0 ++ leBytes 8 48 ++
    leBytes 4 (length + 1) ++ [0, 0, 0, 0] ++
      (List.range length).flatMap (fun index => entryBytes 6 (index + 1)) ++ entryBytes 1 7

theorem ready_chained : Ready (chained 16) :=
  ⟨by decide +kernel, by decide +kernel, by decide +kernel⟩

theorem sound_chained :
    VectorSound (chained 16) (headerAt (chained 16)).base
      (headerAt (chained 16)).directoryVector :=
  ⟨⟨by decide +kernel, by decide +kernel, by decide +kernel⟩, by decide +kernel⟩

theorem directoryAt_chained : directoryAt (chained 16) = ⟨48, 17, 8, 144⟩ := by decide +kernel

theorem inside_chained {index : Nat} (bound : index < 17) :
    ElementInside (chained 16) (directoryAt (chained 16)) index := by
  have long : (chained 16).length = 2496 := by decide +kernel
  rw [directoryAt_chained]
  exact ⟨bound, by simp only [long]; omega, by simp only; omega⟩

/-- Entry `index` is a symlink to the next one, on column zero. -/
theorem links_chained : ∀ index < 16,
    (entryAt (chained 16) (directoryAt (chained 16)) index).type = .ok .symlink ∧
      (entryAt (chained 16) (directoryAt (chained 16)) index).data.toNat = index + 1 := by
  rw [directoryAt_chained]
  decide +kernel

theorem scalar_chained :
    (entryAt (chained 16) (directoryAt (chained 16)) 16).type = .ok .scalarIndex := by
  rw [directoryAt_chained]
  decide +kernel

theorem wellFormed_chained : WellFormed (chained 16) (directoryAt (chained 16)) := by
  have length : (directoryAt (chained 16)).length = 17 := by rw [directoryAt_chained]
  have cases_ : ∀ index < 17, index < 16 ∨ index = 16 := fun index bound => by omega
  refine ⟨fun index bound => inside_chained (length ▸ bound), ?_, ?_⟩
  · intro index bound
    rcases cases_ index (length ▸ bound) with link | rfl
    · exact ⟨_, (links_chained index link).1⟩
    · exact ⟨_, scalar_chained⟩
  · intro index bound link
    rcases cases_ index (length ▸ bound) with short | rfl
    · rw [(links_chained index short).2, length]
      omega
    · rw [scalar_chained] at link
      cases link

/-- From entry `16 - count` it takes `count` symlinks to the scalar. -/
theorem hops_chained (count : Nat) (bound : count ≤ 16) :
    ∃ columns final, Hops (chained 16) (directoryAt (chained 16)) columns (16 - count) final ∧
      columns.length = count := by
  induction count with
  | zero =>
      have plain : (entryAt (chained 16) (directoryAt (chained 16)) 16).type ≠ .ok .symlink := by
        rw [scalar_chained]
        exact fun same => by cases same
      exact ⟨[], _, .here (inside_chained (by decide)) plain, rfl⟩
  | succ count ih =>
      obtain ⟨columns, final, hops, length⟩ := ih (by omega)
      obtain ⟨link, data⟩ := links_chained (16 - (count + 1)) (by omega)
      have target :
          (entryAt (chained 16) (directoryAt (chained 16)) (16 - (count + 1))).data.toNat %
          2 ^ 32 = 16 - count := by
        rw [data]
        omega
      exact ⟨_, final, .hop (inside_chained (by omega)) link (target ▸ hops),
        congrArg (· + 1) length⟩

theorem firstNamed_chained : FirstNamed (chained 16) (directoryAt (chained 16)) "a" 0 := by
  have name : (entryAt (chained 16) (directoryAt (chained 16)) 0).nameText = .ok "a" := by
    rw [directoryAt_chained]
    decide +kernel
  refine ⟨⟨inside_chained (by decide), "a", name⟩, ?_, fun earlier before => by omega⟩
  rw [textAt, name]
  rfl

/-- The entry fifteen symlinks away from the scalar resolves as it should. -/
theorem resolution_fifteen : Resolution (chained 16) (headerAt (chained 16)).base
    (directoryAt (chained 16)) "a" 1
      ((decodeEntry (whole (chained 16)) (headerAt (chained 16)).base
      (directoryAt (chained 16)) "a" SYMLINK_LIMIT 1).exec quiet (chained 16)).1 := by
  have bound : 1 < (directoryAt (chained 16)).length := by
    rw [directoryAt_chained]
    decide
  refine (resolution_iff ready_chained sound_chained wellFormed_chained bound "a").1.mpr ?_
  intro limit
  obtain ⟨columns, final, hops, length⟩ := limit
  obtain ⟨columns', final', hops', fifteen⟩ := hops_chained 15 (by decide)
  rw [(hops.unique hops').1, fifteen] at length
  cases length

/-- Sixteen symlinks lead from the entry `a` to a scalar, and reading it reports a cycle. -/
theorem resolution_sixteen : ¬ ∀ (mapping : Bytes) (name : String) (index : Nat), Ready mapping →
    VectorSound mapping (headerAt mapping).base (headerAt mapping).directoryVector →
    WellFormed mapping (directoryAt mapping) →
      FirstNamed mapping (directoryAt mapping) name index →
      Resolution mapping (headerAt mapping).base (directoryAt mapping) name index
        ((read (whole mapping) name).exec quiet mapping).1 := by
  intro always
  have resolution :=
    always _ _ _ ready_chained sound_chained wellFormed_chained firstNamed_chained
  obtain ⟨columns, final, hops, sixteen⟩ := hops_chained 16 (by decide)
  have bound : 0 < (directoryAt (chained 16)).length := by
    rw [directoryAt_chained]
    decide
  have cycles : (read (whole (chained 16)) "a").exec quiet (chained 16) =
      (.error (.symlinkCycle "a" SYMLINK_LIMIT), chained 16) := by
    rw [exec_read_of_firstNamed ready_chained sound_chained firstNamed_chained]
    refine exec_decodeEntry_cycle rfl wellFormed_chained SYMLINK_LIMIT bound ?_
    intro other end_ chain
    rw [(chain.unique hops).1, sixteen]
    exact Nat.le_refl _
  exact resolution.cycle.mp ⟨"a", SYMLINK_LIMIT, by rw [cycles]⟩
    ⟨columns, final, hops, sixteen.le⟩

end Netsystem.Stats
