import Netsystem.Stats.Totality

/-!
# The layout of a published directory

`Represents mapping base directory` says that a quiescent mapping holds an abstract directory: a
list of named entries, each a scalar, a gauge, rows of counters or names. The layout leaves the
place of every piece open, and with it the bytes that no piece occupies, the alignment exponent of
a vector header among them.

`reads_iff`: `names` and `read` return the directory exactly when no vector header that they visit
has an exponent of 64 or more.
-/

namespace Netsystem.Stats

open Prog

/-! ## Abstract directories -/

/-- What an entry carries; an absent row is `none`. -/
inductive Content : Type where
  | scalar (value : UInt64)
  | gauge (value : UInt64)
  | simple (rows : List (Option (List UInt64)))
  | combined (rows : List (Option (List Counter)))
  | names (listed : List String)

structure Entry : Type where
  name : String
  content : Content

def Content.type : Content → DirectoryType
  | .scalar _ => .scalarIndex
  | .gauge _ => .gauge
  | .simple _ => .counterVectorSimple
  | .combined _ => .counterVectorCombined
  | .names _ => .nameVector

/-- The type code on the wire. -/
def Content.code : Content → Nat
  | .scalar _ => 1
  | .gauge _ => 9
  | .simple _ => 2
  | .combined _ => 3
  | .names _ => 4

/-- The value to be read: absent rows are empty rows. -/
def Content.value : Content → MetricValue
  | .scalar value => .scalar value
  | .gauge value => .gauge value
  | .simple rows => .simple (rows.map fun row => row.getD [])
  | .combined rows => .combined (rows.map fun row => row.getD [])
  | .names listed => .names listed

theorem Content.tryFrom_code (content : Content) :
    DirectoryType.tryFrom content.code = .ok content.type := by
  cases content <;> rfl

/-! ## Representation -/

/-- A vector of `count` elements of `size` bytes starts at `pointer - base`. -/
structure VectorHolds (mapping : Bytes) (base pointer count size : Nat) : Prop where
  above : base ≤ pointer
  room : VECTOR_HEADER_BYTES ≤ pointer - base
  counted : leNat (window mapping (pointer - base - 8) 4) = count
  inside : pointer - base + count * size ≤ mapping.length

def U64Holds (mapping : Bytes) (offset : Nat) (value : UInt64) : Prop :=
  leNat (window mapping offset 8) = value.toNat

def CounterHolds (mapping : Bytes) (offset : Nat) (counter : Counter) : Prop :=
  U64Holds mapping offset counter.packets ∧ U64Holds mapping (offset + 8) counter.bytes

/-- The NUL-terminated text at `pointer - base`. -/
structure TextHolds (mapping : Bytes) (base pointer : Nat) (text : String) : Prop where
  above : base ≤ pointer
  solid : 0 ∉ toUtf8 text
  text : window mapping (pointer - base) ((toUtf8 text).length + 1) = toUtf8 text ++ [0]

/-- A row: a null pointer, or a vector of cells of `size` bytes. -/
def RowHolds {β : Type} (holds : Bytes → Nat → β → Prop) (size : Nat) (mapping : Bytes)
    (base pointer : Nat) : Option (List β) → Prop
  | none => pointer = 0
  | some cells => VectorHolds mapping base pointer cells.length size ∧
      ∀ index (bound : index < cells.length),
        holds mapping (pointer - base + index * size) cells[index]

/-- A vector of pointers to pieces. -/
structure PiecesHold {γ : Type} (holds : Nat → γ → Prop) (mapping : Bytes) (base pointer : Nat)
    (pieces : List γ) : Prop where
  vector : VectorHolds mapping base pointer pieces.length sizeOfPointer
  pieces : ∀ index (bound : index < pieces.length),
    holds (leNat (window mapping (pointer - base + index * sizeOfPointer) 8)) pieces[index]

/-- The data word of an entry holds its content. -/
def ContentHolds (mapping : Bytes) (base data : Nat) : Content → Prop
  | .scalar value => data = value.toNat
  | .gauge value => data = value.toNat
  | .simple rows => PiecesHold (RowHolds U64Holds sizeOfU64 mapping base) mapping base data rows
  | .combined rows =>
      PiecesHold (RowHolds CounterHolds sizeOfCounter mapping base) mapping base data rows
  | .names listed => PiecesHold (TextHolds mapping base) mapping base data listed

/-- The 144 bytes of an entry at `offset`. -/
structure EntryHolds (mapping : Bytes) (base offset : Nat) (entry : Entry) : Prop where
  code : leNat (window mapping offset 4) = entry.content.code
  content : ContentHolds mapping base (leNat (window mapping (offset + 8) 8)) entry.content
  short : (toUtf8 entry.name).length ≤ MAX_NAME_LENGTH
  solid : 0 ∉ toUtf8 entry.name
  name : window mapping (offset + 16) MAX_NAME_BYTES =
    toUtf8 entry.name ++ List.replicate (MAX_NAME_BYTES - (toUtf8 entry.name).length) 0

/-- The quiescent mapping represents `directory` at `base`. -/
structure Represents (mapping : Bytes) (base : Nat) (directory : List Entry) : Prop where
  addressable : mapping.length < 2 ^ 64
  ready : Ready mapping
  based : (headerAt mapping).base = base
  vector : VectorHolds mapping base (headerAt mapping).directoryVector directory.length
    sizeOfDirectoryEntry
  entries : ∀ index (bound : index < directory.length),
    EntryHolds mapping base
      ((headerAt mapping).directoryVector - base + index * sizeOfDirectoryEntry) directory[index]

/-- `names` and `read` return the directory: every name in order, the value of the first entry of
each name, and `MetricNotFound` for every other name. -/
def ReadsAs (mapping : Bytes) (directory : List Entry) : Prop :=
  (names (whole mapping)).exec quiet mapping = (.ok (directory.map Entry.name), mapping) ∧
    ∀ name, (read (whole mapping) name).exec quiet mapping =
      match directory.find? fun entry => entry.name = name with
      | some entry => (.ok entry.content.value, mapping)
      | none => (.error (.metricNotFound name), mapping)

/-! ## The alignment exponents that the reader visits -/

/-- The exponents of a vector of rows and of its present rows are below 64. -/
def RowsFit {β : Type} (mapping : Bytes) (base pointer : Nat) (rows : List (Option β)) : Prop :=
  exponentAt mapping (pointer - base) < 64 ∧
    ∀ index (bound : index < rows.length), rows[index] ≠ none →
      exponentAt mapping
        (leNat (window mapping (pointer - base + index * sizeOfPointer) 8) - base) < 64

def ContentFits (mapping : Bytes) (base data : Nat) : Content → Prop
  | .scalar _ => True
  | .gauge _ => True
  | .simple rows => RowsFit mapping base data rows
  | .combined rows => RowsFit mapping base data rows
  | .names _ => exponentAt mapping (data - base) < 64

/-- The exponents in the header of the directory, and in the headers of the vectors under the
first entry of each name, are below 64. -/
def ExponentsFit (mapping : Bytes) (base : Nat) (directory : List Entry) : Prop :=
  exponentAt mapping ((headerAt mapping).directoryVector - base) < 64 ∧
    ∀ index (bound : index < directory.length),
      (∀ earlier (before : earlier < index), directory[earlier].name ≠ directory[index].name) →
        ContentFits mapping base
          (leNat (window mapping ((headerAt mapping).directoryVector - base +
            index * sizeOfDirectoryEntry + 8) 8)) directory[index].content

/-! ## Pieces -/

section Pieces

variable {mapping : Bytes} {base pointer count size : Nat}

theorem VectorHolds.length_inside (holds : VectorHolds mapping base pointer count size) :
    pointer - base ≤ mapping.length :=
  Nat.le_trans (Nat.le_add_right _ _) holds.inside

theorem VectorHolds.sound_iff (holds : VectorHolds mapping base pointer count size) :
    VectorSound mapping base pointer ↔ exponentAt mapping (pointer - base) < 64 :=
  and_iff_right ⟨holds.above, holds.room, holds.length_inside⟩

theorem VectorHolds.length_eq (holds : VectorHolds mapping base pointer count size) :
    (vectorAt mapping base pointer size).length = count := holds.counted

theorem VectorHolds.pos (holds : VectorHolds mapping base pointer count size) : pointer ≠ 0 := by
  have room : 8 ≤ pointer - base := holds.room
  omega

/-- Every element of a held vector is in range. -/
theorem VectorHolds.element (holds : VectorHolds mapping base pointer count size)
    (addressable : mapping.length < 2 ^ 64) {index : Nat} (bound : index < count) :
    ElementInside mapping (vectorAt mapping base pointer size) index := by
  have inside := holds.inside
  have below : index * size + size ≤ count * size := by
    rw [← Nat.succ_mul]
    exact Nat.mul_le_mul_right size bound
  exact ⟨by rwa [holds.length_eq], by simp only [vectorAt]; omega, by simp only [vectorAt]; omega⟩

theorem u64At_of_holds {vector : PublishedVector} {index : Nat} {value : UInt64}
    (holds : U64Holds mapping (vector.offsetOf index) value) :
    u64At mapping vector index = value := by
  rw [u64At, wordAt, sizeOfU64, show leNat _ = value.toNat from holds, UInt64.ofNat_toNat]

theorem counterAt_of_holds {vector : PublishedVector} {index : Nat} {counter : Counter}
    (holds : CounterHolds mapping (vector.offsetOf index) counter) :
    counterAt mapping vector index = counter := by
  rw [counterAt, show leNat _ = counter.packets.toNat from holds.1,
    show leNat _ = counter.bytes.toNat from holds.2, UInt64.ofNat_toNat, UInt64.ofNat_toNat]

/-- The text at `offset` runs to its first NUL. -/
theorem nameAt_of_holds {text : String} (holds : TextHolds mapping base pointer text) :
    nameAt mapping (pointer - base) = some text := by
  have split : mapping.drop (pointer - base) =
      toUtf8 text ++ 0 :: mapping.drop (pointer - base + ((toUtf8 text).length + 1)) := by
    have parts := List.take_append_drop ((toUtf8 text).length + 1) (mapping.drop (pointer - base))
    rw [show List.take _ _ = _ from holds.text, List.drop_drop] at parts
    rw [← parts, List.append_assoc]
    rfl
  have found : (mapping.drop (pointer - base)).findIdx? (· == 0) = some (toUtf8 text).length := by
    rw [split, findIdx?_solid holds.solid]
  have taken : window mapping (pointer - base) (toUtf8 text).length = toUtf8 text := by
    rw [window, split, List.take_left]
  rw [nameAt, found, Option.bind_some, taken, fromUtf8_toUtf8]

/-- A name pointer to a held text is sound. -/
theorem TextHolds.sound {outer : PublishedVector} {index : Nat} {text : String}
    (inside : ElementInside mapping outer index)
    (held : TextHolds mapping base (pointerAt mapping outer index) text) :
    NameSound mapping base outer index := by
  refine ⟨inside, held.above, ?_, text, nameAt_of_holds held⟩
  have width := congrArg List.length held.text
  simp only [window, List.length_take, List.length_drop, List.length_append,
    List.length_singleton] at width
  omega

/-- A held row is sound unless it is present with a large exponent. -/
theorem RowHolds.sound_iff {β : Type} {holds : Bytes → Nat → β → Prop} {outer : PublishedVector}
    {index : Nat} {row : Option (List β)} (addressable : mapping.length < 2 ^ 64)
    (inside : ElementInside mapping outer index)
    (held : RowHolds holds size mapping base (pointerAt mapping outer index) row) :
    RowSound mapping base size outer index ↔
      (row ≠ none → exponentAt mapping (pointerAt mapping outer index - base) < 64) := by
  cases row with
  | none =>
      have absent : pointerAt mapping outer index = 0 := held
      exact ⟨fun _ present => absurd rfl present,
        fun _ => ⟨inside, fun present => absurd absent present,
          fun present => absurd absent present⟩⟩
  | some cells =>
      obtain ⟨vector, _⟩ := held
      constructor
      · exact fun sound _ => vector.sound_iff.mp (sound.sound vector.pos)
      · intro small
        refine ⟨inside, fun _ => vector.sound_iff.mpr (small (by simp)), fun _ cell bound => ?_⟩
        rw [vector.length_eq] at bound
        exact vector.element addressable bound

/-- A held row reads as its cells. -/
theorem RowHolds.rowAt_eq {β : Type} {holds : Bytes → Nat → β → Prop}
    {value : PublishedVector → Nat → β} {outer : PublishedVector} {index : Nat}
    {row : Option (List β)}
    (reads : ∀ vector cell b, holds mapping (vector.offsetOf cell) b → value vector cell = b)
    (held : RowHolds holds size mapping base (pointerAt mapping outer index) row) :
    rowAt value mapping base size outer index = row.getD [] := by
  cases row with
  | none => exact if_pos held
  | some cells =>
      obtain ⟨vector, held⟩ := held
      rw [rowAt, if_neg vector.pos]
      refine List.ext_getElem (by simp [vector.length_eq]) fun cell _ bound => ?_
      simp only [Option.getD_some] at bound
      simp only [List.getElem_map, List.getElem_range', Nat.zero_add, Nat.one_mul,
        Option.getD_some]
      exact reads _ cell _ (held cell bound)

section Held

variable {γ : Type} {holds : Nat → γ → Prop} {pieces : List γ}

/-- The pieces of a held vector are sound under a small exponent when each of them is. -/
theorem PiecesHold.sound_iff (held : PiecesHold holds mapping base pointer pieces)
    {sound : PublishedVector → Nat → Prop} :
    PiecesSound mapping base pointer sound ↔ exponentAt mapping (pointer - base) < 64 ∧
      ∀ index, index < pieces.length →
        sound (vectorAt mapping base pointer sizeOfPointer) index := by
  have length := held.vector.length_eq
  constructor
  · exact fun ⟨vector, each⟩ => ⟨held.vector.sound_iff.mp vector,
      fun index bound => each index (by rwa [length])⟩
  · exact fun ⟨small, each⟩ => ⟨held.vector.sound_iff.mpr small,
      fun index bound => each index (by rwa [length] at bound)⟩

theorem PiecesHold.piecesAt_eq {β : Type} (held : PiecesHold holds mapping base pointer pieces)
    {value : PublishedVector → Nat → β} {meaning : γ → β}
    (each : ∀ index (bound : index < pieces.length),
      value (vectorAt mapping base pointer sizeOfPointer) index = meaning pieces[index]) :
    piecesAt value mapping base pointer = pieces.map meaning := by
  refine List.ext_getElem (by simp [piecesAt, held.vector.length_eq]) fun index _ bound => ?_
  rw [List.length_map] at bound
  simp only [piecesAt, List.getElem_map, List.getElem_range', Nat.zero_add, Nat.one_mul]
  exact each index bound

/-- Held rows are sound exactly when the exponents of their vectors fit. -/
theorem PiecesHold.rows_sound_iff {β : Type} {cell : Bytes → Nat → β → Prop}
    {rows : List (Option (List β))} (addressable : mapping.length < 2 ^ 64)
    (held : PiecesHold (RowHolds cell size mapping base) mapping base pointer rows) :
    PiecesSound mapping base pointer (RowSound mapping base size) ↔
      RowsFit mapping base pointer rows := by
  rw [held.sound_iff, RowsFit]
  refine and_congr_right fun _ => forall_congr' fun index => forall_congr' fun bound => ?_
  exact (held.pieces index bound).sound_iff addressable (held.vector.element addressable bound)

end Held

/-! ## Entries -/

variable {entry : DirectoryEntry} {content : Content}

theorem entrySound_iff (addressable : mapping.length < 2 ^ 64)
    (held : ContentHolds mapping base entry.data.toNat content) :
    EntrySound mapping base entry content.type ↔
      ContentFits mapping base entry.data.toNat content := by
  cases content with
  | scalar value => exact Iff.rfl
  | gauge value => exact Iff.rfl
  | simple rows => exact PiecesHold.rows_sound_iff addressable held
  | combined rows => exact PiecesHold.rows_sound_iff addressable held
  | names listed =>
      have held : PiecesHold (TextHolds mapping base) mapping base entry.data.toNat listed := held
      exact held.sound_iff.trans (and_iff_left fun index bound =>
        TextHolds.sound (held.vector.element addressable bound) (held.pieces index bound))

theorem valueAt_eq (held : ContentHolds mapping base entry.data.toNat content) :
    valueAt mapping base entry content.type = content.value := by
  cases content with
  | scalar value => exact congrArg MetricValue.scalar (UInt64.toNat_inj.mp held)
  | gauge value => exact congrArg MetricValue.gauge (UInt64.toNat_inj.mp held)
  | simple rows =>
      exact congrArg MetricValue.simple (PiecesHold.piecesAt_eq held fun index bound =>
        RowHolds.rowAt_eq (fun _ _ _ cell => u64At_of_holds cell) (held.pieces index bound))
  | combined rows =>
      exact congrArg MetricValue.combined (PiecesHold.piecesAt_eq held fun index bound =>
        RowHolds.rowAt_eq (fun _ _ _ cell => counterAt_of_holds cell) (held.pieces index bound))
  | names listed =>
      have held : PiecesHold (TextHolds mapping base) mapping base entry.data.toNat listed := held
      have same : piecesAt (fun outer index =>
          (nameAt mapping (pointerAt mapping outer index - base)).getD default) mapping base
          entry.data.toNat = listed.map id :=
        held.piecesAt_eq fun index bound =>
          congrArg (fun text => text.getD default) (nameAt_of_holds (held.pieces index bound))
      rw [List.map_id] at same
      exact congrArg MetricValue.names same

/-! ## The directory -/

theorem type_ofBytes {offset : Nat} :
    (DirectoryEntry.ofBytes (window mapping offset sizeOfDirectoryEntry)).directoryType =
      leNat (window mapping offset 4) := by
  rw [DirectoryEntry.ofBytes, window_window (by decide), Nat.add_zero]

theorem data_ofBytes {offset : Nat} :
    (DirectoryEntry.ofBytes (window mapping offset sizeOfDirectoryEntry)).data.toNat =
      leNat (window mapping (offset + 8) 8) := by
  have small : leNat (window mapping (offset + 8) 8) < 2 ^ 64 := by
    refine Nat.lt_of_lt_of_le (leNat_lt _) ?_
    calc 256 ^ (window mapping (offset + 8) 8).length
        ≤ 256 ^ 8 := Nat.pow_le_pow_right (by decide) (by simp [window])
      _ = 2 ^ 64 := by decide
  have inner : window (window mapping offset sizeOfDirectoryEntry) 8 8 =
      window mapping (offset + 8) 8 := window_window (by decide)
  simp only [DirectoryEntry.ofBytes, inner]
  exact UInt64.toNat_ofNat_of_lt' small

theorem name_ofBytes {offset : Nat} :
    (DirectoryEntry.ofBytes (window mapping offset sizeOfDirectoryEntry)).name =
      window mapping (offset + 16) MAX_NAME_BYTES := window_window (by decide)

/-- A zero-padded name decodes to its text. -/
theorem nameText_of_padded {name : String} (short : (toUtf8 name).length ≤ MAX_NAME_LENGTH)
    (solid : 0 ∉ toUtf8 name)
    (padded : entry.name =
      toUtf8 name ++ List.replicate (MAX_NAME_BYTES - (toUtf8 name).length) 0) :
    entry.nameText = .ok name := by
  have room : MAX_NAME_BYTES - (toUtf8 name).length =
      MAX_NAME_BYTES - (toUtf8 name).length - 1 + 1 := by
    have limit : MAX_NAME_LENGTH < MAX_NAME_BYTES := by decide
    omega
  rw [room, List.replicate_succ] at padded
  have rest : entry.name.drop ((toUtf8 name).length + 1) =
      List.replicate (MAX_NAME_BYTES - (toUtf8 name).length - 1) 0 := by
    rw [padded, List.drop_length_add_append]
    rfl
  have clear : (List.replicate (MAX_NAME_BYTES - (toUtf8 name).length - 1) (0 : UInt8)).any
      (· != 0) = false := by
    simp
  have taken : entry.name.take (toUtf8 name).length =
      toUtf8 name := by rw [padded, List.take_left]
  have found : entry.name.findIdx? (· == 0) = some (toUtf8 name).length := by
    rw [padded, findIdx?_solid solid]
  simp only [DirectoryEntry.nameText, found, if_neg (Nat.not_lt.mpr short), rest, clear, taken,
    fromUtf8_toUtf8, Bool.false_eq_true, if_false]

section Directory

variable {directory : List Entry} {index : Nat}

theorem Represents.length_eq (represents : Represents mapping base directory) :
    (directoryAt mapping).length = directory.length := by
  have counted := represents.vector.counted
  rwa [← represents.based] at counted

theorem Represents.element (represents : Represents mapping base directory)
    (bound : index < directory.length) : ElementInside mapping (directoryAt mapping) index := by
  rw [directoryAt, represents.based]
  exact represents.vector.element represents.addressable bound

/-- The copied entry carries the held type, data word and name. -/
theorem Represents.entryAt_spec (represents : Represents mapping base directory)
    (bound : index < directory.length) :
    (entryAt mapping (directoryAt mapping) index).type = .ok directory[index].content.type ∧
      (entryAt mapping (directoryAt mapping) index).data.toNat =
        leNat (window mapping ((headerAt mapping).directoryVector - base +
          index * sizeOfDirectoryEntry + 8) 8) ∧
      (entryAt mapping (directoryAt mapping) index).nameText = .ok directory[index].name := by
  have held := represents.entries index bound
  have offset : (directoryAt mapping).offsetOf index =
      (headerAt mapping).directoryVector - base + index * sizeOfDirectoryEntry := by
    rw [← represents.based]
    rfl
  rw [entryAt, offset]
  refine ⟨?_, data_ofBytes, nameText_of_padded held.short held.solid ?_⟩
  · rw [DirectoryEntry.type, type_ofBytes, held.code, Content.tryFrom_code]
  · rw [name_ofBytes, held.name]

theorem Represents.named (represents : Represents mapping base directory)
    (bound : index < directory.length) :
    Named mapping (directoryAt mapping) index ∧
      textAt mapping (directoryAt mapping) index = directory[index].name := by
  have text := (represents.entryAt_spec bound).2.2
  exact ⟨⟨represents.element bound, _, text⟩, by rw [textAt, text]; rfl⟩

/-- The directory vector is sound exactly when its exponent is small. -/
theorem Represents.sound_iff (represents : Represents mapping base directory) :
    VectorSound mapping (headerAt mapping).base (headerAt mapping).directoryVector ↔
      exponentAt mapping ((headerAt mapping).directoryVector - base) < 64 := by
  rw [represents.based]
  exact represents.vector.sound_iff

theorem Represents.exec_call {α : Type} {decode : Decoder α} {operation : String}
    (represents : Represents mapping base directory)
    (small : exponentAt mapping ((headerAt mapping).directoryVector - base) < 64) :
    (withPublishedDirectory (whole mapping) operation decode).exec quiet mapping =
      (decode (whole mapping) base (directoryAt mapping)).exec quiet mapping := by
  have resolved := (resolve_verdict mapping (headerAt mapping).base
    (headerAt mapping).directoryVector sizeOfDirectoryEntry).exec (represents.sound_iff.mpr small)
  rw [← represents.based]
  exact exec_publishedAttempts represents.ready 15 resolved

theorem Represents.exec_names (represents : Represents mapping base directory)
    (small : exponentAt mapping ((headerAt mapping).directoryVector - base) < 64) :
    (names (whole mapping)).exec quiet mapping = (.ok (directory.map Entry.name), mapping) := by
  have listed := Verdict.collect 0 (directoryAt mapping).length fun index =>
    entryName_verdict mapping index (show (directoryAt mapping).elementSize =
      sizeOfDirectoryEntry from rfl)
  rw [names, represents.exec_call small]
  have same : (List.range' 0 (directoryAt mapping).length).map
      (textAt mapping (directoryAt mapping)) = directory.map Entry.name := by
    refine List.ext_getElem (by simp [represents.length_eq]) fun index _ bound => ?_
    rw [List.length_map] at bound
    simp only [List.getElem_map, List.getElem_range', Nat.zero_add, Nat.one_mul]
    exact (represents.named bound).2
  rw [← same]
  refine listed.exec fun index _ bound => (represents.named ?_).1
  rwa [Nat.zero_add, represents.length_eq] at bound

/-- `read` of an absent name. -/
theorem Represents.exec_read_absent (represents : Represents mapping base directory)
    (small : exponentAt mapping ((headerAt mapping).directoryVector - base) < 64) {name : String}
    (absent : ∀ index (bound : index < directory.length), directory[index].name ≠ name) :
    (read (whole mapping) name).exec quiet mapping =
      (.error (.metricNotFound name), mapping) := by
  rw [read, represents.exec_call small]
  rcases findEntryFrom_cases mapping name (show (directoryAt mapping).elementSize =
      sizeOfDirectoryEntry from rfl) 0 (directoryAt mapping).length with
    ⟨found, _, named, text, _, _⟩ | ⟨_, run⟩ | ⟨bad, _, bound, invalid, _⟩
  · have bound : found < directory.length := by
      rw [← represents.length_eq]
      exact named.inside.bound
    exact absurd ((represents.named bound).2.symm.trans text) (absent found bound)
  · exact exec_bind_of_ok run
  · rw [Nat.zero_add, represents.length_eq] at bound
    exact absurd (represents.named bound).1 invalid

/-- `read` of the name of entry `index`, the first of that name, decodes that entry. -/
theorem Represents.exec_read_first (represents : Represents mapping base directory)
    (small : exponentAt mapping ((headerAt mapping).directoryVector - base) < 64)
    (bound : index < directory.length)
    (first : ∀ earlier (before : earlier < index),
      directory[earlier].name ≠ directory[index].name) :
    (read (whole mapping) directory[index].name).exec quiet mapping =
      (decodeValue (whole mapping) base (entryAt mapping (directoryAt mapping) index)
        directory[index].name directory[index].content.type).exec quiet mapping := by
  have size : (directoryAt mapping).elementSize = sizeOfDirectoryEntry := rfl
  rw [read, represents.exec_call small]
  have scanned :
      (findEntry (directoryAt mapping) (whole mapping) directory[index].name).exec quiet
      mapping = (.ok (some index), mapping) := by
    refine (findEntry_some_iff size).mpr
      ⟨(represents.named bound).1, (represents.named bound).2, ?_⟩
    intro earlier below
    have inside : earlier < directory.length := by omega
    refine ⟨(represents.named inside).1, ?_⟩
    rw [(represents.named inside).2]
    exact first earlier below
  have copied := (readEntry_verdict mapping index size).exec (represents.element bound)
  have typed := (represents.entryAt_spec bound).1
  have plain : directory[index].content.type ≠ .symlink := by
    cases directory[index].content <;> simp [Content.type]
  have limit : SYMLINK_LIMIT = 15 + 1 := rfl
  rw [decodeNamed, bind_eq, exec_bind_of_ok scanned]
  simp only [limit, decodeEntry, bind_eq]
  rw [exec_bind_of_ok copied, typed]
  exact congrArg (fun p : Reader MetricValue => p.exec quiet mapping) (if_neg plain)

end Directory

end Pieces

/-- On a mapping that represents a directory, `names` and `read` return that directory exactly
when the alignment exponents that they visit are below 64. -/
theorem reads_iff (mapping : Bytes) (base : Nat) (directory : List Entry)
    (represents : Represents mapping base directory) :
    ReadsAs mapping directory ↔ ExponentsFit mapping base directory := by
  have decoded : ∀ index (bound : index < directory.length), Verdict quiet
      (decodeValue (whole mapping) base (entryAt mapping (directoryAt mapping) index)
        directory[index].name directory[index].content.type) mapping
      (ContentFits mapping base
        (leNat (window mapping ((headerAt mapping).directoryVector - base +
        index * sizeOfDirectoryEntry + 8) 8)) directory[index].content)
      (EntryDefect mapping base (entryAt mapping (directoryAt mapping) index)
        directory[index].content.type)
      directory[index].content.value := by
    intro index bound
    obtain ⟨typed, data, _⟩ := represents.entryAt_spec bound
    have held := (represents.entries index bound).content
    rw [← data] at held ⊢
    exact (decodeValue_verdict directory[index].name typed).congr
      (entrySound_iff represents.addressable held) Iff.rfl fun _ => valueAt_eq held
  constructor
  · rintro ⟨listed, readings⟩
    have small : exponentAt mapping ((headerAt mapping).directoryVector - base) < 64 := by
      by_contra large
      have defect : NamesDefect mapping := by
        refine ⟨represents.ready, ?_⟩
        rw [represents.based]
        exact ⟨⟨represents.vector.above, represents.vector.room,
          represents.vector.length_inside⟩, Nat.not_lt.mp large⟩
      have fault := crashes_names.mpr defect
      rw [Crashes, listed] at fault
      cases fault
    refine ⟨small, fun index bound first => ?_⟩
    have found : directory.find? (fun entry => entry.name = directory[index].name) =
        some directory[index] := by
      refine List.find?_eq_some_iff_getElem.mpr
        ⟨by simp, index, bound, rfl, fun earlier before => ?_⟩
      simpa using first earlier before
    have reading := readings directory[index].name
    rw [found, represents.exec_read_first small bound first] at reading
    exact (decoded index bound).sound reading
  · rintro ⟨small, fits⟩
    refine ⟨represents.exec_names small, fun name => ?_⟩
    cases found : directory.find? fun entry => entry.name = name with
    | none =>
        refine represents.exec_read_absent small fun index bound => ?_
        simpa using List.find?_eq_none.mp found directory[index] (List.getElem_mem bound)
    | some entry =>
        obtain ⟨same, index, bound, rfl, before⟩ := List.find?_eq_some_iff_getElem.mp found
        obtain rfl : directory[index].name = name := by simpa using same
        have first : ∀ earlier (before : earlier < index),
            directory[earlier].name ≠ directory[index].name := fun earlier inside => by
          simpa using before earlier inside
        rw [represents.exec_read_first small bound first]
        exact (decoded index bound).exec (fits index bound first)

/-- Not every represented directory is read back: the empty directory of `overflowing` is not. -/
theorem layout_not_read : ¬ ∀ mapping base directory, Represents mapping base directory →
    ReadsAs mapping directory := by
  intro faithful
  have represents : Represents overflowing 0 [] := {
    addressable := by decide
    ready := ⟨by decide, by decide +kernel, by decide +kernel⟩
    based := by decide +kernel
    vector := ⟨by decide, by decide +kernel, by decide +kernel, by decide +kernel⟩
    entries := fun index bound => by cases bound }
  have panics : ((names (whole overflowing)).exec quiet overflowing).1 = .panic := by
    decide +kernel
  rw [(faithful overflowing 0 [] represents).1] at panics
  cases panics

/-- A segment at base 4096 with one entry: a present row of two counters and an absent one. -/
def sample : Bytes :=
  leBytes 8 2 ++ leBytes 8 4096 ++ leBytes 8 7 ++ leBytes 8 0 ++ leBytes 8 (4096 + 48) ++
    [1, 0, 0, 0, 0, 3, 0, 0] ++
    (leBytes 8 2 ++ leBytes 8 (4096 + 200) ++ 97 :: List.replicate 127 0) ++
    [2, 0, 0, 0, 0, 3, 0, 0] ++ (leBytes 8 (4096 + 224) ++ leBytes 8 0) ++
    [2, 0, 0, 0, 0, 3, 0, 0] ++ (leBytes 8 5 ++ leBytes 8 6)

def sampleDirectory : List Entry := [⟨"a", .simple [some [5, 6], none]⟩]

theorem sample_represents : Represents sample 4096 sampleDirectory where
  addressable := by decide +kernel
  ready := ⟨by decide +kernel, by decide +kernel, by decide +kernel⟩
  based := by decide +kernel
  vector := ⟨by decide +kernel, by decide +kernel, by decide +kernel, by decide +kernel⟩
  entries index bound := by
    obtain rfl : index = 0 := by simpa [sampleDirectory] using bound
    refine ⟨by decide +kernel +revert, ?_, by decide +kernel +revert, by decide +kernel +revert,
      by decide +kernel +revert⟩
    refine ⟨⟨by decide +kernel, by decide +kernel, by decide +kernel, by decide +kernel⟩, ?_⟩
    rintro (_ | _ | row) bound
    · refine ⟨⟨by decide +kernel, by decide +kernel, by decide +kernel, by decide +kernel⟩, ?_⟩
      rintro (_ | _ | cell) bound
      · show leNat _ = _
        decide +kernel +revert
      · show leNat _ = _
        decide +kernel +revert
      · exact (Nat.not_lt_of_le (Nat.le_add_left 2 cell) bound).elim
    · show leNat _ = 0
      decide +kernel
    · exact (Nat.not_lt_of_le (Nat.le_add_left 2 row) bound).elim

theorem sample_reads : ReadsAs sample sampleDirectory := by
  refine (reads_iff sample 4096 sampleDirectory sample_represents).mpr ⟨by decide +kernel, ?_⟩
  intro index bound _
  obtain rfl : index = 0 := by simpa [sampleDirectory] using bound
  refine ⟨by decide +kernel, ?_⟩
  rintro (_ | _ | row) bound present
  · decide +kernel
  · exact absurd rfl present
  · exact (Nat.not_lt_of_le (Nat.le_add_left 2 row) bound).elim

end Netsystem.Stats
