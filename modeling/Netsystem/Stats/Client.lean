import Netsystem.Stats.Protocol

/-!
# The stats client

`hammer-stats-client/src/client.rs`: the directory walk behind `StatsClient::names` and
`StatsClient::read`. Functions take the mapping as the slice that covers it. The recursion of
`decode_entry` counts the remaining hops down where the source counts the depth up:
`hops = SYMLINK_LIMIT - depth`.
-/

namespace Netsystem.Stats

def RETRY_LIMIT : Nat := 16
def SYMLINK_LIMIT : Nat := 16

/-- One word of the header copy. -/
def readWord (copy : HeaderCopy) (mapping : Slice) (word : HeaderWord) : Reader Nat := do
  let bytes ← Prog.perform ⟨.header copy word, mapping.offset + word.offset, 8⟩
  pure (leNat bytes)

/-- `read_header`: the words are copied in increasing address order. -/
def readHeader (copy : HeaderCopy) (mapping : Slice) : Reader SharedHeader :=
  match mapping.get 0 sizeOfSharedHeader with
  | none => .throw (.protocol .invalidMapping)
  | some _ => do
      let version ← readWord copy mapping .version
      let base ← readWord copy mapping .base
      let epoch ← readWord copy mapping .epoch
      let inProgress ← readWord copy mapping .inProgress
      let directoryVector ← readWord copy mapping .directoryVector
      pure {
        version := version
        base := base
        epoch := epoch
        inProgress := inProgress
        directoryVector := directoryVector }

/-- `read_entry`. -/
def readEntry (directory : PublishedVector) (mapping : Slice) (index : Nat) :
    Reader DirectoryEntry := do
  let element ← directory.element mapping index
  let bytes ← element.copy sizeOfDirectoryEntry
  pure (DirectoryEntry.ofBytes bytes)

/-- The name of the entry at `index`. -/
def entryName (directory : PublishedVector) (mapping : Slice) (index : Nat) : Reader String := do
  let entry ← readEntry directory mapping index
  lift entry.nameText

/-- `find_entry` on the `count` entries from `index`. -/
def findEntryFrom (directory : PublishedVector) (mapping : Slice) (name : String) :
    (index count : Nat) → Reader (Option Nat)
  | _, 0 => pure none
  | index, count + 1 => do
      let text ← entryName directory mapping index
      if text = name then pure (some index)
      else findEntryFrom directory mapping name (index + 1) count

def findEntry (directory : PublishedVector) (mapping : Slice) (name : String) :
    Reader (Option Nat) :=
  findEntryFrom directory mapping name 0 directory.length

/-- `vector_of`. -/
def vectorOf (mapping : Slice) (base : Nat) (entry : DirectoryEntry) :
    Reader PublishedVector := do
  let pointer ← lift entry.dataPointer
  PublishedVector.resolve mapping base pointer sizeOfPointer

/-- `inner_vector`: `none` for a null element. -/
def innerVector (mapping : Slice) (base : Nat) (outer : PublishedVector) (row elementSize : Nat) :
    Reader (Option PublishedVector) := do
  let published ← outer.pointer mapping row
  if published = 0 then pure none
  else do
    let inner ← PublishedVector.resolve mapping base published elementSize
    pure (some inner)

/-- `inner_u64_vector`. -/
def innerU64Vector (mapping : Slice) (base : Nat) (outer : PublishedVector) (row : Nat) :
    Reader (Option (List UInt64)) := do
  match ← innerVector mapping base outer row sizeOfU64 with
  | none => pure none
  | some inner => do
      let values ← Prog.collectFrom (inner.u64 mapping) 0 inner.length
      pure (some values)

/-- One counter of a combined row. -/
def readCounter (inner : PublishedVector) (mapping : Slice) (column : Nat) : Reader Counter := do
  let element ← inner.element mapping column
  let low ← element.range 0 8
  let packets ← low.copy 8
  let high ← element.range 8 16
  let bytes ← high.copy 8
  pure ⟨UInt64.ofNat (leNat packets), UInt64.ofNat (leNat bytes)⟩

/-- One row of a simple counter vector, an absent row being empty. -/
def simpleRow (mapping : Slice) (base : Nat) (outer : PublishedVector) (row : Nat) :
    Reader (List UInt64) := do
  let values ← innerU64Vector mapping base outer row
  pure (values.getD [])

/-- One row of a combined counter vector, an absent row being empty. -/
def combinedRow (mapping : Slice) (base : Nat) (outer : PublishedVector) (row : Nat) :
    Reader (List Counter) := do
  match ← innerVector mapping base outer row sizeOfCounter with
  | none => pure []
  | some inner => Prog.collectFrom (readCounter inner mapping) 0 inner.length

/-- One name of a name vector. `from_utf8` and `to_owned` read the found bytes in one pass
here. -/
def nameElement (mapping : Slice) (base : Nat) (outer : PublishedVector) (index : Nat) :
    Reader String := do
  let published ← outer.pointer mapping index
  if published < base then .throw (.protocol (.pointerBeforeBase published base))
  else do
    let bytes ← mapping.range (published - base) mapping.length
    match ← bytes.position 0 bytes.length with
    | none => .throw (.protocol .missingNameTerminator)
    | some stop => do
        let text ← bytes.range 0 stop
        let copied ← text.copy stop
        match fromUtf8 copied with
        | none => .throw (.protocol .invalidNameEncoding)
        | some name => pure name

/-- `name_vector`. -/
def nameVector (mapping : Slice) (base : Nat) (entry : DirectoryEntry) :
    Reader (List String) := do
  let pointer ← lift entry.nameVectorPointer
  let outer ← PublishedVector.resolve mapping base pointer sizeOfPointer
  Prog.collectFrom (nameElement mapping base outer) 0 outer.length

/-- The value of an entry that is not a symlink: the remaining arms of `decode_entry`. -/
def decodeValue (mapping : Slice) (base : Nat) (entry : DirectoryEntry) (name : String) :
    DirectoryType → Reader MetricValue
  | .scalarIndex => do
      let value ← lift entry.scalar
      pure (.scalar value)
  | .gauge => do
      let value ← lift entry.scalar
      pure (.gauge value)
  | .counterVectorSimple => do
      let vector ← vectorOf mapping base entry
      let rows ← Prog.collectFrom (simpleRow mapping base vector) 0 vector.length
      pure (.simple rows)
  | .counterVectorCombined => do
      let vector ← vectorOf mapping base entry
      let rows ← Prog.collectFrom (combinedRow mapping base vector) 0 vector.length
      pure (.combined rows)
  | .nameVector => do
      let names ← nameVector mapping base entry
      pure (.names names)
  | directoryType => .throw (.unsupportedDirectoryType name directoryType.label)

/-- `decode_entry` with `hops` symlink hops left. -/
def decodeEntry (mapping : Slice) (base : Nat) (directory : PublishedVector) (name : String) :
    (hops index : Nat) → Reader MetricValue
  | 0, _ => .throw (.symlinkCycle name SYMLINK_LIMIT)
  | hops + 1, index => do
      let entry ← readEntry directory mapping index
      let directoryType ← lift entry.type
      if directoryType = .symlink then do
        let (target, column) ← lift entry.symlink
        let value ← decodeEntry mapping base directory name hops target
        lift (value.column column)
      else decodeValue mapping base entry name directoryType

/-- What one attempt decodes: a function of the mapping, its base and the directory. -/
abbrev Decoder (α : Type) : Type := Slice → Nat → PublishedVector → Reader α

/-- The attempts left of `with_published_directory`. -/
def publishedAttempts {α : Type} (mapping : Slice) (operation : String) (decode : Decoder α) :
    Nat → Reader α
  | 0 => .throw (.retryExhausted operation RETRY_LIMIT)
  | attempts + 1 => do
      let header ← readHeader .opening mapping
      lift header.validateVersion
      if header.isWriteInProgress then publishedAttempts mapping operation decode attempts
      else do
        let directory ← PublishedVector.resolve mapping header.base header.directoryVector
          sizeOfDirectoryEntry
        let value ← decode mapping header.base directory
        let closing ← readHeader .closing mapping
        lift closing.validateVersion
        if closing.isWriteInProgress = false ∧ closing.epoch = header.epoch then pure value
        else publishedAttempts mapping operation decode attempts

/-- `StatsClient::with_published_directory`. -/
def withPublishedDirectory {α : Type} (mapping : Slice) (operation : String)
    (decode : Decoder α) : Reader α :=
  publishedAttempts mapping operation decode RETRY_LIMIT

/-- The closure of `StatsClient::names`. -/
def decodeNames : Decoder (List String) := fun mapping _ directory =>
  Prog.collectFrom (entryName directory mapping) 0 directory.length

/-- The closure of `StatsClient::read`. -/
def decodeNamed (name : String) : Decoder MetricValue := fun mapping base directory => do
  match ← findEntry directory mapping name with
  | none => .throw (.metricNotFound name)
  | some index => decodeEntry mapping base directory name SYMLINK_LIMIT index

/-- `StatsClient::names`. -/
def names (mapping : Slice) : Reader (List String) :=
  withPublishedDirectory mapping "names" decodeNames

/-- `StatsClient::read`. -/
def read (mapping : Slice) (name : String) : Reader MetricValue :=
  withPublishedDirectory mapping "read" (decodeNamed name)

/-! ## Quiet mappings -/

/-- The slice of a whole mapping. -/
def whole (bytes : Bytes) : Slice := ⟨0, bytes.length⟩

/-- A mapping that nobody writes: loads outside of it are faults. -/
def quiet : Prog.Device Load (fun _ => Bytes) Bytes := fun load bytes =>
  if load.offset + load.width ≤ bytes.length then
    some (window bytes load.offset load.width, bytes)
  else none

/-! ## The loads of the reader -/

/-- A load of something other than a header word. -/
def Load.OnData (load : Load) : Prop := load.site = .data

section Loads

open Prog

@[simp] theorem performs_lift {α : Type} {result : Except ProtocolError α}
    {allowed : Load → Prop} :
    (lift result).Performs allowed := performs_ofExcept

theorem Slice.performs_range {slice : Slice} {start stop : Nat} {allowed : Load → Prop} :
    (slice.range start stop).Performs allowed := by
  unfold Slice.range
  split <;> simp

theorem Slice.performs_byte {slice : Slice} {index : Nat} :
    (slice.byte index).Performs Load.OnData := by
  unfold Slice.byte
  split
  · exact ⟨rfl, fun _ => by simp⟩
  · simp

theorem Slice.performs_copyFrom {slice : Slice} {index count : Nat} :
    (slice.copyFrom index count).Performs Load.OnData := by
  induction count generalizing index with
  | zero => simp [Slice.copyFrom]
  | succ count ih => exact Slice.performs_byte.bind fun _ => ih.bind fun _ => by simp

theorem Slice.performs_copy {slice : Slice} {size : Nat} :
    (slice.copy size).Performs Load.OnData := by
  unfold Slice.copy
  split
  · exact Slice.performs_copyFrom
  · simp

theorem Slice.performs_position {slice : Slice} {index count : Nat} :
    (slice.position index count).Performs Load.OnData := by
  induction count generalizing index with
  | zero => simp [Slice.position]
  | succ count ih =>
      refine Slice.performs_byte.bind fun byte => ?_
      split
      · simp
      · exact ih

theorem performs_shiftLeft {value amount : Nat} {allowed : Load → Prop} :
    (shiftLeft value amount).Performs allowed := by
  unfold shiftLeft
  split <;> simp

theorem PublishedVector.performs_resolve {mapping : Slice} {base published elementSize : Nat} :
    (resolve mapping base published elementSize).Performs Load.OnData := by
  unfold resolve
  split
  · simp
  · dsimp only
    split
    · simp
    · split
      · simp
      · exact Slice.performs_byte.bind fun _ => Slice.performs_byte.bind fun _ =>
          Slice.performs_byte.bind fun _ => Slice.performs_byte.bind fun _ =>
          Slice.performs_byte.bind fun _ => performs_shiftLeft.bind fun _ => by simp

variable {vector : PublishedVector} {mapping : Slice}

theorem PublishedVector.performs_element {index : Nat} {allowed : Load → Prop} :
    (vector.element mapping index).Performs allowed := by
  unfold element
  dsimp only
  split
  · simp
  · split
    · simp
    · split
      · simp
      · split <;> simp

theorem PublishedVector.performs_word {index size : Nat} :
    (vector.word mapping index size).Performs Load.OnData := by
  unfold word
  split
  · simp
  · exact performs_element.bind fun _ => Slice.performs_range.bind fun _ =>
      Slice.performs_copy.bind fun _ => by simp

theorem performs_readEntry {index : Nat} :
    (readEntry vector mapping index).Performs Load.OnData :=
  PublishedVector.performs_element.bind fun _ => Slice.performs_copy.bind fun _ => by simp

theorem performs_entryName {index : Nat} :
    (entryName vector mapping index).Performs Load.OnData :=
  performs_readEntry.bind fun _ => performs_lift

theorem performs_findEntryFrom {name : String} {index count : Nat} :
    (findEntryFrom vector mapping name index count).Performs Load.OnData := by
  induction count generalizing index with
  | zero => simp [findEntryFrom]
  | succ count ih =>
      refine performs_entryName.bind fun text => ?_
      split
      · simp
      · exact ih

theorem performs_innerVector {base row elementSize : Nat} :
    (innerVector mapping base vector row elementSize).Performs Load.OnData := by
  refine PublishedVector.performs_word.bind fun published => ?_
  split
  · simp
  · exact PublishedVector.performs_resolve.bind fun _ => by simp

theorem performs_simpleRow {base row : Nat} :
    (simpleRow mapping base vector row).Performs Load.OnData := by
  refine Performs.bind (performs_innerVector.bind fun inner => ?_) fun _ => by simp
  split
  · simp
  · refine Performs.bind (Performs.collectFrom (fun index => ?_) 0 _) fun _ => by simp
    exact PublishedVector.performs_word.bind fun _ => by simp

theorem performs_readCounter {column : Nat} :
    (readCounter vector mapping column).Performs Load.OnData :=
  PublishedVector.performs_element.bind fun _ => Slice.performs_range.bind fun _ =>
    Slice.performs_copy.bind fun _ => Slice.performs_range.bind fun _ =>
    Slice.performs_copy.bind fun _ => by simp

theorem performs_combinedRow {base row : Nat} :
    (combinedRow mapping base vector row).Performs Load.OnData := by
  refine performs_innerVector.bind fun inner => ?_
  split
  · simp
  · exact Performs.collectFrom (fun _ => performs_readCounter) 0 _

theorem performs_nameElement {base index : Nat} :
    (nameElement mapping base vector index).Performs Load.OnData := by
  refine PublishedVector.performs_word.bind fun published => ?_
  split
  · simp
  · refine Slice.performs_range.bind fun _ => Slice.performs_position.bind fun stop => ?_
    split
    · simp
    · refine Slice.performs_range.bind fun _ => Slice.performs_copy.bind fun copied => ?_
      split <;> simp

theorem performs_decodeValue {base : Nat} {entry : DirectoryEntry} {name : String}
    {directoryType : DirectoryType} :
    (decodeValue mapping base entry name directoryType).Performs Load.OnData := by
  have resolved : (vectorOf mapping base entry).Performs Load.OnData :=
    performs_lift.bind fun _ => PublishedVector.performs_resolve
  unfold decodeValue
  split
  · exact performs_lift.bind fun _ => by simp
  · exact performs_lift.bind fun _ => by simp
  · exact resolved.bind fun _ =>
      (Performs.collectFrom (fun _ => performs_simpleRow) 0 _).bind fun _ => by simp
  · exact resolved.bind fun _ =>
      (Performs.collectFrom (fun _ => performs_combinedRow) 0 _).bind fun _ => by simp
  · refine Performs.bind (performs_lift.bind fun _ => ?_) fun _ => by simp
    exact PublishedVector.performs_resolve.bind fun _ =>
      Performs.collectFrom (fun _ => performs_nameElement) 0 _
  · simp

theorem performs_decodeEntry {base : Nat} {name : String} {hops index : Nat} :
    (decodeEntry mapping base vector name hops index).Performs Load.OnData := by
  induction hops generalizing index with
  | zero => simp [decodeEntry]
  | succ hops ih =>
      refine performs_readEntry.bind fun entry => performs_lift.bind fun directoryType => ?_
      split
      · exact performs_lift.bind fun _ => ih.bind fun _ => performs_lift
      · exact performs_decodeValue

/-- The closures of `names` and `read` load no header word. -/
theorem performs_decodeNames {base : Nat} :
    (decodeNames mapping base vector).Performs Load.OnData :=
  Performs.collectFrom (fun _ => performs_entryName) 0 _

theorem performs_decodeNamed {base : Nat} {name : String} :
    (decodeNamed name mapping base vector).Performs Load.OnData := by
  refine performs_findEntryFrom.bind fun found => ?_
  split
  · simp
  · exact performs_decodeEntry

theorem performs_readWord {copy : HeaderCopy} {word : HeaderWord} :
    (readWord copy mapping word).Performs fun _ => True :=
  ⟨trivial, fun _ => by simp⟩

theorem performs_readHeader {copy : HeaderCopy} :
    (readHeader copy mapping).Performs fun _ => True := by
  unfold readHeader
  split
  · simp
  · exact performs_readWord.bind fun _ => performs_readWord.bind fun _ =>
      performs_readWord.bind fun _ => performs_readWord.bind fun _ =>
      performs_readWord.bind fun _ => by simp

/-- The retry loop is never abandoned: every attempt ends, and there are finitely many. -/
theorem performs_publishedAttempts {α : Type} {decode : Decoder α} {operation : String}
    (decoded : ∀ base directory, (decode mapping base directory).Performs Load.OnData)
    (attempts : Nat) :
    (publishedAttempts mapping operation decode attempts).Performs fun _ => True := by
  have free : ∀ {β : Type} {p : Reader β}, p.Performs Load.OnData → p.Performs fun _ => True :=
    fun confined => confined.mono fun _ _ => trivial
  induction attempts with
  | zero => simp [publishedAttempts]
  | succ attempts ih =>
      refine performs_readHeader.bind fun header => performs_lift.bind fun _ => ?_
      split
      · exact ih
      · refine (free PublishedVector.performs_resolve).bind fun directory =>
          (free (decoded _ _)).bind fun value =>
          performs_readHeader.bind fun closing => performs_lift.bind fun _ => ?_
        split
        · simp
        · exact ih

end Loads

/-! ## The errors of the reader -/

/-- Something about the directory is wrong, not about the header. -/
def ProtocolError.OfLayout : ProtocolError → Prop
  | .versionMismatch _ _ => False
  | .invalidMapping => False
  | _ => True

/-- The error of a result, if it is one, is about the directory. -/
def Layout {α : Type} (result : Except ProtocolError α) : Prop :=
  ∀ source, result = .error source → source.OfLayout

theorem layout_ok {α : Type} {value : α} : Layout (.ok value) := fun _ same => by cases same

theorem layout_error {α : Type} {source : ProtocolError} (fault : source.OfLayout) :
    Layout (.error source : Except ProtocolError α) := by
  intro other same
  cases same
  exact fault

theorem Layout.bind {α β : Type} {result : Except ProtocolError α}
    {f : α → Except ProtocolError β} (first : Layout result) (rest : ∀ value, Layout (f value)) :
    Layout (result >>= f) := by
  cases result with
  | error source => exact layout_error (first source rfl)
  | ok value => exact rest value

theorem Layout.map {α β : Type} {result : Except ProtocolError α} (first : Layout result)
    (f : α → β) : Layout (result.map f) := by
  cases result with
  | error source => exact layout_error (first source rfl)
  | ok value => exact layout_ok

theorem DirectoryEntry.layout_type (entry : DirectoryEntry) : Layout entry.type := by
  unfold DirectoryEntry.type DirectoryType.tryFrom
  split <;> first | exact layout_ok | exact layout_error trivial

theorem DirectoryEntry.layout_nameText (entry : DirectoryEntry) : Layout entry.nameText := by
  unfold DirectoryEntry.nameText
  split
  · exact layout_error trivial
  · split
    · exact layout_error trivial
    · split
      · exact layout_error trivial
      · split
        · exact layout_error trivial
        · exact layout_ok

theorem DirectoryEntry.layout_dataOf (entry : DirectoryEntry) (accepted : List DirectoryType)
    (expected : String) : Layout (entry.dataOf accepted expected) := by
  refine entry.layout_type.bind fun actual => ?_
  split
  · exact layout_ok
  · exact layout_error trivial

theorem layout_cropRows {α : Type} (rows : List (List α)) (column : Nat) :
    Layout (cropRows rows column) := by
  induction rows with
  | nil => exact layout_ok
  | cons row rest ih =>
      unfold cropRows
      split
      · exact layout_error trivial
      · exact ih.bind fun _ => layout_ok

theorem MetricValue.layout_column (value : MetricValue) (column : Nat) :
    Layout (value.column column) := by
  cases value with
  | simple rows => exact (layout_cropRows rows column).bind fun _ => layout_ok
  | combined rows => exact (layout_cropRows rows column).bind fun _ => layout_ok
  | histogram rows => exact (layout_cropRows rows column).bind fun _ => layout_ok
  | names listed => exact layout_ok
  | ring values => exact layout_ok
  | scalar word => exact layout_ok
  | gauge word => exact layout_ok

section Blames

open Prog

variable {blamed : Error → Prop} {mapping : Slice} {vector : PublishedVector}

/-- Indexing a slice faults or succeeds. -/
theorem Slice.blames_byte {slice : Slice} {index : Nat} : (slice.byte index).Blames blamed := by
  unfold Slice.byte
  split
  · exact fun _ => blames_ok
  · exact blames_panic

theorem Slice.blames_range {slice : Slice} {start stop : Nat} :
    (slice.range start stop).Blames blamed := by
  unfold Slice.range
  split
  · exact blames_ok
  · exact blames_panic

theorem Slice.blames_copy {slice : Slice} {size : Nat} : (slice.copy size).Blames blamed := by
  have from_ : ∀ index count, (slice.copyFrom index count).Blames blamed := by
    intro index count
    induction count generalizing index with
    | zero => exact blames_ok
    | succ count ih => exact Slice.blames_byte.bind fun _ => (ih _).bind fun _ => blames_ok
  unfold Slice.copy
  split
  · exact from_ 0 size
  · exact blames_panic

theorem Slice.blames_position {slice : Slice} {index count : Nat} :
    (slice.position index count).Blames blamed := by
  induction count generalizing index with
  | zero => exact blames_ok
  | succ count ih =>
      refine Slice.blames_byte.bind fun byte => ?_
      split
      · exact blames_ok
      · exact ih

theorem blames_shiftLeft {value amount : Nat} :
    (shiftLeft value amount : Reader Nat).Blames blamed := by
  unfold shiftLeft
  split
  · exact blames_ok
  · exact blames_panic

variable (layout : ∀ source, source.OfLayout → blamed (.protocol source))

include layout

theorem blames_lift {α : Type} {result : Except ProtocolError α} (faults : Layout result) :
    (lift result).Blames blamed := by
  cases result with
  | error source => exact blames_throw (layout source (faults source rfl))
  | ok value => exact blames_ok

theorem PublishedVector.blames_resolve {base published elementSize : Nat} :
    (resolve mapping base published elementSize).Blames blamed := by
  unfold resolve
  split
  · exact blames_throw (layout _ trivial)
  · dsimp only
    split
    · exact blames_throw (layout _ trivial)
    · split
      · exact blames_throw (layout _ trivial)
      · exact Slice.blames_byte.bind fun _ => Slice.blames_byte.bind fun _ =>
          Slice.blames_byte.bind fun _ => Slice.blames_byte.bind fun _ =>
          Slice.blames_byte.bind fun _ => blames_shiftLeft.bind fun _ => blames_ok

theorem PublishedVector.blames_element {index : Nat} :
    (vector.element mapping index).Blames blamed := by
  unfold element
  dsimp only
  split
  · exact blames_throw (layout _ trivial)
  · split
    · exact blames_throw (layout _ trivial)
    · split
      · exact blames_throw (layout _ trivial)
      · split
        · exact blames_throw (layout _ trivial)
        · exact blames_ok

theorem PublishedVector.blames_word {index size : Nat} :
    (vector.word mapping index size).Blames blamed := by
  unfold word
  split
  · exact blames_throw (layout _ trivial)
  · exact (blames_element layout).bind fun _ => Slice.blames_range.bind fun _ =>
      Slice.blames_copy.bind fun _ => blames_ok

theorem blames_innerVector {base row elementSize : Nat} :
    (innerVector mapping base vector row elementSize).Blames blamed := by
  refine (PublishedVector.blames_word layout).bind fun published => ?_
  split
  · exact blames_ok
  · exact (PublishedVector.blames_resolve layout).bind fun _ => blames_ok

theorem blames_simpleRow {base row : Nat} :
    (simpleRow mapping base vector row).Blames blamed := by
  refine Blames.bind ((blames_innerVector layout).bind fun inner => ?_) fun _ => blames_ok
  split
  · exact blames_ok
  · refine Blames.bind (Blames.collectFrom (fun index => ?_) 0 _) fun _ => blames_ok
    exact (PublishedVector.blames_word layout).bind fun _ => blames_ok

theorem blames_combinedRow {base row : Nat} :
    (combinedRow mapping base vector row).Blames blamed := by
  refine (blames_innerVector layout).bind fun inner => ?_
  split
  · exact blames_ok
  · refine Blames.collectFrom (fun index => ?_) 0 _
    exact (PublishedVector.blames_element layout).bind fun _ => Slice.blames_range.bind fun _ =>
      Slice.blames_copy.bind fun _ => Slice.blames_range.bind fun _ =>
      Slice.blames_copy.bind fun _ => blames_ok

theorem blames_nameElement {base index : Nat} :
    (nameElement mapping base vector index).Blames blamed := by
  refine (PublishedVector.blames_word layout).bind fun published => ?_
  split
  · exact blames_throw (layout _ trivial)
  · refine Slice.blames_range.bind fun _ => Slice.blames_position.bind fun stop => ?_
    split
    · exact blames_throw (layout _ trivial)
    · refine Slice.blames_range.bind fun _ => Slice.blames_copy.bind fun copied => ?_
      split
      · exact blames_throw (layout _ trivial)
      · exact blames_ok

/-- An entry that is no symlink is refused for its layout or for its type. -/
theorem blames_decodeValue {base : Nat} {entry : DirectoryEntry} {name : String}
    (unsupported : ∀ label, blamed (.unsupportedDirectoryType name label))
    (directoryType : DirectoryType) :
    (decodeValue mapping base entry name directoryType).Blames blamed := by
  have resolved : (vectorOf mapping base entry).Blames blamed :=
    (blames_lift layout ((entry.layout_dataOf _ _).map _)).bind fun _ =>
      PublishedVector.blames_resolve layout
  unfold decodeValue
  split
  · exact (blames_lift layout (entry.layout_dataOf _ _)).bind fun _ => blames_ok
  · exact (blames_lift layout (entry.layout_dataOf _ _)).bind fun _ => blames_ok
  · exact resolved.bind fun _ =>
      (Blames.collectFrom (fun _ => blames_simpleRow layout) 0 _).bind fun _ => blames_ok
  · exact resolved.bind fun _ =>
      (Blames.collectFrom (fun _ => blames_combinedRow layout) 0 _).bind fun _ => blames_ok
  · refine Blames.bind ((blames_lift layout ((entry.layout_dataOf _ _).map _)).bind fun _ => ?_)
      fun _ => blames_ok
    exact (PublishedVector.blames_resolve layout).bind fun _ =>
      Blames.collectFrom (fun _ => blames_nameElement layout) 0 _
  · exact blames_throw (unsupported _)

theorem blames_readEntry {index : Nat} : (readEntry vector mapping index).Blames blamed :=
  (PublishedVector.blames_element layout).bind fun _ => Slice.blames_copy.bind fun _ => blames_ok

theorem blames_entryName {index : Nat} : (entryName vector mapping index).Blames blamed :=
  (blames_readEntry layout).bind fun entry => blames_lift layout entry.layout_nameText

theorem blames_findEntryFrom {name : String} {index count : Nat} :
    (findEntryFrom vector mapping name index count).Blames blamed := by
  induction count generalizing index with
  | zero => exact blames_ok
  | succ count ih =>
      refine (blames_entryName layout).bind fun text => ?_
      split
      · exact blames_ok
      · exact ih

/-- An entry is refused for the layout, for the type of the value or for its symlinks. -/
theorem blames_decodeEntry {base : Nat} {name : String} {hops index : Nat}
    (unsupported : ∀ label, blamed (.unsupportedDirectoryType name label))
    (cycle : blamed (.symlinkCycle name SYMLINK_LIMIT)) :
    (decodeEntry mapping base vector name hops index).Blames blamed := by
  induction hops generalizing index with
  | zero => exact blames_throw cycle
  | succ hops ih =>
      refine (blames_readEntry layout).bind fun entry =>
        (blames_lift layout entry.layout_type).bind fun directoryType => ?_
      split
      · refine (blames_lift layout ((entry.layout_dataOf _ _).map _)).bind fun link =>
          ih.bind fun value => blames_lift layout (value.layout_column _)
      · exact blames_decodeValue layout unsupported directoryType

end Blames

end Netsystem.Stats
