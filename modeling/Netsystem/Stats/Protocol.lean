import Netsystem.Bytes
import Netsystem.Program

/-!
# The stats segment as its reader sees it

`hammer-stats-protocol/src/protocol.rs` on a 64-bit little-endian host. A mapping is read through
`Slice` values (a Rust `&[u8]` into the mapping: an offset and a length); the only operation of
the reader is `Load`, one load of some bytes of the mapping. Bounds-checked accesses (`get`)
answer `none`, plain indexing (`Slice.range`, `Slice.byte`) and an overflowing shift end in
`panic`, as in a build with overflow checks.

A load carries the site of the source it stems from. No answer depends on the site; statements
about interleavings use it to name a load.
-/

namespace Netsystem.Stats

/-! ## Errors -/

/-- `ProtocolError`. The label of a type mismatch is kept as the bytes that the source renders. -/
inductive ProtocolError : Type where
  | versionMismatch (actual expected : Nat)
  | invalidMapping
  | pointerBeforeBase (pointer base : Nat)
  | vectorOutOfBounds (length : Nat)
  | elementOutOfBounds (index length : Nat)
  | elementTooSmall (expected actual : Nat)
  | unknownDirectoryType (raw : Nat)
  | directoryTypeMismatch (name : Bytes) (expected actual : String)
  | missingNameTerminator
  | nameTooLong (length : Nat)
  | invalidNamePadding
  | invalidNameEncoding
  | symlinkCycle (depth : Nat)
  deriving DecidableEq, Repr

/-- The stats client's `Error`, without the variants of the socket handoff. -/
inductive Error : Type where
  | protocol (source : ProtocolError)
  | retryExhausted (operation : String) (attempts : Nat)
  | metricNotFound (name : String)
  | unsupportedDirectoryType (name directoryType : String)
  | unexpectedMetricType (name expected actual : String)
  | unexpectedRowCount (name : String) (expected actual : Nat)
  | unexpectedColumnCount (name : String) (expected actual : Nat)
  | workerCountMismatch (name : String) (workerThreadCount columns : Nat)
  | symlinkCycle (name : String) (depth : Nat)
  deriving DecidableEq, Repr

/-! ## Loads and slices -/

/-- The five words of the shared header, in increasing address order. -/
inductive HeaderWord : Type where
  | version | base | epoch | inProgress | directoryVector
  deriving DecidableEq, Repr

def HeaderWord.offset : HeaderWord → Nat
  | .version => 0
  | .base => 8
  | .epoch => 16
  | .inProgress => 24
  | .directoryVector => 32

/-- The header copies of one attempt: before the directory is read and after. -/
inductive HeaderCopy : Type where
  | opening | closing
  deriving DecidableEq, Repr

inductive Site : Type where
  | header (copy : HeaderCopy) (word : HeaderWord)
  | data
  deriving DecidableEq, Repr

/-- One load of `width` bytes at `offset` of the mapping. -/
structure Load : Type where
  site : Site
  offset : Nat
  width : Nat
  deriving DecidableEq, Repr

abbrev Reader (α : Type) : Type := Prog Load (fun _ => Bytes) Error α

/-- A borrowed part of the mapping. -/
structure Slice : Type where
  offset : Nat
  length : Nat
  deriving DecidableEq, Repr

namespace Slice

/-- `slice.get(start..stop)`. -/
def get (slice : Slice) (start stop : Nat) : Option Slice :=
  if start ≤ stop ∧ stop ≤ slice.length then some ⟨slice.offset + start, stop - start⟩ else none

/-- `&slice[start..stop]`. -/
def range (slice : Slice) (start stop : Nat) : Reader Slice :=
  match slice.get start stop with
  | some inner => pure inner
  | none => Prog.panic

/-- `slice[index]`. -/
def byte (slice : Slice) (index : Nat) : Reader UInt8 :=
  if index < slice.length then do
    let bytes ← Prog.perform ⟨.data, slice.offset + index, 1⟩
    pure (bytes.headD 0)
  else Prog.panic

/-- A copy of `slice` whose remaining `count` bytes start at `index`, loaded one at a time. -/
def copyFrom (slice : Slice) : (index count : Nat) → Reader Bytes
  | _, 0 => pure []
  | index, count + 1 => do
      let head ← slice.byte index
      let rest ← slice.copyFrom (index + 1) count
      pure (head :: rest)

/-- `array.copy_from_slice(slice)` into an array of `size` bytes. -/
def copy (slice : Slice) (size : Nat) : Reader Bytes :=
  if slice.length = size then slice.copyFrom 0 size else Prog.panic

/-- `slice.iter().position(|byte| *byte == 0)` on the `count` bytes from `index`. -/
def position (slice : Slice) : (index count : Nat) → Reader (Option Nat)
  | _, 0 => pure none
  | index, count + 1 => do
      let byte ← slice.byte index
      if byte = 0 then pure (some index) else slice.position (index + 1) count

end Slice

/-- `value << amount` on `usize`: an amount of 64 or more overflows. -/
def shiftLeft (value amount : Nat) : Reader Nat :=
  if amount < 64 then pure (value <<< amount % 2 ^ 64) else Prog.panic

/-! ## Constants and directory types -/

def STAT_SEGMENT_VERSION : Nat := 2
def MAX_NAME_BYTES : Nat := 128
def MAX_NAME_LENGTH : Nat := MAX_NAME_BYTES - 2
def VECTOR_HEADER_BYTES : Nat := 8
def VECTOR_MIN_ALIGN : Nat := 8

/-- `size_of` of the shared header, a directory entry, a counter and a published pointer. -/
def sizeOfSharedHeader : Nat := 40
def sizeOfDirectoryEntry : Nat := 144
def sizeOfCounter : Nat := 16
def sizeOfPointer : Nat := 8
def sizeOfU64 : Nat := 8

inductive DirectoryType : Type where
  | illegal | scalarIndex | counterVectorSimple | counterVectorCombined | nameVector | empty
  | symlink | histogramLog2 | ringBuffer | gauge
  deriving DecidableEq, Repr

def DirectoryType.tryFrom (raw : Nat) : Except ProtocolError DirectoryType :=
  match raw with
  | 0 => .ok .illegal
  | 1 => .ok .scalarIndex
  | 2 => .ok .counterVectorSimple
  | 3 => .ok .counterVectorCombined
  | 4 => .ok .nameVector
  | 5 => .ok .empty
  | 6 => .ok .symlink
  | 7 => .ok .histogramLog2
  | 8 => .ok .ringBuffer
  | 9 => .ok .gauge
  | raw => .error (.unknownDirectoryType raw)

def DirectoryType.label : DirectoryType → String
  | .illegal => "illegal"
  | .scalarIndex => "scalar_index"
  | .counterVectorSimple => "counter_vector_simple"
  | .counterVectorCombined => "counter_vector_combined"
  | .nameVector => "name_vector"
  | .empty => "empty"
  | .symlink => "symlink"
  | .histogramLog2 => "histogram_log2"
  | .ringBuffer => "ring_buffer"
  | .gauge => "gauge"

/-- A result of the protocol crate under `?` in the client. -/
def lift {α : Type} (result : Except ProtocolError α) : Reader α :=
  Prog.ofExcept (result.mapError .protocol)

theorem lift_ok {α : Type} (value : α) : lift (.ok value) = .done (.ok value) := rfl

/-! ## The shared header -/

structure SharedHeader : Type where
  version : Nat
  base : Nat
  epoch : Nat
  inProgress : Nat
  directoryVector : Nat
  deriving DecidableEq, Repr

def SharedHeader.isWriteInProgress (header : SharedHeader) : Bool := header.inProgress != 0

def SharedHeader.validateVersion (header : SharedHeader) : Except ProtocolError Unit :=
  if header.version = STAT_SEGMENT_VERSION then .ok ()
  else .error (.versionMismatch header.version STAT_SEGMENT_VERSION)

/-! ## Directory entries -/

/-- One combined counter cell. -/
structure Counter : Type where
  packets : UInt64
  bytes : UInt64
  deriving DecidableEq, Repr

/-- One directory entry, copied out of the mapping. -/
structure DirectoryEntry : Type where
  directoryType : Nat
  data : UInt64
  name : Bytes
  deriving DecidableEq, Repr

namespace DirectoryEntry

/-- The `#[repr(C)]` view of 144 copied bytes. -/
def ofBytes (bytes : Bytes) : DirectoryEntry where
  directoryType := leNat (window bytes 0 4)
  data := UInt64.ofNat (leNat (window bytes 8 8))
  name := window bytes 16 MAX_NAME_BYTES

def type (entry : DirectoryEntry) : Except ProtocolError DirectoryType :=
  DirectoryType.tryFrom entry.directoryType

/-- `DirectoryEntry::name`. The slices of the name array cannot panic: `nul` is below its
length. -/
def nameText (entry : DirectoryEntry) : Except ProtocolError String :=
  match entry.name.findIdx? (· == 0) with
  | none => .error .missingNameTerminator
  | some nul =>
      if nul > MAX_NAME_LENGTH then .error (.nameTooLong nul)
      else if (entry.name.drop (nul + 1)).any (· != 0) then .error .invalidNamePadding
      else match fromUtf8 (entry.name.take nul) with
        | none => .error .invalidNameEncoding
        | some text => .ok text

/-- The bytes of the diagnostic label `entry_name`. -/
def entryName (entry : DirectoryEntry) : Bytes := entry.name.takeWhile (· != 0)

def typeMismatch (entry : DirectoryEntry) (expected : String) (actual : DirectoryType) :
    ProtocolError :=
  .directoryTypeMismatch entry.entryName expected actual.label

/-- `scalar`, `data_pointer`, `name_vector_pointer` and `symlink`: the data word of an entry whose
type is one of `accepted`. -/
def dataOf (entry : DirectoryEntry) (accepted : List DirectoryType) (expected : String) :
    Except ProtocolError UInt64 := do
  let actual ← entry.type
  if actual ∈ accepted then .ok entry.data else .error (entry.typeMismatch expected actual)

def scalar (entry : DirectoryEntry) : Except ProtocolError UInt64 :=
  entry.dataOf [.scalarIndex, .gauge] "scalar_index or gauge"

def dataPointer (entry : DirectoryEntry) : Except ProtocolError Nat :=
  (entry.dataOf [.counterVectorSimple, .counterVectorCombined, .histogramLog2, .ringBuffer]
    "counter_vector_simple").map UInt64.toNat

def nameVectorPointer (entry : DirectoryEntry) : Except ProtocolError Nat :=
  (entry.dataOf [.nameVector] "name_vector").map UInt64.toNat

/-- The target entry index and the column of a symlink: the low and the high half. -/
def symlink (entry : DirectoryEntry) : Except ProtocolError (Nat × Nat) :=
  (entry.dataOf [.symlink] "symlink").map fun data =>
    (data.toNat % 2 ^ 32, data.toNat / 2 ^ 32)

end DirectoryEntry

/-! ## Metric values -/

inductive MetricValue : Type where
  | scalar (value : UInt64)
  | gauge (value : UInt64)
  | simple (rows : List (List UInt64))
  | combined (rows : List (List Counter))
  | names (listed : List String)
  | histogram (rows : List (List UInt64))
  | ring (values : List Bytes)
  deriving DecidableEq, Repr

def cropRows {α : Type} (rows : List (List α)) (column : Nat) :
    Except ProtocolError (List (List α)) :=
  match rows with
  | [] => .ok []
  | row :: rest =>
      match row[column]? with
      | none => .error (.elementOutOfBounds column row.length)
      | some value => do
          let cropped ← cropRows rest column
          .ok ([value] :: cropped)

/-- `MetricValue::column`. -/
def MetricValue.column (value : MetricValue) (column : Nat) : Except ProtocolError MetricValue :=
  match value with
  | .simple rows => do .ok (.simple (← cropRows rows column))
  | .combined rows => do .ok (.combined (← cropRows rows column))
  | .histogram rows => do .ok (.histogram (← cropRows rows column))
  | .names listed => .ok (.names listed)
  | .ring values => .ok (.ring values)
  | .scalar value => .ok (.scalar value)
  | .gauge value => .ok (.gauge value)

/-! ## Published vectors -/

structure PublishedVector : Type where
  dataOffset : Nat
  length : Nat
  alignment : Nat
  elementSize : Nat
  deriving DecidableEq, Repr

namespace PublishedVector

/-- `PublishedVector::resolve`. -/
def resolve (mapping : Slice) (base published elementSize : Nat) : Reader PublishedVector :=
  if published < base then .throw (.protocol (.pointerBeforeBase published base))
  else
    let dataOffset := published - base
    if dataOffset < VECTOR_HEADER_BYTES then
      .throw (.protocol (.vectorOutOfBounds mapping.length))
    else
      match mapping.get (dataOffset - VECTOR_HEADER_BYTES) dataOffset with
      | none => .throw (.protocol (.vectorOutOfBounds mapping.length))
      | some header => do
          let byte0 ← header.byte 0
          let byte1 ← header.byte 1
          let byte2 ← header.byte 2
          let byte3 ← header.byte 3
          let byte5 ← header.byte 5
          let alignment ← shiftLeft VECTOR_MIN_ALIGN (byte5.toNat % 128)
          pure {
            dataOffset := dataOffset
            length := leNat [byte0, byte1, byte2, byte3]
            alignment := alignment
            elementSize := elementSize }

/-- `PublishedVector::element`: the checked additions and multiplications are those of `usize`. -/
def element (vector : PublishedVector) (mapping : Slice) (index : Nat) : Reader Slice :=
  if index ≥ vector.length then
    .throw (.protocol (.elementOutOfBounds index vector.length))
  else
    let delta := index * vector.elementSize
    let offset := vector.dataOffset + delta
    if 2 ^ 64 ≤ delta ∨ 2 ^ 64 ≤ offset then
      .throw (.protocol (.vectorOutOfBounds mapping.length))
    else if 2 ^ 64 ≤ offset + vector.elementSize then
      .throw (.protocol (.vectorOutOfBounds mapping.length))
    else
      match mapping.get offset (offset + vector.elementSize) with
      | none => .throw (.protocol (.vectorOutOfBounds mapping.length))
      | some element => pure element

/-- `PublishedVector::u64` and, with `usize` of the same width, `PublishedVector::pointer`. -/
def word (vector : PublishedVector) (mapping : Slice) (index size : Nat) : Reader Nat :=
  if vector.elementSize < size then
    .throw (.protocol (.elementTooSmall size vector.elementSize))
  else do
    let element ← vector.element mapping index
    let head ← element.range 0 size
    let bytes ← head.copy size
    pure (leNat bytes)

def u64 (vector : PublishedVector) (mapping : Slice) (index : Nat) : Reader UInt64 := do
  let value ← vector.word mapping index sizeOfU64
  pure (UInt64.ofNat value)

def pointer (vector : PublishedVector) (mapping : Slice) (index : Nat) : Reader Nat :=
  vector.word mapping index sizeOfPointer

end PublishedVector

end Netsystem.Stats
