import Netsystem.Connection.Client
import Netsystem.Expansion
import Netsystem.Holdings
import Netsystem.Region.Validate

/-!
# Attaching a region

`SvmRegion::attach` of `hammer-shmem/src/region.rs` as the system calls that it makes, and what it
holds of the kernel when it returns, while the rest of the process and other processes map and
unmap as they like. Between the reservation and the shared mapping the range belongs to the
client; a rejected region is unmapped twice, once by `attach` and once when the region is dropped,
and the second time the range belongs to whoever has mapped it since.
-/

namespace Netsystem.Region

open Holdings (Owner Range Space Others Holds Accounts amid_alone)
open Connection (ErrorKind SvmRegionError)

/-! ## System calls -/

/-- A failed reservation: the range is taken (`EEXIST`), or anything else. -/
inductive MapError : Type where
  | exists
  | other (source : ErrorKind)
  deriving DecidableEq, Repr

/-- `reserve` is the `mmap` of `PROT_NONE`, `mapShared` that of `MAP_SHARED | MAP_FIXED`. -/
inductive Syscall : Type where
  | openFile (path : String)
  | pageSize
  | fstat (fd : Nat)
  | pread (fd count : Nat)
  | reserve (range : Range)
  | mapShared (range : Range) (fd : Nat)
  | munmap (range : Range)
  | close (fd : Nat)
  | memory (op : AddressSpace.Op)

@[reducible] def Syscall.Ret : Syscall → Type
  | .openFile _ => Except ErrorKind Nat
  | .pageSize => Int
  | .fstat _ => Except ErrorKind Int
  | .pread _ _ => Except ErrorKind Bytes
  | .reserve _ => Except MapError Nat
  | .mapShared _ _ => Except ErrorKind Nat
  | .munmap _ => Bool
  | .close _ => Unit
  | .memory op => op.Ret

abbrev Attaching (α : Type) : Type := Prog Syscall Syscall.Ret SvmRegionError α

/-- A result of the system with its error wrapped. -/
def okOr {α : Type} (wrap : ErrorKind → SvmRegionError) (answer : Except ErrorKind α) :
    Attaching α :=
  match answer with
  | .ok value => .done (.ok value)
  | .error source => .throw (wrap source)

/-- `system_page_size`. -/
def systemPageSize : Attaching Nat :=
  .step .pageSize fun value => if 0 < value then .done (.ok value.toNat) else .panic

/-- `size_of::<SvmRegionHeader>()`. -/
def sizeOfSvmRegionHeader : Nat := 256

/-- A word of the copied header. -/
def headerWord (header : Bytes) (offset : Nat) : Nat := leNat (window header offset 8)

/-- The checks of `probe_backing` on the copied header of a file of `available` bytes. -/
def checkHeader (available pageSize : Nat) (header : Bytes) : Except SvmRegionError Range :=
  let version := headerWord header 0
  if version = 0 then .error .notReady
  else if version ≠ SvmRegion.version then .error (.unsupportedVersion version SvmRegion.version)
  else
    let base := headerWord header 112
    let size := headerWord header 120
    if base = 0 ∨ size < pageSize ∨ size % pageSize ≠ 0 then .error .notReady
    else if available < size then .error (.backingMetadata .other)
    else .ok ⟨base, size⟩

/-- `probe_backing`. -/
def probeBacking (fd pageSize : Nat) : Attaching Range :=
  .step (.fstat fd) fun status => (okOr .backingMetadata status).bind fun stSize =>
    if stSize < 0 then .throw (.backingMetadata .other)
    else if stSize.toNat < pageSize then .throw .notReady
    else
      .step (.pread fd sizeOfSvmRegionHeader) fun read =>
        (okOr .backingMetadata read).bind fun header =>
          if header.length < sizeOfSvmRegionHeader then .throw .notReady
          else Prog.ofExcept (checkHeader stSize.toNat pageSize header)

/-- `munmap`, whose failure aborts. -/
def unmap (range : Range) : Attaching Unit :=
  .step (.munmap range) fun done => if done then .done (.ok ()) else .panic

/-- `map_fixed_backing` at offset zero. -/
def mapFixedBacking (fd : Nat) (range : Range) : Attaching Nat :=
  .step (.reserve range) fun reserved =>
    match reserved with
    | .error .exists => .throw (.addressRangeOccupied range.base range.size)
    | .error (.other source) => .throw (.fixedMapping range.base range.size source)
    | .ok reservation =>
        if reservation ≠ range.base then
          (unmap ⟨reservation, range.size⟩).bind fun _ =>
            .throw (.addressRangeOccupied range.base range.size)
        else
          .step (.mapShared range fd) fun mapped =>
            match mapped with
            | .error source =>
                (unmap range).bind fun _ => .throw (.fixedMapping range.base range.size source)
            -- the null pointer is excluded by `expect`
            | .ok address => if address = 0 then .panic else .done (.ok address)

/-- An attached region: its descriptor and its range. -/
structure Attached : Type where
  fd : Nat
  range : Range
  deriving DecidableEq, Repr

/-- `SvmRegion::drop`, and the descriptor after it. -/
def Attached.drop (attached : Attached) : Attaching Unit :=
  if attached.range.size ≠ 0 then
    (unmap attached.range).bind fun _ => .step (.close attached.fd) fun _ => .done (.ok ())
  else .step (.close attached.fd) fun _ => .done (.ok ())

/-- `SvmRegion::validate` on the mapped range. -/
def Attached.validate (attached : Attached) (pageSize : Nat) : Attaching Unit :=
  (SvmRegion.validate ⟨attached.range.base, attached.range.size⟩ pageSize).expand fun op =>
    Prog.perform (Syscall.memory op)

/-- An error with the descriptor given back. -/
def closing {α : Type} (fd : Nat) (reason : SvmRegionError) : Attaching α :=
  .step (.close fd) fun _ => .throw reason

/-- `SvmRegion::attach` from the open descriptor on. -/
def attachBacking (fd : Nat) : Attaching Attached :=
  systemPageSize.bind fun pageSize =>
    (probeBacking fd pageSize).attempt.bind fun probed =>
      match probed with
      | .error reason => closing fd reason
      | .ok range =>
          (mapFixedBacking fd range).attempt.bind fun mapped =>
            match mapped with
            | .error reason => closing fd reason
            | .ok address =>
                let region : Attached := ⟨fd, ⟨address, range.size⟩⟩
                (region.validate pageSize).attempt.bind fun validated =>
                  match validated with
                  | .ok _ => .done (.ok region)
                  | .error reason =>
                      -- unmapped here, and once more by the drop of the region
                      (unmap region.range).bind fun _ => region.drop.bind fun _ => .throw reason

/-- `SvmRegion::attach`. -/
def attach (path : String) : Attaching Attached :=
  .step (.openFile path) fun opened =>
    match opened with
    | .error source => .throw (.opening path source)
    | .ok fd => attachBacking fd

/-! ## The kernel -/

/-- What a range of the client is mapped to. -/
inductive Purpose : Type where
  | reserved
  | backed (fd : Nat)
  deriving DecidableEq, Repr

/-- What the client holds, and every range that it ever mapped a backing to. -/
abbrev Held : Type := Holdings.Held Purpose (List Range)

namespace Held

def put (s : Held) (range : Range) (owner : Option (Owner Purpose)) : Held :=
  { s with space := s.space.put range owner }

def setFile (s : Held) (fd : Nat) (held : Bool) : Held :=
  { s with space := s.space.setFile fd held }

/-- A backing is mapped. -/
def share (s : Held) (range : Range) (fd : Nat) : Held where
  space := s.space.put range (some (.mine (.backed fd)))
  record := range :: s.record

end Held

/-- The system calls. Any of them may fail; a reservation may be answered with another range, and
the words of the mapping are whatever the server writes. -/
inductive Kernel : (op : Syscall) → Held → op.Ret → Held → Prop
  | openFile {s : Held} {path : String} {fd : Nat} : s.space.files fd = false →
    Kernel (.openFile path) s (.ok fd) (s.setFile fd true)
  | openFailed {s : Held} {path : String} {source : ErrorKind} :
    Kernel (.openFile path) s (.error source) s
  | pageSize {s : Held} {value : Int} : Kernel .pageSize s value s
  | fstat {s : Held} {fd : Nat} {status : Except ErrorKind Int} : Kernel (.fstat fd) s status s
  | pread {s : Held} {fd count : Nat} {read : Except ErrorKind Bytes} :
    Kernel (.pread fd count) s read s
  | reserve {s : Held} {range : Range} {address : Nat} :
    (∀ other, (⟨address, range.size⟩ : Range).Has other → s.space.owner other = none) →
    Kernel (.reserve range) s (.ok address) (s.put ⟨address, range.size⟩ (some (.mine .reserved)))
  | reserveFailed {s : Held} {range : Range} {source : MapError} :
    Kernel (.reserve range) s (.error source) s
  | mapShared {s : Held} {range : Range} {fd : Nat} :
    Kernel (.mapShared range fd) s (.ok range.base) (s.share range fd)
  | mapFailed {s : Held} {range : Range} {fd : Nat} {source : ErrorKind} :
    Kernel (.mapShared range fd) s (.error source) s
  | munmap {s : Held} {range : Range} : Kernel (.munmap range) s true (s.put range none)
  | munmapFailed {s : Held} {range : Range} : Kernel (.munmap range) s false s
  | close {s : Held} {fd : Nat} : Kernel (.close fd) s () (s.setFile fd false)
  | memory {s : Held} {op : AddressSpace.Op} {answer : op.Ret} : Kernel (.memory op) s answer s

/-- A system call, after the others did what they like. -/
abbrev kernel : Prog.Handler Syscall Syscall.Ret Held := Holdings.amid Kernel

/-! ## The account -/

/-- The client holds what it held before a call that failed. What it has lost of others lies in a
range that the call had mapped a backing to. -/
def Restored (files : Nat → Bool) (lost : Nat → Prop) (shared : List Range) (s : Held) : Prop :=
  Accounts files lost shared none s ∨
    ∃ range lost', Accounts files lost' (range :: shared) none s ∧
      ∀ address, lost' address → lost address ∨ range.Has address

section Accounts

variable {files : Nat → Bool} {lost : Nat → Prop} {shared : List Range}
  {held : Option (Range × Purpose)} {s : Held} {α : Type} {fd : Nat} {range : Range}
  {value : α → Held → Prop} {stop : Stop SvmRegionError → Held → Prop}

theorem ensures_close (accounts : Accounts (Function.update files fd true) lost shared held s)
    (fresh : files fd = false) {next : Unit → Attaching α}
    (rest : ∀ s', Accounts files lost shared held s' → (next ()).Ensures kernel value stop s') :
    (Prog.step (.close fd) next).Ensures kernel value stop s :=
  accounts.close fresh (fun _ _ _ handled => by cases handled; rfl) fun _ => rest

end Accounts

/-! ## What `attach` holds -/

/-- Calls that change nothing that is accounted for. -/
def Syscall.Idle : Syscall → Prop
  | .pageSize | .fstat _ | .pread _ _ | .memory _ => True
  | _ => False

section Attach

variable {files : Nat → Bool} {lost : Nat → Prop} {shared : List Range}
  {held : Option (Range × Purpose)} {s : Held} {α : Type} {fd pageSize : Nat} {range : Range}

theorem idle_of_handled (op : Syscall) (mid : Held) (answer : op.Ret) (s' : Held) (idle : op.Idle)
    (handled : Kernel op mid answer s') : s' = mid := by
  cases handled
  case pageSize | fstat | pread | memory => rfl
  all_goals exact idle.elim

theorem uses_okOr {wrap : ErrorKind → SvmRegionError} {answer : Except ErrorKind α} :
    (okOr wrap answer).Uses Syscall.Idle := by
  cases answer <;> trivial

/-- The descriptor goes back. -/
theorem closing_accounts (accounts : Accounts (Function.update files fd true) lost shared none s)
    (fresh : files fd = false) (reason : SvmRegionError) :
    (Region.closing fd reason : Attaching α).Ensures kernel (fun _ _ => False)
      (fun _ s' => Accounts files lost shared none s') s :=
  ensures_close accounts fresh fun _ closed => closed

/-- What an attached region is to the client: one mapping of its range and one descriptor that was
not open before. -/
def Attached.Stands (attached : Attached) (files : Nat → Bool) (lost : Nat → Prop)
    (shared : List Range) (s : Held) : Prop :=
  files attached.fd = false ∧ Accounts (Function.update files attached.fd true) lost
    (attached.range :: shared) (some (attached.range, .backed attached.fd)) s

end Attach

/-! ## Waiting for the region -/

/-- What is lost of others lies in the rejected ranges. -/
def LostIn (lost lost' : Nat → Prop) (rejected : List Range) : Prop :=
  ∀ address, lost' address → lost address ∨ ∃ range ∈ rejected, range.Has address

/-- Nothing is held after attempts that were all in vain. -/
def Vain (files : Nat → Bool) (lost : Nat → Prop) (shared : List Range) (s : Held) : Prop :=
  ∃ lost' rejected, Accounts files lost' (rejected ++ shared) none s ∧ LostIn lost lost' rejected

section Waiting

variable {files : Nat → Bool} {lost : Nat → Prop} {shared : List Range} {s s' : Held}

theorem Restored.vain (restored : Restored files lost shared s) : Vain files lost shared s := by
  rcases restored with kept | ⟨range, lost', kept, taken⟩
  · exact ⟨lost, [], kept, fun _ => .inl⟩
  · exact ⟨lost', [range], kept, fun address gone =>
      (taken address gone).imp_right fun inside => ⟨range, List.mem_singleton_self _, inside⟩⟩

theorem LostIn.trans {lost' lost'' : Nat → Prop} {rejected later : List Range}
    (first : LostIn lost lost' rejected) (second : LostIn lost' lost'' later) :
    LostIn lost lost'' (later ++ rejected) := fun address gone => by
  rcases second address gone with before | ⟨range, member, inside⟩
  · exact (first address before).imp_right fun ⟨range, member, inside⟩ =>
      ⟨range, List.mem_append_right _ member, inside⟩
  · exact .inr ⟨range, List.mem_append_left _ member, inside⟩

/-- Attempts in vain before others. -/
theorem Vain.later {lost' : Nat → Prop} {rejected : List Range}
    (first : LostIn lost lost' rejected)
    (vain : Vain files lost' (rejected ++ shared) s) : Vain files lost shared s := by
  obtain ⟨lost'', later, kept, taken⟩ := vain
  exact ⟨lost'', later ++ rejected, by rwa [List.append_assoc], first.trans taken⟩

/-- A region stands after attempts in vain. -/
def Standing (files : Nat → Bool) (lost : Nat → Prop) (shared : List Range) (s : Held) : Prop :=
  ∃ (attached : Attached) (lost' : Nat → Prop) (rejected : List Range),
    attached.Stands files lost' (rejected ++ shared) s ∧ LostIn lost lost' rejected

theorem Standing.later {lost' : Nat → Prop} {rejected : List Range}
    (first : LostIn lost lost' rejected)
    (standing : Standing files lost' (rejected ++ shared) s) : Standing files lost shared s := by
  obtain ⟨attached, lost'', later, stands, taken⟩ := standing
  exact ⟨attached, lost'', later ++ rejected, by rwa [List.append_assoc], first.trans taken⟩

/-- Nothing is mapped and nothing is open. -/
def nothingHeld : Held := ⟨⟨fun _ => none, fun _ => false, fun _ => False⟩, []⟩

/-- How far an attempt has come with the region of two pages. -/
inductive Stage : Type where
  | closed
  | opened
  | reserved
  | mapped
  deriving DecidableEq, Repr

def twoPagesRange : Range := ⟨65536, 8192⟩

/-- A descriptor was opened and closed. -/
def vacated : Held := (nothingHeld.setFile 3 true).setFile 3 false

def Stage.held : Stage → Held
  | .closed => vacated
  | .opened => vacated.setFile 3 true
  | .reserved => (vacated.setFile 3 true).put twoPagesRange (some (.mine .reserved))
  | .mapped =>
      ((vacated.setFile 3 true).put twoPagesRange (some (.mine .reserved))).share twoPagesRange 3

end Waiting

end Netsystem.Region
