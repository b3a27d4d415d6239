import Netsystem.Alloc
import Netsystem.Region.Validate

/-!
# Message buffers

`MsgBuf::allocate` and `MsgBuf::from_address` of `hammer-binary-api-protocol/src/memory.rs`, over
the mapped bytes. A message lies behind a marker, the length of its payload and a timestamp. The
Data Heap is a function from layouts to addresses.
-/

namespace Netsystem.Region

open AddressSpace
open Connection (MemoryError MsgBuf)

namespace MsgBuf

/-! ## Layout -/

/-- `Layout::new::<AtomicPtr<SvmQueue>>()`. -/
def markerLayout : Layout := ⟨8, 3, by decide⟩

/-- `Layout::new::<u32>()`, and that of `AtomicU32`. -/
def wordLayout : Layout := ⟨4, 2, by decide⟩

/-- `MsgBuf::layout`: the allocation, and the offset of the payload. Where there is none it
panics. -/
def layout (payloadLen : Nat) : Option (Layout × Nat) := do
  let (front, _) ← markerLayout.extend wordLayout
  let (front, _) ← front.extend wordLayout
  let payload ← Layout.fromSizeAlign payloadLen 0
  front.extend payload

/-- `MsgBuf::length_offset`. -/
def lengthOffset : Nat := ((markerLayout.extend wordLayout).map Prod.snd).getD 0

/-- `MsgBuf::timestamp_offset`. -/
def timestampOffset : Nat :=
  ((do
    let (front, _) ← markerLayout.extend wordLayout
    front.extend wordLayout).map Prod.snd).getD 0

/-- `Self::layout(0).1`. -/
def payloadOffset : Nat := ((layout 0).map Prod.snd).getD 0

theorem lengthOffset_eq : lengthOffset = 8 := by decide

theorem timestampOffset_eq : timestampOffset = 12 := by decide

theorem payloadOffset_eq : payloadOffset = 16 := by decide

/-- The marker, the length and the timestamp. -/
theorem layout_eq (payloadLen : Nat) :
    layout payloadLen =
      (Layout.fromSizeAlign payloadLen 0).bind fun payload =>
        Layout.extend ⟨16, 3, by decide⟩ payload := rfl

/-- The payload lies behind them. -/
theorem layout_eq_some {payloadLen offset : Nat} {whole : Layout}
    (made : layout payloadLen = some (whole, offset)) :
    whole.size = 16 + payloadLen ∧ offset = 16 := by
  rw [layout_eq, Option.bind_eq_some_iff] at made
  obtain ⟨payload, bytes, extended⟩ := made
  obtain ⟨size, align⟩ := Layout.fromSizeAlign_eq_some bytes
  have straight : Layout.sizeRoundedUpTo ⟨16, 3, by decide⟩ payload = 16 := by
    unfold Layout.sizeRoundedUpTo Layout.align
    rw [align]
    rfl
  unfold Layout.extend at extended
  rw [straight, size] at extended
  dsimp only at extended
  split at extended
  · next both fits =>
      cases extended
      exact ⟨(Layout.fromSizeAlign_eq_some fits).1, rfl⟩
  · cases extended

theorem layout_of_fits {payloadLen : Nat} (fits : 16 + payloadLen + 8 ≤ 2 ^ 63) :
    ∃ whole, layout payloadLen = some (whole, 16) := by
  have bytes : Layout.fromSizeAlign payloadLen 0 = some ⟨payloadLen, 0, by omega⟩ := dif_pos _
  have straight : Layout.sizeRoundedUpTo ⟨16, 3, by decide⟩ ⟨payloadLen, 0, by omega⟩ = 16 := by
    simp [Layout.sizeRoundedUpTo, Layout.align]
  refine ⟨⟨16 + payloadLen, 3, fits⟩, ?_⟩
  rw [layout_eq, bytes, Option.bind_some, Layout.extend, straight]
  have both : Layout.fromSizeAlign (16 + payloadLen) (max 3 0) =
      some ⟨16 + payloadLen, 3, fits⟩ :=
    dif_pos fits
  dsimp only
  rw [both]

/-! ## Allocation -/

/-- `MsgBuf::allocate`, with `MemHeap::allocate_zeroed`. -/
def allocate (heap : Layout → Option Nat) (payloadLen : Nat) : Call MemoryError MsgBuf :=
  match layout payloadLen with
  | none => .panic
  | some (layout, payloadOffset) =>
      match heap layout with
      | none => .throw (.allocationFailed layout.size)
      | some base => do
          store base (List.replicate layout.size 0)
          store base (leBytes 8 0)
          store (base + timestampOffset) (leBytes 4 0)
          -- `payload_len as u32` keeps the lower four bytes
          store (base + lengthOffset) (beBytes 4 payloadLen)
          pure { payload := base + payloadOffset, payloadLen := payloadLen, initializedLen := 0 }

/-- `MsgBuf::from_address`. -/
def fromAddress (region : SvmRegion) (address : Nat) : Call MemoryError MsgBuf :=
  if address < payloadOffset then .throw .invalidHeader
  else do
    let front := address - payloadOffset
    if front = 0 then .throw .invalidHeader
    else if front % markerLayout.align ≠ 0 ∨ !region.containsRange front payloadOffset then
      .throw .invalidHeader
    else if address = 0 then .throw .invalidHeader
    else do
      let length ← loadBytes (front + lengthOffset) 4
      let payloadLen := beNat length
      if !region.containsRange address payloadLen then .throw .invalidHeader
      else pure { payload := address, payloadLen := payloadLen, initializedLen := payloadLen }

/-! ## Reading a message -/

section Reading

variable {m : Mapping} {address : Nat}

/-- The declared length of the payload at `address`. -/
def declaredLen (m : Mapping) (address : Nat) : Nat := beNat (m.read (address - 16 + 8) 4)

/-- The bytes in front of the payload are aligned and mapped, and so is the declared payload. -/
structure Declared (m : Mapping) (address : Nat) : Prop where
  behind : 16 ≤ address
  aligned : (address - 16) % 8 = 0
  front : m.Contains (address - 16) 16
  payload : m.Contains address (declaredLen m address)

theorem exec_fromAddress (m : Mapping) (address : Nat) :
    (fromAddress (region m) address).exec device m =
      (.ok ⟨address, declaredLen m address, declaredLen m address⟩, m) ∧ Declared m address ∨
    (fromAddress (region m) address).exec device m = (.error .invalidHeader, m) ∧
      ¬ Declared m address := by
  have positive := m.base_pos
  unfold fromAddress
  rw [payloadOffset_eq, lengthOffset_eq]
  by_cases short : address < 16
  · rw [if_pos short]
    exact .inr ⟨rfl, fun declared => absurd declared.behind (Nat.not_le.mpr short)⟩
  rw [if_neg short]
  dsimp only
  by_cases null : address - 16 = 0
  · rw [if_pos null]
    exact .inr ⟨rfl, fun declared => m.not_contains_null 16 (null ▸ declared.front)⟩
  rw [if_neg null]
  by_cases refused : (address - 16) % markerLayout.align ≠ 0 ∨
      !(region m).containsRange (address - 16) 16
  · rw [if_pos refused]
    refine .inr ⟨rfl, fun declared => ?_⟩
    rcases refused with skewed | outside
    · exact skewed declared.aligned
    · exact not_containsRange_iff.mp outside declared.front
  rw [if_neg refused]
  obtain ⟨aligned, inside⟩ := not_or.mp refused
  rw [not_not] at aligned
  rw [not_containsRange_iff, not_not] at inside
  rw [if_neg (by omega), Prog.bind_eq, exec_loadBytes (inside.part (by decide))]
  have declaredLen_eq : beNat (m.read (address - 16 + 8) 4) = declaredLen m address := rfl
  rw [declaredLen_eq]
  by_cases mapped : m.Contains address (declaredLen m address)
  · rw [if_neg fun outside => not_containsRange_iff.mp outside mapped]
    exact .inl ⟨rfl, by omega, aligned, inside, mapped⟩
  · rw [if_pos (not_containsRange_iff.mpr mapped)]
    exact .inr ⟨rfl, fun declared => mapped declared.payload⟩

end Reading

/-! ## Messages that were allocated -/

section Allocating

variable {m m' : Mapping} {heap : Layout → Option Nat} {payloadLen : Nat} {message : MsgBuf}

/-- The Data Heap returns aligned blocks of the size that was asked for, inside the region. -/
def HeapInside (heap : Layout → Option Nat) (m : Mapping) : Prop :=
  ∀ layout base, heap layout = some base → base % 8 = 0 ∧ m.Contains base layout.size

/-- What an allocation leaves behind: the block is where it was, and it declares the lower four
bytes of the length. -/
theorem exec_allocate {whole : Layout} {base offset : Nat} (inside : HeapInside heap m)
    (made : layout payloadLen = some (whole, offset)) (given : heap whole = some base) :
    ∃ m', (allocate heap payloadLen).exec device m = (.ok ⟨base + 16, payloadLen, 0⟩, m') ∧
      m'.Contains base (16 + payloadLen) ∧
      beNat (m'.read (base + 8) 4) = payloadLen % 2 ^ 32 := by
  obtain ⟨size, rfl⟩ := layout_eq_some made
  have block := (inside whole base given).2
  have zeroed : m.Contains base (List.replicate whole.size (0 : UInt8)).length := by
    rwa [List.length_replicate]
  have part : ∀ inner count, inner + count ≤ 16 → m.Contains (base + inner) count :=
    fun inner count fits => block.part (by omega)
  unfold allocate
  rw [made]
  dsimp only
  rw [given]
  simp only [Prog.bind_eq, timestampOffset_eq, lengthOffset_eq]
  rw [exec_store zeroed, exec_store (by simpa using part 0 8 (by decide)),
    exec_store (by simpa using part 12 4 (by decide)),
    exec_store (by simpa using part 8 4 (by decide))]
  refine ⟨_, rfl, ?_, ?_⟩
  · simp only [Mapping.contains_write]
    rwa [← size]
  · rw [Mapping.read_write_same (length_beBytes ..), beNat_beBytes_mod]
    rfl

theorem allocated (inside : HeapInside heap m)
    (run : (allocate heap payloadLen).exec device m = (.ok message, m')) :
    message.payloadLen = payloadLen ∧ ∃ base, message.payload = base + 16 ∧ base % 8 = 0 ∧
      m'.Contains base (16 + payloadLen) ∧
      beNat (m'.read (base + 8) 4) = payloadLen % 2 ^ 32 := by
  cases made : layout payloadLen with
  | none =>
      rw [allocate, made] at run
      cases run
  | some found =>
      obtain ⟨whole, offset⟩ := found
      cases given : heap whole with
      | none =>
          rw [allocate, made] at run
          dsimp only at run
          rw [given] at run
          cases run
      | some base =>
          obtain ⟨last, made, block, stored⟩ := exec_allocate inside made given
          rw [run, Prod.mk.injEq, Outcome.ok.injEq] at made
          obtain ⟨rfl, rfl⟩ := made
          exact ⟨rfl, base, rfl, (inside whole base given).1, block, stored⟩

/-- The length that a fresh message declares. -/
theorem declaredLen_allocated {base : Nat} (here : message.payload = base + 16) :
    declaredLen m' message.payload = beNat (m'.read (base + 8) 4) := by
  rw [declaredLen, here, Nat.add_sub_cancel]

/-- `from_address` neither faults nor accepts a message that is not in the region. -/
def FromAddressSound : Prop :=
  ∀ (m : Mapping) (address : Nat),
    ((fromAddress (region m) address).exec device m).1 ≠ .panic ∧
      ∀ back, ((fromAddress (region m) address).exec device m).1 = .ok back →
        Declared m address ∧ back.payload = address ∧ back.payloadLen = declaredLen m address

theorem fromAddress_sound : FromAddressSound := by
  intro m address
  rcases exec_fromAddress m address with ⟨accepted, declared⟩ | ⟨refused, _⟩
  · rw [accepted]
    refine ⟨fun same => (by cases same), fun back same => ?_⟩
    cases same
    exact ⟨declared, rfl, rfl⟩
  · rw [refused]
    exact ⟨fun same => (by cases same), fun back same => (by cases same)⟩

/-- The address of the message leads back to it. -/
def FoundAgain (m : Mapping) (message : MsgBuf) : Prop :=
  ∃ back, (fromAddress (region m) message.payload).exec device m = (.ok back, m) ∧
    back.payload = message.payload ∧ back.payloadLen = message.payloadLen

theorem foundAgain_iff_lt (inside : HeapInside heap m)
    (run : (allocate heap payloadLen).exec device m = (.ok message, m')) :
    FoundAgain m' message ↔ payloadLen < 2 ^ 32 := by
  obtain ⟨length, base, here, aligned, block, stored⟩ := allocated inside run
  have declared : declaredLen m' message.payload = payloadLen % 2 ^ 32 :=
    (declaredLen_allocated here).trans stored
  have shorter : payloadLen % 2 ^ 32 ≤ payloadLen := Nat.mod_le ..
  have known : Declared m' message.payload := by
    refine ⟨by omega, ?_, ?_, ?_⟩
    · rwa [here, Nat.add_sub_cancel]
    · rw [here, Nat.add_sub_cancel]
      have start : m'.Contains (base + 0) 16 := block.part (by omega)
      exact start
    · rw [declared, here]
      exact block.part (by omega)
  have found := (exec_fromAddress m' message.payload).resolve_right fun refused => refused.2 known
  rw [declared] at found
  constructor
  · intro foundAgain
    obtain ⟨back, again, _, same⟩ := foundAgain
    rw [found.1, Prod.mk.injEq, Outcome.ok.injEq] at again
    rw [← again.1, length] at same
    have small := Nat.mod_lt payloadLen (Nat.two_pow_pos 32)
    dsimp only at same
    omega
  · intro small
    refine ⟨_, found.1, rfl, ?_⟩
    rw [length]
    exact Nat.mod_eq_of_lt small

/-- **Addresses of messages.** An allocated message is found again from its address exactly when
its length fits the field that declares it, and no address makes `from_address` fault or accept a
message outside the region. -/
theorem addressed_iff (inside : HeapInside heap m)
    (run : (allocate heap payloadLen).exec device m = (.ok message, m')) :
    FoundAgain m' message ∧ FromAddressSound ↔ payloadLen < 2 ^ 32 := by
  rw [and_iff_left fromAddress_sound]
  exact foundAgain_iff_lt inside run

end Allocating

/-- A region that is one block of the heap. -/
def oneBlock (size : Nat) (small : 65536 + size < 2 ^ 64) : Mapping where
  base := 65536
  bytes := List.replicate size 0
  base_pos := exampleBase_pos
  end_lt := by rwa [List.length_replicate]

/-- The heap of that block. -/
def blockHeap (size : Nat) (layout : Layout) : Option Nat :=
  if layout.size ≤ size then some 65536 else none

theorem blockHeap_inside (size : Nat) (small : 65536 + size < 2 ^ 64) :
    HeapInside (blockHeap size) (oneBlock size small) := by
  intro layout base given
  unfold blockHeap at given
  split at given
  · next fits =>
      cases given
      refine ⟨by decide, Nat.le_refl _, ?_⟩
      have length : (oneBlock size small).bytes.length = size := List.length_replicate ..
      have base : (oneBlock size small).base = 65536 := rfl
      rw [length, base]
      omega
  · cases given

/-- A message of four bytes. -/
theorem addressed_four :
    FoundAgain ((allocate (blockHeap 20) 4).exec device (oneBlock 20 (by decide))).2
      ⟨65552, 4, 0⟩ ∧
      FromAddressSound := by
  have run : (allocate (blockHeap 20) 4).exec device (oneBlock 20 (by decide)) =
      (.ok ⟨65552, 4, 0⟩,
        ((allocate (blockHeap 20) 4).exec device (oneBlock 20 (by decide))).2) :=
    Prod.ext (by decide +kernel) rfl
  exact (addressed_iff (blockHeap_inside 20 _) run).mpr (by decide)

/-- A message of `2 ^ 32` bytes declares none. -/
theorem long_not_addressed :
    ¬ ∀ (heap : Layout → Option Nat) (m m' : Mapping) (payloadLen : Nat) (message : MsgBuf),
      HeapInside heap m → (allocate heap payloadLen).exec device m = (.ok message, m') →
        FoundAgain m' message ∧ FromAddressSound := by
  intro always
  have small : 65536 + (2 ^ 32 + 16) < 2 ^ 64 := by decide
  have inside := blockHeap_inside (2 ^ 32 + 16) small
  have fits : 16 + 2 ^ 32 + 8 ≤ 2 ^ 63 := by decide
  obtain ⟨whole, made⟩ := layout_of_fits fits
  have given : blockHeap (2 ^ 32 + 16) whole = some 65536 := if_pos (by
    rw [(layout_eq_some made).1]
    decide)
  obtain ⟨m', run, _⟩ := exec_allocate inside made given
  have short := (foundAgain_iff_lt inside run).mp (always _ _ _ _ _ inside run).1
  exact absurd short (by decide)

end MsgBuf

end Netsystem.Region
