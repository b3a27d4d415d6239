import Netsystem.Region.Validate
import Netsystem.Shmem.Attach

/-!
# The API header

`ShmemHeader::validate` of `hammer-binary-api-protocol/src/memory.rs`, over the mapped bytes, with
`SvmQueue::attach` as `Header.attach`. The alignment of the queue is an assertion of `attach`, and
nothing before it looks at the alignment.
-/

namespace Netsystem.Region

open AddressSpace
open Connection (MemoryError)
open Shmem (SvmQueue SvmQueueError sizeOfSvmQueue)

namespace ShmemHeader

/-- `SHMEM_VERSION`. -/
def version : Nat := 2

/-- `size_of::<ShmemHeader>()`. -/
def size : Nat := 80

/-- `align_of::<ShmemHeader>()`. -/
def align : Nat := 8

end ShmemHeader

/-! ## Queues -/

/-- `CACHE_LINE_BYTES`. -/
def cacheLineBytes : Nat := 64

/-- The words of the queue header at `base`. -/
def queueHeader (base : Nat) : Call MemoryError Shmem.Header := do
  let head ← load (base + 88) 4
  let tail ← load (base + 92) 4
  let cursize ← load (base + 96) 4
  let maxsize ← load (base + 100) 4
  let elsize ← load (base + 104) 4
  let producerEvtfd ← load (base + 112) 4
  let consumerEvtfd ← load (base + 116) 4
  pure
    { head := .ofNat head, tail := .ofNat tail, cursize := .ofNat cursize,
      maxsize := .ofNat maxsize
      elsize := .ofNat elsize, producerEvtfd := .ofBitVec (.ofNat 32 producerEvtfd)
      consumerEvtfd := .ofBitVec (.ofNat 32 consumerEvtfd) }

/-- `SvmQueue::attach`. -/
def attachQueue (base allocationBytes : Nat) : Call MemoryError SvmQueue :=
  if base % cacheLineBytes ≠ 0 then .panic
  else if allocationBytes < sizeOfSvmQueue then .throw (.queue .invalidHeader)
  else do
    let stored ← queueHeader base
    mapErr (stored.attach allocationBytes) .queue

/-- `ShmemHeader::validate`. -/
def ShmemHeader.validate (region : SvmRegion) (address : Nat) : Call MemoryError Nat :=
  if address % align ≠ 0 ∨ !region.containsRange address size then .throw .invalidHeader
  else do
    let found ← load (address + 0) 4
    if found ≠ version then .throw (.unsupportedVersion found version)
    else do
      let queue ← load (address + 8) 8
      if !region.containsRange queue sizeOfSvmQueue then .throw .invalidHeader
      else do
        let regionEnd ← usize (region.base + region.size)
        let bytes ← minus regionEnd queue
        let attached ← attachQueue queue bytes
        if attached.elsize ≠ 8 then .throw (.elementSizeMismatch 8 attached.elsize)
        else pure address

/-! ## The words of a header -/

section Words

variable (m : Mapping) (address : Nat)

/-- The input queue of the header at `address`. -/
def inputQueue : Nat := m.word (address + 8) 8

/-- The words of a queue header. -/
def storedHeader (queue : Nat) : Shmem.Header :=
  { head := .ofNat (m.word (queue + 88) 4), tail := .ofNat (m.word (queue + 92) 4)
    cursize := .ofNat (m.word (queue + 96) 4), maxsize := .ofNat (m.word (queue + 100) 4)
    elsize := .ofNat (m.word (queue + 104) 4)
    producerEvtfd := .ofBitVec (.ofNat 32 (m.word (queue + 112) 4))
    consumerEvtfd := .ofBitVec (.ofNat 32 (m.word (queue + 116) 4)) }

/-- The queue is aligned, and its header and its slots are mapped. -/
structure QueueSufficient (queue : Nat) : Prop where
  aligned : queue % cacheLineBytes = 0
  elements : m.word (queue + 104) 4 = 8
  slots : m.Contains queue (sizeOfSvmQueue + m.word (queue + 100) 4 * 8)
  head : m.word (queue + 88) 4 < m.word (queue + 100) 4
  tail : m.word (queue + 92) 4 < m.word (queue + 100) 4
  cursize : m.word (queue + 96) 4 ≤ m.word (queue + 100) 4

/-- What an accepted header promises. -/
structure HeaderSufficient : Prop where
  mapped : m.Contains address ShmemHeader.size
  version : m.word (address + 0) 4 = ShmemHeader.version
  queue : QueueSufficient m (inputQueue m address)

/-- The checks before `attach` let the header through. -/
structure NamesQueue : Prop where
  aligned : address % ShmemHeader.align = 0
  mapped : m.Contains address ShmemHeader.size
  version : m.word (address + 0) 4 = ShmemHeader.version
  queue : m.Contains (inputQueue m address) sizeOfSvmQueue

end Words

/-! ## What validation answers -/

/-- No fault, and an accepted header is sufficient. -/
def HeaderAnswers (m : Mapping) (address : Nat) (answer : Outcome MemoryError Nat × Mapping) :
    Prop :=
  answer.1 ≠ .panic ∧ ∀ header, answer.1 = .ok header → HeaderSufficient m address

section Answers

variable {m : Mapping} {address : Nat}

theorem headerAnswers_throw {reason : MemoryError} : HeaderAnswers m address (.error reason, m) :=
  ⟨fun same => (by cases same), fun _ same => (by cases same)⟩

theorem word_lt (m : Mapping) {address : Nat} (inside : m.Contains address 4) :
    m.word address 4 < 2 ^ 32 := by
  have small := leNat_lt (m.read address 4)
  rw [Mapping.length_read inside] at small
  exact small

variable {α : Type} {f : Shmem.Header → Call MemoryError α} {queue : Nat}

theorem exec_queueHeader (inside : m.Contains queue sizeOfSvmQueue) :
    ((queueHeader queue).bind f).exec device m = (f (storedHeader m queue)).exec device m := by
  have word : ∀ offset, offset + 4 ≤ sizeOfSvmQueue → m.Contains (queue + offset) 4 :=
    fun offset fits => inside.part fits
  unfold queueHeader
  simp only [Prog.bind_eq, Prog.bind_assoc]
  rw [exec_load (word 88 (by decide)), exec_load (word 92 (by decide)),
    exec_load (word 96 (by decide)), exec_load (word 100 (by decide)),
    exec_load (word 104 (by decide)), exec_load (word 112 (by decide)),
    exec_load (word 116 (by decide))]
  rfl

theorem toNat_word {queue : Nat} (inside : m.Contains queue sizeOfSvmQueue) (offset : Nat)
    (fits : offset + 4 ≤ sizeOfSvmQueue) :
    (UInt32.ofNat (m.word (queue + offset) 4)).toNat = m.word (queue + offset) 4 :=
  UInt32.toNat_ofNat_of_lt' (word_lt m (inside.part fits))

/-- An accepted queue of elements of eight bytes is sufficient. -/
theorem queueSufficient_of_attach {attached : SvmQueue} {queue : Nat}
    (inside : m.Contains queue sizeOfSvmQueue) (aligned : queue % cacheLineBytes = 0)
    (accepted : (storedHeader m queue).attach (m.base + m.bytes.length - queue) = .ok attached)
    (elements : attached.elsize = 8) : QueueSufficient m queue := by
  obtain ⟨rfl, head, tail, cursize, fits⟩ := Shmem.Header.attach_eq_ok accepted
  have elsize : (storedHeader m queue).queue.elsize = m.word (queue + 104) 4 :=
    toNat_word inside 104 (by decide)
  have maxsize : (storedHeader m queue).queue.maxsize = m.word (queue + 100) 4 :=
    toNat_word inside 100 (by decide)
  rw [maxsize, elements] at fits
  rw [UInt32.lt_iff_toNat_lt] at head tail
  rw [UInt32.le_iff_toNat_le] at cursize
  have first := inside.1
  have last := inside.2
  refine ⟨aligned, elsize.symm.trans elements, ⟨first, by omega⟩, ?_, ?_, ?_⟩
  · rwa [← maxsize, ← toNat_word inside 88 (by decide)]
  · rwa [← maxsize, ← toNat_word inside 92 (by decide)]
  · rwa [← maxsize, ← toNat_word inside 96 (by decide)]

/-- **Header validation.** The answer is in order exactly when a header that passes the checks
before `attach` names an aligned queue. -/
theorem headerAnswers_validate (m : Mapping) (address : Nat) :
    HeaderAnswers m address ((ShmemHeader.validate (region m) address).exec device m) ↔
      (NamesQueue m address → inputQueue m address % cacheLineBytes = 0) := by
  have positive := m.base_pos
  have base : (region m).base = m.base := rfl
  have total : (region m).size = m.bytes.length := rfl
  unfold ShmemHeader.validate
  simp only [Prog.bind_eq]
  by_cases refused : address % ShmemHeader.align ≠ 0 ∨
      !(region m).containsRange address ShmemHeader.size
  · rw [if_pos refused]
    refine iff_of_true headerAnswers_throw fun names => ?_
    rcases refused with skewed | outside
    · exact absurd names.aligned skewed
    · exact absurd names.mapped (not_containsRange_iff.mp outside)
  rw [if_neg refused]
  obtain ⟨aligned, inside⟩ := not_or.mp refused
  rw [not_not] at aligned
  rw [not_containsRange_iff, not_not] at inside
  rw [exec_load (inside.part (by decide))]
  by_cases version : m.word (address + 0) 4 = ShmemHeader.version
  swap
  · rw [if_pos version]
    exact iff_of_true headerAnswers_throw fun names => absurd names.version version
  rw [if_neg (not_not.mpr version), exec_load (inside.part (by decide))]
  have named : m.word (address + 8) 8 = inputQueue m address := rfl
  rw [named]
  by_cases mapped : m.Contains (inputQueue m address) sizeOfSvmQueue
  swap
  · rw [if_pos (not_containsRange_iff.mpr mapped)]
    exact iff_of_true headerAnswers_throw fun names => absurd names.queue mapped
  have names : NamesQueue m address := ⟨aligned, inside, version, mapped⟩
  have small := m.end_lt
  have last := mapped.2
  rw [if_neg fun outside => not_containsRange_iff.mp outside mapped, base, total,
    exec_usize small, exec_minus (by omega)]
  unfold attachQueue
  by_cases straight : inputQueue m address % cacheLineBytes = 0
  swap
  · rw [if_pos straight]
    exact iff_of_false (fun answers => answers.1 rfl) fun all => straight (all names)
  rw [if_neg (not_not.mpr straight), if_neg (by omega), Prog.bind_eq, Prog.bind_assoc,
    exec_queueHeader mapped]
  refine iff_of_true ?_ fun _ => straight
  cases accepted : (storedHeader m (inputQueue m address)).attach
      (m.base + m.bytes.length - inputQueue m address) with
  | error reason => exact headerAnswers_throw
  | ok attached =>
      rw [mapErr, Prog.pure_eq, Prog.bind_ok]
      by_cases elements : attached.elsize = 8
      · rw [if_neg (not_not.mpr elements)]
        refine ⟨fun same => (by cases same), fun header same => ⟨inside, version, ?_⟩⟩
        exact queueSufficient_of_attach mapped straight accepted elements
      · rw [if_pos elements]
        exact headerAnswers_throw

end Answers

/-- A header whose queue stands right behind it. -/
def crowded : Mapping where
  base := 65536
  bytes := leBytes 4 ShmemHeader.version ++ List.replicate 4 0 ++ leBytes 8 65616 ++
    List.replicate 184 0
  base_pos := exampleBase_pos
  end_lt := by
    simp only [List.length_append, length_leBytes, List.length_replicate]
    decide

/-- The queue at 65616 is not aligned to 64 bytes. -/
theorem crowded_faults :
    ¬ ∀ (m : Mapping) (address : Nat),
      HeaderAnswers m address ((ShmemHeader.validate (region m) address).exec device m) := by
  intro always
  have fault : ((ShmemHeader.validate (region crowded) 65536).exec device crowded).1 =
      .panic := by
    decide +kernel
  exact (always crowded 65536).1 fault

end Netsystem.Region
