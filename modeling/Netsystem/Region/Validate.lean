import Netsystem.AddressSpace
import Netsystem.Connection.Client

/-!
# Regions

`SvmRegion::contains_range` and `SvmRegion::validate` of `hammer-shmem/src/region.rs`, over the
mapped bytes. The order of the atomic load of the version is left out: the contents stand still.
-/

namespace Netsystem.Region

open AddressSpace
open Connection (SvmRegionError)

/-- The range that `SvmRegion` remembers. -/
structure SvmRegion : Type where
  base : Nat
  size : Nat
  deriving DecidableEq, Repr

/-- `SvmRegion::contains_range`. -/
def SvmRegion.containsRange (region : SvmRegion) (start bytes : Nat) : Bool :=
  region.base + region.size < 2 ^ 64 && region.base ≤ start && start + bytes < 2 ^ 64 &&
    start + bytes ≤ region.base + region.size

/-- The region of a mapping. -/
def region (m : Mapping) : SvmRegion := { base := m.base, size := m.bytes.length }

theorem containsRange_iff {m : Mapping} {start bytes : Nat} :
    (region m).containsRange start bytes = true ↔ m.Contains start bytes := by
  have small := m.end_lt
  have base : (region m).base = m.base := rfl
  have size : (region m).size = m.bytes.length := rfl
  unfold SvmRegion.containsRange Mapping.Contains
  simp only [Bool.and_eq_true, decide_eq_true_eq, base, size]
  constructor
  · exact fun checks => ⟨checks.1.1.2, checks.2⟩
  · exact fun inside => ⟨⟨⟨small, inside.1⟩, by omega⟩, inside.2⟩

theorem not_containsRange_iff {m : Mapping} {start bytes : Nat} :
    (!(region m).containsRange start bytes) = true ↔ ¬ m.Contains start bytes := by
  rw [Bool.not_eq_true', ← Bool.not_eq_true, containsRange_iff]

/-! ## Validation -/

namespace SvmRegion

/-- `SVM_REGION_VERSION`. -/
def version : Nat := 2 * 2 ^ 16 + 2

/-- `SvmRegionFlags`. -/
def dataHeap : UInt64 := 1

def noData : UInt64 := 4

def publicFlags : UInt64 := dataHeap ||| noData

/-- `SvmRegionFlags::contains`. -/
def containsFlag (flags flag : UInt64) : Bool := flags &&& flag == flag

/-- A field of eight bytes behind a pointer. -/
def field (pointer offset : Nat) : Call SvmRegionError Nat :=
  if pointer = 0 then .panic else load (pointer + offset) 8

/-- `MemHeap::base`. -/
def heapBase (heap : Nat) : Call SvmRegionError Nat := field heap 0

/-- `MemHeap::size`. -/
def heapSize (heap : Nat) : Call SvmRegionError Nat := field heap 16

/-- The Data Heap in `SvmRegion::validate`. -/
def validateDataHeap (region : SvmRegion) (pageSize : Nat) (flags : UInt64)
    (pvtHeap expectedDataBase heap : Nat) : Call SvmRegionError Unit :=
  if heap = 0 then .throw .missingDataHeap
  else if !containsFlag flags dataHeap then .throw .dataHeapLayout
  else do
    let base ← heapBase heap
    if base ≠ expectedDataBase then .throw .dataHeapLayout
    else do
      let size ← heapSize heap
      -- a second look at the private heap, which the first one let be null
      let pvtSize ← heapSize pvtHeap
      let taken ← usize (pageSize + pvtSize)
      if size ≠ region.size - taken then .throw .dataHeapLayout else pure ()

/-- The private heap in `SvmRegion::validate`. -/
def expectedDataBase (region : SvmRegion) (pageSize pvtHeap : Nat) : Call SvmRegionError Nat := do
  let first ← usize (region.base + pageSize)
  let pvtSize ← if pvtHeap = 0 then pure 0 else heapSize pvtHeap
  usize (first + pvtSize)

/-- `SvmRegion::validate`. -/
def validate (region : SvmRegion) (pageSize : Nat) : Call SvmRegionError Unit := do
  let found ← field region.base 0
  if found = 0 then .throw .notReady
  else if found ≠ version then .throw (.unsupportedVersion found version)
  else do
    let virtualBase ← field region.base 112
    if virtualBase ≠ region.base then .throw (.virtualBaseMismatch region.base virtualBase)
    else do
      let virtualSize ← field region.base 120
      if virtualSize ≠ region.size then .throw (.virtualSizeMismatch region.size virtualSize)
      else do
        let bits ← field region.base 104
        let flags := UInt64.ofNat bits
        if flags &&& ~~~publicFlags ≠ 0 ∨ containsFlag flags dataHeap ∧
          containsFlag flags noData then
          .throw (.invalidFlags bits)
        else do
          let pvtHeap ← field region.base 128
          let expected ← expectedDataBase region pageSize pvtHeap
          let heap ← field region.base 144
          validateDataHeap region pageSize flags pvtHeap expected heap

end SvmRegion

/-! ## The words of a region -/

section Words

variable (m : Mapping)

/-- The word behind a pointer. -/
def fieldOf (pointer offset : Nat) : Nat := m.word (pointer + offset) 8

def flags : UInt64 := UInt64.ofNat (fieldOf m m.base 104)

def pvtHeap : Nat := fieldOf m m.base 128

def heap : Nat := fieldOf m m.base 144

/-- The size of the private heap, none where there is no private heap. -/
def pvtSize : Nat := if pvtHeap m = 0 then 0 else fieldOf m (pvtHeap m) 16

/-- The words that describe the region as a whole are as they should be. -/
structure Announced : Prop where
  version : fieldOf m m.base 0 = SvmRegion.version
  base : fieldOf m m.base 112 = m.base
  size : fieldOf m m.base 120 = m.bytes.length
  flags : ¬ (flags m &&& ~~~SvmRegion.publicFlags ≠ 0 ∨
    SvmRegion.containsFlag (flags m) SvmRegion.dataHeap ∧
      SvmRegion.containsFlag (flags m) SvmRegion.noData)

/-- The Data Heap goes from behind the private heap to the end of the region. -/
structure Placed (pageSize : Nat) : Prop where
  start : fieldOf m (heap m) 0 = m.base + pageSize + pvtSize m
  inside : m.Contains (fieldOf m (heap m) 0) (fieldOf m (heap m) 16)
  finish : fieldOf m (heap m) 0 + fieldOf m (heap m) 16 = m.base + m.bytes.length

/-- A private heap can be looked at, and the sum with its size is an address. -/
def FirstLook (pageSize : Nat) : Prop :=
  pvtHeap m ≠ 0 → m.Contains (pvtHeap m + 16) 8 ∧ m.base + pageSize + pvtSize m < 2 ^ 64

/-- A Data Heap can be looked at. Where it starts as it should, its size can be looked at, there
is a private heap, and an empty Data Heap does not lie behind the region. -/
def SecondLook (pageSize : Nat) : Prop :=
  heap m ≠ 0 → SvmRegion.containsFlag (flags m) SvmRegion.dataHeap = true →
    m.Contains (heap m + 0) 8 ∧
      (fieldOf m (heap m) 0 = m.base + pageSize + pvtSize m →
        m.Contains (heap m + 16) 8 ∧ pvtHeap m ≠ 0 ∧
          (fieldOf m (heap m) 16 = 0 → pageSize + pvtSize m ≤ m.bytes.length))

end Words

/-! ## What validation answers -/

section Answers

variable {m : Mapping} {pageSize : Nat}

/-- No fault, and an accepted Data Heap is in its place. -/
def Answers (m : Mapping) (pageSize : Nat) (answer : Outcome SvmRegionError Unit × Mapping) :
    Prop :=
  answer.1 ≠ .panic ∧ (answer.1 = .ok () → Placed m pageSize)

theorem answers_throw {reason : SvmRegionError} : Answers m pageSize (.error reason, m) :=
  ⟨fun same => (by cases same), fun same => (by cases same)⟩

theorem not_answers_panic : ¬ Answers m pageSize (.panic, m) := fun answers => answers.1 rfl

theorem answers_ok : Answers m pageSize (.ok (), m) ↔ Placed m pageSize :=
  ⟨fun answers => answers.2 rfl, fun placed => ⟨fun same => (by cases same), fun _ => placed⟩⟩

variable {α : Type} {f : Nat → Call SvmRegionError α} {pointer offset : Nat}

theorem exec_field (pointed : pointer ≠ 0) (inside : m.Contains (pointer + offset) 8) :
    ((SvmRegion.field pointer offset).bind f).exec device m =
      (f (fieldOf m pointer offset)).exec device m := by
  rw [SvmRegion.field, if_neg pointed, exec_load inside, fieldOf]

theorem exec_field_fault (fault : ¬ (pointer ≠ 0 ∧ m.Contains (pointer + offset) 8)) :
    ((SvmRegion.field pointer offset).bind f).exec device m = (.panic, m) := by
  unfold SvmRegion.field
  by_cases null : pointer = 0
  · rw [if_pos null]
    rfl
  · rw [if_neg null, exec_load_fault fun inside => fault ⟨null, inside⟩]

/-- The last comparison, of a Data Heap that starts in its place. -/
theorem answers_sizes (first : FirstLook m pageSize) (present : pvtHeap m ≠ 0)
    (start : fieldOf m (heap m) 0 = m.base + pageSize + pvtSize m) :
    Answers m pageSize (((SvmRegion.field (pvtHeap m) 16).bind fun pvtSize =>
      (usize (pageSize + pvtSize)).bind fun taken =>
        if fieldOf m (heap m) 16 ≠ (region m).size - taken then .throw .dataHeapLayout
        else pure ()).exec device m) ↔
      (fieldOf m (heap m) 16 = 0 → pageSize + pvtSize m ≤ m.bytes.length) := by
  obtain ⟨mapped, small⟩ := first present
  have size : fieldOf m (pvtHeap m) 16 = pvtSize m := (if_neg present).symm
  have total : (region m).size = m.bytes.length := rfl
  rw [exec_field present mapped, size, exec_usize (by omega), total]
  by_cases same : fieldOf m (heap m) 16 = m.bytes.length - (pageSize + pvtSize m)
  · rw [if_neg (not_not.mpr same)]
    refine answers_ok.trans ⟨fun placed empty => ?_, fun fits => ?_⟩
    · have finish := placed.finish
      omega
    · have room : pageSize + pvtSize m ≤ m.bytes.length := by
        by_contra beyond
        exact beyond (fits (by omega))
      refine ⟨start, ⟨by omega, by omega⟩, by omega⟩
  · rw [if_pos same]
    exact iff_of_true answers_throw fun empty => by omega

/-- The Data Heap, when the private heap has been looked at. -/
theorem answers_validateDataHeap (first : FirstLook m pageSize) :
    Answers m pageSize (((region m).validateDataHeap pageSize (flags m) (pvtHeap m)
      (m.base + pageSize + pvtSize m) (heap m)).exec device m) ↔ SecondLook m pageSize := by
  unfold SvmRegion.validateDataHeap SecondLook
  by_cases null : heap m = 0
  · rw [if_pos null]
    exact iff_of_true answers_throw fun pointed => absurd null pointed
  rw [if_neg null]
  by_cases flag : SvmRegion.containsFlag (flags m) SvmRegion.dataHeap = true
  · have kept : (!SvmRegion.containsFlag (flags m) SvmRegion.dataHeap) =
        false := by rw [flag]; rfl
    rw [if_neg (by rw [kept]; exact Bool.false_ne_true)]
    simp only [Prog.bind_eq, SvmRegion.heapBase, SvmRegion.heapSize]
    by_cases mapped : m.Contains (heap m + 0) 8
    · rw [exec_field null mapped]
      by_cases start : fieldOf m (heap m) 0 = m.base + pageSize + pvtSize m
      · rw [if_neg (not_not.mpr start)]
        by_cases sized : m.Contains (heap m + 16) 8
        · rw [exec_field null sized]
          by_cases absent : pvtHeap m = 0
          · rw [exec_field_fault fun both => both.1 absent]
            exact iff_of_false not_answers_panic fun look => ((look null flag).2 start).2.1 absent
          · rw [answers_sizes first absent start]
            refine ⟨fun fits _ _ => ⟨mapped, fun _ => ⟨sized, absent, fits⟩⟩, fun look => ?_⟩
            exact ((look null flag).2 start).2.2
        · rw [exec_field_fault fun both => sized both.2]
          exact iff_of_false not_answers_panic fun look => sized ((look null flag).2 start).1
      · rw [if_pos start]
        exact iff_of_true answers_throw fun _ _ => ⟨mapped, fun same => absurd same start⟩
    · rw [exec_field_fault fun both => mapped both.2]
      exact iff_of_false not_answers_panic fun look => mapped (look null flag).1
  · have lacks : (!SvmRegion.containsFlag (flags m) SvmRegion.dataHeap) = true := by
      rw [Bool.not_eq_true] at flag
      rw [flag]
      rfl
    rw [if_pos lacks]
    exact iff_of_true answers_throw fun _ present => absurd present flag

/-- The private heap. -/
theorem exec_expectedDataBase {f : Nat → Call SvmRegionError Unit}
    (page : pageSize ≤ m.bytes.length) (first : FirstLook m pageSize) :
    (((region m).expectedDataBase pageSize (pvtHeap m)).bind f).exec device m =
      (f (m.base + pageSize + pvtSize m)).exec device m := by
  have small := m.end_lt
  have base : (region m).base = m.base := rfl
  unfold SvmRegion.expectedDataBase
  simp only [Prog.bind_eq, Prog.bind_assoc, base]
  rw [exec_usize (by omega)]
  by_cases absent : pvtHeap m = 0
  · have nothing : pvtSize m = 0 := if_pos absent
    rw [if_pos absent, Prog.pure_eq, Prog.bind_ok, exec_usize (by omega), nothing]
  · obtain ⟨mapped, fits⟩ := first absent
    have size : fieldOf m (pvtHeap m) 16 = pvtSize m := (if_neg absent).symm
    rw [if_neg absent, SvmRegion.heapSize, Prog.bind_assoc, exec_field absent mapped, size,
      exec_usize fits]

theorem exec_expectedDataBase_fault {f : Nat → Call SvmRegionError Unit}
    (page : pageSize ≤ m.bytes.length) (fault : ¬ FirstLook m pageSize) :
    (((region m).expectedDataBase pageSize (pvtHeap m)).bind f).exec device m = (.panic, m) := by
  have small := m.end_lt
  have base : (region m).base = m.base := rfl
  obtain ⟨present, unlooked⟩ := Classical.not_imp.mp fault
  have size : fieldOf m (pvtHeap m) 16 = pvtSize m := (if_neg present).symm
  unfold SvmRegion.expectedDataBase
  simp only [Prog.bind_eq, Prog.bind_assoc, base]
  rw [exec_usize (by omega), if_neg present, SvmRegion.heapSize, Prog.bind_assoc]
  by_cases mapped : m.Contains (pvtHeap m + 16) 8
  · rw [exec_field present mapped, size, exec_usize_fault fun fits => unlooked ⟨mapped, fits⟩]
  · rw [exec_field_fault fun both => mapped both.2]

/-- **Region validation.** The answer is in order exactly when the words of an announced region
let its heaps be looked at; a region that is not announced is refused before that. -/
theorem answers_validate (header : 256 ≤ pageSize) (page : pageSize ≤ m.bytes.length) :
    Answers m pageSize (((region m).validate pageSize).exec device m) ↔
      (Announced m → FirstLook m pageSize ∧ SecondLook m pageSize) := by
  have positive : m.base ≠ 0 := Nat.pos_iff_ne_zero.mp m.base_pos
  have word : ∀ offset ≤ 248, m.Contains (m.base + offset) 8 := by
    intro offset inside
    constructor <;> omega
  have base : (region m).base = m.base := rfl
  have total : (region m).size = m.bytes.length := rfl
  unfold SvmRegion.validate
  simp only [Prog.bind_eq, base, total]
  rw [exec_field positive (word 0 (by omega))]
  by_cases unready : fieldOf m m.base 0 = 0
  · rw [if_pos unready]
    refine iff_of_true answers_throw fun announced => ?_
    exact absurd (unready.symm.trans announced.version) (by decide)
  rw [if_neg unready]
  by_cases version : fieldOf m m.base 0 = SvmRegion.version
  swap
  · rw [if_pos version]
    exact iff_of_true answers_throw fun announced => absurd announced.version version
  rw [if_neg (not_not.mpr version), exec_field positive (word 112 (by omega))]
  by_cases virtualBase : fieldOf m m.base 112 = m.base
  swap
  · rw [if_pos virtualBase]
    exact iff_of_true answers_throw fun announced => absurd announced.base virtualBase
  rw [if_neg (not_not.mpr virtualBase), exec_field positive (word 120 (by omega))]
  by_cases virtualSize : fieldOf m m.base 120 = m.bytes.length
  swap
  · rw [if_pos virtualSize]
    exact iff_of_true answers_throw fun announced => absurd announced.size virtualSize
  rw [if_neg (not_not.mpr virtualSize), exec_field positive (word 104 (by omega))]
  have bits : UInt64.ofNat (fieldOf m m.base 104) = flags m := rfl
  have pvt : fieldOf m m.base 128 = pvtHeap m := rfl
  have data : fieldOf m m.base 144 = heap m := rfl
  rw [bits]
  by_cases invalid : flags m &&& ~~~SvmRegion.publicFlags ≠ 0 ∨
      SvmRegion.containsFlag (flags m) SvmRegion.dataHeap ∧
        SvmRegion.containsFlag (flags m) SvmRegion.noData
  · rw [if_pos invalid]
    exact iff_of_true answers_throw fun announced => absurd invalid announced.flags
  rw [if_neg invalid, exec_field positive (word 128 (by omega)), pvt]
  have announced : Announced m := ⟨version, virtualBase, virtualSize, invalid⟩
  by_cases first : FirstLook m pageSize
  · rw [exec_expectedDataBase page first, exec_field positive (word 144 (by omega)), data,
      answers_validateDataHeap first]
    exact ⟨fun second _ => ⟨first, second⟩, fun looks => (looks announced).2⟩
  · rw [exec_expectedDataBase_fault page first]
    exact iff_of_false not_answers_panic fun looks => first (looks announced).1

end Answers

/-- Where the regions of the examples are mapped. -/
theorem exampleBase_pos : 0 < 65536 := by decide

/-- A region of two pages of 4096 bytes. Its Data Heap is the second page, and there is room for
an empty private heap behind the header. -/
def twoPages (pvtHeap : Nat) : Mapping where
  base := 65536
  bytes := leBytes 8 SvmRegion.version ++ List.replicate 96 0 ++ leBytes 8 1 ++ leBytes 8 65536 ++
    leBytes 8 8192 ++ leBytes 8 pvtHeap ++ List.replicate 8 0 ++ leBytes 8 69632 ++
    List.replicate 3944 0 ++ leBytes 8 69632 ++ List.replicate 8 0 ++ leBytes 8 4096 ++
    List.replicate 4072 0
  base_pos := exampleBase_pos
  end_lt := by
    simp only [List.length_append, length_leBytes, List.length_replicate]
    decide

theorem length_twoPages (pvtHeap : Nat) : (twoPages pvtHeap).bytes.length = 8192 := by
  simp only [twoPages, List.length_append, length_leBytes, List.length_replicate]

/-- With the private heap the region is accepted. -/
theorem answers_twoPages :
    Answers (twoPages 65696) 4096
      (((region (twoPages 65696)).validate 4096).exec device (twoPages 65696)) := by
  have page : 4096 ≤ (twoPages 65696).bytes.length := by
    rw [length_twoPages]
    decide
  refine (answers_validate (by decide) page).mpr fun _ => ⟨fun _ => ?_, fun _ _ => ?_⟩
  · decide +kernel
  · decide +kernel

/-- Without it the check of the size reads behind a null pointer. -/
theorem null_pvtHeap_faults :
    ¬ ∀ (m : Mapping) (pageSize : Nat), 256 ≤ pageSize → pageSize ≤ m.bytes.length →
      Answers m pageSize (((region m).validate pageSize).exec device m) := by
  intro always
  have fault : (((region (twoPages 0)).validate 4096).exec device (twoPages 0)).1 = .panic := by
    decide +kernel
  have page : 4096 ≤ (twoPages 0).bytes.length := by
    rw [length_twoPages]
    decide
  exact (always (twoPages 0) 4096 (by decide) page).1 fault

end Netsystem.Region
