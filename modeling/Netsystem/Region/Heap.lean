import Netsystem.Alloc
import Netsystem.Bytes
import Netsystem.Program

/-!
# The shared heap

`MemHeap` of `hammer-shmem/src/heap.rs`. The functions of the mspace are operations: `mspace` is
what their documentation promises of a call that meets its preconditions, and nothing is promised
of any other call. A block is known by its address and has its bytes for itself.
-/

namespace Netsystem.Region.MemHeap

/-! ## Operations -/

inductive Op : Type where
  | isHeapObject (pointer : Nat)
  | usableSize (pointer : Nat)
  | reallocInPlace (pointer size : Nat)
  | memalign (align size : Nat)
  | copyNonoverlapping (source target count : Nat)
  | free (pointer : Nat)

/-- A null pointer is `none`; `reallocInPlace` says whether its pointer is not null. -/
abbrev Op.Ret : Op → Type
  | .isHeapObject _ => Bool
  | .usableSize _ => Nat
  | .reallocInPlace _ _ => Bool
  | .memalign _ _ => Option Nat
  | .copyNonoverlapping _ _ _ => Unit
  | .free _ => Unit

/-- Nothing here ends with an error. -/
abbrev Call (α : Type) : Type := Prog Op Op.Ret Empty α

/-! ## Allocation -/

/-- The exponent of `MIN_HEAP_ALIGNMENT`. -/
def minHeapAlignmentLog : Nat := 3

/-- The layout with at least the alignment of the heap. -/
def heapLayout (layout : Layout) : Option Layout :=
  Layout.fromSizeAlign layout.size (max layout.alignLog minHeapAlignmentLog)

/-- `MemHeap::allocate`. -/
def allocate (layout : Layout) : Call (Option Nat) :=
  match heapLayout layout with
  | none => .panic
  | some layout => Prog.perform (Op.memalign layout.align layout.size)

/-- The call of `mspace_realloc_in_place`, which an alignment in the way keeps back. -/
def resize (pointer : Nat) (newLayout : Layout) : Call Bool :=
  if pointer % newLayout.align = 0 then Prog.perform (Op.reallocInPlace pointer newLayout.size)
  else pure false

/-- The move of `MemHeap::reallocate` to another block. -/
def move (pointer oldSize : Nat) (newLayout : Layout) : Call (Option Nat) := do
  match ← allocate newLayout with
  | none => pure none
  | some replacement => do
      Prog.perform (Op.copyNonoverlapping pointer replacement (min oldSize newLayout.size))
      Prog.perform (Op.free pointer)
      pure (some replacement)

/-- `MemHeap::reallocate`. -/
def reallocate (pointer : Nat) (oldLayout newLayout : Layout) : Call (Option Nat) :=
  match heapLayout newLayout with
  | none => .panic
  | some newLayout => do
      if !(← Prog.perform (Op.isHeapObject pointer)) then pure none
      else do
        let oldSize ← Prog.perform (Op.usableSize pointer)
        if oldSize < oldLayout.size then .panic
        else if newLayout.size = oldSize then pure (some pointer)
        else do
          if ← resize pointer newLayout then pure (some pointer)
          else move pointer oldSize newLayout

/-! ## The mspace -/

/-- The live blocks, each with all its usable bytes, and the blocks that were freed, the latest
first. -/
structure Blocks : Type where
  block : Nat → Option Bytes
  freed : List Nat

/-- The blocks with another content at one address. -/
def Blocks.set (s : Blocks) (pointer : Nat) (content : Option Bytes) : Blocks :=
  { s with block := fun other => if other = pointer then content else s.block other }

@[simp] theorem Blocks.block_set_same (s : Blocks) (pointer : Nat) (content : Option Bytes) :
    (s.set pointer content).block pointer = content := if_pos rfl

theorem Blocks.block_set_other (s : Blocks) {pointer other : Nat} (content : Option Bytes)
    (apart : other ≠ pointer) : (s.set pointer content).block other = s.block other :=
  if_neg apart

@[simp] theorem Blocks.freed_set (s : Blocks) (pointer : Nat) (content : Option Bytes) :
    (s.set pointer content).freed = s.freed := rfl

theorem Blocks.set_set (s : Blocks) (pointer : Nat) (first second : Option Bytes) :
    (s.set pointer first).set pointer second = s.set pointer second := by
  unfold Blocks.set
  congr 1
  funext other
  by_cases same : other = pointer
  · rw [if_pos same, if_pos same]
  · rw [if_neg same, if_neg same]
    exact if_neg same

/-- The documented effect of every operation. -/
def mspace : Prog.Handler Op Op.Ret Blocks
  | .isHeapObject pointer, s, answer, s' => answer = (s.block pointer).isSome ∧ s' = s
  | .usableSize pointer, s, answer, s' =>
      ∀ content, s.block pointer = some content → answer = content.length ∧ s' = s
  | .reallocInPlace pointer size, s, answer, s' =>
      ∀ content, s.block pointer = some content →
        answer = false ∧ s' = s ∨
        answer = true ∧ ∃ resized : Bytes, size ≤ resized.length ∧
          (∀ count ≤ min content.length resized.length, resized.take count = content.take count) ∧
          s' = s.set pointer (some resized)
  | .memalign align size, s, answer, s' =>
      answer = none ∧ s' = s ∨
      ∃ pointer, ∃ fresh : Bytes, answer = some pointer ∧ s.block pointer = none ∧
        pointer % align = 0 ∧ size ≤ fresh.length ∧ s' = s.set pointer (some fresh)
  | .copyNonoverlapping source target count, s, _, s' =>
      ∀ read written : Bytes, s.block source = some read → s.block target = some written →
        source ≠ target → count ≤ read.length → count ≤ written.length →
          s' = s.set target (some (splice written 0 (read.take count)))
  | .free pointer, s, _, s' =>
      ∀ content, s.block pointer = some content →
        s' = { s.set pointer none with freed := pointer :: s.freed }

/-! ## Reallocation -/

/-- What `reallocate` promises of the block at `pointer`, which held `content`. -/
def Reallocated (pointer : Nat) (oldLayout newLayout : Layout) (content : Bytes) (s s' : Blocks) :
    Option Nat → Prop
  | some result =>
      (∃ bytes, s'.block result = some bytes ∧ newLayout.size ≤ bytes.length ∧
        bytes.take (min oldLayout.size newLayout.size) =
          content.take (min oldLayout.size newLayout.size)) ∧
      result % newLayout.align = 0 ∧
      (if result = pointer then s'.freed = s.freed
        else s'.freed = pointer :: s.freed ∧ s'.block pointer = none)
  | none => s'.block pointer = some content ∧ s'.freed = s.freed

section Reallocation

variable {pointer : Nat} {oldLayout newLayout layout : Layout} {content : Bytes} {s s' : Blocks}

theorem heapLayout_size (made : heapLayout newLayout = some layout) :
    layout.size = newLayout.size := (Layout.fromSizeAlign_eq_some made).1

/-- What is aligned for the heap is aligned for the caller. -/
theorem mod_align_of_heapLayout {address : Nat} (made : heapLayout newLayout = some layout)
    (aligned : address % layout.align = 0) : address % newLayout.align = 0 := by
  refine Layout.mod_align_of_le ?_ aligned
  rw [(Layout.fromSizeAlign_eq_some made).2]
  exact Nat.le_max_left ..

/-- The same block again, as it was. -/
theorem reallocated_same (live : s.block pointer = some content)
    (enough : newLayout.size ≤ content.length) :
    Reallocated pointer oldLayout newLayout content s s (some pointer) ↔
      pointer % newLayout.align = 0 := by
  refine ⟨fun kept => kept.2.1, fun aligned => ⟨⟨content, live, enough, rfl⟩, aligned, ?_⟩⟩
  rw [if_pos rfl]

/-- The same block, resized in place. -/
theorem reallocated_resized {resized : Bytes} (enough : newLayout.size ≤ resized.length)
    (described : oldLayout.size ≤ content.length)
    (kept : ∀ count ≤ min content.length resized.length, resized.take count = content.take count)
    (aligned : pointer % newLayout.align = 0) :
    Reallocated pointer oldLayout newLayout content s (s.set pointer (some resized))
      (some pointer) := by
  refine ⟨⟨resized, s.block_set_same .., enough, kept _ (by omega)⟩, aligned, ?_⟩
  rw [if_pos rfl, Blocks.freed_set]

/-- The state after a move to a fresh block. -/
def Blocks.moved (s : Blocks) (pointer replacement : Nat) (bytes : Bytes) : Blocks :=
  { (s.set replacement (some bytes)).set pointer none with freed := pointer :: s.freed }

theorem reallocated_moved {replacement : Nat} {bytes : Bytes} (apart : replacement ≠ pointer)
    (enough : newLayout.size ≤ bytes.length) (described : oldLayout.size ≤ content.length)
    (kept : bytes.take (min content.length newLayout.size) =
      content.take (min content.length newLayout.size))
    (aligned : replacement % newLayout.align = 0) :
    Reallocated pointer oldLayout newLayout content s (s.moved pointer replacement bytes)
      (some replacement) := by
  refine ⟨⟨bytes, ?_, enough, ?_⟩, aligned, ?_⟩
  · exact ((s.set replacement (some bytes)).block_set_other none apart).trans
      (s.block_set_same replacement (some bytes))
  · have shorter : min oldLayout.size newLayout.size ≤ min content.length
        newLayout.size := by omega
    have parts := congrArg (List.take (min oldLayout.size newLayout.size)) kept
    rwa [List.take_take, List.take_take, Nat.min_eq_left shorter] at parts
  · rw [if_neg apart]
    exact ⟨rfl, Blocks.block_set_same ..⟩

/-- The attempt to resize leaves everything as it was, or resizes the aligned block. -/
theorem runs_resize {resized : Bool} (live : s.block pointer = some content)
    (run : (resize pointer layout).Runs mspace s (.ok resized) s') :
    resized = false ∧ s' = s ∨
      resized = true ∧ pointer % layout.align = 0 ∧ ∃ bytes : Bytes, layout.size ≤ bytes.length ∧
        (∀ count ≤ min content.length bytes.length, bytes.take count = content.take count) ∧
        s' = s.set pointer (some bytes) := by
  unfold resize at run
  by_cases multiple : pointer % layout.align = 0
  · rw [if_pos multiple] at run
    obtain ⟨answer, mid, attempted, same, rfl⟩ := run
    cases Outcome.ok.inj same
    rcases attempted content live with failed | ⟨grown, bytes, enough, kept, effect⟩
    · exact .inl failed
    · exact .inr ⟨grown, multiple, bytes, enough, kept, effect⟩
  · rw [if_neg multiple] at run
    obtain ⟨same, rfl⟩ := run
    exact .inl ⟨Outcome.ok.inj same, rfl⟩

/-- The block that a move leaves behind has been copied, then freed. -/
theorem runs_move {result : Option Nat} (live : s.block pointer = some content)
    (run : (move pointer content.length layout).Runs mspace s (.ok result) s') :
    result = none ∧ s' = s ∨
      ∃ replacement bytes, result = some replacement ∧ replacement ≠ pointer ∧
        (∃ made, heapLayout layout = some made ∧ replacement % made.align = 0) ∧
        layout.size ≤ bytes.length ∧
        bytes.take (min content.length layout.size) =
          content.take (min content.length layout.size) ∧
        s' = s.moved pointer replacement bytes := by
  unfold move allocate at run
  cases made : heapLayout layout with
  | none =>
      rw [made] at run
      cases run.1
  | some aligned =>
      rw [made] at run
      obtain ⟨answer, mid, allocated, rest⟩ := run
      rcases allocated with ⟨rfl, rfl⟩ | ⟨replacement, fresh, rfl, unused, multiple, enough, rfl⟩
      · obtain ⟨same, rfl⟩ := rest
        exact .inl ⟨Outcome.ok.inj same, rfl⟩
      · rw [heapLayout_size made] at enough
        have apart : replacement ≠ pointer := by
          intro same
          rw [same, live] at unused
          cases unused
        have source : (s.set replacement (some fresh)).block pointer = some content :=
          (s.block_set_other _ apart.symm).trans live
        obtain ⟨⟨⟩, copied, wrote, ⟨⟩, last, freed, same, rfl⟩ := rest
        have wrote := wrote content fresh source (s.block_set_same ..) apart.symm
          (Nat.min_le_left ..) (Nat.le_trans (Nat.min_le_right ..) enough)
        rw [Blocks.set_set] at wrote
        subst wrote
        let count := min content.length layout.size
        let bytes := splice fresh 0 (content.take count)
        have freed := freed content ((s.block_set_other _ apart.symm).trans live)
        have front : (content.take count).length = count := by
          rw [List.length_take]
          omega
        have long : bytes.length = fresh.length := length_splice (by rw [front]; omega)
        have kept : bytes.take count = content.take count := by
          have taken := take_splice_zero fresh (content.take count)
          rwa [front] at taken
        refine .inr ⟨replacement, bytes, Outcome.ok.inj same, apart,
          ⟨aligned, rfl, multiple⟩, ?_, kept, freed⟩
        rwa [long]

/-- **Reallocation.** The block is reallocated as promised exactly when the caller does not ask
for the usable size with an alignment that the pointer does not have. -/
theorem reallocated_iff {result : Option Nat} (live : s.block pointer = some content)
    (described : oldLayout.size ≤ content.length)
    (run : (reallocate pointer oldLayout newLayout).Runs mspace s (.ok result) s') :
    Reallocated pointer oldLayout newLayout content s s' result ↔
      ¬ (newLayout.size = content.length ∧ pointer % newLayout.align ≠ 0) := by
  unfold reallocate at run
  cases made : heapLayout newLayout with
  | none =>
      rw [made] at run
      cases run.1
  | some layout =>
      rw [made] at run
      obtain ⟨_, _, ⟨rfl, rfl⟩, run⟩ := run
      rw [live] at run
      obtain ⟨_, _, measured, run⟩ := run
      obtain ⟨rfl, rfl⟩ := measured content live
      simp only [Prog.bind_ok, if_neg (Nat.not_lt.mpr described), heapLayout_size made] at run
      by_cases same : newLayout.size = content.length
      · rw [if_pos same] at run
        obtain ⟨answer, rfl⟩ := run
        rw [Outcome.ok.inj answer, reallocated_same live (Nat.le_of_eq same)]
        tauto
      · rw [if_neg same] at run
        refine iff_of_true ?_ fun both => same both.1
        obtain ⟨resized, mid, tried, rest⟩ := Prog.runs_bind_ok.mp run
        rcases runs_resize live tried with ⟨rfl, rfl⟩ | ⟨rfl, multiple, bytes, enough, kept, rfl⟩
        · rcases runs_move live rest with ⟨rfl, rfl⟩ |
            ⟨replacement, bytes, rfl, apart, ⟨stricter, again, multiple⟩, enough, kept, rfl⟩
          · exact ⟨live, rfl⟩
          · rw [heapLayout_size made] at enough kept
            exact reallocated_moved apart enough described kept
              (mod_align_of_heapLayout made (mod_align_of_heapLayout again multiple))
        · rw [heapLayout_size made] at enough
          obtain ⟨answer, rfl⟩ := rest
          rw [Outcome.ok.inj answer]
          exact reallocated_resized enough described kept (mod_align_of_heapLayout made multiple)

end Reallocation

/-- One block of 24 usable bytes, at 1040. -/
def oneBlock : Blocks :=
  { block := fun pointer => if pointer = 1040 then some (List.replicate 24 7) else none,
    freed := [] }

theorem usableSize_oneBlock : mspace (.usableSize 1040) oneBlock (24 : Nat) oneBlock := by
  intro content live
  have held : oneBlock.block 1040 = some (List.replicate 24 7) := rfl
  rw [held] at live
  cases live
  exact ⟨rfl, rfl⟩

/-- Its usable bytes are asked for again, with another alignment. -/
theorem runs_oneBlock (layout : Layout) (usable : (heapLayout layout).map Layout.size = some 24) :
    (reallocate 1040 ⟨24, 3, by decide⟩ layout).Runs mspace oneBlock
      (.ok (some 1040)) oneBlock := by
  obtain ⟨made, stricter, size⟩ := Option.map_eq_some_iff.mp usable
  unfold reallocate
  rw [stricter]
  refine ⟨true, oneBlock, ⟨rfl, rfl⟩, 24, oneBlock, usableSize_oneBlock, ?_⟩
  dsimp only
  rw [Prog.bind_ok, if_neg (by decide), if_pos size]
  exact ⟨rfl, rfl⟩

/-- The first 24 of 40 fresh bytes are a copy of the block. -/
def copied : Bytes := splice (List.replicate 40 0) 0 (List.replicate 24 7)

/-- It cannot grow to 40 bytes where it is, and moves to a fresh block at 2048. -/
theorem runs_oneBlock_moved :
    (reallocate 1040 ⟨24, 3, by decide⟩ ⟨40, 3, by decide⟩).Runs mspace oneBlock (.ok (some 2048))
      (oneBlock.moved 1040 2048 copied) := by
  refine ⟨true, oneBlock, ⟨rfl, rfl⟩, 24, oneBlock, usableSize_oneBlock, ?_⟩
  refine ⟨false, oneBlock, fun _ _ => .inl ⟨rfl, rfl⟩, ?_⟩
  refine ⟨some 2048, oneBlock.set 2048 (some (List.replicate 40 0)),
    .inr ⟨2048, _, rfl, rfl, rfl, by decide, rfl⟩, (), oneBlock.set 2048 (some copied), ?_, (),
    oneBlock.moved 1040 2048 copied, fun _ _ => rfl, rfl, rfl⟩
  intro read written source target _ _ _
  obtain rfl : List.replicate 24 7 = read := Option.some.inj source
  obtain rfl : List.replicate 40 0 = written := Option.some.inj target
  exact (Blocks.set_set ..).symm

/-- The block is asked for at its own size, and moves when it has to grow. -/
theorem reallocated_oneBlock :
    Reallocated 1040 ⟨24, 3, by decide⟩ ⟨24, 4, by decide⟩ (List.replicate 24 7) oneBlock oneBlock
      (some 1040) ∧
    Reallocated 1040 ⟨24, 3, by decide⟩ ⟨40, 3, by decide⟩ (List.replicate 24 7) oneBlock
      (oneBlock.moved 1040 2048 copied) (some 2048) := by
  have same := runs_oneBlock ⟨24, 4, by decide⟩ (by decide)
  exact ⟨(reallocated_iff rfl (by decide) same).mpr (by decide),
    (reallocated_iff rfl (by decide) runs_oneBlock_moved).mpr (by decide)⟩

/-- 1040 is a multiple of 16, and no multiple of 32. -/
theorem misaligned_not_reallocated :
    ¬ ∀ (pointer : Nat) (oldLayout newLayout : Layout) (content : Bytes) (s s' : Blocks)
      (result : Option Nat), s.block pointer = some content → oldLayout.size ≤ content.length →
      (reallocate pointer oldLayout newLayout).Runs mspace s (.ok result) s' →
        Reallocated pointer oldLayout newLayout content s s' result := by
  intro always
  have run := runs_oneBlock ⟨24, 5, by decide⟩ (by decide)
  have kept := always 1040 _ _ _ _ _ _ rfl (by decide) run
  exact absurd kept.2.1 (by decide)

end Netsystem.Region.MemHeap
