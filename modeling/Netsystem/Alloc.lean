import Mathlib.Tactic.Ring

/-!
# Allocation layouts

`std::alloc::Layout`, as far as it is used. A layout carries its own bound: the size, rounded up
to the alignment, is at most `isize::MAX`.
-/

namespace Netsystem

structure Layout : Type where
  size : Nat
  alignLog : Nat
  fits : size + 2 ^ alignLog ≤ 2 ^ 63

namespace Layout

/-- `Layout::align`. -/
def align (layout : Layout) : Nat := 2 ^ layout.alignLog

/-- `Layout::from_size_align`, with the alignment by its exponent. -/
def fromSizeAlign (size alignLog : Nat) : Option Layout :=
  if fits : size + 2 ^ alignLog ≤ 2 ^ 63 then some ⟨size, alignLog, fits⟩ else none

/-- The size rounded up to the alignment of another layout. -/
def sizeRoundedUpTo (layout next : Layout) : Nat :=
  (layout.size + next.align - 1) / next.align * next.align

/-- `Layout::extend`: the layout of both, and the offset of the second. -/
def extend (layout next : Layout) : Option (Layout × Nat) :=
  let offset := layout.sizeRoundedUpTo next
  match fromSizeAlign (offset + next.size) (max layout.alignLog next.alignLog) with
  | some both => some (both, offset)
  | none => none

theorem fromSizeAlign_eq_some {size alignLog : Nat} {layout : Layout}
    (made : fromSizeAlign size alignLog = some layout) :
    layout.size = size ∧ layout.alignLog = alignLog := by
  unfold fromSizeAlign at made
  split at made
  · cases made
    exact ⟨rfl, rfl⟩
  · cases made

/-- What is aligned for the larger of two layouts is aligned for the smaller. -/
theorem mod_align_of_le {layout stricter : Layout} {address : Nat}
    (le : layout.alignLog ≤ stricter.alignLog) (aligned : address % stricter.align = 0) :
    address % layout.align = 0 := by
  apply Nat.mod_eq_zero_of_dvd
  exact Nat.dvd_trans (Nat.pow_dvd_pow 2 le) (Nat.dvd_of_mod_eq_zero aligned)

end Layout

end Netsystem
