import Mathlib.Data.List.Basic
import Mathlib.Data.Nat.ModEq

/-!
# Circular buffers

A circular buffer of `capacity` slots is three words and a slot function. `Holds` ties them to the
list that the buffer stands for: the `count` slots from `head`, wrapping at the capacity. The
rules below say what one insertion and one removal do to that list; nothing here names a machine
or a slot format.
-/

namespace Netsystem.Ring

variable {α : Type} {capacity head tail count : Nat} {slot slot' : Nat → α} {items : List α}

/-- The index after `index`. -/
def next (capacity index : Nat) : Nat := if index + 1 = capacity then 0 else index + 1

theorem next_eq_mod {index : Nat} (bound : index < capacity) :
    next capacity index = (index + 1) % capacity := by
  unfold next
  split
  · next wraps => rw [wraps, Nat.mod_self]
  · exact (Nat.mod_eq_of_lt (by omega)).symm

theorem next_lt {index : Nat} (bound : index < capacity) : next capacity index < capacity := by
  rw [next_eq_mod bound]
  exact Nat.mod_lt _ (by omega)

/-- Two offsets below the capacity reach one slot only if they are equal. -/
theorem offset_inj {left right : Nat} (leftBound : left < capacity)
    (rightBound : right < capacity)
    (same : (head + left) % capacity = (head + right) % capacity) : left = right := by
  have congruent : left ≡ right [MOD capacity] := Nat.ModEq.add_left_cancel' head same
  rwa [Nat.ModEq, Nat.mod_eq_of_lt leftBound, Nat.mod_eq_of_lt rightBound] at congruent

/-- The buffer stands for the list `items`. -/
structure Holds (capacity head tail count : Nat) (slot : Nat → α) (items : List α) : Prop where
  head_lt : head < capacity
  count_le : count ≤ capacity
  tail_eq : tail = (head + count) % capacity
  length : items.length = count
  slots : ∀ index (bound : index < items.length), slot ((head + index) % capacity) = items[index]

theorem Holds.tail_lt (holds : Holds capacity head tail count slot items) : tail < capacity := by
  rw [holds.tail_eq]
  exact Nat.mod_lt _ (Nat.zero_lt_of_lt holds.head_lt)

theorem Holds.empty (positive : 0 < capacity) (slot : Nat → α) :
    Holds capacity 0 0 0 slot [] where
  head_lt := positive
  count_le := Nat.zero_le capacity
  tail_eq := (Nat.zero_mod capacity).symm
  length := rfl
  slots index bound := by cases bound

/-- The three words and the slots determine the list. -/
theorem Holds.unique {items' : List α} (left : Holds capacity head tail count slot items)
    (right : Holds capacity head tail count slot items') : items = items' := by
  apply List.ext_getElem (left.length.trans right.length.symm)
  intro index leftBound rightBound
  rw [← left.slots index leftBound, right.slots index rightBound]

/-- With room to spare, the slot at the tail stands for nothing. -/
theorem Holds.overwrite (holds : Holds capacity head tail count slot items)
    (room : count < capacity)
    (kept : ∀ index, index < capacity → index ≠ tail → slot' index = slot index) :
    Holds capacity head tail count slot' items := by
  refine { holds with slots := fun index bound => ?_ }
  have below : index < count := by rwa [holds.length] at bound
  rw [kept _ (Nat.mod_lt _ (by omega)), holds.slots index bound]
  intro same
  rw [holds.tail_eq] at same
  have equal := offset_inj (by omega) room same
  omega

/-- Writing the slot at the tail and moving the tail appends an element. -/
theorem Holds.push (holds : Holds capacity head tail count slot items) (room : count < capacity)
    {element : α} (kept : ∀ index, index < capacity → index ≠ tail → slot' index = slot index)
    (written : slot' tail = element) :
    Holds capacity head (next capacity tail) (count + 1) slot' (items ++ [element]) where
  head_lt := holds.head_lt
  count_le := room
  tail_eq := by
    rw [next_eq_mod holds.tail_lt, holds.tail_eq, Nat.mod_add_mod, Nat.add_assoc]
  length := by rw [List.length_append, holds.length, List.length_singleton]
  slots index bound := by
    have before := holds.overwrite room kept
    rw [List.length_append, List.length_singleton] at bound
    by_cases last : index = items.length
    · subst last
      rw [List.getElem_concat_length rfl, holds.length, ← holds.tail_eq, written]
    · have inside : index < items.length := by omega
      rw [List.getElem_append_left inside, before.slots index inside]

/-- The slot at the head is the oldest element; moving the head removes it. -/
theorem Holds.pop {element : α} {rest : List α}
    (holds : Holds capacity head tail count slot (element :: rest)) :
    slot head = element ∧ Holds capacity (next capacity head) tail (count - 1) slot rest := by
  have size := holds.length
  rw [List.length_cons] at size
  have oldest := holds.slots 0 (by simp)
  rw [Nat.add_zero, Nat.mod_eq_of_lt holds.head_lt] at oldest
  have bound := holds.count_le
  refine ⟨oldest, next_lt holds.head_lt, by omega, ?_, by omega, fun index bound => ?_⟩
  · rw [holds.tail_eq, next_eq_mod holds.head_lt, Nat.mod_add_mod]
    congr 1
    omega
  · have shifted := holds.slots (index + 1) (by simpa using bound)
    rw [next_eq_mod holds.head_lt, Nat.mod_add_mod]
    rwa [Nat.add_assoc, Nat.add_comm 1 index]

/-- With at least two slots, a tail that has moved alone no longer fits the count. -/
theorem Holds.not_of_tail_moved {items' : List α} (wide : 2 ≤ capacity)
    (holds : Holds capacity head tail count slot items) :
    ¬ Holds capacity head (next capacity tail) count slot' items' := by
  intro moved
  have same := moved.tail_eq
  rw [← holds.tail_eq] at same
  unfold next at same
  split at same <;> omega

/-- With at least two slots, a head that has moved alone no longer fits the count. -/
theorem Holds.not_of_head_moved {items' : List α} (wide : 2 ≤ capacity)
    (holds : Holds capacity head tail count slot items) :
    ¬ Holds capacity (next capacity head) tail count slot' items' := by
  intro moved
  have same := moved.tail_eq
  rw [holds.tail_eq, next_eq_mod holds.head_lt, Nat.mod_add_mod] at same
  have congruent : head + count + 0 ≡ head + count + 1 [MOD capacity] := by
    rw [Nat.ModEq, Nat.add_zero, same]
    congr 1
    omega
  have step := Nat.ModEq.add_left_cancel' (head + count) congruent
  rw [Nat.ModEq, Nat.zero_mod, Nat.mod_eq_of_lt (by omega)] at step
  omega

end Netsystem.Ring
