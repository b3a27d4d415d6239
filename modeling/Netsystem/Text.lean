import Mathlib.Data.String.Basic
import Mathlib.Data.List.Forall2
import Mathlib.Data.List.Perm.Basic
import Mathlib.Data.List.Sort
import Mathlib.Data.List.TakeWhile

/-!
# Texts and sorted lists

What Rust's `str` and slices do with a text and with a list: `strip_prefix`, `split_once`, and a
stable sort. Texts are ordered by their characters, which is the order of their bytes in UTF-8.
-/

namespace Netsystem

/-! ## Texts -/

/-- `str::strip_prefix`. -/
def stripPrefix (front text : String) : Option String :=
  (front.toList.isPrefixOf? text.toList).map String.ofList

/-- `str::split_once` at a character: what stands before the first of them and after it. -/
def splitOnce (separator : Char) (text : String) : Option (String × String) :=
  match text.toList.dropWhile (· ≠ separator) with
  | [] => none
  | _ :: back => some (String.ofList (text.toList.takeWhile (· ≠ separator)), String.ofList back)

theorem isPrefixOf?_eq_some_iff {front text back : List Char} :
    front.isPrefixOf? text = some back ↔ text = front ++ back := by
  induction front generalizing text with
  | nil => simp [List.isPrefixOf?, eq_comm]
  | cons head front ih =>
      cases text with
      | nil => simp [List.isPrefixOf?]
      | cons first text =>
          by_cases same : head = first
          · simp [List.isPrefixOf?, same, ih]
          · simp [List.isPrefixOf?, same, Ne.symm same]

theorem stripPrefix_eq_some_iff {front text back : String} :
    stripPrefix front text = some back ↔ text = front ++ back := by
  rw [stripPrefix, Option.map_eq_some_iff]
  constructor
  · rintro ⟨rest, found, rfl⟩
    rw [← String.toList_inj, isPrefixOf?_eq_some_iff.mp found, String.toList_append,
      String.toList_ofList]
  · rintro rfl
    exact ⟨back.toList, isPrefixOf?_eq_some_iff.mpr String.toList_append, String.ofList_toList⟩

theorem splitOnce_eq_some_iff {separator : Char} {text front back : String} :
    splitOnce separator text = some (front, back) ↔
      text.toList = front.toList ++ separator :: back.toList ∧ separator ∉ front.toList := by
  unfold splitOnce
  constructor
  · intro found
    split at found
    · cases found
    · next first rest dropped =>
      cases found
      have parts := List.takeWhile_append_dropWhile (p := (· ≠ separator)) (l := text.toList)
      have head : first = separator := by
        have nonempty : text.toList.dropWhile (· ≠ separator) ≠ [] := by
          rw [dropped]
          exact List.cons_ne_nil _ _
        have stops := List.head_dropWhile_not _ nonempty
        simp only [dropped, List.head_cons] at stops
        simpa using stops
      rw [dropped, head] at parts
      refine ⟨?_, fun member => ?_⟩
      · rw [String.toList_ofList, String.toList_ofList]
        exact parts.symm
      · rw [String.toList_ofList] at member
        simpa using List.mem_takeWhile_imp member
  · rintro ⟨parts, absent⟩
    have before : ∀ letter ∈ front.toList, decide (letter ≠ separator) = true := by
      intro letter member
      exact decide_eq_true fun same => absent (same ▸ member)
    have dropped : text.toList.dropWhile (· ≠ separator) = separator :: back.toList := by
      rw [parts, List.dropWhile_append_of_pos before]
      simp
    have taken : text.toList.takeWhile (· ≠ separator) = front.toList := by
      rw [parts, List.takeWhile_append_of_pos before]
      simp
    rw [dropped, taken]
    simp only [String.ofList_toList]

/-! ## Sorted lists -/

section Sorting

variable {α κ : Type} [LinearOrder κ] {key : α → κ} {items items' : List α}

/-- `slice::sort_by` with the order of a key. Equal keys keep their order. -/
def sortByKey (key : α → κ) (items : List α) : List α :=
  items.insertionSort (Order.Preimage key (· ≤ ·))

theorem sortByKey_perm (key : α → κ) (items : List α) : (sortByKey key items).Perm items :=
  List.perm_insertionSort _ _

@[simp] theorem mem_sortByKey {item : α} : item ∈ sortByKey key items ↔ item ∈ items :=
  List.mem_insertionSort _

theorem sortByKey_pairwise (key : α → κ) (items : List α) :
    (sortByKey key items).Pairwise fun left right => key left ≤ key right :=
  List.pairwise_insertionSort (Order.Preimage key (· ≤ ·)) items

/-- Two sorted arrangements of one list agree where the key tells its items apart: the order in
which a sort meets equal keys is then no matter. -/
theorem eq_of_sorted_perm
    (apart : ∀ left ∈ items, ∀ right ∈ items, key left = key right → left = right)
    (perm : items.Perm items')
    (sorted : items.Pairwise fun left right => key left ≤ key right)
    (sorted' : items'.Pairwise fun left right => key left ≤ key right) : items = items' :=
  perm.eq_of_pairwise
    (fun left right leftMem rightMem below above =>
      apart left leftMem right (perm.mem_iff.mpr rightMem) (le_antisymm below above))
    sorted sorted'

/-- Distinct keys are strictly increasing once they are sorted. -/
theorem strict_of_sorted (sorted : items.Pairwise fun left right => key left ≤ key right)
    (distinct : (items.map key).Nodup) :
    items.Pairwise fun left right => key left < key right := by
  have different : items.Pairwise fun left right => key left ≠ key right :=
    List.pairwise_map.mp distinct
  exact sorted.imp₂ (fun _ _ below apart => lt_of_le_of_ne below apart) different

end Sorting

/-- What a list is mapped to stands beside the items that are mapped. -/
theorem forall₂_filterMap {α β : Type} {f : α → Option β} (items : List α) :
    List.Forall₂ (fun item made => f item = some made)
      (items.filter fun item => (f item).isSome) (items.filterMap f) := by
  induction items with
  | nil => exact .nil
  | cons item items ih =>
      cases made : f item with
      | none =>
          rw [List.filterMap_cons_none made, List.filter_cons_of_neg (by simp [made])]
          exact ih
      | some value =>
          rw [List.filterMap_cons_some made, List.filter_cons_of_pos (by simp [made])]
          exact .cons made ih

/-- Two lists side by side stay so when the second is rearranged. -/
theorem exists_arranged {α β : Type} {R : α → β → Prop} {items : List α} {made made' : List β}
    (beside : List.Forall₂ R items made) (perm : made'.Perm made) :
    ∃ arranged, arranged.Perm items ∧ List.Forall₂ R arranged made' := by
  obtain ⟨arranged, flipped, back⟩ :=
    List.perm_comp_forall₂ (r := flip R) perm (List.Forall₂.flip beside)
  exact ⟨arranged, back, flipped.flip⟩

end Netsystem
