import Mathlib.Data.List.Sort
import Mathlib.Order.Bounds.Basic

/-!
# Lists in order

What is found first in a list that is in order, and how many items come before a place:

* `rel_of_find?`, `isLeast_of_find?`: the first item of a kind stands to all others of that kind as
  the order of the list says;
* `lt_countP_iff`: if the items of a kind come first, their number tells where they end.

Sorting by merging does not come down to a value by reduction, and sorting by insertion does. They
come to the same list, with items of one rank in the order in which they were
(`mergeSort_eq_insertionSort`).
-/

namespace Simulcast

variable {α : Type} {p : α → Bool} {xs : List α}

/-- The first item of its kind is related to all the others. -/
theorem rel_of_find? {R : α → α → Prop} {x y : α} (hr : xs.Pairwise R) (h : xs.find? p = some x)
    (hy : y ∈ xs) (hp : p y = true) : y = x ∨ R x y := by
  obtain ⟨-, front, rest, rfl, others⟩ := List.find?_eq_some_iff_append.1 h
  rcases List.mem_append.1 hy with hy | hy
  · have fails : p y = false := by simpa only [Bool.not_eq_true'] using others y hy
    rw [fails] at hp
    cases hp
  · rcases List.mem_cons.1 hy with rfl | hy
    · exact .inl rfl
    · exact .inr (List.rel_of_pairwise_cons (List.pairwise_append.1 hr).2.1 hy)

/-- The first item of its kind in a rising list is the least one. -/
theorem isLeast_of_find? [Preorder α] {x : α} (rising : xs.Pairwise (· < ·))
    (h : xs.find? p = some x) : IsLeast {y | y ∈ xs ∧ p y = true} x := by
  refine ⟨⟨List.mem_of_find?_eq_some h, List.find?_some h⟩, ?_⟩
  rintro y ⟨hy, hp⟩
  rcases rel_of_find? rising h hy hp with rfl | later
  · exact le_rfl
  · exact later.le

/-- In a list whose items of a kind come first, an item is of that kind if and only if it comes
before the place that is their number. -/
theorem lt_countP_iff (first : xs.Pairwise fun x y => p y = true → p x = true) {i : Nat}
    (hi : i < xs.length) : i < xs.countP p ↔ p xs[i] = true := by
  induction xs generalizing i with
  | nil => cases hi
  | cons x xs ih =>
    obtain ⟨before, first⟩ := List.pairwise_cons.1 first
    by_cases hx : p x = true
    · rw [List.countP_cons_of_pos hx]
      cases i with
      | zero => exact iff_of_true (Nat.succ_pos _) hx
      | succ i =>
        rw [Nat.add_lt_add_iff_right, List.getElem_cons_succ]
        exact ih first _
    · -- None of the kind comes first, so that there is none.
      have none : ∀ y ∈ x :: xs, ¬p y = true :=
        List.forall_mem_cons.2 ⟨hx, fun y hy yes => hx (before y hy yes)⟩
      rw [List.countP_eq_zero.2 none]
      exact iff_of_false (Nat.not_lt_zero _) (none _ (List.getElem_mem hi))

/-! ## Sorting -/

section Sorting

variable {le : α → α → Bool} {x : α} {front rest : List α}

/-- An item goes in behind those that it may not precede. -/
theorem orderedInsert_append (before : ∀ y ∈ front, le x y = false)
    (behind : ∀ y ∈ rest, le x y = true) :
    (front ++ rest).orderedInsert (fun x y => le x y = true) x = front ++ x :: rest := by
  induction front with
  | nil =>
    cases rest with
    | nil => rfl
    | cons y rest => exact List.orderedInsert_cons_of_le _ rest (behind y List.mem_cons_self)
  | cons y front ih =>
    obtain ⟨first, before⟩ := List.forall_mem_cons.1 before
    rw [List.cons_append, List.orderedInsert_cons, if_neg (Bool.eq_false_iff.1 first), ih before,
      List.cons_append]

/-- Merging sorts as inserting does. -/
theorem mergeSort_eq_insertionSort (trans : ∀ x y z, le x y = true → le y z = true → le x z = true)
    (total : ∀ x y, (le x y || le y x) = true) (xs : List α) :
    xs.mergeSort le = xs.insertionSort fun x y => le x y = true := by
  induction xs with
  | nil => rw [List.mergeSort_nil, List.insertionSort_nil]
  | cons x xs ih =>
    obtain ⟨front, rest, sorted, others, before⟩ := List.mergeSort_cons trans total x xs
    have inOrder : (front ++ x :: rest).Pairwise fun y z => le y z = true :=
      sorted ▸ List.pairwise_mergeSort trans total (x :: xs)
    have behind := (List.pairwise_cons.1 (List.pairwise_append.1 inOrder).2.1).1
    rw [sorted, List.insertionSort_cons, ← ih, others, orderedInsert_append ?_ behind]
    simpa only [Bool.not_eq_true'] using before

end Sorting

end Simulcast
