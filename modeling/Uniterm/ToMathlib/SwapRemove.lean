import Mathlib.Data.List.Perm.Basic

/-! # Removal by swapping with the last element

A vector drops an element in constant time by moving its last element into the gap. The order of the
rest changes, so what is known about the result is a permutation.
-/

namespace Uniterm.ToMathlib

variable {α : Type*}

/-- Drop the element at an index; the last element takes its place. -/
def swapRemove (list : List α) (index : ℕ) : List α :=
  match list.getLast? with
  | none => []
  | some last => (list.set index last).dropLast

theorem swapRemove_perm {list : List α} {index : ℕ} {value : α} (read : list[index]? = some value) :
    list.Perm (value :: swapRemove list index) := by
  obtain ⟨low, rfl⟩ := List.getElem?_eq_some_iff.mp read
  rcases List.eq_nil_or_concat list with rfl | ⟨front, last, rfl⟩
  · exact absurd low (Nat.not_lt_zero index)
  · simp only [List.concat_eq_append] at low read ⊢
    rw [swapRemove, List.getLast?_concat]
    dsimp only
    rw [List.length_append, List.length_singleton] at low
    by_cases inside : index < front.length
    · rw [List.getElem_append_left inside, List.set_append_left _ _ inside, List.dropLast_concat]
      have cut : front = front.take index ++ front[index] :: front.drop (index + 1) := by
        rw [List.getElem_cons_drop, List.take_append_drop]
      have changed : front.set index last = front.take index ++ last :: front.drop (index + 1) :=
        List.set_eq_take_append_cons_drop.trans (if_pos inside)
      calc front ++ [last]
          |>.Perm (last :: front) := List.perm_append_singleton last front
        _ |>.Perm (last :: front[index] :: (front.take index ++ front.drop (index + 1))) := by
          apply List.Perm.cons
          exact (List.Perm.of_eq cut).trans List.perm_middle
        _ |>.Perm (front[index] :: last :: (front.take index ++ front.drop (index + 1))) :=
          List.Perm.swap ..
        _ |>.Perm (front[index] :: front.set index last) := by
          apply List.Perm.cons
          exact (List.perm_middle.symm).trans (List.Perm.of_eq changed.symm)
    · have final : index = front.length := by omega
      subst final
      rw [List.getElem_append_right (Nat.le_refl _), List.set_append_right _ _ (Nat.le_refl _)]
      simp

end Uniterm.ToMathlib
