import Mathlib.Data.List.Forall2

/-! # Groups of a list

A list of groups grows by an element in one of them or by a group of its own, and its elements stay those that were
put in.
-/

namespace Uniterm.ToMathlib

variable {α β : Type*}

/-- The group at an index has an element with a property. -/
def InGroup (groups : List (List α)) (k : ℕ) (p : α → Prop) : Prop := ∃ group, groups[k]? = some group ∧ ∃ a ∈ group, p a

variable {groups : List (List α)} {index k : ℕ} {a : α} {p : α → Prop}

theorem InGroup.lt (held : InGroup groups k p) : k < groups.length := by
  obtain ⟨group, atK, -⟩ := held
  exact (List.getElem?_eq_some_iff.mp atK).1

theorem inGroup_modify (inside : index < groups.length) :
    InGroup (groups.modify index (· ++ [a])) k p ↔ InGroup groups k p ∨ k = index ∧ p a := by
  unfold InGroup
  rw [List.getElem?_modify]
  by_cases here : index = k
  · subst here
    rw [List.getElem?_eq_getElem inside]
    simp [or_and_right, exists_or]
  · cases groups[k]? with
    | none => simp [Ne.symm here]
    | some group => simp [here, Ne.symm here]

theorem inGroup_concat : InGroup (groups ++ [[a]]) k p ↔ InGroup groups k p ∨ k = groups.length ∧ p a := by
  rcases Nat.lt_trichotomy k groups.length with inside | rfl | outside
  · unfold InGroup
    rw [List.getElem?_append_left inside]
    simp [Nat.ne_of_lt inside]
  · unfold InGroup
    rw [List.getElem?_concat_length, List.getElem?_eq_none (Nat.le_refl _)]
    simp
  · refine iff_of_false (fun held => ?_) (fun held => ?_)
    · have bound := held.lt
      rw [List.length_append, List.length_singleton] at bound
      omega
    · rcases held with held | ⟨rfl, -⟩
      · exact absurd held.lt (Nat.lt_asymm outside)
      · exact absurd outside (Nat.lt_irrefl _)

theorem flatten_modify_perm (groups : List (List α)) (a : α) (inside : index < groups.length) :
    (groups.modify index (· ++ [a])).flatten.Perm (groups.flatten ++ [a]) := by
  induction groups generalizing index with
  | nil => exact absurd inside (Nat.not_lt_zero _)
  | cons group groups ih =>
    cases index with
    | zero =>
      rw [List.modify_zero_cons, List.flatten_cons, List.flatten_cons, List.append_assoc, List.append_assoc]
      exact List.perm_append_comm.append_left group
    | succ index =>
      rw [List.modify_succ_cons, List.flatten_cons, List.flatten_cons, List.append_assoc]
      exact (ih (Nat.lt_of_succ_lt_succ inside)).append_left group

/-- Changing related elements alike keeps the lists related. -/
theorem forall₂_modify_both {rel : α → β → Prop} {as : List α} {bs : List β} (related : List.Forall₂ rel as bs)
    {f : α → α} {g : β → β} (keeps : ∀ a b, as[index]? = some a → rel a b → rel (f a) (g b)) :
    List.Forall₂ rel (as.modify index f) (bs.modify index g) := by
  induction related generalizing index with
  | nil => simp
  | cons head rest ih =>
    cases index with
    | zero =>
      rw [List.modify_zero_cons, List.modify_zero_cons]
      exact .cons (keeps _ _ rfl head) rest
    | succ index =>
      rw [List.modify_succ_cons, List.modify_succ_cons]
      exact .cons head (ih keeps)

end Uniterm.ToMathlib
