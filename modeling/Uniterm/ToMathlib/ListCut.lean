import Mathlib.Data.List.InsertIdx
import Mathlib.Data.List.Nodup

/-! # Lists cut at an element

An index that reads an element cuts its list in two around it, and what is done at the index is done at
the cut.
-/

namespace Uniterm.ToMathlib

variable {α β : Type*} {xs : List α} {i : ℕ} {x : α}

theorem exists_cut (read : xs[i]? = some x) : ∃ before after, xs = before ++ x :: after ∧ before.length = i := by
  obtain ⟨inside, rfl⟩ := List.getElem?_eq_some_iff.mp read
  refine ⟨xs.take i, xs.drop (i + 1), ?_, List.length_take_of_le (Nat.le_of_lt inside)⟩
  rw [← List.drop_eq_getElem_cons inside, List.take_append_drop]

theorem modify_cut (f : α → α) (before after : List α) :
    (before ++ x :: after).modify before.length f = before ++ f x :: after := by
  induction before with
  | nil => rfl
  | cons a before ih => simp [ih]

/-- A change that an image does not see. -/
theorem map_modify_same (xs : List α) (i : ℕ) {f : α → α} {g : α → β} (same : ∀ x, g (f x) = g x) :
    (xs.modify i f).map g = xs.map g := by
  induction xs generalizing i with
  | nil => simp
  | cons x xs ih =>
    cases i with
    | zero => simp [same]
    | succ i => simp [ih]

theorem eraseIdx_cut (before after : List α) :
    (before ++ x :: after).eraseIdx before.length = before ++ after := by
  induction before with
  | nil => rfl
  | cons a before ih => simp [ih]

/-- The first element with a property, if there is one. -/
theorem findIdx?_read {p : α → Bool} (found : xs.findIdx? p = some i) :
    ∃ x, xs[i]? = some x ∧ p x = true := by
  obtain ⟨inside, holds, _⟩ := List.findIdx?_eq_some_iff_getElem.mp found
  exact ⟨xs[i], List.getElem?_eq_getElem inside, holds⟩

theorem findIdx?_of_mem {p : α → Bool} (member : x ∈ xs) (holds : p x = true) :
    ∃ i, xs.findIdx? p = some i := by
  cases found : xs.findIdx? p with
  | none => exact absurd holds (by simpa using List.findIdx?_eq_none_iff.mp found x member)
  | some i => exact ⟨i, rfl⟩

/-- Where no two elements share an image, an element of an image fixes its index. -/
theorem index_unique {f : α → List β} (distinct : (xs.flatMap f).Nodup) {j : ℕ} {y : α} {b : β}
    (read : xs[i]? = some x) (other : xs[j]? = some y) (inside : b ∈ f x) (also : b ∈ f y) : i = j := by
  induction xs generalizing i j with
  | nil => simp at read
  | cons a xs ih =>
    rw [List.flatMap_cons] at distinct
    obtain ⟨_, rest, apart⟩ := List.nodup_append'.mp distinct
    cases i with
    | zero =>
      cases read
      cases j with
      | zero => rfl
      | succ j =>
        have member : y ∈ xs := List.mem_of_getElem? other
        exact (apart inside (List.mem_flatMap.mpr ⟨y, member, also⟩)).elim
    | succ i =>
      cases j with
      | zero =>
        cases other
        have member : x ∈ xs := List.mem_of_getElem? read
        exact (apart also (List.mem_flatMap.mpr ⟨x, member, inside⟩)).elim
      | succ j => exact congrArg (· + 1) (ih rest read other)

/-- A change at the only element with a property is a change of the elements with it. -/
theorem modify_of_unique (p : α → Prop) [DecidablePred p] (f : α → α) (read : xs[i]? = some x) (holds : p x)
    (only : ∀ j y, xs[j]? = some y → p y → j = i) : xs.modify i f = xs.map fun y => if p y then f y else y := by
  refine List.ext_getElem? fun j => ?_
  rw [List.getElem?_modify, List.getElem?_map]
  cases there : xs[j]? with
  | none => rfl
  | some y =>
    by_cases same : i = j
    · subst same
      rw [read] at there
      cases there
      simp [holds]
    · have other : ¬ p y := fun also => same (only j y there also).symm
      simp [same, other]

theorem eq_singleton_of_nodup (distinct : xs.Nodup) (member : x ∈ xs) (only : ∀ y ∈ xs, y = x) : xs = [x] := by
  refine List.Perm.eq_singleton ((List.perm_ext_iff_of_nodup distinct (List.nodup_singleton x)).mpr fun y => ?_)
  rw [List.mem_singleton]
  exact ⟨only y, fun same => same ▸ member⟩

end Uniterm.ToMathlib
