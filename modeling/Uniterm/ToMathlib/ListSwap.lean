import Mathlib.Data.List.GetD
import Mathlib.Data.List.InsertIdx
import Mathlib.Data.List.Nodup

/-! # Swapping list elements

Swapping neighbours one after the other moves one element along the list. The elements with a property are
a list inside the list, and swaps at its places are swaps of it.
-/

namespace Uniterm.ToMathlib

variable {α : Type*}

/-- Swap the elements at two indices of a list. -/
def swapAt (xs : List α) (a b : ℕ) : List α :=
  match xs[a]?, xs[b]? with
  | some first, some second => (xs.set a second).set b first
  | _, _ => xs

variable {xs ys : List α} {a b k : ℕ} {x : α}

theorem getElem?_swapAt (insideA : a < xs.length) (insideB : b < xs.length) (k : ℕ) :
    (swapAt xs a b)[k]? = if k = b then xs[a]? else if k = a then xs[b]? else xs[k]? := by
  unfold swapAt
  rw [List.getElem?_eq_getElem insideA, List.getElem?_eq_getElem insideB]
  dsimp only
  rw [List.getElem?_set, List.getElem?_set]
  by_cases isB : b = k
  · subst isB
    simp [insideB]
  · rw [if_neg isB, if_neg (Ne.symm isB)]
    by_cases isA : a = k
    · subst isA
      simp [insideA]
    · rw [if_neg isA, if_neg (Ne.symm isA)]

theorem swapAt_perm (insideA : a < xs.length) (insideB : b < xs.length) : (swapAt xs a b).Perm xs := by
  unfold swapAt
  rw [List.getElem?_eq_getElem insideA, List.getElem?_eq_getElem insideB]
  exact List.set_set_perm insideA insideB

/-- Swapping an inserted element with the one after it inserts it later. -/
theorem swapAt_insertIdx (inside : k < ys.length) :
    swapAt (ys.insertIdx k x) k (k + 1) = ys.insertIdx (k + 1) x := by
  have length : (ys.insertIdx k x).length = ys.length + 1 := List.length_insertIdx_of_le_length (Nat.le_of_lt inside) x
  refine List.ext_getElem? fun i => ?_
  rw [getElem?_swapAt (by omega) (by omega)]
  simp only [List.getElem?_insertIdx]
  grind

theorem swapAt_insertIdx_back (inside : k < ys.length) :
    swapAt (ys.insertIdx (k + 1) x) (k + 1) k = ys.insertIdx k x := by
  have length : (ys.insertIdx (k + 1) x).length = ys.length + 1 :=
    List.length_insertIdx_of_le_length inside x
  refine List.ext_getElem? fun i => ?_
  rw [getElem?_swapAt (by omega) (by omega)]
  simp only [List.getElem?_insertIdx]
  grind

/-- Swaps with each next neighbour move an element down the list. -/
theorem foldl_swapAt_up (ys : List α) (x : α) (start count : ℕ) (inside : start + count ≤ ys.length) :
    (List.range' start count).foldl (fun xs i => swapAt xs i (i + 1)) (ys.insertIdx start x) =
      ys.insertIdx (start + count) x := by
  induction count with
  | zero => rfl
  | succ count ih =>
    rw [List.range'_concat, List.foldl_append, ih (by omega), Nat.one_mul, List.foldl_cons, List.foldl_nil,
      swapAt_insertIdx (by omega)]
    rfl

/-- Swaps with each neighbour before move an element up the list. -/
theorem foldl_swapAt_down (ys : List α) (x : α) (start count : ℕ) (inside : start + count ≤ ys.length) :
    (List.range' start count).reverse.foldl (fun xs i => swapAt xs (i + 1) i)
      (ys.insertIdx (start + count) x) = ys.insertIdx start x := by
  induction count generalizing start with
  | zero => rfl
  | succ count ih =>
    rw [List.range'_succ, List.reverse_cons, List.foldl_append,
      show start + (count + 1) = start + 1 + count by omega, ih (start + 1) (by omega), List.foldl_cons,
      List.foldl_nil, swapAt_insertIdx_back (by omega)]

section Places

/-- The indices of the elements with a property. -/
def placesOf (p : α → Bool) (xs : List α) : List ℕ :=
  (List.range xs.length).filter fun index => xs[index]?.any p

variable {p : α → Bool} {places : List ℕ}

theorem mem_placesOf : k ∈ placesOf p xs ↔ ∃ x, xs[k]? = some x ∧ p x = true := by
  rw [placesOf, List.mem_filter, List.mem_range, Option.any_eq_true]
  refine ⟨And.right, fun found => ⟨?_, found⟩⟩
  obtain ⟨x, read, _⟩ := found
  exact (List.getElem?_eq_some_iff.mp read).1

theorem placesOf_nodup (p : α → Bool) (xs : List α) : (placesOf p xs).Nodup := List.nodup_range.filter _

/-- What is at the places of a property is the sublist that has it. -/
theorem map_placesOf (p : α → Bool) (xs : List α) :
    (placesOf p xs).map (fun k => xs[k]?) = (xs.filter p).map some := by
  induction xs with
  | nil => rfl
  | cons x xs ih =>
    have later : placesOf p (x :: xs) = (if p x then [0] else []) ++ (placesOf p xs).map (· + 1) := by
      simp only [placesOf, List.length_cons, List.range_succ_eq_map, List.filter_cons, List.filter_map,
        List.getElem?_cons_zero, Option.any_some]
      split <;> rfl
    rw [later, List.map_append, List.map_map, List.filter_cons]
    refine (congrArg (_ ++ ·) ih).trans ?_
    split <;> rfl

/-- The places depend only on where the property holds. -/
theorem placesOf_congr {ys : List α} (same : ys.map p = xs.map p) : placesOf p ys = placesOf p xs := by
  have length : ys.length = xs.length := by simpa using congrArg List.length same
  unfold placesOf
  rw [length]
  refine List.filter_congr fun k _ => ?_
  have there := congrArg (fun zs => zs[k]?.any id) same
  simpa only [List.getElem?_map, Option.any_map, id_eq] using there

theorem getElem_mem_places (inside : ∀ k ∈ places, k < xs.length) (a : ℕ) (bound : a < places.length) :
    places.getD a 0 < xs.length := by
  rw [List.getD_eq_getElem _ _ bound]
  exact inside _ (List.getElem_mem bound)

/-- A swap at two of the places swaps what is there. -/
theorem map_swapAt_places (distinct : places.Nodup) (inside : ∀ k ∈ places, k < xs.length)
    (boundA : a < places.length) (boundB : b < places.length) :
    places.map (fun k => (swapAt xs (places.getD a 0) (places.getD b 0))[k]?) =
      swapAt (places.map fun k => xs[k]?) a b := by
  refine List.ext_getElem? fun i => ?_
  rw [getElem?_swapAt (by rwa [List.length_map]) (by rwa [List.length_map])]
  simp only [List.getElem?_map]
  have read : ∀ {j}, (bound : j < places.length) → places[j]? = some (places.getD j 0) := fun bound => by
    rw [List.getElem?_eq_getElem bound, List.getD_eq_getElem _ _ bound]
  have apart : ∀ {j}, i < places.length → j < places.length → (places.getD i 0 = places.getD j 0 ↔ i = j) := by
    intro j first second
    rw [List.getD_eq_getElem _ _ first, List.getD_eq_getElem _ _ second]
    exact distinct.getElem_inj_iff
  by_cases bound : i < places.length
  · rw [read bound, read boundA, read boundB]
    simp only [Option.map_some]
    rw [getElem?_swapAt (getElem_mem_places inside a boundA) (getElem_mem_places inside b boundB)]
    simp only [apart bound boundA, apart bound boundB]
    split
    · rfl
    · split <;> rfl
  · rw [List.getElem?_eq_none (Nat.not_lt.mp bound), if_neg (by omega), if_neg (by omega)]
    rfl

end Places

end Uniterm.ToMathlib
