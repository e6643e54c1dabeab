import Mathlib.Data.List.Sort

/-! # Ranks in a list sorted by a key

A list sorted strictly by a natural-number key is determined by its members, and the elements
below a bound form its initial segment. Pagination by key is stated with these two facts.
-/

namespace Uniterm.ToMathlib

variable {α : Type*} {key : α → ℕ} {l : List α}

/-- Two lists sorted strictly by the same key are equal when they have the same members. -/
theorem eq_of_sorted_of_mem_iff {l' : List α} (sorted : l.Pairwise fun a b => key a < key b)
    (sorted' : l'.Pairwise fun a b => key a < key b) (same : ∀ a, a ∈ l ↔ a ∈ l') : l = l' := by
  have : Std.Irrefl fun a b : α => key a < key b := ⟨fun a => lt_irrefl (key a)⟩
  have : Std.Antisymm fun a b : α => key a < key b := ⟨fun a b low high => by omega⟩
  exact sorted.eq_of_mem_iff sorted' same

/-- The elements after the first `n` are the ones whose key exceeds that of the `n`-th. -/
theorem mem_drop_iff_of_sorted (sorted : l.Pairwise fun a b => key a < key b) {n : ℕ} {last : α}
    (read : l[n]? = some last) (a : α) : a ∈ l.drop (n + 1) ↔ a ∈ l ∧ key last < key a := by
  have split : l = l.take n ++ last :: l.drop (n + 1) := by
    rw [List.getElem?_eq_some_iff] at read
    obtain ⟨bound, rfl⟩ := read
    rw [List.getElem_cons_drop, List.take_append_drop]
  have ordered := sorted
  rw [split, List.pairwise_append, List.pairwise_cons] at ordered
  obtain ⟨_, ⟨above, _⟩, below⟩ := ordered
  constructor
  · intro member
    exact ⟨List.mem_of_mem_drop member, above a member⟩
  · rintro ⟨member, high⟩
    rw [split, List.mem_append, List.mem_cons] at member
    rcases member with early | rfl | late
    · have := below a early last (List.mem_cons_self ..)
      omega
    · omega
    · exact late

/-- The `n`-th element is below a bound exactly when more than `n` elements are. -/
theorem key_lt_iff_of_sorted (sorted : l.Pairwise fun a b => key a < key b) {n : ℕ} {a : α}
    (read : l[n]? = some a) (bound : ℕ) :
    key a < bound ↔ n < (l.filter fun e => key e < bound).length := by
  induction l generalizing n with
  | nil => simp at read
  | cons head rest ih =>
    obtain ⟨above, sorted⟩ := List.pairwise_cons.mp sorted
    have none_below (high : bound ≤ key head) : (rest.filter fun e => key e < bound) = [] := by
      rw [List.filter_eq_nil_iff]
      intro e member
      have := above e member
      simp only [decide_eq_true_eq]
      omega
    cases n with
    | zero =>
      obtain rfl := Option.some.inj read
      by_cases low : key head < bound
      · simp [low]
      · simp [low, none_below (Nat.le_of_not_lt low)]
    | succ n =>
      rw [List.getElem?_cons_succ] at read
      by_cases low : key head < bound
      · rw [List.filter_cons_of_pos (by simpa using low), List.length_cons, ih sorted read]
        omega
      · have := above a (List.mem_of_getElem? read)
        have empty := none_below (Nat.le_of_not_lt low)
        rw [List.filter_cons_of_neg (by simpa using low), empty, List.length_nil]
        omega

end Uniterm.ToMathlib
