import Mathlib.Data.List.Infix
import Mathlib.Order.Nat

/-! # Following a pattern symbol by symbol

A pattern whose first symbol occurs nowhere else in it is found by counting matched symbols: after a mismatch only
the symbol just read can begin another occurrence. Histories are listed latest first.
-/

namespace Uniterm.ToMathlib

variable {α : Type*} {pattern history : List α} {n : ℕ} {b : α}

/-- The first symbol of the pattern occurs once. -/
def HeadOnce (pattern : List α) : Prop := ∀ i, 0 < i → i < pattern.length → pattern[i]? ≠ pattern[0]?

/-- So many symbols of the pattern were read last, and no longer proper beginning of it was. -/
structure Progress (pattern history : List α) (n : ℕ) : Prop where
  proper : n < pattern.length
  read : (pattern.take n).reverse <+: history
  most : ∀ k < pattern.length, (pattern.take k).reverse <+: history → k ≤ n

/-- The history ends with a beginning of the pattern exactly when its last symbol and its earlier part fit. -/
theorem ends_take_succ (inside : n < pattern.length) :
    (pattern.take (n + 1)).reverse <+: b :: history ↔ pattern[n]? = some b ∧ (pattern.take n).reverse <+: history := by
  rw [List.take_add_one, List.getElem?_eq_getElem inside, Option.toList_some, List.reverse_append, List.reverse_singleton,
    List.singleton_append, List.cons_prefix_cons, Option.some_inj]

theorem progress_nil (nonempty : pattern ≠ []) : Progress pattern ([] : List α) 0 where
  proper := List.length_pos_iff.mpr nonempty
  read := List.prefix_rfl
  most := by
    intro k inside read
    have := read.length_le
    rw [List.length_reverse, List.length_take, List.length_nil] at this
    omega

/-- A symbol that no proper beginning of the pattern ends with. -/
theorem Progress.fresh (nonempty : pattern ≠ []) (foreign : ∀ k, k + 1 < pattern.length → pattern[k]? ≠ some b) :
    Progress pattern (b :: history) 0 where
  proper := List.length_pos_iff.mpr nonempty
  read := by simp
  most := by
    intro k inside read
    cases k with
    | zero => exact le_rfl
    | succ k => exact absurd ((ends_take_succ (by omega)).mp read).1 (foreign k inside)

theorem Progress.advance (progress : Progress pattern history n) (next : pattern[n]? = some b)
    (more : n + 1 < pattern.length) : Progress pattern (b :: history) (n + 1) where
  proper := more
  read := (ends_take_succ progress.proper).mpr ⟨next, progress.read⟩
  most := by
    intro k inside read
    cases k with
    | zero => exact Nat.zero_le _
    | succ k => exact Nat.succ_le_succ (progress.most k (by omega) ((ends_take_succ (by omega)).mp read).2)

/-- Two different beginnings of the pattern do not both end a history. -/
theorem HeadOnce.unique (once : HeadOnce pattern) {i j : ℕ} (positive : 0 < i) (lt : i < j) (inside : j < pattern.length)
    (short : (pattern.take i).reverse <+: history) (long : (pattern.take j).reverse <+: history) : False := by
  have lengths : (pattern.take i).reverse.length ≤ (pattern.take j).reverse.length := by
    simp only [List.length_reverse, List.length_take]
    omega
  have suffix := List.reverse_prefix.mp (List.prefix_of_prefix_length_le short long lengths)
  have first : (pattern.take j)[j - i]? = (pattern.take i)[0]? := by
    rw [List.suffix_iff_eq_drop.mp suffix, List.getElem?_drop, List.length_take, List.length_take,
      Nat.min_eq_left inside.le, Nat.min_eq_left (by omega), Nat.add_zero]
  rw [List.getElem?_take_of_lt (by omega), List.getElem?_take_of_lt positive] at first
  exact once (j - i) (by omega) (by omega) first

theorem Progress.mismatch (progress : Progress pattern history n) (once : HeadOnce pattern)
    (other : pattern[n]? ≠ some b) {k : ℕ} (inside : k < pattern.length)
    (read : (pattern.take (k + 1)).reverse <+: b :: history) : k = 0 ∧ pattern[0]? = some b := by
  obtain ⟨last, earlier⟩ := (ends_take_succ inside).mp read
  have le := progress.most k inside earlier
  rcases Nat.eq_zero_or_pos k with rfl | positive
  · exact ⟨rfl, last⟩
  · rcases Nat.eq_or_lt_of_le le with rfl | lt
    · exact absurd last other
    · exact (once.unique positive lt progress.proper earlier progress.read).elim

/-- After a mismatch only the last symbol counts. -/
theorem Progress.reset (progress : Progress pattern history n) (once : HeadOnce pattern)
    (other : pattern[n]? ≠ some b) (long : 1 < pattern.length) [Decidable (pattern[0]? = some b)] :
    Progress pattern (b :: history) (if pattern[0]? = some b then 1 else 0) where
  proper := by split <;> omega
  read := by
    split
    next first => exact (ends_take_succ (by omega)).mpr ⟨first, by simp⟩
    next => simp
  most := by
    intro k inside read
    cases k with
    | zero => exact Nat.zero_le _
    | succ k =>
      obtain ⟨rfl, first⟩ := progress.mismatch once other (by omega) read
      rw [if_pos first]

/-- An occurrence ends exactly where the whole rest of the pattern has matched. -/
theorem Progress.complete_iff (progress : Progress pattern history n) :
    pattern.reverse <+: b :: history ↔ n + 1 = pattern.length ∧ pattern[n]? = some b := by
  obtain ⟨m, whole⟩ : ∃ m, pattern.length = m + 1 := Nat.exists_eq_add_one.mpr (Nat.zero_lt_of_lt progress.proper)
  have split : (pattern.take (m + 1)).reverse <+: b :: history ↔ _ := ends_take_succ (by omega)
  rw [List.take_of_length_le (by omega)] at split
  rw [split]
  constructor
  · rintro ⟨last, earlier⟩
    have := progress.most m (by omega) earlier
    have := progress.proper
    obtain rfl : n = m := by omega
    exact ⟨whole.symm, last⟩
  · rintro ⟨last, next⟩
    obtain rfl : n = m := by omega
    exact ⟨next, progress.read⟩

end Uniterm.ToMathlib
