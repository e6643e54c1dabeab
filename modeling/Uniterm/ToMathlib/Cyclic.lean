import Mathlib.Data.List.Basic
import Mathlib.Data.Nat.ModEq

/-! # Scanning a cycle

Some positions around a cycle are visited one after the other, from just behind a start and either way. Every position
is met within one round, the start itself last; the first hit of a scan is the first visited position that qualifies.
-/

namespace Uniterm.ToMathlib

variable {n c m k : ℕ}

/-- A position is some steps ahead of another one, or behind it. -/
def Away (forward : Bool) (n c k m : ℕ) : Prop := if forward then m ≡ c + k [MOD n] else m + k ≡ c [MOD n]

/-- The position some steps away. -/
theorem away_iff {forward : Bool} (inside : m < n) (round : k ≤ n) :
    Away forward n c k m ↔ (if forward then (c + k) % n else (c + n - k) % n) = m := by
  cases forward with
  | true =>
    unfold Away Nat.ModEq
    rw [if_pos rfl, if_pos rfl, Nat.mod_eq_of_lt inside, eq_comm]
  | false =>
    unfold Away
    rw [if_neg Bool.false_ne_true, if_neg Bool.false_ne_true]
    have back : c + n - k + k ≡ c [MOD n] := by
      rw [Nat.sub_add_cancel (by omega)]
      exact Nat.add_mod_right ..
    constructor
    · intro away
      have same : m ≡ c + n - k [MOD n] := Nat.ModEq.add_right_cancel' k (away.trans back.symm)
      rw [← Nat.mod_eq_of_lt inside, same]
    · rintro rfl
      exact (Nat.ModEq.add_right k (Nat.mod_modEq ..)).trans back

/-- One round meets every position. -/
theorem exists_away (forward : Bool) (c : ℕ) (inside : m < n) : ∃ k, 1 ≤ k ∧ k ≤ n ∧ Away forward n c k m := by
  have rest := Nat.mod_lt c (Nat.zero_lt_of_lt inside)
  have start : c % n ≡ c [MOD n] := Nat.mod_modEq c n
  cases forward with
  | true =>
    have ahead {k : ℕ} (reached : m ≡ c % n + k [MOD n]) : Away true n c k m :=
      reached.trans (Nat.ModEq.add_right k start)
    by_cases later : c % n < m
    · exact ⟨m - c % n, by omega, by omega, ahead (by rw [Nat.add_sub_cancel' later.le])⟩
    · refine ⟨m + n - c % n, by omega, by omega, ahead ?_⟩
      rw [Nat.add_sub_cancel' (by omega)]
      exact (Nat.add_mod_right ..).symm
  | false =>
    by_cases earlier : m < c % n
    · refine ⟨c % n - m, by omega, by omega, ?_⟩
      rw [Away, if_neg Bool.false_ne_true, Nat.add_sub_cancel' earlier.le]
      exact start
    · refine ⟨c % n + n - m, by omega, by omega, ?_⟩
      rw [Away, if_neg Bool.false_ne_true, Nat.add_sub_cancel' (by omega)]
      exact Nat.ModEq.trans (Nat.add_mod_right ..) start

/-- The first step of a scan that yields something. -/
theorem findSome?_range'_eq_some {β : Type*} {f : ℕ → Option β} {b : β} (found : (List.range' 1 n).findSome? f = some b) :
    ∃ k, 1 ≤ k ∧ k ≤ n ∧ f k = some b ∧ ∀ j, 1 ≤ j → j < k → f j = none := by
  obtain ⟨before, k, after, steps, hit, misses⟩ := List.findSome?_eq_some_iff.mp found
  have place : before.length < (List.range' 1 n).length := by
    rw [steps, List.length_append, List.length_cons]
    omega
  have here : k = 1 + before.length := by
    have read : (List.range' 1 n)[before.length]? = some k := by
      rw [steps, List.getElem?_append_right le_rfl, Nat.sub_self]
      rfl
    rw [List.getElem?_eq_getElem place, List.getElem_range', Nat.one_mul] at read
    exact (Option.some.inj read).symm
  rw [List.length_range'] at place
  refine ⟨k, by omega, by omega, hit, fun j low early => misses j ?_⟩
  have read : (before ++ k :: after)[j - 1]? = some j := by
    rw [← steps, List.getElem?_eq_getElem (by rw [List.length_range']; omega), List.getElem_range', Nat.one_mul,
      Nat.add_sub_cancel' low]
  rw [List.getElem?_append_left (by omega)] at read
  exact List.mem_of_getElem? read

end Uniterm.ToMathlib
