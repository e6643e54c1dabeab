import Mathlib.Data.Nat.Bitwise
import Mathlib.Dynamics.PeriodicPts.Defs
import Mathlib.Data.Nat.Prime.Basic
import Mathlib.Data.Finset.Card
import Mathlib.Order.Interval.Finset.Nat
import Mathlib.Tactic.Ring

/-! # Powers of a map that is linear over exclusive or

A linear map `T` on machine words satisfies a polynomial equation with bits for coefficients. Such a
polynomial is a number, its value `eval T` at a word combines the iterates of `T`, and the iterate
`T^[n]` is the value of the `n`-th power of the indeterminate reduced modulo the equation: that power
is computed by repeated squaring. The period of a word follows from its iterates at the maximal
proper divisors, and a word with the longest possible period reaches every other one.
-/

namespace Uniterm.ToMathlib

open Function

section Polynomials

variable (T : ℕ → ℕ)

/-- The value of the polynomial with the low `n` bits of `r` for coefficients. -/
def eval : ℕ → ℕ → ℕ → ℕ
  | 0, _, _ => 0
  | n + 1, r, v => (if r % 2 = 1 then v else 0) ^^^ eval n (r / 2) (T v)

/-- Multiply by the indeterminate and reduce by a polynomial of degree `w`. -/
def timesX (w p r : ℕ) : ℕ := if 2 ^ w ≤ 2 * r then 2 * r ^^^ p else 2 * r

/-- The product of two reduced polynomials; `n` bounds the degree of the first. -/
def mulMod (w p : ℕ) : ℕ → ℕ → ℕ → ℕ
  | 0, _, _ => 0
  | n + 1, a, b => timesX w p (mulMod w p n (a / 2) b) ^^^ if a % 2 = 1 then b else 0

/-- The reduced `n`-th power of the indeterminate; `k` bounds the number of bits of `n`. -/
def powMod (w p : ℕ) : ℕ → ℕ → ℕ
  | 0, _ => 1
  | k + 1, n =>
    if n % 2 = 1 then timesX w p (mulMod w p w (powMod w p k (n / 2)) (powMod w p k (n / 2)))
    else mulMod w p w (powMod w p k (n / 2)) (powMod w p k (n / 2))

variable {T}

private theorem eval_next (n r v : ℕ) :
    eval T (n + 1) r v = (if r % 2 = 1 then v else 0) ^^^ eval T n (r / 2) (T v) := rfl

theorem eval_xor (n r s v : ℕ) : eval T n (r ^^^ s) v = eval T n r v ^^^ eval T n s v := by
  induction n generalizing r s v with
  | zero => exact (Nat.xor_self 0).symm
  | succ n ih =>
    rw [eval_next, eval_next, eval_next, Nat.xor_div_two, ih]
    have low : (if (r ^^^ s) % 2 = 1 then v else 0) =
        (if r % 2 = 1 then v else 0) ^^^ (if s % 2 = 1 then v else 0) := by
      rw [Nat.xor_mod_two_eq]
      rcases Nat.mod_two_eq_zero_or_one r with even | odd <;>
        rcases Nat.mod_two_eq_zero_or_one s with even' | odd' <;>
        simp [Nat.add_mod, *]
    rw [low]
    ac_rfl

/-- Bits beyond the polynomial's degree add nothing. -/
theorem eval_succ {n r : ℕ} (small : r < 2 ^ n) (v : ℕ) : eval T (n + 1) r v = eval T n r v := by
  induction n generalizing r v with
  | zero =>
    obtain rfl : r = 0 := by omega
    exact Nat.xor_self 0
  | succ n ih =>
    have half : r / 2 < 2 ^ n := by omega
    rw [eval_next, ih half, eval_next]

private theorem eval_zero (n v : ℕ) : eval T n 0 v = 0 := by
  have doubled := eval_xor (T := T) n 0 0 v
  rwa [Nat.xor_self, Nat.xor_self] at doubled

theorem eval_double (n r v : ℕ) : eval T (n + 1) (2 * r) v = eval T n r (T v) := by
  rw [eval_next, Nat.mul_div_cancel_left r (by decide), if_neg (by omega), Nat.zero_xor]

section Linear

variable (linear : ∀ x y, T (x ^^^ y) = T x ^^^ T y)
include linear

private theorem map_zero : T 0 = 0 := by
  have doubled := linear 0 0
  rwa [Nat.xor_self, Nat.xor_self] at doubled

private theorem map_ite (c : Prop) [Decidable c] (v : ℕ) :
    T (if c then v else 0) = if c then T v else 0 := by
  split
  · rfl
  · exact map_zero linear

theorem eval_map (n r v : ℕ) : eval T n r (T v) = T (eval T n r v) := by
  induction n generalizing r v with
  | zero => exact (map_zero linear).symm
  | succ n ih => rw [eval_next, eval_next, linear, ih, map_ite linear]

theorem eval_iterate (n r v k : ℕ) : eval T n r (T^[k] v) = T^[k] (eval T n r v) := by
  induction k generalizing v with
  | zero => rfl
  | succ k ih => rw [iterate_succ_apply, ih, eval_map linear, ← iterate_succ_apply]

variable {w p : ℕ} (degree : 2 ^ w ≤ p ∧ p < 2 ^ (w + 1))
include degree

omit linear in
private theorem timesX_lt {r : ℕ} (small : r < 2 ^ w) : timesX w p r < 2 ^ w := by
  unfold timesX
  split
  · next high =>
    have lead : (2 * r).testBit w = true ∧ p.testBit w = true :=
      ⟨Nat.testBit_of_two_pow_le_and_two_pow_add_one_gt high (by omega),
        Nat.testBit_of_two_pow_le_and_two_pow_add_one_gt degree.1 degree.2⟩
    apply Nat.lt_pow_two_of_testBit
    intro i above
    rw [Nat.testBit_xor]
    rcases Nat.eq_or_lt_of_le above with rfl | beyond
    · rw [lead.1, lead.2]
      rfl
    · have wide : 2 ^ (w + 1) ≤ 2 ^ i := Nat.pow_le_pow_right (by decide) beyond
      rw [Nat.testBit_lt_two_pow (by omega), Nat.testBit_lt_two_pow (by omega)]
      rfl
  · next low => exact Nat.lt_of_not_le low

omit linear in
private theorem mulMod_lt {b : ℕ} (small : b < 2 ^ w) (n a : ℕ) : mulMod w p n a b < 2 ^ w := by
  induction n generalizing a with
  | zero => exact Nat.two_pow_pos w
  | succ n ih =>
    refine Nat.xor_lt_two_pow (timesX_lt degree (ih _)) ?_
    split
    · exact small
    · exact Nat.two_pow_pos w

omit linear in
private theorem powMod_lt (wide : 0 < w) (k n : ℕ) : powMod w p k n < 2 ^ w := by
  induction k generalizing n with
  | zero => exact Nat.one_lt_two_pow (by omega)
  | succ k ih =>
    rw [powMod]
    split
    · exact timesX_lt degree (mulMod_lt degree (ih _) _ _)
    · exact mulMod_lt degree (ih _) _ _

variable {v : ℕ} (root : eval T (w + 1) p v = 0)
include root

omit degree in
private theorem eval_timesX {r : ℕ} (small : r < 2 ^ w) :
    eval T (w + 1) (timesX w p r) v = T (eval T (w + 1) r v) := by
  have doubled : eval T (w + 1) (2 * r) v = T (eval T (w + 1) r v) := by
    rw [eval_double, eval_map linear, eval_succ small]
  unfold timesX
  split
  · rw [eval_xor, root, Nat.xor_zero, doubled]
  · exact doubled

/-- Products of polynomials compose their values. -/
theorem eval_mulMod {b : ℕ} (small : b < 2 ^ w) (n a : ℕ) :
    eval T (w + 1) (mulMod w p n a b) v = eval T n a (eval T (w + 1) b v) := by
  induction n generalizing a with
  | zero => exact eval_zero (w + 1) v
  | succ n ih =>
    generalize value : eval T (w + 1) b v = u at ih
    have low : eval T (w + 1) (if a % 2 = 1 then b else 0) v = if a % 2 = 1 then u else 0 := by
      split
      · exact value
      · exact eval_zero (w + 1) v
    rw [mulMod, eval_xor, eval_timesX linear root (mulMod_lt degree small n _), ih, low, eval_next,
      eval_map linear, Nat.xor_comm]

/-- The iterate is the value of the reduced power. -/
theorem iterate_eq_eval_powMod (wide : 0 < w) {k n : ℕ} (small : n < 2 ^ k) :
    T^[n] v = eval T (w + 1) (powMod w p k n) v := by
  induction k generalizing n with
  | zero =>
    obtain rfl : n = 0 := by omega
    rw [powMod, eval_next, if_pos rfl, eval_zero, Nat.xor_zero]
    rfl
  | succ k ih =>
    have half : n / 2 < 2 ^ k := by omega
    have bound := powMod_lt degree wide k (n / 2)
    have squared : eval T (w + 1)
        (mulMod w p w (powMod w p k (n / 2)) (powMod w p k (n / 2))) v = T^[n / 2 + n / 2] v := by
      rw [eval_mulMod linear degree root bound, ← ih half, ← eval_succ bound, eval_iterate linear,
        ← ih half, ← iterate_add_apply]
    rw [powMod]
    split
    · rw [eval_timesX linear root (mulMod_lt degree bound _ _), squared,
        ← iterate_succ_apply' T]
      congr 1
      omega
    · rw [squared]
      congr 1
      omega

end Linear

end Polynomials

section Periods

variable {α : Type*} {f : α → α} {x : α} {period : ℕ}

/-- A period none of whose maximal proper divisors is one is the least period. -/
theorem minimalPeriod_eq_of_primes (periodic : f^[period] x = x)
    (primitive : ∀ q, q.Prime → q ∣ period → f^[period / q] x ≠ x) :
    minimalPeriod f x = period := by
  obtain ⟨cofactor, split⟩ : minimalPeriod f x ∣ period :=
    IsPeriodicPt.minimalPeriod_dvd (show IsPeriodicPt f period x from periodic)
  by_contra other
  have composite : cofactor ≠ 1 := by
    rintro rfl
    exact other (by omega)
  obtain ⟨q, prime, divides⟩ := Nat.exists_prime_and_dvd composite
  obtain ⟨rest, rfl⟩ := divides
  refine primitive q prime ⟨minimalPeriod f x * rest, by rw [split]; ring⟩ ?_
  have quotient : period / q = minimalPeriod f x * rest := by
    rw [split]
    exact Nat.div_eq_of_eq_mul_left prime.pos (by ring)
  rw [quotient]
  exact (isPeriodicPt_minimalPeriod f x).mul_const rest

/-- A point whose least period is the size of a set around its orbit reaches the whole set. -/
theorem exists_iterate_of_minimalPeriod [DecidableEq α] {s : Finset α}
    (inside : ∀ k, f^[k] x ∈ s) (full : minimalPeriod f x = s.card) {y : α} (member : y ∈ s) :
    ∃ k < s.card, f^[k] x = y := by
  have orbit : (Finset.range s.card).image (fun k => f^[k] x) = s := by
    apply Finset.eq_of_subset_of_card_le
    · intro z reached
      obtain ⟨k, _, rfl⟩ := Finset.mem_image.mp reached
      exact inside k
    · rw [Finset.card_image_of_injOn, Finset.card_range]
      intro i low j low' same
      rw [Finset.coe_range, ← full] at low low'
      exact iterate_injOn_Iio_minimalPeriod low low' same
  rw [← orbit] at member
  obtain ⟨k, bound, same⟩ := Finset.mem_image.mp member
  exact ⟨k, Finset.mem_range.mp bound, same⟩

end Periods

end Uniterm.ToMathlib
