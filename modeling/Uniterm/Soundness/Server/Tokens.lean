import Uniterm.Model.Server.Tokens
import Uniterm.ToMathlib.XorPowers
import Mathlib.Data.List.Perm.Subperm
import Mathlib.Tactic.NormNum.Prime

/-! # What the activation tokens reveal

The register runs through all nonzero words, so a draw always ends with a fresh token. But the token
is the register: whoever holds one token knows the state that the next one is drawn from, and only
before the first token are two states possible.
-/

namespace Uniterm.Model.Server

open ToMathlib Function

/-- The characteristic polynomial of the register. -/
def registerPolynomial : ℕ := 0x1013ed4a358913201

/-- The number of nonzero 64-bit words. -/
def wordCount : ℕ := 2 ^ 64 - 1

section Register

private theorem shiftLeft64_xor (x y amount : ℕ) :
    shiftLeft64 (x ^^^ y) amount = shiftLeft64 x amount ^^^ shiftLeft64 y amount := by
  rw [shiftLeft64, shiftLeft64, shiftLeft64, Nat.shiftLeft_xor_distrib, Nat.xor_mod_two_pow]

private theorem xorshift_xor (x y : ℕ) : xorshift (x ^^^ y) = xorshift x ^^^ xorshift y := by
  have folded (f : ℕ → ℕ) (linear : ∀ x y, f (x ^^^ y) = f x ^^^ f y) (x y : ℕ) :
      (x ^^^ y) ^^^ f (x ^^^ y) = (x ^^^ f x) ^^^ (y ^^^ f y) := by
    rw [linear]
    ac_rfl
  simp only [xorshift]
  rw [folded (shiftLeft64 · 13) (shiftLeft64_xor · · 13),
    folded (· >>> 7) fun x y => Nat.shiftRight_xor_distrib,
    folded (shiftLeft64 · 17) (shiftLeft64_xor · · 17)]

private theorem xorshift_lt {x : ℕ} (word : x < 2 ^ 64) : xorshift x < 2 ^ 64 := by
  have left (y amount : ℕ) : shiftLeft64 y amount < 2 ^ 64 := Nat.mod_lt _ (by decide)
  have right {y : ℕ} (small : y < 2 ^ 64) : y >>> 7 < 2 ^ 64 :=
    Nat.lt_of_le_of_lt (Nat.shiftRight_le ..) small
  have first := Nat.xor_lt_two_pow word (left x 13)
  have second := Nat.xor_lt_two_pow first (right first)
  exact Nat.xor_lt_two_pow second (left _ 17)

private theorem register_root : eval xorshift 65 registerPolynomial 1 = 0 := by decide +kernel

private theorem iterate_register {n : ℕ} (small : n < 2 ^ 64) :
    xorshift^[n] 1 = eval xorshift 65 (powMod 64 registerPolynomial 64 n) 1 :=
  iterate_eq_eval_powMod xorshift_xor (by decide) register_root (by decide) small

/-- The primes of the number of nonzero words. -/
private theorem prime_dvd_wordCount {q : ℕ} (prime : q.Prime) (divides : q ∣ wordCount) :
    q ∈ [3, 5, 17, 257, 641, 65537, 6700417] := by
  have factored : wordCount = 3 * (5 * (17 * (257 * (641 * (65537 * 6700417))))) := by decide
  have only {a : ℕ} (isPrime : a.Prime) (divisor : q ∣ a) : q = a :=
    (Nat.prime_dvd_prime_iff_eq prime isPrime).mp divisor
  rw [factored] at divides
  simp only [Nat.Prime.dvd_mul prime] at divides
  rcases divides with d | d | d | d | d | d | d
  · simp [only (by norm_num) d]
  · simp [only (by norm_num) d]
  · simp [only (by norm_num) d]
  · simp [only (by norm_num) d]
  · simp [only (by norm_num) d]
  · simp [only (by norm_num) d]
  · simp [only (by norm_num) d]

set_option maxRecDepth 10000 in
private theorem register_periodic :
    eval xorshift 65 (powMod 64 registerPolynomial 64 wordCount) 1 = 1 := by
  decide +kernel

set_option maxRecDepth 10000 in
private theorem register_primitive : ∀ q ∈ [3, 5, 17, 257, 641, 65537, 6700417],
    eval xorshift 65 (powMod 64 registerPolynomial 64 (wordCount / q)) 1 ≠ 1 := by
  decide +kernel

/-- The register has the longest period a word can have. -/
theorem minimalPeriod_xorshift : minimalPeriod xorshift 1 = wordCount := by
  apply minimalPeriod_eq_of_primes
  · rw [iterate_register (by decide)]
    exact register_periodic
  · intro q prime divides
    have listed := prime_dvd_wordCount prime divides
    have below : wordCount / q < 2 ^ 64 :=
      Nat.lt_of_le_of_lt (Nat.div_le_self ..) (by decide)
    rw [iterate_register below]
    exact register_primitive q listed

/-- The nonzero words. -/
def Word (x : ℕ) : Prop := 0 < x ∧ x < 2 ^ 64

private theorem word_iff_mem {x : ℕ} : Word x ↔ x ∈ Finset.Icc 1 wordCount := by
  rw [Finset.mem_Icc, Word, wordCount]
  omega

private theorem card_words : (Finset.Icc 1 wordCount).card = wordCount := by
  rw [Nat.card_Icc]
  rfl

private theorem iterate_period (k : ℕ) : xorshift^[wordCount * k] 1 = 1 := by
  rw [← minimalPeriod_xorshift]
  exact (isPeriodicPt_minimalPeriod xorshift 1).mul_const k

private theorem iterate_word (k : ℕ) : Word (xorshift^[k] 1) := by
  constructor
  · rw [Nat.pos_iff_ne_zero]
    intro vanished
    -- Zero is a fixed point, so the register would still be zero at the next full period.
    have later : xorshift^[wordCount * k] 1 = xorshift^[wordCount * k - k] (xorshift^[k] 1) := by
      rw [← iterate_add_apply, Nat.sub_add_cancel (Nat.le_mul_of_pos_left k (by decide))]
    have fixed : xorshift 0 = 0 := by decide
    rw [iterate_period, vanished, iterate_fixed fixed] at later
    exact absurd later (by decide)
  · induction k with
    | zero => decide
    | succ k ih =>
      rw [iterate_succ_apply']
      exact xorshift_lt ih

private theorem exists_iterate {x : ℕ} (word : Word x) :
    ∃ k < wordCount, xorshift^[k] 1 = x := by
  have reached := exists_iterate_of_minimalPeriod (f := xorshift) (x := 1)
    (s := Finset.Icc 1 wordCount) (fun k => word_iff_mem.mp (iterate_word k))
    (by rw [minimalPeriod_xorshift, card_words]) (word_iff_mem.mp word)
  rwa [card_words] at reached

theorem Word.iterate {x : ℕ} (word : Word x) (k : ℕ) : Word (xorshift^[k] x) := by
  obtain ⟨start, _, rfl⟩ := exists_iterate word
  rw [← iterate_add_apply]
  exact iterate_word _

theorem Word.xorshift {x : ℕ} (word : Word x) : Word (xorshift x) := word.iterate 1

/-- Every word is drawn from another one. -/
theorem Word.drawn {x : ℕ} (word : Word x) : ∃ y, Word y ∧ Server.xorshift y = x := by
  obtain ⟨k, _, rfl⟩ := exists_iterate word
  refine ⟨Server.xorshift^[k + (wordCount - 1)] 1, iterate_word _, ?_⟩
  rw [← iterate_succ_apply' Server.xorshift, Nat.succ_eq_add_one, Nat.add_assoc,
    show wordCount - 1 + 1 = wordCount * 1 from rfl, iterate_add_apply, iterate_period]

private theorem Word.minimalPeriod {x : ℕ} (word : Word x) :
    Function.minimalPeriod Server.xorshift x = wordCount := by
  obtain ⟨k, _, rfl⟩ := exists_iterate word
  rw [minimalPeriod_apply_iterate, minimalPeriod_xorshift]
  exact ⟨wordCount, by decide, iterate_period 1⟩

theorem Word.drawToken {x : ℕ} (word : Word x) : drawToken x = Server.xorshift x :=
  Nat.max_eq_left word.xorshift.1

end Register

section Drawing

/-- A token drawn is a word that nothing holds. -/
private theorem drawLoop_some {occupied : List ℕ} {fuel state token : ℕ} (word : Word state)
    (drawn : drawLoop occupied fuel state = some token) : Word token ∧ token ∉ occupied := by
  induction fuel generalizing state with
  | zero => cases drawn
  | succ fuel ih =>
    rw [drawLoop, word.drawToken] at drawn
    split at drawn
    · exact ih word.xorshift drawn
    · next free =>
      cases drawn
      exact ⟨word.xorshift, free⟩

private theorem drawLoop_none {occupied : List ℕ} {fuel state : ℕ} (word : Word state)
    (drawn : drawLoop occupied fuel state = none) :
    ∀ i < fuel, xorshift^[i] (xorshift state) ∈ occupied := by
  induction fuel generalizing state with
  | zero =>
    intro i low
    exact absurd low (Nat.not_lt_zero i)
  | succ fuel ih =>
    rw [drawLoop, word.drawToken] at drawn
    split at drawn
    · next held =>
      intro i low
      cases i with
      | zero => exact held
      | succ i =>
        rw [iterate_succ_apply]
        exact ih word.xorshift drawn i (Nat.lt_of_succ_lt_succ low)
    · cases drawn

/-- The register runs through all words, so the loop meets one that nothing holds. -/
theorem nextActivationToken_isSome {occupied : List ℕ} {state : ℕ} (word : Word state)
    (room : occupied.length < wordCount) :
    ∃ token, nextActivationToken state occupied = some token := by
  cases drawn : nextActivationToken state occupied with
  | some token => exact ⟨token, rfl⟩
  | none =>
    have held := drawLoop_none word drawn
    have distinct : Set.InjOn (fun i => xorshift^[i] (xorshift state))
        (Finset.range (occupied.length + 1)) := by
      intro i low j low' same
      rw [Finset.coe_range] at low low'
      have inside {k : ℕ} (below : k < occupied.length + 1) :
          k < minimalPeriod xorshift (xorshift state) := by
        rw [word.xorshift.minimalPeriod]
        omega
      exact iterate_injOn_Iio_minimalPeriod (inside low) (inside low') same
    have contained : (Finset.range (occupied.length + 1)).image
        (fun i => xorshift^[i] (xorshift state)) ⊆ occupied.toFinset := by
      intro token reached
      obtain ⟨i, low, rfl⟩ := Finset.mem_image.mp reached
      exact List.mem_toFinset.mpr (held i (Finset.mem_range.mp low))
    have few := Finset.card_le_card contained
    rw [Finset.card_image_of_injOn distinct, Finset.card_range] at few
    have := occupied.toFinset_card_le
    omega

/-- The generator's state after the last token is that token. -/
private theorem issueTokens_state {issuing : List (List ℕ)} {state final : ℕ} {tokens : List ℕ}
    (issued : issueTokens state issuing = some (tokens, final)) :
    final = tokens.getLastD state ∧ tokens.length = issuing.length := by
  induction issuing generalizing state tokens with
  | nil =>
    cases issued
    exact ⟨rfl, rfl⟩
  | cons occupied rest ih =>
    simp only [issueTokens, Option.bind_eq_bind, Option.bind_eq_some_iff] at issued
    obtain ⟨token, _, ⟨tokens', final'⟩, later, same⟩ := issued
    cases same
    obtain ⟨last, count⟩ := ih later
    constructor
    · rw [last, List.getLastD_cons]
    · rw [List.length_cons, List.length_cons, count]

private theorem issueTokens_isSome {issuing : List (List ℕ)} {state : ℕ} (word : Word state)
    (room : ∀ occupied ∈ issuing, occupied.length < wordCount) :
    ∃ tokens final, issueTokens state issuing = some (tokens, final) ∧ Word final := by
  induction issuing generalizing state with
  | nil => exact ⟨[], state, rfl, word⟩
  | cons occupied rest ih =>
    obtain ⟨token, drawn⟩ := nextActivationToken_isSome word (room occupied (by simp))
    have fresh := drawLoop_some word drawn
    obtain ⟨tokens, final, later, word'⟩ := ih fresh.1 fun held listed => room held (by simp [listed])
    refine ⟨token :: tokens, final, ?_, word'⟩
    simp [issueTokens, drawn, later]

/-- Two seeds issue the same tokens and differ in the next one. -/
def Undetermined (issuing : List (List ℕ)) (occupied tokens : List ℕ) : Prop :=
  ∃ seed seed' state state' token token', Word seed ∧ Word seed' ∧
    issueTokens seed issuing = some (tokens, state) ∧
    issueTokens seed' issuing = some (tokens, state') ∧
    nextActivationToken state occupied = some token ∧
    nextActivationToken state' occupied = some token' ∧ token ≠ token'

private theorem undetermined_of_nil {occupied : List ℕ} (room : occupied.length + 1 < wordCount) :
    Undetermined [] occupied [] := by
  have free : 1 < (Finset.Icc 1 wordCount \ occupied.toFinset).card := by
    have := Finset.le_card_sdiff occupied.toFinset (Finset.Icc 1 wordCount)
    have := occupied.toFinset_card_le
    rw [card_words] at *
    omega
  obtain ⟨token, listed, token', listed', differ⟩ := Finset.one_lt_card.mp free
  have first {token : ℕ} (listed : token ∈ Finset.Icc 1 wordCount \ occupied.toFinset) :
      ∃ seed, Word seed ∧ nextActivationToken seed occupied = some token := by
    rw [Finset.mem_sdiff, List.mem_toFinset, ← word_iff_mem] at listed
    obtain ⟨seed, word, rfl⟩ := listed.1.drawn
    refine ⟨seed, word, ?_⟩
    rw [nextActivationToken, drawLoop, word.drawToken, if_neg listed.2]
  obtain ⟨seed, word, drawn⟩ := first listed
  obtain ⟨seed', word', drawn'⟩ := first listed'
  exact ⟨seed, seed', seed, seed', token, token', word, word', rfl, rfl, drawn, drawn', differ⟩

private theorem not_undetermined {issuing : List (List ℕ)} {occupied tokens : List ℕ}
    (issuedBefore : issuing ≠ []) : ¬ Undetermined issuing occupied tokens := by
  rintro ⟨seed, seed', state, state', token, token', _, _, issued, issued', drawn, drawn', differ⟩
  obtain ⟨last, count⟩ := issueTokens_state issued
  obtain ⟨last', _⟩ := issueTokens_state issued'
  have some : tokens ≠ [] := by
    rintro rfl
    exact issuedBefore (List.length_eq_zero_iff.mp count.symm)
  obtain ⟨init, final, rfl⟩ := List.eq_nil_or_concat tokens |>.resolve_left some
  have same : state = state' := by rw [last, last']; simp
  rw [same, drawn'] at drawn
  exact differ (Option.some.inj drawn).symm

/-- From every seed, and whatever is held at each draw, the next token is a fresh word; but it is
left open by the tokens already issued exactly as long as none has been issued. -/
theorem nextActivationToken_hidden {seed : ℕ} (word : Word seed) {issuing : List (List ℕ)}
    (rooms : ∀ held ∈ issuing, held.length < wordCount) {occupied : List ℕ}
    (room : occupied.length + 1 < wordCount) :
    ∃ tokens state token, issueTokens seed issuing = some (tokens, state) ∧
      nextActivationToken state occupied = some token ∧ 0 < token ∧ token ∉ occupied ∧
      (Undetermined issuing occupied tokens ↔ issuing = []) := by
  obtain ⟨tokens, state, issued, word'⟩ := issueTokens_isSome word rooms
  have enough : occupied.length < wordCount := by omega
  obtain ⟨token, drawn⟩ := nextActivationToken_isSome word' enough
  have fresh := drawLoop_some word' drawn
  refine ⟨tokens, state, token, issued, drawn, fresh.1.1, fresh.2, ?_⟩
  constructor
  · intro open_
    by_contra before
    exact not_undetermined before open_
  · rintro rfl
    cases issued
    exact undetermined_of_nil room

theorem nextActivationToken_hidden_seedOne :
    ∃ tokens state token, issueTokens 1 [[], [7]] = some (tokens, state) ∧
      nextActivationToken state [9, 7] = some token ∧ 0 < token ∧ token ∉ [9, 7] ∧
      (Undetermined [[], [7]] [9, 7] tokens ↔ [[], [7]] = ([] : List (List ℕ))) :=
  nextActivationToken_hidden (by constructor <;> decide) (by decide) (by decide)

/-- The role that was given the first token computes the second one. -/
theorem firstToken_reveals : issueTokens 1 [[]] = some ([0x40822041], 0x40822041) ∧
    nextActivationToken 0x40822041 [0x40822041] = some (xorshift 0x40822041) ∧
    ¬ Undetermined [[]] [0x40822041] [0x40822041] :=
  ⟨by decide, by decide, not_undetermined (by decide)⟩

end Drawing

end Uniterm.Model.Server
