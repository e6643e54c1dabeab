import Mathlib.Data.List.Basic

/-! # Rows of one- and two-column blocks

A row of cells is summarised by its list of widths: a block of one column is `1`, a block of two
columns is `2` followed by `0`. `Paired` says that the list consists of such blocks. The lemmas are
the ways an editor changes a row: clearing the block at a column, writing a block over cleared
columns, appending blocks, and repairing a row whose blocks were cut.
-/

namespace Uniterm.ToMathlib

/-- Every `2` is followed by a `0`, every `0` follows a `2`, and there are no wider blocks. -/
structure Paired (ws : List ℕ) : Prop where
  head : ws[0]? ≠ some 0
  next : ∀ i : ℕ, ws[i]? = some 2 ↔ ws[i + 1]? = some 0
  narrow : ∀ w ∈ ws, w ≤ 2

section Paired

variable {ws : List ℕ}

theorem paired_nil : Paired [] := ⟨by simp, by simp, by simp⟩

theorem Paired.positive {x : ℕ} (paired : Paired ws) (zero : ws[x]? = some 0) :
    0 < x ∧ ws[x - 1]? = some 2 := by
  cases x with
  | zero => exact absurd zero paired.head
  | succ x => exact ⟨Nat.succ_pos x, (paired.next x).mpr zero⟩

/-- Writing a one-column block over another changes nothing. -/
theorem set_one {x : ℕ} (one : ws[x]? = some 1) : ws.set x 1 = ws := by
  obtain ⟨bound, value⟩ := List.getElem?_eq_some_iff.mp one
  rw [← value, List.set_getElem_self]

private theorem narrow_set {x w : ℕ} (narrow : ∀ w ∈ ws, w ≤ 2) (bound : w ≤ 2) :
    ∀ v ∈ ws.set x w, v ≤ 2 := by
  intro v member
  rcases List.mem_or_eq_of_mem_set member with old | rfl
  · exact narrow v old
  · exact bound

private theorem getElem?_set_block {x a b : ℕ} (bound : x + 1 < ws.length) (i : ℕ) :
    ((ws.set x a).set (x + 1) b)[i]? =
      if i = x then some a else if i = x + 1 then some b else ws[i]? := by
  grind

/-- Clearing both columns of a two-column block leaves one-column blocks. -/
theorem Paired.clear_two {x : ℕ} (paired : Paired ws) (two : ws[x]? = some 2) :
    Paired ((ws.set x 1).set (x + 1) 1) := by
  have zero := (paired.next x).mp two
  have bound := (List.getElem?_eq_some_iff.mp zero).1
  refine ⟨?_, fun i => ?_, narrow_set (narrow_set paired.narrow (by omega)) (by omega)⟩
  · rw [getElem?_set_block bound]
    have := paired.head
    grind
  · rw [getElem?_set_block bound, getElem?_set_block bound]
    have here := paired.next i
    rcases Nat.lt_trichotomy (i + 1) x with before | rfl | behind
    · rwa [if_neg (by omega), if_neg (by omega), if_neg (by omega), if_neg (by omega)]
    · rw [if_neg (by omega), if_neg (by omega), if_pos rfl, here, two]
      simp
    · have above := paired.next (x + 1)
      grind

/-- Clear the block that a column belongs to, leaving one-column blocks. -/
def clearBlock (ws : List ℕ) (x : ℕ) : List ℕ :=
  if ws[x]? = some 0 then (ws.set (x - 1) 1).set x 1
  else if ws[x]? = some 2 then (ws.set x 1).set (x + 1) 1
  else ws

@[simp] theorem length_clearBlock (ws : List ℕ) (x : ℕ) : (clearBlock ws x).length = ws.length := by
  unfold clearBlock
  split
  · simp
  split <;> simp

theorem Paired.clearBlock (paired : Paired ws) (x : ℕ) : Paired (clearBlock ws x) := by
  unfold ToMathlib.clearBlock
  split
  · next zero =>
    obtain ⟨positive, two⟩ := paired.positive zero
    have cleared := paired.clear_two two
    rwa [Nat.sub_add_cancel positive] at cleared
  split
  · next two => exact paired.clear_two two
  · exact paired

/-- The cleared column is a block of its own. -/
theorem Paired.clearBlock_self {x : ℕ} (paired : Paired ws) (inside : x < ws.length) :
    (ToMathlib.clearBlock ws x)[x]? = some 1 := by
  have narrow := paired.narrow ws[x] (List.getElem_mem inside)
  unfold ToMathlib.clearBlock
  rw [List.getElem?_eq_getElem inside]
  grind

/-- Clearing one block leaves the one-column blocks alone. -/
theorem clearBlock_one {i : ℕ} (one : ws[i]? = some 1) (x : ℕ) :
    (ToMathlib.clearBlock ws x)[i]? = some 1 := by
  unfold ToMathlib.clearBlock
  grind

/-- A two-column block fits over two one-column blocks. -/
theorem Paired.write_two {x : ℕ} (paired : Paired ws) (one : ws[x]? = some 1)
    (one' : ws[x + 1]? = some 1) : Paired ((ws.set x 2).set (x + 1) 0) := by
  have bound := (List.getElem?_eq_some_iff.mp one').1
  refine ⟨?_, fun i => ?_, narrow_set (narrow_set paired.narrow (by omega)) (by omega)⟩
  · rw [getElem?_set_block bound]
    have := paired.head
    grind
  · rw [getElem?_set_block bound, getElem?_set_block bound]
    have here := paired.next i
    rcases Nat.lt_trichotomy (i + 1) x with before | rfl | behind
    · rwa [if_neg (by omega), if_neg (by omega), if_neg (by omega), if_neg (by omega)]
    · rw [if_neg (by omega), if_neg (by omega), if_pos rfl, here, one]
      simp
    · have above := paired.next (x + 1)
      grind

/-- Appending a one-column block. -/
theorem Paired.append_one (paired : Paired ws) : Paired (ws ++ [1]) := by
  refine ⟨?_, fun i => ?_, ?_⟩
  · have := paired.head
    grind
  · have here := paired.next i
    have last := paired.next (ws.length - 1)
    grind
  · have := paired.narrow
    grind

theorem Paired.append_two (paired : Paired ws) : Paired (ws ++ [2, 0]) := by
  refine ⟨?_, fun i => ?_, ?_⟩
  · have := paired.head
    grind
  · have here := paired.next i
    have last := paired.next (ws.length - 1)
    grind
  · have := paired.narrow
    grind

/-- Dropping a final one-column block. -/
theorem Paired.of_append_one (paired : Paired (ws ++ [1])) : Paired ws := by
  refine ⟨?_, fun i => ?_, fun w member => paired.narrow w (List.mem_append_left _ member)⟩
  · have := paired.head
    grind
  · have here := paired.next i
    grind

theorem Paired.append_ones (paired : Paired ws) (n : ℕ) : Paired (ws ++ List.replicate n 1) := by
  induction n with
  | zero => simpa using paired
  | succ n ih =>
    rw [List.replicate_succ', ← List.append_assoc]
    exact ih.append_one

theorem Paired.of_append_ones {n : ℕ} (paired : Paired (ws ++ List.replicate n 1)) : Paired ws := by
  induction n with
  | zero => simpa using paired
  | succ n ih =>
    rw [List.replicate_succ', ← List.append_assoc] at paired
    exact ih paired.of_append_one

theorem paired_ones (n : ℕ) : Paired (List.replicate n 1) := by
  simpa using paired_nil.append_ones n

end Paired

section Repair

/-- Replace the half at a column when its other half is missing. -/
def repairStep (ws : List ℕ) (x : ℕ) : List ℕ :=
  if ws[x]? = some 0 then if 0 < x ∧ ws[x - 1]? = some 2 then ws else ws.set x 1
  else if ws[x]? = some 2 then if ws[x + 1]? = some 0 then ws else ws.set x 1
  else ws

/-- The columns before `x` are blocks, the last of which may reach column `x`. -/
private structure RepairedTo (ws : List ℕ) (x : ℕ) : Prop where
  zero : ∀ i < x, ws[i]? = some 0 → 0 < i ∧ ws[i - 1]? = some 2
  two : ∀ i < x, ws[i]? = some 2 → ws[i + 1]? = some 0
  narrow : ∀ w ∈ ws, w ≤ 2

private theorem RepairedTo.set_one {ws : List ℕ} {x : ℕ} (repaired : RepairedTo ws x)
    (cut : ws[x]? = some 0 → 0 < x → ws[x - 1]? ≠ some 2) :
    RepairedTo (ws.set x 1) (x + 1) := by
  have zero := repaired.zero
  have two := repaired.two
  refine ⟨fun i before here => ?_, fun i before here => ?_, narrow_set repaired.narrow (by omega)⟩
  · rw [List.getElem?_set] at here ⊢
    rcases Nat.lt_or_eq_of_le (Nat.le_of_lt_succ before) with less | rfl
    · rw [if_neg (by omega)] at here ⊢
      exact zero i less here
    · rw [if_pos rfl] at here
      split at here <;> cases here
  · rw [List.getElem?_set] at here ⊢
    rcases Nat.lt_or_eq_of_le (Nat.le_of_lt_succ before) with less | rfl
    · rw [if_neg (by omega)] at here
      have follows := two i less here
      rcases eq_or_ne x (i + 1) with rfl | other
      · exact absurd here (cut follows (Nat.succ_pos i))
      · rwa [if_neg other]
    · rw [if_pos rfl] at here
      split at here <;> cases here

private theorem RepairedTo.step {ws : List ℕ} {x : ℕ} (repaired : RepairedTo ws x) :
    RepairedTo (repairStep ws x) (x + 1) := by
  have zero := repaired.zero
  have two := repaired.two
  unfold repairStep
  split
  · split
    · exact ⟨by grind, by grind, repaired.narrow⟩
    · exact repaired.set_one (by grind)
  · split
    · split
      · exact ⟨by grind, by grind, repaired.narrow⟩
      · exact repaired.set_one (by grind)
    · exact ⟨by grind, by grind, repaired.narrow⟩

theorem length_repairStep (ws : List ℕ) (x : ℕ) : (repairStep ws x).length = ws.length := by
  unfold repairStep
  split <;> split <;> simp [apply_ite List.length]

/-- One pass from left to right repairs a row, whatever was cut. -/
theorem paired_repair {ws : List ℕ} (narrow : ∀ w ∈ ws, w ≤ 2) :
    Paired ((List.range ws.length).foldl repairStep ws) := by
  have pass : ∀ n, RepairedTo ((List.range n).foldl repairStep ws) n ∧
      ((List.range n).foldl repairStep ws).length = ws.length := by
    intro n
    induction n with
    | zero => exact ⟨⟨by simp, by simp, narrow⟩, rfl⟩
    | succ n ih =>
      rw [List.range_succ, List.foldl_append, List.foldl_cons, List.foldl_nil]
      exact ⟨ih.1.step, by rw [length_repairStep, ih.2]⟩
  obtain ⟨repaired, length⟩ := pass ws.length
  generalize (List.range ws.length).foldl repairStep ws = row at repaired length
  have zero := repaired.zero
  have two := repaired.two
  exact ⟨by grind, by grind, repaired.narrow⟩

end Repair

end Uniterm.ToMathlib
