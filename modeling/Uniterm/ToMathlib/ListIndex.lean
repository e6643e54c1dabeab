import Mathlib.Data.List.Nodup
import Std.Data.ExtTreeMap.Lemmas

/-! # Indexes that list their members

An index maps a key to the list of the elements filed under it; an absent key files nothing.
`Lists index rel` says that the index files exactly the pairs of a relation and repeats none, and
the rules below follow the relation through the three updates of an index.
-/

namespace Uniterm.ToMathlib

open Std

variable {κ α : Type*} {cmp : κ → κ → Ordering} [TransCmp cmp] [LawfulEqCmp cmp]

/-- The elements filed under a key. -/
def entriesAt (index : ExtTreeMap κ (List α) cmp) (key : κ) : List α := (index[key]?).getD []

/-- File one more element under a key. -/
def pushAt (index : ExtTreeMap κ (List α) cmp) (key : κ) (a : α) : ExtTreeMap κ (List α) cmp :=
  index.insert key (entriesAt index key ++ [a])

/-- Take an element out from under a key, and the key with its last element. -/
def dropAt [DecidableEq α] (index : ExtTreeMap κ (List α) cmp) (key : κ) (a : α) :
    ExtTreeMap κ (List α) cmp :=
  match index[key]? with
  | none => index
  | some filed =>
    if (filed.filter (· ≠ a)).isEmpty then index.erase key
    else index.insert key (filed.filter (· ≠ a))

/-- The index files exactly the pairs of the relation, each once. -/
structure Lists (index : ExtTreeMap κ (List α) cmp) (rel : κ → α → Prop) : Prop where
  mem : ∀ key a, a ∈ entriesAt index key ↔ rel key a
  nodup : ∀ key, (entriesAt index key).Nodup

section

variable {index : ExtTreeMap κ (List α) cmp} {rel : κ → α → Prop} {key : κ} {a : α}

omit [TransCmp cmp] in
private theorem compare_ne {key other : κ} (different : key ≠ other) : cmp key other ≠ .eq :=
  fun equal => different (LawfulEqCmp.eq_of_compare equal)

omit [LawfulEqCmp cmp] in
@[simp] theorem entriesAt_empty (key : κ) :
    entriesAt (∅ : ExtTreeMap κ (List α) cmp) key = [] := by simp [entriesAt]

omit [LawfulEqCmp cmp] in
theorem entriesAt_insert_self [ReflCmp cmp] {filed : List α} :
    entriesAt (index.insert key filed) key = filed := by
  rw [entriesAt, ExtTreeMap.getElem?_insert_self, Option.getD_some]

theorem entriesAt_insert_of_ne {filed : List α} {other : κ} (different : key ≠ other) :
    entriesAt (index.insert key filed) other = entriesAt index other := by
  rw [entriesAt, ExtTreeMap.getElem?_insert, if_neg (compare_ne different), ← entriesAt]

omit [LawfulEqCmp cmp] in
@[simp] theorem entriesAt_erase_self [ReflCmp cmp] : entriesAt (index.erase key) key = [] := by
  rw [entriesAt, ExtTreeMap.getElem?_erase_self, Option.getD_none]

theorem entriesAt_erase_of_ne {other : κ} (different : key ≠ other) :
    entriesAt (index.erase key) other = entriesAt index other := by
  rw [entriesAt, ExtTreeMap.getElem?_erase, if_neg (compare_ne different), ← entriesAt]

theorem entriesAt_dropAt_self [DecidableEq α] :
    entriesAt (dropAt index key a) key = (entriesAt index key).filter (· ≠ a) := by
  unfold dropAt
  cases read : index[key]? with
  | none => simp [entriesAt, read]
  | some filed =>
    have here : entriesAt index key = filed := by rw [entriesAt, read, Option.getD_some]
    dsimp only
    split
    · next last => rw [entriesAt_erase_self, here, List.isEmpty_iff.mp last]
    · rw [entriesAt_insert_self, here]

theorem entriesAt_dropAt_of_ne [DecidableEq α] {other : κ} (different : key ≠ other) :
    entriesAt (dropAt index key a) other = entriesAt index other := by
  unfold dropAt
  split
  · rfl
  split
  · exact entriesAt_erase_of_ne different
  · exact entriesAt_insert_of_ne different

omit [LawfulEqCmp cmp] in
theorem Lists.congr {rel' : κ → α → Prop} (lists : Lists index rel)
    (same : ∀ key a, rel key a ↔ rel' key a) : Lists index rel' where
  mem key a := (lists.mem key a).trans (same key a)
  nodup := lists.nodup

/-- Filing an element where it was not filed adds one pair. -/
theorem Lists.push (lists : Lists index rel) (fresh : ¬rel key a) :
    Lists (pushAt index key a) fun key' a' => rel key' a' ∨ key' = key ∧ a' = a where
  mem key' a' := by
    by_cases same : key = key'
    · subst same
      simp [pushAt, entriesAt_insert_self, lists.mem]
    · simp [pushAt, entriesAt_insert_of_ne same, lists.mem, Ne.symm same]
  nodup key' := by
    by_cases same : key = key'
    · subst same
      rw [pushAt, entriesAt_insert_self, List.nodup_append]
      refine ⟨lists.nodup key, List.nodup_singleton a, ?_⟩
      intro x filed y new equal
      rw [List.mem_singleton.mp new] at equal
      exact fresh ((lists.mem key a).mp (equal ▸ filed))
    · rw [pushAt, entriesAt_insert_of_ne same]
      exact lists.nodup key'

/-- Taking an element out removes one pair. -/
theorem Lists.drop [DecidableEq α] (lists : Lists index rel) (key : κ) (a : α) :
    Lists (dropAt index key a) fun key' a' => rel key' a' ∧ ¬(key' = key ∧ a' = a) where
  mem key' a' := by
    by_cases same : key = key'
    · subst same
      simp [entriesAt_dropAt_self, lists.mem]
    · simp [entriesAt_dropAt_of_ne same, lists.mem, Ne.symm same]
  nodup key' := by
    by_cases same : key = key'
    · subst same
      rw [entriesAt_dropAt_self]
      exact (lists.nodup key).filter _
    · rw [entriesAt_dropAt_of_ne same]
      exact lists.nodup key'

/-- Erasing a key removes its pairs. -/
theorem Lists.erase (lists : Lists index rel) (key : κ) :
    Lists (index.erase key) fun key' a => rel key' a ∧ key' ≠ key where
  mem key' a := by
    by_cases same : key = key'
    · subst same
      simp
    · simp [entriesAt_erase_of_ne same, lists.mem, Ne.symm same]
  nodup key' := by
    by_cases same : key = key'
    · subst same
      simp
    · rw [entriesAt_erase_of_ne same]
      exact lists.nodup key'

end

end Uniterm.ToMathlib
