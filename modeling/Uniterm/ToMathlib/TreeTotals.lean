import Mathlib.Algebra.BigOperators.Group.List.Basic
import Mathlib.Algebra.Ring.Nat
import Std.Data.ExtTreeMap.Lemmas

/-! # Totals over a search tree

A budget kept beside an ordered map is a sum of weights over its values. The map loses one value
at a time or gains one under a fresh key, and every change is reduced to the single permutation
`toList_perm_erase`: the bindings of a map are one chosen binding and the bindings without it.
-/

namespace Uniterm.ToMathlib

open Std

variable {α β : Type*} {cmp : α → α → Ordering} [TransCmp cmp] [LawfulEqCmp cmp]

omit [LawfulEqCmp cmp] in
private theorem nodup_toList (m : ExtTreeMap α β cmp) : m.toList.Nodup := by
  have keys := m.nodup_keys
  rw [← ExtTreeMap.map_fst_toList_eq_keys] at keys
  exact (List.pairwise_map.mp keys).imp fun different same => different (congrArg Prod.fst same)

/-- A present binding and the rest of the map. -/
theorem toList_perm_erase (m : ExtTreeMap α β cmp) {key : α} {value : β}
    (read : m[key]? = some value) : m.toList.Perm ((key, value) :: (m.erase key).toList) := by
  have absent : (key, value) ∉ (m.erase key).toList := by
    simp [ExtTreeMap.mem_toList_iff_getElem?_eq_some]
  apply (List.perm_ext_iff_of_nodup (nodup_toList m)
    (List.nodup_cons.mpr ⟨absent, nodup_toList (m.erase key)⟩)).mpr
  rintro ⟨other, held⟩
  rw [List.mem_cons, ExtTreeMap.mem_toList_iff_getElem?_eq_some,
    ExtTreeMap.mem_toList_iff_getElem?_eq_some, ExtTreeMap.getElem?_erase]
  by_cases same : key = other
  · subst same
    simp [read, eq_comm]
  · have different : cmp key other ≠ .eq := fun equal => same (LawfulEqCmp.eq_of_compare equal)
    simp [different, Ne.symm same]

/-- The sum of the weights of all values. -/
def total (m : ExtTreeMap α β cmp) (weight : β → ℕ) : ℕ :=
  (m.toList.map fun binding => weight binding.2).sum

variable {m : ExtTreeMap α β cmp} (weight : β → ℕ) {key : α}

theorem total_of_read {value : β} (read : m[key]? = some value) :
    total m weight = weight value + total (m.erase key) weight := by
  rw [total, ((toList_perm_erase m read).map _).sum_eq, List.map_cons, List.sum_cons, ← total]

theorem weight_le_total {value : β} (read : m[key]? = some value) :
    weight value ≤ total m weight := by
  rw [total_of_read weight read]
  exact Nat.le_add_right ..

private theorem erase_congr {m' : ExtTreeMap α β cmp}
    (elsewhere : ∀ other : α, cmp key other ≠ .eq → m'[other]? = m[other]?) :
    m'.erase key = m.erase key := by
  apply ExtTreeMap.ext_getElem?
  intro other
  rw [ExtTreeMap.getElem?_erase, ExtTreeMap.getElem?_erase]
  split
  · rfl
  · next different => exact elsewhere other different

/-- A binding under a fresh key adds its weight. -/
theorem total_insert_of_absent {value : β} (absent : m[key]? = none) :
    total (m.insert key value) weight = weight value + total m weight := by
  have rest : (m.insert key value).erase key = m := by
    apply ExtTreeMap.ext_getElem?
    intro other
    rw [ExtTreeMap.getElem?_erase, ExtTreeMap.getElem?_insert]
    by_cases same : cmp key other = .eq
    · rw [if_pos same, ← LawfulEqCmp.eq_of_compare same, absent]
    · rw [if_neg same, if_neg same]
  rw [total_of_read weight (ExtTreeMap.getElem?_insert_self ..), rest]

/-- A changed value trades its old weight for the new one. -/
theorem total_modify (change : β → β) {value : β} (read : m[key]? = some value) :
    total (m.modify key change) weight + weight value = total m weight + weight (change value) := by
  have changed : (m.modify key change)[key]? = some (change value) := by
    rw [ExtTreeMap.getElem?_modify_self, read, Option.map_some]
  have rest : (m.modify key change).erase key = m.erase key := by
    apply erase_congr
    intro other different
    rw [ExtTreeMap.getElem?_modify, if_neg different]
  rw [total_of_read weight changed, total_of_read weight read, rest]
  omega

/-- A map changed under one absent key only is unchanged. -/
theorem modify_of_absent {change : β → β} (absent : m[key]? = none) : m.modify key change = m := by
  apply ExtTreeMap.ext_getElem?
  intro other
  rw [ExtTreeMap.getElem?_modify]
  split
  · next same => rw [← LawfulEqCmp.eq_of_compare same, absent, Option.map_none]
  · rfl

theorem erase_of_absent (absent : m[key]? = none) : m.erase key = m := by
  apply ExtTreeMap.ext_getElem?
  intro other
  rw [ExtTreeMap.getElem?_erase]
  split
  · next same => rw [← LawfulEqCmp.eq_of_compare same, absent]
  · rfl

omit [LawfulEqCmp cmp] in
/-- Counting values is a total of unit weights. -/
theorem length_filter_eq_total (condition : β → Bool) :
    ((m.toList.map Prod.snd).filter condition).length =
      total m fun value => if condition value then 1 else 0 := by
  rw [← List.countP_eq_length_filter, List.countP_map, total]
  generalize m.toList = bindings
  induction bindings with
  | nil => rfl
  | cons binding rest ih =>
    rw [List.countP_cons, List.map_cons, List.sum_cons, ih, Nat.add_comm]
    rfl

omit [LawfulEqCmp cmp] in
theorem size_eq_total : m.size = total m fun _ => 1 := by
  rw [← ExtTreeMap.length_toList, total, List.map_const', List.sum_replicate, Nat.nsmul_eq_mul,
    mul_one]

section Inserting

variable {γ : Type*} {keyOf : γ → α} {valueOf : γ → β} {entries : List γ}

/-- Insertions under other keys leave a binding alone. -/
theorem getElem?_foldl_insert_of_notMem (m : ExtTreeMap α β cmp) {key : α}
    (absent : key ∉ entries.map keyOf) :
    (entries.foldl (fun m entry => m.insert (keyOf entry) (valueOf entry)) m)[key]? = m[key]? := by
  induction entries generalizing m with
  | nil => rfl
  | cons entry entries ih =>
    rw [List.map_cons, List.mem_cons, not_or] at absent
    have different : cmp (keyOf entry) key ≠ .eq :=
      fun same => absent.1 (LawfulEqCmp.eq_of_compare same).symm
    rw [List.foldl_cons, ih _ absent.2, ExtTreeMap.getElem?_insert, if_neg different]

/-- Under distinct keys every insertion stands. -/
theorem getElem?_foldl_insert_of_mem (m : ExtTreeMap α β cmp) (distinct : (entries.map keyOf).Nodup) :
    ∀ entry ∈ entries, (entries.foldl (fun m entry => m.insert (keyOf entry) (valueOf entry))
      m)[keyOf entry]? = some (valueOf entry) := by
  induction entries generalizing m with
  | nil =>
    intro entry member
    cases member
  | cons first entries ih =>
    obtain ⟨fresh, distinct⟩ := List.nodup_cons.mp distinct
    intro entry member
    rw [List.foldl_cons]
    rcases List.mem_cons.mp member with rfl | later
    · rw [getElem?_foldl_insert_of_notMem _ fresh, ExtTreeMap.getElem?_insert_self]
    · exact ih _ distinct entry later

/-- A map whose values know their keys is rebuilt from its values. -/
theorem foldl_insert_values {keyOf : β → α} (m : ExtTreeMap α β cmp)
    (keyed : ∀ key value, m[key]? = some value → keyOf value = key) :
    (m.toList.map Prod.snd).foldl (fun m value => m.insert (keyOf value) value) ∅ = m := by
  have keys : (m.toList.map Prod.snd).map keyOf = m.keys := by
    rw [List.map_map, ← ExtTreeMap.map_fst_toList_eq_keys]
    apply List.map_congr_left
    rintro ⟨key, value⟩ listed
    exact keyed key value (ExtTreeMap.mem_toList_iff_getElem?_eq_some.mp listed)
  apply ExtTreeMap.ext_getElem?
  intro key
  cases read : m[key]? with
  | none =>
    rw [getElem?_foldl_insert_of_notMem, ExtTreeMap.getElem?_empty]
    rw [keys, ExtTreeMap.mem_keys]
    intro member
    rw [ExtTreeMap.getElem?_eq_some_getElem member] at read
    cases read
  | some value =>
    have listed : value ∈ m.toList.map Prod.snd :=
      List.mem_map_of_mem (ExtTreeMap.mem_toList_iff_getElem?_eq_some.mpr read)
    rw [← keyed key value read]
    exact getElem?_foldl_insert_of_mem ∅ (keys ▸ m.nodup_keys) value listed

end Inserting

end Uniterm.ToMathlib
