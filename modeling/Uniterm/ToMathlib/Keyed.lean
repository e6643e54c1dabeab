import Mathlib.Data.List.Basic
import Mathlib.Data.List.Nodup

/-! # Lists of distinct keys

Where no two entries of a list have the same key, the first entry that fits is the entry of its key. Taking it
out filters its key away, and changing it changes the entries of its key.
-/

namespace Uniterm.ToMathlib

/-- Looking a key up after a change of every value. -/
theorem lookup_map {κ β γ : Type*} [BEq κ] (f : β → γ) (entries : List (κ × β)) (k : κ) :
    (entries.map (Prod.map id f)).lookup k = (entries.lookup k).map f := by
  induction entries with
  | nil => rfl
  | cons entry rest ih =>
    rw [List.map_cons, List.lookup_cons, List.lookup_cons, Prod.map_fst, id_eq]
    cases k == entry.1 with
    | true => rfl
    | false => exact ih

variable {α κ : Type*} [DecidableEq κ] (key : α → κ) {l : List α}

theorem eraseP_key (distinct : (l.map key).Nodup) (k : κ) :
    l.eraseP (key · == k) = l.filter (key · != k) := by
  induction l with
  | nil => rfl
  | cons a l ih =>
    rw [List.map_cons, List.nodup_cons] at distinct
    by_cases same : key a = k
    · rw [List.eraseP_cons_of_pos (by simp [same]), List.filter_cons_of_neg (by simp [same]), eq_comm,
        List.filter_eq_self]
      intro b member
      rw [bne_iff_ne, ← same]
      exact fun again => distinct.1 (List.mem_map.mpr ⟨b, member, again⟩)
    · rw [List.eraseP_cons_of_neg (by simp [same]), List.filter_cons_of_pos (by simp [same]), ih distinct.2]

theorem eraseP_split {p : α → Bool} {before after : List α} {a : α} (earlier : ∀ b ∈ before, ¬ p b) (fits : p a) :
    (before ++ a :: after).eraseP p = before ++ after := by
  rw [List.eraseP_append_right _ earlier, List.eraseP_cons_of_pos fits]

theorem findIdx_split {p : α → Bool} {before after : List α} {a : α} (earlier : ∀ b ∈ before, ¬ p b) (fits : p a) :
    (before ++ a :: after).findIdx p = before.length := by
  induction before with
  | nil => rw [List.nil_append, List.findIdx_cons, fits, List.length_nil, cond_true]
  | cons b before ih =>
    obtain ⟨first, rest⟩ := List.forall_mem_cons.mp earlier
    rw [List.cons_append, List.findIdx_cons, Bool.eq_false_iff.mpr first, ih rest, List.length_cons, cond_false]

/-- The first entry that fits is the first of its key. -/
theorem find_split (distinct : (l.map key).Nodup) {p : α → Bool} {a : α} (found : l.find? p = some a) :
    ∃ before after, l = before ++ a :: after ∧ p a ∧ (∀ b ∈ before, ¬ p b) ∧ ∀ b ∈ before, ¬ (key b == key a) := by
  obtain ⟨fits, before, after, rfl, earlier⟩ := List.find?_eq_some_iff_append.mp found
  refine ⟨before, after, rfl, fits, fun b member => by simpa using earlier b member, ?_⟩
  intro b member same
  rw [List.map_append, List.map_cons] at distinct
  have here : key a ∈ before.map key := List.mem_map.mpr ⟨b, member, beq_iff_eq.mp same⟩
  exact (List.nodup_append.mp distinct).2.2 _ here _ List.mem_cons_self rfl

theorem eraseP_of_find (distinct : (l.map key).Nodup) {p : α → Bool} {a : α} (found : l.find? p = some a) :
    l.eraseP p = l.filter (key · != key a) := by
  rw [← eraseP_key key distinct]
  obtain ⟨before, after, rfl, fits, earlier, apart⟩ := find_split key distinct found
  rw [eraseP_split earlier fits, eraseP_split apart (beq_self_eq_true _)]

theorem eraseP_of_find_none {p : α → Bool} (absent : l.find? p = none) : l.eraseP p = l :=
  List.eraseP_of_forall_not fun a member => by simpa using List.find?_eq_none.mp absent a member

/-- Change the entries of a key. -/
def changeKey (k : κ) (f : α → α) (l : List α) : List α :=
  l.map fun a => if key a = k then f a else a

theorem modify_key (distinct : (l.map key).Nodup) (k : κ) (f : α → α) :
    l.modify (l.findIdx (key · == k)) f = changeKey key k f l := by
  induction l with
  | nil => rfl
  | cons a l ih =>
    rw [List.map_cons, List.nodup_cons] at distinct
    rw [changeKey, List.map_cons, List.findIdx_cons]
    by_cases same : key a = k
    · have others : l.map (fun b => if key b = k then f b else b) = l := by
        refine (List.map_congr_left fun b member => ?_).trans (List.map_id l)
        rw [if_neg, id_eq]
        rintro rfl
        exact distinct.1 (same ▸ List.mem_map.mpr ⟨b, member, rfl⟩)
      rw [if_pos same, beq_iff_eq.mpr same, others]
      rfl
    · rw [if_neg same, beq_eq_false_iff_ne.mpr same]
      exact congrArg (a :: ·) (ih distinct.2)

theorem modify_of_find (distinct : (l.map key).Nodup) {p : α → Bool} {a : α} (found : l.find? p = some a)
    (f : α → α) : l.modify (l.findIdx p) f = changeKey key (key a) f l := by
  rw [← modify_key key distinct]
  obtain ⟨before, after, rfl, fits, earlier, apart⟩ := find_split key distinct found
  rw [findIdx_split earlier fits, findIdx_split apart (beq_self_eq_true _)]

/-- What a change leaves alone in every entry, it leaves alone in the list. -/
theorem map_changeKey {β : Type*} {other : α → β} {f : α → α} (same : ∀ a, other (f a) = other a) (k : κ) :
    (changeKey key k f l).map other = l.map other := by
  rw [changeKey, List.map_map]
  refine List.map_congr_left fun a _ => ?_
  rw [Function.comp_apply]
  split
  · exact same a
  · rfl

/-- Two changes of a key's entries are one. -/
theorem changeKey_comp {f : α → α} (same : ∀ a, key (f a) = key a) (g : α → α) (k : κ) :
    changeKey key k g (changeKey key k f l) = changeKey key k (g ∘ f) l := by
  rw [changeKey, changeKey, changeKey, List.map_map]
  refine List.map_congr_left fun a _ => ?_
  rw [Function.comp_apply]
  by_cases keyed : key a = k
  · rw [if_pos keyed, if_pos ((same a).trans keyed), if_pos keyed, Function.comp_apply]
  · rw [if_neg keyed, if_neg keyed, if_neg keyed]

/-- A change of a key's entries that changes nothing when done again. -/
theorem changeKey_changeKey {f : α → α} (same : ∀ a, key (f a) = key a) (again : ∀ a, f (f a) = f a) (k : κ) :
    changeKey key k f (changeKey key k f l) = changeKey key k f l := by
  rw [changeKey_comp key same, show f ∘ f = f from funext again]

end Uniterm.ToMathlib
