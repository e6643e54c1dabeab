import Mathlib.Data.List.DropRight

/-! # Dropping a tail of a list -/

namespace Uniterm.ToMathlib

variable {α β : Type*}

theorem rdropWhile_congr {p q : α → Bool} {l : List α} (same : ∀ a ∈ l, p a = q a) :
    l.rdropWhile p = l.rdropWhile q := by
  induction l using List.reverseRecOn with
  | nil => rfl
  | append_singleton l a ih =>
    have here := same a (List.mem_append_right _ (List.mem_singleton_self a))
    rw [List.rdropWhile_concat, List.rdropWhile_concat, here,
      ih fun b member => same b (List.mem_append_left _ member)]

theorem rdropWhile_map (f : α → β) (p : β → Bool) (l : List α) :
    (l.map f).rdropWhile p = (l.rdropWhile (p ∘ f)).map f := by
  induction l using List.reverseRecOn with
  | nil => rfl
  | append_singleton l a ih =>
    rw [List.map_append, List.map_singleton, List.rdropWhile_concat, List.rdropWhile_concat, ih]
    split
    · next drops => rw [Function.comp_apply, if_pos drops]
    · next stays => rw [Function.comp_apply, if_neg stays, List.map_append, List.map_singleton]

theorem rdropWhile_append_all {p : α → Bool} (l : List α) {tail : List α} (all : ∀ a ∈ tail, p a = true) :
    (l ++ tail).rdropWhile p = l.rdropWhile p := by
  induction tail using List.reverseRecOn with
  | nil => rw [List.append_nil]
  | append_singleton tail a ih =>
    have here := all a (List.mem_append_right _ (List.mem_singleton_self a))
    rw [← List.append_assoc, List.rdropWhile_concat, if_pos here,
      ih fun b member => all b (List.mem_append_left _ member)]

/-- Dropping a tail before filtering makes no difference to dropping it afterwards. -/
theorem rdropWhile_filter_rdropWhile (p q : α → Bool) (l : List α) :
    ((l.rdropWhile p).filter q).rdropWhile p = (l.filter q).rdropWhile p := by
  have whole : l.rdropWhile p ++ l.rtakeWhile p = l := List.rdropWhile_append_rtakeWhile
  have dropped : ∀ a ∈ (l.rtakeWhile p).filter q, p a = true := fun a member =>
    List.mem_rtakeWhile_imp (List.mem_of_mem_filter member)
  have filtered : (l.rdropWhile p).filter q ++ (l.rtakeWhile p).filter q = l.filter q := by
    rw [← List.filter_append, whole]
  rw [← filtered, rdropWhile_append_all _ dropped]

/-- Reading a list at every index below a bound pads it with the default. -/
theorem range_map_getD (f : α → β) (l : List α) (d : α) {n : ℕ} (short : l.length ≤ n) :
    (List.range n).map (fun i => f (l[i]?.getD d)) = (l ++ List.replicate (n - l.length) d).map f := by
  refine List.ext_getElem ?_ fun i left right => ?_
  · simp only [List.length_map, List.length_range, List.length_append, List.length_replicate]
    omega
  · rw [List.getElem_map, List.getElem_map, List.getElem_range]
    by_cases inside : i < l.length
    · rw [List.getElem_append_left inside, List.getElem?_eq_getElem inside, Option.getD_some]
    · rw [List.getElem_append_right (by omega), List.getElem_replicate,
        List.getElem?_eq_none (by omega), Option.getD_none]

end Uniterm.ToMathlib
