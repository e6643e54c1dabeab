import Mathlib.Data.List.Forall2

/-! # Mapping with a left-to-right accumulator, and related lists -/

namespace Uniterm.ToMathlib

variable {σ α β : Type*}

/-- Map a list from left to right while threading a state. -/
def mapAccum (f : σ → α → σ × β) : σ → List α → σ × List β
  | s, [] => (s, [])
  | s, a :: as => ((mapAccum f (f s a).1 as).1, (f s a).2 :: (mapAccum f (f s a).1 as).2)

/-- A relation that each step establishes, and that later steps keep, relates all elements in the
final state. -/
theorem mapAccum_forall₂ {f : σ → α → σ × β} (inv : σ → Prop) (rel : σ → α → β → Prop)
    (keeps : ∀ s a, inv s → inv (f s a).1)
    (establishes : ∀ s a, inv s → rel (f s a).1 a (f s a).2)
    (stable : ∀ s a a' b, inv s → rel s a' b → rel (f s a).1 a' b)
    {s : σ} (as : List α) (start : inv s) :
    inv (mapAccum f s as).1 ∧
      List.Forall₂ (rel (mapAccum f s as).1) as (mapAccum f s as).2 ∧
      ∀ a b, rel s a b → rel (mapAccum f s as).1 a b := by
  induction as generalizing s with
  | nil => exact ⟨start, .nil, fun _ _ related => related⟩
  | cons a as ih =>
    obtain ⟨final, rest, later⟩ := ih (keeps s a start)
    refine ⟨final, .cons (later _ _ (establishes s a start)) rest, fun a' b related => ?_⟩
    exact later _ _ (stable s a a' b start related)

theorem mapAccum_state {f : σ → α → σ × β} (inv : σ → Prop) (keeps : ∀ s a, inv s → inv (f s a).1)
    {s : σ} (as : List α) (start : inv s) : inv (mapAccum f s as).1 := by
  induction as generalizing s with
  | nil => exact start
  | cons a as ih => exact ih (keeps s a start)

theorem length_mapAccum (f : σ → α → σ × β) (s : σ) (as : List α) : (mapAccum f s as).2.length = as.length := by
  induction as generalizing s with
  | nil => rfl
  | cons a as ih => exact congrArg (· + 1) (ih (f s a).1)

theorem mapAccum_concat (f : σ → α → σ × β) (s : σ) (as : List α) (a : α) :
    mapAccum f s (as ++ [a]) =
      ((f (mapAccum f s as).1 a).1, (mapAccum f s as).2 ++ [(f (mapAccum f s as).1 a).2]) := by
  induction as generalizing s with
  | nil => rfl
  | cons b as ih => rw [List.cons_append, mapAccum, ih, mapAccum, List.cons_append]

/-- Functions that agree on related elements have equal images of related lists. -/
theorem map_eq_of_forall₂ {γ : Type*} (rel : α → β → Prop) {f : α → γ} {g : β → γ}
    (agree : ∀ a b, rel a b → f a = g b) {as : List α} {bs : List β}
    (related : List.Forall₂ rel as bs) : as.map f = bs.map g := by
  induction related with
  | nil => rfl
  | cons head _ ih => rw [List.map_cons, List.map_cons, agree _ _ head, ih]

/-- Two relations element by element make up a third. -/
theorem forall₂_comp {γ : Type*} {R : α → β → Prop} {S : β → γ → Prop} {T : α → γ → Prop}
    (joins : ∀ a b c, R a b → S b c → T a c) {as : List α} {bs : List β} {cs : List γ} (first : List.Forall₂ R as bs)
    (second : List.Forall₂ S bs cs) : List.Forall₂ T as cs := by
  induction first generalizing cs with
  | nil =>
    cases second
    exact .nil
  | cons head _ ih =>
    cases second with
    | cons head' rest => exact .cons (joins _ _ _ head head') (ih rest)

/-- A partial map of a list relates every element with its image. -/
theorem mapM_eq_some {f : α → Option β} {l : List α} {r : List β} :
    l.mapM f = some r ↔ List.Forall₂ (fun a b => f a = some b) l r := by
  induction l generalizing r with
  | nil =>
    rw [List.mapM_nil, List.forall₂_nil_left_iff]
    exact ⟨fun same => (Option.some.inj same).symm, fun same => by rw [same]; rfl⟩
  | cons a rest ih =>
    rw [List.mapM_cons, List.forall₂_cons_left_iff]
    simp only [Option.bind_eq_bind, Option.bind_eq_some_iff, ih]
    constructor
    · rintro ⟨b, here, bs, later, same⟩
      exact ⟨b, bs, here, later, (Option.some.inj same).symm⟩
    · rintro ⟨b, bs, here, later, rfl⟩
      exact ⟨b, here, bs, later, rfl⟩

/-- Related lists have related elements at every index, or none on either side. -/
theorem getElem?_of_forall₂ {rel : α → β → Prop} {as : List α} {bs : List β}
    (related : List.Forall₂ rel as bs) (i : ℕ) :
    as[i]? = none ∧ bs[i]? = none ∨
      ∃ a b, as[i]? = some a ∧ bs[i]? = some b ∧ rel a b := by
  induction related generalizing i with
  | nil => exact .inl ⟨rfl, rfl⟩
  | cons head _ ih =>
    cases i with
    | zero => exact .inr ⟨_, _, rfl, rfl, head⟩
    | succ i => simpa using ih i

/-- Changing one element by a related one relates the lists. -/
theorem forall₂_modify {rel : α → α → Prop} (refl : ∀ a, rel a a) {f : α → α} (step : ∀ a, rel a (f a))
    (as : List α) (i : ℕ) : List.Forall₂ rel as (as.modify i f) := by
  induction as generalizing i with
  | nil => simp
  | cons a as ih =>
    cases i with
    | zero =>
      rw [List.modify_zero_cons]
      exact .cons (step a) (List.forall₂_same.mpr fun b _ => refl b)
    | succ i =>
      rw [List.modify_succ_cons]
      exact .cons (refl a) (ih i)

theorem exists_of_mem_right {rel : α → β → Prop} {as : List α} {bs : List β}
    (related : List.Forall₂ rel as bs) {b : β} (member : b ∈ bs) : ∃ a ∈ as, rel a b := by
  induction related with
  | nil => contradiction
  | cons head _ ih =>
    rcases List.mem_cons.mp member with rfl | later
    · exact ⟨_, List.mem_cons_self .., head⟩
    · obtain ⟨a, member, rel⟩ := ih later
      exact ⟨a, .tail _ member, rel⟩

end Uniterm.ToMathlib
