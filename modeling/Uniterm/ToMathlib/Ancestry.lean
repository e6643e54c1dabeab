import Mathlib.Data.Finset.Card
import Mathlib.Logic.Function.Basic
import Mathlib.Logic.Relation

/-! # Climbing a parent function

A partial parent function whose parents have lower ranks has no cycles. Bounded climbs along it, to a root
or to a given descendant, need no more steps than there are lower nodes.
-/

namespace Uniterm.ToMathlib

open Relation

variable {α : Type*} [DecidableEq α]

/-- At most so many steps up, from a node to its parent. -/
def climb (parent : α → Option α) : ℕ → α → α
  | 0, node => node
  | fuel + 1, node =>
    match parent node with
    | none => node
    | some above => if above = node then node else climb parent fuel above

/-- The topmost ancestor, unless the way there meets the child. -/
def seek (parent : α → Option α) (child : α) : ℕ → α → Option α
  | 0, node => some node
  | fuel + 1, node =>
    if node = child then none
    else
      match parent node with
      | some above => seek parent child fuel above
      | none => some node

/-- One is reached from the other along parents. -/
def Reaches (parent : α → Option α) : α → α → Prop := ReflTransGen fun a b => parent a = some b

/-- Parents are among the nodes and rank lower. -/
structure Ranks (parent : α → Option α) (nodes : Finset α) (rank : α → ℕ) : Prop where
  node : ∀ a b, parent a = some b → b ∈ nodes
  lower : ∀ a b, parent a = some b → rank b < rank a

variable {parent : α → Option α} {nodes : Finset α} {rank : α → ℕ} {a b c r : α}

omit [DecidableEq α] in
theorem Ranks.le_of_reaches (ranks : Ranks parent nodes rank) (reaches : Reaches parent a b) :
    rank b ≤ rank a := by
  induction reaches with
  | refl => exact Nat.le_refl _
  | tail _ up ih => exact Nat.le_trans (Nat.le_of_lt (ranks.lower _ _ up)) ih

omit [DecidableEq α] in
/-- Going up never revisits a node. -/
theorem Ranks.not_cycle (ranks : Ranks parent nodes rank) :
    ¬ TransGen (fun a b => parent a = some b) a a := by
  intro cycle
  have lower : ∀ b, TransGen (fun a b => parent a = some b) a b → rank b < rank a := by
    intro b climbs
    induction climbs with
    | single up => exact ranks.lower _ _ up
    | tail _ up ih => exact Nat.lt_trans (ranks.lower _ _ up) ih
  exact Nat.lt_irrefl _ (lower a cycle)

omit [DecidableEq α] in
/-- There is one root above a node. -/
theorem root_unique (first : Reaches parent a b) (root : parent b = none) (second : Reaches parent a c)
    (other : parent c = none) : b = c := by
  induction first using ReflTransGen.head_induction_on with
  | refl =>
    rcases ReflTransGen.cases_head second with same | ⟨d, up, _⟩
    · exact same
    · rw [root] at up
      cases up
  | head up rest ih =>
    rcases ReflTransGen.cases_head second with rfl | ⟨d, up', rest'⟩
    · rw [other] at up
      cases up
    · rw [up] at up'
      cases up'
      exact ih rest'

/-- The nodes that rank lower. -/
def below (nodes : Finset α) (rank : α → ℕ) (a : α) : Finset α := nodes.filter (rank · < rank a)

omit [DecidableEq α] in
theorem Ranks.below_lt (ranks : Ranks parent nodes rank) (up : parent a = some b) :
    (below nodes rank b).card < (below nodes rank a).card := by
  have lower := ranks.lower a b up
  refine Finset.card_lt_card (Finset.ssubset_iff_of_subset ?_ |>.mpr ⟨b, ?_, ?_⟩)
  · intro c member
    have ⟨inside, less⟩ := Finset.mem_filter.mp member
    exact Finset.mem_filter.mpr ⟨inside, Nat.lt_trans less lower⟩
  · exact Finset.mem_filter.mpr ⟨ranks.node a b up, lower⟩
  · intro member
    exact Nat.lt_irrefl _ (Finset.mem_filter.mp member).2

/-- With enough steps the climb ends at the root. -/
theorem Ranks.climb_root (ranks : Ranks parent nodes rank) {fuel : ℕ}
    (enough : (below nodes rank a).card ≤ fuel) :
    Reaches parent a (climb parent fuel a) ∧ parent (climb parent fuel a) = none := by
  induction fuel generalizing a with
  | zero =>
    refine ⟨.refl, ?_⟩
    cases up : parent a with
    | none => exact up
    | some b => exact absurd (ranks.below_lt up) (by omega)
  | succ fuel ih =>
    unfold climb
    cases up : parent a with
    | none => exact ⟨.refl, up⟩
    | some b =>
      have less := ranks.below_lt up
      have different : b ≠ a := by
        rintro rfl
        exact Nat.lt_irrefl _ less
      dsimp only
      rw [if_neg different]
      obtain ⟨reaches, root⟩ := ih (a := b) (by omega)
      exact ⟨.head up reaches, root⟩

/-- With enough steps the search finds the child exactly when it is above, and the root otherwise. -/
theorem Ranks.seek_none (ranks : Ranks parent nodes rank) {fuel : ℕ}
    (enough : (below nodes rank a).card < fuel) : seek parent c fuel a = none ↔ Reaches parent a c := by
  induction fuel generalizing a with
  | zero => exact absurd enough (Nat.not_lt_zero _)
  | succ fuel ih =>
    unfold seek
    by_cases same : a = c
    · rw [if_pos same]
      exact ⟨fun _ => same ▸ .refl, fun _ => rfl⟩
    rw [if_neg same]
    cases up : parent a with
    | none =>
      refine ⟨nofun, fun reaches => ?_⟩
      rcases ReflTransGen.cases_head reaches with here | ⟨d, above, _⟩
      · exact absurd here same
      · rw [up] at above
        cases above
    | some b =>
      have less := ranks.below_lt up
      dsimp only
      rw [ih (by omega)]
      refine ⟨.head up, fun reaches => ?_⟩
      rcases ReflTransGen.cases_head reaches with here | ⟨d, above, rest⟩
      · exact absurd here same
      · rw [up] at above
        cases above
        exact rest

section Attaching

theorem Ranks.detach (ranks : Ranks parent nodes rank) (c : α) :
    Ranks (Function.update parent c none) nodes rank := by
  have old : ∀ a b, Function.update parent c none a = some b → parent a = some b := by
    intro a b up
    by_cases same : a = c
    · rw [same, Function.update_self] at up
      cases up
    · rwa [Function.update_of_ne same] at up
  exact ⟨fun a b up => ranks.node a b (old a b up), fun a b up => ranks.lower a b (old a b up)⟩

/-- A node that is put under another, which it is not above, ranks lower than it by a lift of its descendants. -/
theorem Ranks.attach (ranks : Ranks parent nodes rank) (inside : b ∈ nodes) (apart : ¬ Reaches parent b c) :
    ∃ rank, Ranks (Function.update parent c (some b)) nodes rank := by
  classical
  refine ⟨fun a => if Reaches parent a c then rank a + rank b + 1 else rank a, fun a d up => ?_, fun a d up => ?_⟩
  · by_cases same : a = c
    · subst same
      rw [Function.update_self] at up
      cases up
      exact inside
    · rw [Function.update_of_ne same] at up
      exact ranks.node a d up
  · by_cases same : a = c
    · subst same
      rw [Function.update_self] at up
      cases up
      have self : Reaches parent a a := .refl
      rw [if_neg apart, if_pos self]
      omega
    · rw [Function.update_of_ne same] at up
      have lower := ranks.lower a d up
      by_cases descends : Reaches parent a c
      · rw [if_pos descends]
        split <;> omega
      · have below : ¬ Reaches parent d c := fun reaches => descends (.head up reaches)
        rw [if_neg descends, if_neg below]
        exact lower

/-- What leads to a node does not use the node's own parent. -/
theorem Reaches.update (reaches : Reaches parent a c) (above : Option α) :
    Reaches (Function.update parent c above) a c := by
  induction reaches using ReflTransGen.head_induction_on with
  | refl => exact .refl
  | @head a d up _ ih =>
    by_cases same : a = c
    · exact same ▸ .refl
    · exact .head (by rwa [Function.update_of_ne same]) ih

/-- Putting a node under another closes a cycle exactly when it is above the other. -/
theorem Ranks.attach_cycle (ranks : Ranks parent nodes rank) (inside : b ∈ nodes) :
    (∃ a, TransGen (fun x y => Function.update parent c (some b) x = some y) a a) ↔ Reaches parent b c := by
  constructor
  · rintro ⟨a, cycle⟩
    by_contra apart
    obtain ⟨_, lifted⟩ := ranks.attach inside apart
    exact lifted.not_cycle cycle
  · intro reaches
    exact ⟨c, .head' (Function.update_self ..) (reaches.update (some b))⟩

end Attaching

end Uniterm.ToMathlib
