import Mathlib.Algebra.Order.Ring.Nat
import Mathlib.Data.List.Basic
import Mathlib.Data.Set.BooleanAlgebra
import Mathlib.Data.Set.Disjoint
import Mathlib.Order.CompletePartialOrder

/-! # Tilings

A list of sets tiles a set when none is empty, no two meet, and together they make it up. A tiling is
refined by tiling one of its parts.
-/

namespace Uniterm.ToMathlib

variable {α : Type*}

/-- The parts are nonempty, do not meet, and make up the whole. -/
structure Tiles (parts : List (Set α)) (whole : Set α) : Prop where
  nonempty : ∀ part ∈ parts, part.Nonempty
  disjoint : parts.Pairwise Disjoint
  mem : ∀ a, a ∈ whole ↔ ∃ part ∈ parts, a ∈ part

variable {parts inner : List (Set α)} {part whole : Set α}

theorem tiles_single (nonempty : whole.Nonempty) : Tiles [whole] whole where
  nonempty := by simpa using nonempty
  disjoint := List.pairwise_singleton ..
  mem := by simp

theorem tiles_three {first second third : Set α} :
    Tiles [first, second, third] whole ↔
      (first.Nonempty ∧ second.Nonempty ∧ third.Nonempty) ∧
        (Disjoint first second ∧ Disjoint first third ∧ Disjoint second third) ∧
          ∀ a, a ∈ whole ↔ a ∈ first ∨ a ∈ second ∨ a ∈ third := by
  constructor
  · rintro ⟨nonempty, disjoint, mem⟩
    exact ⟨by simpa using nonempty, by simpa [and_assoc] using disjoint, by simpa using mem⟩
  · rintro ⟨nonempty, disjoint, mem⟩
    exact ⟨by simpa using nonempty, by simpa [and_assoc] using disjoint, by simpa using mem⟩

theorem Tiles.subset (tiles : Tiles parts whole) (member : part ∈ parts) : part ⊆ whole :=
  fun a inside => (tiles.mem a).mpr ⟨part, member, inside⟩

theorem Tiles.perm (tiles : Tiles parts whole) {reordered : List (Set α)} (perm : parts.Perm reordered) :
    Tiles reordered whole where
  nonempty other member := tiles.nonempty other (perm.mem_iff.mpr member)
  disjoint := (perm.pairwise_iff fun apart => apart.symm).mp tiles.disjoint
  mem a := by
    rw [tiles.mem]
    simp only [perm.mem_iff]

/-- A part may be replaced by its own tiling. -/
theorem Tiles.refine (tiles : Tiles (part :: parts) whole) (inside : Tiles inner part) :
    Tiles (inner ++ parts) whole where
  nonempty other member := by
    rcases List.mem_append.mp member with member | member
    · exact inside.nonempty other member
    · exact tiles.nonempty other (.tail _ member)
  disjoint := by
    have apart := List.pairwise_cons.mp tiles.disjoint
    refine List.pairwise_append.mpr ⟨inside.disjoint, apart.2, ?_⟩
    intro first left second right
    exact (apart.1 second right).mono_left (inside.subset left)
  mem a := by
    rw [tiles.mem]
    simp only [List.mem_cons, List.mem_append, or_and_right, exists_or, exists_eq_left, inside.mem]

end Uniterm.ToMathlib
