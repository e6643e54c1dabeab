import Uniterm.ToMathlib.ListCut
import Uniterm.Model.Workspace.Hierarchy

/-! # Layout trees as their panes

Splitting a leaf adds a pane to the panes of a tree, and leaving a pane out filters them.
-/

namespace Uniterm.Model.Workspace.LayoutNode

variable {Ratio : Type} {node : LayoutNode Ratio} {pane target : PaneId}

@[simp] theorem containsPane_iff : node.containsPane pane = true ↔ pane ∈ node.paneIds := by
  induction node with
  | leaf id => rw [containsPane, beq_iff_eq, paneIds, List.mem_singleton, eq_comm]
  | split dir ratio first second ihFirst ihSecond => simp [containsPane, paneIds, ihFirst, ihSecond]

theorem firstPane_mem (node : LayoutNode Ratio) : node.firstPane ∈ node.paneIds := by
  induction node with
  | leaf id => exact List.mem_singleton_self id
  | split dir ratio first second ihFirst ihSecond => exact List.mem_append_left _ ihFirst

/-- The panes of a tree without one are the others. -/
theorem without_paneIds (node : LayoutNode Ratio) (pane : PaneId) :
    ((node.without pane).elim [] paneIds) = node.paneIds.filter (· ≠ pane) := by
  induction node with
  | leaf id =>
    by_cases same : id = pane <;> simp [without, paneIds, same]
  | split dir ratio first second ihFirst ihSecond =>
    rw [paneIds, List.filter_append, ← ihFirst, ← ihSecond, without]
    cases first.without pane <;> cases second.without pane <;> simp [paneIds]

theorem without_none (gone : node.without pane = none) : ∀ id ∈ node.paneIds, id = pane := by
  have left := without_paneIds node pane
  rw [gone] at left
  intro id member
  by_contra other
  have kept : id ∈ node.paneIds.filter (· ≠ pane) := List.mem_filter.mpr ⟨member, by simpa using other⟩
  rw [← left] at kept
  exact (List.not_mem_nil kept).elim

theorem without_some {rest : LayoutNode Ratio} (kept : node.without pane = some rest) :
    rest.paneIds = node.paneIds.filter (· ≠ pane) := by
  have left := without_paneIds node pane
  rw [kept] at left
  exact left

theorem splitInPlace_absent (half : Ratio) (dir : SplitDir) (pane : PaneId) (absent : target ∉ node.paneIds) :
    node.splitInPlace half target dir pane = (false, node) := by
  induction node with
  | leaf id =>
    have other : id ≠ target := fun same => absent (same ▸ List.mem_singleton_self id)
    exact if_neg other
  | split d ratio first second ihFirst ihSecond =>
    rw [paneIds, List.mem_append, not_or] at absent
    rw [splitInPlace, ihFirst absent.1, ihSecond absent.2]
    rfl

/-- Splitting a leaf of the tree adds one pane. -/
theorem splitInPlace_perm (half : Ratio) (dir : SplitDir) (pane : PaneId) (member : target ∈ node.paneIds) :
    (node.splitInPlace half target dir pane).1 = true ∧
      (node.splitInPlace half target dir pane).2.paneIds.Perm (pane :: node.paneIds) := by
  induction node with
  | leaf id =>
    obtain rfl := List.mem_singleton.mp member
    rw [splitInPlace, if_pos rfl]
    exact ⟨rfl, List.Perm.swap ..⟩
  | split d ratio first second ihFirst ihSecond =>
    rw [splitInPlace]
    by_cases left : target ∈ first.paneIds
    · obtain ⟨found, perm⟩ := ihFirst left
      generalize first.splitInPlace half target dir pane = result at found perm ⊢
      obtain ⟨split, grown⟩ := result
      obtain rfl : split = true := found
      exact ⟨rfl, perm.append_right second.paneIds⟩
    · obtain ⟨found, perm⟩ := ihSecond ((List.mem_append.mp member).resolve_left left)
      rw [splitInPlace_absent half dir pane left]
      exact ⟨found, (perm.append_left first.paneIds).trans List.perm_middle⟩

end Uniterm.Model.Workspace.LayoutNode
