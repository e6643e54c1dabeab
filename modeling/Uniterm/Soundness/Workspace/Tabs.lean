import Uniterm.Soundness.Workspace.Trees

/-! # Tabs and the panes they house

No pane is in two tabs, every live pane is in one, and a tab's active and zoomed panes are its own. The
rules below follow this through what operations do to the list of tabs: a tab is added, a pane is added
to a tab, or a pane leaves its tab, which goes with its last pane.
-/

namespace Uniterm.Model.Workspace

open ToMathlib

abbrev Win.panes (tab : Win) : List PaneId := tab.layout.paneIds

/-- All that the stacks do not use of a tab. -/
def Win.place (tab : Win) : ProjectId × LayoutNode Unit × PaneId × Option PaneId :=
  (tab.project, tab.layout, tab.active, tab.zoomed)

/-- A tab without a pane, unless it was its last. -/
def Win.leave (pane : PaneId) (tab : Win) : Option Win :=
  if pane ∈ tab.panes then (tab.layout.without pane).map (Server.keepTab pane · tab) else some tab

/-- The tabs house exactly the live panes. -/
structure Housed (windows : List Win) (panes : Finset PaneId) : Prop where
  distinct : (windows.flatMap Win.panes).Nodup
  live : ∀ pane, pane ∈ panes ↔ ∃ tab ∈ windows, pane ∈ tab.panes
  active : ∀ tab ∈ windows, tab.active ∈ tab.panes
  zoomed : ∀ tab ∈ windows, ∀ pane ∈ tab.zoomed, pane ∈ tab.panes

variable {windows : List Win} {panes : Finset PaneId} {pane : PaneId} {tab : Win} {i : ℕ}

section Leaving

theorem leave_of_not_mem (absent : pane ∉ tab.panes) : tab.leave pane = some tab := if_neg absent

theorem filterMap_leave_absent (absent : ∀ tab ∈ windows, pane ∉ tab.panes) :
    windows.filterMap (Win.leave pane) = windows := by
  induction windows with
  | nil => rfl
  | cons tab windows ih =>
    rw [List.filterMap_cons, leave_of_not_mem (absent tab List.mem_cons_self)]
    exact congrArg (tab :: ·) (ih fun other member => absent other (.tail _ member))

/-- Only the tab that has the pane changes when it leaves. -/
theorem filterMap_leave (distinct : (windows.flatMap Win.panes).Nodup) (read : windows[i]? = some tab)
    (member : pane ∈ tab.panes) :
    windows.filterMap (Win.leave pane) = match tab.layout.without pane with
      | some layout => windows.modify i (Server.keepTab pane layout)
      | none => windows.eraseIdx i := by
  obtain ⟨before, after, rfl, rfl⟩ := exists_cut read
  rw [List.flatMap_append, List.flatMap_cons] at distinct
  obtain ⟨_, later, apart⟩ := List.nodup_append'.mp distinct
  obtain ⟨_, _, apart'⟩ := List.nodup_append'.mp later
  have absentBefore : ∀ other ∈ before, pane ∉ other.panes := fun other inside also =>
    apart (List.mem_flatMap.mpr ⟨other, inside, also⟩) (List.mem_append_left _ member)
  have absentAfter : ∀ other ∈ after, pane ∉ other.panes := fun other inside also =>
    apart' member (List.mem_flatMap.mpr ⟨other, inside, also⟩)
  rw [List.filterMap_append, List.filterMap_cons, filterMap_leave_absent absentBefore,
    filterMap_leave_absent absentAfter, Win.leave, if_pos member]
  cases tab.layout.without pane with
  | none => exact (eraseIdx_cut before after).symm
  | some layout => exact (modify_cut _ before after).symm

theorem leave_panes {left : Win} (leaves : tab.leave pane = some left) :
    left.panes = tab.panes.filter (· ≠ pane) ∧ left.project = tab.project ∧
      left.stackParent = tab.stackParent := by
  unfold Win.leave at leaves
  split at leaves
  · obtain ⟨layout, kept, rfl⟩ := Option.map_eq_some_iff.mp leaves
    exact ⟨LayoutNode.without_some kept, rfl, rfl⟩
  · next absent =>
    cases leaves
    refine ⟨(List.filter_eq_self.mpr fun other member => ?_).symm, rfl, rfl⟩
    exact decide_eq_true fun same => absent (same ▸ member)

theorem leave_isSome {other : PaneId} (member : other ∈ tab.panes) (different : other ≠ pane) :
    ∃ left, tab.leave pane = some left := by
  unfold Win.leave
  split
  · cases kept : tab.layout.without pane with
    | none => exact absurd (LayoutNode.without_none kept other member) different
    | some layout => exact ⟨_, rfl⟩
  · exact ⟨tab, rfl⟩

private theorem flatMap_leave (windows : List Win) (pane : PaneId) :
    (windows.filterMap (Win.leave pane)).flatMap Win.panes =
      (windows.flatMap Win.panes).filter (· ≠ pane) := by
  induction windows with
  | nil => rfl
  | cons tab windows ih =>
    rw [List.flatMap_cons, List.filter_append, ← ih, List.filterMap_cons]
    cases leaves : tab.leave pane with
    | none =>
      have gone : tab.panes.filter (· ≠ pane) = [] := by
        refine List.filter_eq_nil_iff.mpr fun other member keeps => ?_
        obtain ⟨left, stays⟩ := leave_isSome member (by simpa using keeps)
        rw [leaves] at stays
        cases stays
      rw [gone]
      rfl
    | some left => rw [List.flatMap_cons, (leave_panes leaves).1]

end Leaving

section Housed

theorem Housed.unique (housed : Housed windows panes) {other : Win} (member : tab ∈ windows)
    (also : other ∈ windows) (inside : pane ∈ tab.panes) (shared : pane ∈ other.panes) : tab = other := by
  obtain ⟨i, read⟩ := List.mem_iff_getElem?.mp member
  obtain ⟨j, read'⟩ := List.mem_iff_getElem?.mp also
  have same := index_unique housed.distinct read read' inside shared
  subst same
  exact Option.some.inj (read.symm.trans read')

theorem Housed.panes_nodup (housed : Housed windows panes) (member : tab ∈ windows) : tab.panes.Nodup :=
  (List.nodup_flatMap.mp housed.distinct).1 tab member

theorem Housed.perm (housed : Housed windows panes) {reordered : List Win}
    (perm : reordered.Perm windows) : Housed reordered panes where
  distinct := (perm.flatMap_right Win.panes).nodup_iff.mpr housed.distinct
  live pane := by
    rw [housed.live]
    simp only [perm.mem_iff]
  active tab member := housed.active tab (perm.mem_iff.mp member)
  zoomed tab member := housed.zoomed tab (perm.mem_iff.mp member)

/-- The stacks play no part. -/
theorem Housed.congr (housed : Housed windows panes) {other : List Win}
    (same : other.map Win.place = windows.map Win.place) : Housed other panes := by
  have placed : ∀ tab ∈ other, ∃ old ∈ windows, old.place = tab.place := by
    intro tab member
    have image : tab.place ∈ windows.map Win.place := same ▸ List.mem_map_of_mem member
    obtain ⟨old, inside, equal⟩ := List.mem_map.mp image
    exact ⟨old, inside, equal⟩
  have back : ∀ tab ∈ windows, ∃ new ∈ other, new.place = tab.place := by
    intro tab member
    have image : tab.place ∈ other.map Win.place := same ▸ List.mem_map_of_mem member
    obtain ⟨old, inside, equal⟩ := List.mem_map.mp image
    exact ⟨old, inside, equal⟩
  have layout : ∀ {a b : Win}, a.place = b.place → a.panes = b.panes := fun equal =>
    congrArg (fun place => place.2.1.paneIds) equal
  refine ⟨?_, fun pane => ?_, fun tab member => ?_, fun tab member pane zoomed => ?_⟩
  · have flat : ∀ xs : List Win, xs.flatMap Win.panes = (xs.map Win.place).flatMap (·.2.1.paneIds) := by
      intro xs
      rw [List.flatMap_map]
      rfl
    rw [flat, same, ← flat]
    exact housed.distinct
  · rw [housed.live]
    constructor
    · rintro ⟨tab, member, inside⟩
      obtain ⟨new, there, equal⟩ := back tab member
      exact ⟨new, there, layout equal ▸ inside⟩
    · rintro ⟨tab, member, inside⟩
      obtain ⟨old, there, equal⟩ := placed tab member
      exact ⟨old, there, layout equal ▸ inside⟩
  · obtain ⟨old, there, equal⟩ := placed tab member
    have own := housed.active old there
    rw [layout equal] at own
    exact (congrArg (·.2.2.1) equal : old.active = tab.active) ▸ own
  · obtain ⟨old, there, equal⟩ := placed tab member
    have own := housed.zoomed old there pane ((congrArg (·.2.2.2) equal : old.zoomed = tab.zoomed) ▸ zoomed)
    exact layout equal ▸ own

/-- A tab of its own for a new pane. -/
theorem Housed.push (housed : Housed windows panes) (fresh : pane ∉ panes) (project : ProjectId) :
    Housed (windows ++ [{ project := project, layout := .leaf pane, active := pane }])
      (insert pane panes) where
  distinct := by
    rw [List.flatMap_append]
    refine List.nodup_append'.mpr ⟨housed.distinct, by simp [Win.panes, LayoutNode.paneIds], ?_⟩
    intro other inside new
    obtain ⟨tab, member, own⟩ := List.mem_flatMap.mp inside
    have same : other = pane := by simpa [Win.panes, LayoutNode.paneIds] using new
    exact fresh ((housed.live pane).mpr ⟨tab, member, same ▸ own⟩)
  live other := by
    rw [Finset.mem_insert, housed.live]
    simp only [List.mem_append, List.mem_singleton, or_and_right, exists_or, exists_eq_left]
    rw [or_comm]
    refine or_congr_right ?_
    exact List.mem_singleton.symm
  active tab member := by
    rcases List.mem_append.mp member with old | new
    · exact housed.active tab old
    · rw [List.mem_singleton.mp new]
      exact List.mem_singleton_self pane
  zoomed tab member other zoomed := by
    rcases List.mem_append.mp member with old | new
    · exact housed.zoomed tab old other zoomed
    · rw [List.mem_singleton.mp new] at zoomed
      cases zoomed

theorem keepTab_leave {left : Win} (leaves : tab.leave pane = some left)
    (active : tab.active ∈ tab.panes) (zoomed : ∀ pane ∈ tab.zoomed, pane ∈ tab.panes) :
    left.active ∈ left.panes ∧ ∀ pane ∈ left.zoomed, pane ∈ left.panes := by
  have kept := (leave_panes leaves).1
  unfold Win.leave at leaves
  split at leaves
  · obtain ⟨layout, without, rfl⟩ := Option.map_eq_some_iff.mp leaves
    simp only [Server.keepTab] at kept ⊢
    constructor
    · split
      · exact layout.firstPane_mem
      · next other =>
        show tab.active ∈ layout.paneIds
        rw [LayoutNode.without_some without]
        exact List.mem_filter.mpr ⟨active, by simpa using other⟩
    · intro known shown
      split at shown
      · cases shown
      · next other =>
        show known ∈ layout.paneIds
        rw [LayoutNode.without_some without]
        refine List.mem_filter.mpr ⟨zoomed known shown, ?_⟩
        refine decide_eq_true fun same => other ?_
        rw [← same]
        exact shown
  · cases leaves
    exact ⟨active, zoomed⟩

/-- A pane leaves its tab and dies. -/
theorem Housed.leave (housed : Housed windows panes) (pane : PaneId) :
    Housed (windows.filterMap (Win.leave pane)) (panes.erase pane) where
  distinct := by
    rw [flatMap_leave]
    exact housed.distinct.filter _
  live other := by
    have flat : ∀ xs : List Win, (∃ tab ∈ xs, other ∈ tab.panes) ↔ other ∈ xs.flatMap Win.panes :=
      fun xs => List.mem_flatMap.symm
    rw [flat, flatMap_leave, List.mem_filter, ← flat, ← housed.live, Finset.mem_erase, decide_eq_true_eq,
      and_comm]
  active tab member := by
    obtain ⟨old, inside, leaves⟩ := List.mem_filterMap.mp member
    exact (keepTab_leave leaves (housed.active old inside) (housed.zoomed old inside)).1
  zoomed tab member := by
    obtain ⟨old, inside, leaves⟩ := List.mem_filterMap.mp member
    exact (keepTab_leave leaves (housed.active old inside) (housed.zoomed old inside)).2

/-- A tab takes in a new pane. -/
theorem Housed.grow (housed : Housed windows panes) (read : windows[i]? = some tab) (fresh : pane ∉ panes)
    (f : Win → Win) (grown : (f tab).panes.Perm (pane :: tab.panes)) (active : (f tab).active ∈ (f tab).panes)
    (zoomed : ∀ pane ∈ (f tab).zoomed, pane ∈ (f tab).panes) :
    Housed (windows.modify i f) (insert pane panes) := by
  obtain ⟨before, after, rfl, rfl⟩ := exists_cut read
  rw [modify_cut]
  have flat : ((before ++ f tab :: after).flatMap Win.panes).Perm
      (pane :: (before ++ tab :: after).flatMap Win.panes) := by
    simp only [List.flatMap_append, List.flatMap_cons]
    refine ((grown.append_right _).append_left _).trans ?_
    exact List.perm_middle
  refine ⟨?_, fun other => ?_, fun other member => ?_, fun other member => ?_⟩
  · refine flat.nodup_iff.mpr (List.nodup_cons.mpr ⟨fun inside => fresh ?_, housed.distinct⟩)
    exact (housed.live pane).mpr (List.mem_flatMap.mp inside)
  · rw [Finset.mem_insert, housed.live, ← List.mem_flatMap, ← List.mem_flatMap, flat.mem_iff,
      List.mem_cons]
  · rcases List.mem_append.mp member with inside | inside
    · exact housed.active other (List.mem_append_left _ inside)
    · rcases List.mem_cons.mp inside with rfl | inside
      · exact active
      · exact housed.active other (List.mem_append_right _ (.tail _ inside))
  · rcases List.mem_append.mp member with inside | inside
    · exact housed.zoomed other (List.mem_append_left _ inside)
    · rcases List.mem_cons.mp inside with rfl | inside
      · exact zoomed
      · exact housed.zoomed other (List.mem_append_right _ (.tail _ inside))

theorem Housed.nodup (housed : Housed windows panes) : windows.Nodup := by
  refine List.nodup_iff_injective_getElem.mpr fun i j same => ?_
  have read := List.getElem?_eq_getElem i.isLt
  have other := List.getElem?_eq_getElem j.isLt
  dsimp only at same
  rw [← same] at other
  have own := housed.active _ (List.getElem_mem i.isLt)
  exact Fin.ext (index_unique housed.distinct read other own own)

end Housed

end Uniterm.Model.Workspace
