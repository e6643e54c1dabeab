import Mathlib.Logic.Function.Basic
import Mathlib.Logic.Relation
import Uniterm.Soundness.Workspace.Tabs

/-! # Stacks of tabs

A tab may be anchored to a pane of another tab of its project. The anchors form a forest when the tabs have
depths that fall along them. Panes that anchors and tabs join belong to one stack.
-/

namespace Uniterm.Model.Workspace

open ToMathlib Relation

/-- All that the stacks read of a tab. -/
def Win.link (tab : Win) : (ProjectId × LayoutNode Unit × PaneId × Option PaneId) × Option PaneId :=
  (tab.place, tab.stackParent)

/-- A tab is deeper than the pane it is anchored to, and all its panes are as deep. -/
structure Ranked (depth : PaneId → ℕ) (windows : List Win) : Prop where
  level : ∀ tab ∈ windows, ∀ pane ∈ tab.panes, depth pane = depth tab.active
  deeper : ∀ tab ∈ windows, ∀ anchor ∈ tab.stackParent, depth anchor < depth tab.active

/-- The anchors are panes of tabs of the same project, without cycles. -/
structure Forest (windows : List Win) : Prop where
  anchored : ∀ tab ∈ windows, ∀ anchor ∈ tab.stackParent,
    ∃ other ∈ windows, other.project = tab.project ∧ anchor ∈ other.panes
  ranked : ∃ depth, Ranked depth windows

/-- Two panes share a tab, or the tab of one is anchored to the other. -/
inductive Linked (windows : List Win) : PaneId → PaneId → Prop where
  | beside {tab : Win} {first second : PaneId} : tab ∈ windows → first ∈ tab.panes → second ∈ tab.panes →
      Linked windows first second
  | below {tab : Win} {first anchor : PaneId} : tab ∈ windows → first ∈ tab.panes → tab.stackParent = some anchor →
      Linked windows first anchor

/-- Panes of one stack. -/
abbrev Connected (windows : List Win) : PaneId → PaneId → Prop := EqvGen (Linked windows)

variable {windows other : List Win} {depth : PaneId → ℕ} {pane : PaneId} {tab : Win} {i : ℕ}

section Links

private theorem link_panes {a b : Win} (same : a.link = b.link) : a.panes = b.panes :=
  congrArg (fun link => link.1.2.1.paneIds) same

private theorem link_project {a b : Win} (same : a.link = b.link) : a.project = b.project := congrArg (·.1.1) same

private theorem link_active {a b : Win} (same : a.link = b.link) : a.active = b.active := congrArg (·.1.2.2.1) same

private theorem link_stackParent {a b : Win} (same : a.link = b.link) : a.stackParent = b.stackParent :=
  congrArg (·.2) same

/-- Both lists hold the same tabs, as far as the stacks go. -/
def SameLinks (windows other : List Win) : Prop := ∀ link, link ∈ windows.map Win.link ↔ link ∈ other.map Win.link

theorem SameLinks.symm (same : SameLinks windows other) : SameLinks other windows := fun link => (same link).symm

theorem SameLinks.of_eq (same : windows.map Win.link = other.map Win.link) : SameLinks windows other :=
  fun link => by rw [same]

theorem SameLinks.of_perm (perm : windows.Perm other) : SameLinks windows other :=
  fun _ => (perm.map Win.link).mem_iff

theorem SameLinks.exists (same : SameLinks windows other) (member : tab ∈ windows) :
    ∃ known ∈ other, known.link = tab.link :=
  List.mem_map.mp ((same tab.link).mp (List.mem_map_of_mem member))

theorem SameLinks.ranked (same : SameLinks windows other) (ranked : Ranked depth windows) :
    Ranked depth other where
  level tab member pane inside := by
    obtain ⟨known, there, equal⟩ := same.symm.exists member
    rw [← link_active equal]
    exact ranked.level known there pane (link_panes equal ▸ inside)
  deeper tab member anchor above := by
    obtain ⟨known, there, equal⟩ := same.symm.exists member
    rw [← link_active equal]
    exact ranked.deeper known there anchor (link_stackParent equal ▸ above)

theorem SameLinks.forest (same : SameLinks windows other) (forest : Forest windows) : Forest other where
  anchored tab member anchor above := by
    obtain ⟨known, there, equal⟩ := same.symm.exists member
    obtain ⟨parent, inside, project, owns⟩ := forest.anchored known there anchor (link_stackParent equal ▸ above)
    obtain ⟨now, remains, also⟩ := same.exists inside
    refine ⟨now, remains, ?_, link_panes also ▸ owns⟩
    rw [link_project also, project, link_project equal]
  ranked := forest.ranked.imp fun _ => same.ranked

theorem SameLinks.linked (same : SameLinks windows other) {first second : PaneId}
    (linked : Linked windows first second) : Linked other first second := by
  cases linked with
  | beside member left right =>
    obtain ⟨known, there, equal⟩ := same.exists member
    exact .beside there (link_panes equal ▸ left) (link_panes equal ▸ right)
  | below member left above =>
    obtain ⟨known, there, equal⟩ := same.exists member
    exact .below there (link_panes equal ▸ left) ((link_stackParent equal).trans above)

end Links

section Changes

/-- A tab without an anchor is added for a pane that no tab has. -/
theorem Forest.push (forest : Forest windows) (project : ProjectId) (pane : PaneId) :
    Forest (windows ++ [{ project := project, layout := .leaf pane, active := pane }]) where
  anchored tab member anchor above := by
    rcases List.mem_append.mp member with old | new
    · obtain ⟨parent, inside, rest⟩ := forest.anchored tab old anchor above
      exact ⟨parent, List.mem_append_left _ inside, rest⟩
    · rw [List.mem_singleton.mp new] at above
      cases above
  ranked := by
    obtain ⟨depth, ranked⟩ := forest.ranked
    refine ⟨depth, fun tab member pane inside => ?_, fun tab member anchor above => ?_⟩
    · rcases List.mem_append.mp member with old | new
      · exact ranked.level tab old pane inside
      · rw [List.mem_singleton.mp new] at inside ⊢
        rw [List.mem_singleton.mp inside]
    · rcases List.mem_append.mp member with old | new
      · exact ranked.deeper tab old anchor above
      · rw [List.mem_singleton.mp new] at above
        cases above

theorem linked_push {first second : PaneId} (linked : Linked windows first second) (new : Win) :
    Linked (windows ++ [new]) first second := by
  cases linked with
  | beside member left right => exact .beside (List.mem_append_left _ member) left right
  | below member left above => exact .below (List.mem_append_left _ member) left above

/-- What a tab is turned into when it takes in a pane. -/
structure Grows (pane : PaneId) (tab grown : Win) : Prop where
  panes : grown.panes.Perm (pane :: tab.panes)
  active : grown.active ∈ grown.panes
  project : grown.project = tab.project
  stackParent : grown.stackParent = tab.stackParent

theorem mem_modify_cases {f : Win → Win} (read : windows[i]? = some tab) {member : Win} :
    member ∈ windows.modify i f → member = f tab ∨ member ∈ windows := by
  obtain ⟨before, after, rfl, rfl⟩ := exists_cut read
  rw [modify_cut]
  intro inside
  rcases List.mem_append.mp inside with first | later
  · exact .inr (List.mem_append_left _ first)
  · rcases List.mem_cons.mp later with here | last
    · exact .inl here
    · exact .inr (List.mem_append_right _ (.tail _ last))

/-- A tab that is changed goes on as what it is changed to. -/
theorem exists_modify {f : Win → Win} (read : windows[i]? = some tab) {known : Win} (member : known ∈ windows) :
    known = tab ∧ f tab ∈ windows.modify i f ∨ known ∈ windows.modify i f := by
  obtain ⟨before, after, rfl, rfl⟩ := exists_cut read
  rw [modify_cut]
  rcases List.mem_append.mp member with first | later
  · exact .inr (List.mem_append_left _ first)
  · rcases List.mem_cons.mp later with here | last
    · exact .inl ⟨here, List.mem_append_right _ List.mem_cons_self⟩
    · exact .inr (List.mem_append_right _ (.tail _ last))

/-- A tab takes in a pane that no tab has. -/
theorem Forest.grow (forest : Forest windows) (read : windows[i]? = some tab) {f : Win → Win}
    (grows : Grows pane tab (f tab)) (fresh : ∀ tab ∈ windows, pane ∉ tab.panes)
    (own : ∀ tab ∈ windows, tab.active ∈ tab.panes) : Forest (windows.modify i f) where
  anchored known member anchor above := by
    have old : ∃ old ∈ windows, old.project = known.project ∧ old.stackParent = known.stackParent := by
      rcases mem_modify_cases read member with rfl | inside
      · exact ⟨tab, List.mem_of_getElem? read, grows.project.symm, grows.stackParent.symm⟩
      · exact ⟨known, inside, rfl, rfl⟩
    obtain ⟨old, inside, project, stackParent⟩ := old
    obtain ⟨parent, there, same, owns⟩ := forest.anchored old inside anchor (stackParent ▸ above)
    rcases exists_modify (f := f) read there with ⟨rfl, remains⟩ | remains
    · exact ⟨_, remains, grows.project.trans (same.trans project), grows.panes.mem_iff.mpr (.tail _ owns)⟩
    · exact ⟨parent, remains, same.trans project, owns⟩
  ranked := by
    obtain ⟨depth, ranked⟩ := forest.ranked
    have member := List.mem_of_getElem? read
    have anchorOld : ∀ tab ∈ windows, ∀ anchor ∈ tab.stackParent, anchor ≠ pane := by
      rintro tab member anchor above rfl
      obtain ⟨parent, there, _, owns⟩ := forest.anchored tab member anchor above
      exact fresh parent there owns
    have apart : ∀ tab ∈ windows, ∀ other ∈ tab.panes, other ≠ pane := by
      rintro tab member other inside rfl
      exact fresh tab member inside
    -- the pane is as deep as the tab it joins
    refine ⟨Function.update depth pane (depth tab.active), fun known inside other shown => ?_,
      fun known inside anchor above => ?_⟩
    · have grown : ∀ other ∈ (f tab).panes,
          Function.update depth pane (depth tab.active) other = depth tab.active := by
        intro other shown
        rcases List.mem_cons.mp (grows.panes.mem_iff.mp shown) with rfl | old
        · exact Function.update_self ..
        · rw [Function.update_of_ne (apart tab member _ old)]
          exact ranked.level tab member other old
      rcases mem_modify_cases read inside with rfl | inside
      · rw [grown other shown, grown _ grows.active]
      · rw [Function.update_of_ne (apart known inside other shown),
          Function.update_of_ne (apart known inside _ (own known inside))]
        exact ranked.level known inside other shown
    · rcases mem_modify_cases read inside with rfl | inside
      · have above : anchor ∈ tab.stackParent := grows.stackParent ▸ above
        rw [Function.update_of_ne (anchorOld tab member anchor above)]
        have level : Function.update depth pane (depth tab.active) (f tab).active = depth tab.active := by
          rcases List.mem_cons.mp (grows.panes.mem_iff.mp grows.active) with same | old
          · rw [same, Function.update_self]
          · rw [Function.update_of_ne (apart tab member _ old)]
            exact ranked.level tab member _ old
        rw [level]
        exact ranked.deeper tab member anchor above
      · rw [Function.update_of_ne (anchorOld known inside anchor above),
          Function.update_of_ne (apart known inside _ (own known inside))]
        exact ranked.deeper known inside anchor above

theorem linked_grow (read : windows[i]? = some tab) {f : Win → Win} (grows : Grows pane tab (f tab))
    {first second : PaneId} (linked : Linked windows first second) :
    Linked (windows.modify i f) first second := by
  cases linked with
  | beside member left right =>
    rcases exists_modify (f := f) read member with ⟨rfl, remains⟩ | remains
    · exact .beside remains (grows.panes.mem_iff.mpr (.tail _ left)) (grows.panes.mem_iff.mpr (.tail _ right))
    · exact .beside remains left right
  | below member left above =>
    rcases exists_modify (f := f) read member with ⟨rfl, remains⟩ | remains
    · exact .below remains (grows.panes.mem_iff.mpr (.tail _ left)) (grows.stackParent.trans above)
    · exact .below remains left above

/-- A pane that no tab is anchored to leaves its tab. -/
theorem Forest.leave (forest : Forest windows) (free : ∀ tab ∈ windows, tab.stackParent ≠ some pane)
    (own : ∀ tab ∈ windows, tab.active ∈ tab.panes)
    (zoomed : ∀ tab ∈ windows, ∀ pane ∈ tab.zoomed, pane ∈ tab.panes) :
    Forest (windows.filterMap (Win.leave pane)) where
  anchored left member anchor above := by
    obtain ⟨tab, inside, leaves⟩ := List.mem_filterMap.mp member
    obtain ⟨_, project, stackParent⟩ := leave_panes leaves
    have above : anchor ∈ tab.stackParent := stackParent ▸ above
    obtain ⟨parent, there, same, owns⟩ := forest.anchored tab inside anchor above
    have different : anchor ≠ pane := fun equal => free tab inside (equal ▸ above)
    obtain ⟨remaining, remains⟩ := leave_isSome owns different
    obtain ⟨panes, sameProject, _⟩ := leave_panes remains
    refine ⟨remaining, List.mem_filterMap.mpr ⟨parent, there, remains⟩, ?_, ?_⟩
    · rw [sameProject, same, project]
    · rw [panes]
      exact List.mem_filter.mpr ⟨owns, decide_eq_true different⟩
  ranked := by
    obtain ⟨depth, ranked⟩ := forest.ranked
    have level : ∀ tab ∈ windows, ∀ left, tab.leave pane = some left →
        depth left.active = depth tab.active := by
      intro tab inside left leaves
      have active := (keepTab_leave leaves (own tab inside) (zoomed tab inside)).1
      rw [(leave_panes leaves).1] at active
      exact ranked.level tab inside _ (List.mem_filter.mp active).1
    refine ⟨depth, fun left member other shown => ?_, fun left member anchor above => ?_⟩
    · obtain ⟨tab, inside, leaves⟩ := List.mem_filterMap.mp member
      rw [(leave_panes leaves).1] at shown
      rw [level tab inside left leaves]
      exact ranked.level tab inside other (List.mem_filter.mp shown).1
    · obtain ⟨tab, inside, leaves⟩ := List.mem_filterMap.mp member
      rw [level tab inside left leaves]
      exact ranked.deeper tab inside anchor ((leave_panes leaves).2.2 ▸ above)

end Changes

end Uniterm.Model.Workspace
