import Uniterm.Soundness.Workspace.Reordering

/-! # Closing panes, tabs and projects

A pane that closes leaves its tab, the tab goes with its last pane and the project with its last tab, and
what is selected stays selected while it is there. Closing the panes of a removed project one by one leaves
the tabs of the others.
-/

namespace Uniterm.Model.Workspace

open ToMathlib Machine

namespace Server

variable {s t : Server} {pane : PaneId} {focus : Option PaneId} {project : ProjectId} {i : ℕ} {tab : Win}

section Discarding

private theorem reselect_lt (s : Server) (focus : Option PaneId) (removed : ℕ) (project : ProjectId)
    (some : s.windows ≠ []) : s.reselect focus removed project < s.windows.length := by
  have clamp : ∀ active count : ℕ, 0 < count → (if active ≥ count then count - 1 else active) < count := by
    intro active count positive
    split <;> omega
  exact clamp _ _ (List.length_pos_iff.mpr some)

/-- A selected tab that stays is selected again. -/
theorem reselect_stays {windows : List Win} {removed : ℕ} (different : removed ≠ s.activeWindow)
    (erased : s.windows = windows.eraseIdx removed) (read : windows[s.activeWindow]? = some tab) :
    s.windows[s.reselect focus removed project]? = some tab := by
  have index : s.windows[if removed < s.activeWindow then s.activeWindow - 1 else s.activeWindow]? = some tab := by
    rw [erased, List.getElem?_eraseIdx]
    split
    · next less => rw [if_neg (by omega), Nat.sub_add_cancel (by omega), read]
    · rw [if_pos (by omega), read]
  unfold reselect
  rw [if_neg different]
  dsimp only
  have bound := (List.getElem?_eq_some_iff.mp index).1
  rwa [if_neg (Nat.not_le.mpr bound)]

/-- What taking a pane out of the tabs does. -/
structure Vacates (s : Server) (pane : PaneId) (result : Server × Option (ℕ × ProjectId)) : Prop where
  server : result.1 = { s with windows := s.windows.filterMap (Win.leave pane) }
  kept : result.2 = none → ∀ (i : ℕ) (tab : Win), s.windows[i]? = some tab →
    ∃ left, result.1.windows[i]? = some left ∧ tab.leave pane = some left
  removed : ∀ index project, result.2 = some (index, project) →
    (∃ tab, s.windows[index]? = some tab ∧ pane ∈ tab.panes) ∧ result.1.windows = s.windows.eraseIdx index

private theorem vacates (distinct : (s.windows.flatMap Win.panes).Nodup) (pane : PaneId) : Vacates s pane
    (s.vacate pane) := by
  unfold vacate
  cases found : s.position pane with
  | none =>
    have absent := position_none found
    refine ⟨?_, fun _ i tab read => ⟨tab, read, ?_⟩, fun _ _ same => ?_⟩
    · rw [filterMap_leave_absent absent]
    · exact leave_of_not_mem (absent tab (List.mem_of_getElem? read))
    · cases same
  | some index =>
    obtain ⟨tab, read, inside⟩ := position_some found
    have left := filterMap_leave distinct read inside
    simp only [read]
    cases kept : tab.layout.without pane with
    | some layout =>
      rw [kept] at left
      refine ⟨by rw [left], fun _ i other readOther => ?_, fun _ _ same => ?_⟩
      rotate_left
      · cases same
      show ∃ left, (s.windows.modify index (keepTab pane layout))[i]? = _ ∧ _
      by_cases same : index = i
      · subst same
        rw [read] at readOther
        cases readOther
        refine ⟨keepTab pane layout tab, by rw [List.getElem?_modify_eq, read]; rfl, ?_⟩
        rw [Win.leave, if_pos inside, kept]
        rfl
      · refine ⟨other, by rw [List.getElem?_modify_ne _ _ same, readOther], leave_of_not_mem fun also => same ?_⟩
        exact index_unique distinct read readOther inside also
    | none =>
      rw [kept] at left
      refine ⟨by rw [left], fun same => ?_, fun _ _ same => ?_⟩
      · cases same
      cases same
      exact ⟨⟨tab, read, inside⟩, rfl⟩

/-- What closing a pane does once no tab is anchored to it. -/
structure Discards (s : Server) (pane : PaneId) (t : Server) : Prop where
  windows : t.windows = s.windows.filterMap (Win.leave pane)
  panes : t.panes = s.panes.erase pane
  ids : t.ids = (s.retire pane).ids
  nextPane : t.nextPane = s.nextPane
  nextProject : t.nextProject = s.nextProject
  stops : t.windows = [] → t.running = false
  runs : t.windows ≠ [] → t.running = s.running
  selected : t.windows ≠ [] → ∃ tab, t.windows[t.activeWindow]? = some tab ∧ tab.project = t.activeProject
  stays : ∀ tab, s.windows[s.activeWindow]? = some tab → pane ∉ tab.panes →
    t.windows[t.activeWindow]? = some tab

private theorem retire_eq (s : Server) (pane : PaneId) :
    s.retire pane = { s with panes := s.panes.erase pane, projects := (s.retire pane).projects } := by
  unfold retire
  dsimp only
  split <;> rfl

private theorem discard_discards (distinct : (s.windows.flatMap Win.panes).Nodup)
    (selected : ∃ tab, s.windows[s.activeWindow]? = some tab) (focus : Option PaneId) (pane : PaneId) :
    ∃ t, s.discard focus pane = some t ∧ Discards s pane t := by
  obtain ⟨current, readCurrent⟩ := selected
  have retired := retire_eq s pane
  have sameWindows : (s.retire pane).windows = s.windows := by rw [retired]
  have vacated := vacates (s := s.retire pane) (sameWindows ▸ distinct) pane
  unfold discard
  generalize (s.retire pane).vacate pane = result at vacated ⊢
  obtain ⟨after, removed⟩ := result
  obtain ⟨server, kept, gone⟩ := vacated
  dsimp only at server kept gone ⊢
  have windows : after.windows = s.windows.filterMap (Win.leave pane) := by rw [server, sameWindows]
  have panes : after.panes = s.panes.erase pane := by rw [server, retired]
  have ids : after.ids = (s.retire pane).ids := by
    rw [server]
    rfl
  have nextPane : after.nextPane = s.nextPane := by rw [server, retired]
  have nextProject : after.nextProject = s.nextProject := by rw [server, retired]
  have activeWindow : after.activeWindow = s.activeWindow := by rw [server, retired]
  have running : after.running = s.running := by rw [server, retired]
  by_cases empty : after.windows = []
  · rw [if_pos empty]
    refine ⟨_, rfl, windows, panes, ids, nextPane, nextProject, fun _ => rfl, fun some => absurd empty some,
      fun some => absurd empty some, fun tab read absent => ?_⟩
    have stays : tab ∈ after.windows := by
      rw [windows]
      exact List.mem_filterMap.mpr ⟨tab, List.mem_of_getElem? read, leave_of_not_mem absent⟩
    rw [empty] at stays
    cases stays
  rw [if_neg empty]
  -- where the selection goes, and that what is selected stays so
  obtain ⟨chosen, same, inRange, stays⟩ : ∃ chosen,
      after.refocus focus removed = { after with activeWindow := chosen } ∧ chosen < after.windows.length ∧
      ∀ tab, s.windows[s.activeWindow]? = some tab → pane ∉ tab.panes → after.windows[chosen]? = some tab := by
    cases removed with
    | none =>
      refine ⟨after.activeWindow, rfl, ?_, fun tab read absent => ?_⟩
      · obtain ⟨left, there, _⟩ := kept rfl s.activeWindow current (sameWindows ▸ readCurrent)
        rw [activeWindow]
        exact (List.getElem?_eq_some_iff.mp there).1
      · obtain ⟨left, there, leaves⟩ := kept rfl s.activeWindow tab (sameWindows ▸ read)
        rw [leave_of_not_mem absent] at leaves
        cases leaves
        rwa [activeWindow]
    | some pair =>
      obtain ⟨index, project⟩ := pair
      refine ⟨_, rfl, reselect_lt after focus index project empty, fun tab read absent => ?_⟩
      obtain ⟨⟨lost, readLost, inside⟩, erased⟩ := gone index project rfl
      rw [sameWindows] at readLost erased
      refine reselect_stays ?_ erased (activeWindow ▸ read)
      rw [activeWindow]
      rintro rfl
      rw [read] at readLost
      cases readLost
      exact absent inside
  rw [same]
  have readChosen := List.getElem?_eq_getElem inRange
  simp only [readChosen, Option.bind_eq_bind, Option.bind_some, Option.pure_def]
  refine ⟨_, rfl, windows, panes, (remember_ids _ _ _).trans ids, nextPane, nextProject,
    fun none => absurd none empty, fun _ => running, fun _ => ⟨_, readChosen, rfl⟩, stays⟩

end Discarding

section Closing

variable {other : PaneId}

private theorem find?_contains (housed : Housed s.windows s.panes) (member : tab ∈ s.windows)
    (inside : pane ∈ tab.panes) : s.windows.find? (·.layout.containsPane pane) = some tab := by
  cases found : s.windows.find? (·.layout.containsPane pane) with
  | none =>
    exact absurd (LayoutNode.containsPane_iff.mpr inside) (List.find?_eq_none.mp found tab member)
  | some known =>
    have also := LayoutNode.containsPane_iff.mp (List.find?_some found :)
    rw [housed.unique (List.mem_of_find?_eq_some found) member also inside]

/-- The project that goes with a pane: its only tab is the pane's, and there are others. -/
theorem emptyProject_some (gone : s.emptyProject pane = some project) :
    project ∈ s.ids ∧ ∃ tab ∈ s.windows, tab.project = project ∧ tab.panes = [pane] ∧
      ∀ other ∈ s.windows, other.project = project → other = tab := by
  unfold emptyProject at gone
  obtain ⟨named, guards⟩ := Option.filter_eq_some_iff.mp gone
  obtain ⟨tab, found, own⟩ := Option.map_eq_some_iff.mp named
  obtain ⟨found, alone⟩ := Option.filter_eq_some_iff.mp found
  have member := List.mem_of_find?_eq_some found
  have inside : pane ∈ tab.panes := LayoutNode.containsPane_iff.mp (List.find?_some found :)
  have alone : tab.panes.length = 1 := of_decide_eq_true alone
  obtain ⟨_, single, known⟩ := of_decide_eq_true guards
  obtain ⟨only, panes⟩ := List.length_eq_one_iff.mp alone
  obtain ⟨single, tabs⟩ := List.length_eq_one_iff.mp single
  have filtered : ∀ other, other ∈ s.windows → other.project = project → other = single := by
    intro other member own
    have inside : other ∈ s.windows.filter (·.project = project) :=
      List.mem_filter.mpr ⟨member, decide_eq_true own⟩
    rw [tabs] at inside
    exact List.mem_singleton.mp inside
  refine ⟨(hasProject_iff s project).mp known, tab, member, own, ?_, fun other inside also => ?_⟩
  · rw [panes] at inside
    rw [panes, List.mem_singleton.mp inside]
  · rw [filtered other inside also, filtered tab member own]

/-- A project stays when one of its tabs does, and goes when the last one goes. -/
theorem emptyProject_of (housed : Housed s.windows s.panes) (member : tab ∈ s.windows)
    (panes : tab.panes = [pane]) (only : ∀ other ∈ s.windows, other.project = tab.project → other = tab)
    (several : 1 < s.projects.length) (known : tab.project ∈ s.ids) :
    s.emptyProject pane = some tab.project := by
  have inside : pane ∈ tab.panes := panes ▸ List.mem_singleton_self pane
  have single : (s.windows.filter (·.project = tab.project)).length = 1 := by
    rw [eq_singleton_of_nodup (housed.nodup.filter _) (List.mem_filter.mpr ⟨member, by simp⟩) fun other inside =>
      only other (List.mem_filter.mp inside).1 (of_decide_eq_true (List.mem_filter.mp inside).2)]
    rfl
  have alone : tab.layout.paneIds.length = 1 := congrArg List.length panes
  unfold emptyProject
  rw [find?_contains housed member inside]
  simp [alone, several, single, (hasProject_iff s tab.project).mpr known]

private theorem retire_ids (s : Server) (pane : PaneId) :
    (s.retire pane).ids = s.ids.filter fun project => s.emptyProject pane ≠ some project := by
  unfold retire
  cases s.emptyProject pane with
  | none => simp [ids]
  | some gone =>
    simp only [ids, List.filter_map]
    congr 1
    refine List.filter_congr fun item _ => ?_
    simp [eq_comm]

/-- The hierarchy stays well formed when a pane that no tab is anchored to closes and a tab remains. -/
theorem Discards.wellFormed (discards : Discards s pane t) (wellFormed : WellFormed s)
    (some : t.windows ≠ []) : WellFormed t := by
  have windows := discards.windows
  have ids := discards.ids.trans (retire_ids s pane)
  have memIds : ∀ project, project ∈ t.ids ↔ project ∈ s.ids ∧ s.emptyProject pane ≠ Option.some project := by
    intro project
    rw [ids, List.mem_filter, decide_eq_true_eq]
  refine Placed.wellFormed ⟨?_, ?_, ?_, ?_, ?_, ?_⟩ (discards.selected some)
  · rw [windows, discards.panes]
    exact wellFormed.housed.leave pane
  · rw [discards.panes, discards.nextPane]
    exact fun other member => wellFormed.fresh other (Finset.mem_of_mem_erase member)
  · intro left member
    rw [windows] at member
    obtain ⟨tab, inside, leaves⟩ := List.mem_filterMap.mp member
    rw [(leave_panes leaves).2.1]
    refine (memIds _).mpr ⟨wellFormed.owned tab inside, fun gone => ?_⟩
    obtain ⟨_, lost, _, _, panes, only⟩ := emptyProject_some gone
    obtain rfl := only tab inside rfl
    -- its only pane would have left
    have active := (keepTab_leave leaves (wellFormed.housed.active tab inside)
      (wellFormed.housed.zoomed tab inside)).1
    rw [(leave_panes leaves).1, panes] at active
    simp at active
  · intro project member
    obtain ⟨known, stays⟩ := (memIds project).mp member
    obtain ⟨tab, inside, own⟩ := wellFormed.inhabited project known
    by_contra none
    -- every tab of the project has only the pane, so it is the only one
    have alone : ∀ tab ∈ s.windows, tab.project = project → tab.panes = [pane] := by
      intro tab inside own
      have all : ∀ other ∈ tab.panes, other = pane := by
        intro other member
        by_contra different
        obtain ⟨left, remains, same, _⟩ := leave_project inside own member different
        exact none ⟨left, windows ▸ remains, same⟩
      have active := wellFormed.housed.active tab inside
      exact eq_singleton_of_nodup (wellFormed.housed.panes_nodup inside) (all _ active ▸ active) all
    have only : ∀ other ∈ s.windows, other.project = tab.project → other = tab := by
      intro other also same
      have shared : pane ∈ other.panes := alone other also (same.trans own) ▸ List.mem_singleton_self pane
      exact wellFormed.housed.unique also inside shared (alone tab inside own ▸ List.mem_singleton_self pane)
    by_cases several : 1 < s.projects.length
    · refine stays ?_
      rw [← own]
      exact emptyProject_of wellFormed.housed inside (alone tab inside own) only several (own ▸ known)
    · -- all tabs are of the one project
      obtain ⟨left, remains⟩ := List.exists_mem_of_ne_nil _ some
      obtain ⟨old, also, leaves⟩ := List.mem_filterMap.mp (windows ▸ remains)
      have single : s.ids.length ≤ 1 := by
        rw [Server.ids, List.length_map]
        exact Nat.not_lt.mp several
      have same : old.project = project := by
        have first := wellFormed.owned old also
        generalize s.ids = ids at single first known
        rcases ids with _ | ⟨only, _ | ⟨next, rest⟩⟩
        · cases known
        · rw [List.mem_singleton.mp first, List.mem_singleton.mp known]
        · simp at single
      exact none ⟨left, remains, (leave_panes leaves).2.1.trans same⟩
  · rw [ids]
    exact wellFormed.ids_nodup.filter _
  · rw [discards.nextProject]
    exact fun project member => wellFormed.ids_fresh project ((memIds project).mp member).1

theorem closePane_discards (coherent : Coherent s) (pane : PaneId) :
    ∃ t, s.closePane pane = some t ∧ Discards (s.repairStackAnchor pane) pane t := by
  have restacked := restacked_repair s pane
  obtain ⟨tab, read, _⟩ := coherent.selected
  obtain ⟨now, readNow, _⟩ := restacked.read read
  have selected : ∃ tab, (s.repairStackAnchor pane).windows[(s.repairStackAnchor pane).activeWindow]? =
      some tab := by
    refine ⟨now, ?_⟩
    rw [show (s.repairStackAnchor pane).activeWindow = s.activeWindow by rw [restacked.rest], readNow]
  obtain ⟨t, closed, discards⟩ :=
    discard_discards (restacked.coherent coherent).housed.distinct selected (s.stackFocus tab pane) pane
  refine ⟨t, ?_, discards⟩
  unfold closePane
  rw [read]
  exact closed

/-- The hierarchy, whether or not the server still runs. -/
structure Standing (s : Server) : Prop where
  housed : Housed s.windows s.panes
  running : s.running = true ↔ s.windows ≠ []
  wellFormed : s.running = true → WellFormed s

theorem WellFormed.standing (wellFormed : WellFormed s) (running : s.running = true) : Standing s where
  housed := wellFormed.housed
  running := by
    obtain ⟨tab, read, _⟩ := wellFormed.selected
    exact iff_of_true running (List.ne_nil_of_mem (List.mem_of_getElem? read))
  wellFormed _ := wellFormed

theorem WellFormed.closePane (wellFormed : WellFormed s) (running : s.running = true) (pane : PaneId) :
    ∃ t, s.closePane pane = some t ∧ Standing t := by
  have repaired := (restacked_repair s pane).wellFormed wellFormed
  have same : (s.repairStackAnchor pane).running = s.running := by rw [(restacked_repair s pane).rest]
  obtain ⟨t, closed, discards⟩ := closePane_discards wellFormed.toCoherent pane
  refine ⟨t, closed, ?_⟩
  by_cases empty : t.windows = []
  · have stopped := discards.stops empty
    refine ⟨?_, ?_, fun runs => ?_⟩
    · rw [discards.windows, discards.panes]
      exact repaired.housed.leave pane
    · exact iff_of_false (by rw [stopped]; nofun) (fun some => some empty)
    · rw [stopped] at runs
      cases runs
  · exact (discards.wellFormed repaired empty).standing ((discards.runs empty).trans (same.trans running))

theorem Standing.closePanes (standing : Standing s) (running : s.running = true) (panes : List PaneId) :
    ∃ t, s.closePanes panes = some t ∧ Standing t := by
  induction panes generalizing s with
  | nil => exact ⟨s, rfl, standing⟩
  | cons pane panes ih =>
    obtain ⟨t, closed, standing⟩ := (standing.wellFormed running).closePane running pane
    unfold Server.closePanes
    simp only [closed, Option.bind_eq_bind, Option.bind_some]
    split
    · next runs => exact ih standing runs
    · exact ⟨t, rfl, standing⟩

theorem Standing.closeTab (standing : Standing s) (running : s.running = true) {window : ℕ}
    (inside : window < s.windows.length) : ∃ t, s.closeTab window = some t ∧ Standing t := by
  unfold Server.closeTab
  simp only [List.getElem?_eq_getElem inside, Option.bind_eq_bind, Option.bind_some]
  exact standing.closePanes running _

end Closing

section Removing

/-- A project is being removed: its tabs hold panes still to be closed, and another tab is selected. -/
structure Removing (project : ProjectId) (panes : List PaneId) (s : Server) : Prop extends Coherent s where
  running : s.running = true
  gone : project ∉ s.ids
  elsewhere : s.activeProject ≠ project
  owned : ∀ tab ∈ s.windows, tab.project ≠ project → tab.project ∈ s.ids
  inhabited : ∀ other ∈ s.ids, ∃ tab ∈ s.windows, tab.project = other
  ids_nodup : s.ids.Nodup
  ids_fresh : ∀ other ∈ s.ids, other < s.nextProject
  listed : ∀ tab ∈ s.windows, tab.project = project → ∀ pane ∈ tab.panes, pane ∈ panes
  only : ∀ tab ∈ s.windows, ∀ pane ∈ panes, pane ∈ tab.panes → tab.project = project

/-- With no pane left to close no tab of the project is left. -/
theorem Removing.wellFormed (removing : Removing project [] s) : WellFormed s where
  toCoherent := removing.toCoherent
  owned tab member := by
    refine removing.owned tab member fun own => ?_
    cases removing.listed tab member own _ (removing.housed.active tab member)
  inhabited := removing.inhabited
  ids_nodup := removing.ids_nodup
  ids_fresh := removing.ids_fresh

theorem Restacked.removing {panes : List PaneId} (restacked : Restacked s t)
    (removing : Removing project panes s) : Removing project panes t := by
  have ids : t.ids = s.ids := by
    rw [restacked.rest]
    rfl
  have nextProject : t.nextProject = s.nextProject := by rw [restacked.rest]
  have layout : ∀ {a b : Win}, a.place = b.place → a.panes = b.panes := fun equal =>
    congrArg (fun place => place.2.1.paneIds) equal
  have own : ∀ {a b : Win}, a.place = b.place → a.project = b.project := fun equal => congrArg (·.1) equal
  refine ⟨restacked.coherent removing.toCoherent, ?_, ids ▸ removing.gone, ?_, fun tab member other => ?_,
    fun other member => ?_, ids ▸ removing.ids_nodup, by rw [ids, nextProject]; exact removing.ids_fresh,
    fun tab member project => ?_, fun tab member pane closing inside => ?_⟩
  · rw [restacked.rest]
    exact removing.running
  · rw [restacked.rest]
    exact removing.elsewhere
  · obtain ⟨old, inside, same⟩ := restacked.back member
    rw [ids, ← own same]
    exact removing.owned old inside fun equal => other ((own same).symm.trans equal)
  · obtain ⟨old, inside, same⟩ := removing.inhabited other (ids ▸ member)
    obtain ⟨new, there, equal⟩ := restacked.forth inside
    exact ⟨new, there, (own equal).trans same⟩
  · obtain ⟨old, inside, same⟩ := restacked.back member
    rw [← layout same]
    exact removing.listed old inside ((own same).trans project)
  · obtain ⟨old, there, same⟩ := restacked.back member
    exact (own same).symm.trans (removing.only old there pane closing (layout same ▸ inside))

theorem Removing.closePane {panes : List PaneId} (removing : Removing project (pane :: panes) s) :
    ∃ t, s.closePane pane = some t ∧ Removing project panes t := by
  obtain ⟨t, closed, discards⟩ := closePane_discards removing.toCoherent pane
  refine ⟨t, closed, ?_⟩
  have repaired := (restacked_repair s pane).removing removing
  generalize s.repairStackAnchor pane = r at discards repaired
  have windows := discards.windows
  have ids : t.ids = r.ids := by
    rw [discards.ids, retire_ids]
    refine List.filter_eq_self.mpr fun other _ => decide_eq_true fun empty => ?_
    obtain ⟨known, tab, member, own, panes, _⟩ := emptyProject_some empty
    have same := repaired.only tab member pane List.mem_cons_self (panes ▸ List.mem_singleton_self pane)
    exact repaired.gone (same ▸ own ▸ known)
  obtain ⟨tab, read, own⟩ := repaired.selected
  have member := List.mem_of_getElem? read
  -- the selected tab does not have the pane
  have apart : pane ∉ tab.panes := fun inside => repaired.elsewhere
    (own.symm.trans (repaired.only tab member pane List.mem_cons_self inside))
  have stays := discards.stays tab read apart
  have some : t.windows ≠ [] := List.ne_nil_of_mem (List.mem_of_getElem? stays)
  have selected := discards.selected some
  have activeProject : t.activeProject = r.activeProject := by
    obtain ⟨known, there, same⟩ := selected
    rw [stays] at there
    rw [← same, ← own, Option.some.inj there]
  have back : ∀ left ∈ t.windows, ∃ old ∈ r.windows, old.leave pane = Option.some left := by
    intro left member
    rw [windows] at member
    exact List.mem_filterMap.mp member
  refine ⟨⟨?_, ?_, selected⟩, (discards.runs some).trans repaired.running, ids ▸ repaired.gone,
    activeProject ▸ repaired.elsewhere, fun left member other => ?_, fun other member => ?_,
    ids ▸ repaired.ids_nodup, ?_, fun left member own other inside => ?_, fun left member other closing inside => ?_⟩
  · rw [windows, discards.panes]
    exact repaired.housed.leave pane
  · rw [discards.panes, discards.nextPane]
    exact fun other member => repaired.fresh other (Finset.mem_of_mem_erase member)
  · obtain ⟨old, there, leaves⟩ := back left member
    rw [ids]
    rw [(leave_panes leaves).2.1] at other ⊢
    exact repaired.owned old there other
  · rw [ids] at member
    obtain ⟨old, there, same⟩ := repaired.inhabited other member
    have absent : pane ∉ old.panes := by
      intro inside
      rw [repaired.only old there pane List.mem_cons_self inside] at same
      exact repaired.gone (same ▸ member)
    refine ⟨old, ?_, same⟩
    rw [windows]
    exact List.mem_filterMap.mpr ⟨old, there, leave_of_not_mem absent⟩
  · rw [ids, discards.nextProject]
    exact repaired.ids_fresh
  · obtain ⟨old, there, leaves⟩ := back left member
    obtain ⟨panes, project, _⟩ := leave_panes leaves
    rw [panes] at inside
    obtain ⟨inOld, different⟩ := List.mem_filter.mp inside
    have listed := repaired.listed old there (project.symm.trans own) other inOld
    exact (List.mem_cons.mp listed).resolve_left (of_decide_eq_true different)
  · obtain ⟨old, there, leaves⟩ := back left member
    obtain ⟨panes, project, _⟩ := leave_panes leaves
    rw [panes] at inside
    rw [project]
    exact repaired.only old there other (.tail _ closing) (List.mem_filter.mp inside).1

theorem Removing.closePanes {panes : List PaneId} (removing : Removing project panes s) :
    ∃ t, s.closePanes panes = some t ∧ WellFormed t ∧ t.running = true := by
  induction panes generalizing s with
  | nil => exact ⟨s, rfl, removing.wellFormed, removing.running⟩
  | cons pane panes ih =>
    obtain ⟨t, closed, removing⟩ := removing.closePane
    unfold Server.closePanes
    simp only [closed, Option.bind_eq_bind, Option.bind_some, removing.running, if_true]
    exact ih removing

/-- Removing a project selects another and then closes the panes of its tabs. -/
theorem removeProject_begins (wellFormed : WellFormed s) (running : s.running = true)
    (several : ¬ s.projects.length ≤ 1) (known : project ∈ s.ids) :
    ∃ u panes, s.removeProject project = u.closePanes panes ∧ Removing project panes u ∧
      u.windows = s.windows ∧ u.panes = s.panes := by
  have guards : ¬ (s.projects.length ≤ 1 ∨ ¬ s.hasProject project = true) :=
    not_or.mpr ⟨several, not_not.mpr ((hasProject_iff s project).mpr known)⟩
  unfold Server.removeProject
  rw [if_neg guards]
  generalize gathered : (s.windows.filter (·.project = project)).flatMap (·.layout.paneIds) = panes
  have memIds : ∀ other, other ∈ (s.projects.filter (·.id ≠ project)).map (·.id) ↔
      other ∈ s.ids ∧ other ≠ project := by
    intro other
    simp only [ids, List.mem_map, List.mem_filter, decide_eq_true_eq]
    constructor
    · rintro ⟨item, ⟨member, different⟩, rfl⟩
      exact ⟨⟨item, member, rfl⟩, different⟩
    · rintro ⟨⟨item, member, rfl⟩, different⟩
      exact ⟨item, ⟨member, different⟩, rfl⟩
  -- what holds but for the selection
  have removing : ∀ (projects : List Project) (index : ℕ) (tab : Win),
      projects.map (·.id) = (s.projects.filter (·.id ≠ project)).map (·.id) →
      s.windows[index]? = some tab → tab.project ≠ project →
      Removing project panes { s with
        projects := projects, activeWindow := index, activeProject := tab.project } := by
    intro projects index tab same read elsewhere
    have ids : ∀ other, other ∈ projects.map (·.id) ↔ other ∈ s.ids ∧ other ≠ project := fun other => by
      rw [same, memIds]
    refine ⟨⟨wellFormed.housed, wellFormed.fresh, tab, read, rfl⟩, running, fun inside => ((ids _).mp inside).2 rfl,
      elsewhere, fun tab member other => (ids _).mpr ⟨wellFormed.owned tab member, other⟩,
      fun other member => wellFormed.inhabited other ((ids other).mp member).1, ?_,
      fun other member => wellFormed.ids_fresh other ((ids other).mp member).1, fun tab member own pane inside => ?_,
      fun tab member pane closing inside => ?_⟩
    · show (projects.map (·.id)).Nodup
      rw [same]
      exact (List.filter_sublist.map _).nodup wellFormed.ids_nodup
    · rw [← gathered]
      exact List.mem_flatMap.mpr ⟨tab, List.mem_filter.mpr ⟨member, decide_eq_true own⟩, inside⟩
    · rw [← gathered] at closing
      obtain ⟨other, there, also⟩ := List.mem_flatMap.mp closing
      obtain ⟨inOther, own⟩ := List.mem_filter.mp there
      rw [wellFormed.housed.unique member inOther inside also]
      exact of_decide_eq_true own
  obtain ⟨tab, read, own⟩ := wellFormed.selected
  by_cases active : s.activeProject = project
  · -- another project is selected first
    obtain ⟨other, member, different⟩ := exists_other (by rw [ids, List.length_map]; omega) wellFormed.ids_nodup project
    have remains := (memIds other).mpr ⟨member, different⟩
    cases head : (s.projects.filter (·.id ≠ project)).head? with
    | none =>
      rw [List.head?_eq_none_iff.mp head] at remains
      cases remains
    | some replacement =>
      have stays := (memIds replacement.id).mp (List.mem_map_of_mem (List.mem_of_head? head))
      obtain ⟨next, inside, same⟩ := wellFormed.inhabited replacement.id stays.1
      obtain ⟨i, readNext⟩ := List.mem_iff_getElem?.mp inside
      have listed : i ∈ s.projectWindowIndices replacement.id := mem_projectWindowIndices.mpr ⟨next, readNext, same⟩
      cases first : (s.projectWindowIndices replacement.id).head? with
      | none =>
        rw [List.head?_eq_none_iff.mp first] at listed
        cases listed
      | some index =>
        obtain ⟨chosen, readChosen, ofIt⟩ := mem_projectWindowIndices.mp (List.mem_of_head? first)
        obtain ⟨projects, ids, activated⟩ :=
          activateWindow_spec (s := { s with projects := s.projects.filter (·.id ≠ project) }) readChosen
        have same : ({ s with projects := s.projects.filter (·.id ≠ project) } : Server).projectWindowIndices
            replacement.id = s.projectWindowIndices replacement.id := rfl
        rw [if_pos active, head]
        dsimp only [Option.bind_eq_bind, Option.bind_some]
        rw [same, first]
        dsimp only [Option.bind_some]
        rw [activated]
        exact ⟨_, panes, rfl,
          removing projects index chosen ids readChosen fun own => stays.2 (ofIt.symm.trans own), rfl, rfl⟩
  · rw [if_neg active]
    have begun := removing _ s.activeWindow tab rfl read (own ▸ active)
    rw [own] at begun
    exact ⟨_, panes, rfl, begun, rfl, rfl⟩

theorem WellFormed.removeProject (wellFormed : WellFormed s) (running : s.running = true)
    (project : ProjectId) : ∃ t, s.removeProject project = some t ∧ WellFormed t ∧ t.running = true := by
  by_cases guards : s.projects.length ≤ 1 ∨ ¬ s.hasProject project = true
  · refine ⟨s, ?_, wellFormed, running⟩
    unfold Server.removeProject
    rw [if_pos guards]
    rfl
  · obtain ⟨several, known⟩ := not_or.mp guards
    obtain ⟨u, panes, begins, removing, _⟩ := removeProject_begins wellFormed running several
      ((hasProject_iff s project).mp (not_not.mp known))
    rw [begins]
    exact removing.closePanes

end Removing

end Server

end Uniterm.Model.Workspace
