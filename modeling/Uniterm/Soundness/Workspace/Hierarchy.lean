import Uniterm.Machine.Run
import Uniterm.Soundness.Workspace.Tabs

/-! # The workspace hierarchy

While the server runs, every live pane is in one tab, every tab is some project's, every project has a tab,
and the selection is a tab of the selected project. The stacks only rewrite what no other operation reads.
-/

namespace Uniterm.Model.Workspace

open ToMathlib Machine

namespace Server

def ids (s : Server) : List ProjectId := s.projects.map (·.id)

/-- The tabs house the live panes, and the selection is one of them. -/
structure Coherent (s : Server) : Prop where
  housed : Housed s.windows s.panes
  fresh : ∀ pane ∈ s.panes, pane < s.nextPane
  selected : ∃ tab, s.windows[s.activeWindow]? = some tab ∧ tab.project = s.activeProject

/-- The hierarchy between operations. -/
structure WellFormed (s : Server) : Prop extends Coherent s where
  owned : ∀ tab ∈ s.windows, tab.project ∈ s.ids
  inhabited : ∀ project ∈ s.ids, ∃ tab ∈ s.windows, tab.project = project
  ids_nodup : s.ids.Nodup
  ids_fresh : ∀ project ∈ s.ids, project < s.nextProject

variable {s t : Server} {pane : PaneId} {i : ℕ} {tab : Win}

theorem hasProject_iff (s : Server) (project : ProjectId) : s.hasProject project = true ↔ project ∈ s.ids := by
  simp [hasProject, ids]

theorem position_some (found : s.position pane = some i) :
    ∃ tab, s.windows[i]? = some tab ∧ pane ∈ tab.panes := by
  obtain ⟨tab, read, holds⟩ := findIdx?_read found
  exact ⟨tab, read, LayoutNode.containsPane_iff.mp holds⟩

theorem position_none (found : s.position pane = none) : ∀ tab ∈ s.windows, pane ∉ tab.panes := by
  intro tab member inside
  have absent := List.findIdx?_eq_none_iff.mp found tab member
  rw [LayoutNode.containsPane_iff.mpr inside] at absent
  cases absent

section Restacking

/-- Only what the stacks use of the tabs differs. -/
structure Restacked (s t : Server) : Prop where
  rest : t = { s with windows := t.windows }
  places : t.windows.map Win.place = s.windows.map Win.place

theorem Restacked.refl (s : Server) : Restacked s s := ⟨rfl, rfl⟩

theorem Restacked.trans {u : Server} (first : Restacked s t) (second : Restacked t u) : Restacked s u where
  rest := by
    rw [second.rest, first.rest]
  places := second.places.trans first.places

private theorem restacked_modify (s : Server) (i : ℕ) (f : Win → Win) (same : ∀ tab, (f tab).place = tab.place) :
    Restacked s { s with windows := s.windows.modify i f } :=
  ⟨rfl, map_modify_same s.windows i same⟩

private theorem restacked_retain (s : Server) (i : ℕ) (expanded : Bool) : Restacked s (s.retainStackRow i expanded) :=
  restacked_modify s i _ fun _ => rfl

theorem restacked_setStackParent (s : Server) (i : ℕ) (parent : Option PaneId) :
    Restacked s (s.setStackParent i parent) := restacked_modify s i _ fun _ => rfl

theorem restacked_assign (s : Server) (pane : PaneId) (parent : Option PaneId) :
    Restacked s (s.assignTabParent pane parent).2 := by
  unfold assignTabParent
  split
  · exact .refl s
  · split
    · exact restacked_setStackParent s _ _
    · split
      · exact .refl s
      · split
        · exact .refl s
        · exact (restacked_retain s _ _).trans (restacked_setStackParent _ _ _)

private theorem restacked_foldl {α : Type} (f : Server → α → Server) (keeps : ∀ s a, Restacked s (f s a))
    (xs : List α) (s : Server) : Restacked s (xs.foldl f s) := by
  induction xs generalizing s with
  | nil => exact .refl s
  | cons a xs ih => exact (keeps s a).trans (ih (f s a))

theorem restacked_keepRow (s : Server) (window : ℕ) : Restacked s (s.keepRow window) := by
  unfold keepRow
  dsimp only
  split
  · exact restacked_retain s _ _
  · exact .refl s

theorem restacked_promote (s : Server) (successor : PaneId) : Restacked s (s.promote successor) := by
  unfold promote
  dsimp only
  refine (restacked_assign s successor none).trans ?_
  split
  · exact restacked_retain _ _ _
  · exact .refl _

private theorem restacked_reanchor (s : Server) (children : List PaneId) (replacement : Option PaneId) :
    Restacked s (s.reanchor children replacement) := by
  refine restacked_foldl _ (fun s child => ?_) children s
  split
  · exact restacked_assign s _ _
  · exact .refl s

theorem restacked_repair (s : Server) (pane : PaneId) : Restacked s (s.repairStackAnchor pane) := by
  unfold repairStackAnchor
  split
  · exact .refl s
  · next index found =>
    dsimp only
    refine (restacked_keepRow s index).trans ?_
    split
    · exact .refl _
    · split
      · exact (restacked_promote _ _).trans (restacked_reanchor _ _ _)
      · exact restacked_reanchor _ _ _

theorem Restacked.read (restacked : Restacked s t) (read : s.windows[i]? = some tab) :
    ∃ other, t.windows[i]? = some other ∧ other.place = tab.place := by
  have image : (t.windows.map Win.place)[i]? = some tab.place := by
    rw [restacked.places, List.getElem?_map, read, Option.map_some]
  rw [List.getElem?_map] at image
  exact Option.map_eq_some_iff.mp image

theorem Restacked.coherent (restacked : Restacked s t) (coherent : Coherent s) : Coherent t := by
  obtain ⟨tab, read, own⟩ := coherent.selected
  obtain ⟨other, read', same⟩ := restacked.read read
  have places := restacked.places
  rw [restacked.rest]
  exact ⟨coherent.housed.congr places, coherent.fresh, other, read',
    (congrArg (·.1) same : other.project = tab.project).trans own⟩

theorem Restacked.back (restacked : Restacked s t) (member : tab ∈ t.windows) :
    ∃ old ∈ s.windows, old.place = tab.place := by
  have image : tab.place ∈ s.windows.map Win.place := restacked.places ▸ List.mem_map_of_mem member
  obtain ⟨old, inside, same⟩ := List.mem_map.mp image
  exact ⟨old, inside, same⟩

theorem Restacked.forth (restacked : Restacked s t) (member : tab ∈ s.windows) :
    ∃ new ∈ t.windows, new.place = tab.place := by
  have image : tab.place ∈ t.windows.map Win.place := restacked.places ▸ List.mem_map_of_mem member
  obtain ⟨new, inside, same⟩ := List.mem_map.mp image
  exact ⟨new, inside, same⟩

theorem Restacked.wellFormed (restacked : Restacked s t) (wellFormed : WellFormed s) : WellFormed t := by
  have coherent := restacked.coherent wellFormed.toCoherent
  have ids : t.ids = s.ids := by
    rw [restacked.rest]
    rfl
  have nextProject : t.nextProject = s.nextProject := by rw [restacked.rest]
  have own : ∀ {a b : Win}, a.place = b.place → a.project = b.project := fun equal => congrArg (·.1) equal
  refine ⟨coherent, fun tab member => ?_, fun project member => ?_, ids ▸ wellFormed.ids_nodup,
    by rw [ids, nextProject]; exact wellFormed.ids_fresh⟩
  · obtain ⟨old, inside, same⟩ := restacked.back member
    rw [ids, ← own same]
    exact wellFormed.owned old inside
  · obtain ⟨old, inside, same⟩ := wellFormed.inhabited project (ids ▸ member)
    obtain ⟨new, there, equal⟩ := restacked.forth inside
    exact ⟨new, there, (own equal).trans same⟩

end Restacking

section Selecting

theorem remember_ids (projects : List Project) (project : ProjectId) (pane : PaneId) :
    (remember projects project pane).map (·.id) = projects.map (·.id) := by
  unfold remember
  generalize projects.findIdx (·.id == project) = i
  induction projects generalizing i with
  | nil => simp
  | cons item projects ih =>
    cases i with
    | zero => simp
    | succ i => simp [ih]

/-- Activating a tab selects it and its project, and changes nothing else but what is remembered. -/
theorem activateWindow_spec (read : s.windows[i]? = some tab) :
    ∃ projects, projects.map (·.id) = s.ids ∧ s.activateWindow i =
      { s with activeWindow := i, activeProject := tab.project, projects := projects } := by
  unfold activateWindow
  cases current : s.windows[s.activeWindow]? with
  | none =>
    simp only [read]
    exact ⟨_, remember_ids _ _ _, rfl⟩
  | some known =>
    simp only [read]
    exact ⟨_, (remember_ids _ _ _).trans (remember_ids _ _ _), rfl⟩

/-- What holds of the hierarchy but for the selection. -/
structure Placed (s : Server) : Prop where
  housed : Housed s.windows s.panes
  fresh : ∀ pane ∈ s.panes, pane < s.nextPane
  owned : ∀ tab ∈ s.windows, tab.project ∈ s.ids
  inhabited : ∀ project ∈ s.ids, ∃ tab ∈ s.windows, tab.project = project
  ids_nodup : s.ids.Nodup
  ids_fresh : ∀ project ∈ s.ids, project < s.nextProject

theorem WellFormed.placed (wellFormed : WellFormed s) : Placed s :=
  ⟨wellFormed.housed, wellFormed.fresh, wellFormed.owned, wellFormed.inhabited, wellFormed.ids_nodup,
    wellFormed.ids_fresh⟩

theorem Placed.wellFormed (placed : Placed s)
    (selected : ∃ tab, s.windows[s.activeWindow]? = some tab ∧ tab.project = s.activeProject) :
    WellFormed s :=
  ⟨⟨placed.housed, placed.fresh, selected⟩, placed.owned, placed.inhabited, placed.ids_nodup,
    placed.ids_fresh⟩

/-- Activating one of the tabs restores the selection. -/
theorem Placed.activate (placed : Placed s) (read : s.windows[i]? = some tab) :
    WellFormed (s.activateWindow i) := by
  obtain ⟨projects, same, activated⟩ := activateWindow_spec read
  rw [activated]
  refine Placed.wellFormed ⟨placed.housed, placed.fresh, ?_, ?_, ?_, ?_⟩ ⟨tab, read, rfl⟩
  · exact fun tab member => (congrArg (tab.project ∈ ·) same).mpr (placed.owned tab member)
  · exact fun project member => placed.inhabited project ((congrArg (project ∈ ·) same).mp member)
  · exact (congrArg List.Nodup same).mpr placed.ids_nodup
  · exact fun project member => placed.ids_fresh project ((congrArg (project ∈ ·) same).mp member)

end Selecting

section Growing

theorem Placed.spawned (placed : Placed s) : s.nextPane ∉ s.panes :=
  fun inside => Nat.lt_irrefl _ (placed.fresh _ inside)

private theorem fresh_spawn (fresh : ∀ pane ∈ s.panes, pane < s.nextPane) :
    ∀ pane ∈ insert s.nextPane s.panes, pane < s.nextPane + 1 := by
  intro pane member
  rcases Finset.mem_insert.mp member with rfl | old
  · exact Nat.lt_succ_self _
  · exact Nat.lt_succ_of_lt (fresh pane old)

/-- A tab more for one of the projects. -/
theorem Placed.push (placed : Placed s) {project : ProjectId} (known : project ∈ s.ids) :
    Placed { s.spawn with
      windows := s.windows ++ [{ project := project, layout := .leaf s.nextPane, active := s.nextPane }] } where
  housed := placed.housed.push placed.spawned project
  fresh := fresh_spawn placed.fresh
  owned tab member := by
    rcases List.mem_append.mp member with old | new
    · exact placed.owned tab old
    · rw [List.mem_singleton.mp new]
      exact known
  inhabited other member := by
    obtain ⟨tab, inside, same⟩ := placed.inhabited other member
    exact ⟨tab, List.mem_append_left _ inside, same⟩
  ids_nodup := placed.ids_nodup
  ids_fresh := placed.ids_fresh

private theorem getElem?_push (windows : List Win) (tab : Win) :
    (windows ++ [tab])[(windows ++ [tab]).length - 1]? = some tab := by simp

theorem WellFormed.selected_push (wellFormed : WellFormed s) (tab : Win) :
    ∃ known, (s.windows ++ [tab])[s.activeWindow]? = some known ∧ known.project = s.activeProject := by
  obtain ⟨known, read, own⟩ := wellFormed.selected
  refine ⟨known, ?_, own⟩
  rw [List.getElem?_append_left (List.getElem?_eq_some_iff.mp read).1, read]

theorem WellFormed.createTab (wellFormed : WellFormed s) (project : ProjectId) (background : Bool) :
    WellFormed (s.createTab project background) := by
  unfold Server.createTab
  split
  · next known =>
    have pushed := wellFormed.placed.push ((hasProject_iff s project).mp known)
    unfold insertTab
    dsimp only
    split
    · exact pushed.wellFormed (wellFormed.selected_push _)
    · exact pushed.activate (getElem?_push _ _)
  · exact wellFormed

theorem WellFormed.createProject (wellFormed : WellFormed s) (background : Bool) :
    WellFormed (s.createProject background) := by
  have newId : s.nextProject ∉ s.ids := fun inside => Nat.lt_irrefl _ (wellFormed.ids_fresh _ inside)
  unfold Server.createProject
  dsimp only
  have created : Placed { s.spawn with
      nextProject := s.nextProject + 1
      projects := s.projects ++ [⟨s.nextProject, some s.nextPane⟩]
      windows := s.windows ++
        [{ project := s.nextProject, layout := .leaf s.nextPane, active := s.nextPane }] } := by
    have ids : ∀ project, project ∈
        (s.projects ++ [(⟨s.nextProject, some s.nextPane⟩ : Project)]).map (·.id) ↔
        project ∈ s.ids ∨ project = s.nextProject := by simp [Server.ids]
    refine ⟨wellFormed.housed.push wellFormed.placed.spawned _, fresh_spawn wellFormed.fresh, ?_, ?_, ?_, ?_⟩
    · intro tab member
      rcases List.mem_append.mp member with old | new
      · exact (ids _).mpr (.inl (wellFormed.owned tab old))
      · rw [List.mem_singleton.mp new]
        exact (ids _).mpr (.inr rfl)
    · intro project member
      rcases (ids project).mp member with old | rfl
      · obtain ⟨tab, inside, same⟩ := wellFormed.inhabited project old
        exact ⟨tab, List.mem_append_left _ inside, same⟩
      · exact ⟨_, List.mem_append_right _ (List.mem_singleton_self _), rfl⟩
    · simp only [Server.ids, List.map_append, List.map_cons, List.map_nil]
      refine List.nodup_append'.mpr ⟨wellFormed.ids_nodup, List.nodup_singleton _, ?_⟩
      intro project old new
      exact newId (List.mem_singleton.mp new ▸ old)
    · intro project member
      rcases (ids project).mp member with old | rfl
      · exact Nat.lt_succ_of_lt (wellFormed.ids_fresh project old)
      · exact Nat.lt_succ_self _
  split
  · exact created.wellFormed (wellFormed.selected_push _)
  · exact created.activate (getElem?_push _ _)

end Growing

section Splitting

variable {f : Win → Win}

private theorem mem_projects (windows : List Win) (project : ProjectId) :
    project ∈ windows.map (·.project) ↔ ∃ tab ∈ windows, tab.project = project := List.mem_map

private theorem selected_modify (same : ∀ tab, (f tab).project = tab.project) (i : ℕ)
    (selected : ∃ tab, s.windows[s.activeWindow]? = some tab ∧ tab.project = s.activeProject) :
    ∃ tab, (s.windows.modify i f)[s.activeWindow]? = some tab ∧ tab.project = s.activeProject := by
  obtain ⟨tab, read, own⟩ := selected
  rw [List.getElem?_modify, read]
  refine ⟨_, rfl, ?_⟩
  split
  · rw [same, own]
  · exact own

/-- A tab of a project takes in a new pane. -/
theorem Placed.grow (placed : Placed s) (read : s.windows[i]? = some tab)
    (grown : (f tab).panes.Perm (s.nextPane :: tab.panes)) (active : (f tab).active ∈ (f tab).panes)
    (zoomed : ∀ pane ∈ (f tab).zoomed, pane ∈ (f tab).panes)
    (same : ∀ tab, (f tab).project = tab.project) :
    Placed { s.spawn with windows := s.windows.modify i f } where
  housed := placed.housed.grow read placed.spawned f grown active zoomed
  fresh := fresh_spawn placed.fresh
  owned other member := by
    have image := List.mem_map_of_mem (f := (·.project)) member
    rw [map_modify_same _ _ same] at image
    obtain ⟨old, inside, equal⟩ := List.mem_map.mp image
    exact (congrArg (· ∈ s.ids) equal).mp (placed.owned old inside)
  inhabited project member := by
    have image := (mem_projects s.windows project).mpr (placed.inhabited project member)
    rw [← map_modify_same s.windows i same] at image
    exact List.mem_map.mp image
  ids_nodup := placed.ids_nodup
  ids_fresh := placed.ids_fresh

theorem WellFormed.splitPane (wellFormed : WellFormed s) (pane : PaneId) (dir : SplitDir)
    (background : Bool) : WellFormed (s.splitPane pane dir background) := by
  unfold Server.splitPane
  split
  · exact wellFormed
  · next window found =>
    obtain ⟨tab, read, inside⟩ := position_some found
    split
    · have perm := (LayoutNode.splitInPlace_perm () dir s.nextPane inside).2
      have member := List.mem_of_getElem? read
      have zoomed := wellFormed.housed.zoomed tab member
      have active := wellFormed.housed.active tab member
      unfold insertSplit
      dsimp only
      split
      · refine Placed.wellFormed (wellFormed.placed.grow read ?_ ?_ ?_ fun _ => rfl) ?_
        rotate_right
        · refine selected_modify ?_ window wellFormed.selected
          exact fun _ => rfl
        · exact perm
        · show tab.active ∈ LayoutNode.paneIds _
          rw [perm.mem_iff]
          exact .tail _ active
        · intro known shown
          show known ∈ LayoutNode.paneIds _
          rw [perm.mem_iff]
          exact .tail _ (zoomed known shown)
      · show WellFormed (Server.activateWindow { s.spawn with windows := (s.windows.modify window _).modify window _ } window)
        rw [List.modify_modify_eq]
        refine Placed.activate (wellFormed.placed.grow read ?_ ?_ nofun fun _ => rfl)
          (by rw [List.getElem?_modify_eq, read]; rfl)
        · exact perm
        · show s.nextPane ∈ LayoutNode.paneIds _
          exact perm.mem_iff.mpr List.mem_cons_self
    · exact wellFormed

end Splitting

section Detaching

/-- What detaching a pane from its tab does: the pane leaves, and every other tab stays reachable. -/
structure Detaches (s : Server) (source : ℕ) (pane : PaneId) (result : Bool × Server) : Prop where
  rest : result.2 = { s.repairStackAnchor pane with
    windows := result.2.windows, activeWindow := result.2.activeWindow }
  windows : result.2.windows = (s.repairStackAnchor pane).windows.filterMap (Win.leave pane)
  index : ∀ target, target ≠ source →
    result.2.windows[if result.1 = true ∧ source < target then target - 1 else target]? =
      (s.repairStackAnchor pane).windows[target]?
  kept : result.1 = false → result.2.windows.length = (s.repairStackAnchor pane).windows.length
  closed : result.1 = true → ∀ tab, s.windows[source]? = some tab → ∀ other ∈ tab.panes, other = pane

theorem detachPane_detaches (housed : Housed s.windows s.panes) {source : ℕ}
    (found : s.position pane = some source) : Detaches s source pane (s.detachPane source pane) := by
  obtain ⟨tab, read, inside⟩ := position_some found
  have restacked := restacked_repair s pane
  obtain ⟨now, readNow, same⟩ := restacked.read read
  have layout : now.layout = tab.layout := congrArg (·.2.1) same
  have distinct := (housed.congr restacked.places).distinct
  have left := filterMap_leave distinct readNow (by rw [Win.panes, layout]; exact inside)
  unfold detachPane
  simp only [readNow]
  cases kept : now.layout.without pane with
  | some remaining =>
    rw [kept] at left
    refine ⟨rfl, left.symm, fun target different => ?_, fun _ => ?_, nofun⟩
    · simp only [Bool.false_eq_true, false_and, if_false]
      rw [List.getElem?_modify_ne _ _ (Ne.symm different)]
    · exact List.length_modify ..
  | none =>
    rw [kept] at left
    refine ⟨rfl, left.symm, fun target different => ?_, nofun, fun _ tab' read' => ?_⟩
    · simp only [true_and]
      rw [List.getElem?_eraseIdx]
      split
      · next later => rw [if_neg (by omega), show target - 1 + 1 = target by omega]
      · rw [if_pos (by omega)]
    · rw [read] at read'
      cases read'
      rw [layout] at kept
      exact LayoutNode.without_none kept

end Detaching

section Moving

/-- A tab stays, with the same project, unless the pane that leaves is its last. -/
theorem leave_project {project : ProjectId} {other : PaneId}
    (member : tab ∈ s.windows) (own : tab.project = project) (inside : other ∈ tab.panes)
    (different : other ≠ pane) :
    ∃ left ∈ s.windows.filterMap (Win.leave pane), left.project = project ∧ other ∈ left.panes := by
  obtain ⟨left, leaves⟩ := leave_isSome inside different
  obtain ⟨panes, sameProject, _⟩ := leave_panes leaves
  refine ⟨left, List.mem_filterMap.mpr ⟨tab, member, leaves⟩, sameProject.trans own, ?_⟩
  rw [panes]
  exact List.mem_filter.mpr ⟨inside, by simpa using different⟩

/-- A hierarchy that a pane has left, with its process still alive. -/
structure Parted (s : Server) (pane : PaneId) (after : Server) : Prop where
  housed : Housed after.windows (s.panes.erase pane)
  panes : after.panes = s.panes
  fresh : ∀ pane ∈ after.panes, pane < after.nextPane
  ids : after.ids = s.ids
  ids_fresh : ∀ project ∈ after.ids, project < after.nextProject
  owned : ∀ tab ∈ after.windows, tab.project ∈ after.ids
  stays : ∀ (tab : Win) (other : PaneId), tab ∈ s.windows → other ∈ tab.panes → other ≠ pane →
    ∃ left ∈ after.windows, left.project = tab.project ∧ other ∈ left.panes

theorem Detaches.parted {source : ℕ} {result : Bool × Server} (detaches : Detaches s source pane result)
    (wellFormed : WellFormed s) : Parted s pane result.2 := by
  have repaired := restacked_repair s pane
  have before := repaired.wellFormed wellFormed
  have windows := detaches.windows
  have rest := detaches.rest
  have repairedIds : (s.repairStackAnchor pane).ids = s.ids := by
    rw [repaired.rest]
    rfl
  have ids : result.2.ids = s.ids := by
    rw [rest]
    exact repairedIds
  refine ⟨?_, ?_, ?_, ids, ?_, ?_, ?_⟩
  · have panes : (s.repairStackAnchor pane).panes = s.panes := by rw [repaired.rest]
    rw [windows, ← panes]
    exact before.housed.leave pane
  · rw [rest, repaired.rest]
  · rw [rest, repaired.rest]
    exact wellFormed.fresh
  · rw [ids, rest, repaired.rest]
    exact wellFormed.ids_fresh
  · intro tab member
    rw [windows] at member
    obtain ⟨old, inOld, leaves⟩ := List.mem_filterMap.mp member
    rw [ids, ← repairedIds, (leave_panes leaves).2.1]
    exact before.owned old inOld
  · intro tab other member inside different
    obtain ⟨i, read⟩ := List.mem_iff_getElem?.mp member
    obtain ⟨now, readNow, same⟩ := repaired.read read
    rw [windows]
    exact leave_project (List.mem_of_getElem? readNow) (congrArg (·.1) same)
      ((congrArg (fun place => other ∈ place.2.1.paneIds) same).mpr inside) different

theorem WellFormed.movePaneToWindow (wellFormed : WellFormed s) (pane : PaneId) (target : ℕ)
    (dir : SplitDir) : WellFormed (s.movePaneToWindow pane target dir) := by
  unfold Server.movePaneToWindow
  split
  · exact wellFormed
  next source found =>
  split
  · exact wellFormed
  next guards =>
  obtain ⟨different, inRange, sameProject⟩ := not_or.mp guards |>.imp_right not_or.mp
  obtain ⟨tab, read, inside⟩ := position_some found
  have tabMember := List.mem_of_getElem? read
  have live : pane ∈ s.panes := (wellFormed.housed.live pane).mpr ⟨tab, tabMember, inside⟩
  have detaches := detachPane_detaches wellFormed.housed found
  have parted := detaches.parted wellFormed
  obtain ⟨goal, readGoal⟩ : ∃ goal, s.windows[target]? = some goal :=
    ⟨_, List.getElem?_eq_getElem (Nat.not_le.mp inRange)⟩
  rw [readGoal, read] at sameProject
  have sameProject : goal.project = tab.project := by simpa using sameProject
  obtain ⟨goalNow, readNow, goalSame⟩ := (restacked_repair s pane).read readGoal
  have index := detaches.index target (Ne.symm different)
  generalize s.detachPane source pane = result at index parted ⊢
  obtain ⟨closed, after⟩ := result
  dsimp only at index parted ⊢
  generalize (if closed = true ∧ source < target then target - 1 else target) = place at index ⊢
  rw [readNow] at index
  have goalMember := List.mem_of_getElem? index
  have perm := (LayoutNode.splitInPlace_perm () dir pane (parted.housed.active goalNow goalMember)).2
  let moved : Win → Win := fun tab =>
    { tab with
      layout := (tab.layout.splitInPlace () tab.active dir pane).2, zoomed := none
      active := pane }
  have movedProject : ∀ tab, (moved tab).project = tab.project := fun _ => rfl
  show WellFormed (Server.activateWindow { after with windows := after.windows.modify place moved } place)
  refine Placed.activate ⟨?_, parted.fresh, ?_, ?_, ?_, parted.ids_fresh⟩
    (by rw [List.getElem?_modify_eq, index]; rfl)
  · show Housed (after.windows.modify place moved) after.panes
    rw [parted.panes, ← Finset.insert_erase live]
    refine parted.housed.grow index (Finset.notMem_erase pane _) moved ?_ ?_ nofun
    · exact perm
    · exact perm.mem_iff.mpr List.mem_cons_self
  · intro other member
    have image := List.mem_map_of_mem (f := (·.project)) member
    rw [map_modify_same _ _ movedProject] at image
    obtain ⟨left, remains, equal⟩ := List.mem_map.mp image
    exact (congrArg (· ∈ after.ids) equal).mp (parted.owned left remains)
  · intro project member
    obtain ⟨old, inOld, own⟩ := wellFormed.inhabited project (parted.ids ▸ member)
    have some : ∃ left ∈ after.windows, left.project = project := by
      by_cases leaving : pane ∈ old.panes
      · -- the source tab's project keeps the target tab
        refine ⟨goalNow, goalMember, ?_⟩
        rw [← own, wellFormed.housed.unique inOld tabMember leaving inside]
        exact (congrArg (·.1) goalSame : goalNow.project = goal.project).trans sameProject
      · have active := wellFormed.housed.active old inOld
        have stays : old.active ≠ pane := fun same => leaving (same ▸ active)
        obtain ⟨left, remains, project, _⟩ := parted.stays old old.active inOld active stays
        exact ⟨left, remains, project.trans own⟩
    have image := (mem_projects after.windows project).mpr some
    rw [← map_modify_same after.windows place movedProject] at image
    exact List.mem_map.mp image
  · exact (congrArg List.Nodup parted.ids).mpr wellFormed.ids_nodup

theorem exists_other {panes : List PaneId} (several : 2 ≤ panes.length) (distinct : panes.Nodup)
    (pane : PaneId) : ∃ other ∈ panes, other ≠ pane := by
  by_contra none
  have all : ∀ other ∈ panes, other = pane := fun other member => by
    by_contra different
    exact none ⟨other, member, different⟩
  have bound := (List.nodup_replicate.mp ((List.eq_replicate_of_mem all) ▸ distinct))
  omega

theorem WellFormed.movePaneToNewWindow (wellFormed : WellFormed s) (pane : PaneId) :
    WellFormed (s.movePaneToNewWindow pane) := by
  unfold Server.movePaneToNewWindow
  split
  · exact wellFormed
  next source found =>
  obtain ⟨tab, read, inside⟩ := position_some found
  simp only [read]
  split
  · exact wellFormed
  next several =>
  have tabMember := List.mem_of_getElem? read
  have live : pane ∈ s.panes := (wellFormed.housed.live pane).mpr ⟨tab, tabMember, inside⟩
  obtain ⟨sibling, beside, different⟩ :=
    exists_other (Nat.not_lt.mp several) (wellFormed.housed.panes_nodup tabMember) pane
  have detaches := detachPane_detaches wellFormed.housed found
  have parted := detaches.parted wellFormed
  have kept : (s.detachPane source pane).1 = false := by
    cases closed : (s.detachPane source pane).1 with
    | false => rfl
    | true => exact absurd (detaches.closed closed tab read sibling beside) different
  have length := detaches.kept kept
  generalize s.detachPane source pane = result at length parted ⊢
  obtain ⟨closed, after⟩ := result
  dsimp only at length parted ⊢
  have inRange : source < after.windows.length := by
    have same := congrArg List.length (restacked_repair s pane).places
    rw [List.length_map, List.length_map] at same
    rw [length, same]
    exact (List.getElem?_eq_some_iff.mp read).1
  let fresh : Win := { project := tab.project, layout := .leaf pane, active := pane }
  have perm : (after.windows.insertIdx (source + 1) fresh).Perm (after.windows ++ [fresh]) :=
    (List.perm_insertIdx fresh after.windows inRange).trans (List.perm_append_singleton ..).symm
  show WellFormed (Server.activateWindow
    { after with windows := after.windows.insertIdx (source + 1) fresh } (source + 1))
  refine Placed.activate ⟨?_, parted.fresh, ?_, ?_, ?_, parted.ids_fresh⟩
    (by rw [List.getElem?_insertIdx_self, if_pos (Nat.succ_le_of_lt inRange)])
  · show Housed (after.windows.insertIdx (source + 1) fresh) after.panes
    rw [parted.panes, ← Finset.insert_erase live]
    exact (parted.housed.push (Finset.notMem_erase pane _) tab.project).perm perm
  · intro other member
    rcases List.mem_append.mp (perm.mem_iff.mp member) with old | new
    · exact parted.owned other old
    · rw [List.mem_singleton.mp new]
      show tab.project ∈ after.ids
      rw [parted.ids]
      exact wellFormed.owned tab tabMember
  · intro project member
    obtain ⟨old, inOld, own⟩ := wellFormed.inhabited project (parted.ids ▸ member)
    by_cases leaving : pane ∈ old.panes
    · refine ⟨fresh, perm.mem_iff.mpr (List.mem_append_right _ (List.mem_singleton_self _)), ?_⟩
      rw [← own, wellFormed.housed.unique inOld tabMember leaving inside]
    · have active := wellFormed.housed.active old inOld
      have stays : old.active ≠ pane := fun same => leaving (same ▸ active)
      obtain ⟨left, remains, project, _⟩ := parted.stays old old.active inOld active stays
      exact ⟨left, perm.mem_iff.mpr (List.mem_append_left _ remains), project.trans own⟩
  · exact (congrArg List.Nodup parted.ids).mpr wellFormed.ids_nodup

end Moving

end Server

end Uniterm.Model.Workspace
