import Uniterm.Soundness.Workspace.Closing

/-! # Runs of the workspace

No run from one project with one tab breaks the hierarchy, and the server stops with the last tab.
-/

namespace Uniterm.Model.Workspace

open ToMathlib Machine

namespace Server

variable {s t : Server} {pane : PaneId} {project : ProjectId} {nextPane nextProject : ℕ}

theorem start_wellFormed (freshPane : pane < nextPane) (freshProject : project < nextProject) :
    WellFormed (start project pane nextPane nextProject) where
  housed := by
    refine ⟨List.nodup_singleton pane, fun other => ?_, fun tab member => ?_, fun tab member other shown => ?_⟩
    · simp [start, Win.panes, LayoutNode.paneIds]
    · rw [List.mem_singleton.mp member]
      exact List.mem_singleton_self pane
    · rw [List.mem_singleton.mp member] at shown
      cases shown
  fresh other member := by
    rw [Finset.mem_singleton.mp member]
    exact freshPane
  selected := ⟨_, rfl, rfl⟩
  owned tab member := by
    rw [List.mem_singleton.mp member]
    exact List.mem_singleton_self project
  inhabited other member := ⟨_, List.mem_singleton_self _, (List.mem_singleton.mp member).symm⟩
  ids_nodup := List.nodup_singleton project
  ids_fresh other member := by
    rw [List.mem_singleton.mp member]
    exact freshProject

section Panes

theorem activateWindow_panes (s : Server) (i : ℕ) : (s.activateWindow i).panes = s.panes := by
  unfold activateWindow
  dsimp only
  split <;> split <;> rfl

private theorem activateWindow_running (s : Server) (i : ℕ) : (s.activateWindow i).running = s.running := by
  unfold activateWindow
  dsimp only
  split <;> split <;> rfl

/-- What the operations that close nothing do to the panes. -/
structure Retains (s t : Server) : Prop where
  panes : s.panes ⊆ t.panes
  running : t.running = s.running

theorem Retains.activate (retains : Retains s t) (i : ℕ) : Retains s (t.activateWindow i) where
  panes := (activateWindow_panes t i).symm ▸ retains.panes
  running := (activateWindow_running t i).trans retains.running

theorem Retains.refl (s : Server) : Retains s s := ⟨Finset.Subset.refl _, rfl⟩

theorem Retains.same (panes : t.panes = s.panes) (running : t.running = s.running) : Retains s t :=
  ⟨panes ▸ Finset.Subset.refl _, running⟩

private theorem retains_detachPane (housed : Housed s.windows s.panes) {source : ℕ}
    (found : s.position pane = some source) : Retains s (s.detachPane source pane).2 := by
  have rest := (detachPane_detaches housed found).rest
  have repaired := (restacked_repair s pane).rest
  exact .same (by rw [rest, repaired]) (by rw [rest, repaired])

private theorem retains_insertTab (s : Server) (pane : PaneId) (project : ProjectId) (background : Bool) :
    Retains s (s.spawn.insertTab pane project background) := by
  have grown : ∀ windows, Retains s { s.spawn with windows := windows } := fun windows =>
    ⟨Finset.subset_insert _ _, rfl⟩
  unfold insertTab
  dsimp only
  split
  · exact grown _
  · exact (grown _).activate _

private theorem retains_insertSplit (s : Server) (window : ℕ) (anchor pane : PaneId) (dir : SplitDir)
    (background : Bool) : Retains s (s.spawn.insertSplit window anchor pane dir background) := by
  have grown : ∀ windows, Retains s { s.spawn with windows := windows } := fun windows =>
    ⟨Finset.subset_insert _ _, rfl⟩
  unfold insertSplit
  dsimp only
  split
  · exact grown _
  · exact (grown _).activate _

private theorem retains_createTab (s : Server) (project : ProjectId) (background : Bool) :
    Retains s (s.createTab project background) := by
  unfold createTab
  split
  · exact retains_insertTab s _ _ _
  · exact .refl s

private theorem retains_splitPane (s : Server) (pane : PaneId) (dir : SplitDir) (background : Bool) :
    Retains s (s.splitPane pane dir background) := by
  unfold splitPane
  split
  · exact .refl s
  · split
    · exact retains_insertSplit s _ _ _ _ _
    · exact .refl s

private theorem retains_createProject (s : Server) (background : Bool) : Retains s (s.createProject background) := by
  unfold createProject
  dsimp only
  split
  · exact ⟨Finset.subset_insert _ _, rfl⟩
  · refine Retains.activate ?_ _
    exact ⟨Finset.subset_insert _ _, rfl⟩

private theorem retains_movePaneToWindow (housed : Housed s.windows s.panes) (pane : PaneId) (target : ℕ)
    (dir : SplitDir) : Retains s (s.movePaneToWindow pane target dir) := by
  unfold movePaneToWindow
  split
  · exact .refl s
  next source found =>
  split
  · exact .refl s
  have detached := retains_detachPane housed found
  generalize s.detachPane source pane = result at detached ⊢
  refine Retains.activate ?_ _
  exact ⟨detached.panes, detached.running⟩

private theorem retains_movePaneToNewWindow (housed : Housed s.windows s.panes) (pane : PaneId) :
    Retains s (s.movePaneToNewWindow pane) := by
  unfold movePaneToNewWindow
  split
  · exact .refl s
  next source found =>
  split
  · exact .refl s
  split
  · exact .refl s
  have detached := retains_detachPane housed found
  refine Retains.activate ?_ _
  exact ⟨detached.panes, detached.running⟩

private theorem retains_moveTabTo (s : Server) (window place : ℕ) : Retains s (s.moveTabTo window place) := by
  cases read : s.windows[window]? with
  | none =>
    unfold moveTabTo
    rw [read]
    exact .refl s
  | some tab =>
    have rest := (moveTabTo_moves s read place).1.rest
    exact .same (by rw [rest]) (by rw [rest])

private theorem retains_moveProject (s : Server) (project : ProjectId) (direction : ProjectMoveDirection) :
    Retains s (s.moveProject project direction) := by
  unfold moveProject
  split
  · exact .refl s
  · split
    · exact .same rfl rfl
    · exact .refl s

private theorem retains_switchProject (s : Server) (project : ProjectId) : Retains s (s.switchProject project) := by
  have closed : Retains s { s with today := false } := .same rfl rfl
  unfold switchProject
  dsimp only
  split
  · exact closed
  · split
    · exact closed
    · exact closed.activate _

private theorem retains_assign (s : Server) (pane : PaneId) (parent : Option PaneId) :
    Retains s (s.assignTabParent pane parent).2 := by
  have rest := (restacked_assign s pane parent).rest
  exact .same (by rw [rest]) (by rw [rest])

end Panes

section Steps

/-- The operations that close panes. -/
def Op.closes : Op → Bool
  | .closePane _ | .closeTab _ | .removeProject _ => true
  | _ => false

/-- Only a tab that is there is closed. -/
def Op.InRange (s : Server) : Op → Prop
  | .closeTab window => window < s.windows.length
  | _ => True

theorem Retains.standing (retains : Retains s t) (running : s.running = true) (wellFormed : WellFormed t) :
    Standing t := wellFormed.standing (retains.running.trans running)

/-- No operation aborts, and each keeps the hierarchy. -/
theorem step_standing (standing : Standing s) (running : s.running = true) (op : Op) (range : op.InRange s) :
    ∃ t, s.step op = some t ∧ Standing t ∧ (op.closes = false → s.panes ⊆ t.panes) := by
  have wellFormed := standing.wellFormed running
  have keeps : ∀ t, Retains s t → WellFormed t →
      ∃ u, some t = some u ∧ Standing u ∧ (op.closes = false → s.panes ⊆ u.panes) := fun t retains held =>
    ⟨t, rfl, retains.standing running held, fun _ => retains.panes⟩
  unfold step
  rw [if_neg (not_not.mpr running)]
  cases op with
  | createTab project background =>
    exact keeps _ (retains_createTab s project background) (wellFormed.createTab project background)
  | splitPane pane dir background =>
    exact keeps _ (retains_splitPane s pane dir background) (wellFormed.splitPane pane dir background)
  | closePane pane =>
    obtain ⟨t, closed, held⟩ := wellFormed.closePane running pane
    exact ⟨t, closed, held, nofun⟩
  | closeTab window =>
    obtain ⟨t, closed, held⟩ := standing.closeTab running range
    exact ⟨t, closed, held, nofun⟩
  | movePaneToWindow pane target dir =>
    exact keeps _ (retains_movePaneToWindow standing.housed pane target dir)
      (wellFormed.movePaneToWindow pane target dir)
  | movePaneToNewWindow pane =>
    exact keeps _ (retains_movePaneToNewWindow standing.housed pane) (wellFormed.movePaneToNewWindow pane)
  | moveTabTo window place =>
    exact keeps _ (retains_moveTabTo s window place) (wellFormed.moveTabTo window place)
  | createProject background =>
    exact keeps _ (retains_createProject s background) (wellFormed.createProject background)
  | removeProject project =>
    obtain ⟨t, removed, held, runs⟩ := wellFormed.removeProject running project
    exact ⟨t, removed, held.standing runs, nofun⟩
  | moveProject project direction =>
    exact keeps _ (retains_moveProject s project direction) (wellFormed.moveProject project direction)
  | switchProject project =>
    exact keeps _ (retains_switchProject s project) (wellFormed.switchProject project)
  | assignTabParent pane parent =>
    exact keeps _ (retains_assign s pane parent) ((restacked_assign s pane parent).wellFormed wellFormed)

theorem step_running {op : Op} (stepped : s.step op = some t) : s.running = true := by
  unfold step at stepped
  split at stepped
  · cases stepped
  · next running => exact not_not.mp running

private theorem step_inRange {op : Op} (stepped : s.step op = some t) : op.InRange s := by
  cases op with
  | closeTab window =>
    show window < s.windows.length
    by_contra outside
    unfold step at stepped
    split at stepped
    · cases stepped
    · have closed : s.closeTab window = some t := stepped
      unfold closeTab at closed
      rw [List.getElem?_eq_none (Nat.not_lt.mp outside)] at closed
      cases closed
  | _ => trivial

theorem Standing.step {op : Op} (standing : Standing s) (stepped : s.step op = some t) : Standing t := by
  obtain ⟨u, same, held, _⟩ := step_standing standing (step_running stepped) op (step_inRange stepped)
  rw [stepped] at same
  cases same
  exact held

/-- Moving a tab takes it to a place among the tabs of its project, and does nothing where there is none. -/
def MovesTab (s : Server) (window place : ℕ) (t : Server) : Prop :=
  match s.windows[window]? with
  | none => t = s
  | some tab =>
    Reorders tab.project s t ∧
      (place < (s.projectTabs tab.project).length → ∃ origin, (s.projectTabs tab.project)[origin]? = some tab ∧
        t.projectTabs tab.project = ((s.projectTabs tab.project).eraseIdx origin).insertIdx place tab) ∧
      ((s.projectTabs tab.project).length ≤ place → t = s)

private theorem movesTab (s : Server) (window place : ℕ) : MovesTab s window place (s.moveTabTo window place) := by
  unfold MovesTab
  cases read : s.windows[window]? with
  | none =>
    show s.moveTabTo window place = s
    unfold moveTabTo
    rw [read]
  | some tab => exact moveTabTo_moves s read place

/-- After any operations the hierarchy stands, the server runs as long as there is a pane, and the next
operation neither aborts nor takes panes away unless it closes them. -/
theorem hierarchy (freshPane : pane < nextPane) (freshProject : project < nextProject) (ops : List Op)
    (ran : exec step (start project pane nextPane nextProject) ops = some s) :
    Standing s ∧ (s.running = true ↔ s.panes.Nonempty) ∧
      (∀ op : Op, s.running = true → op.InRange s →
        ∃ t, s.step op = some t ∧ (op.closes = false → s.panes ⊆ t.panes)) ∧
      ∀ window place, MovesTab s window place (s.moveTabTo window place) := by
  have standing : Standing s :=
    exec_invariant (fun _ _ _ held stepped => held.step stepped)
      ((start_wellFormed freshPane freshProject).standing rfl) ran
  refine ⟨standing, ?_, fun op running range => ?_, movesTab s⟩
  · rw [standing.running]
    constructor
    · intro some
      obtain ⟨tab, member⟩ := List.exists_mem_of_ne_nil _ some
      exact ⟨tab.active, (standing.housed.live _).mpr ⟨tab, member, standing.housed.active tab member⟩⟩
    · rintro ⟨pane, live⟩
      obtain ⟨tab, member, _⟩ := (standing.housed.live pane).mp live
      exact List.ne_nil_of_mem member
  · obtain ⟨t, stepped, _, retained⟩ := step_standing standing running op range
    exact ⟨t, stepped, retained⟩

/-- A tab is split, its new pane moved to a tab of its own, and the first tab closed. -/
theorem hierarchy_moved : ∃ s, exec step (start 1 1 2 2)
    [.splitPane 1 .horizontal false, .movePaneToNewWindow 2, .closePane 1] = some s ∧ Standing s := by
  obtain ⟨s, ran⟩ : ∃ s, exec step (start 1 1 2 2)
      [.splitPane 1 .horizontal false, .movePaneToNewWindow 2, .closePane 1] = some s := ⟨_, rfl⟩
  exact ⟨s, ran, (hierarchy (by decide) (by decide) _ ran).1⟩

end Steps

end Server

end Uniterm.Model.Workspace
