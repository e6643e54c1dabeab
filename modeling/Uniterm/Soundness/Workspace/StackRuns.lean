import Uniterm.Soundness.Workspace.Reanchoring

/-! # Stacks through the operations

No operation breaks the forest of the tabs, and none but the assignment of a parent takes tabs of one stack
apart.
-/

namespace Uniterm.Model.Workspace

open ToMathlib Machine Relation

namespace Server

variable {s t u : Server} {pane : PaneId} {moved : Option PaneId} {tab : Win}

section Steps

/-- The forest stands, and the panes of one stack stay together, but for one that moves. -/
structure Together (moved : Option PaneId) (s t : Server) : Prop where
  forest : Forest t.windows
  joined : ∀ first second, first ∈ t.panes → second ∈ t.panes → moved ≠ some first → moved ≠ some second →
    Connected s.windows first second → Connected t.windows first second

theorem Together.of_linked (forest : Forest t.windows)
    (linked : ∀ first second, Linked s.windows first second → Linked t.windows first second) :
    Together moved s t where
  forest := forest
  joined _ _ _ _ _ _ joined := joined.mono linked

theorem Together.same (forest : Forest s.windows) (windows : t.windows = s.windows) : Together moved s t :=
  .of_linked (windows ▸ forest) fun _ _ linked => windows ▸ linked

theorem Together.trans (first : Together none s t) (second : Together none t u) (fewer : u.panes ⊆ t.panes) :
    Together none s u where
  forest := second.forest
  joined a b live alive _ _ joined := second.joined a b live alive nofun nofun
    (first.joined a b (fewer live) (fewer alive) nofun nofun joined)

private theorem activateWindow_windows (s : Server) (i : ℕ) : (s.activateWindow i).windows = s.windows := by
  unfold activateWindow
  dsimp only
  split <;> split <;> rfl

theorem Together.activate (together : Together moved s t) (i : ℕ) : Together moved s (t.activateWindow i) where
  forest := (activateWindow_windows t i).symm ▸ together.forest
  joined a b live alive left right joined := by
    rw [activateWindow_panes] at live alive
    rw [activateWindow_windows]
    exact together.joined a b live alive left right joined

/-- A new tab for a pane. -/
theorem together_push (forest : Forest s.windows) (project : ProjectId) (pane : PaneId)
    (windows : t.windows = s.windows ++ [{ project := project, layout := .leaf pane, active := pane }]) :
    Together moved s t := by
  refine .of_linked ?_ fun first second linked => ?_
  · rw [windows]
    exact forest.push project pane
  · rw [windows]
    exact linked_push linked _

private theorem together_createTab (forest : Forest s.windows) (project : ProjectId) (background : Bool) :
    Together moved s (s.createTab project background) := by
  unfold createTab insertTab
  dsimp only
  split
  · split
    · exact together_push forest project s.nextPane rfl
    · exact (together_push forest project s.nextPane rfl).activate _
  · exact .same forest rfl

private theorem together_createProject (forest : Forest s.windows) (background : Bool) :
    Together moved s (s.createProject background) := by
  unfold createProject
  dsimp only
  split
  · exact together_push forest s.nextProject s.nextPane rfl
  · exact (together_push forest s.nextProject s.nextPane rfl).activate _

/-- A tab takes in a pane that no tab has. -/
theorem together_grow (forest : Forest s.windows) {i : ℕ} (read : s.windows[i]? = some tab) {f : Win → Win}
    (grows : Grows pane tab (f tab)) (fresh : ∀ tab ∈ s.windows, pane ∉ tab.panes)
    (own : ∀ tab ∈ s.windows, tab.active ∈ tab.panes) (windows : t.windows = s.windows.modify i f) :
    Together moved s t := by
  refine .of_linked ?_ fun first second linked => ?_
  · rw [windows]
    exact forest.grow read grows fresh own
  · rw [windows]
    exact linked_grow read grows linked

private theorem together_splitPane (forest : Forest s.windows) (wellFormed : WellFormed s) (pane : PaneId)
    (dir : SplitDir) (background : Bool) : Together moved s (s.splitPane pane dir background) := by
  unfold splitPane
  split
  · exact .same forest rfl
  next window found =>
  obtain ⟨tab, read, inside⟩ := position_some found
  split
  · have panes := (LayoutNode.splitInPlace_perm () dir s.nextPane inside).2
    have fresh : ∀ tab ∈ s.windows, s.nextPane ∉ tab.panes := fun tab member also =>
      wellFormed.placed.spawned ((wellFormed.housed.live _).mpr ⟨tab, member, also⟩)
    have own := wellFormed.housed.active
    unfold insertSplit
    dsimp only
    split
    · refine together_grow forest read ⟨panes, ?_, rfl, rfl⟩ fresh own rfl
      exact panes.mem_iff.mpr (.tail _ (own tab (List.mem_of_getElem? read)))
    · refine Together.activate ?_ _
      refine together_grow forest read ⟨?_, ?_, rfl, rfl⟩ fresh own (List.modify_modify_eq ..)
      · exact panes
      · exact panes.mem_iff.mpr List.mem_cons_self
  · exact .same forest rfl

private theorem together_retabbed (forest : Forest s.windows) (windows : t.windows.Perm s.windows) :
    Together moved s t :=
  .of_linked ((SameLinks.of_perm windows.symm).forest forest) fun _ _ linked =>
    (SameLinks.of_perm windows.symm).linked linked

private theorem together_moveTabTo (forest : Forest s.windows) (window place : ℕ) :
    Together moved s (s.moveTabTo window place) := by
  cases read : s.windows[window]? with
  | none =>
    unfold moveTabTo
    rw [read]
    exact .same forest rfl
  | some tab => exact together_retabbed forest (moveTabTo_moves s read place).1.perm

private theorem together_moveProject (forest : Forest s.windows) (project : ProjectId)
    (direction : ProjectMoveDirection) : Together moved s (s.moveProject project direction) := by
  unfold moveProject
  split
  · exact .same forest rfl
  · split
    · exact .same forest rfl
    · exact .same forest rfl

private theorem together_switchProject (forest : Forest s.windows) (project : ProjectId) :
    Together moved s (s.switchProject project) := by
  have closed : Together moved s { s with today := false } := .same forest rfl
  unfold switchProject
  dsimp only
  split
  · exact closed
  · split
    · exact closed
    · exact closed.activate _

end Steps

section Leaving

/-- A pane leaves its tab after the repair: what stays of its stack stays together. -/
theorem leave_together (forest : Forest s.windows) (housed : Housed s.windows s.panes) (pane : PaneId) :
    Forest ((s.repairStackAnchor pane).windows.filterMap (Win.leave pane)) ∧
      ∀ first second, first ≠ pane → second ≠ pane → Connected s.windows first second →
        Connected ((s.repairStackAnchor pane).windows.filterMap (Win.leave pane)) first second := by
  have frees := frees_repair forest housed pane
  have repaired := restacked_housed (restacked_repair s pane) housed
  exact ⟨frees.forest.leave frees.free repaired.active repaired.zoomed, frees.connected⟩

private theorem together_closePane (forest : Forest s.windows) (coherent : Coherent s)
    (closed : s.closePane pane = some t) : Together none s t ∧ t.panes ⊆ s.panes := by
  obtain ⟨u, same, discards⟩ := closePane_discards coherent pane
  rw [closed] at same
  cases same
  obtain ⟨leaves, connected⟩ := leave_together forest coherent.housed pane
  have windows := discards.windows
  have panes : t.panes = s.panes.erase pane := by
    rw [discards.panes, (restacked_repair s pane).rest]
  refine ⟨⟨windows ▸ leaves, fun first second live alive _ _ joined => ?_⟩, ?_⟩
  · rw [panes] at live alive
    rw [windows]
    exact connected first second (Finset.ne_of_mem_erase live) (Finset.ne_of_mem_erase alive) joined
  · rw [panes]
    exact Finset.erase_subset _ _

/-- Closings of panes one after the other, each keeping what the next needs. -/
theorem together_closePanes (inv : List PaneId → Server → Prop) (coherent : ∀ panes s, inv panes s → Coherent s)
    (keeps : ∀ pane panes s t, inv (pane :: panes) s → s.closePane pane = some t → t.running = true → inv panes t)
    {panes : List PaneId} (forest : Forest s.windows) (held : inv panes s)
    (closed : s.closePanes panes = some t) : Together none s t ∧ t.panes ⊆ s.panes := by
  induction panes generalizing s with
  | nil =>
    cases closed
    exact ⟨.same forest rfl, Finset.Subset.refl _⟩
  | cons pane panes ih =>
    obtain ⟨mid, first, rest⟩ := Option.bind_eq_some_iff.mp closed
    obtain ⟨together, fewer⟩ := together_closePane forest (coherent _ s held) first
    split at rest
    · next running =>
      obtain ⟨later, less⟩ := ih together.forest (keeps pane panes s mid held first running) rest
      exact ⟨together.trans later less, less.trans fewer⟩
    · cases rest
      exact ⟨together, fewer⟩

private theorem together_closeTab (forest : Forest s.windows) (wellFormed : WellFormed s) (running : s.running = true)
    {window : ℕ} (closed : s.closeTab window = some t) : Together none s t := by
  obtain ⟨tab, _, closed⟩ := Option.bind_eq_some_iff.mp closed
  refine (together_closePanes (fun _ s => WellFormed s ∧ s.running = true) (fun _ _ held => held.1.toCoherent)
    (fun pane panes s t held first runs => ?_) forest ⟨wellFormed, running⟩ closed).1
  obtain ⟨u, same, standing⟩ := held.1.closePane held.2 pane
  rw [first] at same
  cases same
  exact ⟨standing.wellFormed runs, runs⟩

private theorem together_removeProject (forest : Forest s.windows) (wellFormed : WellFormed s)
    (running : s.running = true)
    {project : ProjectId} (removed : s.removeProject project = some t) : Together none s t := by
  by_cases guards : s.projects.length ≤ 1 ∨ ¬ s.hasProject project = true
  · unfold removeProject at removed
    rw [if_pos guards] at removed
    cases removed
    exact .same forest rfl
  · obtain ⟨several, known⟩ := not_or.mp guards
    obtain ⟨u, panes, begins, removing, windows, _⟩ := removeProject_begins wellFormed running several
      ((hasProject_iff s project).mp (not_not.mp known))
    rw [begins] at removed
    have together := (together_closePanes (fun panes s => Removing project panes s)
      (fun _ _ held => held.toCoherent) (fun pane panes s t held first _ => by
        obtain ⟨u, same, next⟩ := held.closePane
        rw [first] at same
        cases same
        exact next) (windows ▸ forest) removing removed).1
    exact ⟨together.forest, fun first second live alive left right joined =>
      together.joined first second live alive left right (windows ▸ joined)⟩

private theorem detached_together (forest : Forest s.windows) (housed : Housed s.windows s.panes) {source : ℕ}
    (found : s.position pane = some source) : Together (some pane) s (s.detachPane source pane).2 := by
  obtain ⟨leaves, connected⟩ := leave_together forest housed pane
  have windows := (detachPane_detaches housed found).windows
  refine ⟨windows ▸ leaves, fun first second _ _ left right joined => ?_⟩
  rw [windows]
  exact connected first second (fun same => left (congrArg some same.symm))
    (fun same => right (congrArg some same.symm)) joined

/-- What follows the detaching of a pane keeps what it left together. -/
theorem Together.after (together : Together moved s t) (next : Together moved t u) (same : u.panes = t.panes) :
    Together moved s u where
  forest := next.forest
  joined first second live alive left right joined := next.joined first second live alive left right
    (together.joined first second (same ▸ live) (same ▸ alive) left right joined)

private theorem together_movePaneToWindow (forest : Forest s.windows) (wellFormed : WellFormed s) (pane : PaneId)
    (target : ℕ) (dir : SplitDir) : Together (some pane) s (s.movePaneToWindow pane target dir) := by
  unfold movePaneToWindow
  split
  · exact .same forest rfl
  next source found =>
  split
  · exact .same forest rfl
  next guards =>
  obtain ⟨different, inRange, _⟩ := not_or.mp guards |>.imp_right not_or.mp
  have detaches := detachPane_detaches wellFormed.housed found
  have parted := detaches.parted wellFormed
  have together := detached_together forest wellFormed.housed found
  obtain ⟨goal, readGoal⟩ : ∃ goal, s.windows[target]? = some goal :=
    ⟨_, List.getElem?_eq_getElem (Nat.not_le.mp inRange)⟩
  obtain ⟨goalNow, readNow, _⟩ := (restacked_repair s pane).read readGoal
  have index := detaches.index target (Ne.symm different)
  generalize s.detachPane source pane = result at index parted together ⊢
  obtain ⟨closed, after⟩ := result
  dsimp only at index parted together ⊢
  generalize (if closed = true ∧ source < target then target - 1 else target) = place at index ⊢
  rw [readNow] at index
  have goalMember := List.mem_of_getElem? index
  have panes := (LayoutNode.splitInPlace_perm () dir pane (parted.housed.active goalNow goalMember)).2
  have fresh : ∀ tab ∈ after.windows, pane ∉ tab.panes := fun tab member also =>
    Finset.notMem_erase pane _ ((parted.housed.live pane).mpr ⟨tab, member, also⟩)
  refine Together.activate ?_ _
  refine together.after ?_ (by rfl)
  exact together_grow together.forest index ⟨panes, panes.mem_iff.mpr List.mem_cons_self, rfl, rfl⟩ fresh
    parted.housed.active rfl

private theorem together_movePaneToNewWindow (forest : Forest s.windows) (wellFormed : WellFormed s) (pane : PaneId) :
    Together (some pane) s (s.movePaneToNewWindow pane) := by
  unfold movePaneToNewWindow
  split
  · exact .same forest rfl
  next source found =>
  obtain ⟨tab, read, inside⟩ := position_some found
  simp only [read]
  split
  · exact .same forest rfl
  next several =>
  obtain ⟨sibling, beside, different⟩ := exists_other (Nat.not_lt.mp several)
    (wellFormed.housed.panes_nodup (List.mem_of_getElem? read)) pane
  have detaches := detachPane_detaches wellFormed.housed found
  have together := detached_together forest wellFormed.housed found
  have kept : (s.detachPane source pane).1 = false := by
    cases closed : (s.detachPane source pane).1 with
    | false => rfl
    | true => exact absurd (detaches.closed closed tab read sibling beside) different
  have length := detaches.kept kept
  have inRange : source < (s.detachPane source pane).2.windows.length := by
    have same := congrArg List.length (restacked_repair s pane).places
    rw [List.length_map, List.length_map] at same
    rw [length, same]
    exact (List.getElem?_eq_some_iff.mp read).1
  refine Together.activate ?_ _
  refine together.after ?_ (by rfl)
  -- the new tab is put after its source rather than at the end
  refine Together.after (together_push together.forest tab.project pane (t := { (s.detachPane source pane).2 with
    windows := (s.detachPane source pane).2.windows ++
      [{ project := tab.project, layout := .leaf pane, active := pane }] }) rfl) ?_ (by rfl)
  refine together_retabbed (together.forest.push tab.project pane) ?_
  exact (List.perm_insertIdx _ _ inRange).trans (List.perm_append_singleton ..).symm

end Leaving

section Runs

/-- The pane that an operation moves to another tab. -/
def Op.moves : Op → Option PaneId
  | .movePaneToWindow pane _ _ | .movePaneToNewWindow pane => some pane
  | _ => none

/-- The operation that changes what a tab is anchored to on demand. -/
def Op.assigns : Op → Bool
  | .assignTabParent _ _ => true
  | _ => false

/-- Every operation keeps the forest, and all but one keep the stacks together. -/
theorem step_together (standing : Standing s) (forest : Forest s.windows) {op : Op} (stepped : s.step op = some t) :
    Forest t.windows ∧ (op.assigns = false → Together op.moves s t) := by
  have running := step_running stepped
  have wellFormed := standing.wellFormed running
  have keeps : ∀ u, Together op.moves s u → some u = some t →
      Forest t.windows ∧ (op.assigns = false → Together op.moves s t) := by
    rintro u together ⟨⟩
    exact ⟨together.forest, fun _ => together⟩
  unfold step at stepped
  rw [if_neg (not_not.mpr running)] at stepped
  cases op with
  | createTab project background => exact keeps _ (together_createTab forest project background) stepped
  | splitPane pane dir background => exact keeps _ (together_splitPane forest wellFormed pane dir background) stepped
  | closePane pane =>
    exact keeps t (together_closePane forest wellFormed.toCoherent stepped).1 rfl
  | closeTab window => exact keeps t (together_closeTab forest wellFormed running stepped) rfl
  | movePaneToWindow pane target dir =>
    exact keeps _ (together_movePaneToWindow forest wellFormed pane target dir) stepped
  | movePaneToNewWindow pane => exact keeps _ (together_movePaneToNewWindow forest wellFormed pane) stepped
  | moveTabTo window place => exact keeps _ (together_moveTabTo forest window place) stepped
  | createProject background => exact keeps _ (together_createProject forest background) stepped
  | removeProject project => exact keeps t (together_removeProject forest wellFormed running stepped) rfl
  | moveProject project direction => exact keeps _ (together_moveProject forest project direction) stepped
  | switchProject project => exact keeps _ (together_switchProject forest project) stepped
  | assignTabParent pane parent =>
    cases stepped
    exact ⟨(assigns forest standing.housed pane parent).forest forest standing.housed, nofun⟩

private theorem forest_of_flat {windows : List Win} (flat : ∀ tab ∈ windows, tab.stackParent = none) :
    Forest windows where
  anchored tab member anchor above := by
    rw [flat tab member] at above
    cases above
  ranked := by
    refine ⟨fun _ => 0, fun _ _ _ _ => rfl, fun tab member anchor above => ?_⟩
    rw [flat tab member] at above
    cases above

/-- The tab of an anchor is another one. -/
theorem anchor_elsewhere (forest : Forest s.windows) {i : ℕ} (read : s.windows[i]? = some tab) {anchor : PaneId}
    (above : tab.stackParent = some anchor) : ∃ j other, j ≠ i ∧ s.windows[j]? = some other ∧
      other.project = tab.project ∧ anchor ∈ other.panes := by
  have member := List.mem_of_getElem? read
  obtain ⟨other, there, project, owns⟩ := forest.anchored tab member anchor above
  obtain ⟨j, readOther⟩ := List.mem_iff_getElem?.mp there
  refine ⟨j, other, ?_, readOther, project, owns⟩
  rintro rfl
  rw [read] at readOther
  cases readOther
  obtain ⟨depth, ranked⟩ := forest.ranked
  have less := ranked.deeper tab member anchor above
  rw [ranked.level tab member anchor owns] at less
  exact Nat.lt_irrefl _ less

private theorem exec_forest {ops : List Op} (standing : Standing s) (forest : Forest s.windows)
    (ran : exec step s ops = some t) : Standing t ∧ Forest t.windows := by
  have keeps : ∀ (s : Server) (op : Op) (t : Server), Standing s ∧ Forest s.windows → s.step op = some t →
      Standing t ∧ Forest t.windows := fun s op t held stepped =>
    ⟨held.1.step stepped, (step_together held.1 held.2 stepped).1⟩
  exact exec_invariant keeps ⟨standing, forest⟩ ran

/-- From tabs without parents every run keeps a forest: anchors are live panes of other tabs of the same project,
no way up comes back and every one ends at a root, a parent is refused exactly when there is no such tab or it
would close a cycle, and closing and moving panes keeps together what had one root. -/
theorem stacks_forest (wellFormed : WellFormed s) (running : s.running = true)
    (flat : ∀ tab ∈ s.windows, tab.stackParent = none) (ops : List Op) (ran : exec step s ops = some t) :
    (∀ (i : ℕ) (tab : Win), t.windows[i]? = some tab → ∀ anchor, tab.stackParent = some anchor →
      anchor ∈ t.panes ∧ ∃ (j : ℕ) (other : Win), j ≠ i ∧ t.windows[j]? = some other ∧ other.project = tab.project ∧
        anchor ∈ other.panes) ∧
    (∀ i, ¬ TransGen (fun a b => t.tabParent a = some b) i i) ∧
    (∀ i, Reaches t.tabParent i (t.stackRoot i) ∧ t.tabParent (t.stackRoot i) = none) ∧
    (∀ pane parent, ((t.assignTabParent pane parent).1 = false ↔ Refuses t pane parent) ∧
      ((t.assignTabParent pane parent).1 = false → (t.assignTabParent pane parent).2 = t)) ∧
    ∀ (op : Op) (u : Server), t.step op = some u → op.assigns = false → ∀ first second,
      first ∈ t.panes → second ∈ t.panes → first ∈ u.panes → second ∈ u.panes →
      op.moves ≠ some first → op.moves ≠ some second → SameStack t first second → SameStack u first second := by
  obtain ⟨standing, forest⟩ := exec_forest (wellFormed.standing running) (forest_of_flat flat) ran
  have housed := standing.housed
  refine ⟨fun i tab read anchor above => ?_, tabParent_not_cycle forest housed, stackRoot_root forest housed,
    fun pane parent => ?_, fun op u stepped other first second live alive stays remains left right same => ?_⟩
  · obtain ⟨j, other, different, there, project, owns⟩ := anchor_elsewhere forest read above
    exact ⟨(housed.live anchor).mpr ⟨other, List.mem_of_getElem? there, owns⟩, j, other, different, there, project,
      owns⟩
  · have assigned := assigns forest housed pane parent
    exact ⟨assigned.refuses forest housed, assigned.unchanged⟩
  · obtain ⟨after, together⟩ := step_together standing forest stepped
    have joined := (sameStack_iff forest housed live alive).mp same
    exact (sameStack_iff after (standing.step stepped).housed stays remains).mpr
      ((together other).joined first second stays remains left right joined)

/-- Two tabs stacked on one, whose pane then closes: every way up still ends at a root. -/
theorem stacks_forest_closed : ∃ t, exec step (start 1 1 2 2) [.createTab 1 false, .createTab 1 false,
    .assignTabParent 2 (some 1), .assignTabParent 3 (some 1), .closePane 1] = some t ∧
      ∀ i, t.tabParent (t.stackRoot i) = none := by
  obtain ⟨t, ran⟩ : ∃ t, exec step (start 1 1 2 2) [.createTab 1 false, .createTab 1 false,
      .assignTabParent 2 (some 1), .assignTabParent 3 (some 1), .closePane 1] = some t := ⟨_, rfl⟩
  have flat : ∀ tab ∈ (start 1 1 2 2).windows, tab.stackParent = none := by
    intro tab member
    rw [List.mem_singleton.mp member]
  exact ⟨t, ran, fun i => ((stacks_forest (start_wellFormed (by decide) (by decide)) rfl flat _ ran).2.2.1 i).2⟩

end Runs

end Server

end Uniterm.Model.Workspace
