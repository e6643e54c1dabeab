import Uniterm.Soundness.Workspace.Hierarchy

/-! # Changes of order and selection

Moving a tab permutes the tabs of its project among their own places and keeps the same tab selected;
moving a project permutes the projects.
-/

namespace Uniterm.Model.Workspace

open ToMathlib Machine

namespace Server

variable {s t u : Server} {project : ProjectId} {window place origin a b : ℕ} {tab : Win}

section Tabs

/-- The tabs of one project change places among themselves, and the same tab stays selected. -/
structure Reorders (project : ProjectId) (s t : Server) : Prop where
  rest : t = { s with windows := t.windows, activeWindow := t.activeWindow }
  projects : t.windows.map (·.project) = s.windows.map (·.project)
  others : ∀ (i : ℕ) (tab : Win), s.windows[i]? = some tab → tab.project ≠ project → t.windows[i]? = some tab
  perm : t.windows.Perm s.windows
  selected : t.windows[t.activeWindow]? = s.windows[s.activeWindow]?

theorem Reorders.refl (project : ProjectId) (s : Server) : Reorders project s s :=
  ⟨rfl, rfl, fun _ _ read _ => read, .refl _, rfl⟩

theorem Reorders.trans (first : Reorders project s t) (second : Reorders project t u) :
    Reorders project s u where
  rest := by rw [second.rest, first.rest]
  projects := second.projects.trans first.projects
  others i tab read other := second.others i tab (first.others i tab read other) other
  perm := second.perm.trans first.perm
  selected := second.selected.trans first.selected

theorem Reorders.indices (reorders : Reorders project s t) (other : ProjectId) :
    t.projectWindowIndices other = s.projectWindowIndices other := by
  refine placesOf_congr (p := fun tab : Win => tab.project == other) ?_
  have mapped := congrArg (List.map (· == other)) reorders.projects
  rwa [List.map_map, List.map_map] at mapped

theorem mem_projectWindowIndices :
    window ∈ s.projectWindowIndices project ↔ ∃ tab, s.windows[window]? = some tab ∧ tab.project = project := by
  refine (mem_placesOf (p := fun tab : Win => tab.project == project)).trans ?_
  simp only [beq_iff_eq]

private theorem reorders_swapTabs (first : a ∈ s.projectWindowIndices project)
    (second : b ∈ s.projectWindowIndices project) : Reorders project s (s.swapTabs a b) := by
  obtain ⟨tabA, readA, ownA⟩ := mem_projectWindowIndices.mp first
  obtain ⟨tabB, readB, ownB⟩ := mem_projectWindowIndices.mp second
  have insideA := (List.getElem?_eq_some_iff.mp readA).1
  have insideB := (List.getElem?_eq_some_iff.mp readB).1
  refine ⟨rfl, ?_, fun i tab read other => ?_, swapAt_perm insideA insideB, ?_⟩
  · refine List.ext_getElem? fun i => ?_
    rw [List.getElem?_map, List.getElem?_map]
    show Option.map _ (swapAt s.windows a b)[i]? = _
    rw [getElem?_swapAt insideA insideB]
    split
    · next same => rw [same, readA, readB, Option.map_some, Option.map_some, ownA, ownB]
    · split
      · next same => rw [same, readA, readB, Option.map_some, Option.map_some, ownA, ownB]
      · rfl
  · show (swapAt s.windows a b)[i]? = some tab
    have notB : i ≠ b := by
      rintro rfl
      rw [readB] at read
      exact other (Option.some.inj read ▸ ownB)
    have notA : i ≠ a := by
      rintro rfl
      rw [readA] at read
      exact other (Option.some.inj read ▸ ownA)
    rw [getElem?_swapAt insideA insideB, if_neg notB, if_neg notA, read]
  · show (swapAt s.windows a b)[if s.activeWindow = a then b else if s.activeWindow = b then a else
      s.activeWindow]? = _
    rw [getElem?_swapAt insideA insideB]
    split
    · next same => rw [if_pos rfl, same]
    · next notA =>
      split
      · next same =>
        rw [same]
        split
        · next also => rw [also]
        · rw [if_pos rfl]
      · rfl

/-- Swaps at places of the project's tabs, one after the other. -/
theorem reorders_foldl (project : ProjectId) (steps : List (ℕ × ℕ)) (s : Server)
    (bounds : ∀ step ∈ steps, step.1 < (s.projectWindowIndices project).length ∧
      step.2 < (s.projectWindowIndices project).length) :
    let tabs := s.projectWindowIndices project
    let t := steps.foldl (fun s step => s.swapTabs (tabs.getD step.1 0) (tabs.getD step.2 0)) s
    Reorders project s t ∧ tabs.map (fun i => t.windows[i]?) =
      steps.foldl (fun view step => swapAt view step.1 step.2) (tabs.map fun i => s.windows[i]?) := by
  induction steps generalizing s with
  | nil => exact ⟨.refl project s, rfl⟩
  | cons step steps ih =>
    obtain ⟨boundA, boundB⟩ := bounds step List.mem_cons_self
    intro tabs t
    have member : ∀ k, k < tabs.length → tabs.getD k 0 ∈ tabs := fun k bound => by
      rw [List.getD_eq_getElem _ _ bound]
      exact List.getElem_mem bound
    have swapped := reorders_swapTabs (member _ boundA) (member _ boundB)
    have indices := swapped.indices project
    obtain ⟨rest, view⟩ := ih (s.swapTabs (tabs.getD step.1 0) (tabs.getD step.2 0)) (by
      rw [indices]
      exact fun other member => bounds other (.tail _ member))
    rw [indices] at rest view
    refine ⟨swapped.trans rest, view.trans ?_⟩
    rw [List.foldl_cons]
    congr 1
    refine map_swapAt_places (placesOf_nodup _ _) (fun k inside => ?_) boundA boundB
    obtain ⟨tab, read, _⟩ := mem_projectWindowIndices.mp inside
    exact (List.getElem?_eq_some_iff.mp read).1

/-- The tabs of a project, in their order. -/
def projectTabs (s : Server) (project : ProjectId) : List Win := s.windows.filter (·.project == project)

private theorem map_projectWindowIndices (s : Server) (project : ProjectId) :
    (s.projectWindowIndices project).map (fun i => s.windows[i]?) = (s.projectTabs project).map some :=
  map_placesOf _ _

theorem length_projectWindowIndices (s : Server) (project : ProjectId) :
    (s.projectWindowIndices project).length = (s.projectTabs project).length := by
  simpa using congrArg List.length (map_projectWindowIndices s project)

/-- A tab has a place among the tabs of its project. -/
theorem exists_origin (read : s.windows[window]? = some tab) :
    ∃ origin, (s.projectWindowIndices tab.project).findIdx? (· == window) = some origin ∧
      (s.projectTabs tab.project)[origin]? = some tab := by
  have inside : window ∈ s.projectWindowIndices tab.project := mem_projectWindowIndices.mpr ⟨tab, read, rfl⟩
  obtain ⟨origin, found⟩ := findIdx?_of_mem (p := (· == window)) inside (beq_self_eq_true window)
  obtain ⟨same, there, equal⟩ := findIdx?_read found
  have equal : same = window := beq_iff_eq.mp equal
  refine ⟨origin, found, ?_⟩
  have view := congrArg (·[origin]?) (map_projectWindowIndices s tab.project)
  simp only [List.getElem?_map, there, equal, Option.map_some, read] at view
  obtain ⟨known, here, same⟩ := Option.map_eq_some_iff.mp view.symm
  rw [here, same]

private theorem eraseIdx_back {α : Type} {view : List α} {x : α} (read : view[origin]? = some x) :
    (view.eraseIdx origin).insertIdx origin x = view := by
  obtain ⟨inside, rfl⟩ := List.getElem?_eq_some_iff.mp read
  exact List.insertIdx_eraseIdx_getElem inside

/-- The steps that take an element from one place of a list to another. -/
theorem foldl_steps {α : Type} {view : List α} {x : α} (read : view[origin]? = some x) (bound : place < view.length) :
    (if origin < place then (List.range' origin (place - origin)).map fun i => (i, i + 1)
      else (List.range' place (origin - place)).reverse.map fun i => (i + 1, i)).foldl
        (fun view step => swapAt view step.1 step.2) view = (view.eraseIdx origin).insertIdx place x := by
  have inside := (List.getElem?_eq_some_iff.mp read).1
  have back := eraseIdx_back read
  have length : (view.eraseIdx origin).length = view.length - 1 := List.length_eraseIdx_of_lt inside
  split
  · next less =>
    rw [List.foldl_map]
    have moved := foldl_swapAt_up (view.eraseIdx origin) x origin (place - origin)
      (by omega)
    rwa [back, Nat.add_sub_cancel' (Nat.le_of_lt less)] at moved
  · next notLess =>
    rw [List.foldl_map]
    have moved := foldl_swapAt_down (view.eraseIdx origin) x place (origin - place)
      (by omega)
    rwa [Nat.add_sub_cancel' (Nat.not_lt.mp notLess), back] at moved

/-- Moving a tab takes it to a place among the tabs of its project, if there is one. -/
theorem moveTabTo_moves (s : Server) (read : s.windows[window]? = some tab) (place : ℕ) :
    Reorders tab.project s (s.moveTabTo window place) ∧
      (place < (s.projectTabs tab.project).length → ∃ origin, (s.projectTabs tab.project)[origin]? = some tab ∧
        (s.moveTabTo window place).projectTabs tab.project =
          ((s.projectTabs tab.project).eraseIdx origin).insertIdx place tab) ∧
      ((s.projectTabs tab.project).length ≤ place → s.moveTabTo window place = s) := by
  obtain ⟨origin, found, own⟩ := exists_origin read
  have length := length_projectWindowIndices s tab.project
  have inside := (List.getElem?_eq_some_iff.mp own).1
  unfold moveTabTo
  simp only [read, found, length]
  split
  · next guards =>
    refine ⟨.refl _ s, fun bound => ⟨origin, own, ?_⟩, fun _ => rfl⟩
    obtain rfl := guards.resolve_right (Nat.not_le.mpr bound)
    exact (eraseIdx_back own).symm
  · next guards =>
    obtain ⟨_, bound⟩ := not_or.mp guards
    have bound := Nat.not_le.mp bound
    obtain ⟨reorders, view⟩ := reorders_foldl tab.project
      (if origin < place then (List.range' origin (place - origin)).map fun i => (i, i + 1)
        else (List.range' place (origin - place)).reverse.map fun i => (i + 1, i)) s (by
          rw [length]
          intro step member
          split at member
          · obtain ⟨i, ranged, rfl⟩ := List.mem_map.mp member
            have range := List.mem_range'_1.mp ranged
            dsimp only
            omega
          · obtain ⟨i, ranged, rfl⟩ := List.mem_map.mp member
            have range := List.mem_range'_1.mp (List.mem_reverse.mp ranged)
            dsimp only
            omega)
    refine ⟨reorders, fun _ => ⟨origin, own, ?_⟩, fun far => absurd bound (Nat.not_lt.mpr far)⟩
    have indices := reorders.indices tab.project
    generalize List.foldl _ s _ = t at reorders view indices ⊢
    rw [map_projectWindowIndices, foldl_steps (x := some tab) (by rw [List.getElem?_map, own]; rfl)
      (by rwa [List.length_map]), ← indices, map_projectWindowIndices] at view
    refine List.map_injective_iff.mpr (Option.some_injective Win) (view.trans ?_)
    rw [List.map_insertIdx, List.eraseIdx_map]

theorem Reorders.wellFormed (reorders : Reorders project s t) (wellFormed : WellFormed s)
    (same : t.activeProject = s.activeProject) : WellFormed t := by
  have rest := reorders.rest
  have ids : t.ids = s.ids := by
    rw [rest]
    rfl
  have panes : t.panes = s.panes := by rw [rest]
  have nextPane : t.nextPane = s.nextPane := by rw [rest]
  have nextProject : t.nextProject = s.nextProject := by rw [rest]
  refine Placed.wellFormed ⟨?_, ?_, ?_, ?_, ?_, ?_⟩ ?_
  · rw [panes]
    exact wellFormed.housed.perm reorders.perm
  · rw [panes, nextPane]
    exact wellFormed.fresh
  · intro tab member
    rw [ids]
    exact wellFormed.owned tab (reorders.perm.mem_iff.mp member)
  · intro project member
    obtain ⟨tab, inside, own⟩ := wellFormed.inhabited project (ids ▸ member)
    exact ⟨tab, reorders.perm.mem_iff.mpr inside, own⟩
  · rw [ids]
    exact wellFormed.ids_nodup
  · rw [ids, nextProject]
    exact wellFormed.ids_fresh
  · rw [reorders.selected, same]
    exact wellFormed.selected

theorem WellFormed.moveTabTo (wellFormed : WellFormed s) (window place : ℕ) :
    WellFormed (s.moveTabTo window place) := by
  cases read : s.windows[window]? with
  | none =>
    unfold Server.moveTabTo
    rw [read]
    exact wellFormed
  | some tab =>
    have reorders := (moveTabTo_moves s read place).1
    refine reorders.wellFormed wellFormed ?_
    rw [reorders.rest]

end Tabs

section Projects

theorem WellFormed.moveProject (wellFormed : WellFormed s) (project : ProjectId)
    (direction : ProjectMoveDirection) : WellFormed (s.moveProject project direction) := by
  unfold Server.moveProject
  split
  · exact wellFormed
  next origin found =>
  split
  · next place moved target read =>
    obtain ⟨inside, same⟩ := List.getElem?_eq_some_iff.mp read
    have bound : place ≤ (s.projects.eraseIdx origin).length := by
      rw [List.length_eraseIdx_of_lt inside]
      unfold moveTarget at target
      cases direction <;> dsimp only at target <;> split at target <;> cases target <;> omega
    have perm : ((s.projects.eraseIdx origin).insertIdx place moved).Perm s.projects := by
      refine (List.perm_insertIdx moved _ bound).trans ?_
      rw [← same]
      exact List.getElem_cons_eraseIdx_perm inside
    have ids := perm.map (·.id)
    refine Placed.wellFormed ⟨wellFormed.housed, wellFormed.fresh, ?_, ?_, ?_, ?_⟩ wellFormed.selected
    · exact fun tab member => ids.mem_iff.mpr (wellFormed.owned tab member)
    · exact fun project member => wellFormed.inhabited project (ids.mem_iff.mp member)
    · exact ids.nodup_iff.mpr wellFormed.ids_nodup
    · exact fun project member => wellFormed.ids_fresh project (ids.mem_iff.mp member)
  · exact wellFormed

theorem WellFormed.switchProject (wellFormed : WellFormed s) (project : ProjectId) :
    WellFormed (s.switchProject project) := by
  have placed : Placed { s with today := false } :=
    ⟨wellFormed.housed, wellFormed.fresh, wellFormed.owned, wellFormed.inhabited, wellFormed.ids_nodup,
      wellFormed.ids_fresh⟩
  have closed : WellFormed { s with today := false } := placed.wellFormed wellFormed.selected
  unfold Server.switchProject
  dsimp only
  split
  · exact closed
  · split
    · exact closed
    · next index found =>
      have inside : index ∈ s.projectWindowIndices project := by
        rcases Option.or_eq_some_iff.mp found with first | ⟨_, head⟩
        · exact List.mem_of_find?_eq_some first
        · exact List.mem_of_head? head
      obtain ⟨tab, read, _⟩ := mem_projectWindowIndices.mp inside
      exact placed.activate read

end Projects

end Server

end Uniterm.Model.Workspace
