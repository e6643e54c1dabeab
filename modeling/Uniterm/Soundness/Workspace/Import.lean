import Mathlib.Data.List.Range
import Uniterm.Model.Workspace.Import
import Uniterm.Soundness.Workspace.Runs

/-! # Workspace import

Staging starts all panes or discards the ones it started. What is added to the hierarchy afterwards keeps it well
formed, as long as the tabs of the first imported project go to the project that is there.
-/

namespace Uniterm.Model.Workspace

open NamedServer ToMathlib

section Extending

/-- A tab with one pane. -/
def leafTab (placed : ProjectId × PaneId) : Win :=
  { project := placed.1, layout := .leaf placed.2, active := placed.2 }

/-- A hierarchy with further projects and with tabs of new panes behind the others. -/
structure Extends (s t : Server) (placed : List (ProjectId × PaneId)) (count : ℕ) : Prop where
  windows : t.windows = s.windows ++ placed.map leafTab
  ids : t.ids = s.ids ++ List.range' s.nextProject count
  panes : t.panes = s.panes ∪ (placed.map (·.2)).toFinset
  spawned : placed.map (·.2) = List.range' s.nextPane placed.length
  nextPane : t.nextPane = s.nextPane + placed.length
  nextProject : t.nextProject = s.nextProject + count
  activeWindow : t.activeWindow = s.activeWindow
  activeProject : t.activeProject = s.activeProject
  owned : ∀ p ∈ placed, p.1 ∈ t.ids
  inhabited : ∀ id ∈ List.range' s.nextProject count, ∃ p ∈ placed, p.1 = id

variable {s t : Server} {placed : List (ProjectId × PaneId)} {count : ℕ}

theorem Housed.extend {windows : List Win} {panes : Finset PaneId} (housed : Housed windows panes)
    (distinct : (placed.map (·.2)).Nodup) (new : ∀ p ∈ placed, p.2 ∉ panes) :
    Housed (windows ++ placed.map leafTab) (panes ∪ (placed.map (·.2)).toFinset) := by
  induction placed generalizing windows panes with
  | nil =>
    rw [List.map_nil, List.append_nil, List.map_nil, List.toFinset_nil, Finset.union_empty]
    exact housed
  | cons p rest ih =>
    rw [List.map_cons, List.nodup_cons] at distinct
    have pushed := housed.push (new p (List.mem_cons_self ..)) p.1
    have later := ih pushed distinct.2 fun q member inside => by
      obtain same | old := Finset.mem_insert.mp inside
      · exact distinct.1 (same ▸ List.mem_map_of_mem member)
      · exact new q (List.mem_cons_of_mem _ member) old
    rw [List.append_assoc] at later
    rwa [List.map_cons, List.map_cons, List.toFinset_cons, Finset.union_insert, ← Finset.insert_union]

theorem Server.WellFormed.congr (wellFormed : s.WellFormed) (windows : t.windows = s.windows) (ids : t.ids = s.ids)
    (panes : t.panes = s.panes) (nextPane : t.nextPane = s.nextPane) (nextProject : t.nextProject = s.nextProject)
    (activeWindow : t.activeWindow = s.activeWindow) (activeProject : t.activeProject = s.activeProject) :
    t.WellFormed := by
  refine ⟨⟨?_, ?_, ?_⟩, ?_, ?_, ?_, ?_⟩
  · rw [windows, panes]
    exact wellFormed.housed
  · rw [panes, nextPane]
    exact wellFormed.fresh
  · rw [windows, activeWindow, activeProject]
    exact wellFormed.selected
  · rw [windows, ids]
    exact wellFormed.owned
  · rw [windows, ids]
    exact wellFormed.inhabited
  · rw [ids]
    exact wellFormed.ids_nodup
  · rw [ids, nextProject]
    exact wellFormed.ids_fresh

theorem Server.WellFormed.extend (wellFormed : s.WellFormed) (grown : Extends s t placed count) : t.WellFormed := by
  have distinct : (placed.map (·.2)).Nodup := grown.spawned ▸ List.nodup_range'
  have late : ∀ p ∈ placed, s.nextPane ≤ p.2 ∧ p.2 < s.nextPane + placed.length := fun p member => by
    have inside : p.2 ∈ placed.map (·.2) := List.mem_map_of_mem member
    rw [grown.spawned] at inside
    exact List.mem_range'_1.mp inside
  have new : ∀ p ∈ placed, p.2 ∉ s.panes := fun p member inside =>
    absurd (wellFormed.fresh p.2 inside) (Nat.not_lt_of_le (late p member).1)
  refine Server.Placed.wellFormed ⟨?_, fun pane member => ?_, fun tab member => ?_, fun id member => ?_, ?_,
    fun id member => ?_⟩ ?_
  · rw [grown.windows, grown.panes]
    exact wellFormed.housed.extend distinct new
  · rw [grown.panes, Finset.mem_union, List.mem_toFinset] at member
    rw [grown.nextPane]
    obtain old | started := member
    · exact Nat.lt_of_lt_of_le (wellFormed.fresh pane old) (Nat.le_add_right ..)
    · rw [grown.spawned] at started
      exact (List.mem_range'_1.mp started).2
  · rw [grown.windows, List.mem_append] at member
    obtain old | added := member
    · rw [grown.ids]
      exact List.mem_append_left _ (wellFormed.owned tab old)
    · obtain ⟨p, inside, rfl⟩ := List.mem_map.mp added
      exact grown.owned p inside
  · rw [grown.ids, List.mem_append] at member
    rw [grown.windows]
    obtain old | added := member
    · obtain ⟨tab, inside, own⟩ := wellFormed.inhabited id old
      exact ⟨tab, List.mem_append_left _ inside, own⟩
    · obtain ⟨p, inside, own⟩ := grown.inhabited id added
      exact ⟨leafTab p, List.mem_append_right _ (List.mem_map_of_mem inside), own⟩
  · rw [grown.ids]
    refine wellFormed.ids_nodup.append List.nodup_range' fun id old added => ?_
    exact absurd (wellFormed.ids_fresh id old) (Nat.not_lt_of_le (List.mem_range'_1.mp added).1)
  · rw [grown.ids, List.mem_append] at member
    rw [grown.nextProject]
    obtain old | added := member
    · exact Nat.lt_of_lt_of_le (wellFormed.ids_fresh id old) (Nat.le_add_right ..)
    · exact (List.mem_range'_1.mp added).2
  · obtain ⟨tab, read, own⟩ := wellFormed.selected
    refine ⟨tab, ?_, own.trans grown.activeProject.symm⟩
    rw [grown.windows, grown.activeWindow, List.getElem?_append_left (List.getElem?_eq_some_iff.mp read).1, read]

end Extending

section Staging

variable {host : Host} {s : NamedServer}

/-- Panes start from an identity on. -/
def Spawns (host : Host) (first count : ℕ) : Prop := ∀ k < count, host.spawnError (first + k) = none

/-- The tabs that are staged when all panes start. -/
def pendings (first : PaneId) : List MissingTab → List PendingTab
  | [] => []
  | missing :: rest => ⟨missing.source, missing.tab, first⟩ :: pendings (first + 1) rest

private theorem pendings_panes (first : PaneId) (missing : List MissingTab) :
    (pendings first missing).map (·.pane) = List.range' first missing.length := by
  induction missing generalizing first with
  | nil => rfl
  | cons m rest ih =>
    rw [pendings, List.map_cons, ih, List.length_cons, List.range'_succ]

private theorem pendings_sources (first : PaneId) (missing : List MissingTab) :
    (pendings first missing).map (·.source) = missing.map (·.source) := by
  induction missing generalizing first with
  | nil => rfl
  | cons m rest ih => rw [pendings, List.map_cons, List.map_cons, ih]

private theorem spawns_cons {m : ℕ} (first : ℕ) : Spawns host first (m + 1) ↔
    host.spawnError first = none ∧ Spawns host (first + 1) m := by
  constructor
  · intro spawns
    refine ⟨spawns 0 (Nat.succ_pos m), fun k inside => ?_⟩
    rw [Nat.add_assoc, Nat.add_comm 1 k]
    exact spawns (k + 1) (Nat.succ_lt_succ inside)
  · rintro ⟨now, later⟩ (_ | k) inside
    · exact now
    · rw [Nat.add_comm k 1, ← Nat.add_assoc]
      exact later k (Nat.lt_of_succ_lt_succ inside)

/-- When all panes start, they are live and nothing else changed. -/
theorem stage_ok {missing : List MissingTab} (spawns : Spawns host s.nextPane missing.length) (staged : List PendingTab) :
    stage host missing staged s = (.ok (staged ++ pendings s.nextPane missing),
      { s with panes := s.panes ∪ (List.range' s.nextPane missing.length).toFinset
               nextPane := s.nextPane + missing.length }) := by
  induction missing generalizing s staged with
  | nil =>
    rw [stage, pendings, List.append_nil, List.length_nil, List.range'_zero, List.toFinset_nil, Finset.union_empty]
    rfl
  | cons m rest ih =>
    rw [List.length_cons, spawns_cons] at spawns
    rw [stage, spawnPane, spawns.1]
    dsimp only
    rw [ih spawns.2, pendings, List.append_assoc, List.length_cons, List.range'_succ, List.toFinset_cons,
      Finset.union_insert, Finset.insert_union, Nat.add_right_comm, Nat.add_assoc]
    rfl

private theorem foldl_erase (panes : List PaneId) (held : Finset PaneId) :
    panes.foldl Finset.erase held = held \ panes.toFinset := by
  induction panes generalizing held with
  | nil => rw [List.foldl_nil, List.toFinset_nil, Finset.sdiff_empty]
  | cons pane rest ih =>
    rw [List.foldl_cons, ih, List.toFinset_cons, Finset.sdiff_insert, Finset.erase_sdiff_comm]

/-- When a pane does not start, the ones that were started are discarded. -/
theorem stage_error {missing : List MissingTab} (fails : ¬ Spawns host s.nextPane missing.length)
    {staged : List PendingTab} {before : Finset PaneId} (live : s.panes = before ∪ (staged.map (·.pane)).toFinset)
    (fresh : ∀ pane ∈ before, pane < s.nextPane ∧ pane ∉ staged.map (·.pane)) :
    ∃ error next, stage host missing staged s = (.error error, { s with panes := before, nextPane := next }) := by
  induction missing generalizing s staged with
  | nil => exact absurd (fun k inside => absurd inside (Nat.not_lt_zero k)) fails
  | cons m rest ih =>
    rw [stage, spawnPane]
    cases started : host.spawnError s.nextPane with
    | some error =>
      have kept : s.panes \ (staged.map (·.pane)).toFinset = before := by
        rw [live, Finset.union_sdiff_cancel_right]
        exact Finset.disjoint_left.mpr fun pane old => (List.mem_toFinset.not).mpr (fresh pane old).2
      dsimp only
      rw [discardStagedPanes, foldl_erase, kept]
      exact ⟨_, s.nextPane + 1, rfl⟩
    | none =>
      rw [List.length_cons, spawns_cons, not_and] at fails
      refine ih (fails started) ?_ fun pane old => ?_
      · dsimp only
        rw [live, List.map_append, List.toFinset_append, ← Finset.union_assoc, List.map_singleton, List.toFinset_cons,
          List.toFinset_nil, insert_empty_eq, Finset.union_singleton]
      · obtain ⟨early, other⟩ := fresh pane old
        refine ⟨Nat.lt_succ_of_lt early, fun member => ?_⟩
        rw [List.map_append, List.mem_append, List.map_singleton, List.mem_singleton] at member
        obtain staged_before | rfl := member
        · exact other staged_before
        · exact Nat.lt_irrefl _ early

end Staging

section Adding

variable {s t : NamedServer} {source : ImportedProject} {added : List ImportedProject}

/-- What an import never changes of a project. -/
def RootedProject.site (project : RootedProject) : ProjectId × Text × Text := (project.id, project.name, project.root)

/-- What becomes of a pending tab. -/
def openedTab (ids : List ProjectId) (pending : PendingTab) : NamedWin :=
  { project := ids.getD pending.source 0, layout := .leaf pending.pane, active := pending.pane, name := pending.tab.name }

private theorem adopt_sites (projects : List RootedProject) (project : ProjectId) (pane : PaneId) :
    (adopt projects project pane).map RootedProject.site = projects.map RootedProject.site :=
  map_modify_same projects _ fun _ => rfl

/-- Adding tabs leaves everything but the remembered panes of projects. -/
theorem addTabs_eq (ids : List ProjectId) (staged : List PendingTab) (s : NamedServer) : ∃ projects,
    projects.map RootedProject.site = s.projects.map RootedProject.site ∧
      s.addTabs ids staged = { s with windows := s.windows ++ staged.map (openedTab ids), projects } := by
  induction staged generalizing s with
  | nil => exact ⟨s.projects, rfl, by rw [List.map_nil, List.append_nil]; rfl⟩
  | cons pending rest ih =>
    obtain ⟨projects, same, added⟩ := ih (s.addTab (ids.getD pending.source 0) pending)
    refine ⟨projects, same.trans (adopt_sites ..), ?_⟩
    rw [addTabs, List.foldl_cons, ← addTabs, added, addTab, List.append_assoc]
    rfl

/-- Further projects behind the others. -/
structure Enlarged (s t : NamedServer) (added : List ImportedProject) : Prop where
  rest : t = { s with projects := t.projects, nextProject := s.nextProject + added.length }
  sites : t.projects.map RootedProject.site = s.projects.map RootedProject.site ++
    (added.zipIdx s.nextProject).map fun new => (new.2, new.1.name, new.1.root)

private theorem enlarged_refl (s : NamedServer) : Enlarged s s [] := ⟨rfl, (List.append_nil _).symm⟩

theorem Enlarged.cons (enlarged : Enlarged (s.addProject source) t added) : Enlarged s t (source :: added) where
  rest := by
    rw [enlarged.rest, addProject, List.length_cons, Nat.add_right_comm, Nat.add_assoc]
  sites := by
    rw [enlarged.sites, addProject, List.map_append, List.append_assoc, List.zipIdx_cons, List.map_cons]
    rfl

theorem Enlarged.ids (enlarged : Enlarged s t added) :
    t.hierarchy.ids = s.hierarchy.ids ++ List.range' s.nextProject added.length := by
  have sites := congrArg (List.map Prod.fst) enlarged.sites
  rw [List.map_append, List.map_map, List.map_map, List.map_map] at sites
  rw [Server.ids, Server.ids, NamedServer.hierarchy, NamedServer.hierarchy, List.map_map, List.map_map,
    ← List.zipIdx_map_snd]
  exact sites

private theorem addProjects_enlarged (s : NamedServer) (sources : List ImportedProject) :
    Enlarged s (s.addProjects sources).1 sources ∧
      (s.addProjects sources).2 = List.range' s.nextProject sources.length := by
  induction sources generalizing s with
  | nil => exact ⟨enlarged_refl s, rfl⟩
  | cons source rest ih =>
    obtain ⟨enlarged, ids⟩ := ih (s.addProject source)
    exact ⟨enlarged.cons, congrArg (s.nextProject :: ·) ids⟩

/-- Where the staged tabs go. -/
def placements (ids : List ProjectId) (staged : List PendingTab) : List (ProjectId × PaneId) :=
  staged.map fun pending => (ids.getD pending.source 0, pending.pane)

private theorem placements_projects (ids : List ProjectId) (first : PaneId) (missing : List MissingTab) :
    (placements ids (pendings first missing)).map (·.1) = missing.map fun m => ids.getD m.source 0 := by
  have listed := congrArg (List.map (ids.getD · 0)) (pendings_sources first missing)
  rw [List.map_map, List.map_map] at listed
  rw [placements, List.map_map]
  exact listed

/-- Projects and staged tabs are added to a hierarchy whose new panes are live already. -/
theorem addTabs_extends {h : Server} {missing : List MissingTab} (base : s.hierarchy = { h with
      panes := h.panes ∪ (List.range' h.nextPane missing.length).toFinset
      nextPane := h.nextPane + missing.length }) (enlarged : Enlarged s t added) {ids : List ProjectId}
    (owned : ∀ m ∈ missing, ids.getD m.source 0 ∈ t.hierarchy.ids)
    (inhabited : ∀ id ∈ List.range' s.nextProject added.length, ∃ m ∈ missing, ids.getD m.source 0 = id) :
    Extends h (t.addTabs ids (pendings h.nextPane missing)).hierarchy
      (placements ids (pendings h.nextPane missing)) added.length := by
  obtain ⟨projects, same, done⟩ := addTabs_eq ids (pendings h.nextPane missing) t
  have known : (t.addTabs ids (pendings h.nextPane missing)).hierarchy.ids = t.hierarchy.ids := by
    have sites := congrArg (List.map Prod.fst) same
    rw [List.map_map, List.map_map] at sites
    rw [done, Server.ids, Server.ids, NamedServer.hierarchy, NamedServer.hierarchy, List.map_map, List.map_map]
    exact sites
  have panes : (placements ids (pendings h.nextPane missing)).map (·.2) =
      List.range' h.nextPane missing.length := by
    rw [placements, List.map_map, ← pendings_panes h.nextPane missing]
    rfl
  have length : (placements ids (pendings h.nextPane missing)).length = missing.length := by
    rw [← List.length_map (·.2), panes, List.length_range']
  have sources := placements_projects ids h.nextPane missing
  have same_base := congrArg Server.ids base
  have next_base : s.nextProject = h.nextProject := congrArg Server.nextProject base
  have rest := enlarged.rest
  refine ⟨?_, ?_, ?_, ?_, ?_, ?_, ?_, ?_, fun p member => ?_, fun id member => ?_⟩
  · have windows := congrArg Server.windows base
    rw [done, rest]
    rw [NamedServer.hierarchy] at windows ⊢
    dsimp only at windows ⊢
    rw [List.map_append, windows, placements, List.map_map, List.map_map]
    rfl
  · rw [known, enlarged.ids, same_base, next_base]
    rfl
  · have live := congrArg Server.panes base
    rw [done, rest, panes]
    exact live
  · rw [panes, length]
  · have next := congrArg Server.nextPane base
    rw [done, rest, length]
    exact next
  · rw [done, rest, ← next_base]
    rfl
  · have kept := congrArg Server.activeWindow base
    rw [done, rest]
    exact kept
  · have kept := congrArg Server.activeProject base
    rw [done, rest]
    exact kept
  · have inside : p.1 ∈ (placements ids (pendings h.nextPane missing)).map (·.1) := List.mem_map_of_mem member
    rw [sources] at inside
    obtain ⟨m, missing_m, same⟩ := List.mem_map.mp inside
    rw [known, ← same]
    exact owned m missing_m
  · rw [← next_base] at member
    obtain ⟨m, missing_m, same⟩ := inhabited id member
    have inside : id ∈ (placements ids (pendings h.nextPane missing)).map (·.1) := by
      rw [sources, ← same]
      exact List.mem_map_of_mem missing_m
    exact List.mem_map.mp inside

end Adding

section Missing

variable {projects : List ImportedProject} {held : ℕ → ImportedProject → ℕ}

private theorem mem_missingTabs {m : MissingTab} : m ∈ missingTabs held projects ↔
    projects[m.source]? = some m.project ∧ m.tab ∈ m.project.tabs.drop (held m.source m.project) := by
  unfold missingTabs
  rw [List.mem_flatMap]
  constructor
  · rintro ⟨⟨project, source⟩, member, inside⟩
    obtain ⟨tab, behind, rfl⟩ := List.mem_map.mp inside
    exact ⟨List.mem_zipIdx_iff_getElem?.mp member, behind⟩
  · rintro ⟨read, behind⟩
    exact ⟨(m.project, m.source), List.mem_zipIdx_iff_getElem?.mpr read, List.mem_map.mpr ⟨m.tab, behind, rfl⟩⟩

/-- An imported project without tabs of its own has one that is missing. -/
theorem exists_missingTab {source : ℕ} {project : ImportedProject} (read : projects[source]? = some project)
    (short : held source project < project.tabs.length) : ∃ m ∈ missingTabs held projects, m.source = source := by
  have behind : project.tabs[held source project] ∈ project.tabs.drop (held source project) := by
    rw [List.drop_eq_getElem_cons short]
    exact List.mem_cons_self ..
  exact ⟨⟨source, project, _⟩, mem_missingTabs.mpr ⟨read, behind⟩, rfl⟩

/-- As many tabs are missing as a project has fewer than the imported one. -/
theorem le_count_missing (held : ℕ → ImportedProject → ℕ) {source : ℕ} {project : ImportedProject} (read : projects[source]? = some project)
    (ids : ℕ → ProjectId) : project.tabs.length - held source project ≤
      ((missingTabs held projects).map fun m => ids m.source).count (ids source) := by
  have sub : ((project.tabs.drop (held source project)).map fun tab => (⟨source, project, tab⟩ : MissingTab)).Sublist
      (missingTabs held projects) := by
    rw [missingTabs, List.flatMap]
    refine List.sublist_flatten_of_mem ?_
    exact List.mem_map.mpr ⟨(project, source), List.mem_zipIdx_iff_getElem?.mpr read, rfl⟩
  have count := (sub.map fun m => ids m.source).count_le (ids source)
  rw [List.map_map] at count
  have all : ((project.tabs.drop (held source project)).map
      ((fun m : MissingTab => ids m.source) ∘ fun tab => ⟨source, project, tab⟩)).count (ids source) =
        project.tabs.length - held source project := by
    rw [← List.length_drop, ← List.length_map (f := (fun m : MissingTab => ids m.source) ∘ fun tab => ⟨source, project, tab⟩)]
    refine List.count_eq_length.mpr fun id member => ?_
    obtain ⟨tab, -, rfl⟩ := List.mem_map.mp member
    rfl
  rwa [all] at count

end Missing

section Assigning

variable {s t : NamedServer} {source : ImportedProject} {added : List ImportedProject}

/-- The first project at a root is told by identities and roots. -/
theorem projectAt_eq (s : NamedServer) (root : Text) :
    s.projectAt root = ((s.projects.map RootedProject.site).find? (·.2.2 == root)).map (·.1) := by
  rw [projectAt, List.find?_map, Option.map_map]
  rfl

theorem Enlarged.projectAt (enlarged : Enlarged s t added) {root : Text} {id : ProjectId}
    (found : s.projectAt root = some id) : t.projectAt root = some id := by
  rw [projectAt_eq] at found ⊢
  obtain ⟨site, first, same⟩ := Option.map_eq_some_iff.mp found
  rw [enlarged.sites, List.find?_append, first, Option.some_or, Option.map_some, same]

private theorem projectAt_addProject_self (absent : s.projectAt source.root = none) :
    (s.addProject source).projectAt source.root = some s.nextProject := by
  rw [projectAt, Option.map_eq_none_iff] at absent
  rw [projectAt, addProject, List.find?_append, absent, Option.none_or, List.find?_cons, beq_self_eq_true]
  rfl

private theorem projectAt_of_addProject {root : Text} (absent : (s.addProject source).projectAt root = none) :
    s.projectAt root = none := by
  rw [projectAt, Option.map_eq_none_iff, addProject, List.find?_append, Option.or_eq_none_iff] at absent
  rw [projectAt, absent.1, Option.map_none]

/-- Every imported project is assigned the project at its root; an added one is some imported project's whose root
was not there. -/
structure Assigns (s t : NamedServer) (projects : List ImportedProject) (ids : List ProjectId) (count : ℕ) : Prop where
  enlarged : ∃ added, Enlarged s t added ∧ added.length = count
  assigned : ∀ (i : ℕ) (source : ImportedProject), projects[i]? = some source →
    ∃ id, ids[i]? = some id ∧ t.projectAt source.root = some id
  new : ∀ id ∈ List.range' s.nextProject count, ∃ (i : ℕ) (source : ImportedProject),
    projects[i]? = some source ∧ ids[i]? = some id ∧ s.projectAt source.root = none

private theorem assignProjects_assigns (s : NamedServer) (projects : List ImportedProject) :
    Assigns s (s.assignProjects projects).1 projects (s.assignProjects projects).2.1
      (s.assignProjects projects).2.2 := by
  induction projects generalizing s with
  | nil => exact ⟨⟨[], enlarged_refl s, rfl⟩, fun i source read => (nomatch read), fun id member => nomatch member⟩
  | cons source rest ih =>
    rw [assignProjects]
    cases found : s.projectAt source.root with
    | some project =>
      obtain ⟨⟨added, enlarged, count⟩, assigned, new⟩ := ih s
      refine ⟨⟨added, enlarged, count⟩, fun i source' read => ?_, fun id member => ?_⟩
      · cases i with
        | zero =>
          obtain rfl := Option.some.inj read
          exact ⟨project, rfl, enlarged.projectAt found⟩
        | succ i => exact assigned i source' read
      · obtain ⟨i, source', read, place, absent⟩ := new id member
        exact ⟨i + 1, source', read, place, absent⟩
    | none =>
      obtain ⟨⟨added, enlarged, count⟩, assigned, new⟩ := ih (s.addProject source)
      refine ⟨⟨source :: added, enlarged.cons, congrArg (· + 1) count⟩, fun i source' read => ?_, fun id member => ?_⟩
      · cases i with
        | zero =>
          obtain rfl := Option.some.inj read
          exact ⟨s.nextProject, rfl, enlarged.projectAt (projectAt_addProject_self found)⟩
        | succ i => exact assigned i source' read
      · rw [List.range'_succ, List.mem_cons] at member
        obtain rfl | later := member
        · exact ⟨0, source, rfl, rfl, found⟩
        · obtain ⟨i, source', read, place, absent⟩ := new id later
          exact ⟨i + 1, source', read, place, projectAt_of_addProject absent⟩

/-- With a project at every root nothing is added. -/
theorem assignProjects_of_all {projects : List ImportedProject}
    (all : ∀ source ∈ projects, (s.projectAt source.root).isSome) :
    ∃ ids, s.assignProjects projects = (s, ids, 0) := by
  induction projects with
  | nil => exact ⟨[], rfl⟩
  | cons source rest ih =>
    obtain ⟨ids, done⟩ := ih fun other member => all other (List.mem_cons_of_mem _ member)
    obtain ⟨id, found⟩ := Option.isSome_iff_exists.mp (all source (List.mem_cons_self ..))
    rw [assignProjects, found]
    dsimp only
    rw [done]
    exact ⟨_, rfl⟩

/-- The project at a root is one of the projects. -/
theorem exists_of_projectAt {root : Text} {id : ProjectId} (found : s.projectAt root = some id) :
    ∃ project ∈ s.projects, project.root = root ∧ project.id = id := by
  obtain ⟨project, first, same⟩ := Option.map_eq_some_iff.mp found
  have at_root := List.find?_some (p := fun project : RootedProject => project.root == root) first
  exact ⟨project, List.mem_of_find?_eq_some first, beq_iff_eq.mp at_root, same⟩

private theorem countP_range (tabs : List Win) (p : Win → Bool) :
    ((List.range tabs.length).filter fun index => tabs[index]?.any p).length = tabs.countP p := by
  induction tabs with
  | nil => rfl
  | cons tab rest ih =>
    rw [← List.countP_eq_length_filter] at ih ⊢
    rw [List.length_cons, List.range_succ_eq_map, List.countP_cons, List.countP_cons, List.countP_map, ← ih]
    rfl

/-- How many tabs a project has. -/
theorem length_projectWindowIndices (s : Server) (project : ProjectId) :
    (s.projectWindowIndices project).length = (s.windows.map (·.project)).count project := by
  rw [Server.projectWindowIndices, countP_range, List.count, List.countP_map]
  rfl

end Assigning

section Checking

variable {host : Host} {projects : List ImportedProject}

/-- Every imported project that passes has a tab. -/
theorem tabs_of_checked (checked : checkProjects host projects = none) {project : ImportedProject}
    (member : project ∈ projects) : 0 < project.tabs.length := by
  unfold checkProjects at checked
  split at checked
  · nomatch checked
  split at checked
  · nomatch checked
  have passed := List.findSome?_eq_none_iff.mp checked project member
  unfold checkProject at passed
  split at passed
  · nomatch passed
  split at passed
  · nomatch passed
  split at passed
  · nomatch passed
  next some =>
    rw [not_or, List.isEmpty_iff] at some
    exact List.length_pos_iff.mpr some.1

end Checking

section Outcomes

/-- Projects, tabs, live panes and the selection are as before. -/
structure Unchanged (s t : NamedServer) : Prop where
  projects : t.projects = s.projects
  windows : t.windows = s.windows
  panes : t.panes = s.panes
  selection : t.activeWindow = s.activeWindow ∧ t.activeProject = s.activeProject

/-- The number of tabs of a project. -/
def tabCount (s : NamedServer) (project : ProjectId) : ℕ := (s.windows.filter (·.project = project)).length

/-- What a merge adds, what it counts, and that it need not be done again. -/
structure Merges (host : Host) (projects : List ImportedProject) (s t : NamedServer) (counts : ImportCounts) : Prop where
  addedTabs : ∃ added, t.windows = s.windows ++ added ∧ counts.2.1 = added.length
  addedProjects : ∃ added, t.projects.map RootedProject.site = s.projects.map RootedProject.site ++ added ∧
    counts.1 = added.length
  selection : t.activeWindow = s.activeWindow ∧ t.activeProject = s.activeProject
  merged : counts.2.2 = (projects.filter fun project => project.root ∈ s.projects.map (·.root)).length
  supplied : ∀ project ∈ projects, ∃ there ∈ t.projects, there.root = project.root ∧
    ∀ other ∈ projects, other.root = project.root → other.tabs.length ≤ tabCount t there.id
  settled : ∀ again : Host, again.isDir = host.isDir →
    importWorkspace again projects .merge t = (.ok (0, 0, projects.length), t)

/-- An import that fails changes nothing, and one that succeeds keeps the hierarchy. -/
def AllOrNothing (host : Host) (projects : List ImportedProject) (mode : WorkspaceImportMode) (s : NamedServer) : Prop :=
  match importWorkspace host projects mode s with
  | (.error _, t) => Unchanged s t
  | (.ok counts, t) => t.hierarchy.WellFormed ∧ (mode = .merge → Merges host projects s t counts)

/-- A fresh import goes through: the import passes its checks, the workspace has one project at the first path, one
tab and one pane, and the panes that are missing start. -/
structure Admitted (host : Host) (projects : List ImportedProject) (s : NamedServer) : Prop where
  checked : checkProjects host projects = none
  windows : s.windows.length = 1
  panes : s.panes.card = 1
  root : ∃ own, s.projects = [own] ∧ projects.head?.map (·.root) = some own.root
  spawns : Spawns host s.nextPane ((projects.map (·.tabs.length)).sum - 1)

variable {host : Host} {projects : List ImportedProject} {s t : NamedServer}

private theorem length_windows_filter (s : NamedServer) (project : ProjectId) :
    tabCount s project = (s.hierarchy.windows.map (·.project)).count project := by
  rw [tabCount, NamedServer.hierarchy, List.map_map, List.count, List.countP_map, List.countP_eq_length_filter]
  congr 1

/-- The state that staging leaves when some pane does not start. -/
theorem stage_unchanged (wellFormed : s.hierarchy.WellFormed) {missing : List MissingTab}
    (fails : ¬ Spawns host s.nextPane missing.length) :
    ∃ error t, stage host missing [] s = (.error error, t) ∧ Unchanged s t := by
  have live : s.panes = s.panes ∪ (([] : List PendingTab).map (·.pane)).toFinset := by
    rw [List.map_nil, List.toFinset_nil, Finset.union_empty]
  obtain ⟨error, next, failed⟩ :=
    stage_error fails live fun pane old => ⟨wellFormed.fresh pane old, List.not_mem_nil⟩
  exact ⟨error, _, failed, rfl, rfl, rfl, rfl, rfl⟩

private theorem tabsAt_of_projectAt {root : Text} {id : ProjectId} (found : s.projectAt root = some id) :
    s.tabsAt root = tabCount s id := by
  rw [tabsAt, found, Option.map_some, Option.getD_some, length_projectWindowIndices, length_windows_filter]

private theorem projectAt_isSome {root : Text} : (s.projectAt root).isSome ↔ root ∈ s.projects.map (·.root) := by
  rw [NamedServer.projectAt, Option.isSome_map, List.find?_isSome, List.mem_map]
  simp only [beq_iff_eq]

private theorem checkProjects_congr {again : Host} (same : again.isDir = host.isDir) :
    checkProjects again projects = checkProjects host projects := by
  unfold checkProjects checkProject
  rw [same]

/-- A merge that finds every project with all its tabs leaves everything. -/
theorem merge_settled (checked : checkProjects host projects = none)
    (enough : ∀ project ∈ projects, ∃ id, t.projectAt project.root = some id ∧ project.tabs.length ≤ tabCount t id)
    {again : Host} (same : again.isDir = host.isDir) :
    importWorkspace again projects .merge t = (.ok (0, 0, projects.length), t) := by
  have all : ∀ project ∈ projects, (t.projectAt project.root).isSome := fun project member => by
    obtain ⟨id, found, -⟩ := enough project member
    rw [found]
    rfl
  have none_missing : missingTabs (fun _ project => t.tabsAt project.root) projects = [] := by
    refine List.eq_nil_iff_forall_not_mem.mpr fun m member => ?_
    obtain ⟨read, behind⟩ := mem_missingTabs.mp member
    obtain ⟨id, found, count⟩ := enough m.project (List.mem_of_getElem? read)
    rw [tabsAt_of_projectAt found, List.drop_eq_nil_of_le count] at behind
    nomatch behind
  obtain ⟨ids, assigned⟩ := assignProjects_of_all all
  rw [importWorkspace, checkProjects_congr same, checked]
  dsimp only
  rw [mergeImportedWorkspace, none_missing, stage]
  dsimp only
  rw [assigned, List.countP_eq_length.mpr all]
  rfl

/-- A merge whose panes start. -/
theorem merge_spawned (wellFormed : s.hierarchy.WellFormed) (checked : checkProjects host projects = none)
    (spawns : Spawns host s.nextPane (missingTabs (fun _ project => s.tabsAt project.root) projects).length) :
    ∃ counts t, mergeImportedWorkspace host projects s = (.ok counts, t) ∧ t.hierarchy.WellFormed ∧
      Merges host projects s t counts := by
  have staged := stage_ok spawns []
  rw [List.nil_append] at staged
  rw [mergeImportedWorkspace, staged]
  generalize staging : { s with
    panes := s.panes ∪ (List.range' s.nextPane
      (missingTabs (fun _ project => s.tabsAt project.root) projects).length).toFinset
    nextPane := s.nextPane + (missingTabs (fun _ project => s.tabsAt project.root) projects).length } = b
  generalize missing : missingTabs (fun _ project => s.tabsAt project.root) projects = absent at staging
  have assigns := assignProjects_assigns b projects
  dsimp only
  generalize b.assignProjects projects = assignment at assigns
  obtain ⟨t, ids, count⟩ := assignment
  dsimp only at assigns ⊢
  obtain ⟨⟨added, enlarged, rfl⟩, assigned, new⟩ := assigns
  have at_root (root : Text) : b.projectAt root = s.projectAt root := by rw [← staging]; rfl
  have assigned_to {source : ℕ} {project : ImportedProject} (read : projects[source]? = some project) :
      t.projectAt project.root = some (ids.getD source 0) := by
    obtain ⟨id, place, found⟩ := assigned source project read
    rw [found, List.getD_eq_getElem?_getD, place, Option.getD_some]
  have grown : Extends s.hierarchy (t.addTabs ids (pendings s.nextPane absent)).hierarchy
      (placements ids (pendings s.nextPane absent)) added.length := by
    refine addTabs_extends (by rw [← staging]; rfl) enlarged (fun m member => ?_) fun id member => ?_
    · rw [← missing] at member
      obtain ⟨there, inside, -, same⟩ := exists_of_projectAt (assigned_to (mem_missingTabs.mp member).1)
      rw [← same]
      exact List.mem_map.mpr ⟨there.toProject, List.mem_map_of_mem inside, rfl⟩
    · obtain ⟨source, project, read, place, none⟩ := new id member
      rw [at_root] at none
      have short : s.tabsAt project.root < project.tabs.length := by
        rw [tabsAt, none]
        exact tabs_of_checked checked (List.mem_of_getElem? read)
      obtain ⟨m, inside, rfl⟩ :=
        (exists_missingTab read short : ∃ m ∈ missingTabs (fun _ project => s.tabsAt project.root) projects, _)
      refine ⟨m, missing ▸ inside, ?_⟩
      rw [List.getD_eq_getElem?_getD, place, Option.getD_some]
  obtain ⟨adopted, same, done⟩ := addTabs_eq ids (pendings s.nextPane absent) t
  have final_at (root : Text) : (t.addTabs ids (pendings s.nextPane absent)).projectAt root = t.projectAt root := by
    rw [projectAt_eq, projectAt_eq, done, same]
  have enough : ∀ project ∈ projects, ∃ id,
      (t.addTabs ids (pendings s.nextPane absent)).projectAt project.root = some id ∧
        project.tabs.length ≤ tabCount (t.addTabs ids (pendings s.nextPane absent)) id := by
    intro project member
    obtain ⟨source, read⟩ := List.getElem?_of_mem member
    refine ⟨ids.getD source 0, (final_at _).trans (assigned_to read), ?_⟩
    have old : s.tabsAt project.root ≤ (s.hierarchy.windows.map (·.project)).count (ids.getD source 0) := by
      cases found : s.projectAt project.root with
      | none =>
        rw [tabsAt, found]
        exact Nat.zero_le _
      | some id =>
        have kept := enlarged.projectAt ((at_root _).trans found)
        rw [assigned_to read] at kept
        rw [tabsAt_of_projectAt found, length_windows_filter, Option.some.inj kept]
    have behind := le_count_missing (fun _ project => s.tabsAt project.root) read (ids.getD · 0)
    rw [missing] at behind
    rw [length_windows_filter, grown.windows, List.map_append, List.count_append, List.map_map]
    change _ ≤ _ + ((placements ids (pendings s.nextPane absent)).map (·.1)).count _
    rw [placements_projects]
    omega
  refine ⟨_, _, rfl, wellFormed.extend grown, ?_, ?_, ?_, ?_, fun project member => ?_, fun again same => ?_⟩
  · refine ⟨(pendings s.nextPane absent).map (openedTab ids), ?_, (List.length_map _).symm⟩
    rw [done, enlarged.rest, ← staging]
  · refine ⟨(added.zipIdx s.nextProject).map fun new => (new.2, new.1.name, new.1.root), ?_, ?_⟩
    · rw [done]
      exact same.trans (by rw [enlarged.sites, ← staging])
    · rw [List.length_map, List.length_zipIdx]
  · exact ⟨grown.activeWindow, grown.activeProject⟩
  · rw [List.countP_eq_length_filter]
    refine congrArg List.length (List.filter_congr fun project _ => ?_)
    rw [Bool.eq_iff_iff, projectAt_isSome, decide_eq_true_iff]
  · obtain ⟨id, found, -⟩ := enough project member
    obtain ⟨there, inside, root, named⟩ := exists_of_projectAt found
    refine ⟨there, inside, root, fun other other_member same_root => ?_⟩
    obtain ⟨id', found', count⟩ := enough other other_member
    rw [same_root, found] at found'
    rwa [named, Option.some.inj found']
  · exact merge_settled checked enough same

private theorem length_missingTabs (held : ℕ → ImportedProject → ℕ) (projects : List ImportedProject) :
    (missingTabs held projects).length =
      (projects.zipIdx.map fun (project, source) => project.tabs.length - held source project).sum := by
  rw [missingTabs, List.length_flatMap]
  simp only [List.length_map, List.length_drop]

/-- A fresh import needs a pane for every tab but the first. -/
theorem length_missing_fresh {first : ImportedProject} (some : 0 < first.tabs.length) (rest : List ImportedProject) :
    (missingTabs (fun source _ => if source = 0 then 1 else 0) (first :: rest)).length =
      ((first :: rest).map (·.tabs.length)).sum - 1 := by
  have behind : (rest.zipIdx 1).map (fun (project, source) => project.tabs.length - if source = 0 then 1 else 0) =
      rest.map (·.tabs.length) := by
    rw [← List.zipIdx_map_fst 1 rest, List.map_map, List.zipIdx_map_fst]
    refine List.map_congr_left fun entry member => ?_
    have late := (List.mem_zipIdx member).1
    dsimp only [Function.comp_apply]
    rw [if_neg (by omega), Nat.sub_zero]
  rw [length_missingTabs, List.zipIdx_cons, List.map_cons, Nat.zero_add, behind, List.map_cons, List.sum_cons,
    List.sum_cons]
  dsimp only
  rw [if_pos rfl]
  omega

/-- A fresh import that is not admitted fails and changes nothing. -/
theorem fresh_refused (wellFormed : s.hierarchy.WellFormed) (refused : ¬ Admitted host projects s) :
    ∃ error t, importWorkspace host projects .fresh s = (.error error, t) ∧ Unchanged s t := by
  unfold importWorkspace
  cases checked : checkProjects host projects with
  | some error => exact ⟨error, s, rfl, rfl, rfl, rfl, rfl, rfl⟩
  | none =>
    dsimp only
    cases projects with
    | nil => exact ⟨_, s, rfl, rfl, rfl, rfl, rfl, rfl⟩
    | cons first rest =>
      dsimp only
      unfold importFreshWorkspace
      split
      next own tab project window =>
        split
        · exact ⟨_, s, rfl, rfl, rfl, rfl, rfl, rfl⟩
        next card =>
        split
        · exact ⟨_, s, rfl, rfl, rfl, rfl, rfl, rfl⟩
        next root =>
        have fails : ¬ Spawns host s.nextPane
            (missingTabs (fun source _ => if source = 0 then 1 else 0) (first :: rest)).length := fun spawns => by
          rw [length_missing_fresh (tabs_of_checked checked (List.mem_cons_self ..))] at spawns
          refine refused ⟨checked, by rw [window]; rfl, not_not.mp card, ⟨own, project, ?_⟩, spawns⟩
          rw [List.head?_cons, Option.map_some, not_not.mp root]
        obtain ⟨error, t, failed, unchanged⟩ := stage_unchanged wellFormed fails
        rw [failed]
        exact ⟨error, t, rfl, unchanged⟩
      · exact ⟨_, s, rfl, rfl, rfl, rfl, rfl, rfl⟩

/-- A fresh import that is admitted succeeds, and keeps the hierarchy just where the project is number one. -/
theorem fresh_admitted (wellFormed : s.hierarchy.WellFormed) (admitted : Admitted host projects s) :
    ∃ counts t, importWorkspace host projects .fresh s = (.ok counts, t) ∧
      (t.hierarchy.WellFormed ↔ ∀ own ∈ s.projects, own.id = 1) := by
  obtain ⟨checked, windows, card, ⟨own, project, root⟩, spawns⟩ := admitted
  obtain ⟨tab, window⟩ := List.length_eq_one_iff.mp windows
  cases projects with
  | nil => nomatch root
  | cons first rest =>
    rw [← length_missing_fresh (tabs_of_checked checked (List.mem_cons_self ..))] at spawns
    have staged := stage_ok spawns []
    rw [List.head?_cons, Option.map_some, Option.some.injEq] at root
    rw [List.nil_append] at staged
    rw [importWorkspace, checked]
    dsimp only
    rw [importFreshWorkspace, project, window]
    dsimp only
    rw [if_neg (not_not.mpr card), if_neg (not_not.mpr root.symm), staged]
    dsimp only
    generalize missing : missingTabs (fun source _ => if source = 0 then 1 else 0) (first :: rest) = absent
    generalize taken : takeOver _ own tab first = b
    obtain ⟨enlarged, ids⟩ := addProjects_enlarged b rest
    generalize b.addProjects rest = added at enlarged ids
    obtain ⟨t, listed⟩ := added
    dsimp only at enlarged ids ⊢
    have base : b.hierarchy = { s.hierarchy with
        panes := s.panes ∪ (List.range' s.nextPane absent.length).toFinset
        nextPane := s.nextPane + absent.length } := by
      rw [← taken, NamedServer.hierarchy, NamedServer.hierarchy, project, window]
      rfl
    obtain ⟨adopted, same, done⟩ := addTabs_eq (1 :: listed) (pendings s.nextPane absent) t
    obtain ⟨selected, read, own_tab⟩ := wellFormed.selected
    have windows : s.hierarchy.windows = [tab.toWin] := by rw [NamedServer.hierarchy, window]; rfl
    have known : s.hierarchy.ids = [own.id] := by rw [Server.ids, NamedServer.hierarchy, project]; rfl
    have own_project : tab.project = own.id := by
      have owned := wellFormed.owned tab.toWin (by rw [windows]; exact List.mem_singleton_self _)
      rw [known] at owned
      exact List.mem_singleton.mp owned
    have first_selected : s.activeWindow = 0 ∧ s.activeProject = tab.project := by
      rw [windows] at read
      have bound := (List.getElem?_eq_some_iff.mp read).1
      have zero : s.hierarchy.activeWindow = 0 := Nat.lt_one_iff.mp bound
      rw [zero] at read
      obtain rfl := Option.some.inj read
      exact ⟨zero, own_tab.symm⟩
    refine ⟨_, _, rfl, fun kept other member => ?_, fun one => ?_⟩
    · obtain ⟨shown, there, at_one⟩ := kept.selected
      have front : ((t.addTabs (1 :: listed) (pendings s.nextPane absent)).selectFirst).hierarchy.windows[0]? =
          some tab.toWin := by
        rw [selectFirst, done, enlarged.rest, ← taken]
        rfl
      have same_tab := front.symm.trans there
      rw [List.mem_singleton.mp member, ← own_project]
      obtain rfl := Option.some.inj same_tab
      exact at_one
    · have number := one own (List.mem_singleton_self _)
      have bound : b.nextProject = s.nextProject := congrArg Server.nextProject base
      have all : t.hierarchy.ids = 1 :: listed := by
        rw [enlarged.ids, ids, show b.hierarchy.ids = [1] by rw [base, ← number]; exact known]
        rfl
      have grown : Extends s.hierarchy (t.addTabs (1 :: listed) (pendings s.nextPane absent)).hierarchy
          (placements (1 :: listed) (pendings s.nextPane absent)) rest.length := by
        refine addTabs_extends base enlarged (fun m member => ?_) fun id member => ?_
        · rw [← missing] at member
          have inside := (List.getElem?_eq_some_iff.mp (mem_missingTabs.mp member).1).1
          have length : (1 :: listed).length = (first :: rest).length := by
            rw [List.length_cons, ids, List.length_range', List.length_cons]
          rw [all, List.getD_eq_getElem?_getD, List.getElem?_eq_getElem (length ▸ inside), Option.getD_some]
          exact List.getElem_mem _
        · rw [← ids] at member
          obtain ⟨i, place⟩ := List.getElem?_of_mem member
          have short := (List.getElem?_eq_some_iff.mp place).1
          rw [ids, List.length_range'] at short
          have read : (first :: rest)[i + 1]? = some rest[i] := List.getElem?_eq_getElem short
          have tabs := tabs_of_checked checked (List.mem_of_getElem? read)
          obtain ⟨m, found, source⟩ : ∃ m ∈ missingTabs (fun source _ => if source = 0 then 1 else 0) (first :: rest),
              m.source = i + 1 := exists_missingTab read (by rwa [if_neg (Nat.succ_ne_zero i)])
          refine ⟨m, missing ▸ found, ?_⟩
          rw [source, List.getD_eq_getElem?_getD, List.getElem?_cons_succ, place, Option.getD_some]
      refine (wellFormed.extend grown).congr rfl ?_ rfl rfl rfl ?_ ?_
      · rw [Server.ids, Server.ids, NamedServer.hierarchy, NamedServer.hierarchy, List.map_map, List.map_map]
        exact map_modify_same _ _ fun _ => rfl
      · exact first_selected.1.symm.trans grown.activeWindow.symm
      · exact (number.symm.trans (own_project.symm.trans first_selected.2.symm)).trans grown.activeProject.symm

private theorem merge_outcome (wellFormed : s.hierarchy.WellFormed) : AllOrNothing host projects .merge s := by
  unfold AllOrNothing importWorkspace
  cases checked : checkProjects host projects with
  | some error => exact ⟨rfl, rfl, rfl, rfl, rfl⟩
  | none =>
    dsimp only
    by_cases spawns : Spawns host s.nextPane (missingTabs (fun _ project => s.tabsAt project.root) projects).length
    · obtain ⟨counts, t, done, kept, merges⟩ := merge_spawned wellFormed checked spawns
      rw [done]
      exact ⟨kept, fun _ => merges⟩
    · obtain ⟨error, t, failed, unchanged⟩ := stage_unchanged wellFormed spawns
      rw [mergeImportedWorkspace, failed]
      exact unchanged

/-- An import fails without a trace or keeps the hierarchy, unless it is a fresh one that goes through although the
project is not number one. -/
theorem allOrNothing_iff (wellFormed : s.hierarchy.WellFormed) (mode : WorkspaceImportMode) :
    AllOrNothing host projects mode s ↔
      (mode = .fresh → Admitted host projects s → ∀ own ∈ s.projects, own.id = 1) := by
  cases mode with
  | merge => exact ⟨fun _ fresh => (nomatch fresh), fun _ => merge_outcome wellFormed⟩
  | fresh =>
    unfold AllOrNothing
    by_cases admitted : Admitted host projects s
    · obtain ⟨counts, t, done, kept⟩ := fresh_admitted wellFormed admitted
      rw [done]
      exact ⟨fun sound _ _ => kept.mp sound.1, fun one => ⟨kept.mpr (one rfl admitted), fun merge => nomatch merge⟩⟩
    · obtain ⟨error, t, failed, unchanged⟩ := fresh_refused wellFormed admitted
      rw [failed]
      exact ⟨fun _ _ accepted => absurd accepted admitted, fun _ => unchanged⟩

/-- A workspace of one project with one tab, and a project to import at its root. -/
def sole (id : ProjectId) : NamedServer where
  windows := [{ project := id, layout := .leaf 5, active := 5, name := none }]
  projects := [{ id, activePane := some 5, name := ['a'], root := ['/'] }]
  panes := {5}
  activeWindow := 0
  activeProject := id
  nextPane := 6
  nextProject := 3

def soleImport : List ImportedProject := [⟨[], ['b'], ['/'], [⟨none⟩]⟩]

/-- Every path is a directory, and every pane starts. -/
def willing : Host := ⟨fun _ => true, fun _ => none⟩

private theorem sole_wellFormed {id : ProjectId} (early : id < 3) : (sole id).hierarchy.WellFormed :=
  Server.start_wellFormed (Nat.lt_succ_self 5) early

/-- Two projects with two tabs each, the first of them at the root that is there. -/
def severalTabs : List ImportedProject :=
  [⟨[], ['b'], ['/'], [⟨none⟩, ⟨some ['t']⟩]⟩, ⟨[], ['c'], ['/', 'c'], [⟨none⟩, ⟨none⟩]⟩]

/-- Every path is a directory, and the third pane does not start. -/
def failing : Host := ⟨fun _ => true, fun pane => if pane = 8 then some ['x'] else none⟩

/-- Three panes are staged; where the last one does not start, the other two are taken back. -/
theorem allOrNothing_several :
    (AllOrNothing willing severalTabs .merge (sole 1) ∧
      (importWorkspace willing severalTabs .merge (sole 1)).1 = .ok (1, 3, 1)) ∧
    (AllOrNothing failing severalTabs .fresh (sole 1) ∧
      (importWorkspace failing severalTabs .fresh (sole 1)).1.toOption = none) := by
  have outcome (host : Host) (mode : WorkspaceImportMode) : AllOrNothing host severalTabs mode (sole 1) := by
    refine (allOrNothing_iff (sole_wellFormed (by decide)) mode).mpr fun _ _ own member => ?_
    obtain rfl := List.mem_singleton.mp member
    rfl
  exact ⟨⟨outcome willing .merge, rfl⟩, outcome failing .fresh, rfl⟩

/-- The sole remaining project has number two, but the selection goes to number one. -/
theorem not_allOrNothing_of_number : ¬ ∀ host projects mode (s : NamedServer), s.hierarchy.WellFormed →
    AllOrNothing host projects mode s := by
  intro claimed
  have sound := claimed willing soleImport .fresh (sole 2) (sole_wellFormed (by decide))
  unfold AllOrNothing at sound
  obtain ⟨tab, read, own⟩ := sound.1.selected
  obtain rfl := Option.some.inj read
  exact absurd own (by decide)

end Outcomes

end Uniterm.Model.Workspace
