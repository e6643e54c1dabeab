import Uniterm.Model.Scan
import Uniterm.Model.Workspace.Hierarchy

/-! # Workspace import

An imported workspace is a list of projects with tabs. Panes for the missing tabs are staged first, and only when all
of them could be started are projects and tabs added. A fresh import takes over the one project of a new workspace, a
merge adds to whatever there is. The event log, the screen and the file manager are left out.
-/

namespace Uniterm.Model.Workspace

/-- A tab needs only its optional name. -/
structure ImportedTab where
  name : Option Text

structure ImportedProject where
  sourceId : Text
  name : Text
  root : Text
  tabs : List ImportedTab

inductive WorkspaceImportMode where
  | fresh
  | merge
deriving DecidableEq

/-- What the host answers: which paths are directories, and with which error a pane does not start. -/
structure Host where
  isDir : Text → Bool
  spawnError : PaneId → Option Text

structure NamedWin extends Win where
  name : Option Text

structure RootedProject extends Project where
  name : Text
  root : Text
  metadata : List (Text × Text) := []

/-- The hierarchy with the names and roots that an import reads and writes. -/
structure NamedServer where
  windows : List NamedWin
  projects : List RootedProject
  panes : Finset PaneId
  activeWindow : ℕ
  activeProject : ProjectId
  nextPane : ℕ
  nextProject : ℕ

/-- The numbers of added projects, of added tabs and of merged projects. -/
abbrev ImportCounts := ℕ × ℕ × ℕ

namespace NamedServer

/-- The hierarchy without names. -/
def hierarchy (s : NamedServer) : Server where
  windows := s.windows.map (·.toWin)
  projects := s.projects.map (·.toProject)
  panes := s.panes
  activeWindow := s.activeWindow
  activeProject := s.activeProject
  nextPane := s.nextPane
  nextProject := s.nextProject

section Checking

def maxProjects : ℕ := 256
def maxTabsPerProject : ℕ := 256

/-- The error of one imported project, if it has one. -/
def checkProject (host : Host) (project : ImportedProject) : Option Text :=
  if project.name.trim.isEmpty ∨ project.name.len > 256 then some "an imported Project has an invalid name".toList
  else if project.root.len > 4096 ∨ ¬ host.isDir project.root then
    some ("Project path is unavailable: ".toList ++ project.root)
  else if project.tabs.isEmpty ∨ project.tabs.length > maxTabsPerProject then
    some ("Project '".toList ++ project.name ++ "' has an invalid Tab count".toList)
  else if (project.tabs.filterMap (·.name)).any (·.len > 256) then
    some ("Project '".toList ++ project.name ++ "' has an invalid Tab name".toList)
  else none

/-- The error of an imported workspace. -/
def checkProjects (host : Host) (projects : List ImportedProject) : Option Text :=
  if projects.isEmpty then some "the imported Workspace has no usable Projects".toList
  else if projects.length > maxProjects then some "the imported Workspace exceeds 256 Projects".toList
  else projects.findSome? (checkProject host)

end Checking

section Staging

/-- A tab that needs a pane: its place among the imported projects, its project and the tab. -/
structure MissingTab where
  source : ℕ
  project : ImportedProject
  tab : ImportedTab

structure PendingTab where
  source : ℕ
  tab : ImportedTab
  pane : PaneId

/-- A process for a new pane. Its identity is used up even when the process does not start. -/
def spawnPane (host : Host) (s : NamedServer) : Except Text PaneId × NamedServer :=
  match host.spawnError s.nextPane with
  | some error => (.error error, { s with nextPane := s.nextPane + 1 })
  | none => (.ok s.nextPane, { s with panes := insert s.nextPane s.panes, nextPane := s.nextPane + 1 })

def discardStagedPanes (s : NamedServer) (panes : List PaneId) : NamedServer :=
  { s with panes := panes.foldl Finset.erase s.panes }

/-- Start a pane for each missing tab, or none at all. -/
def stage (host : Host) : List MissingTab → List PendingTab → NamedServer →
    Except Text (List PendingTab) × NamedServer
  | [], staged, s => (.ok staged, s)
  | missing :: rest, staged, s =>
    match s.spawnPane host with
    | (.ok pane, s) => stage host rest (staged ++ [⟨missing.source, missing.tab, pane⟩]) s
    | (.error error, s) =>
      (.error ("could not create a Tab for '".toList ++ missing.project.name ++ "': ".toList ++ error),
        s.discardStagedPanes (staged.map (·.pane)))

/-- The tabs of imported projects behind the ones that each project has already. -/
def missingTabs (held : ℕ → ImportedProject → ℕ) (projects : List ImportedProject) : List MissingTab :=
  projects.zipIdx.flatMap fun (project, source) =>
    (project.tabs.drop (held source project)).map fun tab => ⟨source, project, tab⟩

end Staging

section Adding

/-- The first pane of a project that has none. -/
def adopt (projects : List RootedProject) (project : ProjectId) (pane : PaneId) : List RootedProject :=
  projects.modify (projects.findIdx (·.id == project)) fun item =>
    { item with activePane := item.activePane.or (some pane) }

def addProject (s : NamedServer) (source : ImportedProject) : NamedServer :=
  { s with
    nextProject := s.nextProject + 1
    projects := s.projects ++ [{
      id := s.nextProject
      activePane := none
      name := source.name
      root := source.root
      metadata := [("desktop.source_id".toList, source.sourceId)] }] }

/-- A tab with one pane, behind the others. -/
def addTab (project : ProjectId) (s : NamedServer) (pending : PendingTab) : NamedServer :=
  { s with
    windows := s.windows ++
      [{ project, layout := .leaf pending.pane, active := pending.pane, name := pending.tab.name }]
    projects := adopt s.projects project pending.pane }

/-- The staged tabs, each in the project of its source. -/
def addTabs (ids : List ProjectId) (staged : List PendingTab) (s : NamedServer) : NamedServer :=
  staged.foldl (fun s pending => s.addTab (ids.getD pending.source 0) pending) s

/-- Insert into a map of metadata. -/
def setMetadata (metadata : List (Text × Text)) (key value : Text) : List (Text × Text) :=
  (metadata.filter (·.1 ≠ key)) ++ [(key, value)]

end Adding

section Fresh

/-- One project for every further imported one, with their identities. -/
def addProjects (s : NamedServer) : List ImportedProject → NamedServer × List ProjectId
  | [] => (s, [])
  | source :: rest =>
    let (last, ids) := addProjects (s.addProject source) rest
    (last, s.nextProject :: ids)

/-- The one project and the one tab take the names of the first imported ones. -/
def takeOver (s : NamedServer) (own : RootedProject) (tab : NamedWin) (first : ImportedProject) : NamedServer :=
  { s with
    projects := [{ own with
      name := first.name
      metadata := setMetadata own.metadata "desktop.source_id".toList first.sourceId }]
    windows := [{ tab with name := first.tabs.head?.bind (·.name) }] }

/-- Select the first tab and the project of that number. -/
def selectFirst (s : NamedServer) : NamedServer :=
  { s with
    activeWindow := 0
    activeProject := 1
    projects := s.projects.modify 0 fun item => { item with activePane := s.windows.head?.map (·.active) } }

/-- Import into a newly created workspace, whose project is taken to be number one. -/
def importFreshWorkspace (host : Host) (first : ImportedProject) (rest : List ImportedProject) (s : NamedServer) :
    Except Text ImportCounts × NamedServer :=
  match s.projects, s.windows with
  | [own], [tab] =>
    if s.panes.card ≠ 1 then (.error "fresh import requires a newly-created Workspace".toList, s)
    else if own.root ≠ first.root then
      (.error "fresh Workspace was not started at the first Project path".toList, s)
    else
      match stage host (missingTabs (fun source _ => if source = 0 then 1 else 0) (first :: rest)) [] s with
      | (.error error, s) => (.error error, s)
      | (.ok staged, s) =>
        let (s, ids) := (s.takeOver own tab first).addProjects rest
        (.ok ((first :: rest).length, ((first :: rest).map (·.tabs.length)).sum, 0),
          (s.addTabs (1 :: ids) staged).selectFirst)
  | _, _ => (.error "fresh import requires a newly-created Workspace".toList, s)

end Fresh

section Merge

/-- The first project at a root. -/
def projectAt (s : NamedServer) (root : Text) : Option ProjectId := (s.projects.find? (·.root == root)).map (·.id)

/-- How many tabs the project at the root of an imported one has. -/
def tabsAt (s : NamedServer) (root : Text) : ℕ :=
  ((s.projectAt root).map fun id => (s.hierarchy.projectWindowIndices id).length).getD 0

/-- A project for each imported one, added where there is none at its root. The number of added ones comes last. -/
def assignProjects (s : NamedServer) : List ImportedProject → NamedServer × List ProjectId × ℕ
  | [] => (s, [], 0)
  | source :: rest =>
    match s.projectAt source.root with
    | some project =>
      let (last, ids, added) := assignProjects s rest
      (last, project :: ids, added)
    | none =>
      let (last, ids, added) := assignProjects (s.addProject source) rest
      (last, s.nextProject :: ids, added + 1)

/-- Add the missing projects and tabs to the ones there are. -/
def mergeImportedWorkspace (host : Host) (projects : List ImportedProject) (s : NamedServer) :
    Except Text ImportCounts × NamedServer :=
  let merged := projects.countP fun project => (s.projectAt project.root).isSome
  match stage host (missingTabs (fun _ project => s.tabsAt project.root) projects) [] s with
  | (.error error, s) => (.error error, s)
  | (.ok staged, s) =>
    let (s, ids, added) := s.assignProjects projects
    (.ok (added, staged.length, merged), s.addTabs ids staged)

end Merge

def importWorkspace (host : Host) (projects : List ImportedProject) (mode : WorkspaceImportMode) (s : NamedServer) :
    Except Text ImportCounts × NamedServer :=
  match checkProjects host projects with
  | some error => (.error error, s)
  | none =>
    match mode, projects with
    | .fresh, first :: rest => s.importFreshWorkspace host first rest
    | .fresh, [] => (.error "the imported Workspace has no usable Projects".toList, s)
    | .merge, projects => s.mergeImportedWorkspace host projects

end NamedServer

end Uniterm.Model.Workspace
