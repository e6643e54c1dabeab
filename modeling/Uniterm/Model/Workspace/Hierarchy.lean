import Mathlib.Data.Finset.Erase
import Mathlib.Data.Finset.Insert
import Mathlib.Data.List.MinMax
import Uniterm.Model.Workspace.Layout
import Uniterm.ToMathlib.Ancestry
import Uniterm.ToMathlib.ListSwap

/-! # The workspace hierarchy

Projects, their tabs and the panes of each tab's layout, with the selection over them. Tabs of all
projects share one list addressed by index; a tab may name a pane of its parent tab in a stack. What the
operations do to processes, clients and the screen is left out, and a read past the end of a list aborts.
-/

namespace Uniterm.Model.Workspace

open ToMathlib

abbrev ProjectId := ℕ

/-- A tab: a layout, its active pane and an optional zoomed one. -/
structure Win where
  project : ProjectId
  layout : LayoutNode Unit
  active : PaneId
  zoomed : Option PaneId := none
  stackParent : Option PaneId := none
  stackExpanded : Bool := false
deriving Repr

structure Project where
  id : ProjectId
  activePane : Option PaneId
deriving DecidableEq, Repr

structure Server where
  windows : List Win
  projects : List Project
  panes : Finset PaneId
  activeWindow : ℕ
  activeProject : ProjectId
  nextPane : ℕ
  nextProject : ℕ
  today : Bool := false
  running : Bool := true

namespace LayoutNode

variable {Ratio : Type}

def paneCount : LayoutNode Ratio → ℕ
  | leaf _ => 1
  | split _ _ first second => first.paneCount + second.paneCount

/-- The tree without a pane; a split that loses a side collapses into the other. -/
def without (target : PaneId) : LayoutNode Ratio → Option (LayoutNode Ratio)
  | leaf id => if id = target then none else some (leaf id)
  | split dir ratio first second =>
    match first.without target, second.without target with
    | none, none => none
    | some node, none | none, some node => some node
    | some a, some b => some (split dir ratio a b)

end LayoutNode

namespace Server

/-- The tab that has a pane in its layout. -/
def position (s : Server) (pane : PaneId) : Option ℕ :=
  s.windows.findIdx? (·.layout.containsPane pane)

def projectWindowIndices (s : Server) (project : ProjectId) : List ℕ :=
  (List.range s.windows.length).filter fun index => s.windows[index]?.any (·.project == project)

def hasProject (s : Server) (project : ProjectId) : Bool := s.projects.any (·.id == project)

/-- Remember the active pane of the first project of that identity. -/
def remember (projects : List Project) (project : ProjectId) (pane : PaneId) : List Project :=
  projects.modify (projects.findIdx (·.id == project)) fun item => { item with activePane := some pane }

section Stacks

def tabParent (s : Server) (window : ℕ) : Option ℕ := do
  let tab ← s.windows[window]?
  let pane ← tab.stackParent
  s.windows.findIdx? fun parent => parent.project == tab.project && parent.layout.containsPane pane

/-- The ancestor of a tab that has no parent. -/
def stackRoot (s : Server) (window : ℕ) : ℕ := climb s.tabParent s.windows.length window

def stackTabs (s : Server) : List ℕ :=
  if s.today ∨ s.windows = [] then []
  else
    let root := s.stackRoot s.activeWindow
    let tabs := root :: (s.projectWindowIndices s.activeProject).filter fun window =>
      window ≠ root ∧ s.stackRoot window = root
    if tabs.length = 1 then [] else tabs

def retainStackRow (s : Server) (window : ℕ) (expanded : Bool) : Server :=
  { s with windows := s.windows.modify window fun tab => { tab with stackExpanded := expanded } }

def setStackParent (s : Server) (window : ℕ) (parent : Option PaneId) : Server :=
  { s with windows := s.windows.modify window fun tab => { tab with stackParent := parent } }

/-- Put a tab under a parent, or refuse. -/
def assignTabParent (s : Server) (pane : PaneId) (parent : Option PaneId) : Bool × Server :=
  match s.position pane with
  | none => (false, s)
  | some child =>
    match parent with
    | none => (true, s.setStackParent child none)
    | some anchor =>
      match s.windows.findIdx? fun w =>
          w.layout.containsPane anchor && s.windows[child]?.any (·.project == w.project) with
      | none => (false, s)
      | some ancestor =>
        match seek s.tabParent child (s.windows.length + 1) ancestor with
        | none => (false, s)
        | some ancestor => (true, (s.retainStackRow ancestor true).setStackParent child (some anchor))

/-- A tab below the root of its stack keeps the stack's row. -/
def keepRow (s : Server) (window : ℕ) : Server :=
  let root := s.stackRoot window
  if root ≠ window then s.retainStackRow root true else s

/-- The tab of a pane becomes the root of its stack. -/
def promote (s : Server) (successor : PaneId) : Server :=
  let s := (s.assignTabParent successor none).2
  match s.position successor with
  | some window => s.retainStackRow window true
  | none => s

/-- Anchor tabs, named by their active panes, to another pane. -/
def reanchor (s : Server) (children : List PaneId) (replacement : Option PaneId) : Server :=
  children.foldl (fun s child =>
    if some child ≠ replacement then (s.assignTabParent child replacement).2 else s) s

/-- Before a pane leaves its tab, anchor the tab's children elsewhere. -/
def repairStackAnchor (s : Server) (pane : PaneId) : Server :=
  match s.position pane with
  | none => s
  | some index =>
    let s := s.keepRow index
    match s.windows[index]? with
    | none => s
    | some source =>
      let replacement := (source.layout.paneIds.find? (· ≠ pane)).or source.stackParent
      let children := (s.windows.filter (·.stackParent = some pane)).map (·.active)
      match replacement, children.head? with
      -- the tab was the root: one child takes its place
      | none, some successor => (s.promote successor).reanchor children (some successor)
      | _, _ => s.reanchor children replacement

end Stacks

section Tabs

def activateWindow (s : Server) (index : ℕ) : Server :=
  let s := match s.windows[s.activeWindow]? with
    | some current => { s with projects := remember s.projects current.project current.active }
    | none => s
  match s.windows[index]? with
  | none => s
  | some tab =>
    { s with
      activeWindow := index
      activeProject := tab.project
      projects := remember s.projects tab.project tab.active }

/-- A process started for a new pane. -/
def spawn (s : Server) : Server :=
  { s with panes := insert s.nextPane s.panes, nextPane := s.nextPane + 1 }

def insertTab (s : Server) (pane : PaneId) (project : ProjectId) (background : Bool) : Server :=
  let s := { s with windows := s.windows ++ [{ project := project, layout := .leaf pane, active := pane }] }
  if background then s else s.activateWindow (s.windows.length - 1)

def createTab (s : Server) (project : ProjectId) (background : Bool) : Server :=
  if s.hasProject project then s.spawn.insertTab s.nextPane project background else s

def insertSplit (s : Server) (window : ℕ) (anchor pane : PaneId) (dir : SplitDir) (background : Bool) :
    Server :=
  let s := { s with
    windows := s.windows.modify window fun tab =>
      { tab with layout := (tab.layout.splitInPlace () anchor dir pane).2 } }
  if background then s
  else
    { s with
      windows := s.windows.modify window fun tab =>
        { tab with active := pane, zoomed := none } }.activateWindow window

def splitPane (s : Server) (pane : PaneId) (dir : SplitDir) (background : Bool) : Server :=
  match s.position pane with
  | none => s
  | some window =>
    if s.windows[window]?.any fun tab => s.hasProject tab.project then
      s.spawn.insertSplit window pane s.nextPane dir background
    else s

/-- Take a pane out of a tab that keeps others. -/
def keepTab (pane : PaneId) (layout : LayoutNode Unit) (tab : Win) : Win :=
  { tab with
    active := if tab.active = pane then layout.firstPane else tab.active
    zoomed := if tab.zoomed = some pane then none else tab.zoomed
    layout := layout }

/-- Take a pane out of its tab, and the tab away with its last pane. The flag says whether it closed. -/
def detachPane (s : Server) (source : ℕ) (pane : PaneId) : Bool × Server :=
  let s := s.repairStackAnchor pane
  match s.windows[source]? with
  | none => (false, s)
  | some tab =>
    match tab.layout.without pane with
    | some layout => (false, { s with windows := s.windows.modify source (keepTab pane layout) })
    | none =>
      let windows := s.windows.eraseIdx source
      (true, { s with
        windows := windows
        activeWindow :=
          if s.activeWindow > source then s.activeWindow - 1
          else if s.activeWindow = source then min source (windows.length - 1)
          else s.activeWindow })

/-- Move a pane beside the active pane of another tab of its project. The geometry picks the direction. -/
def movePaneToWindow (s : Server) (pane : PaneId) (target : ℕ) (dir : SplitDir) : Server :=
  match s.position pane with
  | none => s
  | some source =>
    if source = target ∨ target ≥ s.windows.length ∨
        (s.windows[target]?.map (·.project)) ≠ (s.windows[source]?.map (·.project)) then s
    else
      let (closed, s) := s.detachPane source pane
      let target := if closed ∧ source < target then target - 1 else target
      let s := { s with
        windows := s.windows.modify target fun tab =>
          { tab with
            layout := (tab.layout.splitInPlace () tab.active dir pane).2
            zoomed := none
            active := pane } }
      s.activateWindow target

/-- Move a pane that is not alone into a tab of its own, right after its current one. -/
def movePaneToNewWindow (s : Server) (pane : PaneId) : Server :=
  match s.position pane with
  | none => s
  | some source =>
    match s.windows[source]? with
    | none => s
    | some tab =>
      if tab.layout.paneIds.length < 2 then s
      else
        let s := (s.detachPane source pane).2
        let s := { s with
          windows := s.windows.insertIdx (source + 1)
            { project := tab.project, layout := .leaf pane, active := pane } }
        s.activateWindow (source + 1)

/-- Swap two tabs, and keep the selected one selected. -/
def swapTabs (s : Server) (a b : ℕ) : Server :=
  { s with
    windows := swapAt s.windows a b
    activeWindow :=
      if s.activeWindow = a then b else if s.activeWindow = b then a else s.activeWindow }

/-- Move a tab to a position among the tabs of its project. -/
def moveTabTo (s : Server) (window place : ℕ) : Server :=
  match s.windows[window]? with
  | none => s
  | some tab =>
    let tabs := s.projectWindowIndices tab.project
    match tabs.findIdx? (· == window) with
    | none => s
    | some origin =>
      if origin = place ∨ place ≥ tabs.length then s
      else
        let steps := if origin < place then (List.range' origin (place - origin)).map fun i => (i, i + 1)
          else (List.range' place (origin - place)).reverse.map fun i => (i + 1, i)
        steps.foldl (fun s step => s.swapTabs (tabs.getD step.1 0) (tabs.getD step.2 0)) s

end Tabs

section Closing

/-- Where the selection goes when the last pane of the active tab closes: near it in its stack. -/
def stackFocus (s : Server) (current : Win) (pane : PaneId) : Option PaneId :=
  if current.active = pane ∧ current.layout.paneCount = 1 then
    -- nearest first, to the left before the right
    ((s.stackTabs.filter (· ≠ s.activeWindow)).argmin fun index =>
        2 * (max index s.activeWindow - min index s.activeWindow) +
          (if index > s.activeWindow then 1 else 0)).bind fun index =>
      (s.windows[index]?).map (·.active)
  else none

/-- The project that closing a pane leaves without tabs. -/
def emptyProject (s : Server) (pane : PaneId) : Option ProjectId :=
  (((s.windows.find? (·.layout.containsPane pane)).filter (·.layout.paneIds.length = 1)).map
    (·.project)).filter fun project =>
      s.projects.length > 1 ∧ (s.windows.filter (·.project = project)).length = 1 ∧ s.hasProject project

/-- The tab selected after the one at an index has closed. -/
def reselect (s : Server) (focus : Option PaneId) (removed : ℕ) (project : ProjectId) : ℕ :=
  let active :=
    if removed = s.activeWindow then
      ((focus.bind s.position).or
        (((List.range removed).reverse.find? fun index => s.windows[index]?.any (·.project == project)).or
          (s.windows.findIdx? (·.project == project)))).getD (min (removed - 1) (s.windows.length - 1))
    else if removed < s.activeWindow then s.activeWindow - 1
    else s.activeWindow
  if active ≥ s.windows.length then s.windows.length - 1 else active

/-- Take a pane out of the tabs. A tab goes with its last pane, and its index and project are returned. -/
def vacate (s : Server) (pane : PaneId) : Server × Option (ℕ × ProjectId) :=
  match s.position pane with
  | none => (s, none)
  | some index =>
    match s.windows[index]? with
    | none => (s, none)
    | some tab =>
      match tab.layout.without pane with
      | some layout => ({ s with windows := s.windows.modify index (keepTab pane layout) }, none)
      | none => ({ s with windows := s.windows.eraseIdx index }, some (index, tab.project))

/-- The project goes with the last of its tabs, and its process with the pane. -/
def retire (s : Server) (pane : PaneId) : Server :=
  let s := match s.emptyProject pane with
    | some project => { s with projects := s.projects.filter (·.id ≠ project) }
    | none => s
  { s with panes := s.panes.erase pane }

/-- The selection after a pane was taken out, which may have taken a tab away. -/
def refocus (s : Server) (focus : Option PaneId) : Option (ℕ × ProjectId) → Server
  | some (index, project) => { s with activeWindow := s.reselect focus index project }
  | none => s

/-- What remains of closing a pane once no tab is anchored to it. -/
def discard (s : Server) (focus : Option PaneId) (pane : PaneId) : Option Server := do
  let (s, removed) := (s.retire pane).vacate pane
  if s.windows = [] then return { s with running := false }
  let s := s.refocus focus removed
  let selected ← s.windows[s.activeWindow]?
  return { s with
    activeProject := selected.project
    projects := remember s.projects selected.project selected.active }

/-- Close a pane, its tab and its project with the last one, and the server with the last tab. -/
def closePane (s : Server) (pane : PaneId) : Option Server := do
  let current ← s.windows[s.activeWindow]?
  (s.repairStackAnchor pane).discard (s.stackFocus current pane) pane

/-- Close panes one after the other, while the server runs. -/
def closePanes (s : Server) : List PaneId → Option Server
  | [] => some s
  | pane :: panes => do
    let s ← s.closePane pane
    if s.running then s.closePanes panes else return s

def closeTab (s : Server) (window : ℕ) : Option Server := do
  let tab ← s.windows[window]?
  s.closePanes tab.layout.paneIds

end Closing

section Projects

inductive ProjectMoveDirection where
  | up | down | top | bottom
deriving DecidableEq, Repr

def switchProject (s : Server) (project : ProjectId) : Server :=
  let s := { s with today := false }
  if project = s.activeProject then s
  else
    let preferred := (s.projects.find? (·.id == project)).bind (·.activePane)
    let indices := s.projectWindowIndices project
    match (indices.find? fun index => preferred.any fun pane =>
        s.windows[index]?.any (·.layout.containsPane pane)).or indices.head? with
    | none => s
    | some index => s.activateWindow index

def createProject (s : Server) (background : Bool) : Server :=
  let id := s.nextProject
  let pane := s.nextPane
  let s := s.spawn
  let s := { s with
    nextProject := s.nextProject + 1
    projects := s.projects ++ [⟨id, some pane⟩]
    windows := s.windows ++ [{ project := id, layout := .leaf pane, active := pane }] }
  if background then s else s.activateWindow (s.windows.length - 1)

def moveTarget (count origin : ℕ) : ProjectMoveDirection → Option ℕ
  | .up => if 1 ≤ origin then some (origin - 1) else none
  | .down => if origin + 1 < count then some (origin + 1) else none
  | .top => if origin > 0 then some 0 else none
  | .bottom => if origin + 1 < count then some (count - 1) else none

def moveProject (s : Server) (project : ProjectId) (direction : ProjectMoveDirection) : Server :=
  match s.projects.findIdx? (·.id == project) with
  | none => s
  | some origin =>
    match moveTarget s.projects.length origin direction, s.projects[origin]? with
    | some place, some moved => { s with projects := (s.projects.eraseIdx origin).insertIdx place moved }
    | _, _ => s

def removeProject (s : Server) (project : ProjectId) : Option Server := do
  if s.projects.length ≤ 1 ∨ ¬ s.hasProject project then return s
  let panes := (s.windows.filter (·.project = project)).flatMap (·.layout.paneIds)
  let s := { s with projects := s.projects.filter (·.id ≠ project) }
  let s ← if s.activeProject = project then do
      let replacement ← s.projects.head?
      match (s.projectWindowIndices replacement.id).head? with
      | some index => some (s.activateWindow index)
      | none => some s
    else some s
  s.closePanes panes

end Projects

/-- The operations on the hierarchy. Panes are spawned with the next identity. -/
inductive Op where
  | createTab (project : ProjectId) (background : Bool)
  | splitPane (pane : PaneId) (dir : SplitDir) (background : Bool)
  | closePane (pane : PaneId)
  | closeTab (window : ℕ)
  | movePaneToWindow (pane : PaneId) (target : ℕ) (dir : SplitDir)
  | movePaneToNewWindow (pane : PaneId)
  | moveTabTo (window place : ℕ)
  | createProject (background : Bool)
  | removeProject (project : ProjectId)
  | moveProject (project : ProjectId) (direction : ProjectMoveDirection)
  | switchProject (project : ProjectId)
  | assignTabParent (pane : PaneId) (parent : Option PaneId)
deriving Repr

/-- One operation of the event loop, which ends when the server stops. -/
def step (s : Server) (op : Op) : Option Server :=
  if ¬ s.running then none
  else
    match op with
    | .createTab project background => some (s.createTab project background)
    | .splitPane pane dir background => some (s.splitPane pane dir background)
    | .closePane pane => s.closePane pane
    | .closeTab window => s.closeTab window
    | .movePaneToWindow pane target dir => some (s.movePaneToWindow pane target dir)
    | .movePaneToNewWindow pane => some (s.movePaneToNewWindow pane)
    | .moveTabTo window place => some (s.moveTabTo window place)
    | .createProject background => some (s.createProject background)
    | .removeProject project => s.removeProject project
    | .moveProject project direction => some (s.moveProject project direction)
    | .switchProject project => some (s.switchProject project)
    | .assignTabParent pane parent => some (s.assignTabParent pane parent).2

/-- One project with one tab holding one pane. -/
def start (project : ProjectId) (pane : PaneId) (nextPane nextProject : ℕ) : Server where
  windows := [{ project := project, layout := .leaf pane, active := pane }]
  projects := [⟨project, some pane⟩]
  panes := {pane}
  activeWindow := 0
  activeProject := project
  nextPane := nextPane
  nextProject := nextProject

end Server

end Uniterm.Model.Workspace
