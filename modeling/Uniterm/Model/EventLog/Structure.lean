import Uniterm.Model.Grid.Stored
import Uniterm.Model.Runs.RunGraph
import Uniterm.Model.Work.Artifacts

/-! # Structural projections and snapshots

A snapshot holds the tree of Projects, Tabs and Panes with each Pane's retained terminal content;
the structural projection is the same tree without content. The two kinds of record for one thing
share its fields, so that stripping content is a projection.
-/

namespace Uniterm.Model.EventLog

open Std Runs Work

inductive SplitDir where
  | horizontal | vertical
deriving DecidableEq, Repr

/-- The split tree of a Tab; the ratio is carried as its bits. -/
inductive LayoutNode where
  | leaf (pane : PaneId)
  | split (dir : SplitDir) (ratio : UInt32) (first second : LayoutNode)
deriving DecidableEq, Repr

def LayoutNode.containsPane (id : PaneId) : LayoutNode → Bool
  | leaf pane => pane == id
  | split _ _ first second => first.containsPane id || second.containsPane id

inductive PaneLayout where
  | split | dwindle | scrolling
deriving DecidableEq, Repr

/-- Provider-owned native resume identity. -/
structure AgentLaunch where
  provider : String
  sessionId : Option String
  resumeCommand : List String
deriving DecidableEq, Repr

structure ProjectSnap where
  id : ProjectId
  name : String
  root : String
  activePane : Option PaneId
  metadata : List (String × String)
deriving DecidableEq, Repr

structure StructuralPane where
  id : PaneId
  cwd : Option String
  metadata : List (String × String)
  launchArgs : List String
  agentLaunch : Option AgentLaunch
deriving DecidableEq, Repr

/-- Grid and scrollback content of a Pane. -/
abbrev Content := List StoredLine

structure PaneSnap extends StructuralPane where
  content : Content
deriving DecidableEq

/-- A Tab without its Panes. -/
structure WindowFrame where
  stackExpanded : Bool
  stackParent : Option PaneId
  layoutMode : PaneLayout
  project : ProjectId
  layout : LayoutNode
  active : PaneId
  zoomed : Option PaneId
  name : Option String
deriving DecidableEq, Repr

structure StructuralWindow extends WindowFrame where
  panes : List StructuralPane
deriving DecidableEq, Repr

structure WinSnap extends WindowFrame where
  panes : List PaneSnap
deriving DecidableEq

/-- The tree's own fields. -/
structure TreeFrame where
  activeWindow : ℕ
  nextPaneId : ℕ
  activeProject : ProjectId
  nextProjectId : ℕ
  projects : List ProjectSnap
deriving DecidableEq, Repr

/-- Structural state stored without terminal cells. -/
structure StructuralProjection extends TreeFrame where
  windows : List StructuralWindow
deriving DecidableEq, Repr

/-- A checkpoint of the tree with terminal content and the two projections kept beside it. -/
structure Snapshot extends TreeFrame where
  eventSequence : ℕ
  runGraphSequence : ℕ := 0
  runGraph : RunGraph := RunGraph.new
  artifactSequence : ℕ := 0
  artifacts : ArtifactLedger := {}
  windows : List WinSnap

/-- Strip terminal content. -/
def StructuralProjection.fromSnapshot (snapshot : Snapshot) : StructuralProjection where
  toTreeFrame := snapshot.toTreeFrame
  windows := snapshot.windows.map fun window =>
    { toWindowFrame := window.toWindowFrame
      panes := window.panes.map PaneSnap.toStructuralPane }

/-- Terminal content by Pane id; of two Panes with one id the later counts. -/
def Snapshot.contents (snapshot : Snapshot) : ExtTreeMap PaneId Content :=
  (snapshot.windows.flatMap (·.panes)).foldl (fun content pane => content.insert pane.id pane.content) ∅

/-- Hand every Pane its content, each content once. -/
def restorePanes (content : ExtTreeMap PaneId Content) :
    List StructuralPane → List PaneSnap × ExtTreeMap PaneId Content
  | [] => ([], content)
  | pane :: rest =>
    let (panes, left) := restorePanes (content.erase pane.id) rest
    ({ toStructuralPane := pane, content := content.getD pane.id [] } :: panes, left)

def restoreWindows (content : ExtTreeMap PaneId Content) : List StructuralWindow → List WinSnap
  | [] => []
  | window :: rest =>
    let (panes, left) := restorePanes content window.panes
    { toWindowFrame := window.toWindowFrame, panes := panes } :: restoreWindows left rest

/-- Apply structural truth while retaining checkpointed terminal content. -/
def StructuralProjection.intoSnapshot (structure_ : StructuralProjection)
    (previous : Option Snapshot) (eventSequence : ℕ) : Snapshot where
  toTreeFrame := structure_.toTreeFrame
  eventSequence := eventSequence
  runGraph := (previous.map (·.runGraph)).getD RunGraph.new
  runGraphSequence := (previous.map (·.runGraphSequence)).getD 0
  windows := restoreWindows ((previous.map (·.contents)).getD ∅) structure_.windows

end Uniterm.Model.EventLog
