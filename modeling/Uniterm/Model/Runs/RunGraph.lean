import Uniterm.Model.Text
import Uniterm.ToMathlib.ListIndex

/-! # The ownership graph of agent runs

The graph is the deterministic projection of a stream of run events together with its scalar
indexes. `apply` takes one event in log order: it returns the graph it leaves behind beside its
verdict, so that a refused event is a statement about the graph and not a convention. The three
allocators saturate at the 64-bit maximum. Names, providers, titles and outcomes are carried and
never inspected.
-/

namespace Uniterm.Model.Runs

open Std ToMathlib

abbrev RunId := ℕ
abbrev RoleId := ℕ
abbrev PaneId := ℕ
abbrev ProjectId := ℕ

/-- Closed leaf runs retained before older subtrees are left solely in the event log. -/
def runGraphHistoryCap : ℕ := 4096

inductive RunKind where
  | workflow | relay
deriving DecidableEq, Repr

inductive RunStatus where
  | created | active | completed | failed | canceled
deriving DecidableEq, Repr

/-- Whether no later activation may legally occur. -/
def RunStatus.terminal : RunStatus → Bool
  | completed | failed | canceled => true
  | created | active => false

/-- One role activation; the id changes on every activation, a retry included. -/
structure RunActivation where
  id : ℕ
  pane : PaneId
  provider : String
  active : Bool
deriving DecidableEq

/-- One run node and its stable role ordering. -/
structure RunRecord where
  id : RunId
  parent : Option RunId
  project : ProjectId
  kind : RunKind
  taskId : ℕ
  title : String
  status : RunStatus
  outcome : Option String
  roles : List RoleId
deriving DecidableEq

/-- Provider and Pane ownership for one stable role. -/
structure RoleRecord where
  id : RoleId
  run : RunId
  name : String
  pane : PaneId
  provider : String
  activation : Option RunActivation
deriving DecidableEq

/-- Whether the role owns a live activation. -/
def RoleRecord.live (role : RoleRecord) : Bool := role.activation.any (·.active)

/-- The durable vocabulary that rebuilds the graph. -/
inductive RunGraphEvent where
  | created (run : RunId) (parent : Option RunId) (project : ProjectId) (kind : RunKind)
      (taskId : ℕ) (title : String)
  | roleDeclared (run : RunId) (role : RoleId) (name : String) (pane : PaneId) (provider : String)
  | activated (run : RunId) (role : RoleId) (activation : ℕ)
  | handoff (run : RunId) (source target : RoleId) (activation : ℕ)
  | completed (run : RunId) (outcome : String)
  | failed (run : RunId) (outcome : String)
  | canceled (run : RunId) (outcome : String)

/-- A rejected event means the durable stream does not describe a valid graph. -/
structure RunGraphError where
  message : String
deriving DecidableEq

/-- Current run projection plus direct relationship indexes. -/
structure RunGraph where
  runs : ExtTreeMap RunId RunRecord := ∅
  roles : ExtTreeMap RoleId RoleRecord := ∅
  children : ExtTreeMap RunId (List RunId) := ∅
  runPanes : ExtTreeMap RunId (List PaneId) := ∅
  paneActive : ExtTreeMap PaneId (RunId × RoleId) := ∅
  projectRuns : ExtTreeMap ProjectId (List RunId) := ∅
  taskRuns : ExtTreeMap ℕ RunId := ∅
  nextRun : ℕ := 0
  nextRole : ℕ := 0
  nextActivation : ℕ := 0

namespace RunGraph

/-- An empty projection with all monotonic allocators at one. -/
def new : RunGraph := { nextRun := 1, nextRole := 1, nextActivation := 1 }

def nextRunId (g : RunGraph) : RunId := max g.nextRun 1
def nextRoleId (g : RunGraph) : RoleId := max g.nextRole 1
def nextActivationId (g : RunGraph) : ℕ := max g.nextActivation 1

/-- The role that currently owns a run's live turn. -/
def activeRole (g : RunGraph) (run : RunId) : Option RoleId :=
  g.runs[run]?.bind fun node => node.roles.find? fun role => (g.roles[role]?).any RoleRecord.live

/-- Retained child runs in creation order. -/
def childrenOf (g : RunGraph) (run : RunId) : List RunId := entriesAt g.children run

/-- Every Pane reserved by a run. -/
def panes (g : RunGraph) (run : RunId) : List PaneId := entriesAt g.runPanes run

/-- Retained runs owned by one Project. -/
def runsForProject (g : RunGraph) (project : ProjectId) : List RunId :=
  entriesAt g.projectRuns project

abbrev Verdict := Except RunGraphError Unit

def refuse (g : RunGraph) (message : String) : RunGraph × Verdict := (g, .error ⟨message⟩)

/-- File a new run under its task, its Project and its parent. -/
def addRun (g : RunGraph) (node : RunRecord) : RunGraph :=
  { g with
    runs := g.runs.insert node.id node
    taskRuns := g.taskRuns.insert node.taskId node.id
    projectRuns := pushAt g.projectRuns node.project node.id
    children := match node.parent with
      | none => g.children
      | some parent => pushAt g.children parent node.id
    nextRun := max g.nextRun (saturatingAdd64 node.id 1) }

def applyCreated (g : RunGraph) (run : RunId) (parent : Option RunId) (project : ProjectId)
    (kind : RunKind) (taskId : ℕ) (title : String) : RunGraph × Verdict :=
  if run ≠ g.nextRunId ∨ run ∈ g.runs then g.refuse s!"invalid or duplicate Run {run}"
  else if (parent.any fun parent => !g.runs.contains parent) = true then
    g.refuse "run parent does not exist"
  else if taskId ∈ g.taskRuns then g.refuse s!"Task {taskId} already owns a run"
  else
    (g.addRun {
      id := run, parent, project, kind, taskId, title
      status := .created, outcome := none, roles := [] }, .ok ())

/-- List a new role with its run and reserve its Pane. -/
def addRole (g : RunGraph) (node : RunRecord) (record : RoleRecord) : RunGraph :=
  { g with
    runs := g.runs.insert record.run { node with roles := node.roles ++ [record.id] }
    roles := g.roles.insert record.id record
    runPanes := if record.pane ∈ g.panes record.run then g.runPanes
      else pushAt g.runPanes record.run record.pane
    nextRole := max g.nextRole (saturatingAdd64 record.id 1) }

def applyRoleDeclared (g : RunGraph) (run : RunId) (role : RoleId) (name : String) (pane : PaneId)
    (provider : String) : RunGraph × Verdict :=
  match g.runs[run]? with
  | none => g.refuse "role run does not exist"
  | some node =>
    if node.status.terminal = true ∨ role ≠ g.nextRoleId ∨ role ∈ g.roles then
      g.refuse "invalid or duplicate run role"
    else (g.addRole node { id := role, run, name, pane, provider, activation := none }, .ok ())

/-- Close a role's live activation and free its Pane. The source expects the role to be indexed:
it has just been found by `activeRole`. -/
def closeRole (g : RunGraph) (role : RoleId) : RunGraph :=
  match g.roles[role]? with
  | none => g
  | some record =>
    match record.activation with
    | none => g
    | some activation =>
      { g with
        roles := g.roles.insert role
          { record with activation := some { activation with active := false } }
        paneActive := g.paneActive.erase activation.pane }

/-- Close the live activation of a run, if it has one. -/
def closeActive (g : RunGraph) (run : RunId) : RunGraph :=
  match g.activeRole run with
  | none => g
  | some role => g.closeRole role

/-- Give a role the live turn of its run, under a new activation. -/
def openRole (g : RunGraph) (run : RunId) (node : RunRecord) (role : RoleId) (record : RoleRecord)
    (activation : ℕ) : RunGraph :=
  { g with
    roles := g.roles.insert role { record with
      activation := some {
        id := activation, pane := record.pane, provider := record.provider, active := true } }
    paneActive := g.paneActive.insert record.pane (run, role)
    runs := g.runs.insert run { node with status := .active }
    nextActivation := max g.nextActivation (saturatingAdd64 activation 1) }

def activate (g : RunGraph) (run : RunId) (role : RoleId) (activation : ℕ)
    (expectedFrom : Option RoleId) : RunGraph × Verdict :=
  if activation = 0 then g.refuse "activation id must be nonzero"
  else if activation ≠ g.nextActivationId then g.refuse "activation id is not monotonic"
  else match g.runs[run]? with
  | none => g.refuse "activation run does not exist"
  | some node =>
    if node.status.terminal then g.refuse "terminal run cannot activate a role"
    else match g.roles[role]?.filter fun record => record.run == run with
    | none => g.refuse "activation role does not belong to run"
    | some record =>
      if expectedFrom = some role then g.refuse "handoff source and target are identical"
      else if (g.paneActive[record.pane]?.any fun owner => owner.1 != run) = true then
        g.refuse "activation Pane is active in another run"
      else if (expectedFrom.any fun source => g.activeRole run != some source) = true then
        g.refuse "handoff source is not the active role"
      else (((g.closeActive run).openRole run node role record activation), .ok ())

/-- The first terminal run without children, in identity order. -/
def pruneCandidate (g : RunGraph) : Option (RunId × RunRecord) :=
  g.runs.toList.find? fun (id, run) => run.status.terminal && (g.childrenOf id).isEmpty

/-- Drop a run with everything it owns from every index. -/
def forgetRun (g : RunGraph) (id : RunId) (run : RunRecord) : RunGraph :=
  { g with
    runs := g.runs.erase id
    roles := run.roles.foldl (fun roles role => roles.erase role) g.roles
    runPanes := g.runPanes.erase id
    taskRuns := g.taskRuns.erase run.taskId
    projectRuns := dropAt g.projectRuns run.project id
    children := match run.parent with
      | none => g.children.erase id
      | some parent => dropAt (g.children.erase id) parent id }

/-- The pruning loop. Every round drops one run, so the number of runs is enough fuel. -/
def pruneLoop (cap : ℕ) : ℕ → RunGraph → RunGraph
  | 0, g => g
  | fuel + 1, g =>
    if g.runs.size ≤ cap then g
    else match g.pruneCandidate with
    | none => g
    | some (id, run) => pruneLoop cap fuel (g.forgetRun id run)

def pruneTo (g : RunGraph) (cap : ℕ) : RunGraph := pruneLoop cap g.runs.size g

/-- Record the terminal outcome of a run. -/
def endRun (g : RunGraph) (run : RunId) (node : RunRecord) (status : RunStatus)
    (outcome : String) : RunGraph :=
  { g with runs := g.runs.insert run { node with status, outcome := some outcome } }

def finish (g : RunGraph) (run : RunId) (status : RunStatus) (outcome : String) :
    RunGraph × Verdict :=
  match g.runs[run]? with
  | none => g.refuse "terminal event run does not exist"
  | some node =>
    if node.status.terminal then g.refuse "run already has a terminal outcome"
    else (((g.closeActive run).endRun run node status outcome).pruneTo runGraphHistoryCap, .ok ())

/-- Apply one event in log order and update every scalar index. -/
def apply (g : RunGraph) : RunGraphEvent → RunGraph × Verdict
  | .created run parent project kind taskId title =>
    g.applyCreated run parent project kind taskId title
  | .roleDeclared run role name pane provider => g.applyRoleDeclared run role name pane provider
  | .activated run role activation => g.activate run role activation none
  | .handoff run source target activation => g.activate run target activation (some source)
  | .completed run outcome => g.finish run .completed outcome
  | .failed run outcome => g.finish run .failed outcome
  | .canceled run outcome => g.finish run .canceled outcome

end RunGraph

/-- One step on the graph: an event in log order, or pruning on its own. -/
inductive Step where
  | apply (event : RunGraphEvent)
  | prune (cap : ℕ)

def RunGraph.step (g : RunGraph) : Step → RunGraph
  | .apply event => (g.apply event).1
  | .prune cap => g.pruneTo cap

/-- The graph after a sequence of steps on an empty one. -/
def RunGraph.after (steps : List Step) : RunGraph := steps.foldl RunGraph.step .new

end Uniterm.Model.Runs
