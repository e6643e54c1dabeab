import Uniterm.Model.EventLog.Structure
import Uniterm.Model.Timeline.Spans
import Uniterm.Model.Work.Waiting

/-! # What the timeline observes of the event log

Every logged event may be an observation of the day it falls in. The projection keeps what later observations are read
against: the contexts of Projects and Panes, the live invocation of every Pane and the children its provider reported.
Hash maps are lists without two entries for one key.
-/

namespace Uniterm.Model.Timeline

open EventLog Work

/-- The events that the timeline reads. -/
inductive LogEvent where
  | workspaceProjected (state : StructuralProjection)
  | projectSelected (project : ℕ)
  | agentBound (pane : ℕ) (agent : Text)
  | agentResumed (pane : ℕ) (provider : Text) (sessionId : Option Text) (predecessor : Option ℕ)
      (tree : Option StructuralProjection)
  | agentDelegated (pane invocation parentInvocation : ℕ) (context : TimelineContext)
  | agentStatus (pane : ℕ) (status : Work.AgentStatus)
  | agentSessionObserved (pane : ℕ) (provider : Text) (sessionId : Option Text)
  | agentSessionLinked (pane : ℕ) (provider sessionId parentSessionId : Text)
  | agentUnbound (pane : ℕ)
  | paneClosed (pane : ℕ)
  | timelineNote (context : TimelineContext) (text : Text)
  | timelinePrompt (context : TimelineContext) (text : Text)
  | timelineResumed (predecessor pane : ℕ)
  | timelineBoundary (reason : Text)
  /-- Any event that the timeline does not read. -/
  | other (text : Text)
deriving DecidableEq

structure EventEnvelope where
  version : ℕ
  sequence : ℕ
  timestampMs : ℕ
  event : LogEvent
deriving DecidableEq

structure Invocation where
  sequence : ℕ
  provider : Text
  session : Option Text
  last : Option TimelineEntry := none
  exited : Bool := false
  parentInvocation : Option ℕ := none
deriving DecidableEq, Repr

section Tables

variable {κ α : Type} [DecidableEq κ]

/-- A hash map. -/
abbrev Table (κ α : Type) := List (κ × α)

namespace Table

def remove (table : Table κ α) (key : κ) : Table κ α := table.filter (·.1 ≠ key)

def insert (table : Table κ α) (key : κ) (value : α) : Table κ α := (key, value) :: table.remove key

def modify (table : Table κ α) (key : κ) (f : α → α) : Table κ α :=
  table.map fun (other, value) => (other, if other = key then f value else value)

/-- `collect`: of two entries for one key the later counts. -/
def ofList (entries : List (κ × α)) : Table κ α := entries.foldl (fun table entry => table.insert entry.1 entry.2) []

end Table

end Tables

section Limits

/-- A text cut at a character boundary within so many bytes. -/
def limit : ℕ → Text → Text
  | _, [] => []
  | max, c :: text => if c.utf8Size ≤ max then c :: limit (max - c.utf8Size) text else []

/-- Wire frames and index pages stay bounded. -/
def TimelineEntry.limited (entry : TimelineEntry) : TimelineEntry :=
  { entry with
    context :=
      { entry.context with
        projectName := limit 128 entry.context.projectName
        root := limit 1024 entry.context.root
        branch := limit 128 entry.context.branch
        tab := limit 128 entry.context.tab }
    provider := limit 64 entry.provider
    sessionId := entry.sessionId.map (limit 512)
    parentSessionId := entry.parentSessionId.map (limit 512)
    summary := limit 4096 entry.summary }

end Limits

def pageSize : ℕ := 128

structure Projection where
  projects : Table ℕ TimelineContext := []
  panes : Table ℕ TimelineContext := []
  agents : Table ℕ Invocation := []
  children : Table ℕ (Table Text TimelineEntry) := []
  readOnlyManagers : List ℕ := []
deriving DecidableEq, Repr

namespace Projection

def projectContext (project : ProjectSnap) : TimelineContext :=
  { project := some project.id
    projectName := project.name.toList
    root := project.root.toList
    branch := ((project.metadata.find? (·.1 = "uniterm.worktree.branch")).map (·.2.toList)).getD [] }

def projectStructure (p : Projection) (state : StructuralProjection) : Projection :=
  let projects := Table.ofList (state.projects.map fun project => (project.id, projectContext project))
  let panes := state.windows.flatMap fun window => window.panes.map fun pane => (window, pane)
  { p with
    projects
    panes := Table.ofList (panes.map fun (window, pane) =>
      (pane.id, { (projects.lookup window.project).getD {} with
        pane := some pane.id
        tab := (window.name.map String.toList).getD [] }))
    readOnlyManagers := (panes.filter fun (_, pane) =>
      pane.metadata.any fun (key, value) => key == "uniterm.manager.scope" && value == "read_only").map (·.2.id) }

/-- A Pane's new invocation. -/
def start (p : Projection) (pane : ℕ) (invocation : Invocation) : Projection :=
  { p with children := p.children.remove pane, agents := p.agents.insert pane invocation }

/-- The `Debug` text of a status. -/
def statusText : Work.AgentStatus → Text
  | .unknown => "Unknown".toList
  | .starting => "Starting".toList
  | .working => "Working".toList
  | .tool => "Tool".toList
  | .permission => "Permission".toList
  | .question => "Question".toList
  | .idle => "Idle".toList
  | .error => "Error".toList
  | .exited => "Exited".toList

def resumedText (sequence : ℕ) : Text := s!"Resumed from event #{sequence}".toList

/-- An observation before anything is said of it. -/
def blank (envelope : EventEnvelope) : TimelineEntry where
  sequence := envelope.sequence
  timestampMs := envelope.timestampMs
  context := {}
  invocation := none
  provider := []
  sessionId := none
  parentSessionId := none
  parentInvocation := none
  kind := .agent
  summary := []

/-- The end of an invocation. -/
def finish (p : Projection) (entry : TimelineEntry) (pane : ℕ) : Option (TimelineEntry × Option ℕ) × Projection :=
  let children := p.children.remove pane
  match p.agents.lookup pane with
  | none => (none, { p with children })
  | some agent =>
    (some ({ entry with
      invocation := some agent.sequence
      context := (agent.last.map (·.context)).getD {}
      parentInvocation := agent.parentInvocation
      provider := agent.provider
      sessionId := agent.session
      summary := "Ended".toList }, some pane),
      { p with children, agents := p.agents.remove pane })

/-- What an event itself says, the Pane it is about, and the tables it changes. -/
def note (p : Projection) (envelope : EventEnvelope) : Option (TimelineEntry × Option ℕ) × Projection :=
  let entry := blank envelope
  match envelope.event with
  | .workspaceProjected state => (none, p.projectStructure state)
  | .projectSelected project =>
    let unknown : TimelineContext := { project := some project, projectName := s!"Project {project}".toList }
    (some ({ entry with
      context := (p.projects.lookup project).getD unknown
      kind := .visit
      summary := "Visited Project".toList }, none), p)
  | .agentBound pane agent =>
    (some ({ entry with summary := "Started".toList }, some pane),
      p.start pane { sequence := envelope.sequence, provider := agent, session := none })
  | .agentResumed pane provider sessionId predecessor tree =>
    let p := (tree.map p.projectStructure).getD p
    (some ({ entry with summary := predecessor.elim "Resumed saved session".toList resumedText }, some pane),
      p.start pane { sequence := envelope.sequence, provider, session := sessionId })
  | .agentDelegated pane invocation parentInvocation context =>
    match p.agents.lookup pane with
    | none => (none, p)
    | some agent =>
      if agent.sequence ≠ invocation ∨ invocation = parentInvocation then (none, p)
      else
        (some ({ entry with context, summary := "Launched from agent Pane".toList }, some pane),
          { p with agents := p.agents.modify pane ({ · with parentInvocation := some parentInvocation }) })
  | .agentStatus pane status =>
    (some ({ entry with summary := statusText status }, some pane),
      { p with agents := p.agents.modify pane ({ · with exited := status = .exited }) })
  | .agentSessionObserved pane provider sessionId =>
    let agent := (p.agents.lookup pane).getD { sequence := envelope.sequence, provider, session := none }
    let renamed := agent.session.isSome ∧ sessionId.isSome ∧ agent.session ≠ sessionId
    (some ({ entry with summary := "Session identified".toList }, some pane),
      { p with
        children := if renamed then p.children.remove pane else p.children
        agents := p.agents.insert pane { agent with session := sessionId } })
  | .agentSessionLinked pane provider sessionId parentSessionId =>
    (some ({ entry with
      -- A harness child may share its parent's PTY. It is not the Pane's root invocation.
      context := { (p.panes.lookup pane).getD {} with pane := some pane }
      provider
      sessionId := some sessionId
      parentSessionId := some parentSessionId
      summary := "Child session observed".toList }, none), p)
  | .agentUnbound pane => p.finish entry pane
  | .paneClosed pane => p.finish entry pane
  | .timelineNote context text => (some ({ entry with context, kind := .note, summary := text }, none), p)
  | .timelinePrompt context text => (some ({ entry with context, kind := .prompt, summary := text }, none), p)
  | .timelineResumed predecessor pane => (some ({ entry with summary := resumedText predecessor }, some pane), p)
  | .timelineBoundary reason =>
    (some ({ entry with kind := .boundary, summary := reason }, none), { p with agents := [], children := [] })
  | .other _ => (none, p)

/-- An observation in its Pane: where the Pane is, and which invocation runs there. -/
def placed (p : Projection) (event : LogEvent) (entry : TimelineEntry) (pane : ℕ) : TimelineEntry :=
  let agent := p.agents.lookup pane
  let context :=
    match event with
    | .agentDelegated .. => entry.context
    | _ => ((p.panes.lookup pane).or ((agent.bind Invocation.last).map TimelineEntry.context)).getD entry.context
  let entry := { entry with context := { context with pane := some pane } }
  match agent with
  | none => entry
  | some agent =>
    { entry with
      invocation := some agent.sequence
      parentInvocation := agent.parentInvocation
      provider := agent.provider
      sessionId := agent.session }

/-- A child session of a Pane's provider, of the first so many. -/
def adopt (p : Projection) (event : LogEvent) (entry : TimelineEntry) : Projection :=
  match event, entry.sessionId with
  | .agentSessionLinked pane .., some session =>
    let children := (p.children.lookup pane).getD []
    let children :=
      if children.length < pageSize ∨ (children.lookup session).isSome then children.insert session entry else children
    { p with children := p.children.insert pane children }
  | _, _ => p

/-- The latest observation of a Pane's invocation. -/
def recorded (p : Projection) (entry : TimelineEntry) (pane : Option ℕ) : Projection :=
  match pane with
  | none => p
  | some pane => { p with agents := p.agents.modify pane ({ · with last := some entry }) }

def observe (p : Projection) (envelope : EventEnvelope) : Option TimelineEntry × Projection :=
  match p.note envelope with
  | (none, p) => (none, p)
  | (some (entry, pane), p) =>
    let entry := (pane.elim entry (p.placed envelope.event entry)).limited
    (some entry, (p.adopt envelope.event entry).recorded entry pane)

end Projection

end Uniterm.Model.Timeline
