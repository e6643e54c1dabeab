import Uniterm.Model.Timeline.Spans
import Uniterm.ToMathlib.ForestWalk

/-! # Agent forests

`agentTree` relates provider sessions by their recorded ancestry, and `agentFlow` the launches of panes by the
invocation that launched them. Both merge the observations of a day into nodes, resolve each node's parent and walk
the forest from its roots, then from every node.
-/

namespace Uniterm.Model.Timeline

open Model ToMathlib

/-- A bounded relationship row. -/
structure AgentTreeRow where
  span : TimelineSpan
  depth : ℕ
  parentMissing : Bool
deriving DecidableEq, Repr

/-- A regular pane agent in a launch forest. -/
structure AgentFlowNode where
  span : TimelineSpan
  parent : Option ℕ
  depth : ℕ
  parentMissing : Bool
deriving DecidableEq, Repr

/-- Sessions are scoped to their provider. -/
def TimelineEntry.sessionKey (entry : TimelineEntry) : Option (Text × Text) :=
  entry.sessionId.map fun id => (entry.provider, id)

/-- The key of the session that an entry records as its parent. -/
def TimelineEntry.parentKey (entry : TimelineEntry) : Option (Text × Text) :=
  entry.parentSessionId.map fun id => (entry.provider, id)

/-- Nodes of the session forest, with the node of each session and of each invocation. -/
structure SessionNodes where
  nodes : List TimelineSpan := []
  sessions : List ((Text × Text) × ℕ) := []
  invocations : List (ℕ × ℕ) := []
deriving DecidableEq, Repr

/-- Another segment of the node's session: the later observation is the last one, and the ancestry on record stays. -/
def TimelineSpan.mergeSession (node span : TimelineSpan) : TimelineSpan :=
  let parent := node.last.parentSessionId.or span.last.parentSessionId
  let last := if span.last.sequence > node.last.sequence then span.last else node.last
  { firstMs := min node.firstMs span.firstMs
    last := if last.parentSessionId.isNone then { last with parentSessionId := parent } else last
    observations := node.observations + span.observations }

namespace SessionNodes

/-- The node that a segment belongs to: that of its session, or that of its invocation where one of the two sessions
is unknown. The index is always in range. -/
def existing (state : SessionNodes) (entry : TimelineEntry) : Option ℕ :=
  (entry.sessionKey.bind (List.lookup · state.sessions)).or
    ((entry.invocation.bind (List.lookup · state.invocations)).filter fun index =>
      (state.nodes[index]?).any fun node => node.last.sessionId.isNone || entry.sessionId.isNone)

/-- `HashMap::insert` under a key that may be missing. -/
def insertKey {κ : Type*} (key : Option κ) (index : ℕ) (entries : List (κ × ℕ)) : List (κ × ℕ) :=
  match key with
  | some key => (key, index) :: entries
  | none => entries

/-- One segment. -/
def add (state : SessionNodes) (span : TimelineSpan) : SessionNodes :=
  let entry := span.last
  if entry.kind ≠ .agent || entry.provider.isEmpty then state
  else
    match state.existing entry with
    | some index =>
      { state with
        nodes := state.nodes.modify index (·.mergeSession span)
        sessions := insertKey entry.sessionKey index state.sessions }
    | none =>
      { nodes := state.nodes ++ [span]
        sessions := insertKey entry.sessionKey state.nodes.length state.sessions
        invocations := insertKey entry.invocation state.nodes.length state.invocations }

/-- The node of the recorded parent session. -/
def parent (state : SessionNodes) (index : ℕ) (node : TimelineSpan) : Option ℕ :=
  (node.last.parentKey.bind (List.lookup · state.sessions)).filter (· ≠ index)

end SessionNodes

def sessionNodes (entries : List TimelineEntry) : SessionNodes := (spans entries).foldl SessionNodes.add {}

/-- The row of a visited node. -/
def SessionNodes.row (state : SessionNodes) (visit : ℕ × ℕ) : Option AgentTreeRow :=
  (state.nodes[visit.1]?).map fun node =>
    { span := node
      depth := visit.2
      parentMissing := visit.2 = 0 && node.last.parentSessionId.isSome }

/-- Build a provider-scoped forest from explicit session ancestry only. -/
def agentTree (entries : List TimelineEntry) : Option (List AgentTreeRow) := do
  let state := sessionNodes entries
  let visits ← walkForest (state.nodes.mapIdx state.parent) (fun _ depth => depth + 1) 0
  visits.mapM state.row

/-- The invocation of an observation that is a card of its own in the launch forest. -/
def TimelineEntry.cardInvocation (entry : TimelineEntry) : Option ℕ :=
  if entry.kind = .agent && entry.context.pane.isSome && !entry.provider.isEmpty then entry.invocation else none

/-- Another observation of the node's invocation: the later one is the last, and the project and the launch on record
stay. -/
def TimelineSpan.observeCard (node : TimelineSpan) (entry : TimelineEntry) : TimelineSpan :=
  { firstMs := min node.firstMs entry.timestampMs
    last :=
      if entry.sequence > node.last.sequence then
        { entry.keepContext node.last.context with
          parentInvocation := entry.parentInvocation.or node.last.parentInvocation }
      else node.last
    observations := node.observations + 1 }

/-- Nodes of the launch forest, with the node of each invocation. -/
structure CardNodes where
  nodes : List TimelineSpan := []
  owners : List (ℕ × ℕ) := []
deriving DecidableEq, Repr

namespace CardNodes

/-- One observation; a repeated last observation is skipped. -/
def add (state : CardNodes) (entry : TimelineEntry) : CardNodes :=
  match entry.cardInvocation with
  | none => state
  | some invocation =>
    match state.owners.lookup invocation with
    | some index =>
      { state with
        nodes := state.nodes.modify index fun node =>
          if node.last.sequence = entry.sequence then node else node.observeCard entry }
    | none =>
      { nodes := state.nodes ++ [.start entry]
        owners := (invocation, state.nodes.length) :: state.owners }

/-- The node of the recorded launching invocation, unless it belongs to another project. -/
def parent (state : CardNodes) (index : ℕ) (node : TimelineSpan) : Option ℕ :=
  (node.last.parentInvocation.bind (List.lookup · state.owners)).filter fun parent =>
    parent ≠ index && (state.nodes[parent]?).any fun above =>
      sameOrUnknown above.last.context.project node.last.context.project

end CardNodes

def cardNodes (entries : List TimelineEntry) : CardNodes := entries.foldl CardNodes.add {}

/-- The row of a visited node, with the row that it was reached from. -/
def CardNodes.row (state : CardNodes) (visit : ℕ × Option ℕ × ℕ) : Option AgentFlowNode :=
  (state.nodes[visit.1]?).map fun node =>
    { span := node
      parent := visit.2.1
      depth := visit.2.2
      parentMissing := visit.2.1.isNone && node.last.parentInvocation.isSome }

/-- Project explicit launch ancestry without guessing from tabs, pane reuse, or provider names. -/
def agentFlow (entries : List TimelineEntry) : Option (List AgentFlowNode) := do
  let state := cardNodes entries
  let visits ← walkForest (state.nodes.mapIdx state.parent) descend (none, 0)
  visits.mapM state.row

end Uniterm.Model.Timeline
