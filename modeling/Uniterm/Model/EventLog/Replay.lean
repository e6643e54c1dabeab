import Uniterm.Model.EventLog.Stream

/-! # Projections replayed from an event stream

Each reducer streams the records of a Workspace into one projection, and a recovery checkpoint
replaces what was projected before it. `compact` builds such a checkpoint with the reducers
themselves and puts it in the place of the stream.
-/

namespace Uniterm.Model.EventLog

open Std Runs Work

section Reducers

variable (codec : Codec)

/-- One record of the task projection. -/
def replayTask (tasks : TaskList) (record : DecodedRecord) : TaskList :=
  match record.event with
  | .recoveryCheckpoint state => state.tasks
  | .agentResumed pane _ _ _ (some previous) _ =>
    match record.sequence with
    | some sequence => (tasks.rebindInvocation pane previous sequence).1
    | none => tasks
  | .taskCreated id title status =>
    (tasks.insert id title status).touch id (record.sequence.getD id)
  | .taskStatusChanged id status => (tasks.setStatus id status).1.touch id (record.sequence.getD id)
  | .taskRetitled id title => (tasks.setTitle id title).1.touch id (record.sequence.getD id)
  | .taskDetailsUpdated id notes context =>
    (tasks.setDetails id notes context).1.touch id (record.sequence.getD id)
  | .taskDeleted id => (tasks.remove id).1
  | _ => tasks

def replayTasks (name : String) (bytes : Bytes) (tasks : TaskList) : Except Fault TaskList :=
  forEachRecord codec bytes (some name) replayTask tasks

def replayWaitingRecord (waiting : WaitingQueue) (record : DecodedRecord) : WaitingQueue :=
  match record.event with
  | .recoveryCheckpoint state => state.waiting
  | .waitingCreated item => waiting.insert item
  | .waitingResolved id _ => (waiting.resolve id).1
  | .waitingUpdated id summary => (waiting.updateSummary id summary).1
  | _ => waiting

def replayWaiting (name : String) (bytes : Bytes) (waiting : WaitingQueue) :
    Except Fault WaitingQueue :=
  forEachRecord codec bytes (some name) replayWaitingRecord waiting

def replayInstruction (instructions : InstructionQueue) (record : DecodedRecord) :
    InstructionQueue :=
  match record.event with
  | .recoveryCheckpoint state => state.instructions
  | .instructionQueued item => instructions.insert item
  | .instructionReplaced replaced item =>
    let (changed, found) := instructions.replace replaced item
    if found then changed else instructions.insert item
  | .instructionCanceled id _ => (instructions.remove id).1
  | .instructionDelivery id deliveryId _ accepted =>
    let instructions := instructions.observeDeliveryId deliveryId
    if accepted then (instructions.remove id).1 else instructions
  | _ => instructions

def replayInstructions (name : String) (bytes : Bytes) (instructions : InstructionQueue) :
    Except Fault InstructionQueue :=
  forEachRecord codec bytes (some name) replayInstruction instructions

/-- A projection behind a cursor: records up to the cursor and after a failure are passed over. -/
structure Cursored (σ : Type) where
  synthetic : ℕ := 0
  failure : Option String := none
  projection : σ

/-- One record of a cursored projection whose `change` may fail. -/
def Cursored.step {σ : Type} (afterSequence : ℕ) (change : σ → LogEvent → Except String σ)
    (state : Cursored σ) (record : DecodedRecord) : Cursored σ :=
  let synthetic := saturatingAdd64 state.synthetic 1
  let state := { state with synthetic := synthetic }
  if record.sequence.getD synthetic ≤ afterSequence ∨ state.failure.isSome then state
  else match change state.projection record.event with
  | .ok projection => { state with projection := projection }
  | .error failure => { state with failure := some failure }

/-- Replay a cursored projection; a failed change is a fault of the stream. -/
def replayCursored {σ : Type} (name : String) (bytes : Bytes) (afterSequence : ℕ) (what : String)
    (change : σ → LogEvent → Except String σ) (init : σ) : Except Fault σ := do
  let state ← forEachRecord codec bytes (some name) (Cursored.step afterSequence change)
    { projection := init }
  match state.failure with
  | some failure => throw (invalidData s!"invalid {what} event: {failure}")
  | none => return state.projection

/-- A refused event leaves the graph behind as `apply` returned it; the replay then fails. -/
def changeRunGraph (graph : RunGraph) : LogEvent → Except String RunGraph
  | .recoveryCheckpoint state => .ok state.runGraph
  | .runGraph change =>
    match graph.apply change with
    | (changed, .ok _) => .ok changed
    | (_, .error error) => .error error.message
  | _ => .ok graph

def replayRunGraph (name : String) (bytes : Bytes) (afterSequence : ℕ) (graph : RunGraph) :
    Except Fault RunGraph :=
  replayCursored codec name bytes afterSequence "run graph" changeRunGraph graph

def changeArtifacts (artifacts : ArtifactLedger) : LogEvent → Except String ArtifactLedger
  | .recoveryCheckpoint state => .ok state.artifacts
  | .artifactLedger change => (artifacts.apply change).mapError (·.message)
  | _ => .ok artifacts

def replayArtifacts (name : String) (bytes : Bytes) (afterSequence : ℕ)
    (artifacts : ArtifactLedger) : Except Fault ArtifactLedger :=
  replayCursored codec name bytes afterSequence "artifact ledger" changeArtifacts artifacts

/-- Active runs by task id. -/
def replayOrchestration (active : ExtTreeMap ℕ DurableOrchestration) (record : DecodedRecord) :
    ExtTreeMap ℕ DurableOrchestration :=
  match record.event with
  | .recoveryCheckpoint state => state.runs.foldl (fun active run => active.insert run.taskId run) ∅
  | .orchestrationProjected run => active.insert run.taskId run
  | .orchestrationFinished _ taskId _ => active.erase taskId
  | _ => active

def replayOrchestrations (name : String) (bytes : Bytes) : Except Fault (List DurableOrchestration) :=
  (forEachRecord codec bytes (some name) replayOrchestration ∅).map (·.toList.map Prod.snd)

/-- The binding event of every Pane's current invocation. -/
def bindInvocation (invocations : ExtTreeMap PaneId ℕ) (sequence : ℕ) :
    LogEvent → ExtTreeMap PaneId ℕ
  | .agentBound pane _ => invocations.insert pane sequence
  | .agentResumed pane _ _ _ _ _ => invocations.insert pane sequence
  | .agentUnbound pane => invocations.erase pane
  | .paneClosed pane => invocations.erase pane
  | _ => invocations

def replayInvocation (through : ℕ) (state : ℕ × ExtTreeMap PaneId ℕ) (record : DecodedRecord) :
    ℕ × ExtTreeMap PaneId ℕ :=
  let synthetic := saturatingAdd64 state.1 1
  let sequence := record.sequence.getD synthetic
  (synthetic, if sequence ≤ through then bindInvocation state.2 sequence record.event else state.2)

/-- Binding identities at a terminal checkpoint's cursor: before the recovery checkpoint from the
archived history, else from its projection and the suffix. -/
def replayInvocations (archives : Archives) (name : String) (bytes : Bytes) (through : ℕ) :
    Except Fault (ExtTreeMap PaneId ℕ) := do
  let (checkpoint, _, rest) ← checkpointHeaderWithOwner codec bytes
  if checkpoint.any fun state => through < state.through then
    let (delivered, ended) := visitThrough codec archives name bytes 0 through
    ended
    return delivered.foldl (fun invocations envelope =>
      bindInvocation invocations envelope.sequence envelope.event) ∅
  else
    let start := (checkpoint.map (·.through)).getD 0
    let bound := (checkpoint.map (·.invocations)).getD ∅
    let (_, invocations) ← forEachRecord codec rest (some name) (replayInvocation through)
      (start, bound)
    return invocations

end Reducers

section Recovery

/-- The newest structural truth after the snapshot's cursor, and the sequence it is from. -/
structure Recovery where
  latest : Option (ℕ × StructuralProjection) := none
  previousSequence : ℕ := 0
  syntheticSequence : ℕ := 0

/-- The launch profile of a Pane after an event about its agent. -/
def profileAfter (pane : StructuralPane) : LogEvent → StructuralPane
  | .agentBound _ agent =>
    { pane with agentLaunch := some ⟨agent, none, []⟩ }
  | .agentResumed _ provider sessionId resumeCommand _ _ =>
    { pane with agentLaunch := some ⟨provider, sessionId, resumeCommand⟩ }
  | .agentSessionObserved _ provider sessionId resumeCommand =>
    let profile := pane.agentLaunch.getD ⟨provider, none, []⟩
    if profile.provider = provider then
      -- Another session's resume command is not reused.
      let changed := profile.sessionId.isSome ∧ sessionId.isSome ∧ profile.sessionId ≠ sessionId
      let kept := if changed then [] else profile.resumeCommand
      let profile := { profile with
        sessionId := sessionId.or profile.sessionId
        resumeCommand := if resumeCommand = [] then kept else resumeCommand }
      { pane with agentLaunch := some profile }
    else { pane with agentLaunch := some profile }
  | .agentUnbound _ => { pane with agentLaunch := none, launchArgs := [] }
  | .paneLaunchProfileCleared _ => { pane with launchArgs := [] }
  | _ => pane

/-- The Pane whose launch profile an event changes. -/
def profilePane : LogEvent → Option PaneId
  | .agentBound pane _ => some pane
  | .agentResumed pane _ _ _ _ _ => some pane
  | .agentSessionObserved pane _ _ _ => some pane
  | .agentUnbound pane => some pane
  | .paneLaunchProfileCleared pane => some pane
  | _ => none

/-- Change the first element that fits, if there is one. -/
def changeFirst {α : Type} (fits : α → Bool) (change : α → α) (list : List α) : Option (List α) :=
  if list.any fits then some (list.modify (list.findIdx fits) change) else none

/-- Change one Pane's launch profile, if the Pane is in the tree. -/
def changeProfile (tree : StructuralProjection) (pane : PaneId) (event : LogEvent) :
    Option StructuralProjection :=
  (changeFirst (fun window => window.panes.any (·.id == pane))
      (fun window => { window with
        panes := (changeFirst (·.id == pane) (profileAfter · event) window.panes).getD window.panes })
      tree.windows).map fun windows => { tree with windows := windows }

/-- The structural truth an event replaces the current one with. -/
def newTruth : LogEvent → Option StructuralProjection
  | .workspaceProjected state => some state
  | .agentResumed _ _ _ _ _ tree => tree
  | _ => none

/-- The change an event makes to the current structural truth, if it makes one. -/
def changeTruth (tree : StructuralProjection) (event : LogEvent) : Option StructuralProjection :=
  match event with
  | .projectDirectoryChanged project root =>
    (changeFirst (·.id == project) (fun owner => { owner with root := root }) tree.projects).map
      fun projects => { tree with projects := projects }
  | .tabConfigured pane stackExpanded layoutMode stackParent =>
    (changeFirst (·.layout.containsPane pane) (fun window =>
      { window with layoutMode := layoutMode, stackParent := stackParent
                    stackExpanded := stackExpanded }) tree.windows).map
      fun windows => { tree with windows := windows }
  | _ => (profilePane event).bind fun pane => changeProfile tree pane event

/-- Whether an event changes the current truth rather than replacing it. -/
def amendsTruth : LogEvent → Bool
  | .projectDirectoryChanged _ _ => true
  | .tabConfigured _ _ _ _ => true
  | event => (profilePane event).isSome

/-- One event applied to the newest truth; the first amendment starts from the snapshot. -/
def Recovery.apply (snapshot : Option Snapshot) (latest : Option (ℕ × StructuralProjection))
    (sequence : ℕ) (event : LogEvent) : Option (ℕ × StructuralProjection) :=
  match event with
  | .recoveryCheckpoint state => state.recovered.map fun tree => (sequence, tree)
  | _ =>
    let latest := ((newTruth event).map fun tree => (sequence, tree)).or latest
    if amendsTruth event then
      let latest := latest.or (snapshot.map fun snapshot =>
        (snapshot.eventSequence, StructuralProjection.fromSnapshot snapshot))
      latest.map fun (cursor, tree) =>
        match changeTruth tree event with
        | some tree => (sequence, tree)
        | none => (cursor, tree)
    else latest

def Recovery.step (snapshot : Option Snapshot) (state : Recovery) (record : DecodedRecord) :
    Recovery :=
  let synthetic := saturatingAdd64 state.syntheticSequence 1
  let sequence := record.sequence.getD synthetic
  let state := { state with syntheticSequence := synthetic }
  -- A gap or repeat after the origin is marked by the maximal sequence.
  if state.previousSequence ≠ 0 ∧ sequence ≠ saturatingAdd64 state.previousSequence 1 then
    { state with previousSequence := u64Max }
  else
    let state := { state with previousSequence := sequence }
    if sequence ≤ (snapshot.map (·.eventSequence)).getD 0 then state
    else { state with latest := Recovery.apply snapshot state.latest sequence record.event }

/-- Restore the newest structural projection after an optional terminal snapshot. -/
def recoverSnapshotReaderScoped (codec : Codec) (bytes : Bytes) (checkpoint : Option Snapshot)
    (workspace : Option String) : Except Fault (Option Snapshot) := do
  let state ← forEachRecord codec bytes workspace (Recovery.step checkpoint) {}
  if state.previousSequence = u64Max then
    throw (invalidData "event sequence is duplicate, out of order, or contains a gap")
  match state.latest with
  | some (sequence, tree) => return some (tree.intoSnapshot checkpoint sequence)
  | none => return checkpoint

def recoverSnapshot (codec : Codec) (name : String) (bytes : Bytes) (checkpoint : Option Snapshot) :
    Except Fault (Option Snapshot) :=
  recoverSnapshotReaderScoped codec bytes checkpoint (some name)

end Recovery

section Compaction

/-- The archive that takes the compacted stream. -/
def archiveFile (through : ℕ) : Text :=
  RecoveryCheckpoint.archiveFileStart ++ (toString through).toList ++
    RecoveryCheckpoint.archiveFileEnd

/-- The checkpoint of a committed stream, built by the reducers that recovery uses; none for an
empty stream or one whose highest sequence is already checkpointed. -/
def compact (codec : Codec) (archives : Archives) (name : String) (bytes : Bytes) :
    Except Fault (Option RecoveryCheckpoint) := do
  let consistent ← consistentPrefixLen codec bytes name
  if consistent ≠ bytes.length then
    throw (invalidData "repair the event stream before compacting it")
  let (prior, _, _) ← checkpointHeaderWithOwner codec bytes
  let through := nextSequence codec bytes - 1
  if through = 0 ∨ (prior.any fun prior => prior.through = through) = true then return none
  let tasks ← replayTasks codec name bytes {}
  let waiting ← replayWaiting codec name bytes {}
  let instructions ← replayInstructions codec name bytes {}
  let runGraph ← replayRunGraph codec name bytes 0 .new
  let artifacts ← replayArtifacts codec name bytes 0 {}
  let runs ← replayOrchestrations codec name bytes
  let invocations ← replayInvocations codec archives name bytes through
  let snapshot ← recoverSnapshot codec name bytes none
  let sha256 ← digest codec bytes
  return some {
    version := checkpointVersion, through := through
    archive := { file := archiveFile through, sha256 := sha256 }
    recovered := snapshot.map StructuralProjection.fromSnapshot
    tasks := tasks, waiting := waiting, instructions := instructions, runGraph := runGraph
    artifacts := artifacts, runs := runs, invocations := invocations }

/-- The record that takes the place of the compacted stream. -/
def checkpointEnvelope (name : String) (state : RecoveryCheckpoint) : EventEnvelope where
  version := eventVersion
  sequence := state.through
  timestampMs := 0
  workspace := name
  event := .recoveryCheckpoint state

end Compaction

end Uniterm.Model.EventLog
