import Uniterm.Model.Server.Orchestration

/-! # Supervision of live runs

Deadlines, refused prompts, human actions and agent observations act on the runs from outside the
completion contract. `step` is the whole orchestration side of the server: one operation under what
it observes of the world.
-/

namespace Uniterm.Model.Orchestration

open EventLog Orchestrate Runs Work ToMathlib

namespace Server

section Deadlines

/-- One stalled run. -/
def stallRun (kind : OrchestrationKind) (w : World) (s : Server) (taskId : ℕ) : Server :=
  match s.take kind (·.taskId == taskId) with
  | none => s
  | some (run, s) =>
    let (state, action) := run.state.step .stall
    let (run, s) := s.applyAction kind w { run with stallDeadline := none, state := state } action
    let s := s.project kind run
    if run.state.phase.over then s else s.put kind run

/-- The tasks of the runs whose deadline is over. -/
def dueTasks (s : Server) (kind : OrchestrationKind) (w : World) (deadline : Run → Option ℕ) :
    List ℕ :=
  ((s.runs kind).filter fun run => (deadline run).any (· ≤ w.now)).map (·.taskId)

def flushOrchestrationStalls (s : Server) (w : World) : Server :=
  let s := (s.dueTasks .workflow w (·.stallDeadline)).foldl (stallRun .workflow w) s
  (s.dueTasks .relay w (·.stallDeadline)).foldl (stallRun .relay w) s

/-- `evaluate_elapsed`: the reason to ask, if there is one. -/
def evaluateElapsed (elapsedSeconds limitSeconds : ℕ) : Option String :=
  if elapsedSeconds < limitSeconds then none
  else some s!"run elapsed-time cap of {limitSeconds} seconds reached"

/-- One run at its elapsed-time cap. -/
def elapseRun (kind : OrchestrationKind) (w : World) (s : Server) (taskId : ℕ) : Server :=
  match s.take kind (·.taskId == taskId) with
  | none => s
  | some (run, s) =>
    let run := { run with elapsedDeadline := none, elapsedGuardTriggered := true
                          stallDeadline := none, idleDeadline := none }
    let elapsed := max ((w.nowMs - run.startedAtMs) / 1000) run.guardLimits.maxElapsedSeconds
    match evaluateElapsed elapsed run.guardLimits.maxElapsedSeconds with
    | none =>
      let deadline := elapsedDeadline w run.startedAtMs run.guardLimits false
      s.put kind { run with elapsedGuardTriggered := false, elapsedDeadline := deadline }
    | some reason =>
      let (state, action) := run.state.step (.guardrail reason)
      let (run, s) := s.applyAction kind w { run with state := state } action
      (s.project kind run).put kind run

/-- The elapsed-time deadline of a run that awaits a submission. -/
def awaitedDeadline (run : Run) : Option ℕ :=
  if run.state.phase = .awaiting then run.elapsedDeadline else none

def flushOrchestrationElapsedDue (s : Server) (w : World) : Server :=
  let s := (s.dueTasks .workflow w awaitedDeadline).foldl (elapseRun .workflow w) s
  (s.dueTasks .relay w awaitedDeadline).foldl (elapseRun .relay w) s

/-- Whether the queue holds an item on a Pane. -/
def waits (s : Server) (pane : PaneId) : Bool := s.waiting.items.any (·.pane == pane)

/-- A run that waits for a human or for a validation has no idle deadline. -/
def clearIdle (s : Server) (run : Run) : Run :=
  if run.currentPane.any s.waits || s.submissions.any (·.token == run.state.token) then
    { run with idleDeadline := none }
  else run

/-- One run whose agent has been silent for the idle delay. -/
def idleRun (kind : OrchestrationKind) (w : World) (s : Server) (taskId : ℕ) : Option Server :=
  match s.take kind (·.taskId == taskId) with
  | none => some s
  | some (run, s) => do
    let run := { run with idleDeadline := none, stallDeadline := none }
    let (state, action) := run.state.step (.idle run.state.cur)
    let s := if action = .hold then s else s.append (.idled kind run)
    let (s, state, action) ← s.scopeActivationToken (state, action)
    let (run, s) := s.applyAction kind w { run with state := state } action
    if run.state.phase.over then return s else return (s.project kind run).put kind run

def flushOrchestrationIdleDue (s : Server) (w : World) : Option Server := do
  let s := (s.mapRuns .workflow s.clearIdle).mapRuns .relay s.clearIdle
  let s ← (s.dueTasks .workflow w (·.idleDeadline)).foldlM (idleRun .workflow w) s
  (s.dueTasks .relay w (·.idleDeadline)).foldlM (idleRun .relay w) s

end Deadlines

section Retries

/-- One prompt that is due again. -/
def retryDelivery (w : World) (s : Server) (delivery : PendingDelivery) : Server :=
  match (s.runs delivery.kind).find? fun run => run.taskId == delivery.taskId &&
      run.state.token == delivery.token && run.currentPane == some delivery.pane with
  | none => s
  | some run =>
    let accepted := decide (delivery.pane ∈ s.panes) && w.accepts delivery.pane delivery.token
    let s := s.append (.delivery delivery.kind run run.state.cur delivery.token delivery.pane
      delivery.inject delivery.firstDelivery accepted)
    if accepted then
      let changed (run : Run) : Run :=
        let run := { run with stallDeadline := some (w.now + stallTimeout) }
        if delivery.firstDelivery then { run with started := run.started.set run.state.cur true }
        else run
      let index := (s.runs delivery.kind).findIdx (·.taskId == delivery.taskId)
      let s := s.withRuns delivery.kind ((s.runs delivery.kind).modify index changed)
      let s := s.resolvePaneKind delivery.pane (waitingKind delivery.kind)
      match (s.runs delivery.kind).find? (·.taskId == delivery.taskId) with
      | some run => s.project delivery.kind run
      | none => s
    else
      let delivery := { delivery with attempts := min (delivery.attempts + 1) 255 }
      if delivery.attempts < 3 then s.schedulePromptRetry w delivery
      else s.request delivery.pane none (waitingKind delivery.kind)
        "prompt delivery failed after three bounded attempts".toList

def flushPromptDeliveriesDue (s : Server) (w : World) : Server :=
  let due := s.deliveries.filter (·.due ≤ w.now)
  let s := { s with deliveries := s.deliveries.filter fun delivery => ¬ delivery.due ≤ w.now }
  due.foldl (retryDelivery w) s

/-- The checkpoint of a relay turn is there, or failed: activate its role. -/
def relayCheckpointCreated (s : Server) (w : World) (taskId token : ℕ)
    (checkpoint : Option String) : Server :=
  match s.activations.findIdx? fun pending => pending.taskId == taskId && pending.token == token with
  | none => s
  | some index =>
    match s.activations[index]? with
    | none => s
    | some pending =>
      let s := { s with activations := swapRemove s.activations index }
      match s.take .relay fun run => run.taskId == taskId && run.state.token == token with
      | none => s
      | some (run, s) =>
        let run := { run with checkpoints := match checkpoint with
          | some checkpoint => run.checkpoints ++ [(token, checkpoint)]
          | none => run.checkpoints }
        let (run, s) := s.applyAction .relay w run (.inject pending.role token)
        (s.project .relay run).put .relay run

end Retries

section Waiting

/-- Reopen the turn of a run that is out of its list: a paused one under a fresh token, an awaiting
one under its own. -/
def resumeRun (s : Server) (kind : OrchestrationKind) (w : World) (run : Run) : Option Server := do
  if run.state.phase = .paused then
    let deadline := elapsedDeadline w run.startedAtMs run.guardLimits run.elapsedGuardTriggered
    let run := { run with elapsedDeadline := deadline }
    let (s, state, action) ← s.scopeActivationToken (run.state.step .resume)
    let (run, s) := s.applyAction kind w { run with state := state } action
    return (s.project kind run).put kind run
  else
    let (run, s) := s.applyAction kind w run (.inject run.state.cur run.state.token)
    return (s.project kind run).put kind run

def resumeWaitingOrchestration (s : Server) (w : World) (pane : PaneId) : Option Server :=
  let fits (run : Run) : Bool := run.currentPane == some pane &&
    (run.state.phase == .awaiting || run.state.phase == .paused)
  match s.take .workflow fits with
  | some (run, s) => s.resumeRun .workflow w run
  | none =>
    match s.take .relay fits with
    | some (run, s) => s.resumeRun .relay w run
    | none => some s

/-- Change the first run that fits, in place. -/
def modifyFirst (s : Server) (kind : OrchestrationKind) (fits : Run → Bool) (change : Run → Run) :
    Server :=
  s.withRuns kind ((s.runs kind).modify ((s.runs kind).findIdx fits) change)

def armOrchestrationDeadline (s : Server) (w : World) (pane : PaneId) : Server :=
  let fits (run : Run) : Bool := run.currentPane == some pane && run.state.phase == .awaiting
  let arm (run : Run) : Run := { run with stallDeadline := some (w.now + stallTimeout) }
  (s.modifyFirst .workflow fits arm).modifyFirst .relay fits arm

/-- The runs from an index on that own a Pane are cancelled. The fuel is the length of the list. -/
def cancelFrom (kind : OrchestrationKind) (pane : PaneId) : ℕ → ℕ → Server → Server
  | 0, _, s => s
  | fuel + 1, index, s =>
    match (s.runs kind)[index]? with
    | none => s
    | some run =>
      if pane ∈ run.rolePanes then
        let s := s.withRuns kind (swapRemove (s.runs kind) index)
        let s := s.finish kind run.taskId "role Pane closed"
        let s := match kind with
          | .workflow => s
          | .relay => { s with activations := s.activations.filter (·.taskId != run.taskId) }
        cancelFrom kind pane fuel index s
      else cancelFrom kind pane fuel (index + 1) s

def cancelOrchestrationsForPane (s : Server) (pane : PaneId) : Server :=
  let s := cancelFrom .workflow pane (s.runs .workflow).length 0 s
  cancelFrom .relay pane (s.runs .relay).length 0 s

def closePane (s : Server) (pane : PaneId) : Server :=
  let s := { s with deliveries := s.deliveries.filter (·.pane != pane) }
  let s := (s.cancelOrchestrationsForPane pane).resolvePane pane
  { s with panes := s.panes.filter (· != pane) }

/-- The phase of the run whose current role owns a Pane. -/
def orchestrationPhase (s : Server) (pane : PaneId) : Option Phase :=
  let fits (run : Run) : Bool := run.currentPane == some pane
  (((s.runs .workflow).find? fits).or ((s.runs .relay).find? fits)).map (·.state.phase)

/-- The Panes that end with a Pane's run. -/
def stoppedPanes (s : Server) (pane : PaneId) : List PaneId :=
  let fits (run : Run) : Bool := run.rolePanes.contains pane
  ((((s.runs .workflow).find? fits).or ((s.runs .relay).find? fits)).map (·.rolePanes)).getD [pane]

inductive WaitingAction where
  | approve | focus | answer (text : Text) | dismiss | stop | resume | rollback

/-- Type a human's answer into a Pane, if what the item describes is still there. -/
def answer (s : Server) (w : World) (item : WaitingItem) (text : Text) : Server :=
  let prompt := item.kind = .permission ∨ item.kind = .question
  if prompt ∧ (w.status item.pane).bind WaitingKind.fromAgentStatus ≠ some item.kind then
    s.resolvePane item.pane
  else if ¬ prompt ∧ s.orchestrationPhase item.pane ≠ some .awaiting then s
  else
    let text := (text.filter (· != '\x00')).take 16384
    if blank text then s
    else if item.pane ∈ s.panes ∧ w.takesAnswer item.pane then
      ((s.resolvePane item.pane).append (.answered item.pane)).armOrchestrationDeadline w item.pane
    else s

/-- A human acts on a waiting item. Approvals, focus and rollback requests leave the orchestration
as it is. -/
def waitingAction (s : Server) (w : World) (id : ℕ) (action : WaitingAction) : Option Server :=
  match s.waiting.items.find? (·.id == id) with
  | none => some s
  | some item =>
    if item.invocation.isSome ∧ item.invocation ≠ w.invocation item.pane then
      some (s.resolvePane item.pane)
    else match action with
    | .approve | .focus | .rollback => some s
    | .answer text => some (s.answer w item text)
    | .dismiss =>
      if item.kind = .workflow ∨ item.kind = .relay then some s else some (s.resolvePane item.pane)
    | .stop =>
      let s := s.resolvePane item.pane
      some ((s.stoppedPanes item.pane).foldl
        (fun s pane => if pane ∈ s.panes then s.closePane pane else s) s)
    | .resume =>
      if s.orchestrationPhase item.pane = none then some s
      else
        let (waiting, resolved) := s.waiting.resolve id
        let s := { s with waiting := waiting }
        match resolved with
        | none => some s
        | some item => s.resumeWaitingOrchestration w item.pane

/-- The reply to a rollback: a failure asks again, a success resumes the relay. -/
def relayCheckpointRolledBack (s : Server) (w : World) (waitingId : ℕ) (error : Option Text) :
    Option Server :=
  match error with
  | some error =>
    match s.waiting.items.find? (·.id == waitingId) with
    | none => some s
    | some item => some (s.request item.pane item.invocation .relay
        ("checkpoint rollback failed: ".toList ++ error))
  | none =>
    let (waiting, resolved) := s.waiting.resolve waitingId
    let s := { s with waiting := waiting }
    match resolved with
    | none => some s
    | some item => s.resumeWaitingOrchestration w item.pane

end Waiting

section Agents

/-- `sync_waiting_agent`: reconcile an agent's status with the queue. -/
def syncWaitingAgent (s : Server) (w : World) (pane : PaneId) (status : Work.AgentStatus)
    (summary : Text) : Server :=
  if pane ∈ s.panes then
    { s with waiting := (s.waiting.observeAgent pane (w.invocation pane) status summary).1 }
  else s

def orchestrationIdleAllowed (hasWaitingItem hasPendingValidation verifier hasExpectedArtifacts : Bool) :
    Bool :=
  !hasWaitingItem && !hasPendingValidation && !verifier && !hasExpectedArtifacts

/-- The idle deadline of a run after a status of the agent in its Pane. -/
def reconcileRun (s : Server) (w : World) (pane : PaneId) (status : Work.AgentStatus) (run : Run) : Run :=
  if run.currentPane = some pane ∧ run.state.phase = .awaiting then
    let due := if status = .idle then some (w.now + idleDelay) else none
    let pending := s.submissions.any (·.token == run.state.token)
    let allowed := orchestrationIdleAllowed (s.waits pane) pending run.spec.verifier
      (!run.spec.expectedArtifacts.isEmpty)
    { run with idleDeadline := if allowed then due else none }
  else run

def reconcileOrchestrationIdle (s : Server) (w : World) (pane : PaneId) (status : Work.AgentStatus) :
    Server :=
  (s.mapRuns .workflow (s.reconcileRun w pane status)).mapRuns .relay (s.reconcileRun w pane status)

/-- The waiting queue first, then the idle deadlines. -/
def notifyAgentTransition (s : Server) (w : World) (pane : PaneId) (status : Work.AgentStatus)
    (summary : Text) : Server :=
  (s.syncWaitingAgent w pane status summary).reconcileOrchestrationIdle w pane status

end Agents

section Steps

/-- Everything that can happen to the orchestrations of a server. -/
inductive Op where
  | createTask
  | spawnPane
  | closePane (pane : PaneId)
  | launchWorkflow (name : String) (launch : Launch)
  | launchRelay (launch : Launch)
  | workflowSubmit (token : ℕ) (status : SubmitStatus) (verdict : Option String) (summary : Text)
      (artifacts : List ArtifactClaim)
  | relaySubmit (token : ℕ) (status : SubmitStatus) (summary : Text)
      (artifacts : List ArtifactClaim)
  | artifactValidated (kind : OrchestrationKind) (taskId token : ℕ) (artifacts : List ArtifactClaim)
      (error : Option Text) (recorded : Except Text Unit)
  | flushValidations
  | flushStalls
  | flushElapsed
  | flushIdle
  | flushDeliveries
  | checkpointCreated (taskId token : ℕ) (checkpoint : Option String)
  | checkpointRolledBack (waitingId : ℕ) (error : Option Text)
  | resume (pane : PaneId)
  | waitingAction (id : ℕ) (action : WaitingAction)
  /-- A status transition of an agent. -/
  | agentTransition (pane : PaneId) (status : Work.AgentStatus) (summary : Text)
  /-- An observed status that is no transition, or a question from outside. -/
  | agentObserved (pane : PaneId) (status : Work.AgentStatus) (summary : Text)
  /-- The agent of a Pane ended, or another one took its place. -/
  | agentExited (pane : PaneId)

/-- One step under what it observes of the world. -/
def step (s : Server) (input : World × Op) : Option Server :=
  let (w, op) := input
  match op with
  | .createTask => some { s with nextTask := s.nextTask + 1 }
  | .spawnPane => some { s with panes := s.panes ++ [s.nextPane], nextPane := s.nextPane + 1 }
  | .closePane pane => some (s.closePane pane)
  | .launchWorkflow name launch => s.launchWorkflow w name launch
  | .launchRelay launch => s.launchRelay w launch
  | .workflowSubmit token status verdict summary artifacts =>
    s.onWorkflowSubmit w token status verdict summary artifacts
  | .relaySubmit token status summary artifacts => s.onRelaySubmit w token status summary artifacts
  | .artifactValidated kind taskId token artifacts error recorded =>
    s.artifactValidated w kind taskId token artifacts error recorded
  | .flushValidations => some (s.flushArtifactValidationsDue w)
  | .flushStalls => some (s.flushOrchestrationStalls w)
  | .flushElapsed => some (s.flushOrchestrationElapsedDue w)
  | .flushIdle => s.flushOrchestrationIdleDue w
  | .flushDeliveries => some (s.flushPromptDeliveriesDue w)
  | .checkpointCreated taskId token checkpoint =>
    some (s.relayCheckpointCreated w taskId token checkpoint)
  | .checkpointRolledBack waitingId error => s.relayCheckpointRolledBack w waitingId error
  | .resume pane => s.resumeWaitingOrchestration w pane
  | .waitingAction id action => s.waitingAction w id action
  | .agentTransition pane status summary => some (s.notifyAgentTransition w pane status summary)
  | .agentObserved pane status summary => some (s.syncWaitingAgent w pane status summary)
  | .agentExited pane => some (s.resolvePane pane)

end Steps

end Server

end Uniterm.Model.Orchestration
