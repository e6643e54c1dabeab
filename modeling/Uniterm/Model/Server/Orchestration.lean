import Mathlib.Logic.Function.Basic
import Uniterm.ToMathlib.SwapRemove
import Uniterm.Model.EventLog.Replay
import Uniterm.Model.Server.Tokens

/-! # Live workflows and relays

The server owns a list of live runs of each kind and interprets the engine's actions on them: it
delivers prompts to role Panes, retries what a Pane refuses, validates artifacts, asks humans through
the waiting queue and logs every durable change. Workflows and relays share their source text up to
names, so one definition serves both and `kind` picks the list. Clocks, processes and files are what a
step observes of the `World`. The drawing of a token may not end, which is `none`.
-/

namespace Uniterm.Model.Orchestration

open EventLog Orchestrate Runs Work ToMathlib

section Templates

/-- A file that a role claims, or must deliver. -/
structure ArtifactClaim where
  kind : ArtifactKind
  path : String
deriving DecidableEq, Repr

/-- One role slot of a bundled template. -/
structure RoleSpec where
  name : String
  verifier : Bool
  expectedArtifacts : List ArtifactClaim
deriving DecidableEq, Repr

structure WorkflowTemplate where
  name : String
  roles : List RoleSpec
deriving DecidableEq, Repr

def WorkflowTemplate.engineRoles (template : WorkflowTemplate) : List Role :=
  template.roles.map fun role => ⟨role.name, role.verifier⟩

def builder : RoleSpec := ⟨"builder", false, []⟩
def verifier : RoleSpec := ⟨"verifier", true, []⟩
def planner : RoleSpec := ⟨"planner", false, [⟨.plan, "WORKFLOW_PLAN.md"⟩]⟩

def workflowTemplates : List WorkflowTemplate :=
  [⟨"solo", [builder]⟩, ⟨"pair", [builder, verifier]⟩, ⟨"triad", [planner, builder, verifier]⟩]

def workflowTemplate (name : String) : Option WorkflowTemplate :=
  workflowTemplates.find? (·.name == name)

/-- The two roles of every relay. -/
def relayRoles : List Role := [⟨"builder", false⟩, ⟨"reviewer", false⟩]

/-- What a role of a relay declares. -/
def relayRole : RoleSpec := ⟨"relay", false, []⟩

end Templates

section Data

/-- One live run: the engine's state and the binding of roles to Panes. A relay has no template. -/
structure Run where
  state : Orchestrate.State
  template : Option WorkflowTemplate
  goal : String
  roleProviders : List RoleProvider
  rolePanes : List PaneId
  started : List Bool
  taskId : ℕ
  checkpoints : List (ℕ × String) := []
  startedAtMs : ℕ
  guardLimits : GuardLimits
  elapsedGuardTriggered : Bool := false
  elapsedDeadline : Option ℕ := none
  stallDeadline : Option ℕ := none
  idleDeadline : Option ℕ := none

namespace Run

/-- The Pane of the current role. -/
def currentPane (run : Run) : Option PaneId := run.rolePanes[run.state.cur]?

/-- What the current role declares. -/
def spec (run : Run) : RoleSpec :=
  match run.template with
  | some template => (template.roles[run.state.cur]?).getD relayRole
  | none => relayRole

/-- The durable image of a run. -/
def durable (kind : OrchestrationKind) (run : Run) : DurableOrchestration where
  kind := kind
  taskId := run.taskId
  template := match kind with
    | .workflow => run.template.map (·.name)
    | .relay => none
  goal := run.goal
  roleProviders := run.roleProviders
  rolePanes := run.rolePanes
  started := run.started
  state := run.state
  checkpoints := match kind with
    | .workflow => []
    | .relay => run.checkpoints
  guardrail :=
    { startedAtMs := run.startedAtMs, limits := run.guardLimits
      elapsedTriggered := run.elapsedGuardTriggered }

end Run

/-- A submission whose artifacts are being validated. -/
structure PendingSubmission where
  kind : OrchestrationKind
  taskId : ℕ
  token : ℕ
  pane : PaneId
  status : SubmitStatus
  verdict : Option String
  summary : Text
  due : ℕ

/-- A prompt that its Pane refused. `inject` numbers the action that it belongs to; its bytes are a
launch line exactly when it is the role's first delivery. -/
structure PendingDelivery where
  kind : OrchestrationKind
  taskId : ℕ
  token : ℕ
  pane : PaneId
  firstDelivery : Bool
  attempts : ℕ
  due : ℕ
  inject : ℕ

/-- A relay turn that waits for its checkpoint. -/
structure PendingRelayActivation where
  taskId : ℕ
  role : ℕ
  token : ℕ

/-- What the server did, oldest first: the orchestration events of its log, and the steps that leave
none of their own. -/
inductive Entry where
  | projected (run : DurableOrchestration)
  | finished (kind : OrchestrationKind) (taskId : ℕ) (outcome : String)
  | activated (kind : OrchestrationKind) (taskId role : ℕ) (pane : PaneId) (token : ℕ)
  /-- A delivery to a run in its state at that time. -/
  | delivery (kind : OrchestrationKind) (run : Run) (role token : ℕ) (pane : PaneId)
      (inject : ℕ) (first accepted : Bool)
  | submitted (kind : OrchestrationKind) (taskId token : ℕ) (pane : PaneId) (status : SubmitStatus)
  | validating (kind : OrchestrationKind) (taskId token : ℕ) (pane : PaneId)
  | validated (kind : OrchestrationKind) (taskId token : ℕ) (pane : PaneId)
  | answered (pane : PaneId)
  /-- The idle fallback advanced a run, given as it was before. -/
  | idled (kind : OrchestrationKind) (run : Run)

/-- The record that the event log holds for an entry. -/
def Entry.record (entry : Entry) : DecodedRecord where
  sequence := none
  workspace := none
  event := match entry with
    | .projected run => .orchestrationProjected run
    | .finished kind taskId outcome => .orchestrationFinished kind taskId outcome
    | _ => .other []

/-- The orchestration state of a server. -/
structure Server where
  runs : OrchestrationKind → List Run := fun _ => []
  submissions : List PendingSubmission := []
  deliveries : List PendingDelivery := []
  activations : List PendingRelayActivation := []
  waiting : WaitingQueue := {}
  panes : List PaneId := []
  tokenState : ℕ
  nextTask : ℕ := 1
  nextPane : ℕ := 1
  log : List Entry := []

/-- What one step observes: the clocks, which Panes take which prompts, the process and the agent of
a Pane, and whether a Pane belongs to a Project. -/
structure World where
  now : ℕ
  nowMs : ℕ
  accepts : PaneId → ℕ → Bool
  takesAnswer : PaneId → Bool
  hasRoot : PaneId → Bool
  invocation : PaneId → Option Int
  status : PaneId → Option Work.AgentStatus

end Data

def stallTimeout : ℕ := 10 * 60 * 1000
def validationTimeout : ℕ := 30 * 1000
def idleDelay : ℕ := 5 * 1000

/-- The kind of an orchestration's own waiting items. -/
def waitingKind : OrchestrationKind → WaitingKind
  | .workflow => .workflow
  | .relay => .relay

/-- Unicode white space. -/
def whiteSpace (c : Char) : Bool :=
  let code := c.toNat
  (9 ≤ code && code ≤ 13) || code == 32 || code == 0x85 || code == 0xa0 || code == 0x1680 ||
    (0x2000 ≤ code && code ≤ 0x200a) || code == 0x2028 || code == 0x2029 || code == 0x202f ||
    code == 0x205f || code == 0x3000

/-- `trim().is_empty()`. -/
def blank (text : Text) : Bool := text.all whiteSpace

namespace Server

section Basics

def withRuns (s : Server) (kind : OrchestrationKind) (runs : List Run) : Server :=
  { s with runs := Function.update s.runs kind runs }

def append (s : Server) (entry : Entry) : Server := { s with log := s.log ++ [entry] }

/-- `swap_remove` of the first run that fits. -/
def take (s : Server) (kind : OrchestrationKind) (fits : Run → Bool) : Option (Run × Server) :=
  match (s.runs kind).findIdx? fits with
  | none => none
  | some index => ((s.runs kind)[index]?).map fun run =>
    (run, s.withRuns kind (swapRemove (s.runs kind) index))

def put (s : Server) (kind : OrchestrationKind) (run : Run) : Server :=
  s.withRuns kind (s.runs kind ++ [run])

/-- Change every run of a kind in place. -/
def mapRuns (s : Server) (kind : OrchestrationKind) (change : Run → Run) : Server :=
  s.withRuns kind ((s.runs kind).map change)

def project (s : Server) (kind : OrchestrationKind) (run : Run) : Server :=
  s.append (.projected (run.durable kind))

def request (s : Server) (pane : PaneId) (invocation : Option Int) (kind : WaitingKind)
    (summary : Text) : Server :=
  { s with waiting := (s.waiting.request pane invocation kind summary).1 }

/-- `resolve_waiting_for_pane`. -/
def resolvePane (s : Server) (pane : PaneId) : Server :=
  { s with waiting := (s.waiting.resolvePane pane).1 }

def resolvePaneKind (s : Server) (pane : PaneId) (kind : WaitingKind) : Server :=
  { s with waiting := (s.waiting.resolvePaneKind pane kind).1 }

end Basics

section Tokens

/-- Tokens of live runs and pending submissions. -/
def occupied (s : Server) : List ℕ :=
  (s.runs .workflow).map (·.state.token) ++ (s.runs .relay).map (·.state.token) ++
    s.submissions.map (·.token)

/-- Put a fresh token under an injection. -/
def scopeActivationToken (s : Server) (result : Orchestrate.State × Action) :
    Option (Server × Orchestrate.State × Action) :=
  match result with
  | (state, .inject role _) => do
    let token ← Model.Server.nextActivationToken s.tokenState s.occupied
    return ({ s with tokenState := token }, { state with token := token }, .inject role token)
  | (state, action) => some (s, state, action)

end Tokens

section Actions

/-- `u64::rotate_left`. -/
def rotateLeft64 (value amount : ℕ) : ℕ :=
  (value <<< (amount % 64) ||| value >>> (64 - amount % 64)) % 2 ^ 64

/-- Retry with backoff and jitter; at most one delivery is pending for each token. -/
def schedulePromptRetry (s : Server) (w : World) (delivery : PendingDelivery) : Server :=
  let baseMs := min (2000 * 2 ^ (delivery.attempts - 1)) u64Max
  let jitter := rotateLeft64 delivery.token delivery.attempts % 401
  let delivery := { delivery with due := w.now + saturatingAdd64 baseMs jitter }
  { s with deliveries := (s.deliveries.filter fun pending =>
      pending.kind != delivery.kind || pending.token != delivery.token) ++ [delivery] }

/-- `finish_workflow`, `finish_relay`. -/
def finish (s : Server) (kind : OrchestrationKind) (taskId : ℕ) (outcome : String) : Server :=
  { s with submissions := s.submissions.filter (·.taskId != taskId) }.append
    (.finished kind taskId outcome)

/-- Deliver a prompt to a role: start its agent on the first turn, paste into it on later ones. -/
def inject (s : Server) (kind : OrchestrationKind) (w : World) (run : Run) (role token : ℕ) :
    Run × Server :=
  let pane := run.rolePanes.getD role 0
  let number := s.log.length
  let s := s.append (.activated kind run.taskId role pane token)
  if pane ∉ s.panes ∨ run.roleProviders[role]? = none then (run, s)
  else
    let first := !run.started.getD role false
    let accepted := w.accepts pane token
    let s := s.append (.delivery kind run role token pane number first accepted)
    if accepted then
      let run := { run with stallDeadline := some (w.now + stallTimeout) }
      (if first then { run with started := run.started.set role true } else run, s)
    else
      let delivery : PendingDelivery :=
        { kind := kind, taskId := run.taskId, token := token, pane := pane, firstDelivery := first
          attempts := 1, due := w.now, inject := number }
      (run, s.schedulePromptRetry w delivery)

/-- `apply_workflow_action`, `apply_relay_action`: interpret the engine's action on a run that is
out of its list. -/
def applyAction (s : Server) (kind : OrchestrationKind) (w : World) (run : Run) :
    Action → Run × Server
  | .inject role token => s.inject kind w run role token
  | .complete => (run, s.finish kind run.taskId "done")
  | .escalate reason =>
    (run, s.request (run.rolePanes.getD run.state.cur 0) none (waitingKind kind) reason.toList)
  | .abort reason => (run, s.finish kind run.taskId reason)
  | .awaitSubmit | .hold => (run, s)

end Actions

section Launching

/-- `guardrail::elapsed_deadline`. -/
def elapsedDeadline (w : World) (startedAtMs : ℕ) (limits : GuardLimits) (triggered : Bool) :
    Option ℕ :=
  if triggered then none
  else
    let elapsedMs := w.nowMs - startedAtMs
    let limitMs := min (limits.maxElapsedSeconds * 1000) u64Max
    some (w.now + (limitMs - elapsedMs))

/-- What a launch fixes once its providers, its limits and its Panes are there. -/
structure Launch where
  goal : Text
  providers : List RoleProvider
  limits : GuardLimits
  startedAtMs : ℕ

/-- A new run in fresh Panes, one for each role, under a fresh task. -/
def newRun (s : Server) (w : World) (launch : Launch) (template : Option WorkflowTemplate)
    (roles : List Role) : Run where
  state := .new roles launch.limits.maxIterations
  template := template
  goal := String.ofList (launch.goal.take 65536)
  roleProviders := launch.providers
  rolePanes := (List.range roles.length).map (s.nextPane + ·)
  started := List.replicate roles.length false
  taskId := s.nextTask
  startedAtMs := launch.startedAtMs
  guardLimits := launch.limits
  elapsedDeadline := elapsedDeadline w launch.startedAtMs launch.limits false

/-- The server after spawning the role Panes and creating the task. -/
def spawned (s : Server) (run : Run) : Server :=
  { s with panes := s.panes ++ run.rolePanes, nextPane := s.nextPane + run.rolePanes.length
           nextTask := s.nextTask + 1 }

/-- A run that may wait for something stays in its list. -/
def keep (s : Server) (kind : OrchestrationKind) (run : Run) : Server :=
  if run.state.phase = .awaiting ∨ run.state.phase = .paused then s.put kind run else s

/-- A launch that fails earlier leaves no run; what it spawned and closed again is the steps
`spawnPane` and `closePane`. -/
def launchWorkflow (s : Server) (w : World) (name : String) (launch : Launch) : Option Server :=
  match workflowTemplate name with
  | none => some s
  | some template =>
    if launch.providers.length ≠ template.roles.length then some s
    else do
      let run := s.newRun w launch (some template) template.engineRoles
      let s := s.spawned run
      let (s, state, action) ← s.scopeActivationToken (run.state.step .start)
      let (run, s) := s.applyAction .workflow w { run with state := state } action
      return (s.project .workflow run).keep .workflow run

/-- The builder of a relay is not activated before its checkpoint is there. -/
def launchRelay (s : Server) (w : World) (launch : Launch) : Option Server :=
  if launch.providers.length ≠ relayRoles.length then some s
  else do
    let run := s.newRun w launch none relayRoles
    let s := s.spawned run
    let (s, state, action) ← s.scopeActivationToken (run.state.step .start)
    let run := { run with state := state }
    let checkpoint := match action with
      | .inject role token =>
        if (run.state.roles[role]?).any (·.name == "builder") &&
            w.hasRoot (run.rolePanes.getD role 0) then some (role, token)
        else none
      | _ => none
    match checkpoint with
    | some (role, token) =>
      let s := (s.project .relay run).keep .relay run
      let activation : PendingRelayActivation := { taskId := run.taskId, role := role, token := token }
      return { s with activations := s.activations ++ [activation] }
    | none =>
      let (run, s) := s.applyAction .relay w run action
      return (s.project .relay run).keep .relay run

end Launching

section Submitting

/-- `on_workflow_submit`, `on_relay_submit`. A relay declares no artifacts, and its roles give no
verdict. -/
def submit (s : Server) (kind : OrchestrationKind) (w : World) (token : ℕ) (status : SubmitStatus)
    (verdict : Option String) (summary : Text) (artifacts : List ArtifactClaim)
    (artifactsValidated : Bool) : Option Server :=
  let live (run : Run) : Bool := run.state.token == token && run.state.phase == .awaiting
  match (s.runs kind).findIdx? live with
  | none => some s
  | some index =>
    match (s.runs kind)[index]? with
    | none => some s
    | some run =>
      let summary := summary.take 16384
      let artifacts := artifacts.take 64
      let run := { run with stallDeadline := none, idleDeadline := none }
      let pane := run.rolePanes.getD run.state.cur 0
      let s := s.withRuns kind ((s.runs kind).set index run)
      let s := if artifactsValidated then s
        else s.append (.submitted kind run.taskId token pane status)
      if artifactsValidated = false ∧ status = .done ∧
          (run.spec.expectedArtifacts ≠ [] ∨ artifacts ≠ []) then
        if (s.submissions.any fun pending => pending.kind == kind && pending.token == token) ||
            !w.hasRoot pane then some s
        else
          let pending : PendingSubmission :=
            { kind := kind, taskId := run.taskId, token := token, pane := pane, status := status
              verdict := verdict, summary := summary, due := w.now + validationTimeout }
          some ({ s with submissions := s.submissions ++ [pending] }.append
            (.validating kind run.taskId token pane))
      else
        let s := if artifactsValidated then s.append (.validated kind run.taskId token pane) else s
        if status = .needsInput then
          let needs := match kind with
            | .workflow => "workflow role needs input".toList
            | .relay => "relay role needs input".toList
          let s := s.request pane (w.invocation pane) (waitingKind kind)
            (if blank summary then needs else summary)
          some (s.project kind run)
        else do
          let s := s.resolvePaneKind pane (waitingKind kind)
          let s := s.withRuns kind (swapRemove (s.runs kind) index)
          let findings := String.ofList summary
          let verdict := verdict.map fun verdict => match verdict with
            | "approved" => .approved
            | "replan" => .replan findings
            | _ => .fix findings
          let event := .submit ⟨token, run.state.cur, status, verdict⟩
          let (s, state, action) ← s.scopeActivationToken (run.state.step event)
          let (run, s) := s.applyAction kind w { run with state := state } action
          if run.state.phase = .awaiting ∨ run.state.phase = .paused then
            return (s.project kind run).put kind run
          else return s

def onWorkflowSubmit (s : Server) (w : World) (token : ℕ) (status : SubmitStatus)
    (verdict : Option String) (summary : Text) (artifacts : List ArtifactClaim) : Option Server :=
  s.submit .workflow w token status verdict summary artifacts false

def onRelaySubmit (s : Server) (w : World) (token : ℕ) (status : SubmitStatus) (summary : Text)
    (artifacts : List ArtifactClaim) : Option Server :=
  s.submit .relay w token status none summary artifacts false

/-- A failed gate asks a human in the Pane of the run that holds the token. -/
def reportArtifactGateFailure (s : Server) (kind : OrchestrationKind) (token : ℕ) (error : Text) :
    Server :=
  match ((s.runs kind).find? (·.state.token == token)).bind Run.currentPane with
  | none => s
  | some pane => s.request pane none (waitingKind kind) ("artifact gate failed: ".toList ++ error)

/-- The validator's reply. `recorded` says whether the ledger took the artifacts. -/
def artifactValidated (s : Server) (w : World) (kind : OrchestrationKind) (taskId token : ℕ)
    (artifacts : List ArtifactClaim) (error : Option Text) (recorded : Except Text Unit) :
    Option Server :=
  let fits (pending : PendingSubmission) : Bool :=
    pending.kind == kind && pending.taskId == taskId && pending.token == token
  match s.submissions.findIdx? fits with
  | none => some s
  | some index =>
    match s.submissions[index]? with
    | none => some s
    | some pending =>
      let s := { s with submissions := swapRemove s.submissions index }
      match error, recorded with
      | some error, _ => some (s.reportArtifactGateFailure kind token error)
      | none, .error error => some (s.reportArtifactGateFailure kind token error)
      | none, .ok _ =>
        s.submit kind w token pending.status pending.verdict pending.summary artifacts true

/-- Whether a run is in the turn of a token, in the Pane of its current role. -/
def active (s : Server) (kind : OrchestrationKind) (taskId token : ℕ) (pane : PaneId) : Bool :=
  (s.runs kind).any fun run =>
    run.taskId == taskId && run.state.token == token && run.currentPane == some pane

/-- One validation that took too long. -/
def expireValidation (s : Server) (pending : PendingSubmission) : Server :=
  if s.active pending.kind pending.taskId pending.token pending.pane then
    s.request pending.pane none (waitingKind pending.kind)
      "artifact validation timed out; resume the role and submit again".toList
  else s

def flushArtifactValidationsDue (s : Server) (w : World) : Server :=
  let due := s.submissions.filter (·.due ≤ w.now)
  let s := { s with submissions := s.submissions.filter fun pending => ¬ pending.due ≤ w.now }
  due.foldl expireValidation s

end Submitting

end Server

end Uniterm.Model.Orchestration
