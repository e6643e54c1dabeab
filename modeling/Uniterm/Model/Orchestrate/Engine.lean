import Mathlib.Algebra.Ring.Nat
import Mathlib.Data.List.Basic

/-! # The pure decision brain of workflows and relays

`step` advances an orchestration by one event and returns the action the server should interpret.
The token sequence counts opened turns in 64 bits and is a natural number here: one increment for
each opened turn never exhausts it. The iteration counter is compared with a 32-bit cap that may be
the 32-bit maximum, so it wraps as the release build's does.
-/

namespace Uniterm.Model.Orchestrate

/-- A role slot. Which concrete agent fills it is chosen elsewhere. -/
structure Role where
  name : String
  verifier : Bool
deriving DecidableEq, Repr

/-- The verifier's structured verdict. Findings feed stall detection. -/
inductive Verdict where
  | approved
  | fix (findings : String)
  | replan (findings : String)
deriving DecidableEq, Repr

inductive SubmitStatus where
  | done | needsInput | failed
deriving DecidableEq, Repr

/-- An explicit completion submission. -/
structure Submit where
  token : ℕ
  role : ℕ
  status : SubmitStatus
  verdict : Option Verdict
deriving DecidableEq

inductive Event where
  | start
  | submit (sub : Submit)
  | idle (role : ℕ)
  | stall
  | guardrail (reason : String)
  | resume
  | stop
deriving DecidableEq

inductive Action where
  | inject (role token : ℕ)
  | awaitSubmit
  | complete
  | escalate (reason : String)
  | abort (reason : String)
  | hold
deriving DecidableEq

inductive Phase where
  | idle | awaiting | paused | done | aborted
deriving DecidableEq, Repr

/-- Whether the phase ignores every further event. -/
def Phase.over : Phase → Bool
  | done | aborted => true
  | idle | awaiting | paused => false

/-- The full orchestration state, shared by workflow and relay. -/
structure State where
  roles : List Role
  cur : ℕ
  iteration : ℕ
  maxIterations : ℕ
  token : ℕ
  tokenSeq : ℕ
  lastFix : Option String
  fixTarget : ℕ
  replanTarget : ℕ
  phase : Phase
deriving DecidableEq

namespace State

/-- A new orchestration. A `fix` goes back to the role before the verifier, a `replan` to role 0. -/
def new (roles : List Role) (maxIterations : ℕ) : State where
  roles := roles
  cur := 0
  iteration := 0
  maxIterations := maxIterations
  token := 0
  tokenSeq := 0
  lastFix := none
  fixTarget := ((roles.findIdx? (·.verifier)).getD 0) - 1
  replanTarget := 0
  phase := .idle

def openTurn (s : State) : State × Action :=
  ({ s with tokenSeq := s.tokenSeq + 1, token := s.tokenSeq + 1, phase := .awaiting },
    .inject s.cur (s.tokenSeq + 1))

def advanceAfterDone (s : State) : State × Action :=
  if s.cur + 1 ≥ s.roles.length then ({ s with phase := .done }, .complete)
  else openTurn { s with cur := s.cur + 1 }

def pause (s : State) (reason : String) : State × Action :=
  ({ s with phase := .paused }, .escalate reason)

def abort (s : State) (reason : String) : State × Action :=
  ({ s with phase := .aborted }, .abort reason)

def nextIteration (s : State) : ℕ := (s.iteration + 1) % 2 ^ 32

def routeFix (s : State) (findings : String) : State × Action :=
  -- Two identical fix findings in a row: not converging, so a human decides.
  if s.lastFix = some findings then s.pause "verdict stalled (two identical fix verdicts)"
  else
    let s := { s with lastFix := some findings, iteration := s.nextIteration }
    if s.iteration > s.maxIterations then s.pause "max iterations exceeded"
    else openTurn { s with cur := s.fixTarget }

def routeReplan (s : State) : State × Action :=
  let s := { s with iteration := s.nextIteration }
  if s.iteration > s.maxIterations then s.pause "max iterations exceeded"
  else openTurn { s with lastFix := none, cur := s.replanTarget }

/-- Whether the current role is the verifier. The source indexes the role list, which is in bounds
in every state that `step` reaches. -/
def atVerifier (s : State) : Bool := (s.roles[s.cur]?).any (·.verifier)

/-- A submission that passed the token and role checks. -/
def acceptSubmit (s : State) (sub : Submit) : State × Action :=
  if sub.verdict.isSome ∧ s.atVerifier = false then (s, .hold)
  else match sub.status with
  | .failed => s.pause "role reported failure"
  | .needsInput => (s, .awaitSubmit)
  | .done =>
    if s.atVerifier then
      match sub.verdict with
      | some .approved => ({ s with phase := .done }, .complete)
      | some (.fix findings) => s.routeFix findings
      | some (.replan _) => s.routeReplan
      | none => (s, .awaitSubmit)
    else s.advanceAfterDone

/-- Advance by one event. -/
def step (s : State) (event : Event) : State × Action :=
  match s.phase with
  | .done | .aborted => (s, .hold)
  | .paused =>
    match event with
    | .resume => s.openTurn
    | .stop => s.abort "stopped by human"
    | _ => (s, .hold)
  | .idle | .awaiting =>
    match event with
    | .start => if s.phase ≠ .idle then (s, .hold) else openTurn { s with cur := 0 }
    | .stop => s.abort "stopped by human"
    | .stall => s.pause "turn stalled"
    | .guardrail reason => s.pause reason
    | .resume => (s, .hold)
    | .idle role =>
      if s.phase ≠ .awaiting ∨ role ≠ s.cur then (s, .hold)
      else if s.atVerifier then (s, .hold)
      else s.advanceAfterDone
    | .submit sub =>
      if s.phase ≠ .awaiting then (s, .hold)
      else if sub.token ≠ s.token ∨ sub.role ≠ s.cur then (s, .hold)
      else s.acceptSubmit sub

/-- The state after a sequence of events. -/
def after (s : State) (events : List Event) : State := events.foldl (fun s e => (s.step e).1) s

/-- The actions a sequence of events returns. -/
def actions : State → List Event → List Action
  | _, [] => []
  | s, e :: es => (s.step e).2 :: actions (s.step e).1 es

end State

/-- The token a prompt delivery carries. -/
def Action.token? : Action → Option ℕ
  | inject _ token => some token
  | _ => none

/-- The tokens injected along a sequence of events, oldest first. -/
def State.injected (s : State) (events : List Event) : List ℕ :=
  (s.actions events).filterMap Action.token?

end Uniterm.Model.Orchestrate
