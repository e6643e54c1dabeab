import Uniterm.Model.EventLog.Log

/-! # The queues of the server

The waiting items and the instructions of a Workspace change together with the log: every change is
recorded as an event. What foreground process a pane runs and whether it takes what is typed come with
each operation.
-/

namespace Uniterm.Model.Server

open EventLog Work

/-- The queues and the log. -/
structure Desk where
  waiting : WaitingQueue := {}
  instructions : InstructionQueue := {}
  log : Log := {}

inductive InstructionCommand where
  | add (pane : ℕ) (author : InstructionAuthor) (text : Text)
  | replace (id : ℕ) (author : InstructionAuthor) (text : Text)
  | cancel (id : ℕ)
  | sendNow (id : ℕ)
deriving DecidableEq, Repr

structure InstructionCommandResult where
  id : ℕ
  found : Bool
  accepted : Bool
deriving DecidableEq, Repr

/-- What an operation finds: the panes with the process that takes their instructions, and whether a pane
takes typed text. -/
structure Surroundings where
  known : ℕ → Bool
  invocation : ℕ → Option Int
  accepts : ℕ → Bool

namespace Desk

/-- Append an event other than a note or prompt of the timeline. -/
def append (desk : Desk) (event : LogEvent) : Desk := { desk with log := desk.log.record event false }

section Waiting

def recordWaitingChange (desk : Desk) : WaitingChange → Desk
  | .none => desk
  | .updated id summary => desk.append (.waitingUpdated id summary)
  | .created item => desk.append (.waitingCreated item)
  | .replaced resolved created =>
    (desk.append (.waitingResolved resolved .agentAdvanced)).append (.waitingCreated created)
  | .resolved id resolution => desk.append (.waitingResolved id resolution)

def observeAgent (desk : Desk) (pane : ℕ) (invocation : Option Int) (status : Work.AgentStatus)
    (summary : Text) : Desk :=
  let (waiting, change) := desk.waiting.observeAgent pane invocation status summary
  { desk with waiting := waiting }.recordWaitingChange change

def request (desk : Desk) (pane : ℕ) (invocation : Option Int) (kind : WaitingKind) (summary : Text) : Desk :=
  let (waiting, change) := desk.waiting.request pane invocation kind summary
  { desk with waiting := waiting }.recordWaitingChange change

/-- Record the item that was taken out, if there was one. -/
def recordResolved (desk : Desk) (result : WaitingQueue × Option WaitingItem)
    (resolution : WaitingResolution) : Desk :=
  match result with
  | (waiting, some item) => { desk with waiting := waiting }.append (.waitingResolved item.id resolution)
  | (waiting, none) => { desk with waiting := waiting }

def resolve (desk : Desk) (id : ℕ) (resolution : WaitingResolution) : Desk :=
  desk.recordResolved (desk.waiting.resolve id) resolution

def resolvePane (desk : Desk) (pane : ℕ) (resolution : WaitingResolution) : Desk :=
  desk.recordResolved (desk.waiting.resolvePane pane) resolution

def resolvePaneKind (desk : Desk) (pane : ℕ) (kind : WaitingKind) (resolution : WaitingResolution) : Desk :=
  desk.recordResolved (desk.waiting.resolvePaneKind pane kind) resolution

end Waiting

section Instructions

/-- The sequence that the next event is recorded under. -/
def createdSequence (desk : Desk) : ℕ := saturatingAdd64 desk.log.currentSequence 1

/-- Take an instruction out, for a reason. -/
def cancel (desk : Desk) (id : ℕ) (reason : InstructionCancellation) : Desk :=
  let desk := desk.append (.instructionCanceled id reason)
  { desk with instructions := (desk.instructions.remove id).1 }

def cancelAll (desk : Desk) (ids : List ℕ) (reason : InstructionCancellation) : Desk :=
  ids.foldl (fun desk id => desk.cancel id reason) desk

def cancelStaleInstructions (desk : Desk) (pane : ℕ) (invocation : Option Int) : Desk :=
  desk.cancelAll ((desk.instructions.items.filter fun item =>
    item.pane == pane && some item.invocation != invocation).map (·.id)) .invocationEnded

def cancelPaneInstructions (desk : Desk) (pane : ℕ) : Desk :=
  desk.cancelAll ((desk.instructions.items.filter (·.pane == pane)).map (·.id)) .paneClosed

def deliverInstruction (desk : Desk) (around : Surroundings) (id : ℕ) (boundary : InstructionBoundary) :
    InstructionCommandResult × Desk :=
  match desk.instructions.get id with
  | none => (⟨id, false, false⟩, desk)
  | some item =>
    if around.invocation item.pane ≠ some item.invocation then
      (⟨id, true, false⟩, desk.cancel id .invocationEnded)
    else
      let (instructions, deliveryId) := desk.instructions.mintDeliveryId
      let accepted := around.accepts item.pane
      let desk := { desk with instructions := instructions }.append
        (.instructionDelivery id deliveryId boundary accepted)
      (⟨id, true, accepted⟩,
        if accepted then { desk with instructions := (desk.instructions.remove id).1 } else desk)

def deliverCooperativeInstruction (desk : Desk) (around : Surroundings) (pane : ℕ) : Desk :=
  let desk := desk.cancelStaleInstructions pane (around.invocation pane)
  match around.invocation pane with
  | none => desk
  | some invocation =>
    match desk.instructions.nextFor pane invocation with
    | none => desk
    | some item => (desk.deliverInstruction around item.id .cooperativeReady).2

def instructionCommand (desk : Desk) (around : Surroundings) :
    InstructionCommand → InstructionCommandResult × Desk
  | .add pane author text =>
    match around.invocation pane with
    | none => (⟨0, around.known pane, false⟩, desk)
    | some invocation =>
      if text.isBlank ∨ text.length > maxInstructionChars ∨ ¬ desk.instructions.canEnqueue pane invocation then
        (⟨0, true, false⟩, desk)
      else
        let (instructions, item) :=
          desk.instructions.allocate pane invocation author desk.createdSequence text
        let desk := { desk with instructions := instructions }.append (.instructionQueued item)
        (⟨item.id, true, true⟩, { desk with instructions := desk.instructions.insert item })
  | .replace id author text =>
    match desk.instructions.get id with
    | none => (⟨id, false, false⟩, desk)
    | some current =>
      if text.isBlank ∨ text.length > maxInstructionChars ∨
          around.invocation current.pane ≠ some current.invocation then
        (⟨id, true, false⟩, desk)
      else
        let (instructions, item) :=
          desk.instructions.allocate current.pane current.invocation author desk.createdSequence text
        let desk := { desk with instructions := instructions }.append (.instructionReplaced id item)
        (⟨item.id, true, true⟩, { desk with instructions := (desk.instructions.replace id item).1 })
  | .cancel id =>
    match desk.instructions.get id with
    | none => (⟨id, false, false⟩, desk)
    | some _ => (⟨id, true, true⟩, desk.cancel id .canceled)
  | .sendNow id => desk.deliverInstruction around id .sendNow

end Instructions

/-- The operations on the queues, and the events of everything else. -/
inductive Op where
  | observeAgent (pane : ℕ) (invocation : Option Int) (status : Work.AgentStatus) (summary : Text)
  | request (pane : ℕ) (invocation : Option Int) (kind : WaitingKind) (summary : Text)
  | resolve (id : ℕ) (resolution : WaitingResolution)
  | resolvePane (pane : ℕ) (resolution : WaitingResolution)
  | resolvePaneKind (pane : ℕ) (kind : WaitingKind) (resolution : WaitingResolution)
  | command (around : Surroundings) (command : InstructionCommand)
  | ready (around : Surroundings) (pane : ℕ)
  | stale (pane : ℕ) (invocation : Option Int)
  | closed (pane : ℕ)
  | other (event : LogEvent) (always : Bool)

def step (desk : Desk) : Op → Desk
  | .observeAgent pane invocation status summary => desk.observeAgent pane invocation status summary
  | .request pane invocation kind summary => desk.request pane invocation kind summary
  | .resolve id resolution => desk.resolve id resolution
  | .resolvePane pane resolution => desk.resolvePane pane resolution
  | .resolvePaneKind pane kind resolution => desk.resolvePaneKind pane kind resolution
  | .command around command => (desk.instructionCommand around command).2
  | .ready around pane => desk.deliverCooperativeInstruction around pane
  | .stale pane invocation => desk.cancelStaleInstructions pane invocation
  | .closed pane => desk.cancelPaneInstructions pane
  | .other event always => { desk with log := desk.log.record event always }

end Desk

end Uniterm.Model.Server
