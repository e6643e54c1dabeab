import Uniterm.Model.Text

/-! # The human-attention queue

Active items with monotonic ids, at most one for each Pane as long as only these operations are
used. Agent observations and explicit requests overwrite one another.
-/

namespace Uniterm.Model.Work

/-- The smoothed status of an agent. -/
inductive AgentStatus where
  | unknown | starting | working | tool | permission | question | idle | error | exited
deriving DecidableEq, Repr

/-- Why an item requires a human. -/
inductive WaitingKind where
  | permission | question | workflow | relay
deriving DecidableEq, Repr

/-- Only genuine human-blocking agent states reach the queue. -/
def WaitingKind.fromAgentStatus : AgentStatus → Option WaitingKind
  | .permission => some .permission
  | .question => some .question
  | _ => none

structure WaitingItem where
  id : ℕ
  pane : ℕ
  /-- Foreground process group when known. -/
  invocation : Option Int
  kind : WaitingKind
  summary : Text
deriving DecidableEq, Repr

/-- Durable reason an item left the projection. -/
inductive WaitingResolution where
  | answered | dismissed | stopped | agentAdvanced | paneClosed | resumed
deriving DecidableEq, Repr

/-- Result of reconciling one Pane's observed state. -/
inductive WaitingChange where
  | none
  | created (item : WaitingItem)
  | updated (id : ℕ) (summary : Text)
  | replaced (resolved : ℕ) (created : WaitingItem)
  | resolved (id : ℕ) (resolution : WaitingResolution)
deriving DecidableEq, Repr

structure WaitingQueue where
  items : List WaitingItem := []
  nextId : ℕ := 1
deriving DecidableEq, Repr

def boundedSummary (summary : Text) : Text := summary.take 2048

namespace WaitingQueue

def create (queue : WaitingQueue) (pane : ℕ) (invocation : Option Int) (kind : WaitingKind)
    (summary : Text) : WaitingQueue × WaitingItem :=
  ({ queue with nextId := saturatingAdd64 queue.nextId 1 },
    { id := queue.nextId, pane := pane, invocation := invocation, kind := kind,
      summary := boundedSummary summary })

/-- Create an explicit request for a human; it takes the place of the Pane's item. -/
def request (queue : WaitingQueue) (pane : ℕ) (invocation : Option Int) (kind : WaitingKind)
    (summary : Text) : WaitingQueue × WaitingChange :=
  let (created, item) := queue.create pane invocation kind summary
  match queue.items.find? (·.pane == pane) with
  | some old =>
    ({ created with items := queue.items.eraseP (·.pane == pane) ++ [item] },
      .replaced old.id item)
  | none => ({ created with items := queue.items ++ [item] }, .created item)

/-- Reconcile a smoothed agent status for one invocation. -/
def observeAgent (queue : WaitingQueue) (pane : ℕ) (invocation : Option Int) (status : AgentStatus)
    (summary : Text) : WaitingQueue × WaitingChange :=
  match queue.items.find? (·.pane == pane), WaitingKind.fromAgentStatus status with
  | some item, some kind =>
    if item.invocation = invocation ∧ item.kind = kind then
      if item.summary = boundedSummary summary then (queue, .none)
      else
        ({ queue with
            items := queue.items.modify (queue.items.findIdx (·.pane == pane)) fun item =>
              { item with summary := boundedSummary summary } },
          .updated item.id (boundedSummary summary))
    else queue.request pane invocation kind summary
  | none, some kind => queue.request pane invocation kind summary
  | some item, none =>
    ({ queue with items := queue.items.eraseP (·.pane == pane) }, .resolved item.id .agentAdvanced)
  | none, none => (queue, .none)

/-- Insert an event-log item with its original id. -/
def insert (queue : WaitingQueue) (item : WaitingItem) : WaitingQueue where
  items := (queue.items.filter fun current => current.id != item.id && current.pane != item.pane)
    ++ [item]
  nextId := max queue.nextId (saturatingAdd64 item.id 1)

/-- Replay a durable summary refresh; unknown ids are ignored. -/
def updateSummary (queue : WaitingQueue) (id : ℕ) (summary : Text) : WaitingQueue × Bool :=
  ({ queue with
      items := queue.items.modify (queue.items.findIdx (·.id == id)) fun item =>
        { item with summary := boundedSummary summary } },
    queue.items.any (·.id == id))

/-- Take the first item that fits. -/
def resolveWhere (queue : WaitingQueue) (fits : WaitingItem → Bool) :
    WaitingQueue × Option WaitingItem :=
  ({ queue with items := queue.items.eraseP fits }, queue.items.find? fits)

def resolve (queue : WaitingQueue) (id : ℕ) : WaitingQueue × Option WaitingItem :=
  queue.resolveWhere (·.id == id)

/-- Resolve any item of a Pane that is being destroyed. -/
def resolvePane (queue : WaitingQueue) (pane : ℕ) : WaitingQueue × Option WaitingItem :=
  queue.resolveWhere (·.pane == pane)

/-- Resolve an orchestration item without consuming an agent prompt on the same Pane. -/
def resolvePaneKind (queue : WaitingQueue) (pane : ℕ) (kind : WaitingKind) :
    WaitingQueue × Option WaitingItem :=
  queue.resolveWhere fun item => item.pane == pane && item.kind == kind

end WaitingQueue

end Uniterm.Model.Work
