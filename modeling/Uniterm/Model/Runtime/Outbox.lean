import Uniterm.Model.Text

/-! # The backlog of the core

The core never waits for the agent runtime: what the channel does not take is kept in order. A newer
projection of the same thing moves to the tail in place of the older one, unless a barrier was queued
in between. Snapshots and the messages that no projection replaces are parameters, of which only the
sizes matter here.
-/

namespace Uniterm.Model.Runtime

/-- What was seen of a Pane. -/
structure PaneEvidence where
  pane : ℕ
  foregroundPid : Option Int
  processChanged : Bool
  tail : String
  title : String
  boundAgent : Option String
deriving DecidableEq, Repr

/-- The messages from the core to the agent runtime. -/
inductive CoreToAgent (S O : Type) where
  | snapshotSave (name : String) (snapshot : S)
  | eventAppend (name line : String)
  | workspaceCatalogAppend (name line : String)
  | paneEvidence (evidence : PaneEvidence)
  | devServerEvidence (pane : ℕ) (tail : String)
  | other (message : O)
deriving DecidableEq, Repr

/-- The sizes of snapshots and of the other messages. -/
structure Sizes (S O : Type) where
  retainedBytes : S → ℕ
  serializedSize : O → Option ℕ

def maxMessages : ℕ := 512
def maxBytes : ℕ := 128 * 1024 * 1024

variable {S O : Type}

namespace CoreToAgent

def sameProjection : CoreToAgent S O → CoreToAgent S O → Bool
  | snapshotSave a _, snapshotSave b _ => a == b
  | workspaceCatalogAppend a _, workspaceCatalogAppend b _ => a == b
  | paneEvidence a, paneEvidence b => a.pane == b.pane
  | devServerEvidence a _, devServerEvidence b _ => a == b
  | _, _ => false

/-- Lifecycle operations: nothing moves across them. -/
def barrier : CoreToAgent S O → Bool
  | other _ => true
  | _ => false

/-- A change of the process survives the evidence that reported it. -/
def inherit (old message : CoreToAgent S O) : CoreToAgent S O :=
  match old, message with
  | paneEvidence previous, paneEvidence evidence =>
    paneEvidence { evidence with
      processChanged := evidence.processChanged || previous.processChanged }
  | _, message => message

/-- What a message counts for. A size that cannot be told is the largest one. -/
def size (sizes : Sizes S O) : CoreToAgent S O → ℕ
  | snapshotSave name snapshot =>
    saturatingAdd64 (sizes.retainedBytes snapshot) (name.utf8ByteSize + 32)
  | eventAppend name line => name.utf8ByteSize + line.utf8ByteSize + 32
  | workspaceCatalogAppend name line => name.utf8ByteSize + line.utf8ByteSize + 32
  | paneEvidence evidence =>
    evidence.tail.utf8ByteSize + evidence.title.utf8ByteSize +
      (evidence.boundAgent.map (·.utf8ByteSize)).getD 0 + 64
  | devServerEvidence _ tail => tail.utf8ByteSize + 32
  | other message => (sizes.serializedSize message).getD u64Max

end CoreToAgent

/-- `Iterator::rposition`: the last index that fits. -/
def rposition {α : Type} (fits : α → Bool) : List α → Option ℕ
  | [] => none
  | value :: rest =>
    match rposition fits rest with
    | some index => some (index + 1)
    | none => if fits value then some 0 else none

structure Outbox (S O : Type) where
  pending : List (CoreToAgent S O × ℕ) := []
  bytes : ℕ := 0
  failure : Option String := none

/-- A channel to the runtime: the messages that it still takes, and what it answers behind them. -/
structure Receiver where
  room : ℕ
  connected : Bool

namespace Outbox

/-- Drop the projection that a message replaces. -/
def replace (outbox : Outbox S O) (message : CoreToAgent S O) : Outbox S O × CoreToAgent S O :=
  match rposition (fun item => item.1.sameProjection message) outbox.pending with
  | none => (outbox, message)
  | some index =>
    if (outbox.pending.drop (index + 1)).all fun item => !item.1.barrier then
      match outbox.pending[index]? with
      | none => (outbox, message)
      | some (old, size) =>
        ({ outbox with pending := outbox.pending.eraseIdx index, bytes := outbox.bytes - size },
          old.inherit message)
    else (outbox, message)

def push (sizes : Sizes S O) (outbox : Outbox S O) (message : CoreToAgent S O) : Outbox S O :=
  if outbox.failure.isSome then outbox
  else
    let (outbox, message) := outbox.replace message
    let size := message.size sizes
    if maxMessages ≤ outbox.pending.length ∨ maxBytes - outbox.bytes < size then
      { outbox with failure := some "agent runtime backlog exceeded its bounded capacity" }
    else { outbox with pending := outbox.pending ++ [(message, size)], bytes := outbox.bytes + size }

/-- Send from the front until the channel is full or gone, by recursion on what is pending. -/
def send (failure : Option String) (connected : Bool) :
    ℕ → List (CoreToAgent S O × ℕ) → ℕ → Outbox S O × List (CoreToAgent S O)
  | _, [], bytes => ({ pending := [], bytes := bytes, failure := failure }, [])
  | 0, (message, size) :: rest, bytes =>
    if connected then
      ({ pending := (message, size) :: rest, bytes := bytes, failure := failure }, [])
    else
      ({ pending := rest, bytes := bytes - size
         failure := some "agent runtime disconnected with pending work" }, [])
  | room + 1, (message, size) :: rest, bytes =>
    let (outbox, sent) := send failure connected room rest (bytes - size)
    (outbox, message :: sent)

/-- The outbox after a flush, and the messages that the channel took. -/
def flush (outbox : Outbox S O) (receiver : Receiver) : Outbox S O × List (CoreToAgent S O) :=
  send outbox.failure receiver.connected receiver.room outbox.pending outbox.bytes

end Outbox

/-- What the core does with its outbox. -/
inductive Op (S O : Type) where
  | push (message : CoreToAgent S O)
  | flush (receiver : Receiver)

/-- The outbox and what the runtime was sent so far. -/
structure Trace (S O : Type) where
  outbox : Outbox S O := {}
  delivered : List (CoreToAgent S O) := []

def Trace.step (sizes : Sizes S O) (trace : Trace S O) : Op S O → Trace S O
  | .push message => { trace with outbox := trace.outbox.push sizes message }
  | .flush receiver =>
    let (outbox, sent) := trace.outbox.flush receiver
    { outbox := outbox, delivered := trace.delivered ++ sent }

def run (sizes : Sizes S O) (ops : List (Op S O)) : Trace S O := ops.foldl (Trace.step sizes) {}

end Uniterm.Model.Runtime
