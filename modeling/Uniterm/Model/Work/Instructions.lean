import Uniterm.Model.Text

/-! # Queued human direction

Instructions waiting for one agent invocation, in the order in which they were made. Both
allocators saturate at the 64-bit maximum.
-/

namespace Uniterm.Model.Work

inductive InstructionAuthor where
  | cli | client | controlApi
deriving DecidableEq, Repr

inductive InstructionCancellation where
  | canceled | replaced | invocationEnded | paneClosed
deriving DecidableEq, Repr

inductive InstructionBoundary where
  | cooperativeReady | sendNow
deriving DecidableEq, Repr

/-- One active instruction. Policy and state have one value each and are left out. -/
structure InstructionItem where
  id : ℕ
  pane : ℕ
  invocation : Int
  author : InstructionAuthor
  createdSequence : ℕ
  text : Text
deriving DecidableEq, Repr

structure InstructionQueue where
  items : List InstructionItem := []
  nextId : ℕ := 1
  nextDeliveryId : ℕ := 1
deriving DecidableEq, Repr

def maxInstructionChars : ℕ := 16384
def maxWorkspaceInstructions : ℕ := 1024
def maxInvocationInstructions : ℕ := 64

namespace InstructionQueue

/-- A new item, not yet projected. -/
def allocate (queue : InstructionQueue) (pane : ℕ) (invocation : Int) (author : InstructionAuthor)
    (createdSequence : ℕ) (text : Text) : InstructionQueue × InstructionItem :=
  ({ queue with nextId := saturatingAdd64 queue.nextId 1 },
    { id := queue.nextId, pane := pane, invocation := invocation, author := author
      createdSequence := createdSequence, text := text.take maxInstructionChars })

/-- The sorting key `(created_sequence, id)`. -/
def keyLe (a b : InstructionItem) : Bool :=
  a.createdSequence < b.createdSequence || (a.createdSequence == b.createdSequence && a.id ≤ b.id)

/-- Insert a new or replayed item while preserving the queue order; the sort is stable. -/
def insert (queue : InstructionQueue) (item : InstructionItem) : InstructionQueue :=
  { queue with
    nextId := max queue.nextId (saturatingAdd64 item.id 1)
    items := ((queue.items.filter (·.id != item.id)) ++ [item]).mergeSort keyLe }

/-- Replace an item in place with a newly allocated identity. -/
def replace (queue : InstructionQueue) (replaced : ℕ) (item : InstructionItem) :
    InstructionQueue × Bool :=
  if queue.items.any (·.id == replaced) then
    ({ queue with
        nextId := max queue.nextId (saturatingAdd64 item.id 1)
        items := queue.items.set (queue.items.findIdx (·.id == replaced)) item }, true)
  else (queue, false)

def remove (queue : InstructionQueue) (id : ℕ) : InstructionQueue × Option InstructionItem :=
  ({ queue with items := queue.items.eraseP (·.id == id) }, queue.items.find? (·.id == id))

def nextFor (queue : InstructionQueue) (pane : ℕ) (invocation : Int) : Option InstructionItem :=
  queue.items.find? fun item => item.pane == pane && item.invocation == invocation

def get (queue : InstructionQueue) (id : ℕ) : Option InstructionItem := queue.items.find? (·.id == id)

def canEnqueue (queue : InstructionQueue) (pane : ℕ) (invocation : Int) : Bool :=
  queue.items.length < maxWorkspaceInstructions &&
    (queue.items.filter fun item => item.pane == pane && item.invocation == invocation).length <
      maxInvocationInstructions

def mintDeliveryId (queue : InstructionQueue) : InstructionQueue × ℕ :=
  ({ queue with nextDeliveryId := saturatingAdd64 queue.nextDeliveryId 1 }, queue.nextDeliveryId)

/-- Advance the allocator past a delivery attempt that is no longer projected. -/
def observeDeliveryId (queue : InstructionQueue) (id : ℕ) : InstructionQueue :=
  { queue with nextDeliveryId := max queue.nextDeliveryId (saturatingAdd64 id 1) }

end InstructionQueue

end Uniterm.Model.Work
