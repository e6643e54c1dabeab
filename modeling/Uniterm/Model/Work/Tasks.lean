import Uniterm.Model.Text

/-! # Durable tasks

The task list as the event log projects it. Ids are 64-bit; the allocator's increment wraps as the
release build's does.
-/

namespace Uniterm.Model.Work

inductive TaskStatus where
  | todo | doing | blocked | done
deriving DecidableEq, Repr

/-- A provider chosen for one role of a launch. -/
structure RoleProviderSelection where
  role : String
  provider : String
deriving DecidableEq, Repr

/-- Durable launch ownership and reusable choices. -/
structure TaskContext where
  project : Option ℕ := none
  pane : Option ℕ := none
  invocation : Option ℕ := none
  sourceTask : Option ℕ := none
  provider : Option String := none
  prompt : Option String := none
  model : Option String := none
  profile : Option String := none
  workflow : Option String := none
  relay : Bool := false
  roleProviders : List RoleProviderSelection := []
deriving DecidableEq, Repr

structure Task where
  id : ℕ
  title : String
  status : TaskStatus
  notes : String := ""
  context : TaskContext := {}
  updated : ℕ
deriving DecidableEq, Repr

/-- An ordered collection of tasks with monotonically assigned ids. -/
structure TaskList where
  tasks : List Task := []
  nextId : ℕ := 1
deriving DecidableEq, Repr

namespace TaskList

/-- Change the first task with the given id, if there is one. -/
def update (list : TaskList) (id : ℕ) (change : Task → Task) : TaskList :=
  { list with tasks := list.tasks.modify (list.tasks.findIdx (·.id == id)) change }

def contains (list : TaskList) (id : ℕ) : Bool := list.tasks.any (·.id == id)

/-- Transfer the tasks of exactly the resumed invocation; the number of tasks changed. -/
def rebindInvocation (list : TaskList) (pane previous current : ℕ) : TaskList × ℕ :=
  let owned (task : Task) : Bool :=
    task.context.pane == some pane && task.context.invocation == some previous
  ({ list with
      tasks := list.tasks.map fun task =>
        if owned task then
          { task with context := { task.context with invocation := some current }
                      updated := current }
        else task },
    list.tasks.countP owned)

/-- Insert a task with an explicit id. -/
def insert (list : TaskList) (id : ℕ) (title : String) (status : TaskStatus) : TaskList :=
  let list := { list with nextId := max list.nextId ((id + 1) % 2 ^ 64) }
  if list.contains id then list.update id fun task => { task with title := title, status := status }
  else { list with tasks := list.tasks ++ [{ id := id, title := title, status := status, updated := id }] }

def setStatus (list : TaskList) (id : ℕ) (status : TaskStatus) : TaskList × Bool :=
  (list.update id fun task => { task with status := status }, list.contains id)

def setTitle (list : TaskList) (id : ℕ) (title : String) : TaskList × Bool :=
  (list.update id fun task => { task with title := title }, list.contains id)

def setDetails (list : TaskList) (id : ℕ) (notes : String) (context : TaskContext) :
    TaskList × Bool :=
  (list.update id fun task => { task with notes := notes, context := context }, list.contains id)

/-- The event sequence orders tasks by recency. -/
def touch (list : TaskList) (id sequence : ℕ) : TaskList :=
  list.update id fun task => { task with updated := sequence }

def remove (list : TaskList) (id : ℕ) : TaskList × Bool :=
  ({ list with tasks := list.tasks.filter (·.id != id) }, list.contains id)

end TaskList

end Uniterm.Model.Work
