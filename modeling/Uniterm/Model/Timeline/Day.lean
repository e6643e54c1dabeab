import Mathlib.Data.Nat.Log
import Uniterm.Model.EventLog.Event
import Uniterm.Model.Timeline.Projection

/-! # One day of the timeline

A query reads the observations of a local day from the UTC buckets that it touches, keeps the latest of them that match
a filter and lie before a cursor, and cuts the answer until it fits in one frame. Time zones and case folding are
parameters.
-/

namespace Uniterm.Model.Timeline

def dayMs : ℕ := 86400000

/-- A civil day's UTC bounds come from the runtime's timezone conversion. -/
structure CivilDay where
  date : Text
  previous : Text
  next : Text
  timezone : Text
  startMs : ℕ
  endMs : ℕ
deriving DecidableEq, Repr

/-- What a query takes from the system at its time. -/
structure Runtime where
  localDay : Text → Option CivilDay
  localTime : ℕ → Text
  lowercase : Text → Text

/-- Cursors page raw observations so dense days never require unbounded memory. -/
structure TimelineDay extends CivilDay where
  currentSequence : ℕ
  entries : List TimelineEntry
  activeAgents : List TimelineEntry := []
  activeAgentsTruncated : Bool := false
  nextBefore : Option ℕ
  partialHistory : Bool
  projects : List TimelineContext
  projectsTruncated : Bool
  times : List Text
  axis : List Text
deriving DecidableEq, Repr

section Json

/-! ### How many bytes the JSON encoding takes -/

namespace Json

def number (n : ℕ) : ℕ := Nat.log 10 n + 1

def bool (b : Bool) : ℕ := if b then 4 else 5

def char (c : Char) : ℕ :=
  if c = '"' ∨ c = '\\' then 2
  else if c.toNat = 8 ∨ c.toNat = 9 ∨ c.toNat = 10 ∨ c.toNat = 12 ∨ c.toNat = 13 then 2
  else if c.toNat < 0x20 then 6
  else c.utf8Size

def text (s : Text) : ℕ := 2 + (s.map char).sum

def option {α : Type} (size : α → ℕ) (value : Option α) : ℕ := value.elim 4 size

def list {α : Type} (size : α → ℕ) (values : List α) : ℕ := 2 + (values.map size).sum + (values.length - 1)

/-- A structure by the names of its fields and their sizes. -/
def fields (sizes : List (String × ℕ)) : ℕ :=
  2 + (sizes.map fun (name, size) => name.length + 3 + size).sum + (sizes.length - 1)

def kind : TimelineKind → ℕ
  | .visit => 7
  | .agent => 7
  | .note => 6
  | .prompt => 8
  | .boundary => 10

def context (context : TimelineContext) : ℕ :=
  fields [("project", option number context.project), ("project_name", text context.projectName),
    ("root", text context.root), ("branch", text context.branch), ("tab", text context.tab),
    ("pane", option number context.pane)]

def entry (entry : TimelineEntry) : ℕ :=
  fields [("sequence", number entry.sequence), ("timestamp_ms", number entry.timestampMs),
    ("context", context entry.context), ("invocation", option number entry.invocation),
    ("provider", text entry.provider), ("session_id", option text entry.sessionId),
    ("parent_session_id", option text entry.parentSessionId),
    ("parent_invocation", option number entry.parentInvocation), ("kind", kind entry.kind),
    ("summary", text entry.summary)]

def day (day : TimelineDay) : ℕ :=
  fields [("date", text day.date), ("previous", text day.previous), ("next", text day.next),
    ("timezone", text day.timezone), ("start_ms", number day.startMs), ("end_ms", number day.endMs),
    ("current_sequence", number day.currentSequence), ("entries", list entry day.entries),
    ("active_agents", list entry day.activeAgents), ("active_agents_truncated", bool day.activeAgentsTruncated),
    ("next_before", option number day.nextBefore), ("partial_history", bool day.partialHistory),
    ("projects", list context day.projects), ("projects_truncated", bool day.projectsTruncated),
    ("times", list text day.times), ("axis", list text day.axis)]

end Json

end Json

section Scan

/-- What a query asks for. -/
structure Query where
  date : Text
  filter : Text
  before : Option ℕ
deriving DecidableEq, Repr

/-- What is searched for a filter. -/
def TimelineEntry.searched (entry : TimelineEntry) : Text :=
  entry.context.projectName ++ [' '] ++ entry.context.root ++ [' '] ++ entry.context.branch ++ [' '] ++
    entry.provider ++ [' '] ++ entry.sessionId.getD []

def Runtime.matches (runtime : Runtime) (filter : Text) (entry : TimelineEntry) : Bool :=
  decide (runtime.lowercase filter <:+: runtime.lowercase entry.searched)

/-- The page that a scan has collected, in the order of sequences. -/
structure Page where
  rows : List TimelineEntry := []
  more : Bool := false
  projects : List (ℕ × TimelineContext) := []
  projectsTruncated : Bool := false
deriving DecidableEq, Repr

namespace Page

def projectLimit : ℕ := 256

/-- A Project that the day touches. -/
def touch (page : Page) (context : TimelineContext) : Page :=
  match context.project with
  | none => page
  | some project =>
    if page.projects.length < projectLimit ∨ (page.projects.lookup project).isSome then
      { page with
        projects := page.projects.filter (·.1 < project) ++ (project, context) :: page.projects.filter (project < ·.1) }
    else { page with projectsTruncated := true }

/-- A row, in place of the first one where the page is full. -/
def insert (page : Page) (entry : TimelineEntry) : Page :=
  let rows := page.rows.filter (·.sequence < entry.sequence) ++ entry :: page.rows.filter (entry.sequence < ·.sequence)
  if pageSize < rows.length then { page with rows := rows.tail, more := true } else { page with rows }

/-- One row of a bucket. -/
def scan (runtime : Runtime) (query : Query) (day : CivilDay) (through : ℕ) (page : Page) (entry : TimelineEntry) : Page :=
  if day.startMs ≤ entry.timestampMs ∧ entry.timestampMs < day.endMs ∧ entry.sequence ≤ through then
    let page := page.touch entry.context
    if query.before.any (· ≤ entry.sequence) ∨ ¬ runtime.matches query.filter entry then page else page.insert entry
  else page

end Page

/-- The buckets that a day touches. -/
def CivilDay.buckets (day : CivilDay) : List ℕ :=
  let first := day.startMs / dayMs
  List.range' first ((day.endMs - 1) / dayMs + 1 - first)

def inBucket (rows : List TimelineEntry) (bucket : ℕ) : List TimelineEntry :=
  rows.filter (·.timestampMs / dayMs = bucket)

end Scan

namespace Projection

/-- An observation that named no Project, where its Pane's invocation still runs. -/
def repair (p : Projection) (entry : TimelineEntry) : TimelineEntry :=
  match entry.context.project, entry.context.pane with
  | none, some pane =>
    if (p.agents.lookup pane).any fun agent => some agent.sequence = entry.invocation then
      { entry with context := (p.panes.lookup pane).getD entry.context }
    else entry
  | _, _ => entry

/-- The last observations of the open invocations and of their children. -/
def live (p : Projection) : List TimelineEntry :=
  (p.agents.filter (!·.2.exited)).filterMap (·.2.last) ++
    (p.children.filter fun (pane, _) => (p.agents.lookup pane).any (!·.exited)).flatMap fun (_, children) =>
      children.map (·.2)

/-- An open observation that named no Project, in its Pane. -/
def replaced (p : Projection) (entry : TimelineEntry) : TimelineEntry :=
  match entry.context.project with
  | none => { entry with context := (entry.context.pane.bind fun pane => p.panes.lookup pane).getD entry.context }
  | some _ => entry

/-- Open agents and their descendants that a page does not show. -/
def active (p : Projection) (runtime : Runtime) (filter : Text) (shown : List TimelineEntry) : List TimelineEntry :=
  (((p.live.filter fun entry => ∀ other ∈ shown, other.sequence ≠ entry.sequence).map p.replaced).filter
    (runtime.matches filter)).mergeSort fun a b => a.sequence ≤ b.sequence

end Projection

section Answer

def frameBudget : ℕ := 1024 * 1024 - 8192

/-- The next thing to cut from a day and the size of its encoding: open agents from the end, then all rows but one from
the start, then all Projects but one from the end. -/
def TimelineDay.cut (day : TimelineDay) : Option (ℕ × TimelineDay) :=
  match day.activeAgents.getLast? with
  | some entry =>
    some (Json.entry entry + 1,
      { day with activeAgents := day.activeAgents.dropLast, activeAgentsTruncated := true })
  | none =>
    match day.entries with
    | entry :: next :: entries =>
      some (Json.entry entry + Json.text (day.times.headD []) + 2,
        { day with entries := next :: entries, times := day.times.tail, nextBefore := some next.sequence })
    | _ =>
      match day.projects.getLast? with
      | some project =>
        if 1 < day.projects.length then
          some (Json.context project + 1, { day with projects := day.projects.dropLast, projectsTruncated := true })
        else none
      | none => none

/-- How many things a day has. -/
def TimelineDay.weight (day : TimelineDay) : ℕ := day.activeAgents.length + day.entries.length + day.projects.length

theorem TimelineDay.weight_cut {day rest : TimelineDay} {size : ℕ} (cuts : day.cut = some (size, rest)) :
    rest.weight < day.weight := by
  rw [cut] at cuts
  split at cuts
  · next entry last =>
    obtain ⟨-, rfl⟩ := Prod.mk.inj (Option.some.inj cuts)
    have nonempty : day.activeAgents ≠ [] := fun empty => by simp [empty] at last
    have shorter := List.length_pos_of_ne_nil nonempty
    simp only [weight, List.length_dropLast]
    omega
  · split at cuts
    · next entry next entries rows =>
      obtain ⟨-, rfl⟩ := Prod.mk.inj (Option.some.inj cuts)
      simp only [weight, rows, List.length_cons]
      omega
    · split at cuts
      · split_ifs at cuts with several
        obtain ⟨-, rfl⟩ := Prod.mk.inj (Option.some.inj cuts)
        simp only [weight, List.length_dropLast]
        omega
      · contradiction

/-- Cut a day until it fits in a frame. -/
def TimelineDay.trim (day : TimelineDay) (wireBytes : ℕ) : Option TimelineDay :=
  if wireBytes ≤ frameBudget then some day
  else
    match cuts : day.cut with
    | none => none
    | some (size, rest) => rest.trim (wireBytes - size)
termination_by day.weight
decreasing_by exact TimelineDay.weight_cut cuts

/-- The page of a day, before its frame is known. -/
def Runtime.page (runtime : Runtime) (rows : List TimelineEntry) (query : Query) (day : CivilDay) (through : ℕ) : Page :=
  (day.buckets.flatMap (inBucket rows)).foldl (Page.scan runtime query day through) {}

/-- A day as its page and the projection show it. -/
def Runtime.assemble (runtime : Runtime) (projection : Projection) (rows : List TimelineEntry) (query : Query)
    (day : CivilDay) (through : ℕ) : TimelineDay :=
  let page := runtime.page rows query day through
  let entries := page.rows.map projection.repair
  { toCivilDay := day
    currentSequence := through
    entries
    nextBefore := if page.more then entries.head?.map (·.sequence) else none
    partialHistory := true
    projects := page.projects.map (·.2)
    projectsTruncated := page.projectsTruncated
    times := entries.map fun entry => runtime.localTime entry.timestampMs
    axis := (List.range 5).map fun i => runtime.localTime (day.startMs + (day.endMs - day.startMs) * i / 4) }

/-- Today's first page also has the open agents. -/
def Runtime.joinActive (runtime : Runtime) (projection : Projection) (query : Query) (day : TimelineDay) :
    Option TimelineDay :=
  if query.before = none then do
    let today ← runtime.localDay "today".toList
    if day.date = today.date then
      let active := projection.active runtime query.filter day.entries
      return { day with activeAgents := active.take pageSize, activeAgentsTruncated := pageSize < active.length }
    else return day
  else some day

def Runtime.answer (runtime : Runtime) (projection : Projection) (rows : List TimelineEntry) (query : Query)
    (through : ℕ) : Option TimelineDay := do
  let civil ← runtime.localDay query.date
  let day ← runtime.joinActive projection query (runtime.assemble projection rows query civil through)
  day.trim (Json.day day)

end Answer

/-- What the records of a log leave in an index. -/
structure Index where
  sequence : ℕ := 0
  projection : Projection := {}
  rows : List TimelineEntry := []
deriving DecidableEq, Repr

namespace Index

def eventVersion : ℕ := EventLog.eventVersion

def append (index : Index) (envelope : EventEnvelope) : Option Index :=
  if eventVersion < envelope.version ∨ index.sequence ≠ 0 ∧ envelope.sequence ≠ index.sequence + 1 then none
  else
    let (entry, projection) := index.projection.observe envelope
    some
      { sequence := envelope.sequence
        projection
        rows := index.rows ++ (entry.filter (·.timestampMs ≠ 0)).toList }

/-- Read the records up to a sequence. -/
def update (index : Index) (through : ℕ) : List EventEnvelope → Option Index
  | [] => if through ≤ index.sequence then some index else none
  | envelope :: log =>
    if through ≤ index.sequence then some index
    else (index.append envelope).bind fun next => next.update through log

end Index

/-- A query of a log up to a sequence. -/
def Runtime.query (runtime : Runtime) (log : List EventEnvelope) (query : Query) (through : ℕ) : Option TimelineDay :=
  (Index.update {} through log).bind fun index => runtime.answer index.projection index.rows query through

end Uniterm.Model.Timeline
