import Uniterm.Model.Text
import Uniterm.ToMathlib.MapAccum

/-! # Timeline spans

A day of the timeline is a list of observations in the order of the event log. `spans` groups the observations
of one invocation into lane segments. The map from an invocation to its current segment is a list of insertions,
the latest first.
-/

namespace Uniterm.Model.Timeline

open Model ToMathlib

abbrev ProjectId := ℕ
abbrev PaneId := ℕ

/-- Historical context is copied at observation time. -/
structure TimelineContext where
  project : Option ProjectId := none
  projectName : Text := []
  root : Text := []
  branch : Text := []
  tab : Text := []
  pane : Option PaneId := none
deriving DecidableEq, Repr

/-- Visits and annotations must not be confused with observed agent activity. -/
inductive TimelineKind where
  | visit | agent | note | prompt | boundary
deriving DecidableEq, Repr

/-- One meaningful observation, identified by its authoritative log sequence. -/
structure TimelineEntry where
  sequence : ℕ
  timestampMs : ℕ
  context : TimelineContext
  invocation : Option ℕ
  provider : Text
  sessionId : Option Text
  parentSessionId : Option Text
  parentInvocation : Option ℕ
  kind : TimelineKind
  summary : Text
deriving DecidableEq, Repr

/-- One lane segment: its end is the last observation, not a guessed completion time. -/
structure TimelineSpan where
  firstMs : ℕ
  last : TimelineEntry
  observations : ℕ
deriving DecidableEq, Repr

variable {α : Type*} [BEq α]

/-- Evidence that is missing on one side does not separate two observations. -/
def sameOrUnknown (a b : Option α) : Bool := a.isNone || b.isNone || a == b

/-- The invocation that an agent observation belongs to. -/
def TimelineEntry.agentInvocation (entry : TimelineEntry) : Option ℕ :=
  if entry.kind = .agent then entry.invocation else none

/-- The observation as the last one of a segment whose context it keeps where it names no project. -/
def TimelineEntry.keepContext (entry : TimelineEntry) (context : TimelineContext) : TimelineEntry :=
  if entry.context.project.isNone then { entry with context } else entry

namespace TimelineSpan

def start (entry : TimelineEntry) : TimelineSpan :=
  { firstMs := entry.timestampMs, last := entry, observations := 1 }

/-- Whether the segment continues with the observation: only its last one is compared. -/
def continues (span : TimelineSpan) (entry : TimelineEntry) : Bool :=
  sameOrUnknown span.last.sessionId entry.sessionId &&
    sameOrUnknown span.last.context.project entry.context.project

def observe (span : TimelineSpan) (entry : TimelineEntry) : TimelineSpan :=
  { span with
    last := entry.keepContext span.last.context
    observations := span.observations + 1 }

end TimelineSpan

/-- The segments so far, and for each invocation the index of its current one. -/
structure Lanes where
  result : List TimelineSpan := []
  invocations : List (ℕ × ℕ) := []
deriving DecidableEq, Repr

namespace Lanes

/-- The current segment of an invocation, when the observation continues it. Its index is always in range. -/
def continued (lanes : Lanes) (invocation : ℕ) (entry : TimelineEntry) : Option ℕ :=
  (lanes.invocations.lookup invocation).filter fun index =>
    (lanes.result[index]?).any (·.continues entry)

/-- One turn of the loop, with the index of the segment that counts the observation. -/
def step (lanes : Lanes) (entry : TimelineEntry) : Lanes × ℕ :=
  match entry.agentInvocation with
  | none => ({ lanes with result := lanes.result ++ [.start entry] }, lanes.result.length)
  | some invocation =>
    match lanes.continued invocation entry with
    | some index => ({ lanes with result := lanes.result.modify index (·.observe entry) }, index)
    | none =>
      ({ result := lanes.result ++ [.start entry]
         invocations := (invocation, lanes.result.length) :: lanes.invocations }, lanes.result.length)

end Lanes

/-- The lanes after a day, and for each observation the segment that counts it. -/
def lanes (entries : List TimelineEntry) : Lanes × List ℕ := mapAccum Lanes.step {} entries

/-- Group only within one project and invocation; visits and notes stay discrete. -/
def spans (entries : List TimelineEntry) : List TimelineSpan := (lanes entries).1.result

def counted (entries : List TimelineEntry) : List ℕ := (lanes entries).2

end Uniterm.Model.Timeline
