import Mathlib.Data.List.Chain
import Uniterm.Model.Timeline.Day

/-! # When an open day stays fresh

An open view reloads for the events that `changesDay` names. Any other event should leave every answer as it was, apart
from the cursor that it carries. An answer is read from the rows and from the projection, so what an event does to these
two decides.
-/

namespace Uniterm.Model.Timeline

namespace Projection

variable {p : Projection} {envelope : EventEnvelope}

private theorem note_sequence {entry : TimelineEntry} {pane : Option ℕ}
    (noted : (p.note envelope).1 = some (entry, pane)) :
    entry.sequence = envelope.sequence := by
  have ended (pane' : ℕ) (noted : (p.finish (blank envelope) pane').1 = some (entry, pane)) :
      entry.sequence = envelope.sequence := by
    rw [finish] at noted
    split at noted
    · contradiction
    · obtain ⟨rfl, -⟩ := Prod.mk.inj (Option.some.inj noted)
      rfl
  rw [note.eq_def] at noted
  dsimp only at noted
  split at noted
  case h_5 =>
    split at noted
    · contradiction
    · split_ifs at noted
      obtain ⟨rfl, -⟩ := Prod.mk.inj (Option.some.inj noted)
      rfl
  case h_9 | h_10 => exact ended _ noted
  case h_1 | h_15 => contradiction
  all_goals
    obtain ⟨rfl, -⟩ := Prod.mk.inj (Option.some.inj noted)
    rfl

private theorem placed_sequence (event : LogEvent) (entry : TimelineEntry) (pane : ℕ) :
    (p.placed event entry pane).sequence = entry.sequence := by
  rw [placed.eq_def]
  dsimp only
  cases p.agents.lookup pane with
  | none => rfl
  | some agent => rfl

/-- An observation carries the sequence of its record. -/
theorem observe_sequence {entry : TimelineEntry} (observed : (p.observe envelope).1 = some entry) :
    entry.sequence = envelope.sequence := by
  rw [observe] at observed
  split at observed
  · contradiction
  · next noted pane next same =>
    obtain rfl := Option.some.inj observed
    have noted_sequence := note_sequence (congrArg Prod.fst same)
    cases pane with
    | none => exact noted_sequence
    | some pane => exact (placed_sequence ..).trans noted_sequence

end Projection

section Index

/-- A log of enveloped records. -/
structure Log where
  records : List EventEnvelope
  positive : ∀ record ∈ records, 0 < record.sequence
  contiguous : records.IsChain fun earlier later => later.sequence = earlier.sequence + 1

namespace Log

def sequence (log : Log) : ℕ := (log.records.getLast?.map (·.sequence)).getD 0

/-- The log with one more event. -/
def append (log : Log) (timestampMs : ℕ) (event : LogEvent) : Log where
  records := log.records ++ [⟨Index.eventVersion, log.sequence + 1, timestampMs, event⟩]
  positive record member := by
    rw [List.mem_append, List.mem_singleton] at member
    obtain old | rfl := member
    · exact log.positive record old
    · exact Nat.succ_pos _
  contiguous := by
    refine List.isChain_append.mpr ⟨log.contiguous, List.isChain_singleton _, ?_⟩
    intro earlier last later first
    obtain rfl := Option.some.inj first
    rw [Option.mem_def] at last
    rw [sequence, last, Option.map_some, Option.getD_some]

/-- The index of the whole log. -/
def index (log : Log) : Option Index := log.records.foldlM Index.append {}

end Log

namespace Index

variable {index next : Index} {envelope : EventEnvelope}

private theorem append_eq_some (appended : index.append envelope = some next) :
    (index.sequence ≠ 0 → envelope.sequence = index.sequence + 1) ∧ next =
      { sequence := envelope.sequence
        projection := (index.projection.observe envelope).2
        rows := index.rows ++ ((index.projection.observe envelope).1.filter (·.timestampMs ≠ 0)).toList } := by
  rw [append] at appended
  split_ifs at appended with refused
  obtain rfl := Option.some.inj appended
  exact ⟨fun started => by_contra fun gap => refused (.inr ⟨started, gap⟩), rfl⟩

/-- Rows carry the sequences of records that were read. -/
structure Bounded (index : Index) : Prop where
  rows : ∀ row ∈ index.rows, row.sequence ≤ index.sequence

theorem Bounded.append (bounded : index.Bounded) (appended : index.append envelope = some next) : next.Bounded := by
  obtain ⟨continued, rfl⟩ := append_eq_some appended
  refine ⟨fun row member => ?_⟩
  rw [List.mem_append, Option.mem_toList, Option.filter_eq_some_iff] at member
  obtain old | ⟨observed, -⟩ := member
  · have within := bounded.rows row old
    by_cases started : index.sequence = 0
    · dsimp only
      omega
    · have next_sequence := continued started
      dsimp only
      omega
  · exact Nat.le_of_eq (Projection.observe_sequence observed)

end Index

namespace Log

variable {log : Log} {index : Index}

theorem ordered (log : Log) : log.records.Pairwise (·.sequence < ·.sequence) := by
  rw [← List.isChain_iff_pairwise]
  exact log.contiguous.imp fun _ _ next => by omega

end Log

end Index

namespace TimelineDay

section Cuts

variable {day rest : TimelineDay} {wireBytes : ℕ}

/-- What the rows of a day take, from the first one on and without the last one. -/
def rowSheds : List TimelineEntry → List Text → List ℕ
  | entry :: next :: entries, times =>
    (Json.entry entry + Json.text (times.headD []) + 2) :: rowSheds (next :: entries) times.tail
  | _, _ => []

/-- What the open agents and rows of a day take, in the order in which they are cut. -/
def sheds (day : TimelineDay) : List ℕ :=
  (day.activeAgents.map (Json.entry · + 1)).reverse ++ rowSheds day.entries day.times

/-- How many open agents and rows a day has. -/
def shown (day : TimelineDay) : ℕ := day.activeAgents.length + day.entries.length

/-- The day with another cursor. -/
def stamped (day : TimelineDay) (sequence : ℕ) : TimelineDay := { day with currentSequence := sequence }

/-- No cut leaves the frame exactly full while there is another row or open agent to cut. -/
def Roomy (day : TimelineDay) (wireBytes : ℕ) : Prop :=
  ∀ count < day.sheds.length, wireBytes - (day.sheds.take count).sum ≠ frameBudget

end Cuts

end TimelineDay

section Answers

variable {runtime : Runtime} {projection other : Projection} {rows : List TimelineEntry} {query : Query}

end Answers

section Cursors

end Cursors

section Freshness

variable {runtime : Runtime} {query : Query} {log : Log} {index : Index} {timestampMs : ℕ} {event : LogEvent}

end Freshness

section Sample

end Sample

end Uniterm.Model.Timeline
