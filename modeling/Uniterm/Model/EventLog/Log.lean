import Uniterm.Model.EventLog.Event

/-! # The event log as the server writes it

Every event is projected at once and recorded under the next sequence, except one that repeats the event
before it.
-/

namespace Uniterm.Model.EventLog

open Runs Work

deriving instance DecidableEq for RunGraph
deriving instance DecidableEq for RunGraphEvent
deriving instance DecidableEq for ArtifactLedger
deriving instance DecidableEq for RecoveryCheckpoint
deriving instance DecidableEq for LogEvent

/-- The log with what it recorded, each event under its sequence. -/
structure Log where
  last : Option LogEvent := none
  nextSequence : ℕ := 1
  records : List (ℕ × LogEvent) := []

namespace Log

/-- Record an event. Notes and prompts of the timeline are recorded also when they repeat. -/
def record (log : Log) (event : LogEvent) (always : Bool) : Log :=
  if log.last = some event ∧ always = false then log
  else
    { last := some event
      nextSequence := saturatingAdd64 log.nextSequence 1
      records := log.records ++ [(log.nextSequence, event)] }

/-- The last sequence recorded. -/
def currentSequence (log : Log) : ℕ := log.nextSequence - 1

end Log

end Uniterm.Model.EventLog
