import Uniterm.Model.EventLog.Structure
import Uniterm.Model.Orchestrate.Engine
import Uniterm.Model.Utf8
import Uniterm.Model.Work.Instructions
import Uniterm.Model.Work.Tasks
import Uniterm.Model.Work.Waiting

/-! # Logged events and their decoding

Every durable record is one JSON line: a versioned envelope, or a bare event from before envelopes.
The JSON library and the cipher are parameters (`Codec`); what the sources decide around them, the
version window, the checkpoint's validity and the fallback to bare events, is here. Events that no
replayed projection reads are one constructor.
-/

namespace Uniterm.Model.EventLog

open Std Runs Work

/-- Current durable envelope schema. -/
def eventVersion : ℕ := 10

def checkpointVersion : ℕ := 1

inductive OrchestrationKind where
  | workflow | relay
deriving DecidableEq, Repr

structure RoleProvider where
  provider : String
  command : String
deriving DecidableEq, Repr

structure GuardLimits where
  maxActiveRuns : ℕ
  maxRolePanes : ℕ
  maxIterations : ℕ
  maxElapsedSeconds : ℕ
deriving DecidableEq, Repr

structure DurableGuardrail where
  startedAtMs : ℕ
  limits : GuardLimits
  elapsedTriggered : Bool
deriving DecidableEq, Repr

/-- Restartable orchestration state. -/
structure DurableOrchestration where
  kind : OrchestrationKind
  taskId : ℕ
  template : Option String
  goal : String
  roleProviders : List RoleProvider
  rolePanes : List PaneId
  started : List Bool
  state : Orchestrate.State
  checkpoints : List (ℕ × String)
  guardrail : DurableGuardrail
deriving DecidableEq

structure Archive where
  file : Text
  sha256 : Text
deriving DecidableEq, Repr

/-- Every recoverable projection at one committed event cursor, with the allocators. -/
structure RecoveryCheckpoint where
  version : ℕ
  through : ℕ
  archive : Archive
  recovered : Option StructuralProjection
  tasks : TaskList
  waiting : WaitingQueue
  instructions : InstructionQueue
  runGraph : RunGraph
  artifacts : ArtifactLedger
  runs : List DurableOrchestration
  invocations : ExtTreeMap PaneId ℕ

/-- One logged event. -/
inductive LogEvent where
  | recoveryCheckpoint (state : RecoveryCheckpoint)
  | workspaceProjected (state : StructuralProjection)
  | tabConfigured (pane : PaneId) (stackExpanded : Bool) (layoutMode : PaneLayout)
      (stackParent : Option PaneId)
  | workspaceRenamed (old new : String)
  | projectDirectoryChanged (project : ProjectId) (root : String)
  | paneClosed (pane : PaneId)
  | agentResumed (pane : PaneId) (provider : String) (sessionId : Option String)
      (resumeCommand : List String) (previousInvocation : Option ℕ)
      (tree : Option StructuralProjection)
  | agentBound (pane : PaneId) (agent : String)
  | agentUnbound (pane : PaneId)
  | agentSessionObserved (pane : PaneId) (provider : String) (sessionId : Option String)
      (resumeCommand : List String)
  | paneLaunchProfileCleared (pane : PaneId)
  | taskCreated (id : ℕ) (title : String) (status : TaskStatus)
  | taskStatusChanged (id : ℕ) (status : TaskStatus)
  | taskRetitled (id : ℕ) (title : String)
  | taskDetailsUpdated (id : ℕ) (notes : String) (context : TaskContext)
  | taskDeleted (id : ℕ)
  | waitingCreated (item : WaitingItem)
  | waitingResolved (id : ℕ) (resolution : WaitingResolution)
  | waitingUpdated (id : ℕ) (summary : Text)
  | instructionQueued (item : InstructionItem)
  | instructionReplaced (replaced : ℕ) (item : InstructionItem)
  | instructionCanceled (id : ℕ) (reason : InstructionCancellation)
  | instructionDelivery (id deliveryId : ℕ) (boundary : InstructionBoundary) (accepted : Bool)
  | runGraph (change : RunGraphEvent)
  | artifactLedger (change : ArtifactEvent)
  | orchestrationProjected (run : DurableOrchestration)
  | orchestrationFinished (kind : OrchestrationKind) (taskId : ℕ) (outcome : String)
  /-- Any event that no projection here reads, with its text. -/
  | other (text : Text)

/-- Sequence and ownership wrapped around every new record. -/
structure EventEnvelope where
  version : ℕ
  sequence : ℕ
  timestampMs : ℕ
  workspace : String
  event : LogEvent

inductive ErrorKind where
  | invalidData | unsupported | invalidInput | notFound | unexpectedEof | other
deriving DecidableEq, Repr

/-- An `io::Error`. -/
structure Fault where
  kind : ErrorKind
  message : String
deriving DecidableEq, Repr

/-- The JSON library, the cipher and the hash. `sealedField` is the encrypted field of a sealed
line and `openSealed` its plain text; `versionField` is the `version` of any JSON object. -/
structure Codec where
  sealedField : Text → Option Text
  openSealed : Text → Option Text
  envelope : Text → Option EventEnvelope
  versionField : Text → Option ℕ
  legacy : Text → Option LogEvent
  sha256 : Text → Text
  /-- Sequences are 64-bit. -/
  sequence_le : ∀ line e, envelope line = some e → e.sequence ≤ u64Max

/-- The characters that end a line. -/
def lineEnd (c : Char) : Prop := c = '\r' ∨ c = '\n'

/-- JSON readers skip the white space that ends a line, and an empty text is no value. -/
structure Codec.Lenient (codec : Codec) : Prop where
  empty : codec.envelope [] = none
  sealedField : ∀ line c, lineEnd c → codec.sealedField (line ++ [c]) = codec.sealedField line
  envelope : ∀ line c, lineEnd c → codec.envelope (line ++ [c]) = codec.envelope line
  versionField : ∀ line c, lineEnd c → codec.versionField (line ++ [c]) = codec.versionField line
  legacy : ∀ line c, lineEnd c → codec.legacy (line ++ [c]) = codec.legacy line

namespace Codec

def sealedMarker : Text := "\x7b\"version\":4294967295,\"uniterm_encrypted\":".toList

/-- `privacy::decode_line`: restore one protected record. -/
def decodeLine (codec : Codec) (line : Text) : Option Text :=
  if sealedMarker.isPrefixOf line then (codec.sealedField line).bind codec.openSealed
  else some line

end Codec

structure DecodedRecord where
  sequence : Option ℕ
  workspace : Option String
  event : LogEvent

inductive RecordDecodeError where
  | futureVersion (version : ℕ)
  | malformed
deriving DecidableEq, Repr

def futureSchemaError (version : ℕ) : Fault :=
  ⟨.unsupported, s!"unsupported event version {version}"⟩

def invalidData (message : String) : Fault := ⟨.invalidData, message⟩

/-- Decode a plain line: an envelope of a known version, else a bare event, unless the line claims
a version. -/
def decodePlain (codec : Codec) (line : Text) : Except RecordDecodeError DecodedRecord :=
  match codec.envelope line with
  | some envelope =>
    if 1 ≤ envelope.version ∧ envelope.version ≤ eventVersion then
      .ok { sequence := some envelope.sequence, workspace := some envelope.workspace
            event := envelope.event }
    else .error (.futureVersion envelope.version)
  | none =>
    match codec.versionField line with
    | some version => .error (.futureVersion (min version (2 ^ 32 - 1)))
    | none =>
      match codec.legacy line with
      | some event => .ok { sequence := none, workspace := none, event := event }
      | none => .error .malformed

def decodeRecordStrict (codec : Codec) (line : Text) : Except RecordDecodeError DecodedRecord :=
  match codec.decodeLine line with
  | none => .error .malformed
  | some line => decodePlain codec line

namespace RecoveryCheckpoint

def archiveFileStart : Text := "events-".toList
def archiveFileEnd : Text := ".log".toList

def archiveFileChar (c : Char) : Bool := c.isAlphanum || c == '-' || c == '.'

/-- `is_ascii_hexdigit`. -/
def hexDigit (c : Char) : Bool := c.isDigit || ('a' ≤ c && c ≤ 'f') || ('A' ≤ c && c ≤ 'F')

/-- The checkpoint fits the sequence of its record and names a well-formed archive. -/
def validate (state : RecoveryCheckpoint) (sequence : Option ℕ) : Except Fault Unit :=
  if state.version > checkpointVersion then
    .error ⟨.unsupported, "unsupported recovery checkpoint version"⟩
  else if state.version ≠ checkpointVersion ∨ state.through = 0 ∨ sequence ≠ some state.through ∨
      ¬ archiveFileStart.isPrefixOf state.archive.file ∨
      ¬ archiveFileEnd.isSuffixOf state.archive.file ∨
      ¬ state.archive.file.all archiveFileChar ∨
      state.archive.sha256.len ≠ 64 ∨ ¬ state.archive.sha256.all hexDigit then
    .error (invalidData "invalid recovery checkpoint or archive link")
  else .ok ()

end RecoveryCheckpoint

end Uniterm.Model.EventLog
