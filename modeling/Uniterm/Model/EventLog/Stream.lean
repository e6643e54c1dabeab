import Uniterm.Model.EventLog.Event

/-! # Reading an event stream

A stream is its bytes. `chunks` cuts it after every newline, as repeated `read_until` does. The
repair scanner works on the chunks; the replayer and the historical readers work on the lines that
`BufRead::lines` makes of them. Each of the three has its own loop, as in the source.
-/

namespace Uniterm.Model.EventLog

open Runs

def newline : UInt8 := 10

/-- What repeated `read_until(b'\n')` returns; only the last chunk may lack its newline. -/
def chunks : Bytes → List Bytes
  | [] => []
  | b :: rest =>
    if b = newline then [b] :: chunks rest
    else match chunks rest with
    | [] => [[b]]
    | chunk :: others => (b :: chunk) :: others

/-- The line that `BufRead::lines` makes of a chunk: without its newline, and without the carriage
return before that. -/
def lineOf (chunk : Bytes) : Option Text :=
  (fromUtf8 chunk).map fun text =>
    if text.getLast? = some '\n' then
      let text := text.dropLast
      if text.getLast? = some '\r' then text.dropLast else text
    else text

/-- A chunk that is not UTF-8 is an error. -/
def readLine (chunk : Bytes) : Except Fault Text :=
  match lineOf chunk with
  | some line => .ok line
  | none => .error (invalidData "stream did not contain valid UTF-8")

/-- `BufRead::lines`. -/
def lines (bytes : Bytes) : List (Except Fault Text) := (chunks bytes).map readLine

section Repair

/-- What the repair scanner carries from record to record. -/
structure Scan where
  offset : ℕ := 0
  previousSequence : ℕ := 0
  syntheticSequence : ℕ := 0
  owner : Option String := none
deriving DecidableEq, Repr

/-- A checkpoint is valid and precedes every owned record. -/
def checkPlacement (owner : Option String) (record : DecodedRecord) : Except Fault Unit :=
  match record.event with
  | .recoveryCheckpoint state =>
    match state.validate record.sequence with
    | .error fault => .error fault
    | .ok _ =>
      if owner.isSome then
        .error (invalidData "recovery checkpoint must be the first stream record")
      else .ok ()
  | _ => .ok ()

/-- The first owned record names the stream's owner, and every later one must agree. -/
def currentOwner (owner workspace : Option String) : Except Fault (Option String) :=
  match workspace with
  | none => .ok owner
  | some actual =>
    let current := owner.getD actual
    if current ≠ actual then
      .error (invalidData
        s!"event Workspace changed without an authoritative rename from {current} to {actual}")
    else .ok (some current)

/-- A rename is made by the owner and changes the name. -/
def renamedOwner (owner : Option String) (record : DecodedRecord) : Except Fault (Option String) :=
  match record.event with
  | .workspaceRenamed old new =>
    if record.workspace = some old ∧ owner = some old ∧ old ≠ new then .ok (some new)
    else .error (invalidData "invalid Workspace rename ownership event")
  | _ => .ok owner

/-- The ownership a record leaves behind, or why it may not follow the current one. The scanner and
the replayer both have this text. -/
def advanceOwner (owner : Option String) (record : DecodedRecord) : Except Fault (Option String) := do
  checkPlacement owner record
  let owner ← currentOwner owner record.workspace
  renamedOwner owner record

/-- One record of the scan. `none` ends the consistent prefix before this chunk. -/
def Scan.step (codec : Codec) (scan : Scan) (chunk : Bytes) : Except Fault (Option Scan) :=
  if chunk.getLast? ≠ some newline then .ok none
  else match fromUtf8 chunk.dropLast with
  | none => .ok none
  | some line =>
    match decodeRecordStrict codec line with
    | .error .malformed => .ok none
    | .error (.futureVersion version) => .error (futureSchemaError version)
    | .ok record =>
      let synthetic := saturatingAdd64 scan.syntheticSequence 1
      let sequence := record.sequence.getD synthetic
      -- The first record establishes the stream origin.
      if scan.previousSequence ≠ 0 ∧ sequence ≠ saturatingAdd64 scan.previousSequence 1 then .ok none
      else (advanceOwner scan.owner record).map fun owner =>
        some { offset := scan.offset + chunk.length, previousSequence := sequence
               syntheticSequence := synthetic, owner := owner }

def Scan.run (codec : Codec) (scan : Scan) : List Bytes → Except Fault Scan
  | [] => .ok scan
  | chunk :: rest => do
    match ← scan.step codec chunk with
    | none => return scan
    | some scan => scan.run codec rest

/-- The stream must end under the expected Workspace, unless no record names one. -/
def checkOwner (owner expected : Option String) : Except Fault Unit :=
  match expected, owner with
  | some expected, some actual =>
    if actual ≠ expected then
      .error (invalidData s!"event belongs to Workspace {actual}, expected {expected}")
    else .ok ()
  | _, _ => .ok ()

/-- How many leading bytes form a consistent stream of the expected Workspace. -/
def consistentPrefixLen (codec : Codec) (bytes : Bytes) (expectedWorkspace : String) :
    Except Fault ℕ := do
  let scan ← Scan.run codec {} (chunks bytes)
  checkOwner scan.owner (some expectedWorkspace)
  return scan.offset

end Repair

section Replay

variable {σ : Type}

/-- The replayer's loop. A malformed last line is ignored, an earlier one is an error. -/
def forEachFrom (codec : Codec) (apply : σ → DecodedRecord → σ) (owner : Option String) (state : σ) :
    List (Except Fault Text) → Except Fault (Option String × σ)
  | [] => .ok (owner, state)
  | .error fault :: _ => .error fault
  | .ok line :: rest =>
    match decodeRecordStrict codec line with
    | .error .malformed =>
      if rest.isEmpty then .ok (owner, state)
      else .error (invalidData "malformed event-log record before end of stream")
    | .error (.futureVersion version) => .error (futureSchemaError version)
    | .ok record => do
      let owner ← advanceOwner owner record
      forEachFrom codec apply owner (apply state record) rest

/-- Stream every record of a Workspace to a projection. -/
def forEachRecord (codec : Codec) (bytes : Bytes) (workspace : Option String)
    (apply : σ → DecodedRecord → σ) (init : σ) : Except Fault σ := do
  let (owner, state) ← forEachFrom codec apply none init (lines bytes)
  checkOwner owner workspace
  return state

/-- Prove the ownership chain of a stream. -/
def validateOwner (codec : Codec) (bytes : Bytes) (workspace : String) : Except Fault Unit :=
  forEachRecord codec bytes (some workspace) (fun _ _ => ()) ()

/-- Count a line that decodes, and keep the highest sequence. -/
def countSequence (codec : Codec) (counts : ℕ × ℕ) : Except Fault Text → ℕ × ℕ
  | .error _ => counts
  | .ok line =>
    match decodeRecordStrict codec line with
    | .error _ => counts
    | .ok record =>
      let synthetic := saturatingAdd64 counts.1 1
      (synthetic, max counts.2 (record.sequence.getD synthetic))

def readable : Except Fault Text → Bool
  | .ok _ => true
  | .error _ => false

/-- The sequence after the highest one of the file; lines that do not decode are passed over. -/
def nextSequence (codec : Codec) (bytes : Bytes) : ℕ :=
  let counts := ((lines bytes).takeWhile readable).foldl (countSequence codec) (0, 0)
  max (saturatingAdd64 counts.2 1) 1

end Replay

section History

/-- Files of a Workspace's archive directory. -/
abbrev Archives := Text → Option Bytes

/-- The checkpoint at the head of a stream with the record's owner, and the bytes still to read. -/
def checkpointHeaderWithOwner (codec : Codec) (bytes : Bytes) :
    Except Fault (Option RecoveryCheckpoint × Option String × Bytes) :=
  let head := (chunks bytes).headD []
  match fromUtf8 head with
  | none => .error (invalidData "stream did not contain valid UTF-8")
  | some line =>
    match codec.decodeLine line with
    | none => .error ⟨.other, "invalid encrypted record"⟩
    | some decoded =>
      match codec.envelope decoded with
      | none => .ok (none, none, bytes)
      | some envelope =>
        match envelope.event with
        | .recoveryCheckpoint state =>
          if 1 ≤ envelope.version ∧ envelope.version ≤ eventVersion then
            (state.validate (some envelope.sequence)).map fun _ =>
              (some state, some envelope.workspace, bytes.drop head.length)
          else .error ⟨.unsupported, "unsupported event version"⟩
        | _ => .ok (none, some envelope.workspace, bytes)

def trimLineEnd (line : Text) : Text :=
  (line.reverse.dropWhile fun c => c == '\r' || c == '\n').reverse

/-- The hash of an archive's plain lines. -/
def digest (codec : Codec) (bytes : Bytes) : Except Fault Text := do
  let plain ← (chunks bytes).mapM fun chunk => do
    let some line := fromUtf8 chunk | throw (invalidData "stream did not contain valid UTF-8")
    if line.getLast? ≠ some '\n' then throw (invalidData "unterminated event archive record")
    let some text := codec.decodeLine (trimLineEnd line)
      | throw ⟨.other, "invalid encrypted record"⟩
    return trimLineEnd text ++ ['\n']
  return codec.sha256 plain.flatten

/-- The archive chain behind a checkpoint, newest first, down to the first cursor that is not after
`after`. Cursors strictly decrease along it, so the fuel is the first of them. -/
def archiveChain (codec : Codec) (archives : Archives) (after : ℕ) :
    ℕ → Option RecoveryCheckpoint → List Bytes → Except Fault (List Bytes × Option RecoveryCheckpoint)
  | 0, checkpoint, pending => .ok (pending, checkpoint)
  | fuel + 1, checkpoint, pending =>
    match checkpoint with
    | none => .ok (pending, none)
    | some state =>
      if state.through ≤ after then .ok (pending, some state)
      else do
        let some bytes := archives state.archive.file | throw ⟨.notFound, "no such file"⟩
        let sum ← digest codec bytes
        if sum ≠ state.archive.sha256 then throw (invalidData "event archive checksum mismatch")
        let (previous, _, rest) ← checkpointHeaderWithOwner codec bytes
        if previous.any fun previous => previous.through ≥ state.through then
          throw (invalidData "cyclic or out-of-order event archive link")
        archiveChain codec archives after fuel previous (pending ++ [rest])

/-- The original records after a cursor: their bytes in sequence order, and the sequence before the
first of them. -/
structure Reader where
  bytes : Bytes
  origin : ℕ

def Reader.new (codec : Codec) (archives : Archives) (name : String) (file : Bytes) (after : ℕ) :
    Except Fault Reader := do
  let (checkpoint, owner, active) ← checkpointHeaderWithOwner codec file
  if owner.any fun owner => owner ≠ name then
    -- A renamed stream can begin under its old owner.
    validateOwner codec file name
  let fuel := (checkpoint.map (·.through)).getD 0
  let (pending, checkpoint) ← archiveChain codec archives after (fuel + 1) checkpoint []
  return { bytes := (pending.reverse ++ [active]).flatten
           origin := (checkpoint.map (·.through)).getD 0 }

/-- What the historical visitor carries from line to line. -/
structure Visit where
  previous : ℕ
  synthetic : ℕ
  owner : Option String := none

/-- Decode one line as the historical visitor does: a bare event belongs to the stream's reader. -/
def Visit.decode (codec : Codec) (name : String) (synthetic : ℕ) (line : Text) :
    Except Fault EventEnvelope :=
  match codec.decodeLine line with
  | none => .error ⟨.other, "invalid encrypted record"⟩
  | some line =>
    match codec.envelope line with
    | some envelope =>
      if 1 ≤ envelope.version ∧ envelope.version ≤ eventVersion then .ok envelope
      else .error (futureSchemaError envelope.version)
    | none =>
      match codec.legacy line with
      | some event =>
        .ok { version := eventVersion, sequence := synthetic, timestampMs := 0, workspace := name
              event := event }
      | none => .error (invalidData "unreadable event")

/-- The owner after an event of the current owner's. -/
def Visit.rename (current : String) : LogEvent → Except Fault String
  | .workspaceRenamed old new =>
    if old ≠ current ∨ old = new then
      .error (invalidData "invalid Workspace rename in subscription stream")
    else .ok new
  | _ => .ok current

/-- Check one envelope against the visitor's owner and cursor. -/
def Visit.step (visit : Visit) (synthetic : ℕ) (envelope : EventEnvelope) : Except Fault Visit :=
  let current := visit.owner.getD envelope.workspace
  if current ≠ envelope.workspace then
    .error (invalidData "foreign Workspace event in subscription stream")
  else match Visit.rename current envelope.event with
  | .error fault => .error fault
  | .ok owner =>
    -- The first record is the stream origin, which may exceed 1.
    if visit.previous ≠ 0 ∧ envelope.sequence ≠ saturatingAdd64 visit.previous 1 then
      .error (invalidData "event sequence gap in subscription stream")
    else .ok { previous := envelope.sequence, synthetic := synthetic, owner := some owner }

/-- The visitor's loop: what it delivered, and how it ended. -/
def Visit.run (codec : Codec) (name : String) (sequence : ℕ) (through : Option ℕ) (visit : Visit) :
    List (Except Fault Text) → List EventEnvelope × Except Fault Visit
  | [] => ([], .ok visit)
  | .error fault :: _ => ([], .error fault)
  | .ok line :: rest =>
    let synthetic := saturatingAdd64 visit.synthetic 1
    match Visit.decode codec name synthetic line with
    | .error fault => ([], .error fault)
    | .ok envelope =>
      match visit.step synthetic envelope with
      | .error fault => ([], .error fault)
      | .ok visit =>
        if through.any fun cursor => envelope.sequence > cursor then ([], .ok visit)
        else
          let (delivered, ended) := Visit.run codec name sequence through visit rest
          (if envelope.sequence > sequence then envelope :: delivered else delivered, ended)

/-- The checks after the last line: a complete visit ends under the reader's name, a bounded one
reaches its cursor. -/
def Visit.conclude (name : String) (through : Option ℕ) : Except Fault Visit → Except Fault Unit
  | .error fault => .error fault
  | .ok visit =>
    if through.isNone ∧ visit.owner.any fun owner => owner ≠ name then
      .error (invalidData "event stream belongs to another Workspace")
    else if through.any fun cursor => visit.previous < cursor then
      .error ⟨.unexpectedEof, "event stream ended before the requested catch-up cursor"⟩
    else .ok ()

/-- Stream the owned envelopes of `(sequence, through]` to a visitor that accepts them all. -/
def visitRange (codec : Codec) (archives : Archives) (name : String) (file : Bytes) (sequence : ℕ)
    (through : Option ℕ) : List EventEnvelope × Except Fault Unit :=
  if through = some 0 then ([], .ok ())
  else match Reader.new codec archives name file sequence with
  | .error fault => ([], .error fault)
  | .ok reader =>
    let (delivered, ended) := Visit.run codec name sequence through
      { previous := reader.origin, synthetic := reader.origin } (lines reader.bytes)
    (delivered, Visit.conclude name through ended)

/-- `visit_range` with an upper cursor, which may not precede the lower one. -/
def visitThrough (codec : Codec) (archives : Archives) (name : String) (file : Bytes)
    (sequence through : ℕ) : List EventEnvelope × Except Fault Unit :=
  if through < sequence then
    ([], .error ⟨.invalidInput, "event catch-up cursor precedes its starting cursor"⟩)
  else visitRange codec archives name file sequence (some through)

end History

end Uniterm.Model.EventLog
