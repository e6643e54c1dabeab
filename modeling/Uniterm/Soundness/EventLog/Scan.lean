import Uniterm.Model.EventLog.Replay
import Uniterm.Soundness.EventLog.Lines

/-! # What the scanner accepts and the replayer visits

An ownership chain is stated without the code: bare records leave the owner alone, owned records
name it, renames change it, and a checkpoint stands before the first owned record. The scanner
accepts the records of a chain one by one, and the replayer visits exactly these.
-/

namespace Uniterm.Model.EventLog

open Runs

section Ownership

/-- A checkpoint record is valid and nobody owns the stream yet. -/
def CheckpointPlaced (owner : Option String) (record : DecodedRecord) : Prop :=
  ∀ state, record.event = .recoveryCheckpoint state →
    state.validate record.sequence = .ok () ∧ owner = none

/-- One record of an ownership chain. -/
inductive OwnerStep : Option String → DecodedRecord → Option String → Prop
  | bare {owner record} (placed : CheckpointPlaced owner record) (unowned : record.workspace = none)
      (kept : ∀ old new, record.event ≠ .workspaceRenamed old new) : OwnerStep owner record owner
  | owned {owner record name} (placed : CheckpointPlaced owner record)
      (named : record.workspace = some name) (current : ∀ other, owner = some other → other = name)
      (kept : ∀ old new, record.event ≠ .workspaceRenamed old new) :
      OwnerStep owner record (some name)
  | renamed {owner record old new} (placed : CheckpointPlaced owner record)
      (named : record.workspace = some old) (current : ∀ other, owner = some other → other = old)
      (renames : record.event = .workspaceRenamed old new) (changes : old ≠ new) :
      OwnerStep owner record (some new)

inductive OwnershipChain : Option String → List DecodedRecord → Option String → Prop
  | nil {owner} : OwnershipChain owner [] owner
  | cons {owner record next rest final} (step : OwnerStep owner record next)
      (chain : OwnershipChain next rest final) : OwnershipChain owner (record :: rest) final

private theorem checkPlacement_ok {owner : Option String} {record : DecodedRecord} :
    checkPlacement owner record = .ok () ↔ CheckpointPlaced owner record := by
  unfold checkPlacement CheckpointPlaced
  cases record.event with
  | recoveryCheckpoint state =>
    simp only [LogEvent.recoveryCheckpoint.injEq, forall_eq']
    cases state.validate record.sequence with
    | error fault => simp
    | ok _ => cases owner <;> simp
  | _ => simp

private theorem currentOwner_some {owner next : Option String} {name : String} :
    currentOwner owner (some name) = .ok next ↔
      (∀ other, owner = some other → other = name) ∧ next = some name := by
  cases owner with
  | none => simp [currentOwner, eq_comm]
  | some current =>
    by_cases same : current = name
    · simp [currentOwner, same, eq_comm]
    · simp [currentOwner, same]

/-- The code's test of one record is one step of a chain. -/
theorem advanceOwner_ok {owner next : Option String} {record : DecodedRecord} :
    advanceOwner owner record = .ok next ↔ OwnerStep owner record next := by
  have opened : advanceOwner owner record = .ok next ↔ CheckpointPlaced owner record ∧
      ∃ current, currentOwner owner record.workspace = .ok current ∧
        renamedOwner current record = .ok next := by
    rw [← checkPlacement_ok]
    unfold advanceOwner
    cases checkPlacement owner record with
    | error fault => simp [bind, Except.bind]
    | ok _ => cases currentOwner owner record.workspace <;> simp [bind, Except.bind]
  rw [opened]
  constructor
  · rintro ⟨placed, current, owned, renamed⟩
    cases workspace : record.workspace with
    | none =>
      rw [workspace] at owned
      cases owned
      have kept : ∀ old new, record.event ≠ .workspaceRenamed old new := by
        intro old new renames
        simp [renamedOwner, renames, workspace] at renamed
      have same : renamedOwner owner record = .ok owner := by
        unfold renamedOwner
        split
        · next old new renames => exact absurd renames (kept old new)
        · rfl
      cases same.symm.trans renamed
      exact .bare placed workspace kept
    | some name =>
      rw [workspace] at owned
      obtain ⟨agrees, rfl⟩ := currentOwner_some.mp owned
      unfold renamedOwner at renamed
      split at renamed
      · next old new renames =>
        split at renamed
        · next allowed =>
          cases renamed
          obtain ⟨named, current, changes⟩ := allowed
          cases current
          exact .renamed placed named agrees renames changes
        · cases renamed
      · next other =>
        cases renamed
        exact .owned placed workspace agrees fun old new renames => other old new renames
  · intro step
    cases step with
    | bare placed unowned kept =>
      refine ⟨placed, owner, by rw [unowned]; rfl, ?_⟩
      unfold renamedOwner
      split
      · next old new renames => exact absurd renames (kept old new)
      · rfl
    | owned placed named current kept =>
      refine ⟨placed, _, by rw [named]; exact currentOwner_some.mpr ⟨current, rfl⟩, ?_⟩
      unfold renamedOwner
      split
      · next old new renames => exact absurd renames (kept old new)
      · rfl
    | renamed placed named current renames changes =>
      refine ⟨placed, _, by rw [named]; exact currentOwner_some.mpr ⟨current, rfl⟩, ?_⟩
      simp [renamedOwner, renames, named, changes]

end Ownership

section Accepting

variable {codec : Codec}

/-- A record follows the sequence before it, or opens the stream. -/
def Follows (previous sequence : ℕ) : Prop :=
  previous ≠ 0 → sequence = saturatingAdd64 previous 1

/-- One chunk that the scanner accepts. -/
theorem Scan.step_some {scan next : Scan} {chunk : Bytes} :
    scan.step codec chunk = .ok (some next) ↔ ∃ record, recordOf codec chunk = some record ∧
      Follows scan.previousSequence
        (record.sequence.getD (saturatingAdd64 scan.syntheticSequence 1)) ∧
      OwnerStep scan.owner record next.owner ∧
      next = { offset := scan.offset + chunk.length
               previousSequence := record.sequence.getD (saturatingAdd64 scan.syntheticSequence 1)
               syntheticSequence := saturatingAdd64 scan.syntheticSequence 1
               owner := next.owner } := by
  unfold Scan.step recordOf
  by_cases ended : chunk.getLast? = some newline
  · rw [if_neg (not_not.mpr ended), if_pos ended]
    cases fromUtf8 chunk.dropLast with
    | none => simp
    | some line =>
      rw [Option.bind_some]
      cases found : decodeRecordStrict codec line with
      | error reason => cases reason <;> simp [found]
      | ok record =>
        simp only [found, Option.some.injEq, exists_eq_left', ← advanceOwner_ok, Follows]
        split
        · next gap => simp only [reduceCtorEq, Except.ok.injEq, false_iff]; tauto
        · next open_ =>
          cases advanceOwner scan.owner record with
          | error fault => simp [Except.map]
          | ok owner =>
            simp only [Except.map, Except.ok.injEq, Option.some.injEq]
            constructor
            · rintro rfl
              exact ⟨by tauto, rfl, rfl⟩
            · rintro ⟨_, rfl, same⟩
              exact same.symm
  · rw [if_pos ended, if_neg ended]
    simp

/-- Why the scanner stops at a chunk. -/
theorem Scan.step_none {scan : Scan} {chunk : Bytes} (stopped : scan.step codec chunk = .ok none) :
    recordOf codec chunk = none ∨ ∃ record, recordOf codec chunk = some record ∧
      ¬ Follows scan.previousSequence
        (record.sequence.getD (saturatingAdd64 scan.syntheticSequence 1)) := by
  unfold Scan.step at stopped
  unfold recordOf
  split at stopped
  · next torn => exact .inl (if_neg torn)
  · next ended =>
    rw [if_pos (not_not.mp ended)]
    split at stopped
    · next undecodable =>
      rw [undecodable]
      exact .inl rfl
    · next line text =>
      rw [text, Option.bind_some]
      split at stopped
      · next malformed =>
        rw [malformed]
        exact .inl rfl
      · cases stopped
      · next record found =>
        rw [found]
        refine .inr ⟨record, rfl, ?_⟩
        dsimp only at stopped
        split at stopped
        · next gap => exact fun follows => gap.2 (follows gap.1)
        · cases advanced : advanceOwner scan.owner record <;> rw [advanced] at stopped <;>
            simp [Except.map] at stopped

/-- The scanner accepts chunk after chunk. -/
inductive Accepted (codec : Codec) : Scan → List Bytes → Scan → Prop
  | nil {scan} : Accepted codec scan [] scan
  | cons {scan next final chunk rest} (step : scan.step codec chunk = .ok (some next))
      (more : Accepted codec next rest final) : Accepted codec scan (chunk :: rest) final

/-- The scanner stopped: nothing is left, or the next chunk does not continue the prefix. -/
def Stopped (codec : Codec) (scan : Scan) : List Bytes → Prop
  | [] => True
  | chunk :: _ => scan.step codec chunk = .ok none

theorem Scan.run_ok {scan final : Scan} {cut : List Bytes} :
    scan.run codec cut = .ok final ↔ ∃ kept dropped, cut = kept ++ dropped ∧
      Accepted codec scan kept final ∧ Stopped codec final dropped := by
  induction cut generalizing scan with
  | nil =>
    simp only [Scan.run, Except.ok.injEq]
    constructor
    · rintro rfl
      exact ⟨[], [], rfl, .nil, trivial⟩
    · rintro ⟨kept, dropped, split, accepted, _⟩
      obtain ⟨rfl, rfl⟩ := List.append_eq_nil_iff.mp split.symm
      cases accepted
      rfl
  | cons chunk rest ih =>
    rw [Scan.run]
    constructor
    · intro ran
      cases stepped : scan.step codec chunk with
      | error fault =>
        rw [stepped] at ran
        cases ran
      | ok outcome =>
        rw [stepped] at ran
        cases outcome with
        | none =>
          cases ran
          exact ⟨[], chunk :: rest, rfl, .nil, stepped⟩
        | some next =>
          obtain ⟨kept, dropped, rfl, accepted, stop⟩ := ih.mp ran
          exact ⟨chunk :: kept, dropped, rfl, .cons stepped accepted, stop⟩
    · rintro ⟨kept, dropped, split, accepted, stop⟩
      cases accepted with
      | nil =>
        rw [List.nil_append] at split
        rw [← split] at stop
        rw [stop]
        rfl
      | cons stepped more =>
        rw [List.cons_append, List.cons.injEq] at split
        obtain ⟨rfl, rest⟩ := split
        rw [stepped]
        exact ih.mpr ⟨_, dropped, rest, more, stop⟩

theorem Accepted.whole {scan final : Scan} {kept : List Bytes} (accepted : Accepted codec scan kept final)
    {bytes : Bytes} (listed : ∀ chunk ∈ kept, chunk ∈ chunks bytes) : ∀ chunk ∈ kept, Whole chunk := by
  induction accepted with
  | nil =>
    intro chunk member
    cases member
  | cons step more ih =>
    intro chunk member
    rcases List.mem_cons.mp member with rfl | later
    · obtain ⟨record, held, _⟩ := Scan.step_some.mp step
      obtain ⟨_, ended, _⟩ := recordOf_some held
      exact chunks_whole (listed _ member) ended
    · exact ih (fun chunk member => listed chunk (List.mem_cons_of_mem _ member)) chunk later

theorem Accepted.offset {scan final : Scan} {kept : List Bytes}
    (accepted : Accepted codec scan kept final) :
    final.offset = scan.offset + kept.flatten.length := by
  induction accepted with
  | nil => rfl
  | cons step more ih =>
    obtain ⟨record, _, _, _, next⟩ := Scan.step_some.mp step
    rw [ih, next, List.flatten_cons, List.length_append]
    exact Nat.add_assoc ..

/-- The sequences of the records, counting bare ones from `synthetic`. -/
def numbered : ℕ → List DecodedRecord → List ℕ
  | _, [] => []
  | synthetic, record :: rest =>
    record.sequence.getD (saturatingAdd64 synthetic 1) :: numbered (saturatingAdd64 synthetic 1) rest

/-- Each sequence follows the one before it. -/
def Stepwise : ℕ → List ℕ → Prop
  | _, [] => True
  | previous, sequence :: rest => Follows previous sequence ∧ Stepwise sequence rest

/-- What the scanner accepted: records in sequence under one chain of owners. -/
structure Accounted (codec : Codec) (scan : Scan) (kept : List Bytes) (records : List DecodedRecord)
    (final : Scan) : Prop where
  held : List.Forall₂ (fun chunk record => recordOf codec chunk = some record) kept records
  sequences : Stepwise scan.previousSequence (numbered scan.syntheticSequence records)
  chain : OwnershipChain scan.owner records final.owner
  last : final.previousSequence =
    (numbered scan.syntheticSequence records).getLastD scan.previousSequence
  counted : ∀ rest, numbered scan.syntheticSequence (records ++ rest) =
    numbered scan.syntheticSequence records ++ numbered final.syntheticSequence rest

theorem Accepted.accounted {scan final : Scan} {kept : List Bytes}
    (accepted : Accepted codec scan kept final) :
    ∃ records, Accounted codec scan kept records final := by
  induction accepted with
  | nil => exact ⟨[], .nil, trivial, .nil, rfl, fun _ => rfl⟩
  | cons step more ih =>
    obtain ⟨record, held, follows, owned, next⟩ := Scan.step_some.mp step
    obtain ⟨records, rest⟩ := ih
    rw [next] at rest
    refine ⟨record :: records, .cons held rest.held, ⟨follows, rest.sequences⟩,
      .cons owned rest.chain, ?_, ?_⟩
    · rw [rest.last, numbered, List.getLastD_cons]
    · intro later
      rw [List.cons_append, numbered, numbered, List.cons_append]
      exact congrArg _ (rest.counted later)

/-- After an accepted part the scan goes on with the rest. -/
theorem Accepted.run_append {scan final : Scan} {kept : List Bytes}
    (accepted : Accepted codec scan kept final) (rest : List Bytes) :
    scan.run codec (kept ++ rest) = final.run codec rest := by
  induction accepted with
  | nil => rfl
  | cons step more ih =>
    rw [List.cons_append, Scan.run, step]
    exact ih

/-- Records in sequence under one chain of owners are accepted. -/
theorem accepted_of_chain (scan : Scan) {kept : List Bytes} {records : List DecodedRecord}
    {owner : Option String}
    (held : List.Forall₂ (fun chunk record => recordOf codec chunk = some record) kept records)
    (sequences : Stepwise scan.previousSequence (numbered scan.syntheticSequence records))
    (chain : OwnershipChain scan.owner records owner) :
    ∃ final, Accepted codec scan kept final ∧ final.owner = owner := by
  induction held generalizing scan with
  | nil =>
    cases chain
    exact ⟨scan, .nil, rfl⟩
  | @cons chunk record kept records first rest ih =>
    obtain ⟨follows, later⟩ := sequences
    obtain _ | ⟨owned, chain⟩ := chain
    obtain ⟨final, accepted, same⟩ := @ih ⟨scan.offset + chunk.length, _, _, _⟩ later chain
    exact ⟨final, .cons (Scan.step_some.mpr ⟨record, first, follows, owned, rfl⟩) accepted, same⟩

end Accepting

section Visiting

variable {codec : Codec} {σ : Type} {apply : σ → DecodedRecord → σ}

/-- The replayer visits the records of a chain and goes on after them. -/
theorem forEachFrom_append (lenient : codec.Lenient) {cut : List Bytes} {records : List DecodedRecord}
    {owner final : Option String} {state : σ}
    (held : List.Forall₂ (fun chunk record => recordOf codec chunk = some record) cut records)
    (chain : OwnershipChain owner records final) (rest : List (Except Fault Text)) :
    forEachFrom codec apply owner state (cut.map readLine ++ rest) =
      forEachFrom codec apply final (records.foldl apply state) rest := by
  induction held generalizing owner state with
  | nil =>
    cases chain
    rfl
  | cons first others ih =>
    obtain _ | ⟨owned, chain⟩ := chain
    obtain ⟨line, read, decoded⟩ := lineOf_record lenient first
    rw [List.map_cons, List.cons_append, readLine, read, forEachFrom, decoded]
    dsimp only
    rw [advanceOwner_ok.mpr owned]
    exact ih chain

theorem checkOwner_ok {owner : Option String} {name : String}
    (mine : owner = none ∨ owner = some name) : checkOwner owner (some name) = .ok () := by
  rcases mine with rfl | rfl
  · rfl
  · simp [checkOwner]

theorem checkOwner_mine {owner : Option String} {name : String} {u : Unit}
    (checked : checkOwner owner (some name) = .ok u) : owner = none ∨ owner = some name := by
  cases owner with
  | none => exact .inl rfl
  | some actual =>
    by_cases same : actual = name
    · exact .inr (congrArg some same)
    · simp [checkOwner, same] at checked

theorem forEachRecord_chain (lenient : codec.Lenient) {bytes : Bytes} {records : List DecodedRecord}
    {owner : Option String} {name : String} (held : Records codec bytes records)
    (chain : OwnershipChain none records owner) (mine : owner = none ∨ owner = some name)
    (init : σ) :
    forEachRecord codec bytes (some name) apply init = .ok (records.foldl apply init) := by
  have visited : forEachFrom codec apply none init ((chunks bytes).map readLine ++ []) =
      forEachFrom codec apply owner (records.foldl apply init) [] :=
    forEachFrom_append lenient held chain []
  rw [List.append_nil] at visited
  rw [forEachRecord, lines, visited, forEachFrom]
  simp only [bind, Except.bind]
  rw [checkOwner_ok mine]
  rfl

/-- A record in sequence moves both counters of recovery. -/
theorem recovery_step (snapshot : Option Snapshot) {record : DecodedRecord} {state : Recovery}
    (follows : Follows state.previousSequence
      (record.sequence.getD (saturatingAdd64 state.syntheticSequence 1))) :
    (Recovery.step snapshot state record).previousSequence =
        record.sequence.getD (saturatingAdd64 state.syntheticSequence 1) ∧
      (Recovery.step snapshot state record).syntheticSequence =
        saturatingAdd64 state.syntheticSequence 1 := by
  have open_ : ¬ (state.previousSequence ≠ 0 ∧
      record.sequence.getD (saturatingAdd64 state.syntheticSequence 1) ≠
        saturatingAdd64 state.previousSequence 1) := fun gap => gap.2 (follows gap.1)
  unfold Recovery.step
  simp only [open_, if_false]
  split <;> exact ⟨rfl, rfl⟩

/-- Recovery follows the sequences that the scanner accepted. -/
theorem recovery_previous {snapshot : Option Snapshot} {records : List DecodedRecord} {state : Recovery}
    (sequences : Stepwise state.previousSequence (numbered state.syntheticSequence records)) :
    (records.foldl (Recovery.step snapshot) state).previousSequence =
      (numbered state.syntheticSequence records).getLastD state.previousSequence := by
  induction records generalizing state with
  | nil => rfl
  | cons record records ih =>
    obtain ⟨follows, later⟩ := sequences
    obtain ⟨previous, synthetic⟩ := recovery_step snapshot follows
    rw [← previous, ← synthetic] at later
    rw [List.foldl_cons, ih later, previous, synthetic, numbered, List.getLastD_cons]

/-- The records with the sequences that recovery assigns. -/
def numberedEvents (synthetic : ℕ) (records : List DecodedRecord) : List (ℕ × LogEvent) :=
  (numbered synthetic records).zip (records.map (·.event))

end Visiting

end Uniterm.Model.EventLog
