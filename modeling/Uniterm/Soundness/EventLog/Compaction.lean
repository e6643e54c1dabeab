import Mathlib.Data.List.Chain
import Uniterm.Soundness.EventLog.Repair

/-! # Compaction is invisible to recovery

Every reducer is a fold over the records, and a checkpoint replaces what was folded before it. The
checkpoint that `compact` builds holds exactly the folds over the compacted stream, so that a suffix
appended to the one or to the other leads to the same state.
-/

namespace Uniterm.Model.EventLog

open Std Runs Work

variable {codec : Codec}

section Enveloped

/-- Every record carries its own sequence and owner. -/
def Enveloped (records : List DecodedRecord) : Prop :=
  ∀ record ∈ records, record.sequence.isSome ∧ record.workspace.isSome

theorem numbered_enveloped {records : List DecodedRecord} (enveloped : Enveloped records)
    (synthetic : ℕ) : numbered synthetic records = records.map fun record => record.sequence.getD 0 := by
  induction records generalizing synthetic with
  | nil => rfl
  | cons record records ih =>
    obtain ⟨sequence, given⟩ := Option.isSome_iff_exists.mp (enveloped record List.mem_cons_self).1
    rw [numbered, ih fun other listed => enveloped other (List.mem_cons_of_mem _ listed), given]
    simp [given]

theorem OwnerStep.placed {owner next : Option String} {record : DecodedRecord}
    (step : OwnerStep owner record next) : CheckpointPlaced owner record := by
  cases step <;> assumption

theorem OwnerStep.unique {owner next next' : Option String} {record : DecodedRecord}
    (step : OwnerStep owner record next) (step' : OwnerStep owner record next') : next = next' :=
  Except.ok.inj ((advanceOwner_ok.mpr step).symm.trans (advanceOwner_ok.mpr step'))

theorem OwnershipChain.append {owner final : Option String} {records rest : List DecodedRecord}
    (chain : OwnershipChain owner (records ++ rest) final) :
    ∃ middle, OwnershipChain owner records middle ∧ OwnershipChain middle rest final := by
  induction records generalizing owner with
  | nil => exact ⟨owner, .nil, chain⟩
  | cons record records ih =>
    obtain _ | ⟨step, chain⟩ := chain
    obtain ⟨middle, first, second⟩ := ih chain
    exact ⟨middle, .cons step first, second⟩

private theorem OwnershipChain.unique {owner final final' : Option String}
    {records : List DecodedRecord} (chain : OwnershipChain owner records final)
    (chain' : OwnershipChain owner records final') : final = final' := by
  induction chain with
  | nil =>
    cases chain'
    rfl
  | cons step _ ih =>
    obtain _ | ⟨step', rest'⟩ := chain'
    obtain rfl := step.unique step'
    exact ih rest'

/-- An owned stream keeps an owner. -/
theorem OwnershipChain.isSome {owner final : Option String} {records : List DecodedRecord}
    (chain : OwnershipChain owner records final) (owned : owner.isSome) : final.isSome := by
  induction chain with
  | nil => exact owned
  | cons step _ ih =>
    apply ih
    cases step with
    | bare => exact owned
    | owned => rfl
    | renamed => rfl

theorem OwnershipChain.isSome_of_enveloped {owner final : Option String}
    {record : DecodedRecord} {records : List DecodedRecord}
    (chain : OwnershipChain owner (record :: records) final) (named : record.workspace.isSome) :
    final.isSome := by
  obtain _ | ⟨step, rest⟩ := chain
  apply rest.isSome
  cases step with
  | bare _ unowned =>
    rw [unowned] at named
    cases named
  | owned => rfl
  | renamed => rfl

/-- Nobody's stream of owned records may be read as the current owner's, and the other way round. -/
theorem OwnershipChain.restart {owner final : Option String} {record : DecodedRecord}
    {records : List DecodedRecord} (chain : OwnershipChain owner (record :: records) final)
    (named : record.workspace.isSome) : OwnershipChain none (record :: records) final := by
  obtain _ | ⟨step, rest⟩ := chain
  have placed {owner : Option String} (placed : CheckpointPlaced owner record) :
      CheckpointPlaced none record := fun state checkpoint => ⟨(placed state checkpoint).1, rfl⟩
  cases step with
  | bare _ unowned =>
    rw [unowned] at named
    cases named
  | owned here named _ kept => exact .cons (.owned (placed here) named (by simp) kept) rest
  | renamed here named _ renames changes =>
    exact .cons (.renamed (placed here) named (by simp) renames changes) rest

/-- After the first owned record there is no checkpoint. -/
theorem OwnershipChain.plain {owner final : Option String} {records : List DecodedRecord}
    (chain : OwnershipChain owner records final) (owned : owner.isSome) :
    ∀ record ∈ records, ∀ state, record.event ≠ .recoveryCheckpoint state := by
  induction chain with
  | nil =>
    intro record member
    cases member
  | cons step _ ih =>
    have next : Option.isSome _ := (OwnershipChain.cons step .nil).isSome owned
    intro record member state checkpoint
    rcases List.mem_cons.mp member with rfl | later
    · rw [(step.placed state checkpoint).2] at owned
      cases owned
    · exact ih next record later state checkpoint

end Enveloped

section Sequences

private theorem foldl_max_of_chain {a : ℕ} {rest : List ℕ}
    (chain : (a :: rest).IsChain fun a b => b = a + 1) : rest.foldl max a = rest.getLastD a := by
  induction rest generalizing a with
  | nil => rfl
  | cons b rest ih =>
    obtain ⟨rfl, chain⟩ := List.isChain_cons_cons.mp chain
    rw [List.foldl_cons, Nat.max_eq_right (Nat.le_succ a), ih chain, List.getLastD_cons]

private theorem countSequence_records (lenient : codec.Lenient) {cut : List Bytes}
    {records : List DecodedRecord} (synthetic highest : ℕ)
    (held : List.Forall₂ (fun chunk record => recordOf codec chunk = some record) cut records) :
    (((cut.map readLine).takeWhile readable).foldl (countSequence codec) (synthetic, highest)).2 =
      (numbered synthetic records).foldl max highest := by
  induction held generalizing synthetic highest with
  | nil => rfl
  | cons first rest ih =>
    obtain ⟨line, read, decoded⟩ := lineOf_record lenient first
    rw [List.map_cons, readLine, read, List.takeWhile_cons_of_pos rfl, List.foldl_cons,
      countSequence, decoded]
    exact ih _ _

/-- The allocator is one past the highest sequence of the records. -/
theorem nextSequence_records (lenient : codec.Lenient) {bytes : Bytes}
    {records : List DecodedRecord} (held : Records codec bytes records) :
    nextSequence codec bytes = max (saturatingAdd64 ((numbered 0 records).foldl max 0) 1) 1 := by
  unfold nextSequence
  dsimp only
  rw [lines, countSequence_records lenient 0 0 held]

end Sequences

section Building

theorem bind_ok {α β : Type} {x : Except Fault α} {f : α → Except Fault β} {b : β} :
    (x >>= f) = .ok b ↔ ∃ a, x = .ok a ∧ f a = .ok b := by
  cases x <;> simp [bind, Except.bind]

/-- The checkpoint that compaction builds: the stream's own projections. -/
structure Built (codec : Codec) (archives : Archives) (name : String) (bytes : Bytes)
    (state : RecoveryCheckpoint) : Prop where
  full : consistentPrefixLen codec bytes name = .ok bytes.length
  through : state.through = nextSequence codec bytes - 1
  positive : state.through ≠ 0
  version : state.version = checkpointVersion
  file : state.archive.file = archiveFile state.through
  hashed : ∃ text, state.archive.sha256 = codec.sha256 text
  tasks : replayTasks codec name bytes {} = .ok state.tasks
  waiting : replayWaiting codec name bytes {} = .ok state.waiting
  instructions : replayInstructions codec name bytes {} = .ok state.instructions
  runGraph : replayRunGraph codec name bytes 0 .new = .ok state.runGraph
  artifacts : replayArtifacts codec name bytes 0 {} = .ok state.artifacts
  runs : replayOrchestrations codec name bytes = .ok state.runs
  invocations : replayInvocations codec archives name bytes state.through = .ok state.invocations
  recovered : ∃ snapshot, recoverSnapshot codec name bytes none = .ok snapshot ∧
    state.recovered = snapshot.map StructuralProjection.fromSnapshot

theorem compact_built {archives : Archives} {name : String} {bytes : Bytes}
    {state : RecoveryCheckpoint} (built : compact codec archives name bytes = .ok (some state)) :
    Built codec archives name bytes state := by
  unfold compact at built
  obtain ⟨consistent, full, built⟩ := bind_ok.mp built
  split at built
  · cases built
  · next whole =>
    obtain ⟨⟨prior, _, _⟩, _, built⟩ := bind_ok.mp built
    dsimp only at built
    split at built
    · cases built
    · next fresh =>
      obtain ⟨tasks, tasksOk, built⟩ := bind_ok.mp built
      obtain ⟨waiting, waitingOk, built⟩ := bind_ok.mp built
      obtain ⟨instructions, instructionsOk, built⟩ := bind_ok.mp built
      obtain ⟨runGraph, runGraphOk, built⟩ := bind_ok.mp built
      obtain ⟨artifacts, artifactsOk, built⟩ := bind_ok.mp built
      obtain ⟨runs, runsOk, built⟩ := bind_ok.mp built
      obtain ⟨invocations, invocationsOk, built⟩ := bind_ok.mp built
      obtain ⟨snapshot, snapshotOk, built⟩ := bind_ok.mp built
      obtain ⟨sha256, digested, built⟩ := bind_ok.mp built
      obtain ⟨plain, _, hashed⟩ := bind_ok.mp digested
      cases built
      rw [not_not.mp whole] at full
      exact {
        full := full, through := rfl, positive := fun zero => fresh (.inl zero), version := rfl
        file := rfl, hashed := ⟨_, (Except.ok.inj hashed).symm⟩, tasks := tasksOk
        waiting := waitingOk, instructions := instructionsOk, runGraph := runGraphOk
        artifacts := artifactsOk, runs := runsOk, invocations := invocationsOk
        recovered := ⟨snapshot, snapshotOk, rfl⟩ }

/-- A stream without a checkpoint whose projections and hash are these compacts to them. -/
theorem Built.compact {archives : Archives} {name : String} {bytes rest : Bytes} {state : RecoveryCheckpoint}
    {owner : Option String} (built : Built codec archives name bytes state)
    (header : checkpointHeaderWithOwner codec bytes = .ok (none, owner, rest))
    (digested : digest codec bytes = .ok state.archive.sha256) :
    compact codec archives name bytes = .ok (some state) := by
  have through : nextSequence codec bytes - 1 = state.through := built.through.symm
  obtain ⟨snapshot, recovered, tree⟩ := built.recovered
  unfold EventLog.compact
  refine bind_ok.mpr ⟨_, built.full, ?_⟩
  rw [if_neg (not_not.mpr rfl)]
  refine bind_ok.mpr ⟨_, header, ?_⟩
  dsimp only
  rw [through, if_neg (by simpa using built.positive)]
  refine bind_ok.mpr ⟨_, built.tasks, bind_ok.mpr ⟨_, built.waiting, bind_ok.mpr ⟨_, built.instructions, ?_⟩⟩⟩
  refine bind_ok.mpr ⟨_, built.runGraph, bind_ok.mpr ⟨_, built.artifacts, bind_ok.mpr ⟨_, built.runs, ?_⟩⟩⟩
  refine bind_ok.mpr ⟨_, built.invocations, bind_ok.mpr ⟨_, recovered, bind_ok.mpr ⟨_, digested, ?_⟩⟩⟩
  rw [← built.version, ← built.file, ← tree]
  rfl

/-- Hashes are 64 hexadecimal digits. -/
def Codec.Hashes (codec : Codec) : Prop :=
  ∀ text, (codec.sha256 text).len = 64 ∧ (codec.sha256 text).all RecoveryCheckpoint.hexDigit = true

private theorem archiveFile_chars (through : ℕ) :
    (archiveFile through).all RecoveryCheckpoint.archiveFileChar = true := by
  have digits : (toString through).toList.all RecoveryCheckpoint.archiveFileChar = true := by
    rw [List.all_eq_true]
    intro c member
    rw [Nat.toString_eq_repr, Nat.toList_repr] at member
    have digit : c.isDigit = true := Nat.isDigit_of_mem_toDigits (by decide) (by decide) member
    simp [RecoveryCheckpoint.archiveFileChar, Char.isAlphanum, digit]
  rw [archiveFile, List.all_append, List.all_append, digits]
  decide

theorem Built.valid {archives : Archives} {name : String} {bytes : Bytes}
    {state : RecoveryCheckpoint} (built : Built codec archives name bytes state)
    (hashes : codec.Hashes) : state.validate (some state.through) = .ok () := by
  obtain ⟨text, hashed⟩ := built.hashed
  have opening : RecoveryCheckpoint.archiveFileStart.isPrefixOf (archiveFile state.through) = true := by
    rw [List.isPrefixOf_iff_prefix, archiveFile, List.append_assoc]
    exact List.prefix_append ..
  have closing : RecoveryCheckpoint.archiveFileEnd.isSuffixOf (archiveFile state.through) = true := by
    rw [List.isSuffixOf_iff_suffix, archiveFile]
    exact List.suffix_append ..
  unfold RecoveryCheckpoint.validate
  rw [built.version, built.file, hashed, if_neg (Nat.lt_irrefl _), if_neg]
  simp [built.positive, opening, closing, archiveFile_chars, (hashes text).1, (hashes text).2]

end Building

section Joining

/-- A committed stream and a suffix that continues it, both enveloped. -/
structure Joined (codec : Codec) (name name' : String) (stream suffix : Bytes)
    (records later : List DecodedRecord) (through : ℕ) : Prop where
  held : Records codec stream records
  joined : Records codec (stream ++ suffix) (records ++ later)
  cut : List.Forall₂ (fun chunk record => recordOf codec chunk = some record) (chunks suffix) later
  enveloped : Enveloped (records ++ later)
  contiguous : (numbered 0 (records ++ later)).IsChain fun a b => b = a + 1
  chain : OwnershipChain none records (some name)
  chain' : OwnershipChain (some name) later (some name')
  whole : OwnershipChain none (records ++ later) (some name')
  /-- The stream is not empty, and ends at the checkpoint's sequence. -/
  last : ∃ record rest, records = record :: rest ∧ (numbered 0 records).getLastD 0 = through
  room : through ≠ u64Max

private theorem Forall₂.append_split {cut cut' : List Bytes} {records : List DecodedRecord}
    (held : List.Forall₂ (fun chunk record => recordOf codec chunk = some record) (cut ++ cut') records) :
    ∃ first second, records = first ++ second ∧
      List.Forall₂ (fun chunk record => recordOf codec chunk = some record) cut first ∧
      List.Forall₂ (fun chunk record => recordOf codec chunk = some record) cut' second := by
  induction cut generalizing records with
  | nil => exact ⟨[], records, rfl, .nil, held⟩
  | cons chunk cut ih =>
    obtain _ | ⟨here, rest⟩ := held
    obtain ⟨first, second, rfl, split, split'⟩ := ih rest
    exact ⟨_ :: first, second, rfl, .cons here split, split'⟩

theorem joined_of_built (lenient : codec.Lenient) {archives : Archives} {name name' : String}
    {stream suffix : Bytes} {state : RecoveryCheckpoint}
    (built : Built codec archives name stream state)
    (recoverable : Recoverable codec (stream ++ suffix) name')
    (enveloped : ∀ records, Records codec (stream ++ suffix) records → Enveloped records) :
    ∃ records later, Joined codec name name' stream suffix records later state.through := by
  obtain ⟨records, final, accounted, mine⟩ := accepted_in_full built.full
  have held : Records codec stream records := accounted.held
  obtain ⟨all, owner, joined, contiguous, chain, mine'⟩ := recoverable.intact
  have parts : chunks (stream ++ suffix) = chunks stream ++ chunks suffix := by
    have appended := chunks_append held.whole suffix
    rwa [chunks_flatten] at appended
  have split := joined
  rw [Records, parts] at split
  obtain ⟨first, later, rfl, here, cut⟩ := Forall₂.append_split split
  obtain rfl : first = records := Records.unique here held
  have given := enveloped _ joined
  have given' : Enveloped first := fun record listed => given record (List.mem_append_left _ listed)
  have contiguous' : (numbered 0 first).IsChain fun a b => b = a + 1 := by
    rw [numbered_enveloped given, List.map_append] at contiguous
    rw [numbered_enveloped given']
    exact contiguous.left_of_append
  have highest := built.through
  rw [nextSequence_records lenient held] at highest
  have positive := built.positive
  cases first with
  | nil => exact absurd highest positive
  | cons record rest =>
    have owned := accounted.chain.isSome_of_enveloped (given' record List.mem_cons_self).2
    have name_ : final.owner = some name := by
      rcases mine with nobody | self
      · rw [nobody] at owned
        cases owned
      · exact self
    obtain ⟨middle, chain₁, chain₂⟩ := chain.append
    obtain rfl : middle = some name := (chain₁.unique accounted.chain).trans name_
    have owner_ : owner = some name' := by
      rcases mine' with nobody | self
      · have := chain₂.isSome rfl
        rw [nobody] at this
        cases this
      · exact self
    subst owner_
    have top : (numbered 0 (record :: rest)).foldl max 0 = (numbered 0 (record :: rest)).getLastD 0 := by
      rw [numbered, List.foldl_cons, Nat.zero_max, foldl_max_of_chain contiguous', List.getLastD_cons]
    obtain ⟨snapshot, recovered, _⟩ := built.recovered
    have open_ : (numbered 0 (record :: rest)).getLastD 0 ≠ u64Max :=
      (recoverSnapshot_ok_iff lenient held chain₁ (.inr rfl) accounted.sequences none).mp
        ⟨snapshot, recovered⟩
    have bound : (numbered 0 (record :: rest)).getLastD 0 ≤ u64Max := by
      apply numbered_le accounted.held 0
      rw [numbered, List.getLastD_cons]
      exact List.getLastD_mem_cons ..
    have through : (numbered 0 (record :: rest)).getLastD 0 = state.through := by
      rw [top, saturatingAdd64_of_lt (Nat.lt_of_le_of_ne bound open_)] at highest
      omega
    refine ⟨record :: rest, later, held, joined, cut, given, contiguous, chain₁, chain₂, chain,
      ⟨record, rest, rfl, through⟩, through ▸ open_⟩

end Joining

section Replacing

/-- The record of a checkpoint. -/
def checkpointRecord (name : String) (state : RecoveryCheckpoint) : DecodedRecord where
  sequence := some state.through
  workspace := some name
  event := .recoveryCheckpoint state

/-- The checkpoint stands for the stream, and the suffix follows it. -/
structure Replaced (codec : Codec) (name name' : String) (compacted : Bytes)
    (state : RecoveryCheckpoint) (later : List DecodedRecord) : Prop where
  held : Records codec compacted (checkpointRecord name state :: later)
  chain : OwnershipChain none (checkpointRecord name state :: later) (some name')
  contiguous : (numbered 0 (checkpointRecord name state :: later)).IsChain fun a b => b = a + 1

variable {archives : Archives} {name name' : String} {stream suffix line : Bytes}
  {records later : List DecodedRecord} {state : RecoveryCheckpoint}

theorem Joined.later_enveloped
    (joined : Joined codec name name' stream suffix records later state.through) : Enveloped later :=
  fun record listed => joined.enveloped record (List.mem_append_right _ listed)

theorem Joined.records_enveloped
    (joined : Joined codec name name' stream suffix records later state.through) :
    Enveloped records :=
  fun record listed => joined.enveloped record (List.mem_append_left _ listed)

theorem Joined.replaced_enveloped
    (joined : Joined codec name name' stream suffix records later state.through) :
    Enveloped (checkpointRecord name state :: later) := by
  intro record listed
  rcases List.mem_cons.mp listed with rfl | listed
  · exact ⟨rfl, rfl⟩
  · exact joined.later_enveloped record listed

/-- The checkpoint's sequence is the highest of the stream. -/
theorem Joined.inside (joined : Joined codec name name' stream suffix records later state.through) :
    ∀ record ∈ records, record.sequence.getD 0 ≤ state.through := by
  obtain ⟨first, rest, rfl, through⟩ := joined.last
  have contiguous := joined.contiguous
  rw [numbered_enveloped joined.enveloped, List.map_append] at contiguous
  rw [numbered_enveloped joined.records_enveloped] at through
  intro record member
  have listed : record.sequence.getD 0 ∈ (first :: rest).map fun record => record.sequence.getD 0 :=
    List.mem_map_of_mem member
  rw [← through]
  exact le_last_of_chain contiguous.left_of_append _ listed

theorem Joined.top (joined : Joined codec name name' stream suffix records later state.through) :
    (numbered 0 records).foldl max 0 = state.through := by
  obtain ⟨first, rest, rfl, through⟩ := joined.last
  have contiguous := joined.contiguous
  rw [numbered_enveloped joined.enveloped, List.map_append,
    ← numbered_enveloped joined.records_enveloped 0] at contiguous
  rw [← through, numbered, List.foldl_cons, Nat.zero_max, List.getLastD_cons]
  exact foldl_max_of_chain contiguous.left_of_append

/-- The sequences of the suffix continue the checkpoint's. -/
theorem Joined.continued
    (joined : Joined codec name name' stream suffix records later state.through) :
    (state.through :: later.map fun record => record.sequence.getD 0).IsChain
      fun a b => b = a + 1 := by
  obtain ⟨record, rest, rfl, through⟩ := joined.last
  have contiguous := joined.contiguous
  rw [numbered_enveloped joined.enveloped, List.map_append] at contiguous
  rw [numbered_enveloped joined.records_enveloped] at through
  obtain ⟨init, final, split⟩ := List.eq_nil_or_concat
    ((record :: rest).map fun record => record.sequence.getD 0) |>.resolve_left (by simp)
  rw [split, List.concat_eq_append] at through contiguous
  rw [List.getLastD_concat] at through
  rw [← through, List.append_assoc] at *
  exact contiguous.right_of_append

theorem Joined.replaced (joined : Joined codec name name' stream suffix records later state.through)
    (valid : state.validate (some state.through) = .ok ()) (free : newline ∉ line)
    (faithful : recordOf codec (line ++ [newline]) = some (checkpointRecord name state)) :
    Replaced codec name name' (line ++ [newline] ++ suffix) state later := by
  constructor
  · rw [Records, chunks_line free]
    exact .cons faithful joined.cut
  · refine .cons (.owned ?_ rfl (by simp) (by rintro _ _ ⟨⟩)) joined.chain'
    rintro _ ⟨⟩
    exact ⟨valid, rfl⟩
  · rw [numbered, numbered_enveloped joined.later_enveloped]
    exact joined.continued

end Replacing

end Uniterm.Model.EventLog
