import Uniterm.Soundness.EventLog.Compaction

/-! # Every reducer takes the checkpoint for the stream

A reducer's state after the checkpoint record is its state after the compacted stream, so that the
suffix leads both to the same end. The reducers differ in what they keep beside their projection:
a synthetic count, a failure, the bindings of the archived history.
-/

namespace Uniterm.Model.EventLog

open Std Runs Work ToMathlib

variable {codec : Codec} {archives : Archives} {name name' : String}
  {stream suffix compacted : Bytes} {records later : List DecodedRecord}
  {state : RecoveryCheckpoint}

section Cursors

variable {σ : Type} {change : σ → LogEvent → Except String σ} {afterSequence : ℕ}

/-- What a cursored replay shows of its state. -/
private def Cursored.outcome (state : Cursored σ) : Option String × σ :=
  (state.failure, state.projection)

private theorem Cursored.step_outcome {a b : Cursored σ} {record : DecodedRecord}
    (given : record.sequence.isSome) (same : a.outcome = b.outcome) :
    (Cursored.step afterSequence change a record).outcome =
      (Cursored.step afterSequence change b record).outcome := by
  obtain ⟨sequence, given⟩ := Option.isSome_iff_exists.mp given
  obtain ⟨_, failure, projection⟩ := a
  obtain ⟨_, _, _⟩ := b
  cases same
  unfold Cursored.step
  dsimp only
  rw [given, Option.getD_some, Option.getD_some]
  split
  · rfl
  · cases change projection record.event <;> rfl

/-- On records with their own sequences the synthetic count is not read. -/
private theorem Cursored.foldl_outcome {a b : Cursored σ} {list : List DecodedRecord}
    (enveloped : Enveloped list) (same : a.outcome = b.outcome) :
    (list.foldl (Cursored.step afterSequence change) a).outcome =
      (list.foldl (Cursored.step afterSequence change) b).outcome := by
  induction list generalizing a b with
  | nil => exact same
  | cons record list ih =>
    exact ih (fun other listed => enveloped other (List.mem_cons_of_mem _ listed))
      (Cursored.step_outcome (enveloped record List.mem_cons_self).1 same)

/-- How a cursored replay ends. -/
private def Cursored.conclude (what : String) (outcome : Option String × σ) : Except Fault σ :=
  match outcome with
  | (some failure, _) => .error (invalidData s!"invalid {what} event: {failure}")
  | (none, projection) => .ok projection

private theorem replayCursored_eq {name : String} {bytes : Bytes} {what : String} {init : σ}
    {final : Cursored σ}
    (visited : forEachRecord codec bytes (some name) (Cursored.step afterSequence change)
      { projection := init } = .ok final) :
    replayCursored codec name bytes afterSequence what change init =
      Cursored.conclude what final.outcome := by
  unfold replayCursored
  rw [visited]
  obtain ⟨_, _ | _, _⟩ := final <;> rfl

end Cursors

section Runs

/-- Runs are kept under their own task ids. -/
private def Keyed (active : ExtTreeMap ℕ DurableOrchestration) : Prop :=
  ∀ (taskId : ℕ) (run : DurableOrchestration), active[taskId]? = some run → run.taskId = taskId

private theorem Keyed.insert {active : ExtTreeMap ℕ DurableOrchestration} (keyed : Keyed active)
    (run : DurableOrchestration) : Keyed (active.insert run.taskId run) := by
  intro taskId other read
  rw [ExtTreeMap.getElem?_insert] at read
  split at read
  · next same =>
    cases read
    exact Std.compare_eq_iff_eq.mp same
  · exact keyed taskId other read

private theorem Keyed.replay {active : ExtTreeMap ℕ DurableOrchestration} (keyed : Keyed active)
    (record : DecodedRecord) : Keyed (replayOrchestration active record) := by
  unfold replayOrchestration
  split
  · next checkpoint _ =>
    suffices inserted : ∀ (runs : List DurableOrchestration) (active : ExtTreeMap ℕ DurableOrchestration),
        Keyed active → Keyed (runs.foldl (fun active run => active.insert run.taskId run) active) by
      apply inserted
      intro taskId run read
      rw [ExtTreeMap.getElem?_empty] at read
      cases read
    intro runs
    induction runs with
    | nil => exact fun _ keyed => keyed
    | cons run runs ih => exact fun active keyed => ih _ (keyed.insert run)
  · next run _ => exact keyed.insert run
  · next taskId _ _ =>
    intro other run read
    rw [ExtTreeMap.getElem?_erase] at read
    split at read
    · cases read
    · exact keyed other run read
  · exact keyed

private theorem keyed_foldl (list : List DecodedRecord) : Keyed (list.foldl replayOrchestration ∅) := by
  suffices kept : ∀ active, Keyed active → Keyed (list.foldl replayOrchestration active) by
    apply kept
    intro taskId run read
    rw [ExtTreeMap.getElem?_empty] at read
    cases read
  induction list with
  | nil => exact fun _ keyed => keyed
  | cons record list ih => exact fun active keyed => ih _ (keyed.replay record)

end Runs

section Invocations

/-- The bindings after records with their own sequences. -/
private def bindAll (cursor : ℕ) (bound : ExtTreeMap PaneId ℕ) (list : List DecodedRecord) :
    ExtTreeMap PaneId ℕ :=
  list.foldl (fun bound record => if record.sequence.getD 0 ≤ cursor
    then bindInvocation bound (record.sequence.getD 0) record.event else bound) bound

private theorem replayInvocation_foldl {cursor synthetic : ℕ} {bound : ExtTreeMap PaneId ℕ}
    {list : List DecodedRecord} (enveloped : Enveloped list) :
    (list.foldl (replayInvocation cursor) (synthetic, bound)).2 = bindAll cursor bound list := by
  induction list generalizing synthetic bound with
  | nil => rfl
  | cons record list ih =>
    obtain ⟨sequence, given⟩ := Option.isSome_iff_exists.mp (enveloped record List.mem_cons_self).1
    rw [List.foldl_cons, replayInvocation, given]
    rw [ih fun other listed => enveloped other (List.mem_cons_of_mem _ listed), bindAll, bindAll,
      List.foldl_cons, given]
    rfl

/-- A cursor past every record binds them all. -/
private theorem bindAll_past {cursor cursor' : ℕ} {bound : ExtTreeMap PaneId ℕ}
    {list : List DecodedRecord} (past : ∀ record ∈ list, record.sequence.getD 0 ≤ cursor)
    (further : cursor ≤ cursor') : bindAll cursor' bound list = bindAll cursor bound list := by
  induction list generalizing bound with
  | nil => rfl
  | cons record list ih =>
    have here := past record List.mem_cons_self
    rw [bindAll, bindAll, List.foldl_cons, List.foldl_cons, if_pos here, if_pos (here.trans further)]
    exact ih fun other listed => past other (List.mem_cons_of_mem _ listed)

private theorem validate_sequence {state : RecoveryCheckpoint} {sequence : Option ℕ} {u : Unit}
    (valid : state.validate sequence = .ok u) : sequence = some state.through := by
  unfold RecoveryCheckpoint.validate at valid
  split at valid
  · cases valid
  · split at valid
    · cases valid
    · next sound =>
      by_contra different
      exact sound (.inr (.inr (.inl different)))

/-- What the head of a stream brings along. -/
private def headBindings (record : DecodedRecord) : ExtTreeMap PaneId ℕ :=
  match record.event with
  | .recoveryCheckpoint state => state.invocations
  | _ => ∅

/-- The records behind the head of a stream. -/
private theorem Records.tail {bytes : Bytes} {record : DecodedRecord} {rest : List DecodedRecord}
    (held : Records codec bytes (record :: rest)) :
    Records codec (bytes.drop ((chunks bytes).headD []).length) rest := by
  have whole := held.whole
  have flat := chunks_flatten bytes
  unfold Records at held
  cases cut : chunks bytes with
  | nil =>
    rw [cut] at held
    cases held
  | cons chunk others =>
    rw [cut] at held whole flat
    obtain _ | ⟨_, others_⟩ := held
    have left : bytes.drop chunk.length = others.flatten := by
      rw [← flat, List.flatten_cons, List.drop_left]
    rw [List.headD_cons, left, Records,
      chunks_flatten_whole fun other listed => whole other (List.mem_cons_of_mem _ listed)]
    exact others_

/-- Bindings at a cursor that is not before the head of an owned stream. -/
private theorem replayInvocations_cons (lenient : codec.Lenient) {bytes : Bytes}
    {record : DecodedRecord} {rest : List DecodedRecord} {final : Option String} {cursor : ℕ}
    (held : Records codec bytes (record :: rest))
    (chain : OwnershipChain none (record :: rest) final) (mine : final = some name)
    (enveloped : Enveloped (record :: rest)) (inside : record.sequence.getD 0 ≤ cursor) :
    replayInvocations codec archives name bytes cursor =
      .ok (bindAll cursor (headBindings record) (record :: rest)) := by
  have header := checkpointHeader_cons lenient held
  obtain ⟨owner, named⟩ := Option.isSome_iff_exists.mp (enveloped record List.mem_cons_self).2
  have rest_enveloped : Enveloped rest :=
    fun other listed => enveloped other (List.mem_cons_of_mem _ listed)
  unfold replayInvocations
  rw [header, named]
  split
  · next state _ checkpoint _ =>
    -- The chain refuses an invalid checkpoint.
    obtain _ | ⟨step, chain'⟩ := chain
    have valid := (step.placed state checkpoint).1
    have through : record.sequence = some state.through := validate_sequence valid
    have later : ¬ cursor < state.through := by
      rw [through] at inside
      exact Nat.not_lt.mpr inside
    have owned : ∃ owner, OwnershipChain none rest owner ∧ (owner = none ∨ owner = some name) := by
      cases rest with
      | nil => exact ⟨none, .nil, .inl rfl⟩
      | cons next rest =>
        exact ⟨final, chain'.restart (rest_enveloped next List.mem_cons_self).2, .inr mine⟩
    obtain ⟨final', chain', mine'⟩ := owned
    have visited : forEachRecord codec _ (some name) (replayInvocation cursor)
        (state.through, state.invocations) = _ := forEachRecord_chain lenient held.tail chain' mine' _
    have here : bindInvocation state.invocations state.through record.event = state.invocations := by
      rw [checkpoint]
      rfl
    rw [valid]
    simp only [Except.map, bind, Except.bind, Option.any_some, later, decide_false,
      Bool.false_eq_true, if_false, Option.map_some, Option.getD_some, visited]
    rw [replayInvocation_foldl rest_enveloped, headBindings, checkpoint, bindAll, bindAll,
      List.foldl_cons, through, Option.getD_some, here, ite_self]
    rfl
  · next plain =>
    have bare : headBindings record = ∅ := by
      unfold headBindings
      split
      · next state checkpoint => exact absurd rfl (plain state owner checkpoint)
      · rfl
    have visited : forEachRecord codec bytes (some name) (replayInvocation cursor) (0, ∅) = _ :=
      forEachRecord_chain lenient held chain (.inr mine) _
    simp only [bind, Except.bind, Option.any_none, Bool.false_eq_true, if_false, Option.map_none,
      Option.getD_none, visited]
    rw [replayInvocation_foldl enveloped, bare]
    rfl

end Invocations

section Structure

/-- The structure that the log projects up to a cursor. -/
def structureAt (cursor : ℕ) (records : List DecodedRecord) : Option StructuralProjection :=
  (((numberedEvents 0 records).filter fun event => event.1 ≤ cursor).foldl (recoverEvent none)
    none).map (·.2)

private theorem numberedEvents_enveloped {list : List DecodedRecord} (enveloped : Enveloped list)
    (synthetic : ℕ) : numberedEvents synthetic list =
      list.map fun record => (record.sequence.getD 0, record.event) := by
  rw [numberedEvents, numbered_enveloped enveloped, List.zip_map']

/-- What is restored depends on the standing tree alone. -/
private theorem restored_standing {snapshot : Option Snapshot}
    (distinct : ∀ held ∈ snapshot, held.DistinctPanes)
    (latest : Option (ℕ × StructuralProjection)) :
    (restoreFrom snapshot latest).map Snapshot.restored =
      (standing snapshot latest).map fun tree => (tree.intoSnapshot snapshot 0).restored := by
  cases latest with
  | some entry => rfl
  | none =>
    cases snapshot with
    | none => rfl
    | some held =>
      have windows := restoreWindows_fromSnapshot (distinct held rfl)
      exact congrArg (fun windows => some (held.toTreeFrame, windows)) windows.symm

private theorem fromSnapshot_restoreFrom (latest : Option (ℕ × StructuralProjection)) :
    (restoreFrom none latest).map StructuralProjection.fromSnapshot = standing none latest := by
  cases latest with
  | none => rfl
  | some entry => exact congrArg some (fromSnapshot_intoSnapshot entry.2 none entry.1)

/-- A truth that stands decides the next one. -/
private theorem nextTruth_mono {truth truth' : Option StructuralProjection} {event : LogEvent}
    (follows : ∀ tree, truth' = some tree → truth = some tree) :
    ∀ tree, nextTruth truth' event = some tree → nextTruth truth event = some tree := by
  intro tree reached
  cases truth' with
  | some old => rwa [follows old rfl]
  | none =>
    unfold nextTruth at reached ⊢
    cases renewed : newTruth event with
    | some fresh => rwa [renewed] at reached
    | none =>
      rw [renewed] at reached
      dsimp only [Option.or] at reached
      split at reached <;> cases reached

/-- A recovery with a snapshot stands where one without it stands, if that one stands anywhere. -/
private theorem standing_follows {snapshot : Option Snapshot} {events : List (ℕ × LogEvent)}
    {latest latest' : Option (ℕ × StructuralProjection)}
    (after : ∀ event ∈ events, (snapshot.map (·.eventSequence)).getD 0 < event.1)
    (follows : ∀ tree, standing none latest' = some tree → standing snapshot latest = some tree) :
    ∀ tree, standing none (events.foldl (recoverEvent none) latest') = some tree →
      standing snapshot (events.foldl (recoverEvent snapshot) latest) = some tree := by
  induction events generalizing latest latest' with
  | nil => exact follows
  | cons event events ih =>
    have here := after event List.mem_cons_self
    apply ih fun other listed => after other (List.mem_cons_of_mem _ listed)
    have positive : ¬ event.1 ≤ ((none : Option Snapshot).map (·.eventSequence)).getD 0 :=
      Nat.not_le.mpr (Nat.zero_lt_of_lt here)
    rw [recoverEvent, recoverEvent, if_neg (Nat.not_le.mpr here), if_neg positive]
    by_cases checkpoint : ∃ state, event.2 = .recoveryCheckpoint state
    · obtain ⟨state, checkpoint⟩ := checkpoint
      rw [checkpoint]
      intro tree reached
      cases recovered : state.recovered with
      | none => simp [Recovery.apply, recovered, standing] at reached
      | some fresh => simpa [Recovery.apply, recovered, standing] using reached
    · have plain : ∀ state, event.2 ≠ .recoveryCheckpoint state :=
        fun state same => checkpoint ⟨state, same⟩
      rw [standing_apply plain, standing_apply plain]
      exact nextTruth_mono follows

/-- Once there is a structure, plain events keep one. -/
private theorem standing_kept {events : List (ℕ × LogEvent)}
    {latest : Option (ℕ × StructuralProjection)}
    (plain : ∀ event ∈ events, ∀ state, event.2 ≠ .recoveryCheckpoint state)
    (stands : (standing none latest).isSome) :
    (standing none (events.foldl (recoverEvent none) latest)).isSome := by
  induction events generalizing latest with
  | nil => exact stands
  | cons event events ih =>
    apply ih fun other listed => plain other (List.mem_cons_of_mem _ listed)
    rw [recoverEvent]
    split
    · exact stands
    · rw [standing_apply (plain event List.mem_cons_self)]
      obtain ⟨tree, stands⟩ := Option.isSome_iff_exists.mp stands
      rw [stands]
      unfold nextTruth
      cases newTruth event.2 <;> cases amendsTruth event.2 <;> rfl

/-- A cursor cuts events in sequence in two. -/
private theorem exists_cut {events : List (ℕ × LogEvent)} (cursor : ℕ)
    (chain : (events.map (·.1)).IsChain fun a b => b = a + 1) :
    ∃ before after, events = before ++ after ∧ (∀ event ∈ before, event.1 ≤ cursor) ∧
      ∀ event ∈ after, cursor < event.1 := by
  induction events with
  | nil => exact ⟨[], [], rfl, by simp, by simp⟩
  | cons event events ih =>
    by_cases inside : event.1 ≤ cursor
    · obtain ⟨before, after, rfl, low, high⟩ := ih chain.tail
      refine ⟨event :: before, after, rfl, ?_, high⟩
      intro other listed
      rcases List.mem_cons.mp listed with rfl | listed
      · exact inside
      · exact low other listed
    · refine ⟨[], event :: events, rfl, by simp, ?_⟩
      intro other listed
      have sorted : ((event :: events).map (·.1)).Pairwise (· < ·) :=
        (chain.imp fun a b next => by omega).pairwise
      rcases List.mem_cons.mp listed with rfl | listed
      · exact Nat.not_le.mp inside
      · have later := List.rel_of_pairwise_cons sorted (List.mem_map_of_mem listed)
        exact (Nat.not_le.mp inside).trans later

end Structure

section Folds

variable (lenient : codec.Lenient) (built : Built codec archives name stream state)
  (joined : Joined codec name name' stream suffix records later state.through)
  (replaced : Replaced codec name name' compacted state later)
include lenient joined

private theorem Joined.forEach {σ : Type} (apply : σ → DecodedRecord → σ) (init : σ) :
    forEachRecord codec stream (some name) apply init = .ok (records.foldl apply init) ∧
      forEachRecord codec (stream ++ suffix) (some name') apply init =
        .ok (later.foldl apply (records.foldl apply init)) := by
  constructor
  · exact forEachRecord_chain lenient joined.held joined.chain (.inr rfl) init
  · rw [← List.foldl_append]
    exact forEachRecord_chain lenient joined.joined joined.whole (.inr rfl) init

include replaced

/-- A reducer that takes the checkpoint for the stream ends alike. -/
private theorem forEachRecord_replaced {σ : Type} {apply : σ → DecodedRecord → σ} {init : σ}
    (absorbs : apply init (checkpointRecord name state) = records.foldl apply init) :
    forEachRecord codec compacted (some name') apply init =
      forEachRecord codec (stream ++ suffix) (some name') apply init := by
  rw [(joined.forEach lenient apply init).2,
    forEachRecord_chain lenient replaced.held replaced.chain (.inr rfl) init, List.foldl_cons, absorbs]

private theorem replayCursored_replaced {σ : Type} {what : String}
    {change : σ → LogEvent → Except String σ} {init final : σ}
    (built : replayCursored codec name stream 0 what change init = .ok final)
    (absorbs : change init (.recoveryCheckpoint state) = .ok final) (positive : state.through ≠ 0) :
    replayCursored codec name' compacted 0 what change init =
      replayCursored codec name' (stream ++ suffix) 0 what change init := by
  obtain ⟨first, both⟩ := joined.forEach lenient (Cursored.step 0 change) { projection := init }
  have visited : forEachRecord codec compacted (some name') (Cursored.step 0 change)
      { projection := init } = _ := forEachRecord_chain lenient replaced.held replaced.chain (.inr rfl) _
  rw [replayCursored_eq both, replayCursored_eq visited]
  rw [replayCursored_eq first] at built
  have ended : (records.foldl (Cursored.step 0 change) { projection := init }).outcome =
      (none, final) := by
    generalize (records.foldl (Cursored.step 0 change) { projection := init }).outcome = outcome at built
    obtain ⟨_ | failure, projection⟩ := outcome
    · cases built
      rfl
    · cases built
  have started : (Cursored.step 0 change { projection := init } (checkpointRecord name state)).outcome =
      (none, final) := by
    have read : ¬ ((checkpointRecord name state).sequence.getD (saturatingAdd64 0 1) ≤ 0 ∨
        (none : Option String).isSome = true) := by simp [checkpointRecord, positive]
    have event : (checkpointRecord name state).event = .recoveryCheckpoint state := rfl
    unfold Cursored.step
    dsimp only
    rw [if_neg read, event, absorbs]
    rfl
  rw [List.foldl_cons,
    Cursored.foldl_outcome joined.later_enveloped (started.trans ended.symm)]

private theorem replayOrchestrations_replaced
    (built : replayOrchestrations codec name stream = .ok state.runs) :
    replayOrchestrations codec name' compacted =
      replayOrchestrations codec name' (stream ++ suffix) := by
  unfold replayOrchestrations at built ⊢
  rw [(joined.forEach lenient replayOrchestration ∅).1] at built
  have runs : (records.foldl replayOrchestration ∅).toList.map Prod.snd = state.runs :=
    Except.ok.inj built
  rw [forEachRecord_replaced lenient joined replaced]
  dsimp only [replayOrchestration, checkpointRecord]
  rw [← runs]
  exact foldl_insert_values _ (keyed_foldl records)

private theorem replayInvocations_replaced
    (built : replayInvocations codec archives name stream state.through = .ok state.invocations)
    {cursor : ℕ} (further : state.through ≤ cursor) :
    replayInvocations codec archives name' compacted cursor =
      replayInvocations codec archives name' (stream ++ suffix) cursor := by
  have inside := joined.inside
  obtain ⟨record, rest, rfl, _⟩ := joined.last
  have first := inside record List.mem_cons_self
  rw [replayInvocations_cons lenient joined.held joined.chain rfl joined.records_enveloped first]
    at built
  rw [replayInvocations_cons lenient joined.joined joined.whole rfl joined.enveloped
    (first.trans further), replayInvocations_cons lenient replaced.held replaced.chain rfl
    joined.replaced_enveloped further]
  have bound : bindAll state.through (headBindings record) (record :: rest) = state.invocations :=
    Except.ok.inj built
  have joint : bindAll cursor (headBindings record) (record :: rest ++ later) =
      bindAll cursor state.invocations later := by
    rw [← bound, ← bindAll_past inside further]
    exact List.foldl_append
  have kept : (if state.through ≤ cursor then bindInvocation state.invocations state.through
      (.recoveryCheckpoint state) else state.invocations) = state.invocations := ite_self _
  have replaced_ : bindAll cursor (headBindings (checkpointRecord name state))
      (checkpointRecord name state :: later) = bindAll cursor state.invocations later :=
    congrArg (fun bound => bindAll cursor bound later) kept
  exact congrArg Except.ok (replaced_.trans joint.symm)

private theorem nextSequence_replaced :
    nextSequence codec compacted = nextSequence codec (stream ++ suffix) := by
  have top := joined.top
  rw [nextSequence_records lenient joined.joined, nextSequence_records lenient replaced.held,
    numbered_enveloped joined.enveloped, numbered_enveloped joined.replaced_enveloped,
    List.map_append, List.foldl_append, ← numbered_enveloped joined.records_enveloped 0, top,
    List.map_cons, List.foldl_cons, Nat.zero_max]
  rfl

end Folds

section Recovering

variable (lenient : codec.Lenient) (built : Built codec archives name stream state)
  (joined : Joined codec name name' stream suffix records later state.through)
  (replaced : Replaced codec name name' compacted state later)

include lenient joined in
/-- Recovery of the stream with its suffix. -/
private theorem Joined.recovery (snapshot : Option Snapshot) :
    recoverSnapshot codec name' (stream ++ suffix) snapshot =
      if (numbered 0 (records ++ later)).getLastD 0 = u64Max then
        .error (invalidData "event sequence is duplicate, out of order, or contains a gap")
      else .ok (restoreFrom snapshot ((numberedEvents 0 later).foldl (recoverEvent snapshot)
        ((numberedEvents 0 records).foldl (recoverEvent snapshot) none))) := by
  have sequences := stepwise_of_chain (numbered_le joined.joined 0) joined.contiguous
  rw [recoverSnapshot, recoverSnapshot_eq lenient joined.joined joined.whole (.inr rfl) sequences,
    numberedEvents_enveloped joined.enveloped, List.map_append, List.foldl_append,
    numberedEvents_enveloped joined.records_enveloped, numberedEvents_enveloped joined.later_enveloped]

include lenient joined replaced in
/-- Recovery of the checkpoint with the suffix ends under the same condition. -/
private theorem Replaced.recovery (snapshot : Option Snapshot) :
    recoverSnapshot codec name' compacted snapshot =
      if (numbered 0 (records ++ later)).getLastD 0 = u64Max then
        .error (invalidData "event sequence is duplicate, out of order, or contains a gap")
      else .ok (restoreFrom snapshot ((numberedEvents 0 later).foldl (recoverEvent snapshot)
        (recoverEvent snapshot none (state.through, .recoveryCheckpoint state)))) := by
  have sequences := stepwise_of_chain (numbered_le replaced.held 0) replaced.contiguous
  have last : (numbered 0 (checkpointRecord name state :: later)).getLastD 0 =
      (numbered 0 (records ++ later)).getLastD 0 := by
    obtain ⟨first, rest, rfl, through⟩ := joined.last
    rw [numbered_enveloped joined.replaced_enveloped, numbered_enveloped joined.enveloped,
      List.map_append]
    rw [numbered_enveloped joined.records_enveloped] at through
    rw [List.map_cons, List.getLastD_cons, List.getLastD_eq_getLast?, List.getLastD_eq_getLast?,
      List.getLast?_append]
    rw [List.getLastD_eq_getLast?] at through
    cases (later.map fun record => record.sequence.getD 0).getLast? with
    | some last => rfl
    | none => exact through.symm
  rw [recoverSnapshot, recoverSnapshot_eq lenient replaced.held replaced.chain (.inr rfl) sequences,
    last, numberedEvents_enveloped joined.replaced_enveloped, List.map_cons, List.foldl_cons,
    numberedEvents_enveloped joined.later_enveloped]
  rfl

include joined in
private theorem Joined.later_after :
    ∀ event ∈ numberedEvents 0 later, state.through < event.1 ∧
      ∀ state, event.2 ≠ .recoveryCheckpoint state := by
  rw [numberedEvents_enveloped joined.later_enveloped]
  intro event listed
  obtain ⟨record, member, rfl⟩ := List.mem_map.mp listed
  have sorted : (state.through :: later.map fun record => record.sequence.getD 0).Pairwise (· < ·) :=
    (joined.continued.imp fun a b next => by omega).pairwise
  exact ⟨List.rel_of_pairwise_cons sorted (List.mem_map_of_mem member),
    joined.chain'.plain rfl record member⟩

include lenient built joined in
/-- The structure in the checkpoint is the one that the stream leads to. -/
private theorem Joined.recovered :
    standing none ((numberedEvents 0 records).foldl (recoverEvent none) none) = state.recovered := by
  obtain ⟨snapshot, recovered, same⟩ := built.recovered
  have contiguous : (numbered 0 records).IsChain fun a b => b = a + 1 := by
    have whole := joined.contiguous
    rw [numbered_enveloped joined.enveloped, List.map_append] at whole
    rw [numbered_enveloped joined.records_enveloped]
    exact whole.left_of_append
  rw [recoverSnapshot, recoverSnapshot_eq lenient joined.held joined.chain (.inr rfl)
    (stepwise_of_chain (numbered_le joined.held 0) contiguous)] at recovered
  split at recovered
  · cases recovered
  · rw [same, ← Except.ok.inj recovered]
    exact (fromSnapshot_restoreFrom _).symm

include lenient joined replaced in
/-- Where both stand at one tree before the suffix, they restore the same. -/
private theorem restored_replaced {snapshot : Option Snapshot}
    (distinct : ∀ held ∈ snapshot, held.DistinctPanes)
    (early : (snapshot.map (·.eventSequence)).getD 0 < state.through)
    (same : standing snapshot (recoverEvent snapshot none (state.through, .recoveryCheckpoint state)) =
      standing snapshot ((numberedEvents 0 records).foldl (recoverEvent snapshot) none)) :
    (recoverSnapshot codec name' compacted snapshot).map (Option.map Snapshot.restored) =
      (recoverSnapshot codec name' (stream ++ suffix) snapshot).map (Option.map Snapshot.restored) := by
  rw [joined.recovery lenient, replaced.recovery lenient joined]
  split
  · rfl
  · have after : ∀ event ∈ numberedEvents 0 later,
        (snapshot.map (·.eventSequence)).getD 0 < event.1 :=
      fun event listed => early.trans (joined.later_after event listed).1
    have plain : ∀ event ∈ numberedEvents 0 later, ∀ state, event.2 ≠ .recoveryCheckpoint state :=
      fun event listed => (joined.later_after event listed).2
    simp only [Except.map, restored_standing distinct]
    rw [standing_foldl after plain, standing_foldl after plain, same]

include joined in
/-- A stream that projects the Workspace leads to a structure. -/
private theorem Joined.projected {record : DecodedRecord} {tree : StructuralProjection}
    (member : record ∈ records) (event : record.event = .workspaceProjected tree)
    (positive : record.sequence ≠ some 0) :
    (standing none ((numberedEvents 0 records).foldl (recoverEvent none) none)).isSome := by
  obtain ⟨before, after, rfl⟩ := List.append_of_mem member
  have enveloped := joined.records_enveloped
  obtain ⟨sequence, given⟩ := Option.isSome_iff_exists.mp (enveloped record member).1
  have named := (enveloped record member).2
  have above : ¬ (some sequence).getD 0 ≤ ((none : Option Snapshot).map (·.eventSequence)).getD 0 := by
    intro small
    rw [given, show sequence = 0 from Nat.le_zero.mp small] at positive
    exact positive rfl
  have plain : ∀ other ∈ after, ∀ state, other.event ≠ .recoveryCheckpoint state := by
    obtain ⟨middle, _, chain⟩ := joined.chain.append
    obtain _ | ⟨step, chain⟩ := chain
    refine chain.plain ?_
    exact (OwnershipChain.cons step .nil).isSome_of_enveloped named
  rw [numberedEvents_enveloped enveloped, List.map_append, List.map_cons, List.foldl_append,
    List.foldl_cons, given, event]
  apply standing_kept
  · intro other listed
    obtain ⟨source, member, rfl⟩ := List.mem_map.mp listed
    exact plain source member
  · rw [recoverEvent, if_neg above, standing_apply (by simp)]
    rfl

include lenient built joined replaced in
/-- With a snapshot of the log's structure the same content returns to the same tree. -/
private theorem recoverSnapshot_replaced {snapshot : Snapshot} (distinct : snapshot.DistinctPanes)
    {record : DecodedRecord} {tree : StructuralProjection} (member : record ∈ records)
    (event : record.event = .workspaceProjected tree) (positive : record.sequence ≠ some 0)
    (agrees : ∀ tree, structureAt snapshot.eventSequence (records ++ later) = some tree →
      StructuralProjection.fromSnapshot snapshot = tree) :
    (recoverSnapshot codec name' compacted (some snapshot)).map (Option.map Snapshot.restored) =
      (recoverSnapshot codec name' (stream ++ suffix) (some snapshot)).map
        (Option.map Snapshot.restored) := by
  have inside : ∀ event ∈ numberedEvents 0 records, event.1 ≤ state.through := by
    rw [numberedEvents_enveloped joined.records_enveloped]
    intro event listed
    obtain ⟨source, member, rfl⟩ := List.mem_map.mp listed
    exact joined.inside source member
  by_cases early : snapshot.eventSequence < state.through
  · have distinct_ : ∀ held ∈ some snapshot, held.DistinctPanes := by simpa using distinct
    apply restored_replaced lenient joined replaced distinct_ early
    obtain ⟨reached, stands⟩ := Option.isSome_iff_exists.mp (joined.projected member event positive)
    have recovered := joined.recovered lenient built
    rw [stands] at recovered
    have checkpoint : standing (some snapshot)
        (recoverEvent (some snapshot) none (state.through, .recoveryCheckpoint state)) =
        some reached := by
      have open_ : ¬ state.through ≤ ((some snapshot).map (·.eventSequence)).getD 0 :=
        Nat.not_le.mpr early
      rw [recoverEvent, if_neg open_, Recovery.apply, ← recovered]
      rfl
    rw [checkpoint]
    symm
    have contiguous : ((numberedEvents 0 records).map (·.1)).IsChain fun a b => b = a + 1 := by
      have whole := joined.contiguous
      rw [numbered_enveloped joined.enveloped, List.map_append] at whole
      rw [numberedEvents_enveloped joined.records_enveloped, List.map_map]
      exact whole.left_of_append
    obtain ⟨before, after, cut, low, high⟩ := exists_cut snapshot.eventSequence contiguous
    have projected : structureAt snapshot.eventSequence (records ++ later) =
        standing none (before.foldl (recoverEvent none) none) := by
      have late : ∀ event ∈ numberedEvents 0 later, snapshot.eventSequence < event.1 :=
        fun event listed => early.trans (joined.later_after event listed).1
      have events : numberedEvents 0 (records ++ later) = before ++ (after ++ numberedEvents 0 later) := by
        rw [← List.append_assoc, ← cut, numberedEvents_enveloped joined.enveloped,
          numberedEvents_enveloped joined.records_enveloped,
          numberedEvents_enveloped joined.later_enveloped, List.map_append]
      have kept : (numberedEvents 0 (records ++ later)).filter
          (fun event => event.1 ≤ snapshot.eventSequence) = before := by
        rw [events, List.filter_append, List.filter_eq_self.mpr (by simpa using low),
          List.filter_eq_nil_iff.mpr, List.append_nil]
        intro event listed
        rcases List.mem_append.mp listed with listed | listed
        · simpa using high event listed
        · simpa using late event listed
      rw [structureAt, kept, standing, Option.map_none, Option.or_none]
    have passed : before.foldl (recoverEvent (some snapshot)) none = none := recoverEvent_before low
    rw [cut, List.foldl_append, passed]
    rw [cut, List.foldl_append] at stands
    refine standing_follows high ?_ reached stands
    intro old found
    rw [← projected] at found
    exact congrArg some (agrees old found)
  · have late : state.through ≤ snapshot.eventSequence := Nat.not_lt.mp early
    have passed : (numberedEvents 0 records).foldl (recoverEvent (some snapshot)) none = none :=
      recoverEvent_before fun event listed => (inside event listed).trans late
    have passed' : recoverEvent (some snapshot) none (state.through, .recoveryCheckpoint state) = none :=
      if_pos late
    rw [joined.recovery lenient, replaced.recovery lenient joined, passed, passed']

/-- One line that reads back as the envelope it was written from. -/
structure Written (codec : Codec) (line : Bytes) (envelope : EventEnvelope) : Prop where
  free : newline ∉ line
  decodes : ∃ text plain, fromUtf8 line = some text ∧ codec.decodeLine text = some plain ∧
    codec.envelope plain = some envelope

private theorem Written.record {line : Bytes}
    (written : Written codec line (checkpointEnvelope name state)) :
    recordOf codec (line ++ [newline]) = some (checkpointRecord name state) := by
  obtain ⟨text, plain, read, opened, envelope⟩ := written.decodes
  have decoded : decodeRecordStrict codec text = .ok (checkpointRecord name state) := by
    rw [decodeRecordStrict, opened]
    dsimp only
    rw [decodePlain, envelope]
    rfl
  rw [recordOf, List.getLast?_concat, if_pos rfl, List.dropLast_concat, read, Option.bind_some, decoded]

/-- What recovery reads from two streams: every projection with its allocators, bindings from a
cursor on, and the tree with a snapshot's content. -/
structure SameRecovery (codec : Codec) (archives : Archives) (name : String) (through : ℕ)
    (compacted whole : Bytes) : Prop where
  tasks : replayTasks codec name compacted {} = replayTasks codec name whole {}
  waiting : replayWaiting codec name compacted {} = replayWaiting codec name whole {}
  instructions : replayInstructions codec name compacted {} = replayInstructions codec name whole {}
  runGraph : replayRunGraph codec name compacted 0 .new = replayRunGraph codec name whole 0 .new
  artifacts : replayArtifacts codec name compacted 0 {} = replayArtifacts codec name whole 0 {}
  runs : replayOrchestrations codec name compacted = replayOrchestrations codec name whole
  invocations : ∀ cursor, through ≤ cursor →
    replayInvocations codec archives name compacted cursor =
      replayInvocations codec archives name whole cursor
  sequence : nextSequence codec compacted = nextSequence codec whole
  tree : (recoverSnapshot codec name compacted none).map (Option.map Snapshot.restored) =
    (recoverSnapshot codec name whole none).map (Option.map Snapshot.restored)
  content : ∀ snapshot : Snapshot, snapshot.DistinctPanes →
    (∀ records, Records codec whole records →
      ∀ tree, structureAt snapshot.eventSequence records = some tree →
        StructuralProjection.fromSnapshot snapshot = tree) →
    (recoverSnapshot codec name compacted (some snapshot)).map (Option.map Snapshot.restored) =
      (recoverSnapshot codec name whole (some snapshot)).map (Option.map Snapshot.restored)

/-- The stream projects the Workspace at a sequence that is not zero. -/
def Projects (codec : Codec) (bytes : Bytes) : Prop :=
  ∃ records, Records codec bytes records ∧ ∃ record ∈ records, record.sequence ≠ some 0 ∧
    ∃ tree, record.event = .workspaceProjected tree

/-- Putting the checkpoint in the place of the stream changes nothing that recovery reads, whatever
is appended afterwards. -/
theorem compact_invisible (lenient : codec.Lenient) (hashes : codec.Hashes)
    (checkpoint : compact codec archives name stream = .ok (some state))
    (recoverable : Recoverable codec (stream ++ suffix) name')
    (enveloped : ∀ records, Records codec (stream ++ suffix) records → Enveloped records)
    (projects : Projects codec stream) {line : Bytes}
    (written : Written codec line (checkpointEnvelope name state)) :
    SameRecovery codec archives name' state.through (line ++ [newline] ++ suffix)
      (stream ++ suffix) := by
  have built := compact_built checkpoint
  obtain ⟨records, later, joined⟩ := joined_of_built lenient built recoverable enveloped
  have replaced := joined.replaced (built.valid hashes) written.free written.record
  constructor
  case tasks =>
    apply forEachRecord_replaced lenient joined replaced
    exact (Except.ok.inj ((joined.forEach lenient replayTask {}).1.symm.trans built.tasks)).symm
  case waiting =>
    apply forEachRecord_replaced lenient joined replaced
    exact (Except.ok.inj
      ((joined.forEach lenient replayWaitingRecord {}).1.symm.trans built.waiting)).symm
  case instructions =>
    apply forEachRecord_replaced lenient joined replaced
    exact (Except.ok.inj
      ((joined.forEach lenient replayInstruction {}).1.symm.trans built.instructions)).symm
  case runGraph =>
    exact replayCursored_replaced lenient joined replaced built.runGraph rfl built.positive
  case artifacts =>
    exact replayCursored_replaced lenient joined replaced built.artifacts rfl built.positive
  case runs => exact replayOrchestrations_replaced lenient joined replaced built.runs
  case invocations =>
    intro cursor further
    exact replayInvocations_replaced lenient joined replaced built.invocations further
  case sequence => exact nextSequence_replaced lenient joined replaced
  case tree =>
    have recovered := joined.recovered lenient built
    refine restored_replaced lenient joined replaced (by simp) (Nat.pos_of_ne_zero built.positive) ?_
    have open_ : ¬ state.through ≤ ((none : Option Snapshot).map (·.eventSequence)).getD 0 :=
      Nat.not_le.mpr (Nat.pos_of_ne_zero built.positive)
    rw [recovered, recoverEvent, if_neg open_, Recovery.apply]
    cases state.recovered <;> rfl
  case content =>
    intro snapshot distinct agrees
    obtain ⟨records', held, record, member, positive, tree, event⟩ := projects
    obtain rfl := joined.held.unique held
    exact recoverSnapshot_replaced lenient built joined replaced distinct member event positive
      (agrees _ joined.joined)

/-- The tree of a Workspace with one Project. -/
def plainTree : StructuralProjection :=
  { activeWindow := 0, nextPaneId := 1, activeProject := 1, nextProjectId := 2
    projects := [{ id := 1, name := "p", root := "/p", activePane := none, metadata := [] }], windows := [] }

def plainTreeText : List String :=
  ["\x7b\"active_window\":0,", "\"next_pane_id\":1,", "\"active_project\":1,", "\"next_project_id\":2,",
    "\"projects\":[\x7b\"id\":1,", "\"name\":\"p\",\"root\":\"/p\",", "\"active_pane\":null,", "\"metadata\":[]\x7d],",
    "\"windows\":[]\x7d"]

/-- The JSON line of an event, whose text is given in pieces. -/
def eventLine (sequence : ℕ) (owner : String) (event : List String) : Text :=
  (["\x7b\"version\":10,", "\"sequence\":", toString sequence, ",\"timestamp_ms\":0,", "\"workspace\":\"", owner,
    "\",\"event\":"] ++ event).flatMap String.toList ++ ['\x7d']

/-- A Workspace gets a Project and a Task, a new name, and a run of the Task. -/
def recorded : List (Text × EventEnvelope) :=
  [(eventLine 1 "v" (["\x7b\"WorkspaceProjected\":", "\x7b\"state\":"] ++ plainTreeText ++ ["\x7d\x7d"]),
      ⟨10, 1, 0, "v", .workspaceProjected plainTree⟩),
    (eventLine 2 "v" ["\x7b\"TaskCreated\":", "\x7b\"id\":1,\"title\":\"t\",", "\"status\":\"Todo\"\x7d\x7d"],
      ⟨10, 2, 0, "v", .taskCreated 1 "t" .todo⟩),
    (eventLine 3 "v" ["\x7b\"WorkspaceRenamed\":", "\x7b\"old\":\"v\",\"new\":\"w\"\x7d\x7d"],
      ⟨10, 3, 0, "v", .workspaceRenamed "v" "w"⟩),
    (eventLine 4 "w" ["\x7b\"RunGraph\":\x7b\"change\":", "\x7b\"created\":\x7b\"run\":1,",
        "\"parent\":null,\"project\":1,", "\"kind\":\"workflow\",", "\"task_id\":1,\"title\":\"t\"",
        "\x7d\x7d\x7d\x7d"],
      ⟨10, 4, 0, "w", .runGraph (.created 1 none 1 .workflow 1 "t")⟩)]

/-- A window that is opened later. -/
def windowed : List (Text × EventEnvelope) := [(windowLine 5, ⟨10, 5, 0, "w", windowNew⟩)]

/-- What is read of an envelope. -/
def EventEnvelope.decoded (e : EventEnvelope) : DecodedRecord := ⟨some e.sequence, some e.workspace, e.event⟩

def recordedBytes : Bytes := recorded.flatMap fun entry => lineBytes entry.1

/-- The hash of the recorded lines, in pieces. -/
def recordedDigits : List String :=
  ["1566a66e4c5863dd", "e7deff006bc86211", "b41ef58cbcaa857e", "337f67f9d11ca11b"]

def recordedHash : Text := recordedDigits.flatMap String.toList

def recordedCheckpoint : RecoveryCheckpoint where
  version := 1
  through := 4
  archive := { file := "events-4.log".toList, sha256 := recordedHash }
  recovered := some plainTree
  tasks := { tasks := [{ id := 1, title := "t", status := .todo, updated := 2 }], nextId := 2 }
  waiting := {}
  instructions := {}
  runGraph := (RunGraph.new.apply (.created 1 none 1 .workflow 1 "t")).1
  artifacts := {}
  runs := []
  invocations := ∅

/-- The checkpoint's JSON line; the run graph and the ledger are hexadecimal images of maps and allocators. -/
def checkpointLine : Text :=
  let one := "0100000000000000"
  let zeros := "0000000000000000"
  eventLine 4 "w" (["\x7b\"RecoveryCheckpoint\":", "\x7b\"state\":\x7b\"version\":1,", "\"through\":4,\"archive\":",
      "\x7b\"file\":\"events-4.log\",", "\"sha256\":\""] ++ recordedDigits ++ ["\"\x7d,\"structure\":"] ++
    plainTreeText ++ [",\"tasks\":\x7b\"tasks\":[", "\x7b\"id\":1,\"title\":\"t\",", "\"status\":\"Todo\",",
      "\"notes\":\"\",\"context\":", "\x7b\"project\":null,", "\"pane\":null,", "\"invocation\":null,",
      "\"source_task\":null,", "\"provider\":null,", "\"prompt\":null,", "\"model\":null,", "\"profile\":null,",
      "\"workflow\":null,", "\"relay\":false,", "\"role_providers\":[]\x7d,", "\"updated\":2\x7d],\"next_id\":2\x7d,",
      "\"waiting\":\x7b\"items\":[],", "\"next_id\":1\x7d,", "\"instructions\":", "\x7b\"items\":[],\"next_id\":1,",
      "\"next_delivery_id\":1\x7d,", "\"run_graph\":\"", one, one, one, "00", one, "00000000", one, one, "740000000000",
      zeros, zeros, zeros, zeros, zeros, one, one, one, one, one, one, one, "0200000000000000", one, one,
      "\",\"artifacts\":\"", zeros, zeros, zeros, zeros, zeros, one, "\",\"runs\":[],",
      "\"invocations\":\x7b\x7d\x7d\x7d\x7d"])

def recordedTable : List (Text × EventEnvelope) :=
  recorded ++ windowed ++ [(checkpointLine, checkpointEnvelope "w" recordedCheckpoint)]

/-- The JSON library and the hash on these lines. -/
def recordedCodec : Codec :=
  { tableCodec recordedTable (bareLine, windowNew) (by decide) with
    sha256 := fun _ => recordedHash }

private theorem recordedCodec_lenient : recordedCodec.Lenient := by
  have filled : ∀ entry ∈ recordedTable, entry.1 ≠ [] := by decide
  have table := tableCodec_lenient (bareLine, windowNew) (by decide) filled
  exact ⟨table.empty, table.sealedField, table.envelope, table.versionField, table.legacy⟩

/-- A printable ASCII line. -/
private def Printable (text : Text) : Prop := ∀ c ∈ text, c.toNat < 128 ∧ c ≠ '\n'

private theorem printable_of_all {text : Text} (all : text.all (fun c => decide (c.toNat < 128 ∧ c ≠ '\n')) = true) :
    Printable text := fun c member => of_decide_eq_true (List.all_eq_true.mp all c member)

private theorem fromUtf8_printable {text : Text} (printable : Printable text) :
    fromUtf8 (text.map fun c => UInt8.ofNat c.toNat) = some text := by
  induction text using List.reverseRecOn with
  | nil => rfl
  | append_singleton text c ih =>
    have low : c.toNat < 128 := (printable c (by simp)).1
    have byte : (UInt8.ofNat c.toNat).toNat = c.toNat := by
      rw [UInt8.toNat_ofNat', Nat.mod_eq_of_lt (by omega)]
    have ascii : (UInt8.ofNat c.toNat).toNat < 0x80 := byte.symm ▸ low
    rw [List.map_append, List.map_singleton, fromUtf8_append ascii,
      ih fun other listed => printable other (List.mem_append_left _ listed), byte, Char.ofNat_toNat]
    rfl

private theorem newline_notMem_printable {text : Text} (printable : Printable text) :
    newline ∉ text.map fun c => UInt8.ofNat c.toNat := by
  intro member
  obtain ⟨c, listed, same⟩ := List.mem_map.mp member
  have low : c.toNat < 128 := (printable c listed).1
  have code := congrArg UInt8.toNat same
  rw [UInt8.toNat_ofNat', Nat.mod_eq_of_lt (by omega)] at code
  apply (printable c listed).2
  rw [← Char.ofNat_toNat c, code]
  rfl

/-- The record of an ASCII line, and what follows it. -/
private theorem Records.line {text : Text} (printable : Printable text) {record : DecodedRecord}
    {rest : Bytes} {others : List DecodedRecord}
    (decoded : decodeRecordStrict codec text = .ok record) (held : Records codec rest others) :
    Records codec (lineBytes text ++ rest) (record :: others) := by
  rw [Records, lineBytes, chunks_line (newline_notMem_printable printable)]
  refine .cons ?_ held
  rw [recordOf, List.getLast?_concat, if_pos rfl, List.dropLast_concat, fromUtf8_printable printable,
    Option.bind_some, decoded]

/-- Lines that are read one by one. -/
private theorem records_lines {entries : List (Text × EventEnvelope)}
    (read : ∀ entry ∈ entries, Printable entry.1 ∧ decodeRecordStrict codec entry.1 = .ok entry.2.decoded) :
    Records codec (entries.flatMap fun entry => lineBytes entry.1) (entries.map fun entry => entry.2.decoded) := by
  induction entries with
  | nil => exact .nil
  | cons entry rest ih =>
    rw [List.forall_mem_cons] at read
    rw [List.flatMap_cons, List.map_cons]
    exact Records.line read.1.1 read.1.2 (ih read.2)

private theorem recordedTable_plain : ∀ entry ∈ recordedTable,
    entry.1.all (fun c => decide (c.toNat < 128 ∧ c ≠ '\n')) = true ∧
      Codec.sealedMarker.isPrefixOf entry.1 = false ∧ 1 ≤ entry.2.version ∧ entry.2.version ≤ eventVersion := by
  decide +kernel

private theorem recordedTable_trimmed {entry : Text × EventEnvelope} (member : entry ∈ recordedTable) :
    trimLineEnd entry.1 = entry.1 := by
  have closed (front : Text) : trimLineEnd (front ++ ['\x7d']) = front ++ ['\x7d'] :=
    trimLineEnd_of_getLast List.getLast?_concat (by simp [lineEnd])
  simp only [recordedTable, recorded, windowed, List.cons_append, List.nil_append, List.mem_cons, List.not_mem_nil,
    or_false] at member
  obtain rfl | rfl | rfl | rfl | rfl | rfl := member
  · exact closed _
  · exact closed _
  · exact closed _
  · exact closed _
  · decide +kernel
  · exact closed _

/-- The codec reads the lines of its table. -/
private theorem recordedTable_found {entry : Text × EventEnvelope} (member : entry ∈ recordedTable) :
    recordedCodec.decodeLine entry.1 = some entry.1 ∧ recordedCodec.envelope entry.1 = some entry.2 := by
  have distinct : (recordedTable.map Prod.fst).Nodup := by decide +kernel
  refine ⟨?_, tableCodec_envelope (bareLine, windowNew) (by decide) distinct member (recordedTable_trimmed member)⟩
  rw [Codec.decodeLine, (recordedTable_plain entry member).2.1]
  rfl

private theorem recordedTable_read {entry : Text × EventEnvelope} (member : entry ∈ recordedTable) :
    Printable entry.1 ∧ decodeRecordStrict recordedCodec entry.1 = .ok entry.2.decoded := by
  obtain ⟨ascii, -, known⟩ := recordedTable_plain entry member
  obtain ⟨opened, found⟩ := recordedTable_found member
  refine ⟨printable_of_all ascii, ?_⟩
  rw [decodeRecordStrict, opened]
  change decodePlain recordedCodec entry.1 = _
  rw [decodePlain, found]
  exact if_pos known

private theorem recorded_chain {rest : List DecodedRecord} (chain : OwnershipChain (some "w") rest (some "w")) :
    OwnershipChain none ((recorded.map fun entry => entry.2.decoded) ++ rest) (some "w") := by
  have first : OwnerStep none (EventEnvelope.decoded ⟨10, 1, 0, "v", .workspaceProjected plainTree⟩) (some "v") :=
    .owned nofun rfl nofun nofun
  have second : OwnerStep (some "v") (EventEnvelope.decoded ⟨10, 2, 0, "v", .taskCreated 1 "t" .todo⟩) (some "v") :=
    .owned nofun rfl (fun _ same => (Option.some.inj same).symm) nofun
  have third : OwnerStep (some "v") (EventEnvelope.decoded ⟨10, 3, 0, "v", .workspaceRenamed "v" "w"⟩) (some "w") :=
    .renamed nofun rfl (fun _ same => (Option.some.inj same).symm) rfl (by decide)
  have fourth : OwnerStep (some "w") (EventEnvelope.decoded ⟨10, 4, 0, "w",
      .runGraph (.created 1 none 1 .workflow 1 "t")⟩) (some "w") :=
    .owned nofun rfl (fun _ same => (Option.some.inj same).symm) nofun
  exact .cons first (.cons second (.cons third (.cons fourth chain)))

private theorem recorded_records : Records recordedCodec recordedBytes (recorded.map fun entry => entry.2.decoded) :=
  records_lines fun _ member => recordedTable_read (List.mem_append_left _ (List.mem_append_left _ member))

/-- Plain lines have a hash. -/
private theorem digest_lines {entries : List (Text × EventEnvelope)}
    (read : ∀ entry ∈ entries, Printable entry.1 ∧ codec.decodeLine (trimLineEnd (entry.1 ++ ['\n'])) = some entry.1) :
    ∃ text, digest codec (entries.flatMap fun entry => lineBytes entry.1) = .ok (codec.sha256 text) := by
  induction entries with
  | nil => exact ⟨[], rfl⟩
  | cons entry rest ih =>
    rw [List.forall_mem_cons] at read
    obtain ⟨text, hashed⟩ := ih read.2
    obtain ⟨lines, mapped, -⟩ := bind_ok.mp hashed
    have line : fromUtf8 ((entry.1.map fun c => UInt8.ofNat c.toNat) ++ [newline]) = some (entry.1 ++ ['\n']) := by
      rw [fromUtf8_append (by decide), fromUtf8_printable read.1.1]
      rfl
    refine ⟨((trimLineEnd entry.1 ++ ['\n']) :: lines).flatten, bind_ok.mpr ⟨_, ?_, rfl⟩⟩
    rw [List.flatMap_cons, lineBytes, chunks_line (newline_notMem_printable read.1.1), List.mapM_cons]
    refine bind_ok.mpr ⟨_, ?_, bind_ok.mpr ⟨lines, mapped, rfl⟩⟩
    rw [line]
    dsimp only
    rw [if_neg (by simp), read.1.2]
    rfl

private theorem recorded_digest :
    digest recordedCodec recordedBytes = .ok recordedHash := by
  have plain : ∀ entry ∈ recorded, Printable entry.1 ∧
      recordedCodec.decodeLine (trimLineEnd (entry.1 ++ ['\n'])) = some entry.1 := by
    intro entry listed
    have member : entry ∈ recordedTable := List.mem_append_left _ (List.mem_append_left _ listed)
    refine ⟨(recordedTable_read member).1, ?_⟩
    rw [trimLineEnd_concat entry.1 (.inr rfl), recordedTable_trimmed member]
    exact (recordedTable_found member).1
  obtain ⟨text, hashed⟩ := digest_lines plain
  exact hashed

private theorem compact_recorded :
    compact recordedCodec (fun _ => none) "w" recordedBytes = .ok (some recordedCheckpoint) := by
  have lenient := recordedCodec_lenient
  have held := recorded_records
  have chain : OwnershipChain none (recorded.map fun entry => entry.2.decoded) (some "w") :=
    List.append_nil (recorded.map fun entry => entry.2.decoded) ▸ recorded_chain .nil
  have contiguous : (numbered 0 (recorded.map fun entry => entry.2.decoded)).IsChain fun a b => b = a + 1 := by decide
  have enveloped : Enveloped (recorded.map fun entry => entry.2.decoded) := by
    intro record member
    obtain ⟨entry, -, rfl⟩ := List.mem_map.mp member
    exact ⟨rfl, rfl⟩
  have each {σ : Type} (apply : σ → DecodedRecord → σ) (init : σ) :
      forEachRecord recordedCodec recordedBytes (some "w") apply init =
        .ok ((recorded.map fun entry => entry.2.decoded).foldl apply init) :=
    forEachRecord_chain lenient held chain (.inr rfl) init
  have next : nextSequence recordedCodec recordedBytes = 5 := (nextSequence_records lenient held).trans (by decide)
  have full : consistentPrefixLen recordedCodec recordedBytes "w" = .ok recordedBytes.length := by
    have recoverable : Recoverable recordedCodec recordedBytes "w" := ⟨_, _, held, contiguous, chain, .inr rfl⟩
    have kept := recoverable.kept_torn List.not_mem_nil
    rwa [List.append_nil] at kept
  have runGraph : replayRunGraph recordedCodec "w" recordedBytes 0 .new = .ok recordedCheckpoint.runGraph := by
    rw [replayRunGraph, replayCursored, each]
    rfl
  have artifacts : replayArtifacts recordedCodec "w" recordedBytes 0 {} = .ok recordedCheckpoint.artifacts := by
    rw [replayArtifacts, replayCursored, each]
    rfl
  have runs : replayOrchestrations recordedCodec "w" recordedBytes = .ok recordedCheckpoint.runs := by
    rw [replayOrchestrations, each]
    rfl
  have invocations : replayInvocations recordedCodec (fun _ => none) "w" recordedBytes 4 =
      .ok recordedCheckpoint.invocations :=
    replayInvocations_cons lenient held chain rfl enveloped (by decide)
  have recovered : ∃ snapshot, recoverSnapshot recordedCodec "w" recordedBytes none = .ok snapshot ∧
      recordedCheckpoint.recovered = snapshot.map StructuralProjection.fromSnapshot := by
    rw [recoverSnapshot, recoverSnapshotReaderScoped, each]
    exact ⟨_, rfl, rfl⟩
  have built : Built recordedCodec (fun _ => none) "w" recordedBytes recordedCheckpoint :=
    { full, runGraph, artifacts, runs, invocations, recovered, through := by rw [next]; rfl, positive := by decide
      version := rfl, file := rfl, hashed := ⟨[], rfl⟩, tasks := each .., waiting := each .., instructions := each .. }
  exact built.compact (checkpointHeader_cons lenient held) recorded_digest

/-- A window opened after a Task, a rename and a run: recovery is the same from the checkpoint. -/
theorem compact_invisible_recorded :
    SameRecovery recordedCodec (fun _ => none) "w" 4 (lineBytes checkpointLine ++ windowBytes 5)
      (recordedBytes ++ windowBytes 5) := by
  have checkpointed : (checkpointLine, checkpointEnvelope "w" recordedCheckpoint) ∈ recordedTable :=
    List.mem_append_right _ List.mem_cons_self
  have printable := (recordedTable_read checkpointed).1
  obtain ⟨opened, found⟩ := recordedTable_found checkpointed
  have all : Records recordedCodec (recordedBytes ++ windowBytes 5)
      ((recorded ++ windowed).map fun entry => entry.2.decoded) := by
    have lines := records_lines fun _ member => recordedTable_read (List.mem_append_left _ member)
    rwa [List.flatMap_append] at lines
  have chain : OwnershipChain none ((recorded ++ windowed).map fun entry => entry.2.decoded) (some "w") := by
    rw [List.map_append]
    exact recorded_chain (.cons (.owned nofun rfl (fun _ same => (Option.some.inj same).symm) nofun) .nil)
  have hashes : recordedCodec.Hashes := fun _ =>
    (by decide +kernel : recordedHash.len = 64 ∧ recordedHash.all RecoveryCheckpoint.hexDigit = true)
  refine compact_invisible recordedCodec_lenient hashes compact_recorded
    ⟨_, some "w", all, by decide, chain, .inr rfl⟩ ?_
    ⟨_, recorded_records, _, List.mem_cons_self, by decide, plainTree, rfl⟩
    ⟨newline_notMem_printable printable, checkpointLine, checkpointLine, fromUtf8_printable printable, opened, found⟩
  intro records held record member
  obtain rfl := all.unique held
  obtain ⟨entry, -, rfl⟩ := List.mem_map.mp member
  exact ⟨rfl, rfl⟩

end Recovering

end Uniterm.Model.EventLog
