import Uniterm.Soundness.EventLog.Repair

/-! # Historical readers against recovery

The historical visitor has its own decoder. It gives a bare record the name the stream is read
under, where recovery leaves the owner open: on a stream of one segment that recovery accepts in
full, the two agree unless a bare record stands before a record of another owner.
-/

namespace Uniterm.Model.EventLog

variable {codec : Codec}

section Visitor

/-- The name a record's owner has afterwards. -/
def ownerAfter (event : LogEvent) (workspace : String) : String :=
  match event with
  | .workspaceRenamed _ new => new
  | _ => workspace

private theorem ownerAfter_kept {event : LogEvent}
    (kept : ∀ old new, event ≠ .workspaceRenamed old new) (workspace : String) :
    ownerAfter event workspace = workspace := by
  unfold ownerAfter
  split
  · next old new => exact absurd rfl (kept old new)
  · rfl

private theorem Visit.rename_ok {current owner : String} {event : LogEvent} :
    Visit.rename current event = .ok owner ↔
      (∀ old new, event = .workspaceRenamed old new → old = current ∧ old ≠ new) ∧
      owner = ownerAfter event current := by
  unfold Visit.rename
  split
  · next old new =>
    split
    · next refused =>
      constructor
      · intro impossible
        cases impossible
      · rintro ⟨allowed, _⟩
        obtain ⟨same, changes⟩ := allowed old new rfl
        exact absurd refused (by simp [same.symm, changes])
    · next allowed =>
      rw [not_or, not_not] at allowed
      constructor
      · rintro ⟨⟩
        refine ⟨?_, rfl⟩
        rintro _ _ ⟨⟩
        exact allowed
      · rintro ⟨_, rfl⟩
        rfl
  · next other =>
    rw [ownerAfter_kept other]
    constructor
    · rintro ⟨⟩
      exact ⟨fun old new renames => absurd renames (other old new), rfl⟩
    · rintro ⟨_, rfl⟩
      rfl

/-- One envelope that the visitor accepts. -/
private theorem Visit.step_ok {visit next : Visit} {synthetic : ℕ} {envelope : EventEnvelope} :
    visit.step synthetic envelope = .ok next ↔
      (∀ owner, visit.owner = some owner → owner = envelope.workspace) ∧
      (∀ old new, envelope.event = .workspaceRenamed old new →
        old = envelope.workspace ∧ old ≠ new) ∧
      Follows visit.previous envelope.sequence ∧
      next = ⟨envelope.sequence, synthetic, some (ownerAfter envelope.event envelope.workspace)⟩ := by
  have mine : (∀ owner, visit.owner = some owner → owner = envelope.workspace) ↔
      visit.owner.getD envelope.workspace = envelope.workspace := by
    cases visit.owner <;> simp
  unfold Visit.step
  dsimp only
  by_cases own : visit.owner.getD envelope.workspace = envelope.workspace
  · rw [if_neg (not_not.mpr own), own]
    split
    · next fault renamed =>
      constructor
      · intro impossible
        cases impossible
      · rintro ⟨_, allowed, _⟩
        have accepted : Visit.rename envelope.workspace envelope.event =
            .ok (ownerAfter envelope.event envelope.workspace) := Visit.rename_ok.mpr ⟨allowed, rfl⟩
        rw [accepted] at renamed
        cases renamed
    · next owner renamed =>
      obtain ⟨allowed, rfl⟩ := Visit.rename_ok.mp renamed
      split
      · next gap =>
        constructor
        · intro impossible
          cases impossible
        · rintro ⟨_, _, follows, _⟩
          exact absurd (follows gap.1) gap.2
      · next open_ =>
        constructor
        · rintro ⟨⟩
          exact ⟨mine.mpr own, allowed, fun positive => by_contra fun gap => open_ ⟨positive, gap⟩, rfl⟩
        · rintro ⟨_, _, _, rfl⟩
          rfl
  · rw [if_pos own]
    constructor
    · intro impossible
      cases impossible
    · rintro ⟨owned, _⟩
      exact absurd (mine.mp owned) own

/-- The visitor's decoder agrees with recovery's, but for the owner of bare records. -/
private theorem Visit.decode_record {line : Text} {record : DecodedRecord}
    (decoded : decodeRecordStrict codec line = .ok record) (name : String) (synthetic : ℕ) :
    ∃ envelope, Visit.decode codec name synthetic line = .ok envelope ∧
      envelope.sequence = record.sequence.getD synthetic ∧
      envelope.workspace = record.workspace.getD name ∧ envelope.event = record.event := by
  obtain ⟨plain, opened, decoded⟩ := decodeRecordStrict_plain decoded
  unfold decodePlain at decoded
  unfold Visit.decode
  rewrite [opened]
  dsimp only
  cases enveloped : codec.envelope plain with
  | some envelope =>
    simp only [enveloped] at decoded ⊢
    by_cases known : 1 ≤ envelope.version ∧ envelope.version ≤ eventVersion
    · rw [if_pos known] at decoded
      cases decoded
      exact ⟨envelope, if_pos known, rfl, rfl, rfl⟩
    · rw [if_neg known] at decoded
      cases decoded
  | none =>
    simp only [enveloped] at decoded ⊢
    cases versioned : codec.versionField plain with
    | some version =>
      simp only [versioned] at decoded
      cases decoded
    | none =>
      cases bare : codec.legacy plain with
      | some event =>
        simp only [versioned, bare] at decoded
        cases decoded
        exact ⟨_, rfl, rfl, rfl, rfl⟩
      | none =>
        simp only [versioned, bare] at decoded
        cases decoded

/-- The envelope of a record, as the visitor sees it. -/
private theorem Visit.run_cons (lenient : codec.Lenient) {chunk : Bytes} {record : DecodedRecord}
    (held : recordOf codec chunk = some record) (name : String) (sequence : ℕ) (through : Option ℕ)
    (visit : Visit) (rest : List (Except Fault Text)) :
    ∃ envelope : EventEnvelope,
      envelope.sequence = record.sequence.getD (saturatingAdd64 visit.synthetic 1) ∧
      envelope.workspace = record.workspace.getD name ∧ envelope.event = record.event ∧
      Visit.run codec name sequence through visit (readLine chunk :: rest) =
        match visit.step (saturatingAdd64 visit.synthetic 1) envelope with
        | .error fault => ([], .error fault)
        | .ok visit =>
          if through.any fun cursor => envelope.sequence > cursor then ([], .ok visit)
          else
            let (delivered, ended) := Visit.run codec name sequence through visit rest
            (if envelope.sequence > sequence then envelope :: delivered else delivered, ended) := by
  obtain ⟨line, read, decoded⟩ := lineOf_record lenient held
  obtain ⟨envelope, seen, same⟩ := Visit.decode_record decoded name (saturatingAdd64 visit.synthetic 1)
  refine ⟨envelope, same.1, same.2.1, same.2.2, ?_⟩
  rw [readLine, read, Visit.run]
  dsimp only
  rewrite [seen]
  rfl

end Visitor

section Agreement

/-- A bare record is not directly followed by a record of another owner. -/
def BareOwned (name : String) (a b : DecodedRecord) : Prop :=
  a.workspace = none → ∀ owner, b.workspace = some owner → owner = name

/-- A bare record stands where nobody or the reader's own name owns the stream. -/
private theorem owner_of_bare {name : String} {record : DecodedRecord} {rest : List DecodedRecord}
    {owner final : Option String} (chain : OwnershipChain owner (record :: rest) final)
    (bare : record.workspace = none) (owned : (record :: rest).IsChain (BareOwned name))
    (mine : final = none ∨ final = some name) : owner = none ∨ owner = some name := by
  induction rest generalizing record owner with
  | nil =>
    obtain _ | ⟨step, rest⟩ := chain
    cases rest
    cases step with
    | bare => exact mine
    | owned _ named => rw [bare] at named; cases named
    | renamed _ named => rw [bare] at named; cases named
  | cons next rest ih =>
    obtain ⟨link, owned⟩ := List.isChain_cons_cons.mp owned
    obtain _ | ⟨step, chain⟩ := chain
    cases step with
    | owned _ named => rw [bare] at named; cases named
    | renamed _ named => rw [bare] at named; cases named
    | bare =>
      cases workspace : next.workspace with
      | none => exact ih chain workspace owned
      | some actual =>
        obtain rfl := link bare actual workspace
        obtain _ | ⟨step, _⟩ := chain
        cases owner with
        | none => exact .inl rfl
        | some current =>
          cases step with
          | bare _ unowned => rw [workspace] at unowned; cases unowned
          | owned _ named agrees =>
            obtain rfl := Option.some.inj (workspace.symm.trans named)
            exact .inr (congrArg some (agrees current rfl))
          | renamed _ named agrees =>
            obtain rfl := Option.some.inj (workspace.symm.trans named)
            exact .inr (congrArg some (agrees current rfl))

/-- Sequences that follow one another do not fall. -/
private theorem stepwise_le {previous : ℕ} {sequences : List ℕ} (small : previous ≤ u64Max)
    (bounds : ∀ a ∈ sequences, a ≤ u64Max) (stepwise : Stepwise previous sequences) :
    ∀ a ∈ sequences, previous ≤ a := by
  induction sequences generalizing previous with
  | nil =>
    intro a member
    cases member
  | cons b sequences ih =>
    obtain ⟨follows, later⟩ := stepwise
    have next : previous ≤ b := by
      rcases Nat.eq_zero_or_pos previous with rfl | positive
      · exact Nat.zero_le b
      · rw [follows (Nat.pos_iff_ne_zero.mp positive)]
        exact Nat.le_min.mpr ⟨Nat.le_succ _, small⟩
    intro a member
    rcases List.mem_cons.mp member with rfl | after
    · exact next
    · have rest := ih (bounds b List.mem_cons_self)
        (fun a member => bounds a (List.mem_cons_of_mem _ member)) later
      exact Nat.le_trans next (rest a after)

/-- The part of a range that one record is in. -/
def inRange (sequence : ℕ) (through : Option ℕ) (numbered : ℕ × LogEvent) : Bool :=
  decide (sequence < numbered.1) && through.all fun cursor => decide (numbered.1 ≤ cursor)

/-- How far the visitor's owner follows recovery's: it is the same once recovery knows one, and
before that at most the reader's name, which the next owned record then has. -/
structure OwnersAgree (name : String) (owner seen : Option String) (rest : List DecodedRecord) :
    Prop where
  known : ∀ current, owner = some current → seen = some current
  unknown : owner = none → ∀ current, seen = some current → current = name
  next : owner = none → seen ≠ none → ∀ record more, rest = record :: more →
    ∀ workspace, record.workspace = some workspace → workspace = name

/-- One record keeps the two owners in agreement, and the visitor takes it. -/
private theorem OwnersAgree.step {name : String} {owner next seen : Option String}
    {record : DecodedRecord} {rest : List DecodedRecord} {final : Option String}
    (agree : OwnersAgree name owner seen (record :: rest)) (step : OwnerStep owner record next)
    (chain : OwnershipChain next rest final) (mine : final = none ∨ final = some name)
    (owned : (record :: rest).IsChain (BareOwned name)) :
    (∀ current, seen = some current → current = record.workspace.getD name) ∧
      (∀ old new, record.event = .workspaceRenamed old new →
        old = record.workspace.getD name ∧ old ≠ new) ∧
      OwnersAgree name next (some (ownerAfter record.event (record.workspace.getD name))) rest := by
  -- The first owned record is the reader's if a bare record stood before it.
  have named {workspace : String} (given : record.workspace = some workspace)
      (agrees : ∀ other, owner = some other → other = workspace) :
      ∀ current, seen = some current → current = workspace := by
    intro current held
    cases owner with
    | some other =>
      rw [agree.known other rfl] at held
      cases held
      exact agrees _ rfl
    | none =>
      have occupied : seen ≠ none := by
        rw [held]
        exact Option.some_ne_none current
      rw [agree.unknown rfl current held, agree.next rfl occupied record rest rfl workspace given]
  cases step with
  | bare placed unowned kept =>
    have mine' := owner_of_bare (.cons (.bare placed unowned kept) chain) unowned owned mine
    rw [unowned, Option.getD_none, ownerAfter_kept kept]
    refine ⟨?_, fun old new renames => absurd renames (kept old new), ?_, ?_, ?_⟩
    · intro current held
      rcases mine' with nobody | self
      · exact agree.unknown nobody current held
      · rw [agree.known name self] at held
        exact (Option.some.inj held).symm
    · rintro current rfl
      rcases mine' with nobody | self
      · cases nobody
      · exact self.symm
    · rintro _ current ⟨⟩
      rfl
    · rintro _ _ successor more rfl workspace given
      exact (List.isChain_cons_cons.mp owned).1 unowned workspace given
  | owned placed given agrees kept =>
    rw [given, Option.getD_some, ownerAfter_kept kept]
    refine ⟨named given agrees, fun old new renames => absurd renames (kept old new), ?_, ?_, ?_⟩
    · rintro current ⟨⟩
      rfl
    · intro nobody
      cases nobody
    · intro nobody
      cases nobody
  | renamed placed given agrees renames changes =>
    rw [given, Option.getD_some, renames]
    refine ⟨named given agrees, ?_, ?_, ?_, ?_⟩
    · rintro _ _ ⟨⟩
      exact ⟨rfl, changes⟩
    · rintro current ⟨⟩
      rfl
    · intro nobody
      cases nobody
    · intro nobody
      cases nobody

/-- The visitor delivers the records of its range. -/
private theorem Visit.run_delivers (lenient : codec.Lenient) {name : String} (sequence : ℕ)
    (through : Option ℕ) (visit : Visit) {cut : List Bytes} {records : List DecodedRecord}
    (held : List.Forall₂ (fun chunk record => recordOf codec chunk = some record) cut records)
    {owner final : Option String} (chain : OwnershipChain owner records final)
    (mine : final = none ∨ final = some name)
    (sequences : Stepwise visit.previous (numbered visit.synthetic records))
    (agree : OwnersAgree name owner visit.owner records)
    (owned : records.IsChain (BareOwned name)) :
    ∃ delivered next,
      Visit.run codec name sequence through visit (cut.map readLine) = (delivered, .ok next) ∧
      delivered.map (fun envelope => (envelope.sequence, envelope.event)) =
        (numberedEvents visit.synthetic records).filter (inRange sequence through) ∧
      (through = none → ∀ current, next.owner = some current → current = name) ∧
      (∀ cursor, through = some cursor →
        cursor ≤ (numbered visit.synthetic records).getLastD visit.previous →
        cursor ≤ next.previous) := by
  induction held generalizing owner visit with
  | nil =>
    cases chain
    refine ⟨[], visit, rfl, rfl, ?_, ?_⟩
    · intro _ current seen
      cases final with
      | none => exact agree.unknown rfl current seen
      | some other =>
        rw [agree.known other rfl] at seen
        rcases mine with nobody | self
        · cases nobody
        · rw [← Option.some.inj seen, Option.some.inj self]
    · intro cursor _ small
      exact small
  | @cons chunk record cut records first rest ih =>
    obtain _ | ⟨step, chain⟩ := chain
    obtain ⟨follows, later⟩ := sequences
    obtain ⟨envelope, number, workspace, event, ran⟩ :=
      Visit.run_cons lenient first name sequence through visit (cut.map readLine)
    obtain ⟨accepts, renames, agree'⟩ := agree.step step chain mine owned
    rw [← workspace] at accepts renames agree'
    rw [← event] at renames agree'
    rw [← number] at follows later
    have stepped : visit.step (saturatingAdd64 visit.synthetic 1) envelope = .ok _ :=
      Visit.step_ok.mpr ⟨accepts, renames, follows, rfl⟩
    rw [List.map_cons, ran, stepped]
    dsimp only
    have events : numberedEvents visit.synthetic (record :: records) =
        (envelope.sequence, envelope.event) ::
          numberedEvents (saturatingAdd64 visit.synthetic 1) records := by
      rw [number, event]
      rfl
    have last : (numbered visit.synthetic (record :: records)).getLastD visit.previous =
        (numbered (saturatingAdd64 visit.synthetic 1) records).getLastD envelope.sequence := by
      rw [number]
      exact List.getLastD_cons ..
    rw [events, last]
    split
    · next beyond =>
      obtain ⟨cursor, rfl, past⟩ : ∃ cursor, through = some cursor ∧ cursor < envelope.sequence := by
        cases through with
        | none => cases beyond
        | some cursor => exact ⟨cursor, rfl, of_decide_eq_true beyond⟩
      refine ⟨[], _, rfl, ?_, (fun absent => by cases absent), ?_⟩
      · refine (List.filter_eq_nil_iff.mpr ?_).symm
        have rising := stepwise_le (number ▸ recordOf_sequence_le first (Nat.min_le_right ..))
          (numbered_le rest _) later
        rintro ⟨other, event⟩ member inside
        have least : envelope.sequence ≤ other := by
          rcases List.mem_cons.mp member with here | after
          · cases here
            exact Nat.le_refl _
          · exact rising other (List.of_mem_zip after).1
        have range := of_decide_eq_true (Bool.and_eq_true_iff.mp inside).2
        omega
      · rintro _ ⟨⟩ _
        exact Nat.le_of_lt past
    · next inside =>
      obtain ⟨delivered, next, ran', same, final, reached⟩ := ih
        ⟨envelope.sequence, saturatingAdd64 visit.synthetic 1,
          some (ownerAfter envelope.event envelope.workspace)⟩
        chain later agree' (List.isChain_of_isChain_cons owned)
      rw [ran']
      refine ⟨_, next, rfl, ?_, final, reached⟩
      have within : (through.all fun cursor => decide (envelope.sequence ≤ cursor)) = true := by
        cases through with
        | none => rfl
        | some cursor =>
          have below : ¬ cursor < envelope.sequence := by simpa using inside
          simpa using Nat.le_of_not_lt below
      rw [List.filter_cons]
      by_cases after : sequence < envelope.sequence
      · have member : inRange sequence through (envelope.sequence, envelope.event) = true := by
          rw [inRange, within, decide_eq_true after]
          rfl
        rw [if_pos after, if_pos member, List.map_cons, same]
      · have outside : ¬ inRange sequence through (envelope.sequence, envelope.event) = true := by
          rw [inRange, decide_eq_false after]
          exact Bool.false_ne_true
        rw [if_neg after, if_neg outside, same]

/-- A visit that ends well found no bare record before a foreign one. -/
private theorem Visit.bareOwned_of_run (lenient : codec.Lenient) {name : String} {sequence : ℕ}
    {cut : List Bytes} {records : List DecodedRecord}
    (held : List.Forall₂ (fun chunk record => recordOf codec chunk = some record) cut records)
    {owner final : Option String} {visit next : Visit} (chain : OwnershipChain owner records final)
    (ended : (Visit.run codec name sequence none visit (cut.map readLine)).2 = .ok next) :
    records.IsChain (BareOwned name) ∧ ∀ current, visit.owner = some current →
      ∀ record more, records = record :: more → current = record.workspace.getD name := by
  induction held generalizing owner visit with
  | nil => exact ⟨.nil, by simp⟩
  | @cons chunk record cut records first rest ih =>
    obtain _ | ⟨step, chain⟩ := chain
    obtain ⟨envelope, _, workspace, event, ran⟩ :=
      Visit.run_cons lenient first name sequence none visit (cut.map readLine)
    rw [List.map_cons, ran] at ended
    split at ended
    · cases ended
    · next visit' stepped =>
      obtain ⟨accepts, _, _, rfl⟩ := Visit.step_ok.mp stepped
      rw [workspace] at accepts
      obtain ⟨owned, following⟩ := ih chain ended
      constructor
      · cases records with
        | nil => exact .singleton _
        | cons successor more =>
          refine List.isChain_cons_cons.mpr ⟨?_, owned⟩
          intro bare other named
          have kept : ∀ old new, record.event ≠ .workspaceRenamed old new := by
            cases step with
            | bare _ _ kept => exact kept
            | owned _ given => rw [bare] at given; cases given
            | renamed _ given => rw [bare] at given; cases given
          have same := following _ rfl successor more rfl
          rw [workspace, event, bare, ownerAfter_kept kept, named] at same
          exact same.symm
      · rintro current seen _ _ ⟨⟩
        exact accepts current seen

end Agreement

section Range

/-- The stream does not begin with a checkpoint, so that no archive stands behind it. -/
def SingleSegment (codec : Codec) (bytes : Bytes) : Prop :=
  ∀ record more, leadingRecords codec (chunks bytes) = record :: more →
    ∀ state, record.event ≠ .recoveryCheckpoint state

private theorem checkpointHeader_single (lenient : codec.Lenient) {bytes : Bytes}
    {records : List DecodedRecord} (held : Records codec bytes records)
    (single : SingleSegment codec bytes) :
    ∃ owner, checkpointHeaderWithOwner codec bytes = .ok (none, owner, bytes) := by
  cases records with
  | nil =>
    have cut : chunks bytes = [] := List.forall₂_nil_right_iff.mp held
    have opened : codec.decodeLine [] = some [] := rfl
    unfold checkpointHeaderWithOwner
    rw [cut, List.headD_nil]
    dsimp only
    rw [show fromUtf8 [] = some [] from rfl]
    dsimp only
    rw [opened]
    dsimp only
    rw [lenient.empty]
    exact ⟨none, rfl⟩
  | cons record records =>
    have leads : leadingRecords codec (chunks bytes) = record :: records := by
      have appended := leadingRecords_append held []
      rwa [List.append_nil, leadingRecords, List.append_nil] at appended
    rw [checkpointHeader_cons lenient held]
    split
    · next state _ checkpoint _ => exact absurd checkpoint (single _ _ leads state)
    · exact ⟨_, rfl⟩

/-- A stream of one segment is read from its first byte. -/
private theorem Reader.new_single (lenient : codec.Lenient) {bytes : Bytes} {name : String}
    {records : List DecodedRecord} {final : Option String} (held : Records codec bytes records)
    (chain : OwnershipChain none records final) (mine : final = none ∨ final = some name)
    (single : SingleSegment codec bytes) (archives : Archives) (after : ℕ) :
    Reader.new codec archives name bytes after = .ok ⟨bytes, 0⟩ := by
  obtain ⟨owner, header⟩ := checkpointHeader_single lenient held single
  have validated : validateOwner codec bytes name = .ok () :=
    forEachRecord_chain lenient held chain mine ()
  unfold Reader.new
  rw [header]
  simp only [bind, Except.bind, validated]
  cases owner.any fun owner => decide (owner ≠ name) <;>
    simp [archiveChain, pure, Except.pure]

/-- Historical readers deliver what recovery numbers, each record once and in order. -/
structure HistoryAgrees (codec : Codec) (archives : Archives) (name : String) (bytes : Bytes)
    (events : List (ℕ × LogEvent)) : Prop where
  range : ∀ sequence, (visitRange codec archives name bytes sequence none).2 = .ok () ∧
    (visitRange codec archives name bytes sequence none).1.map (fun e => (e.sequence, e.event)) =
      events.filter fun numbered => sequence < numbered.1
  through : ∀ sequence cursor, cursor ≤ (events.map (·.1)).getLastD 0 →
    (sequence ≤ cursor → (visitThrough codec archives name bytes sequence cursor).2 = .ok ()) ∧
    (visitThrough codec archives name bytes sequence cursor).1.map (fun e => (e.sequence, e.event)) =
      events.filter fun numbered => sequence < numbered.1 ∧ numbered.1 ≤ cursor

private theorem numberedEvents_sequences (synthetic : ℕ) (records : List DecodedRecord) :
    (numberedEvents synthetic records).map (·.1) = numbered synthetic records := by
  have same : (numbered synthetic records).length = (records.map (·.event)).length := by
    induction records generalizing synthetic with
    | nil => rfl
    | cons record records ih => exact congrArg Nat.succ (ih _)
  exact List.map_fst_zip (Nat.le_of_eq same)

/-- The event of every record with the sequence that recovery assigns to it. -/
def recoveredEvents (codec : Codec) (bytes : Bytes) (name : String) :
    Except Fault (List (ℕ × LogEvent)) :=
  (forEachRecord codec bytes (some name) (fun (state : ℕ × List (ℕ × LogEvent)) record =>
    (saturatingAdd64 state.1 1,
      state.2 ++ [(record.sequence.getD (saturatingAdd64 state.1 1), record.event)])) (0, [])).map
    (·.2)

private theorem recoveredEvents_ok (lenient : codec.Lenient) {bytes : Bytes} {name : String}
    {records : List DecodedRecord} {final : Option String} (held : Records codec bytes records)
    (chain : OwnershipChain none records final) (mine : final = none ∨ final = some name) :
    recoveredEvents codec bytes name = .ok (numberedEvents 0 records) := by
  have collected (synthetic : ℕ) (before : List (ℕ × LogEvent)) : (records.foldl
      (fun (state : ℕ × List (ℕ × LogEvent)) record => (saturatingAdd64 state.1 1,
        state.2 ++ [(record.sequence.getD (saturatingAdd64 state.1 1), record.event)]))
      (synthetic, before)).2 = before ++ numberedEvents synthetic records := by
    clear held chain
    induction records generalizing synthetic before with
    | nil => exact (List.append_nil before).symm
    | cons record records ih =>
      rw [List.foldl_cons, ih, List.append_assoc]
      rfl
  rw [recoveredEvents, forEachRecord_chain lenient held chain mine]
  exact congrArg Except.ok (collected 0 [])

/-- On a stream of one segment that recovery accepts in full, the historical readers agree with
recovery exactly when no bare record is directly followed by a record of another owner. -/
theorem visitRange_agrees (lenient : codec.Lenient) {bytes : Bytes} {name : String}
    (full : consistentPrefixLen codec bytes name = .ok bytes.length)
    (single : SingleSegment codec bytes) (archives : Archives) :
    ∃ events, recoveredEvents codec bytes name = .ok events ∧
      (HistoryAgrees codec archives name bytes events ↔
        (leadingRecords codec (chunks bytes)).IsChain (BareOwned name)) := by
  obtain ⟨records, final, accounted, mine⟩ := accepted_in_full full
  have held : Records codec bytes records := accounted.held
  have leading : leadingRecords codec (chunks bytes) = records := by
    have appended := leadingRecords_append accounted.held []
    rwa [List.append_nil, leadingRecords, List.append_nil] at appended
  refine ⟨numberedEvents 0 records, recoveredEvents_ok lenient held accounted.chain mine, ?_⟩
  have visited (sequence : ℕ) {through : Option ℕ} (bounded : through ≠ some 0) :
      visitRange codec archives name bytes sequence through =
        ((Visit.run codec name sequence through ⟨0, 0, none⟩ (lines bytes)).1,
          Visit.conclude name through
            (Visit.run codec name sequence through ⟨0, 0, none⟩ (lines bytes)).2) := by
    rw [visitRange, if_neg bounded,
      Reader.new_single lenient held accounted.chain mine single archives sequence]
  rw [leading]
  constructor
  · intro agrees
    have ended := (agrees.range 0).1
    rw [visited 0 (by simp)] at ended
    cases ran : (Visit.run codec name 0 none ⟨0, 0, none⟩ (lines bytes)).2 with
    | error fault =>
      rw [ran] at ended
      cases ended
    | ok next => exact (Visit.bareOwned_of_run lenient accounted.held accounted.chain ran).1
  · intro owned
    have start : OwnersAgree name none none records :=
      ⟨by simp, by simp, fun _ absent => absurd rfl absent⟩
    have delivers (sequence : ℕ) (through : Option ℕ) := Visit.run_delivers lenient sequence through
      ⟨0, 0, none⟩ accounted.held accounted.chain mine accounted.sequences start owned
    constructor
    · intro sequence
      obtain ⟨delivered, next, ran, same, own, _⟩ := delivers sequence none
      rw [visited sequence (by simp), lines, ran]
      constructor
      · have mine' : ¬ (next.owner.any fun owner => decide (owner ≠ name)) = true := by
          cases holder : next.owner with
          | none => exact Bool.false_ne_true
          | some current => simp [own rfl current holder]
        show Visit.conclude name none (.ok next) = .ok ()
        rw [Visit.conclude, if_neg fun both => mine' both.2]
        rfl
      · rw [same]
        exact List.filter_congr fun numbered _ => by simp [inRange]
    · intro sequence cursor small
      rw [numberedEvents_sequences] at small
      have empty (none : ∀ numbered ∈ numberedEvents 0 records,
          ¬ (sequence < numbered.1 ∧ numbered.1 ≤ cursor)) : (numberedEvents 0 records).filter
            (fun numbered => decide (sequence < numbered.1 ∧ numbered.1 ≤ cursor)) = [] :=
        List.filter_eq_nil_iff.mpr fun numbered member inside =>
          none numbered member (of_decide_eq_true inside)
      unfold visitThrough
      split
      · next reversed =>
        refine ⟨fun ordered => absurd reversed (Nat.not_lt.mpr ordered), ?_⟩
        rw [empty fun numbered _ => by omega]
        rfl
      · next ordered =>
        rcases Nat.eq_zero_or_pos cursor with rfl | positive
        · rw [visitRange, if_pos rfl, empty fun numbered _ => by omega]
          exact ⟨fun _ => rfl, rfl⟩
        · obtain ⟨delivered, next, ran, same, _, reached⟩ := delivers sequence (some cursor)
          have bounded : some cursor ≠ some 0 := by
            rw [ne_eq, Option.some.injEq]
            exact Nat.pos_iff_ne_zero.mp positive
          have far := reached cursor rfl small
          rw [visited sequence bounded, lines, ran]
          constructor
          · intro _
            simp [Visit.conclude, far]
          · rw [same]
            exact List.filter_congr fun numbered _ => by simp [inRange]

/-- A bare record and a record of the reader's. -/
def ownStream : Bytes := lineBytes bareLine ++ windowBytes 2

/-- A bare record, the rename to the reader's name, and a record of the reader's. -/
def renamedStream : Bytes := lineBytes bareLine ++ lineBytes renameLine ++ windowBytes 3

private theorem singleSegment_bare {stream : Bytes} {others : List Bytes}
    (cut : chunks stream = lineBytes bareLine :: others) : SingleSegment sampleCodec stream := by
  have bare : recordOf sampleCodec (lineBytes bareLine) = some ⟨none, none, windowNew⟩ := rfl
  rw [SingleSegment, cut, leadingRecords, bare]
  rintro _ _ ⟨⟩ state ⟨⟩

/-- The bare record is followed by one of the reader's, so the readers agree. -/
theorem visitRange_agrees_own :
    ∃ events, recoveredEvents sampleCodec ownStream "w" = .ok events ∧
      HistoryAgrees sampleCodec (fun _ => none) "w" ownStream events := by
  have cut : chunks ownStream = lineBytes bareLine :: [windowBytes 2] := by decide +kernel
  have records : leadingRecords sampleCodec (chunks ownStream) =
      [⟨none, none, windowNew⟩, ⟨some 2, some "w", windowNew⟩] := by
    rw [cut]
    rfl
  have full : consistentPrefixLen sampleCodec ownStream "w" = .ok ownStream.length := by decide +kernel
  obtain ⟨events, recovered, agrees⟩ := visitRange_agrees sampleCodec_lenient full (singleSegment_bare cut) fun _ => none
  refine ⟨events, recovered, agrees.mpr ?_⟩
  rw [records]
  exact .cons_cons (fun _ owner same => (Option.some.inj same).symm) (.singleton _)

/-- Recovery accepts the renamed stream in full; the historical reader refuses its second record. -/
theorem visitRange_foreign :
    consistentPrefixLen sampleCodec renamedStream "w" = .ok renamedStream.length ∧
      SingleSegment sampleCodec renamedStream ∧
      (visitRange sampleCodec (fun _ => none) "w" renamedStream 0 none).2 =
        .error (invalidData "foreign Workspace event in subscription stream") := by
  have cut : chunks renamedStream =
      lineBytes bareLine :: [lineBytes renameLine, windowBytes 3] := by decide +kernel
  exact ⟨by decide +kernel, singleSegment_bare cut, by decide +kernel⟩

end Range

end Uniterm.Model.EventLog
