import Uniterm.ToMathlib.ListIndex
import Uniterm.Model.Work.Artifacts

/-! # The artifact ledger

A refused event changes nothing. An accepted one keeps four indexes in step with the retained records:
three list what an owner has, in the order of their identities, and one finds the record that is
current at a path. At the cap a record that is not available makes room, or the one being superseded.
-/

namespace Uniterm.Model.Work.ArtifactLedger

open Std ToMathlib

section InPlace

variable {α β : Type}

@[simp] theorem run_bind (command : InPlace α) (next : α → InPlace β) (ledger : ArtifactLedger) :
    (command >>= next).run ledger = match command.run ledger with
      | (.ok value, after) => (next value).run after
      | (.error error, after) => (.error error, after) := by
  rw [ExceptT.run_bind]
  simp only [bind, StateT.bind]
  rcases command.run ledger with ⟨_ | _, _⟩ <;> rfl

@[simp] theorem run_get (ledger : ArtifactLedger) :
    (get : InPlace ArtifactLedger).run ledger = (.ok ledger, ledger) := rfl

private theorem makeRoomInPlace_run (ledger : ArtifactLedger) (replacement : Option ArtifactId) :
    (makeRoomInPlace replacement).run ledger = match ledger.makeRoom replacement with
      | .ok next => (.ok (), next)
      | .error error => (.error error, ledger) := by
  rw [makeRoomInPlace, run_bind, run_get, makeRoom]
  dsimp only
  split
  · rfl
  · split <;> rfl

private theorem liftExcept_run (checked : Except ArtifactError Unit) (ledger : ArtifactLedger) :
    (applyInPlace.liftExcept checked).run ledger = (checked, ledger) := by
  cases checked <;> rfl

private theorem amendInPlace_run (ledger : ArtifactLedger) (artifact : ArtifactId) (refusal : String)
    (change : ArtifactRecord → ArtifactRecord) :
    (applyInPlace.amendInPlace artifact refusal change).run ledger =
      match ledger.amend artifact refusal change with
      | .ok next => (.ok (), next)
      | .error error => (.error error, ledger) := by
  rw [applyInPlace.amendInPlace, run_bind, run_get, amend]
  dsimp only
  split
  · rfl
  · split <;> rfl

private theorem ok_bind (value : α) (next : α → Except ArtifactError β) :
    (Except.ok value >>= next) = next value := rfl

/-- An event either does all of its work, or nothing. -/
theorem applyInPlace_run (ledger : ArtifactLedger) (event : ArtifactEvent) :
    (applyInPlace event).run ledger = match ledger.apply event with
      | .ok next => (.ok (), next)
      | .error error => (.error error, ledger) := by
  cases event with
  | observed artifact project producerRun producerRole kind path digest size =>
    rw [applyInPlace, run_bind, liftExcept_run, apply]
    cases validateObservation artifact project producerRun producerRole path digest size with
    | error error => rfl
    | ok _ =>
      rw [ok_bind]
      dsimp only
      rw [run_bind, run_get]
      dsimp only
      by_cases duplicate : ledger.records.contains artifact = true
      · rw [if_pos duplicate, if_pos duplicate]
        rfl
      rw [if_neg duplicate, if_neg duplicate, run_bind, run_get]
      dsimp only
      by_cases older : artifact < ledger.nextArtifact
      · rw [if_pos older, if_pos older]
        rfl
      rw [if_neg older, if_neg older, run_bind, run_get]
      dsimp only
      rw [run_bind, makeRoomInPlace_run]
      cases ledger.makeRoom ledger.currentPath[(project, path)]? <;> rfl
  | refreshed artifact digest size =>
    rw [applyInPlace, run_bind, liftExcept_run, apply]
    cases validateDigest digest with
    | error error => rfl
    | ok _ =>
      rw [ok_bind]
      dsimp only
      by_cases empty : size = 0
      · rw [if_pos empty, if_pos empty]
        rfl
      · rw [if_neg empty, if_neg empty]
        exact amendInPlace_run ..
  | missing artifact => exact amendInPlace_run ..

private theorem apply_observed {ledger next : ArtifactLedger} {artifact : ArtifactId}
    {project producerRun producerRole : ℕ} {kind : ArtifactKind} {path digest : Text} {size : ℕ}
    (applied : ledger.apply (.observed artifact project producerRun producerRole kind path digest size) =
      .ok next) :
    validateObservation artifact project producerRun producerRole path digest size = .ok () ∧
      ledger.nextArtifact ≤ artifact ∧ ∃ roomy,
        ledger.makeRoom ledger.currentPath[(project, path)]? = .ok roomy ∧
        next = { roomy.supersede ledger.currentPath[(project, path)]? with
          currentPath := (roomy.supersede ledger.currentPath[(project, path)]?).currentPath.insert
            (project, path) artifact
          records := (roomy.supersede ledger.currentPath[(project, path)]?).records.insert artifact
            { id := artifact, project := project, producerRun := producerRun
              producerRole := producerRole, kind := kind, path := path, digest := digest
              size := size, status := .available
              supersedes := ledger.currentPath[(project, path)]? }
          byProject := pushId (roomy.supersede ledger.currentPath[(project, path)]?).byProject project
            artifact
          byRun := pushId (roomy.supersede ledger.currentPath[(project, path)]?).byRun producerRun artifact
          byRole := pushId (roomy.supersede ledger.currentPath[(project, path)]?).byRole producerRole
            artifact
          nextArtifact := saturatingAdd64 artifact 1 } := by
  rw [apply] at applied
  cases valid : validateObservation artifact project producerRun producerRole path digest size with
  | error error =>
    rw [valid] at applied
    cases applied
  | ok _ =>
    rw [valid, ok_bind] at applied
    by_cases duplicate : ledger.records.contains artifact = true
    · rw [if_pos duplicate] at applied
      cases applied
    rw [if_neg duplicate] at applied
    by_cases older : artifact < ledger.nextArtifact
    · rw [if_pos older] at applied
      cases applied
    rw [if_neg older] at applied
    dsimp only at applied
    cases room : ledger.makeRoom ledger.currentPath[(project, path)]? with
    | error error =>
      rw [room] at applied
      cases applied
    | ok roomy =>
      rw [room] at applied
      cases applied
      exact ⟨rfl, Nat.not_lt.mp older, roomy, rfl, rfl⟩

end InPlace

section Indexes

variable {records : ExtTreeMap ArtifactId ArtifactRecord} {index : ExtTreeMap ℕ (List ArtifactId)}
  {owner : ArtifactRecord → ℕ} {id : ArtifactId} {record : ArtifactRecord}

theorem lookup_insert (records : ExtTreeMap ArtifactId ArtifactRecord) (id other : ArtifactId)
    (record : ArtifactRecord) :
    (records.insert id record)[other]? = if id = other then some record else records[other]? := by
  simp only [ExtTreeMap.getElem?_insert, Std.compare_eq_iff_eq]

theorem lookup_erase (records : ExtTreeMap ArtifactId ArtifactRecord) (id other : ArtifactId) :
    (records.erase id)[other]? = if id = other then none else records[other]? := by
  simp only [ExtTreeMap.getElem?_erase, Std.compare_eq_iff_eq]

/-- An index lists exactly the retained records of each owner, by increasing identity. -/
structure Filed (records : ExtTreeMap ArtifactId ArtifactRecord)
    (index : ExtTreeMap ℕ (List ArtifactId)) (owner : ArtifactRecord → ℕ) : Prop where
  mem : ∀ key id, id ∈ entriesAt index key ↔ ∃ record, records[id]? = some record ∧ owner record = key
  increasing : ∀ key, (entriesAt index key).Pairwise (· < ·)

private theorem entriesAt_removeId (index : ExtTreeMap ℕ (List ArtifactId)) (owner key : ℕ) (id : ArtifactId) :
    entriesAt (removeId index owner id) key =
      if owner = key then (entriesAt index key).filter (· != id) else entriesAt index key := by
  unfold removeId
  by_cases same : owner = key
  · subst same
    rw [if_pos rfl]
    cases read : index[owner]? with
    | none => simp [entriesAt, read]
    | some ids => rw [entriesAt_insert_self, entriesAt, read, Option.getD_some]
  · rw [if_neg same]
    split
    · exact entriesAt_insert_of_ne same
    · rfl

private theorem entriesAt_pushId (index : ExtTreeMap ℕ (List ArtifactId)) (owner key : ℕ) (id : ArtifactId) :
    entriesAt (pushId index owner id) key =
      if owner = key then entriesAt index key ++ [id] else entriesAt index key := by
  unfold pushId
  by_cases same : owner = key
  · subst same
    rw [if_pos rfl, entriesAt_insert_self, ExtTreeMap.getD_eq_getD_getElem?, entriesAt]
  · rw [if_neg same, entriesAt_insert_of_ne same]

theorem Filed.remove (filed : Filed records index owner) (read : records[id]? = some record) :
    Filed (records.erase id) (removeId index (owner record) id) owner where
  mem key other := by
    simp only [entriesAt_removeId, lookup_erase]
    by_cases same : id = other
    · subst same
      rw [if_pos rfl]
      split
      · simp
      · next different =>
        rw [filed.mem, read]
        simp [different]
    · rw [if_neg same, ← filed.mem]
      split
      · simp [Ne.symm same]
      · rfl
  increasing key := by
    rw [entriesAt_removeId]
    split
    · exact (filed.increasing key).filter _
    · exact filed.increasing key

theorem Filed.insert (filed : Filed records index owner) (fresh : records[id]? = none)
    (above : ∀ other record, records[other]? = some record → other < id) :
    Filed (records.insert id record) (pushId index (owner record) id) owner where
  mem key other := by
    simp only [entriesAt_pushId, lookup_insert]
    by_cases same : id = other
    · subst same
      rw [if_pos rfl]
      split
      · next own => simp [own]
      · next different =>
        rw [filed.mem, fresh]
        simp [different]
    · rw [if_neg same, ← filed.mem]
      split
      · simp [Ne.symm same]
      · rfl
  increasing key := by
    rw [entriesAt_pushId]
    split
    · refine List.pairwise_append.mpr ⟨filed.increasing key, List.pairwise_singleton .., ?_⟩
      intro other listed last new
      obtain ⟨known, read, _⟩ := (filed.mem key other).mp listed
      rw [List.mem_singleton.mp new]
      exact above other known read
    · exact filed.increasing key

/-- A record that keeps its owner may change. -/
theorem Filed.rewrite (filed : Filed records index owner) (read : records[id]? = some record)
    {record' : ArtifactRecord} (same : owner record' = owner record) :
    Filed (records.insert id record') index owner where
  mem key other := by
    rw [filed.mem, lookup_insert]
    split
    · next equal =>
      subst equal
      rw [read]
      simp [same]
    · rfl
  increasing := filed.increasing

end Indexes

section Keeping

/-- What the ledger keeps but for its cap. -/
structure Consistent (ledger : ArtifactLedger) : Prop where
  keyed : ∀ (id : ArtifactId) (record : ArtifactRecord), ledger.records[id]? = some record →
    record.id = id ∧ id < ledger.nextArtifact
  paths : ∀ (project : ℕ) (path : Text) (id : ArtifactId), ledger.currentPath[(project, path)]? = some id ↔
    ∃ record, ledger.records[id]? = some record ∧ record.project = project ∧ record.path = path ∧
      record.status ≠ .superseded
  byProject : Filed ledger.records ledger.byProject (·.project)
  byRun : Filed ledger.records ledger.byRun (·.producerRun)
  byRole : Filed ledger.records ledger.byRole (·.producerRole)

variable {ledger next : ArtifactLedger} {id : ArtifactId} {record : ArtifactRecord}

private theorem path_insert (paths : ExtHashMap (ℕ × Text) ArtifactId) (key other : ℕ × Text)
    (id : ArtifactId) : (paths.insert key id)[other]? = if key = other then some id else paths[other]? := by
  simp only [ExtHashMap.getElem?_insert, beq_iff_eq]

private theorem path_erase (paths : ExtHashMap (ℕ × Text) ArtifactId) (key other : ℕ × Text) :
    (paths.erase key)[other]? = if key = other then none else paths[other]? := by
  simp only [ExtHashMap.getElem?_erase, beq_iff_eq]

private theorem removeFromProjection_some (read : ledger.records[id]? = some record) :
    ledger.removeFromProjection id =
      { ledger with
        records := ledger.records.erase id
        byProject := removeId ledger.byProject record.project id
        byRun := removeId ledger.byRun record.producerRun id
        byRole := removeId ledger.byRole record.producerRole id
        currentPath :=
          if ledger.currentPath[(record.project, record.path)]? = some id then
            ledger.currentPath.erase (record.project, record.path)
          else ledger.currentPath } := by
  unfold removeFromProjection
  rw [read]

/-- Removing a retained record takes it out of every index. -/
theorem Consistent.remove (consistent : Consistent ledger) (read : ledger.records[id]? = some record) :
    Consistent (ledger.removeFromProjection id) := by
  rw [removeFromProjection_some read]
  refine ⟨?_, ?_, consistent.byProject.remove read, consistent.byRun.remove read,
    consistent.byRole.remove read⟩
  · intro other known there
    rw [lookup_erase] at there
    split at there
    · cases there
    · exact consistent.keyed other known there
  · intro project path other
    have current := consistent.paths project path other
    simp only [lookup_erase]
    by_cases same : id = other
    · subst same
      rw [if_pos rfl]
      constructor
      · intro points
        split at points
        · rw [path_erase] at points
          split at points
          · cases points
          · next elsewhere =>
            obtain ⟨known, there, rfl, rfl, _⟩ := current.mp points
            rw [read] at there
            cases there
            exact absurd rfl elsewhere
        · next elsewhere =>
          obtain ⟨known, there, rfl, rfl, _⟩ := current.mp points
          rw [read] at there
          cases there
          exact absurd points elsewhere
      · rintro ⟨_, impossible, _⟩
        cases impossible
    · rw [if_neg same, ← current]
      split
      · next own =>
        rw [path_erase]
        split
        · next equal =>
          rw [equal] at own
          rw [own]
          simp [same]
        · rfl
      · rfl

/-- What makes room is not available, or is about to be replaced. -/
theorem makeRoom_cases {replacement : Option ArtifactId} (made : ledger.makeRoom replacement = .ok next)
    (retained : ∀ id ∈ replacement, ∃ record, ledger.records[id]? = some record) :
    (ledger.records.size < artifactLedgerCap ∧ next = ledger) ∨
      ∃ id record, ledger.records[id]? = some record ∧
        (record.status ≠ .available ∨ replacement = some id) ∧
        next = ledger.removeFromProjection id := by
  unfold makeRoom at made
  split at made
  · next small =>
    cases made
    exact .inl ⟨small, rfl⟩
  · right
    cases found : ledger.records.toList.find? fun entry => entry.2.status != .available with
    | none =>
      rw [found] at made
      cases replacement with
      | none => cases made
      | some id =>
        cases made
        obtain ⟨record, read⟩ := retained id rfl
        exact ⟨id, record, read, .inr rfl, rfl⟩
    | some entry =>
      rw [found] at made
      cases made
      refine ⟨entry.1, entry.2, ?_, .inl ?_, rfl⟩
      · exact ExtTreeMap.mem_toList_iff_getElem?_eq_some.mp (List.mem_of_find?_eq_some found)
      · simpa using List.find?_some found

private theorem size_erase_lt (read : ledger.records[id]? = some record) :
    (ledger.records.erase id).size < ledger.records.size := by
  have present : id ∈ ledger.records := by
    rw [ExtTreeMap.mem_iff_isSome_getElem?, read]
    rfl
  have positive : ledger.records.size ≠ 0 := by
    intro none
    rw [ExtTreeMap.eq_empty_iff_size_eq_zero.mpr none] at present
    exact ExtTreeMap.not_mem_empty present
  rw [ExtTreeMap.size_erase, if_pos (ExtTreeMap.mem_iff_contains.mp present)]
  omega

/-- A consistent ledger below its cap, which lost nothing available but what is being replaced. -/
structure Roomy (ledger : ArtifactLedger) (replacement : Option ArtifactId) (roomy : ArtifactLedger) :
    Prop where
  consistent : Consistent roomy
  small : roomy.records.size < artifactLedgerCap
  nextArtifact : roomy.nextArtifact = ledger.nextArtifact
  known : ∀ (id : ArtifactId) (record : ArtifactRecord), roomy.records[id]? = some record →
    ledger.records[id]? = some record
  kept : ∀ (id : ArtifactId) (record : ArtifactRecord), ledger.records[id]? = some record →
    record.status = .available → replacement ≠ some id → roomy.records[id]? = some record

theorem Consistent.makeRoom (consistent : Consistent ledger)
    (capped : ledger.records.size ≤ artifactLedgerCap) {replacement : Option ArtifactId}
    (retained : ∀ id ∈ replacement, ∃ record, ledger.records[id]? = some record)
    (made : ledger.makeRoom replacement = .ok next) : Roomy ledger replacement next := by
  rcases makeRoom_cases made retained with ⟨small, rfl⟩ | ⟨id, record, read, allowed, rfl⟩
  · exact ⟨consistent, small, rfl, fun _ _ there => there, fun _ _ there _ _ => there⟩
  · have cleared := consistent.remove read
    rw [removeFromProjection_some read] at cleared ⊢
    refine ⟨cleared, Nat.lt_of_lt_of_le (size_erase_lt read) capped, rfl, ?_, ?_⟩
    · intro other known there
      rw [lookup_erase] at there
      split at there
      · cases there
      · exact there
    · intro other known there available spared
      rw [lookup_erase, if_neg]
      · exact there
      · rintro rfl
        rw [read] at there
        cases there
        exact allowed.elim (absurd available) (absurd · spared)

private theorem supersede_cases (ledger : ArtifactLedger) (previous : Option ArtifactId) :
    (ledger.supersede previous = ledger ∧ ∀ id ∈ previous, ledger.records[id]? = none) ∨
      ∃ id record, previous = some id ∧ ledger.records[id]? = some record ∧
        ledger.supersede previous =
          { ledger with
            records := ledger.records.insert id { record with status := .superseded } } := by
  cases previous with
  | none => exact .inl ⟨rfl, fun _ impossible => by cases impossible⟩
  | some id =>
    unfold supersede
    cases read : ledger.records[id]? with
    | none =>
      refine .inl ⟨?_, fun other same => ?_⟩
      · simp only [read]
      · cases same
        exact read
    | some record => exact .inr ⟨id, record, rfl, read, by simp only [read]⟩

private theorem supersede_lookup (ledger : ArtifactLedger) (previous : Option ArtifactId) (id : ArtifactId) :
    (ledger.supersede previous).records[id]? =
      if previous = some id then
        (ledger.records[id]?).map fun record => { record with status := .superseded }
      else ledger.records[id]? := by
  rcases supersede_cases ledger previous with ⟨same, absent⟩ | ⟨earlier, record, rfl, read, changed⟩
  · rw [same]
    split
    · next named => rw [absent id named, Option.map_none]
    · rfl
  · rw [changed, lookup_insert]
    simp only [Option.some.injEq]
    split
    · next same => rw [← same, read, Option.map_some]
    · rfl

/-- All that superseding a record changes is its status. -/
theorem supersede_eq (ledger : ArtifactLedger) (previous : Option ArtifactId) :
    ledger.supersede previous = { ledger with records := (ledger.supersede previous).records } := by
  rcases supersede_cases ledger previous with ⟨same, _⟩ | ⟨_, _, _, _, changed⟩
  · rw [same]
  · rw [changed]

private theorem supersede_size (ledger : ArtifactLedger) (previous : Option ArtifactId) :
    (ledger.supersede previous).records.size = ledger.records.size := by
  rcases supersede_cases ledger previous with ⟨same, _⟩ | ⟨id, record, _, read, changed⟩
  · rw [same]
  · have present : id ∈ ledger.records := by
      rw [ExtTreeMap.mem_iff_isSome_getElem?, read]
      rfl
    rw [changed, ExtTreeMap.size_insert, if_pos (ExtTreeMap.mem_iff_contains.mp present)]

theorem Filed.superseded {index : ExtTreeMap ℕ (List ArtifactId)} {owner : ArtifactRecord → ℕ}
    (filed : Filed ledger.records index owner) (previous : Option ArtifactId)
    (blind : ∀ record, owner { record with status := .superseded } = owner record) :
    Filed (ledger.supersede previous).records index owner := by
  rcases supersede_cases ledger previous with ⟨same, _⟩ | ⟨id, record, _, read, changed⟩
  · rw [same]
    exact filed
  · rw [changed]
    exact filed.rewrite read (blind record)

theorem Roomy.older {replacement : Option ArtifactId} {roomy : ArtifactLedger}
    (made : Roomy ledger replacement roomy) {bound : ℕ} (newer : ledger.nextArtifact ≤ bound)
    (there : roomy.records[id]? = some record) : id < bound :=
  Nat.lt_of_lt_of_le (made.nextArtifact ▸ (made.consistent.keyed id record there).2) newer

/-- Filing a new record at a path whose current record has just been superseded. -/
theorem Roomy.observed {previous : Option ArtifactId} {roomy : ArtifactLedger}
    (made : Roomy ledger previous roomy) (record : ArtifactRecord) (consistent : Consistent ledger)
    (current : ledger.currentPath[(record.project, record.path)]? = previous)
    (newer : ledger.nextArtifact ≤ record.id) (below : record.id < u64Max)
    (available : record.status = .available) :
    Consistent
      { roomy.supersede previous with
        currentPath :=
          (roomy.supersede previous).currentPath.insert (record.project, record.path) record.id
        records := (roomy.supersede previous).records.insert record.id record
        byProject := pushId (roomy.supersede previous).byProject record.project record.id
        byRun := pushId (roomy.supersede previous).byRun record.producerRun record.id
        byRole := pushId (roomy.supersede previous).byRole record.producerRole record.id
        nextArtifact := saturatingAdd64 record.id 1 } := by
  have advanced : saturatingAdd64 record.id 1 = record.id + 1 := Nat.min_eq_left below
  have older : ∀ other known, (roomy.supersede previous).records[other]? = some known →
      other < record.id ∧ known.id = other := by
    intro other known there
    rw [supersede_lookup] at there
    split at there
    · obtain ⟨earlier, read, rfl⟩ := Option.map_eq_some_iff.mp there
      exact ⟨made.older newer read, (made.consistent.keyed other earlier read).1⟩
    · exact ⟨made.older newer there, (made.consistent.keyed other known there).1⟩
  have above := fun other known there => (older other known there).1
  have fresh : (roomy.supersede previous).records[record.id]? = none := by
    cases there : (roomy.supersede previous).records[record.id]? with
    | none => rfl
    | some known => exact absurd (above record.id known there) (Nat.lt_irrefl _)
  rw [supersede_eq]
  refine ⟨?_, ?_, (made.consistent.byProject.superseded previous fun _ => rfl).insert fresh above,
    (made.consistent.byRun.superseded previous fun _ => rfl).insert fresh above,
    (made.consistent.byRole.superseded previous fun _ => rfl).insert fresh above⟩
  · intro other known there
    dsimp only at there ⊢
    rw [advanced]
    rw [lookup_insert] at there
    split at there
    · next same =>
      cases there
      exact ⟨same, same ▸ Nat.lt_succ_self _⟩
    · obtain ⟨bound, same⟩ := older other known there
      exact ⟨same, Nat.lt_succ_of_lt bound⟩
  · intro project path other
    dsimp only
    rw [path_insert, lookup_insert]
    by_cases new : record.id = other
    · subst new
      rw [if_pos rfl]
      by_cases key : (record.project, record.path) = (project, path)
      · cases key
        simp [available]
      · rw [if_neg key]
        constructor
        · intro points
          obtain ⟨known, there, _⟩ := (made.consistent.paths ..).mp points
          exact absurd (made.older newer there) (Nat.lt_irrefl _)
        · rintro ⟨known, same, rfl, rfl, _⟩
          cases same
          exact absurd rfl key
    · rw [if_neg new, supersede_lookup]
      have points := made.consistent.paths project path other
      by_cases key : (record.project, record.path) = (project, path)
      · cases key
        rw [if_pos rfl]
        constructor
        · intro same
          exact absurd (Option.some.inj same) new
        · rintro ⟨known, there, atProject, atPath, live⟩
          split at there
          · obtain ⟨earlier, read, rfl⟩ := Option.map_eq_some_iff.mp there
            exact absurd rfl live
          · next spared =>
            refine absurd (current.symm.trans ?_) spared
            exact (consistent.paths ..).mpr
              ⟨known, made.known other known there, atProject, atPath, live⟩
      · rw [if_neg key, points]
        split
        · next replaced =>
          obtain ⟨known, read, atProject, atPath, _⟩ := (consistent.paths ..).mp (current.trans replaced)
          constructor
          · rintro ⟨same, there, rfl, rfl, _⟩
            rw [made.known other same there] at read
            cases read
            rw [atProject, atPath] at key
            exact absurd rfl key
          · rintro ⟨same, there, _, _, live⟩
            obtain ⟨earlier, _, rfl⟩ := Option.map_eq_some_iff.mp there
            exact absurd rfl live
        · rfl

private theorem amend_ok {artifact : ArtifactId} {refusal : String} {change : ArtifactRecord → ArtifactRecord}
    (applied : ledger.amend artifact refusal change = .ok next) :
    ∃ record, ledger.records[artifact]? = some record ∧ record.status ≠ .superseded ∧
      next = { ledger with records := ledger.records.insert artifact (change record) } := by
  unfold amend at applied
  cases read : ledger.records[artifact]? with
  | none =>
    rw [read] at applied
    cases applied
  | some record =>
    rw [read] at applied
    dsimp only at applied
    split at applied
    · cases applied
    · next live =>
      cases applied
      exact ⟨record, rfl, live, rfl⟩

private theorem size_rewrite (read : ledger.records[id]? = some record) (record' : ArtifactRecord) :
    (ledger.records.insert id record').size = ledger.records.size := by
  have present : id ∈ ledger.records := by
    rw [ExtTreeMap.mem_iff_isSome_getElem?, read]
    rfl
  rw [ExtTreeMap.size_insert, if_pos (ExtTreeMap.mem_iff_contains.mp present)]

private theorem validateObservation_id {artifact project run role : ℕ} {path digest : Text} {size : ℕ}
    (valid : validateObservation artifact project run role path digest size = .ok ()) :
    artifact ≠ u64Max := by
  rintro rfl
  unfold validateObservation at valid
  rw [if_pos (.inr (.inl rfl))] at valid
  cases valid

/-- The next ledger differs in one record, which was and is current at its path. -/
structure Amended (ledger next : ArtifactLedger) (id : ArtifactId) (record record' : ArtifactRecord) :
    Prop where
  read : ledger.records[id]? = some record
  written : next = { ledger with records := ledger.records.insert id record' }
  live : record.status ≠ .superseded
  stillLive : record'.status ≠ .superseded
  sameId : record'.id = record.id
  sameProject : record'.project = record.project
  sameRun : record'.producerRun = record.producerRun
  sameRole : record'.producerRole = record.producerRole
  samePath : record'.path = record.path

private theorem apply_refreshed {artifact : ArtifactId} {digest : Text} {size : ℕ}
    (applied : ledger.apply (.refreshed artifact digest size) = .ok next) :
    ∃ record record', Amended ledger next artifact record record' := by
  rw [apply] at applied
  cases valid : validateDigest digest with
  | error error =>
    rw [valid] at applied
    cases applied
  | ok _ =>
    rw [valid, ok_bind] at applied
    by_cases empty : size = 0
    · rw [if_pos empty] at applied
      cases applied
    rw [if_neg empty] at applied
    obtain ⟨record, read, live, written⟩ := amend_ok applied
    exact ⟨record, _, read, written, live, nofun, rfl, rfl, rfl, rfl, rfl⟩

private theorem apply_missing {artifact : ArtifactId} (applied : ledger.apply (.missing artifact) = .ok next) :
    ∃ record record', Amended ledger next artifact record record' := by
  obtain ⟨record, read, live, written⟩ := amend_ok applied
  exact ⟨record, _, read, written, live, nofun, rfl, rfl, rfl, rfl, rfl⟩

theorem Consistent.amended {record' : ArtifactRecord} (consistent : Consistent ledger)
    (amended : Amended ledger next id record record') : Consistent next := by
  rw [amended.written]
  refine ⟨?_, ?_, consistent.byProject.rewrite amended.read amended.sameProject,
    consistent.byRun.rewrite amended.read amended.sameRun,
    consistent.byRole.rewrite amended.read amended.sameRole⟩
  · intro other known there
    have keyed := consistent.keyed id record amended.read
    rw [lookup_insert] at there
    split at there
    · next same =>
      cases there
      exact same ▸ ⟨amended.sameId.trans keyed.1, keyed.2⟩
    · exact consistent.keyed other known there
  · intro project path other
    rw [consistent.paths, lookup_insert]
    split
    · next same =>
      rw [← same, amended.read]
      simp [amended.sameProject, amended.samePath, amended.live, amended.stillLive]
    · rfl

theorem Amended.size {record' : ArtifactRecord} (amended : Amended ledger next id record record') :
    next.records.size = ledger.records.size := by
  rw [amended.written]
  exact size_rewrite amended.read record'

theorem Amended.retains {record' : ArtifactRecord} {other : ArtifactId}
    (amended : Amended ledger next id record record') (dropped : next.records[other]? = none) :
    ledger.records[other]? = none := by
  rw [amended.written, lookup_insert] at dropped
  split at dropped
  · cases dropped
  · exact dropped

end Keeping

section Runs

variable {ledger next : ArtifactLedger} {event : ArtifactEvent}

/-- What holds between events. -/
structure Kept (ledger : ArtifactLedger) : Prop extends Consistent ledger where
  capped : ledger.records.size ≤ artifactLedgerCap

theorem Kept.room (kept : Kept ledger) {project : ℕ} {path : Text} {roomy : ArtifactLedger}
    (made : ledger.makeRoom ledger.currentPath[(project, path)]? = .ok roomy) :
    Roomy ledger ledger.currentPath[(project, path)]? roomy := by
  refine kept.toConsistent.makeRoom kept.capped ?_ made
  intro id current
  obtain ⟨record, read, _⟩ := (kept.paths project path id).mp current
  exact ⟨record, read⟩

theorem Kept.apply (kept : Kept ledger) (fits : event.artifact ≤ u64Max)
    (applied : ledger.apply event = .ok next) : Kept next := by
  cases event with
  | observed artifact project producerRun producerRole kind path digest size =>
    obtain ⟨valid, newer, roomy, made, written⟩ := apply_observed applied
    have room := kept.room made
    have below := Nat.lt_of_le_of_ne fits (validateObservation_id valid)
    let record : ArtifactRecord :=
      { id := artifact, project := project, producerRun := producerRun, producerRole := producerRole
        kind := kind, path := path, digest := digest, size := size, status := .available
        supersedes := ledger.currentPath[(project, path)]? }
    rw [written]
    refine ⟨room.observed record kept.toConsistent rfl newer below rfl, ?_⟩
    refine Nat.le_trans ExtTreeMap.size_insert_le ?_
    rw [supersede_size]
    exact room.small
  | refreshed artifact digest size =>
    obtain ⟨record, record', amended⟩ := apply_refreshed applied
    exact ⟨kept.toConsistent.amended amended, amended.size ▸ kept.capped⟩
  | missing artifact =>
    obtain ⟨record, record', amended⟩ := apply_missing applied
    exact ⟨kept.toConsistent.amended amended, amended.size ▸ kept.capped⟩

theorem Kept.empty : Kept {} where
  keyed _ _ there := by simp at there
  paths _ _ _ := by simp
  byProject := ⟨fun _ _ => by simp, fun _ => by simp⟩
  byRun := ⟨fun _ _ => by simp, fun _ => by simp⟩
  byRole := ⟨fun _ _ => by simp, fun _ => by simp⟩
  capped := by simp

theorem Kept.after (events : List ArtifactEvent) (fits : ∀ event ∈ events, event.artifact ≤ u64Max)
    (kept : Kept ledger) : Kept (after ledger events) := by
  induction events generalizing ledger with
  | nil => exact kept
  | cons event rest ih =>
    refine ih (fun later member => fits later (List.mem_cons_of_mem _ member)) ?_
    show Kept ((applyInPlace event).run ledger).2
    rw [applyInPlace_run]
    cases applied : ledger.apply event with
    | error error => exact kept
    | ok next => exact kept.apply (fits event List.mem_cons_self) applied

private theorem nextArtifact_saturating {artifact : ArtifactId} {project producerRun producerRole : ℕ}
    {kind : ArtifactKind} {path digest : Text} {size : ℕ} (fits : artifact ≤ u64Max)
    (applied : ledger.apply (.observed artifact project producerRun producerRole kind path digest size) =
      .ok next) : ledger.nextArtifact ≤ artifact ∧ next.nextArtifact = artifact + 1 := by
  obtain ⟨valid, newer, roomy, made, written⟩ := apply_observed applied
  have below := Nat.lt_of_le_of_ne fits (validateObservation_id valid)
  exact ⟨newer, by rw [written]; exact Nat.min_eq_left below⟩

/-- Identities are issued in increasing order, from the next identity on. -/
theorem issued_increasing (events : List ArtifactEvent)
    (fits : ∀ event ∈ events, event.artifact ≤ u64Max) :
    (∀ id ∈ issued ledger events, ledger.nextArtifact ≤ id) ∧
      (issued ledger events).Pairwise (· < ·) := by
  induction events generalizing ledger with
  | nil => exact ⟨fun _ impossible => (List.not_mem_nil impossible).elim, .nil⟩
  | cons event rest ih =>
    have later : ∀ event ∈ rest, event.artifact ≤ u64Max :=
      fun other member => fits other (List.mem_cons_of_mem _ member)
    have first := fits event List.mem_cons_self
    cases applied : ledger.apply event with
    | error error =>
      have same : issued ledger (event :: rest) = issued ledger rest := by
        simp only [issued, applyInPlace_run, applied]
      rw [same]
      exact ih later
    | ok next =>
      have continues : (∀ id ∈ issued next rest, next.nextArtifact ≤ id) ∧
          (issued next rest).Pairwise (· < ·) := ih later
      cases event with
      | observed artifact project producerRun producerRole kind path digest size =>
        obtain ⟨newer, advanced⟩ := nextArtifact_saturating first applied
        have same : issued ledger
            (.observed artifact project producerRun producerRole kind path digest size :: rest) = artifact :: issued next rest := by
          simp only [issued, applyInPlace_run, applied]
        rw [same]
        rw [advanced] at continues
        refine ⟨?_, List.pairwise_cons.mpr ⟨continues.1, continues.2⟩⟩
        intro id member
        cases member with
        | head => exact newer
        | tail _ member => exact Nat.le_trans newer (Nat.le_of_lt (continues.1 id member))
      | refreshed artifact digest size =>
        obtain ⟨_, _, amended⟩ := apply_refreshed applied
        have same : issued ledger (.refreshed artifact digest size :: rest) = issued next rest := by
          simp only [issued, applyInPlace_run, applied]
        rw [same]
        exact ⟨by simpa [amended.written] using continues.1, continues.2⟩
      | missing artifact =>
        obtain ⟨_, _, amended⟩ := apply_missing applied
        have same : issued ledger (.missing artifact :: rest) = issued next rest := by
          simp only [issued, applyInPlace_run, applied]
        rw [same]
        exact ⟨by simpa [amended.written] using continues.1, continues.2⟩

/-- An available record is dropped only for the observation that supersedes it. -/
theorem Kept.spares (kept : Kept ledger) {id : ArtifactId} {record : ArtifactRecord}
    (read : ledger.records[id]? = some record) (available : record.status = .available)
    (dropped : ((applyInPlace event).run ledger).2.records[id]? = none) :
    ∃ artifact producerRun producerRole kind digest size,
      event = .observed artifact record.project producerRun producerRole kind record.path digest size ∧
        ledger.currentPath[(record.project, record.path)]? = some id := by
  rw [applyInPlace_run] at dropped
  cases applied : ledger.apply event with
  | error error =>
    rw [applied] at dropped
    rw [read] at dropped
    cases dropped
  | ok next =>
    rw [applied] at dropped
    dsimp only at dropped
    cases event with
    | observed artifact project producerRun producerRole kind path digest size =>
      obtain ⟨_, newer, roomy, made, written⟩ := apply_observed applied
      by_cases replaced : ledger.currentPath[(project, path)]? = some id
      · obtain ⟨known, there, rfl, rfl, _⟩ := (kept.paths project path id).mp replaced
        rw [read] at there
        cases there
        exact ⟨artifact, producerRun, producerRole, kind, digest, size, rfl, replaced⟩
      · have there := (kept.room made).kept id record read available replaced
        rw [written] at dropped
        dsimp only at dropped
        rw [lookup_insert] at dropped
        split at dropped
        · cases dropped
        · rw [supersede_lookup, if_neg replaced, there] at dropped
          cases dropped
    | refreshed artifact digest size =>
      obtain ⟨_, _, amended⟩ := apply_refreshed applied
      exact absurd (amended.retains dropped) (by simp [read])
    | missing artifact =>
      obtain ⟨_, _, amended⟩ := apply_missing applied
      exact absurd (amended.retains dropped) (by simp [read])

/-- After any events the ledger is bounded, one record is current at each path, the indexes list what is
retained, and identities are not used twice; the next event does all of its work or nothing, and drops an
available record only to supersede it. -/
theorem ledger_contract (events : List ArtifactEvent) (fits : ∀ event ∈ events, event.artifact ≤ u64Max) :
    (after {} events).records.size ≤ artifactLedgerCap ∧
    (∀ (project : ℕ) (path : Text) (id : ArtifactId),
      (after {} events).currentPath[(project, path)]? = some id ↔
        ∃ record, (after {} events).records[id]? = some record ∧ record.project = project ∧
          record.path = path ∧ record.status ≠ .superseded) ∧
    (∀ (id other : ArtifactId) (record known : ArtifactRecord),
      (after {} events).records[id]? = some record → (after {} events).records[other]? = some known →
        record.project = known.project → record.path = known.path → record.status ≠ .superseded →
          known.status ≠ .superseded → id = other) ∧
    Filed (after {} events).records (after {} events).byProject (·.project) ∧
    Filed (after {} events).records (after {} events).byRun (·.producerRun) ∧
    Filed (after {} events).records (after {} events).byRole (·.producerRole) ∧
    (∀ (id : ArtifactId) (record : ArtifactRecord), (after {} events).records[id]? = some record →
      record.id = id ∧ id < (after {} events).nextArtifact) ∧
    (issued {} events).Pairwise (· < ·) ∧
    ∀ event : ArtifactEvent,
      (∀ error, ((applyInPlace event).run (after {} events)).1 = .error error →
        ((applyInPlace event).run (after {} events)).2 = after {} events) ∧
      ∀ (id : ArtifactId) (record : ArtifactRecord), (after {} events).records[id]? = some record →
        record.status = .available → ((applyInPlace event).run (after {} events)).2.records[id]? = none →
          ∃ artifact producerRun producerRole kind digest size,
            event = .observed artifact record.project producerRun producerRole kind record.path digest size ∧
              (after {} events).currentPath[(record.project, record.path)]? = some id := by
  have kept : Kept (after {} events) := Kept.empty.after events fits
  refine ⟨kept.capped, kept.paths, ?_, kept.byProject, kept.byRun, kept.byRole, kept.keyed,
    (issued_increasing events fits).2, fun event => ⟨?_, fun _ _ => kept.spares⟩⟩
  · intro id other record known read there sameProject samePath live stillLive
    have first := (kept.paths ..).mpr ⟨record, read, sameProject, samePath, live⟩
    have second := (kept.paths ..).mpr ⟨known, there, rfl, rfl, stillLive⟩
    exact Option.some.inj (first.symm.trans second)
  · intro error refused
    rw [applyInPlace_run] at refused ⊢
    cases applied : (after {} events).apply event with
    | error error => rfl
    | ok next =>
      rw [applied] at refused
      cases refused

end Runs

section Crowded

/-- An observation of a project's plan. -/
def observesPlan (id project : ℕ) : ArtifactEvent := .observed id project 1 1 .plan ['p'] (List.replicate 64 'a') 5

/-- A project observes its plan twice, an unknown artifact goes missing, and further projects observe theirs. -/
def crowding (count : ℕ) : List ArtifactEvent :=
  [observesPlan 1 1, observesPlan 2 1, .missing 0] ++ (List.range' 3 count).map fun id => observesPlan id id

/-- What the observation of a plan leaves once there is room. -/
structure Planned (roomy : ArtifactLedger) (previous : Option ArtifactId) (id project : ℕ) (next : ArtifactLedger) :
    Prop where
  here : ∃ record, next.records[id]? = some record ∧ record.project = project ∧ record.status = .available
  there : ∀ other ≠ id, next.records[other]? = if previous = some other then
      (roomy.records[other]?).map fun record => { record with status := .superseded }
    else roomy.records[other]?
  size : next.records.size = roomy.records.size + 1
  later : next.nextArtifact = id + 1
  path : ∀ other, next.currentPath[(other, ['p'])]? =
    if project = other then some id else roomy.currentPath[(other, ['p'])]?

variable {ledger roomy : ArtifactLedger} {id project count : ℕ}

private theorem not_contains {records : ExtTreeMap ArtifactId ArtifactRecord} (absent : records[id]? = none) :
    ¬ records.contains id = true := by
  rw [← ExtTreeMap.mem_iff_contains, ExtTreeMap.mem_iff_isSome_getElem?, absent]
  exact Bool.false_ne_true

theorem Kept.planned (kept : Kept ledger) (newer : ledger.nextArtifact ≤ id) (positive : id ≠ 0) (fits : id < u64Max)
    (owned : project ≠ 0) (made : ledger.makeRoom ledger.currentPath[(project, ['p'])]? = .ok roomy) :
    Planned roomy ledger.currentPath[(project, ['p'])]? id project ((applyInPlace (observesPlan id project)).run ledger).2 := by
  have valid : validateObservation id project 1 1 ['p'] (List.replicate 64 'a') 5 = .ok () := by
    unfold validateObservation
    rw [if_neg (by omega)]
    rfl
  have fresh : ledger.records[id]? = none :=
    Option.eq_none_iff_forall_ne_some.mpr fun record read => Nat.not_lt.mpr newer (kept.keyed id record read).2
  have absent : (roomy.supersede ledger.currentPath[(project, ['p'])]?).records[id]? = none := by
    have gone : roomy.records[id]? = none := by
      refine Option.eq_none_iff_forall_ne_some.mpr fun record read => ?_
      rw [(kept.room made).known id record read] at fresh
      nomatch fresh
    rw [supersede_lookup, gone, Option.map_none, ite_self]
  obtain ⟨next, applied⟩ : ∃ next, ledger.apply (observesPlan id project) = .ok next := by
    rw [observesPlan, ArtifactLedger.apply, valid, ok_bind, if_neg (not_contains fresh)]
    dsimp only
    rw [if_neg (Nat.not_lt.mpr newer), made]
    exact ⟨_, rfl⟩
  rw [applyInPlace_run, applied]
  obtain ⟨-, -, roomy', made', rfl⟩ := apply_observed applied
  obtain rfl := Except.ok.inj (made.symm.trans made')
  refine ⟨⟨_, (lookup_insert ..).trans (if_pos rfl), rfl, rfl⟩, fun other differs => ?_, ?_, Nat.min_eq_left fits,
    fun other => ?_⟩
  · exact ((lookup_insert ..).trans (if_neg differs.symm)).trans (supersede_lookup ..)
  · exact ExtTreeMap.size_insert.trans ((if_neg (not_contains absent)).trans (by rw [supersede_size]))
  · rw [supersede_eq]
    exact (path_insert ..).trans (by simp only [Prod.mk.injEq, and_true])

/-- A ledger in which the first observation was superseded and every later one is current. -/
structure Crowded (count : ℕ) (ledger : ArtifactLedger) : Prop extends Kept ledger where
  full : ledger.records.size = count + 2
  later : ledger.nextArtifact = count + 3
  others : ∀ id record, ledger.records[id]? = some record →
    record.project < count + 3 ∧ (record.status ≠ .available → id = 1)
  first : ∃ record, ledger.records[1]? = some record ∧ record.status ≠ .available
  second : ledger.currentPath[(1, ['p'])]? = some 2

private theorem makeRoom_of_small (small : ledger.records.size < artifactLedgerCap) (replacement : Option ArtifactId) :
    ledger.makeRoom replacement = .ok ledger := if_pos small

private theorem fits_of_room (room : count + 2 ≤ artifactLedgerCap) : count + 3 < u64Max := by
  rw [artifactLedgerCap] at room
  exact (by omega : count + 3 < 5000).trans (by decide)

/-- Another project observes its first plan. -/
theorem Crowded.plan (crowded : Crowded count ledger) (room : count + 2 < artifactLedgerCap) :
    Crowded (count + 1) ((applyInPlace (observesPlan (count + 3) (count + 3))).run ledger).2 := by
  have known := crowded.others
  have free : ledger.currentPath[(count + 3, ['p'])]? = none := by
    refine Option.eq_none_iff_forall_ne_some.mpr fun id current => ?_
    obtain ⟨record, read, owned, -⟩ := (crowded.paths _ _ id).mp current
    exact absurd (known id record read).1 (by omega)
  have fits := fits_of_room room.le
  have made := makeRoom_of_small (crowded.full.trans_lt room) ledger.currentPath[(count + 3, ['p'])]?
  have planned := crowded.toKept.planned crowded.later.le (by omega) fits (by omega) made
  have kept := Kept.after [observesPlan (count + 3) (count + 3)]
    (fun event member => by rw [List.mem_singleton.mp member]; exact fits.le) crowded.toKept
  change Kept ((applyInPlace _).run ledger).2 at kept
  rw [free] at planned
  refine ⟨kept, by rw [planned.size, crowded.full], planned.later, fun id record read => ?_, ?_, ?_⟩
  · by_cases same : id = count + 3
    · obtain ⟨made, here, owned, available⟩ := planned.here
      rw [same, here] at read
      obtain rfl := Option.some.inj read
      exact ⟨by omega, fun other => absurd available other⟩
    · rw [planned.there id same, if_neg nofun] at read
      exact ⟨(known id record read).1.trans (by omega), (known id record read).2⟩
  · rw [planned.there 1 (by omega), if_neg nofun]
    exact crowded.first
  · rw [planned.path, if_neg (by omega)]
    exact crowded.second

theorem Crowded.plans (crowded : Crowded count ledger) (more : ℕ) (room : count + more + 2 ≤ artifactLedgerCap) :
    Crowded (count + more) (after ledger ((List.range' (count + 3) more).map fun id => observesPlan id id)) := by
  induction more generalizing count ledger with
  | zero => exact crowded
  | succ more ih =>
    rw [List.range'_succ, List.map_cons, Nat.add_comm more 1, ← Nat.add_assoc]
    exact ih (crowded.plan (by omega)) (by omega)

/-- One project observes its plan twice, and an unknown artifact goes missing. -/
theorem crowded_start : Crowded 0 (after {} [observesPlan 1 1, observesPlan 2 1, .missing 0]) := by
  have small : (after {} []).records.size < artifactLedgerCap := by simp [after, artifactLedgerCap]
  have empty (project : ℕ) : (after {} []).currentPath[(project, ['p'])]? = none := by simp [after]
  have first : Planned {} none 1 1 (after {} [observesPlan 1 1]) := by
    rw [← empty 1]
    exact Kept.empty.planned le_rfl Nat.one_ne_zero (by decide) Nat.one_ne_zero (makeRoom_of_small small _)
  have path : (after {} [observesPlan 1 1]).currentPath[(1, ['p'])]? = some 1 := by rw [first.path, if_pos rfl]
  have second : Planned (after {} [observesPlan 1 1]) (some 1) 2 1 (after {} [observesPlan 1 1, observesPlan 2 1]) := by
    have kept : Kept (after {} [observesPlan 1 1]) := Kept.empty.after _ (by decide)
    rw [← path]
    refine kept.planned first.later.le (by decide) (by decide) Nat.one_ne_zero (makeRoom_of_small ?_ _)
    rw [first.size]
    simp [artifactLedgerCap]
  have missing : (after {} [observesPlan 1 1, observesPlan 2 1]).records[0]? = none := by
    rw [second.there 0 (by decide), if_neg (by decide), first.there 0 (by decide), if_neg (by decide)]
    simp
  have refused : after {} [observesPlan 1 1, observesPlan 2 1, .missing 0] =
      after {} [observesPlan 1 1, observesPlan 2 1] := by
    change ((applyInPlace (.missing 0)).run (after {} [observesPlan 1 1, observesPlan 2 1])).2 = _
    rw [applyInPlace_run, ArtifactLedger.apply, amend, missing]
  have kept : Kept (after {} [observesPlan 1 1, observesPlan 2 1]) := Kept.empty.after _ (by decide)
  rw [refused]
  obtain ⟨plan, read, owned, available⟩ := first.here
  have superseded : (after {} [observesPlan 1 1, observesPlan 2 1]).records[1]? =
      some { plan with status := .superseded } := by
    rw [second.there 1 (by decide), if_pos rfl, read]
    rfl
  refine ⟨kept, by rw [second.size, first.size]; rfl, second.later, fun id record there => ?_, ⟨_, superseded, nofun⟩,
    by rw [second.path, if_pos rfl]⟩
  by_cases newer : id = 2
  · obtain ⟨made, here, owner, current⟩ := second.here
    rw [newer, here] at there
    obtain rfl := Option.some.inj there
    exact ⟨by omega, fun other => absurd current other⟩
  by_cases older : id = 1
  · rw [older, superseded] at there
    obtain rfl := Option.some.inj there
    exact ⟨owned.trans_lt (by decide), fun _ => older⟩
  · rw [second.there id newer, if_neg (by simpa using Ne.symm older), first.there id older, if_neg nofun] at there
    simp at there

/-- In a full ledger the superseded record makes room. -/
theorem Crowded.evicts (crowded : Crowded count ledger) (full : count + 2 = artifactLedgerCap) :
    Planned (ledger.removeFromProjection 1) (some 2) (count + 3) 1 ((applyInPlace (observesPlan (count + 3) 1)).run ledger).2 := by
  have made : ledger.makeRoom ledger.currentPath[(1, ['p'])]? = .ok (ledger.removeFromProjection 1) := by
    rw [makeRoom, if_neg (by rw [crowded.full, full]; exact lt_irrefl _)]
    cases found : ledger.records.toList.find? fun entry => entry.2.status != .available with
    | none =>
      obtain ⟨record, read, gone⟩ := crowded.first
      have listed := ExtTreeMap.mem_toList_iff_getElem?_eq_some.mpr read
      exact absurd (List.find?_eq_none.mp found _ listed) (by simpa using gone)
    | some entry =>
      have read := ExtTreeMap.mem_toList_iff_getElem?_eq_some.mp (List.mem_of_find?_eq_some found)
      have oldest := (crowded.others _ _ read).2 (by simpa using List.find?_some found)
      simp only [Option.map_some, Option.some_or, oldest]
  have fits := fits_of_room full.le
  rw [← crowded.second]
  exact crowded.toKept.planned crowded.later.le (by omega) fits Nat.one_ne_zero made

private theorem after_append (events more : List ArtifactEvent) :
    after ledger (events ++ more) = after (after ledger events) more := List.foldl_append

private theorem crowding_crowded (room : count + 2 ≤ artifactLedgerCap) :
    Crowded count (after {} (crowding count)) := by
  have crowded := crowded_start.plans count (by omega)
  rw [Nat.zero_add] at crowded
  rw [crowding, after_append]
  exact crowded

private theorem crowding_fits {event : ArtifactEvent} (member : event ∈ crowding count) :
    event.artifact ≤ count + 2 := by
  simp only [crowding, List.mem_append, List.mem_cons, List.not_mem_nil, or_false, List.mem_map,
    List.mem_range'_1] at member
  obtain (rfl | rfl | rfl) | ⟨id, inside, rfl⟩ := member
  · exact Nat.le_add_left 1 (count + 1)
  · exact Nat.le_add_left 2 count
  · exact Nat.zero_le _
  · exact (by omega : id ≤ count + 2)

/-- In a full ledger, after a refused event, the record superseded first makes room for the next one at its path. -/
theorem ledger_contract_crowded : ∃ count, count + 2 = artifactLedgerCap ∧
    (after {} (crowding count ++ [observesPlan (count + 3) 1])).records.size ≤ artifactLedgerCap ∧
    (after {} (crowding count ++ [observesPlan (count + 3) 1])).records[1]? = none ∧
    (after {} (crowding count ++ [observesPlan (count + 3) 1])).currentPath[(1, ['p'])]? = some (count + 3) ∧
    ∀ id record, (after {} (crowding count ++ [observesPlan (count + 3) 1])).records[id]? = some record →
      record.project = 1 → record.path = ['p'] → record.status ≠ .superseded → id = count + 3 := by
  obtain ⟨count, full⟩ : ∃ count, count + 2 = artifactLedgerCap := ⟨4094, rfl⟩
  have fits : ∀ event ∈ crowding count ++ [observesPlan (count + 3) 1], event.artifact ≤ u64Max := by
    intro event member
    have early : event.artifact ≤ count + 3 := by
      obtain first | last := List.mem_append.mp member
      · exact (crowding_fits first).trans (Nat.le_succ _)
      · rw [List.mem_singleton.mp last]
        exact le_rfl
    exact early.trans (fits_of_room full.le).le
  have crowded := crowding_crowded full.le
  have last : after {} (crowding count ++ [observesPlan (count + 3) 1]) =
      ((applyInPlace (observesPlan (count + 3) 1)).run (after {} (crowding count))).2 := after_append ..
  have evicts := crowded.evicts full
  obtain ⟨oldest, read, gone⟩ := crowded.first
  have absent : ((after {} (crowding count)).removeFromProjection 1).records[1]? = none := by
    rw [removeFromProjection_some read]
    exact (lookup_erase ..).trans (if_pos rfl)
  obtain ⟨bounded, paths, -⟩ := ledger_contract _ fits
  have current : (after {} (crowding count ++ [observesPlan (count + 3) 1])).currentPath[(1, ['p'])]? =
      some (count + 3) := by
    rw [last, evicts.path, if_pos rfl]
  refine ⟨count, full, bounded, ?_, current, fun id record there owned place live => ?_⟩
  · rw [last, evicts.there 1 (by omega), if_neg (by decide), absent]
  · have known := (paths 1 ['p'] id).mpr ⟨record, there, owned, place, live⟩
    exact Option.some.inj (known.symm.trans current)

end Crowded

end Uniterm.Model.Work.ArtifactLedger
