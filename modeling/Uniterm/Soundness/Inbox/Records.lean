import Uniterm.Model.Inbox.Board

/-! # What one recorded event does to the board

Every mutation of the board goes through `record`. The lemmas below state its effect entry by
entry, so that later proofs never unfold the projection: `record_entries` for a single event, and
the two batch forms for the removals and the lease releases that a single call records in a row.
-/

namespace Uniterm.Model.Inbox.Board

open Std

section Lookup

variable (b : Board)

@[simp] theorem truncate_entries : b.truncate.entries = b.entries := by rw [truncate]
@[simp] theorem truncate_projects : b.truncate.projects = b.projects := by rw [truncate]
@[simp] theorem truncate_sequence : b.truncate.sequence = b.sequence := by rw [truncate]
@[simp] theorem truncate_changed : b.truncate.changed = b.changed := by rw [truncate]
@[simp] theorem truncate_revoked : b.truncate.revoked = b.revoked := by rw [truncate]

theorem truncate_journal : b.truncate.journal = b.journal.drop (b.journal.length - journalLimit) := by
  rw [truncate]

theorem truncate_floor : b.truncate.floor = (b.journal.take (b.journal.length - journalLimit)).foldl
    (fun floor record => max floor record.1) b.floor := by
  rw [truncate]

@[simp] theorem projectEvent_sequence (event : Event) :
    (b.projectEvent event).sequence = b.sequence := by
  cases event with
  | remove id => simp only [projectEvent]; cases b.entries[id]? <;> rfl
  | _ => rfl

@[simp] theorem projectEvent_changed (event : Event) :
    (b.projectEvent event).changed = b.changed := by
  cases event with
  | remove id => simp only [projectEvent]; cases b.entries[id]? <;> rfl
  | _ => rfl

@[simp] theorem record_sequence (event : Event) : (b.record event).sequence = b.sequence + 1 := by
  rw [record, truncate_sequence, projectEvent_sequence, append]

@[simp] theorem recordAll_nil : b.recordAll [] = b := by rw [recordAll, List.foldl_nil]

@[simp] theorem recordAll_cons (event : Event) (rest : List Event) :
    b.recordAll (event :: rest) = (b.record event).recordAll rest := by
  rw [recordAll, List.foldl_cons, ← recordAll]

theorem mem_values {e : Entry} : e ∈ b.values ↔ ∃ id : ℕ, b.entries[id]? = some e := by
  simp only [values, List.mem_map, Prod.exists, exists_eq_right,
    ExtTreeMap.mem_toList_iff_getElem?_eq_some]

/-- The entry an event leaves under a key, given the entry that was there. -/
def entryAfter (event : Event) (sequence key : ℕ) (before : Option Entry) : Option Entry :=
  match event with
  | .post message => if message.id = key then
      some { message, revision := 0, changed := sequence, acknowledged := ∅, claim := none }
      else before
  | .ack id author => if id = key then before.map fun e =>
      { e with acknowledged := e.acknowledged.insert author, changed := sequence } else before
  | .claim id claim => if id = key then before.map fun e =>
      { e with revision := e.revision + 1, changed := sequence, claim } else before
  | .remove id => if id = key then none else before
  | _ => before

private theorem projectEvent_entries (event : Event) (key : ℕ) :
    (b.projectEvent event).entries[key]? =
      entryAfter event b.sequence key b.entries[key]? := by
  cases event with
  | post message =>
    simp only [projectEvent, entryAfter, ExtTreeMap.getElem?_insert, Std.compare_eq_iff_eq]
  | ack id author =>
    simp only [projectEvent, entryAfter, ExtTreeMap.getElem?_modify, Std.compare_eq_iff_eq]
    split <;> simp_all
  | claim id claim =>
    simp only [projectEvent, entryAfter, ExtTreeMap.getElem?_modify, Std.compare_eq_iff_eq]
    split <;> simp_all
  | remove id =>
    simp only [projectEvent, entryAfter]
    cases found : b.entries[id]? with
    | none =>
      by_cases same : id = key
      · rw [if_pos same, ← same, found]
      · rw [if_neg same]
    | some e => simp only [ExtTreeMap.getElem?_erase, Std.compare_eq_iff_eq]
  | _ => rfl

/-- The single-event specification of the live entries. -/
theorem record_entries (event : Event) (key : ℕ) :
    (b.record event).entries[key]? =
      entryAfter event (b.sequence + 1) key b.entries[key]? := by
  rw [record, truncate_entries, projectEvent_entries, append]

theorem record_revoked (event : Event) : (b.record event).revoked =
    match event with
    | .revoke author => b.revoked.insert author
    | _ => b.revoked := by
  rw [record, truncate_revoked]
  cases event with
  | remove id => simp only [projectEvent]; split <;> rfl
  | _ => rfl

theorem record_changed (event : Event) : (b.record event).changed =
    match b.eventProject event with
    | none => b.changed
    | some project => b.changed.insert project (b.sequence + 1) := by
  rw [record, truncate_changed, projectEvent_changed]
  rfl

end Lookup

section Index

variable (b : Board)

theorem mem_projectIds {project : ProjectId} {id : ℕ} :
    id ∈ b.projectIds project ↔ ∃ ids, b.projects[project]? = some ids ∧ id ∈ ids := by
  cases found : b.projects[project]? with
  | none => simp [projectIds, found]
  | some ids => simp [projectIds, found, ExtTreeSet.mem_toList]

private theorem mem_index_insert {project other : ProjectId} {id fresh : ℕ} :
    (∃ ids, (b.projects.insert other (((b.projects[other]?).getD ∅).insert fresh))[project]? =
        some ids ∧ id ∈ ids) ↔
      (other = project ∧ id = fresh) ∨ id ∈ b.projectIds project := by
  rw [mem_projectIds]
  simp only [ExtTreeMap.getElem?_insert, Std.compare_eq_iff_eq]
  by_cases same : other = project
  · subst same
    cases found : b.projects[other]? with
    | none => simp [@eq_comm _ fresh id]
    | some ids => simp [@eq_comm _ fresh id]
  · simp [same]

private theorem mem_index_unindex {project other : ProjectId} {id gone : ℕ} :
    (∃ ids, (b.unindex other gone)[project]? = some ids ∧ id ∈ ids) ↔
      id ∈ b.projectIds project ∧ ¬(other = project ∧ id = gone) := by
  rw [mem_projectIds, unindex]
  cases found : b.projects[other]? with
  | none =>
    constructor
    · rintro ⟨ids, read, member⟩
      exact ⟨⟨ids, read, member⟩, fun ⟨same, _⟩ => by simp [same, read] at found⟩
    · exact And.left
  | some ids =>
    by_cases same : other = project
    · subst same
      by_cases last : (ids.erase gone).isEmpty = true
      · have none_left : ∀ k ∈ ids, k = gone := by
          intro k member
          by_contra other
          have kept : k ∈ ids.erase gone := by
            simp [ExtTreeSet.mem_erase, Ne.symm other, member]
          simp [ExtTreeSet.isEmpty_iff.mp last] at kept
        simp only [last, ↓reduceIte, ExtTreeMap.getElem?_erase, Std.compare_eq_iff_eq, found,
          Option.some.injEq, reduceCtorEq, false_and, exists_false, true_and, false_iff, not_and,
          not_not, exists_eq_left']
        exact fun member => none_left id member
      · simp only [last, Bool.false_eq_true, ↓reduceIte, ExtTreeMap.getElem?_insert,
          Std.compare_eq_iff_eq, found, Option.some.injEq, exists_eq_left', true_and,
          ExtTreeSet.mem_erase, ne_eq, @eq_comm _ gone id]
        exact and_comm
    · dsimp only
      split <;>
        simp [ExtTreeMap.getElem?_erase, ExtTreeMap.getElem?_insert, same]

/-- How an event moves the project index. -/
theorem record_mem_projectIds (event : Event) {project : ProjectId} {id : ℕ} :
    id ∈ (b.record event).projectIds project ↔
      match event with
      | .post message => (message.project = project ∧ id = message.id) ∨ id ∈ b.projectIds project
      | .remove gone => id ∈ b.projectIds project ∧
          ¬((b.entries[gone]?.map (·.message.project)) = some project ∧ id = gone)
      | _ => id ∈ b.projectIds project := by
  have index : (b.record event).projects = (b.projectEvent event).projects := by
    rw [record, truncate_projects]
    cases event with
    | remove gone => simp only [projectEvent, append, unindex]; split <;> rfl
    | _ => rfl
  rw [mem_projectIds, index]
  cases event with
  | post message => exact b.mem_index_insert
  | remove gone =>
    simp only [projectEvent]
    cases found : b.entries[gone]? with
    | none => simp [mem_projectIds]
    | some e => simpa using b.mem_index_unindex
  | _ => exact b.mem_projectIds.symm

end Index

end Uniterm.Model.Inbox.Board
