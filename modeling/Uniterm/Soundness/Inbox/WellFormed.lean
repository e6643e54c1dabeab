import Uniterm.Machine.Run
import Uniterm.Soundness.Inbox.Records

/-! # The representation invariant of the board

`WellFormed` ties the live entries to their keys, to the project index and to the change sequence.
It is kept by every recorded event whose post carries a fresh id, hence by every call. The batch
lemmas state what the removals and the lease releases of one call do to the whole board, which is
where the invariants of the later modules hold again: in between two removals they need not.
-/

namespace Uniterm.Model.Inbox.Board

open Std Machine

structure WellFormed (b : Board) : Prop where
  keyed : ∀ (id : ℕ) e, b.entries[id]? = some e → e.message.id = id
  bounded : ∀ (id : ℕ) e, b.entries[id]? = some e → id ≤ b.sequence ∧ e.changed ≤ b.sequence
  stamped : ∀ (id : ℕ) e, b.entries[id]? = some e → 0 < e.changed
  distinct : ∀ (id other : ℕ) e e', b.entries[id]? = some e → b.entries[other]? = some e' →
    e.changed = e'.changed → id = other
  indexed : ∀ project id, id ∈ b.projectIds project ↔
    ∃ e, b.entries[id]? = some e ∧ e.message.project = project
  listed : ∀ (id : ℕ) e, b.entries[id]? = some e → e.message.project ∈ b.changed
  journalled : ∀ record ∈ b.journal, record.1 ≤ b.sequence
  floored : b.floor ≤ b.sequence

theorem wellFormed_empty : WellFormed {} where
  keyed := by simp
  bounded := by simp
  stamped := by simp
  distinct := by simp
  indexed := by simp [projectIds]
  listed := by simp
  journalled := by simp
  floored := le_rfl

/-- Only a post must carry the id that the next sequence number assigns. -/
def Fresh (b : Board) : Event → Prop
  | .post message => message.id = b.sequence + 1
  | _ => True

/-- An entry present after an event is new, was touched by it, or was there before. -/
theorem record_entry_cases {b : Board} {event : Event} {id : ℕ} {e : Entry}
    (found : (b.record event).entries[id]? = some e) :
    (∃ message, event = .post message ∧ message.id = id ∧
      e = { message, revision := 0, changed := b.sequence + 1, acknowledged := ∅, claim := none }) ∨
    (∃ old, b.entries[id]? = some old ∧ e.message = old.message ∧
      (e = old ∨ e.changed = b.sequence + 1 ∧
        ((∃ author, event = .ack id author) ∨ ∃ claim, event = .claim id claim))) := by
  rw [record_entries] at found
  cases event with
  | post message =>
    simp only [entryAfter] at found
    split at found
    · next same => exact .inl ⟨message, rfl, same, (Option.some.inj found).symm⟩
    · exact .inr ⟨e, found, rfl, .inl rfl⟩
  | ack other author =>
    simp only [entryAfter] at found
    split at found
    · next same =>
      obtain ⟨old, read, rfl⟩ := Option.map_eq_some_iff.mp found
      exact .inr ⟨old, read, rfl, .inr ⟨rfl, .inl ⟨author, by rw [same]⟩⟩⟩
    · exact .inr ⟨e, found, rfl, .inl rfl⟩
  | claim other claim =>
    simp only [entryAfter] at found
    split at found
    · next same =>
      obtain ⟨old, read, rfl⟩ := Option.map_eq_some_iff.mp found
      exact .inr ⟨old, read, rfl, .inr ⟨rfl, .inr ⟨claim, by rw [same]⟩⟩⟩
    · exact .inr ⟨e, found, rfl, .inl rfl⟩
  | remove other =>
    simp only [entryAfter] at found
    split at found
    · contradiction
    · exact .inr ⟨e, found, rfl, .inl rfl⟩
  | _ => exact .inr ⟨e, found, rfl, .inl rfl⟩

/-- The touched entry is unique, so its new stamp is shared with no other entry. -/
private theorem record_stamp {b : Board} (wf : b.WellFormed) {event : Event}
    {id : ℕ} {e : Entry} (found : (b.record event).entries[id]? = some e) :
    b.entries[id]? = some e ∧ e.changed ≤ b.sequence ∨
      e.changed = b.sequence + 1 ∧ ((∃ message, event = .post message ∧ message.id = id) ∨
        (∃ author, event = .ack id author) ∨ ∃ claim, event = .claim id claim) := by
  obtain ⟨message, posted, same, rfl⟩ | ⟨old, read, _, rfl | ⟨stamp, touched⟩⟩ :=
    record_entry_cases found
  · exact .inr ⟨rfl, .inl ⟨message, posted, same⟩⟩
  · exact .inl ⟨read, (wf.bounded id e read).2⟩
  · exact .inr ⟨stamp, .inr touched⟩

private theorem projectEvent_journal_floor {b : Board} {event : Event} {bound : ℕ}
    (journalled : ∀ r ∈ b.journal, r.1 ≤ bound) (floored : b.floor ≤ bound)
    (sequence : b.sequence ≤ bound) :
    (∀ r ∈ (b.projectEvent event).journal, r.1 ≤ bound) ∧
      (b.projectEvent event).floor ≤ bound := by
  cases event with
  | remove id =>
    simp only [projectEvent]
    cases b.entries[id]? with
    | none => exact ⟨journalled, floored⟩
    | some e => exact ⟨fun r member => journalled r (List.mem_filter.mp member).1, sequence⟩
  | _ => exact ⟨journalled, floored⟩

private theorem truncate_journal_floor {b : Board} {bound : ℕ}
    (journalled : ∀ r ∈ b.journal, r.1 ≤ bound) (floored : b.floor ≤ bound) :
    (∀ r ∈ b.truncate.journal, r.1 ≤ bound) ∧ b.truncate.floor ≤ bound := by
  rw [truncate_journal, truncate_floor]
  refine ⟨fun r member => journalled r (List.mem_of_mem_drop member), ?_⟩
  have dropped : ∀ r ∈ b.journal.take (b.journal.length - journalLimit), r.1 ≤ bound :=
    fun r member => journalled r (List.mem_of_mem_take member)
  generalize b.journal.take (b.journal.length - journalLimit) = gone at dropped
  generalize b.floor = floor at floored
  induction gone generalizing floor with
  | nil => exact floored
  | cons r rest ih =>
    exact ih (fun other member => dropped other (List.mem_cons_of_mem _ member)) _
      (max_le floored (dropped r (List.mem_cons_self ..)))

theorem record_journal_floor {b : Board} (journalled : ∀ r ∈ b.journal, r.1 ≤ b.sequence)
    (floored : b.floor ≤ b.sequence) (event : Event) :
    (∀ r ∈ (b.record event).journal, r.1 ≤ b.sequence + 1) ∧
      (b.record event).floor ≤ b.sequence + 1 := by
  have appended : ∀ r ∈ (b.append event).journal, r.1 ≤ b.sequence + 1 := by
    intro r member
    rw [append, List.mem_append, List.mem_singleton] at member
    rcases member with old | rfl
    · exact Nat.le_succ_of_le (journalled r old)
    · exact le_rfl
  have projected : (∀ r ∈ ((b.append event).projectEvent event).journal, r.1 ≤ b.sequence + 1) ∧
      ((b.append event).projectEvent event).floor ≤ b.sequence + 1 :=
    projectEvent_journal_floor appended (Nat.le_succ_of_le floored) le_rfl
  exact truncate_journal_floor projected.1 projected.2

/-- Every recorded event keeps the representation invariant. -/
theorem WellFormed.record {b : Board} (wf : b.WellFormed) {event : Event} (fresh : b.Fresh event) :
    (b.record event).WellFormed where
  keyed id e found := by
    obtain ⟨message, _, same, rfl⟩ | ⟨old, read, message, _⟩ := record_entry_cases found
    · exact same
    · rw [message]
      exact wf.keyed id old read
  bounded id e found := by
    rw [record_sequence]
    obtain ⟨message, rfl, same, rfl⟩ | ⟨old, read, _, rfl | ⟨stamp, _⟩⟩ := record_entry_cases found
    · exact ⟨by rw [← same, show message.id = b.sequence + 1 from fresh], le_rfl⟩
    · have := wf.bounded id e read
      omega
    · have := wf.bounded id old read
      omega
  stamped id e found := by
    rcases record_stamp wf found with ⟨read, _⟩ | ⟨stamp, _⟩
    · exact wf.stamped id e read
    · omega
  distinct id other e e' found found' same := by
    rcases record_stamp wf found with ⟨read, low⟩ | ⟨stamp, touched⟩ <;>
      rcases record_stamp wf found' with ⟨read', low'⟩ | ⟨stamp', touched'⟩
    · exact wf.distinct id other e e' read read' same
    · omega
    · omega
    · rcases touched with ⟨m, rfl, rfl⟩ | ⟨a, rfl⟩ | ⟨c, rfl⟩ <;>
        rcases touched' with ⟨m', eq, rfl⟩ | ⟨a', eq⟩ | ⟨c', eq⟩ <;> cases eq <;> rfl
  indexed project id := by
    rw [record_mem_projectIds, record_entries]
    cases event with
    | post message =>
      have absent : b.entries[message.id]? = none := by
        cases found : b.entries[message.id]? with
        | none => rfl
        | some e =>
          have := (wf.bounded _ e found).1
          have : message.id = b.sequence + 1 := fresh
          omega
      simp only [entryAfter, wf.indexed]
      by_cases same : message.id = id
      · subst same
        simp [absent]
      · simp [same, Ne.symm same]
    | ack other author =>
      simp only [entryAfter, wf.indexed]
      by_cases same : other = id <;> simp [same]
    | claim other claim =>
      simp only [entryAfter, wf.indexed]
      by_cases same : other = id <;> simp [same]
    | remove other =>
      simp only [entryAfter, wf.indexed]
      by_cases same : other = id
      · subst same
        cases b.entries[other]? <;> simp
      · simp [same, Ne.symm same]
    | _ => exact wf.indexed project id
  listed id e found := by
    rw [record_changed]
    obtain ⟨message, rfl, same, rfl⟩ | ⟨old, read, message, _⟩ := record_entry_cases found
    · simp [eventProject]
    · rw [message]
      have present := wf.listed id old read
      cases b.eventProject event with
      | none => exact present
      | some woken => simp [present]
  journalled record member := by
    rw [record_sequence]
    exact (record_journal_floor wf.journalled wf.floored event).1 record member
  floored := by
    rw [record_sequence]
    exact (record_journal_floor wf.journalled wf.floored event).2

theorem WellFormed.recordAll {b : Board} (wf : b.WellFormed) {events : List Event}
    (fresh : ∀ b : Board, ∀ event ∈ events, b.Fresh event) : (b.recordAll events).WellFormed := by
  induction events generalizing b with
  | nil => rwa [recordAll_nil]
  | cons event rest ih =>
    rw [recordAll_cons]
    exact ih (wf.record (fresh b event (List.mem_cons_self ..)))
      (fun b other member => fresh b other (List.mem_cons_of_mem _ member))

section Batches

variable {b : Board}

@[simp] theorem removeAll_nil (b : Board) : b.removeAll [] = b := recordAll_nil b

theorem removeAll_cons (b : Board) (id : ℕ) (rest : List ℕ) :
    b.removeAll (id :: rest) = (b.record (.remove id)).removeAll rest := by
  rw [removeAll, List.map_cons, recordAll_cons, ← removeAll]

@[simp] theorem releaseAll_nil (b : Board) : b.releaseAll [] = b := recordAll_nil b

theorem releaseAll_cons (b : Board) (id : ℕ) (rest : List ℕ) :
    b.releaseAll (id :: rest) = (b.record (.claim id none)).releaseAll rest := by
  rw [releaseAll, List.map_cons, recordAll_cons, ← releaseAll]

theorem WellFormed.removeAll (wf : b.WellFormed) (ids : List ℕ) :
    (b.removeAll ids).WellFormed := by
  apply wf.recordAll
  intro _ event member
  obtain ⟨id, _, rfl⟩ := List.mem_map.mp member
  trivial

theorem WellFormed.releaseAll (wf : b.WellFormed) (ids : List ℕ) :
    (b.releaseAll ids).WellFormed := by
  apply wf.recordAll
  intro _ event member
  obtain ⟨id, _, rfl⟩ := List.mem_map.mp member
  trivial

/-- A batch of removals erases exactly its ids. -/
theorem removeAll_entries (b : Board) (ids : List ℕ) (key : ℕ) :
    (b.removeAll ids).entries[key]? =
      if key ∈ ids then none else b.entries[key]? := by
  induction ids generalizing b with
  | nil => simp
  | cons id rest ih =>
    rw [removeAll_cons, ih, record_entries]
    by_cases same : id = key
    · simp [entryAfter, same]
    · simp [entryAfter, same, Ne.symm same]

/-- What a batch of lease releases may do to one entry. -/
def Releases (ids : List ℕ) (key : ℕ) (before after : Option Entry) : Prop :=
  (key ∉ ids ∧ after = before) ∨
    (key ∈ ids ∧ (before = none ∧ after = none ∨ ∃ e e', before = some e ∧ after = some e' ∧
      e'.message = e.message ∧ e'.claim = none ∧ e.revision < e'.revision))

theorem releaseAll_entries (b : Board) (ids : List ℕ) (key : ℕ) :
    Releases ids key b.entries[key]?
      (b.releaseAll ids).entries[key]? := by
  induction ids generalizing b with
  | nil => exact .inl ⟨List.not_mem_nil, by simp⟩
  | cons id rest ih =>
    rw [releaseAll_cons]
    have later := ih (b.record (.claim id none))
    have first := b.record_entries (.claim id none) key
    by_cases same : id = key
    · -- The first release empties the claim; later ones for the same id only raise the revision.
      refine .inr ⟨by simp [same], ?_⟩
      simp only [entryAfter, same, ↓reduceIte] at first
      cases found : b.entries[key]? with
      | none =>
        rw [found, Option.map_none] at first
        rw [same, first] at later
        rcases later with ⟨_, after⟩ | ⟨_, ⟨_, after⟩ | ⟨e, _, absurd, _⟩⟩
        · exact .inl ⟨rfl, by rw [same]; exact after⟩
        · exact .inl ⟨rfl, by rw [same]; exact after⟩
        · contradiction
      | some e =>
        rw [found, Option.map_some] at first
        rw [same, first] at later
        rw [same]
        right
        rcases later with ⟨_, after⟩ | ⟨_, ⟨absurd, _⟩ | ⟨old, new, read, after, message, free, up⟩⟩
        · exact ⟨e, _, rfl, after, rfl, rfl, Nat.lt_succ_self _⟩
        · contradiction
        · cases read
          exact ⟨e, new, rfl, after, message, free, Nat.lt_of_succ_lt up⟩
    · simp only [entryAfter, same, ↓reduceIte] at first
      rw [first] at later
      simpa only [Releases, List.mem_cons, Ne.symm same, false_or] using later

@[simp] theorem removeAll_revoked (b : Board) (ids : List ℕ) :
    (b.removeAll ids).revoked = b.revoked := by
  induction ids generalizing b with
  | nil => simp
  | cons id rest ih => rw [removeAll_cons, ih, record_revoked]

@[simp] theorem releaseAll_revoked (b : Board) (ids : List ℕ) :
    (b.releaseAll ids).revoked = b.revoked := by
  induction ids generalizing b with
  | nil => simp
  | cons id rest ih => rw [releaseAll_cons, ih, record_revoked]

/-- On a well-formed board the ids selected by a condition are the keys of the entries meeting it. -/
theorem WellFormed.mem_idsWhere (wf : b.WellFormed) {condition : Entry → Bool} {id : ℕ} :
    id ∈ b.idsWhere condition ↔ ∃ e, b.entries[id]? = some e ∧ condition e = true := by
  simp only [idsWhere, List.mem_map, List.mem_filter, mem_values]
  constructor
  · rintro ⟨e, ⟨⟨key, read⟩, holds⟩, rfl⟩
    exact ⟨e, by rw [wf.keyed key e read]; exact read, holds⟩
  · rintro ⟨e, read, holds⟩
    exact ⟨e, ⟨⟨id, read⟩, holds⟩, wf.keyed id e read⟩

/-- Live entries have distinct stamps, whichever way they are listed. -/
theorem WellFormed.values_distinct (wf : b.WellFormed) :
    b.values.Pairwise fun e e' => e.changed ≠ e'.changed := by
  rw [values, List.pairwise_map]
  refine b.entries.distinct_keys_toList.imp_of_mem fun {pair pair'} member member' apart same => ?_
  have read := Std.ExtTreeMap.mem_toList_iff_getElem?_eq_some.mp member
  have read' := Std.ExtTreeMap.mem_toList_iff_getElem?_eq_some.mp member'
  exact apart (Std.compare_eq_iff_eq.mpr (wf.distinct _ _ _ _ read read' same))

theorem WellFormed.projectEntries_distinct (wf : b.WellFormed) (project : ProjectId) :
    (b.projectEntries project).Pairwise fun e e' => e.changed ≠ e'.changed := by
  have ids : (b.projectIds project).Pairwise (· ≠ ·) := by
    unfold projectIds
    cases b.projects[project]? with
    | none => exact .nil
    | some ids => exact ids.distinct_toList.imp fun apart same => apart (Std.compare_eq_iff_eq.mpr same)
  rw [projectEntries, List.pairwise_filterMap]
  refine ids.imp fun {id other} apart e read e' read' same => ?_
  exact apart (wf.distinct id other e e' read read' same)

end Batches

end Uniterm.Model.Inbox.Board
