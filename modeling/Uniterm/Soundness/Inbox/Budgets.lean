import Mathlib.Algebra.BigOperators.Ring.List
import Mathlib.Algebra.Ring.Nat
import Mathlib.Data.List.Perm.Subperm
import Uniterm.Soundness.Inbox.Moves
import Uniterm.ToMathlib.TreeTotals

/-! # Budgets and erasure

The quotas are checked once, before an event is recorded, and nothing re-checks them afterwards.
`Affordable` says what the checks of one call have established when it records, `Budgeted` is the
invariant they carry, and both are about the live entries only: a removal gives its whole share of
every budget back, and takes the payload out of the journal with it.
-/

namespace Uniterm.Model.Inbox.Board

open Std ToMathlib

section Recorded

variable (b : Board)

private theorem record_entries_eq (event : Event) : (b.record event).entries =
    match event with
    | .post message => b.entries.insert message.id {
        message, revision := 0, changed := b.sequence + 1, acknowledged := ∅, claim := none }
    | .ack id author => b.entries.modify id fun e =>
        { e with acknowledged := e.acknowledged.insert author, changed := b.sequence + 1 }
    | .claim id claim => b.entries.modify id fun e =>
        { e with revision := e.revision + 1, changed := b.sequence + 1, claim }
    | .remove id => b.entries.erase id
    | _ => b.entries := by
  cases event with
  | remove id =>
    apply ExtTreeMap.ext_getElem?
    intro key
    rw [record_entries, ExtTreeMap.getElem?_erase]
    simp only [entryAfter, Std.compare_eq_iff_eq]
  | _ => rw [record, truncate_entries]; rfl

/-- What an event adds to a total over the live posts. -/
def added (weight : Message → ℕ) : Event → ℕ
  | .post message => weight message
  | _ => 0

/-- What an event takes from a total over the live posts. -/
def removed (weight : Message → ℕ) : Event → ℕ
  | .remove id => (b.entries[id]?.map fun e => weight e.message).getD 0
  | _ => 0

/-- Receipts and leases leave every total over the posts alone. -/
private theorem total_modify_message {weight : Message → ℕ} {id : ℕ} {change : Entry → Entry}
    (same : ∀ e, (change e).message = e.message) :
    total (b.entries.modify id change) (fun e => weight e.message) =
      total b.entries fun e => weight e.message := by
  cases found : b.entries[id]? with
  | none => rw [modify_of_absent found]
  | some e =>
    have traded := total_modify (fun e : Entry => weight e.message) change found
    rw [same e] at traded
    omega

variable {b}

theorem WellFormed.absent_of_fresh (wf : b.WellFormed) {message : Message}
    (fresh : message.id = b.sequence + 1) : b.entries[message.id]? = none := by
  cases found : b.entries[message.id]? with
  | none => rfl
  | some e =>
    have := (wf.bounded _ e found).1
    omega

/-- How one event moves a total over the live posts. -/
theorem WellFormed.record_total (wf : b.WellFormed) {event : Event} (fresh : b.Fresh event)
    (weight : Message → ℕ) :
    total (b.record event).entries (fun e => weight e.message) + b.removed weight event =
      total b.entries (fun e => weight e.message) + added weight event := by
  rw [record_entries_eq]
  cases event with
  | post message =>
    rw [total_insert_of_absent _ (wf.absent_of_fresh fresh)]
    simp only [removed, added]
    omega
  | ack id author =>
    exact congrArg (· + 0) (b.total_modify_message fun e => rfl)
  | claim id claim =>
    exact congrArg (· + 0) (b.total_modify_message fun e => rfl)
  | remove id =>
    simp only [removed, added]
    cases found : b.entries[id]? with
    | none =>
      rw [erase_of_absent found, Option.map_none, Option.getD_none]
    | some e =>
      rw [total_of_read _ found, Option.map_some, Option.getD_some]
      omega
  | _ => rfl

private theorem record_bytes (b : Board) (event : Event) : (b.record event).bytes =
    b.bytes + added (fun m => m.body.len * 2) event -
      b.removed (fun m => m.body.len * 2) event := by
  have kept (b : Board) : b.truncate.bytes = b.bytes := by rw [truncate]
  rw [record, kept]
  cases event with
  | remove id =>
    simp only [projectEvent, append, removed, added]
    cases b.entries[id]? <;> rfl
  | _ => rfl

/-- A record of the journal after an event is an old one or the event itself, and a removal has
erased the post of the entry it removed. -/
theorem record_journal_mem (b : Board) (event : Event) {record : ℕ × Event}
    (member : record ∈ (b.record event).journal) :
    (record ∈ b.journal ∨ record.2 = event) ∧ ∀ id e, event = .remove id → b.entries[id]? = some e →
      isPostOf id record.2 = false := by
  rw [Board.record, truncate_journal] at member
  have projected := List.mem_of_mem_drop member
  have appended : record ∈ (b.append event).journal ∧ ∀ id e, event = .remove id →
      b.entries[id]? = some e → isPostOf id record.2 = false := by
    cases event with
    | remove id =>
      simp only [projectEvent] at projected
      split at projected
      · next absent =>
        refine ⟨projected, fun other e same read => ?_⟩
        cases same
        exact absurd (absent.symm.trans read) (by simp)
      · obtain ⟨old, erased⟩ := List.mem_filter.mp projected
        refine ⟨old, fun other e same read => ?_⟩
        cases same
        simpa using erased
    | _ => exact ⟨projected, fun id e same => by cases same⟩
  refine ⟨?_, appended.2⟩
  rcases List.mem_append.mp appended.1 with old | new
  · exact .inl old
  · exact .inr (congrArg Prod.snd (List.mem_singleton.mp new))

private theorem record_journal_length (b : Board) (event : Event) :
    (b.record event).journal.length ≤ journalLimit := by
  rw [Board.record, truncate_journal, List.length_drop]
  omega

/-- No event leaves an empty set of ids in the project index. -/
theorem record_index_inhabited (b : Board) (event : Event)
    (inhabited : ∀ (project : ProjectId) ids, b.projects[project]? = some ids → ids.isEmpty = false)
    (project : ProjectId) (ids : ExtTreeSet ℕ)
    (read : (b.record event).projects[project]? = some ids) : ids.isEmpty = false := by
  rw [Board.record, truncate_projects] at read
  cases event with
  | post message =>
    simp only [projectEvent, append, ExtTreeMap.getElem?_insert] at read
    split at read
    · rw [← Option.some.inj read]
      simp
    · exact inhabited project ids read
  | remove id =>
    simp only [projectEvent] at read
    split at read
    · exact inhabited project ids read
    simp only [unindex] at read
    split at read
    · exact inhabited project ids read
    next old found =>
    split at read
    · rw [ExtTreeMap.getElem?_erase] at read
      split at read
      · contradiction
      · exact inhabited project ids read
    next left =>
    rw [ExtTreeMap.getElem?_insert] at read
    split at read
    · rw [← Option.some.inj read]
      exact Bool.eq_false_of_not_eq_true left
    · exact inhabited project ids read
  | _ => exact inhabited project ids read

end Recorded

/-- What the checks of a call have established when it records an event. -/
def Affordable (b : Board) : Event → Prop
  | .post message => message.id = b.sequence + 1 ∧ b.PostAfforded message ∧
      b.placement message.project message.replyTo message.ttlMs message.createdMs =
        .ok (message.thread, message.expiresMs)
  | .ack id _ => b.AckAfforded id
  | _ => True

theorem Affordable.fresh {b : Board} {event : Event} (affordable : b.Affordable event) :
    b.Fresh event := by
  cases event with
  | post message => exact affordable.1
  | _ => trivial

/-- The invariant behind the quotas. Threads are confined to a project, which is what lets the
source count a thread inside its project only. -/
structure Budgeted (b : Board) : Prop where
  bytes : b.bytes = total b.entries fun e => e.message.body.len * 2
  byteBound : b.bytes ≤ byteLimit
  entryBound : total b.entries (fun _ => 1) ≤ 4000
  projectBound : ∀ project,
    total b.entries (fun e => if e.message.project == project then 1 else 0) ≤ projectLimit
  threadBound : ∀ thread,
    total b.entries (fun e => if e.message.thread == thread then 1 else 0) ≤ 100
  ackBound : ∀ (id : ℕ) e, b.entries[id]? = some e → e.acknowledged.size ≤ 64
  ackTotal : total b.entries (fun e => e.acknowledged.size) ≤ 4096
  inhabited : ∀ (project : ProjectId) ids, b.projects[project]? = some ids → ids.isEmpty = false
  journalBound : b.journal.length ≤ journalLimit
  posted : ∀ record ∈ b.journal, ∀ message, record.2 = .post message →
    ∃ e, b.entries[message.id]? = some e ∧ e.message = message
  threadKnown : ∀ (id : ℕ) e, b.entries[id]? = some e → e.message.thread ≤ b.sequence
  threadProject : ∀ (id other : ℕ) e e', b.entries[id]? = some e → b.entries[other]? = some e' →
    e.message.thread = e'.message.thread → e.message.project = e'.message.project

private theorem budgeted_empty : Budgeted {} where
  bytes := rfl
  byteBound := Nat.zero_le _
  entryBound := Nat.zero_le _
  projectBound _ := Nat.zero_le _
  threadBound _ := Nat.zero_le _
  ackBound := by simp
  ackTotal := Nat.zero_le _
  inhabited := by simp
  journalBound := Nat.zero_le _
  posted := by simp
  threadKnown := by simp
  threadProject := by simp

section Counting

variable {b : Board}

/-- Entries that lie in one project are counted by walking that project's index. -/
theorem WellFormed.count_le_projectEntries (wf : b.WellFormed) {project : ProjectId}
    {condition : Entry → Bool}
    (within : ∀ (id : ℕ) e, b.entries[id]? = some e → condition e = true →
      e.message.project = project) :
    total b.entries (fun e => if condition e then 1 else 0) ≤
      ((b.projectEntries project).filter condition).length := by
  rw [← length_filter_eq_total]
  have distinct : (b.values.filter condition).Nodup :=
    (wf.values_distinct.filter _).imp fun apart same => apart (congrArg Entry.changed same)
  apply List.Subperm.length_le
  apply List.subperm_of_subset distinct
  intro e member
  obtain ⟨live, holds⟩ := List.mem_filter.mp member
  obtain ⟨id, read⟩ := b.mem_values.mp live
  have listed : id ∈ b.projectIds project :=
    (wf.indexed project id).mpr ⟨e, read, within id e read holds⟩
  exact List.mem_filter.mpr ⟨List.mem_filterMap.mpr ⟨id, listed, read⟩, holds⟩

theorem WellFormed.count_project_le (wf : b.WellFormed) (project : ProjectId) :
    total b.entries (fun e => if e.message.project == project then 1 else 0) ≤
      (b.projectIds project).length :=
  (wf.count_le_projectEntries fun _ _ _ holds => beq_iff_eq.mp holds).trans
    ((List.length_filter_le ..).trans (List.length_filterMap_le ..))

/-- A placed post opens a fresh thread, or joins a thread of its project that has room. -/
theorem placement_cases {project : ProjectId} {replyTo : Option ℕ} {ttl now thread expires : ℕ}
    (placed : b.placement project replyTo ttl now = .ok (thread, expires)) :
    thread = b.sequence + 1 ∨
      ∃ (id : ℕ) (parent : Entry), b.entries[id]? = some parent ∧ parent.message.project = project ∧
        parent.message.thread = thread ∧
        ((b.projectEntries project).filter fun e => e.message.thread == thread).length < 100 := by
  unfold placement at placed
  split at placed
  · simp only [Except.ok.injEq, Prod.mk.injEq] at placed
    exact .inl placed.1.symm
  · next id =>
    split at placed
    · contradiction
    next parent found =>
    split at placed
    · contradiction
    next room =>
    obtain ⟨read, same⟩ := Option.filter_eq_some_iff.mp found
    simp only [Except.ok.injEq, Prod.mk.injEq] at placed
    rw [placed.1] at room
    exact .inr ⟨id, parent, read, beq_iff_eq.mp same, placed.1, Nat.lt_of_not_le room⟩

/-- The thread of an affordable post holds fewer than a hundred entries. -/
theorem Budgeted.thread_room (wf : b.WellFormed) (budgeted : b.Budgeted) {message : Message}
    (placed : b.placement message.project message.replyTo message.ttlMs message.createdMs =
      .ok (message.thread, message.expiresMs)) :
    total b.entries (fun e => if e.message.thread == message.thread then 1 else 0) < 100 := by
  obtain fresh | ⟨id, parent, read, project, thread, room⟩ := placement_cases placed
  · rw [← length_filter_eq_total, List.length_eq_zero_iff.mpr]
    · decide
    rw [List.filter_eq_nil_iff]
    intro e live
    obtain ⟨key, found⟩ := b.mem_values.mp live
    have known := budgeted.threadKnown key e found
    simp only [beq_iff_eq]
    omega
  · refine Nat.lt_of_le_of_lt (wf.count_le_projectEntries ?_) room
    intro key e found same
    rw [← project]
    exact budgeted.threadProject key id e parent found read
      ((beq_iff_eq.mp same).trans thread.symm)

end Counting

section Steps

variable {b : Board} {event : Event}

/-- A unit total grows by one only where the post that grows it had room. -/
private theorem WellFormed.record_count (wf : b.WellFormed) (fresh : b.Fresh event)
    (condition : Message → Bool) {limit : ℕ}
    (bound : total b.entries (fun e => if condition e.message then 1 else 0) ≤ limit)
    (room : ∀ message, event = .post message → condition message = true →
      total b.entries (fun e => if condition e.message then 1 else 0) < limit) :
    total (b.record event).entries (fun e => if condition e.message then 1 else 0) ≤ limit := by
  have moved := wf.record_total fresh fun m => if condition m then 1 else 0
  cases event with
  | post message =>
    simp only [removed, added] at moved
    split at moved
    · next holds =>
      have := room message rfl holds
      omega
    · omega
  | _ => simp only [added] at moved; omega

theorem Budgeted.record_bytes_eq (wf : b.WellFormed) (budgeted : b.Budgeted)
    (fresh : b.Fresh event) :
    (b.record event).bytes = total (b.record event).entries fun e => e.message.body.len * 2 := by
  have moved := wf.record_total fresh fun m => m.body.len * 2
  rw [record_bytes, budgeted.bytes]
  omega

private theorem Budgeted.record_acks (budgeted : b.Budgeted) (wf : b.WellFormed)
    (affordable : b.Affordable event) :
    (∀ (id : ℕ) e, (b.record event).entries[id]? = some e → e.acknowledged.size ≤ 64) ∧
      total (b.record event).entries (fun e => e.acknowledged.size) ≤ 4096 := by
  cases event with
  | post message =>
    constructor
    · intro id e found
      rw [record_entries, entryAfter] at found
      split at found
      · rw [← Option.some.inj found]
        exact Nat.zero_le _
      · exact budgeted.ackBound id e found
    · rw [record_entries_eq, total_insert_of_absent _ (wf.absent_of_fresh affordable.1)]
      simpa using budgeted.ackTotal
  | ack target author =>
    obtain ⟨old, read, room⟩ := affordable.entry
    have grown : (old.acknowledged.insert author).size ≤ old.acknowledged.size + 1 :=
      ExtTreeSet.size_insert_le
    constructor
    · intro id e found
      rw [record_entries, entryAfter] at found
      split at found
      · next same =>
        rw [← same, read, Option.map_some] at found
        rw [← Option.some.inj found]
        exact grown.trans room
      · exact budgeted.ackBound id e found
    · have room : total b.entries (fun e => e.acknowledged.size) < 4096 := by
        have checked := affordable.total
        rwa [values, List.map_map] at checked
      have traded := total_modify (fun e : Entry => e.acknowledged.size)
        (fun e => { e with
          acknowledged := e.acknowledged.insert author, changed := b.sequence + 1 }) read
      rw [record_entries_eq]
      dsimp only at traded ⊢
      omega
  | claim target claim =>
    constructor
    · intro id e found
      rw [record_entries, entryAfter] at found
      split at found
      · obtain ⟨old, read, rfl⟩ := Option.map_eq_some_iff.mp found
        exact budgeted.ackBound id old read
      · exact budgeted.ackBound id e found
    · rw [record_entries_eq]
      dsimp only
      cases found : b.entries[target]? with
      | none =>
        rw [modify_of_absent found]
        exact budgeted.ackTotal
      | some old =>
        have traded := total_modify (fun e : Entry => e.acknowledged.size)
          (fun e => { e with
            revision := e.revision + 1, changed := b.sequence + 1, claim }) found
        have := budgeted.ackTotal
        dsimp only at traded
        omega
  | remove target =>
    constructor
    · intro id e found
      rw [record_entries, entryAfter] at found
      split at found
      · contradiction
      · exact budgeted.ackBound id e found
    · rw [record_entries_eq]
      dsimp only
      cases found : b.entries[target]? with
      | none =>
        rw [erase_of_absent found]
        exact budgeted.ackTotal
      | some old =>
        have shared := total_of_read (fun e : Entry => e.acknowledged.size) found
        have := budgeted.ackTotal
        omega
  | _ => rw [record_entries_eq]; exact ⟨budgeted.ackBound, budgeted.ackTotal⟩

/-- Posts of the journal stay live: the only event that ends an entry takes its post away. -/
private theorem Budgeted.record_posted (wf : b.WellFormed) (budgeted : b.Budgeted)
    (fresh : b.Fresh event) (record : ℕ × Event) (member : record ∈ (b.record event).journal)
    (message : Message) (post : record.2 = .post message) :
    ∃ e, (b.record event).entries[message.id]? = some e ∧ e.message = message := by
  obtain ⟨old | new, erased⟩ := b.record_journal_mem event member
  · obtain ⟨e, read, same⟩ := budgeted.posted record old message post
    rw [record_entries]
    cases event with
    | post other =>
      rw [entryAfter]
      split
      · next equal =>
        have absent := wf.absent_of_fresh fresh
        rw [equal, read] at absent
        cases absent
      · exact ⟨e, read, same⟩
    | ack id author =>
      rw [entryAfter, read]
      split
      · exact ⟨_, rfl, same⟩
      · exact ⟨e, rfl, same⟩
    | claim id claim =>
      rw [entryAfter, read]
      split
      · exact ⟨_, rfl, same⟩
      · exact ⟨e, rfl, same⟩
    | remove id =>
      rw [entryAfter]
      split
      · next equal =>
        have gone := erased id e rfl (equal ▸ read)
        simp [isPostOf, post, equal] at gone
      · exact ⟨e, read, same⟩
    | _ => exact ⟨e, read, same⟩
  · rw [post] at new
    subst new
    rw [record_entries, entryAfter, if_pos rfl]
    exact ⟨_, rfl, rfl⟩

private theorem Budgeted.record_threads (budgeted : b.Budgeted) (affordable : b.Affordable event) :
    (∀ (id : ℕ) e, (b.record event).entries[id]? = some e → e.message.thread ≤ b.sequence + 1) ∧
      ∀ (id other : ℕ) e e', (b.record event).entries[id]? = some e →
        (b.record event).entries[other]? = some e' →
        e.message.thread = e'.message.thread → e.message.project = e'.message.project := by
  -- A new post shares its thread with entries of its own project only.
  have joined : ∀ message, event = .post message → message.thread ≤ b.sequence + 1 ∧
      ∀ (id : ℕ) e, b.entries[id]? = some e → e.message.thread = message.thread →
        e.message.project = message.project := by
    rintro message rfl
    obtain fresh | ⟨key, parent, read, project, thread, _⟩ := placement_cases affordable.2.2
    · refine ⟨fresh.le, fun id e found same => ?_⟩
      have := budgeted.threadKnown id e found
      omega
    · refine ⟨thread ▸ Nat.le_succ_of_le (budgeted.threadKnown key parent read), ?_⟩
      intro id e found same
      rw [← project]
      exact budgeted.threadProject id key e parent found read (same.trans thread.symm)
  have cases_of : ∀ (id : ℕ) e, (b.record event).entries[id]? = some e →
      event = .post e.message ∨ ∃ old, b.entries[id]? = some old ∧ e.message = old.message := by
    intro id e found
    obtain ⟨message, posted, _, rfl⟩ | ⟨old, read, same, _⟩ := record_entry_cases found
    · exact .inl posted
    · exact .inr ⟨old, read, same⟩
  constructor
  · intro id e found
    obtain posted | ⟨old, read, same⟩ := cases_of id e found
    · exact (joined e.message posted).1
    · rw [same]
      exact Nat.le_succ_of_le (budgeted.threadKnown id old read)
  · intro id other e e' found found' shared
    obtain posted | ⟨old, read, same⟩ := cases_of id e found <;>
      obtain posted' | ⟨old', read', same'⟩ := cases_of other e' found'
    · rw [Event.post.inj (posted.symm.trans posted')]
    · rw [same'] at shared ⊢
      exact ((joined e.message posted).2 other old' read' shared.symm).symm
    · rw [same] at shared ⊢
      exact (joined e'.message posted').2 id old read shared
    · rw [same, same'] at shared ⊢
      exact budgeted.threadProject id other old old' read read' shared

/-- Every affordable event keeps the budgets. -/
theorem Budgeted.record (wf : b.WellFormed) (budgeted : b.Budgeted)
    (affordable : b.Affordable event) : (b.record event).Budgeted where
  bytes := budgeted.record_bytes_eq wf affordable.fresh
  byteBound := by
    rw [record_bytes]
    have := budgeted.byteBound
    cases event with
    | post message => exact (Nat.sub_le ..).trans affordable.2.1.bytes
    | _ => exact (Nat.sub_le ..).trans this
  entryBound := by
    have moved := wf.record_total affordable.fresh fun _ => 1
    have := budgeted.entryBound
    cases event with
    | post message =>
      have room := affordable.2.1.entries
      rw [size_eq_total] at room
      simp only [added, removed] at moved
      omega
    | _ => simp only [added] at moved; omega
  projectBound project := by
    refine wf.record_count affordable.fresh (fun m => m.project == project)
      (budgeted.projectBound project) ?_
    rintro message rfl same
    rw [← beq_iff_eq.mp same]
    exact Nat.lt_of_le_of_lt (wf.count_project_le message.project) affordable.2.1.project
  threadBound thread := by
    refine wf.record_count affordable.fresh (fun m => m.thread == thread)
      (budgeted.threadBound thread) ?_
    rintro message rfl same
    rw [← beq_iff_eq.mp same]
    exact budgeted.thread_room wf affordable.2.2
  ackBound := (budgeted.record_acks wf affordable).1
  ackTotal := (budgeted.record_acks wf affordable).2
  inhabited := b.record_index_inhabited event budgeted.inhabited
  journalBound := b.record_journal_length event
  posted := budgeted.record_posted wf affordable.fresh
  threadKnown := by
    rw [record_sequence]
    exact (budgeted.record_threads affordable).1
  threadProject := (budgeted.record_threads affordable).2

/-- The budgets depend on six fields of the board. -/
private theorem Budgeted.of_fields {b' : Board} (budgeted : b.Budgeted)
    (entries : b'.entries = b.entries) (projects : b'.projects = b.projects)
    (sequence : b'.sequence = b.sequence) (journal : b'.journal = b.journal)
    (bytes : b'.bytes = b.bytes) : b'.Budgeted where
  bytes := by rw [bytes, entries]; exact budgeted.bytes
  byteBound := bytes ▸ budgeted.byteBound
  entryBound := entries ▸ budgeted.entryBound
  projectBound := entries ▸ budgeted.projectBound
  threadBound := entries ▸ budgeted.threadBound
  ackBound := entries ▸ budgeted.ackBound
  ackTotal := entries ▸ budgeted.ackTotal
  inhabited := projects ▸ budgeted.inhabited
  journalBound := journal ▸ budgeted.journalBound
  posted := by rw [journal, entries]; exact budgeted.posted
  threadKnown := by rw [entries, sequence]; exact budgeted.threadKnown
  threadProject := entries ▸ budgeted.threadProject

theorem Budgeted.removeAll (wf : b.WellFormed) (budgeted : b.Budgeted) (ids : List ℕ) :
    (b.removeAll ids).Budgeted := by
  induction ids generalizing b with
  | nil => rwa [removeAll_nil]
  | cons id rest ih =>
    rw [removeAll_cons]
    exact ih (wf.record trivial) (budgeted.record wf trivial)

theorem Budgeted.releaseAll (wf : b.WellFormed) (budgeted : b.Budgeted) (ids : List ℕ) :
    (b.releaseAll ids).Budgeted := by
  induction ids generalizing b with
  | nil => rwa [releaseAll_nil]
  | cons id rest ih =>
    rw [releaseAll_cons]
    exact ih (wf.record trivial) (budgeted.record wf trivial)

/-- Every move keeps the budgets. -/
theorem Budgeted.move {b' : Board} (wf : b.WellFormed) (budgeted : b.Budgeted)
    (move : Move b b') : b'.Budgeted := by
  cases move with
  | expireEntries now => exact budgeted.removeAll wf _
  | clearProject project => exact budgeted.removeAll wf _
  | retire project => exact (budgeted.removeAll wf _).of_fields rfl rfl rfl rfl rfl
  | releaseWhere condition => exact budgeted.releaseAll wf _
  | forget pane => exact (budgeted.releaseAll wf _).of_fields rfl rfl rfl rfl rfl
  | revoke author =>
    have shaped : (b.record (.revoke author)).WellFormed := wf.record trivial
    have recorded : (b.record (.revoke author)).Budgeted := budgeted.record wf trivial
    exact recorded.releaseAll shaped _
  | post message fresh placed afforded => exact budgeted.record wf ⟨fresh, afforded, placed⟩
  | ack id author afforded => exact budgeted.record wf afforded
  | claim author id revision leaseMs now e granted => exact budgeted.record wf trivial
  | release id => exact budgeted.record wf trivial
  | pause project paused => exact budgeted.record wf trivial
  | grant author => exact budgeted.record wf trivial
  | pruneRates now => exact budgeted.of_fields rfl rfl rfl rfl rfl

end Steps

/-- The budgets and the erasure promises of the board, in the source's own units. -/
structure WithinBudgets (b : Board) : Prop where
  bytes : b.bytes = 2 * (b.values.map fun e => e.message.body.len).sum
  erasable : ∀ (id : ℕ) e, b.entries[id]? = some e → e.message.body.len * 2 ≤ b.bytes
  byteLimit : b.bytes ≤ byteLimit
  entries : b.entries.size ≤ 4000
  perProject : ∀ project,
    (b.values.filter fun e => e.message.project == project).length ≤ projectLimit
  perThread : ∀ thread, (b.values.filter fun e => e.message.thread == thread).length ≤ 100
  perEntry : ∀ (id : ℕ) e, b.entries[id]? = some e → e.acknowledged.size ≤ 64
  receipts : (b.values.map fun e => e.acknowledged.size).sum ≤ 4096
  indexed : ∀ (project : ProjectId) (id : ℕ),
    (∃ ids, b.projects[project]? = some ids ∧ id ∈ ids) ↔
      ∃ e, b.entries[id]? = some e ∧ e.message.project = project
  inhabited : ∀ (project : ProjectId) ids, b.projects[project]? = some ids → ids.isEmpty = false
  journal : b.journal.length ≤ 4096
  posts : ∀ record ∈ b.journal, ∀ message, record.2 = .post message →
    ∃ e, b.entries[message.id]? = some e ∧ e.message = message
  floor : b.floor ≤ b.sequence
  stamps : b.values.Pairwise fun e e' => e.changed ≠ e'.changed
  stamped : ∀ (id : ℕ) e, b.entries[id]? = some e → e.changed ≤ b.sequence

theorem Budgeted.withinBudgets {b : Board} (wf : b.WellFormed) (budgeted : b.Budgeted) :
    b.WithinBudgets where
  bytes := by
    rw [budgeted.bytes, total, List.sum_map_mul_right, Nat.mul_comm, values, List.map_map]
    rfl
  erasable id e read := by
    rw [budgeted.bytes]
    exact weight_le_total (fun e : Entry => e.message.body.len * 2) read
  byteLimit := budgeted.byteBound
  entries := size_eq_total.trans_le budgeted.entryBound
  perProject project := (length_filter_eq_total _).trans_le (budgeted.projectBound project)
  perThread thread := (length_filter_eq_total _).trans_le (budgeted.threadBound thread)
  perEntry := budgeted.ackBound
  receipts := by
    rw [values, List.map_map]
    exact budgeted.ackTotal
  indexed project id := by rw [← mem_projectIds, wf.indexed]
  inhabited := budgeted.inhabited
  journal := budgeted.journalBound
  posts := budgeted.posted
  floor := wf.floored
  stamps := wf.values_distinct
  stamped id e read := (wf.bounded id e read).2

/-- Whatever calls were made: every budget holds, and goes on holding between any two of the
removals that a later call records in a row, so no removal underflows. -/
theorem reached_withinBudgets (b : Board) (reached : Reached b) :
    b.WithinBudgets ∧ ∀ ids, (b.removeAll ids).WithinBudgets := by
  obtain ⟨wf, budgeted⟩ := Reached.invariant budgeted_empty
    (fun _ _ wf budgeted move => budgeted.move wf move) reached
  exact ⟨budgeted.withinBudgets wf,
    fun ids => (budgeted.removeAll wf ids).withinBudgets (wf.removeAll ids)⟩

/-- Two posts in one thread, a receipt and a lease, and then the expiry of the reply. -/
def postedAndExpired : List Call :=
  [.apply 1 (.agent 1 1) (.post .plan ['r', 't'] none none none ['r'] 10000) 0,
   .apply 1 (.agent 2 1) (.post .answer ['a'] (some 1) none none ['a'] 1000) 0,
   .apply 1 (.agent 2 1) (.ack 1) 10, .apply 1 (.agent 1 1) (.claim 1 0 5000) 20, .expire 2000]

theorem reached_withinBudgets_expired : (after postedAndExpired).bytes = 4 ∧
    4 = 2 * ((after postedAndExpired).values.map fun e => e.message.body.len).sum := by
  have held : (after postedAndExpired).bytes = 4 := by decide +kernel
  exact ⟨held, held ▸ (reached_withinBudgets _ (reached_after postedAndExpired)).1.bytes⟩

end Uniterm.Model.Inbox.Board
