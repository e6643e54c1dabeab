import Uniterm.Model.Runtime.Inbox
import Uniterm.Soundness.Inbox.Answers
import Uniterm.Soundness.Inbox.Moves

/-! # What a call leaves behind for the watches

A recorded event takes the next sequence number, and the marks of the projects, the revoked authors and the
retention floor only grow. Removing a project drops its marks alone, and forgetting a pane readmits its authors
alone.
-/

namespace Uniterm.Model.Inbox.Board

open Std

variable {b b' b'' : Board}

/-- No stamp is ahead of the sequence. -/
structure Held (b : Board) : Prop where
  changed : ∀ project, b.changedIn project ≤ b.sequence
  journalled : ∀ record ∈ b.journal, record.1 ≤ b.sequence
  floored : b.floor ≤ b.sequence

theorem held_empty : Held {} where
  changed project := by simp [changedIn]
  journalled := by simp
  floored := le_rfl

/-- What a later board keeps of the marks of some projects and the revocations of some authors. -/
structure Carries (projects : ProjectId → Prop) (authors : Author → Prop) (b b' : Board) : Prop where
  held : b'.Held
  sequence : b.sequence ≤ b'.sequence
  changed : ∀ project, projects project → b.changedIn project ≤ b'.changedIn project
  revoked : ∀ author, authors author → author ∈ b.revoked → author ∈ b'.revoked
  floor : b.floor ≤ b'.floor
  still : b'.sequence = b.sequence → b'.floor = b.floor ∧
    (∀ project, b'.changedIn project ≤ b.changedIn project) ∧ ∀ author, author ∈ b'.revoked → author ∈ b.revoked

variable {projects : ProjectId → Prop} {authors : Author → Prop}

theorem Carries.refl (held : b.Held) : Carries projects authors b b :=
  ⟨held, le_rfl, fun _ _ => le_rfl, fun _ _ => id, le_rfl, fun _ => ⟨rfl, fun _ => le_rfl, fun _ => id⟩⟩

theorem Carries.trans (first : Carries projects authors b b') (second : Carries projects authors b' b'') :
    Carries projects authors b b'' where
  held := second.held
  sequence := first.sequence.trans second.sequence
  changed project kept := (first.changed project kept).trans (second.changed project kept)
  revoked author kept gone := second.revoked author kept (first.revoked author kept gone)
  floor := first.floor.trans second.floor
  still same := by
    have le := first.sequence
    have le' := second.sequence
    obtain ⟨floor, changed, revoked⟩ := first.still (by omega)
    obtain ⟨floor', changed', revoked'⟩ := second.still (by omega)
    exact ⟨floor'.trans floor, fun project => (changed' project).trans (changed project),
      fun author member => revoked author (revoked' author member)⟩

/-- Everything is carried. -/
abbrev Grown : Board → Board → Prop := Carries (fun _ => True) (fun _ => True)

section Records

private theorem truncate_floor_le (b : Board) : b.floor ≤ b.truncate.floor := by
  rw [truncate_floor]
  generalize b.journal.take (b.journal.length - journalLimit) = dropped
  generalize b.floor = floor
  induction dropped generalizing floor with
  | nil => exact le_rfl
  | cons record rest ih => exact (Nat.le_max_left ..).trans (ih _)

/-- One event takes one sequence number and moves every mark forward. -/
theorem Held.record (held : b.Held) (event : Event) : Grown b (b.record event) := by
  have bounds := record_journal_floor held.journalled held.floored event
  have mark (project : ProjectId) : (b.record event).changedIn project = b.changedIn project ∨
      (b.record event).changedIn project = b.sequence + 1 := by
    unfold changedIn
    rw [record_changed]
    split
    · exact .inl rfl
    · rw [ExtTreeMap.getElem?_insert]
      split
      · exact .inr rfl
      · exact .inl rfl
  have bound := held.changed
  refine ⟨⟨fun project => ?_, ?_, ?_⟩, ?_, fun project _ => ?_, fun author _ gone => ?_, ?_, fun same => ?_⟩
  · rw [record_sequence]
    rcases mark project with same | new
    · rw [same]
      exact (bound project).trans (Nat.le_succ _)
    · exact new.le
  · rw [record_sequence]
    exact bounds.1
  · rw [record_sequence]
    exact bounds.2
  · rw [record_sequence]
    exact Nat.le_succ _
  · rcases mark project with same | new
    · exact same.ge
    · rw [new]
      exact (bound project).trans (Nat.le_succ _)
  · rw [record_revoked]
    split
    · exact ExtTreeSet.mem_insert.mpr (.inr gone)
    · exact gone
  · have projected : b.floor ≤ ((b.append event).projectEvent event).floor := by
      cases event with
      | remove id =>
        rw [projectEvent]
        split
        · exact le_rfl
        · exact held.floored.trans (Nat.le_succ _)
      | _ => exact le_rfl
    exact projected.trans (truncate_floor_le _)
  · rw [record_sequence] at same
    omega

theorem Held.recordAll (held : b.Held) (events : List Event) : Grown b (b.recordAll events) := by
  induction events generalizing b with
  | nil =>
    rw [recordAll_nil]
    exact .refl held
  | cons event rest ih =>
    rw [recordAll_cons]
    exact (held.record event).trans (ih (held.record event).held)

theorem Held.removeAll (held : b.Held) (ids : List ℕ) : Grown b (b.removeAll ids) := held.recordAll _

theorem Held.releaseAll (held : b.Held) (ids : List ℕ) : Grown b (b.releaseAll ids) := held.recordAll _

theorem Held.expire (held : b.Held) (now : ℕ) : Grown b (b.expire now) :=
  have removed := held.removeAll (b.idsWhere fun e => e.message.expiresMs ≤ now)
  removed.trans (removed.held.releaseAll _)

end Records

section Calls

/-- Fields that no stamp depends on may change freely. -/
theorem Carries.of_fields (carries : Carries projects authors b b') (sequence : b''.sequence = b'.sequence)
    (changed : b''.changed = b'.changed) (journal : b''.journal = b'.journal) (floor : b''.floor = b'.floor)
    (revoked : b''.revoked = b'.revoked) : Carries projects authors b b'' := by
  have marks (project : ProjectId) : b''.changedIn project = b'.changedIn project := by
    rw [changedIn, changedIn, changed]
  refine ⟨⟨fun project => ?_, ?_, ?_⟩, ?_, fun project kept => ?_, fun author kept gone => ?_, ?_, fun same => ?_⟩
  · rw [marks, sequence]
    exact carries.held.changed project
  · rw [journal, sequence]
    exact carries.held.journalled
  · rw [floor, sequence]
    exact carries.held.floored
  · rw [sequence]
    exact carries.sequence
  · rw [marks]
    exact carries.changed project kept
  · rw [revoked]
    exact carries.revoked author kept gone
  · rw [floor]
    exact carries.floor
  · rw [sequence] at same
    obtain ⟨floor', changed', revoked'⟩ := carries.still same
    exact ⟨floor.trans floor', fun project => (marks project).le.trans (changed' project),
      fun author member => revoked' author (revoked ▸ member)⟩

/-- An operation of an agent or of the human records events, and prunes the rates. -/
theorem Held.apply (held : b.Held) (project : ProjectId) (author : Author) (op : Operation) (now : ℕ) :
    Grown b (b.apply project author op now).1 := by
  have swept : Grown b ((b.expire now).pruneRates now) := by
    refine (held.expire now).of_fields ?_ ?_ ?_ ?_ ?_ <;> rw [pruneRates]
  obtain ⟨events, -, recorded⟩ := b.apply_answers project author op now
  rw [recorded]
  exact swept.trans (swept.held.recordAll events)

/-- Forgetting a pane readmits its authors alone. -/
theorem Held.forgetPane (held : b.Held) (pane : PaneId) :
    Carries (fun _ => True) (fun author => author.onPane pane = false) b (b.forgetPane pane) := by
  have released := held.releaseAll (b.idsWhere fun e => e.claim.any fun c => c.owner.onPane pane)
  unfold Board.forgetPane
  dsimp only
  generalize b.releaseAll (b.idsWhere fun e => e.claim.any fun c => c.owner.onPane pane) = b' at released ⊢
  refine ⟨⟨released.held.changed, released.held.journalled, released.held.floored⟩, released.sequence,
    released.changed, fun author other gone => ?_, released.floor, fun same => ?_⟩
  · have lawful : LawfulEqCmp (compare : Author → Author → Ordering) := ⟨fun same => (compare_iff _ _).mp same⟩
    have kept := released.revoked author trivial gone
    exact ExtTreeSet.mem_filter.mpr ⟨kept, by rw [ExtTreeSet.get_eq, other]; rfl⟩
  · obtain ⟨floor, changed, revoked⟩ := released.still same
    refine ⟨floor, changed, fun author member => revoked author ?_⟩
    exact ExtTreeSet.mem_of_mem_filter member

/-- Removing the projects that are not live drops their marks alone. -/
theorem Held.retainProjects (held : b.Held) (live : ExtTreeSet ProjectId) :
    Carries (fun project => project ∈ live) (fun _ => True) b (b.retainProjects live) := by
  have retire {b : Board} (held : b.Held) {gone : ProjectId} (dead : gone ∉ live) :
      Carries (fun project => project ∈ live) (fun _ => True) b (b.retainProject gone) := by
    have removed := held.removeAll (b.projectIds gone)
    unfold Board.retainProject
    dsimp only
    generalize b.removeAll (b.projectIds gone) = b' at removed ⊢
    have marks (project : ProjectId) : ((b'.changed.erase gone)[project]?).getD 0 ≤ b'.changedIn project := by
      unfold changedIn
      rw [ExtTreeMap.getElem?_erase]
      split
      · exact Nat.zero_le _
      · exact le_rfl
    have kept (project : ProjectId) (inside : project ∈ live) :
        ((b'.changed.erase gone)[project]?).getD 0 = b'.changedIn project := by
      have other : gone ≠ project := fun same => dead (same ▸ inside)
      unfold changedIn
      rw [ExtTreeMap.getElem?_erase, if_neg (by simpa using other)]
    refine ⟨⟨fun project => (marks project).trans (removed.held.changed project), removed.held.journalled,
      removed.held.floored⟩, removed.sequence, fun project inside => ?_, removed.revoked, removed.floor, fun same => ?_⟩
    · exact (removed.changed project trivial).trans (kept project inside).ge
    · obtain ⟨floor, changed, revoked⟩ := removed.still same
      exact ⟨floor, fun project => (marks project).trans (changed project), revoked⟩
  unfold Board.retainProjects
  have dead : ∀ gone ∈ b.changed.keys.filter fun project => !live.contains project, gone ∉ live := by
    intro gone member
    have absent := (List.mem_filter.mp member).2
    rw [Bool.not_eq_true'] at absent
    exact fun inside => by rw [ExtTreeSet.contains_iff_mem.mpr inside] at absent; exact Bool.noConfusion absent
  generalize b.changed.keys.filter (fun project => !live.contains project) = gone at dead
  induction gone generalizing b with
  | nil => exact .refl held
  | cons project rest ih =>
    have first := retire held (dead project (List.mem_cons_self ..))
    exact first.trans (ih first.held fun other member => dead other (.tail _ member))

end Calls

end Uniterm.Model.Inbox.Board
