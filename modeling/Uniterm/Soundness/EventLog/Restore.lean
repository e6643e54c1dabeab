import Uniterm.ToMathlib.TreeTotals
import Uniterm.Soundness.EventLog.Scan

/-! # Recovering the tree

Recovery keeps the newest structural truth after a snapshot's cursor. What it recovers is the same
as folding every structural event over the snapshot's own tree, and the snapshot's terminal content
returns to the Panes it came from.
-/

namespace Uniterm.Model.EventLog

open Std Runs ToMathlib

section Truth

/-- The structural truth after one event. -/
def nextTruth (truth : Option StructuralProjection) (event : LogEvent) : Option StructuralProjection :=
  let truth := (newTruth event).or truth
  if amendsTruth event then truth.map fun tree => (changeTruth tree event).getD tree else truth

/-- The tree that a recovery stands at: its newest truth, or the snapshot's tree. -/
def standing (snapshot : Option Snapshot) (latest : Option (ℕ × StructuralProjection)) :
    Option StructuralProjection :=
  (latest.map (·.2)).or (snapshot.map StructuralProjection.fromSnapshot)

/-- Whatever the snapshot, an event moves the standing tree alike. -/
theorem standing_apply {snapshot : Option Snapshot} {latest : Option (ℕ × StructuralProjection)}
    {sequence : ℕ} {event : LogEvent} (plain : ∀ state, event ≠ .recoveryCheckpoint state) :
    standing snapshot (Recovery.apply snapshot latest sequence event) =
      nextTruth (standing snapshot latest) event := by
  unfold Recovery.apply
  split
  · next state => exact absurd rfl (plain state)
  · unfold nextTruth standing
    dsimp only
    cases newTruth event with
    | some tree =>
      cases amendsTruth event with
      | false => rfl
      | true => cases changed : changeTruth tree event <;> simp [changed]
    | none =>
      cases amendsTruth event with
      | false => rfl
      | true =>
        cases latest with
        | some entry => cases changed : changeTruth entry.2 event <;> simp [changed]
        | none =>
          cases snapshot with
          | none => rfl
          | some snapshot =>
            cases changed : changeTruth (StructuralProjection.fromSnapshot snapshot) event <;>
              simp [changed]

/-- One event of a recovery behind a snapshot's cursor. -/
def recoverEvent (snapshot : Option Snapshot) (latest : Option (ℕ × StructuralProjection))
    (event : ℕ × LogEvent) : Option (ℕ × StructuralProjection) :=
  if event.1 ≤ (snapshot.map (·.eventSequence)).getD 0 then latest
  else Recovery.apply snapshot latest event.1 event.2

private theorem recovery_latest {snapshot : Option Snapshot} {records : List DecodedRecord} {state : Recovery}
    (sequences : Stepwise state.previousSequence (numbered state.syntheticSequence records)) :
    (records.foldl (Recovery.step snapshot) state).latest =
      (numberedEvents state.syntheticSequence records).foldl (recoverEvent snapshot) state.latest := by
  induction records generalizing state with
  | nil => rfl
  | cons record records ih =>
    obtain ⟨follows, later⟩ := sequences
    obtain ⟨previous, synthetic⟩ := recovery_step snapshot follows
    have latest : (Recovery.step snapshot state record).latest = recoverEvent snapshot state.latest
        (record.sequence.getD (saturatingAdd64 state.syntheticSequence 1), record.event) := by
      have open_ : ¬ (state.previousSequence ≠ 0 ∧
          record.sequence.getD (saturatingAdd64 state.syntheticSequence 1) ≠
            saturatingAdd64 state.previousSequence 1) := fun gap => gap.2 (follows gap.1)
      unfold Recovery.step recoverEvent
      simp only [open_, if_false]
      split <;> rfl
    rw [← previous, ← synthetic] at later
    rw [List.foldl_cons, ih later, latest, synthetic]
    rfl

/-- Events after the cursor move the standing tree, one after the other. -/
theorem standing_foldl {snapshot : Option Snapshot} {events : List (ℕ × LogEvent)}
    {latest : Option (ℕ × StructuralProjection)}
    (after : ∀ event ∈ events, (snapshot.map (·.eventSequence)).getD 0 < event.1)
    (plain : ∀ event ∈ events, ∀ state, event.2 ≠ .recoveryCheckpoint state) :
    standing snapshot (events.foldl (recoverEvent snapshot) latest) =
      events.foldl (fun truth event => nextTruth truth event.2) (standing snapshot latest) := by
  induction events generalizing latest with
  | nil => rfl
  | cons event events ih =>
    rw [List.foldl_cons, List.foldl_cons,
      ih (fun other listed => after other (List.mem_cons_of_mem _ listed))
        (fun other listed => plain other (List.mem_cons_of_mem _ listed)),
      recoverEvent, if_neg (Nat.not_le.mpr (after event List.mem_cons_self)),
      standing_apply (plain event List.mem_cons_self)]

/-- Events up to the cursor are passed over. -/
theorem recoverEvent_before {snapshot : Option Snapshot} {events : List (ℕ × LogEvent)}
    {latest : Option (ℕ × StructuralProjection)}
    (before : ∀ event ∈ events, event.1 ≤ (snapshot.map (·.eventSequence)).getD 0) :
    events.foldl (recoverEvent snapshot) latest = latest := by
  induction events with
  | nil => rfl
  | cons event events ih =>
    rw [List.foldl_cons, recoverEvent, if_pos (before event List.mem_cons_self),
      ih fun other listed => before other (List.mem_cons_of_mem _ listed)]

/-- What recovery returns for the truth it ended with. -/
def restoreFrom (snapshot : Option Snapshot) : Option (ℕ × StructuralProjection) → Option Snapshot
  | some (sequence, tree) => some (tree.intoSnapshot snapshot sequence)
  | none => snapshot

/-- Recovery of a stream in sequence under one chain of owners. -/
theorem recoverSnapshot_eq {codec : Codec} (lenient : codec.Lenient) {bytes : Bytes}
    {records : List DecodedRecord} {owner : Option String} {name : String}
    (held : Records codec bytes records) (chain : OwnershipChain none records owner)
    (mine : owner = none ∨ owner = some name) (sequences : Stepwise 0 (numbered 0 records))
    (snapshot : Option Snapshot) :
    recoverSnapshotReaderScoped codec bytes snapshot (some name) =
      if (numbered 0 records).getLastD 0 = u64Max then
        .error (invalidData "event sequence is duplicate, out of order, or contains a gap")
      else .ok (restoreFrom snapshot
        ((numberedEvents 0 records).foldl (recoverEvent snapshot) none)) := by
  have visited : forEachRecord codec bytes (some name) (Recovery.step snapshot) {} =
      .ok (records.foldl (Recovery.step snapshot) {}) := forEachRecord_chain lenient held chain mine _
  have last : (records.foldl (Recovery.step snapshot) {}).previousSequence =
      (numbered 0 records).getLastD 0 := recovery_previous sequences
  have latest : (records.foldl (Recovery.step snapshot) {}).latest =
      (numberedEvents 0 records).foldl (recoverEvent snapshot) none := recovery_latest sequences
  unfold recoverSnapshotReaderScoped
  rw [visited]
  simp only [bind, Except.bind]
  rw [last, latest]
  split
  · rfl
  · cases (numberedEvents 0 records).foldl (recoverEvent snapshot) none <;> rfl

end Truth

section Content

/-- Every Pane stands in one place of the tree. -/
def Snapshot.DistinctPanes (snapshot : Snapshot) : Prop :=
  ((snapshot.windows.flatMap (·.panes)).map (·.id)).Nodup

/-- What a snapshot restores: Projects, Tabs and Panes with profiles and content. -/
def Snapshot.restored (snapshot : Snapshot) : TreeFrame × List WinSnap :=
  (snapshot.toTreeFrame, snapshot.windows)

private theorem restorePanes_own {panes : List PaneSnap} {content : ExtTreeMap PaneId Content}
    (distinct : (panes.map (·.id)).Nodup)
    (held : ∀ pane ∈ panes, content[pane.id]? = some pane.content) :
    (restorePanes content (panes.map PaneSnap.toStructuralPane)).1 = panes ∧
      ∀ id ∉ panes.map (·.id),
        (restorePanes content (panes.map PaneSnap.toStructuralPane)).2[id]? = content[id]? := by
  induction panes generalizing content with
  | nil => exact ⟨rfl, fun _ _ => rfl⟩
  | cons first panes ih =>
    obtain ⟨fresh, distinct⟩ := List.nodup_cons.mp distinct
    have kept {id : PaneId} (other : id ≠ first.id) :
        (content.erase first.id)[id]? = content[id]? := by
      rw [ExtTreeMap.getElem?_erase, if_neg]
      rw [Std.compare_eq_iff_eq]
      exact fun same => other same.symm
    have rest : ∀ pane ∈ panes, (content.erase first.id)[pane.id]? = some pane.content := by
      intro pane member
      have other : pane.id ≠ first.id := by
        intro same
        apply fresh
        show first.id ∈ panes.map (·.id)
        rw [← same]
        exact List.mem_map_of_mem member
      rw [kept other]
      exact held pane (List.mem_cons_of_mem _ member)
    obtain ⟨restored, left⟩ := ih distinct rest
    have own : content.getD first.id [] = first.content := by
      rw [ExtTreeMap.getD_eq_getD_getElem?, held first List.mem_cons_self]
      rfl
    constructor
    · rw [List.map_cons, restorePanes]
      dsimp only
      rw [restored, own]
    · intro id absent
      rw [List.map_cons, List.mem_cons, not_or] at absent
      rw [List.map_cons, restorePanes]
      dsimp only
      rw [left id absent.2, kept absent.1]

/-- Terminal content returns to the Panes it was taken from. -/
private theorem restoreWindows_own {windows : List WinSnap} {content : ExtTreeMap PaneId Content}
    (distinct : ((windows.flatMap (·.panes)).map (·.id)).Nodup)
    (held : ∀ pane ∈ windows.flatMap (·.panes), content[pane.id]? = some pane.content) :
    restoreWindows content (windows.map fun window =>
      { toWindowFrame := window.toWindowFrame
        panes := window.panes.map PaneSnap.toStructuralPane }) = windows := by
  induction windows generalizing content with
  | nil => rfl
  | cons window windows ih =>
    rw [List.flatMap_cons, List.map_append, List.nodup_append] at distinct
    obtain ⟨here, later, apart⟩ := distinct
    obtain ⟨restored, left⟩ := restorePanes_own here fun pane member =>
      held pane (List.mem_append_left _ member)
    rw [List.map_cons, restoreWindows]
    dsimp only
    rw [restored, ih later]
    intro pane member
    rw [left]
    · exact held pane (List.mem_append_right _ member)
    · intro inside
      exact apart _ inside _ (List.mem_map_of_mem member) rfl

theorem restoreWindows_fromSnapshot {snapshot : Snapshot} (distinct : snapshot.DistinctPanes) :
    restoreWindows snapshot.contents (StructuralProjection.fromSnapshot snapshot).windows =
      snapshot.windows :=
  restoreWindows_own distinct (getElem?_foldl_insert_of_mem ∅ distinct)

private theorem restorePanes_strip (content : ExtTreeMap PaneId Content) (panes : List StructuralPane) :
    (restorePanes content panes).1.map PaneSnap.toStructuralPane = panes := by
  induction panes generalizing content with
  | nil => rfl
  | cons pane panes ih =>
    rw [restorePanes]
    dsimp only
    rw [List.map_cons, ih]

/-- A tree put into a snapshot comes back as it was. -/
theorem fromSnapshot_intoSnapshot (tree : StructuralProjection) (previous : Option Snapshot)
    (sequence : ℕ) : StructuralProjection.fromSnapshot (tree.intoSnapshot previous sequence) = tree := by
  have windows (content : ExtTreeMap PaneId Content) (windows : List StructuralWindow) :
      ((restoreWindows content windows).map fun window : WinSnap =>
        ({ toWindowFrame := window.toWindowFrame
           panes := window.panes.map PaneSnap.toStructuralPane } : StructuralWindow)) = windows := by
    induction windows generalizing content with
    | nil => rfl
    | cons window windows ih =>
      rw [restoreWindows]
      dsimp only
      rw [List.map_cons, restorePanes_strip, ih]
  unfold StructuralProjection.fromSnapshot StructuralProjection.intoSnapshot
  dsimp only
  rw [windows]

end Content

end Uniterm.Model.EventLog
