import Uniterm.Soundness.EventLog.Scan
import Uniterm.Soundness.Server.Order
import Uniterm.Model.EventLog.Replay
import Uniterm.ToMathlib.Keyed

/-! # Live queues are their replay

The server changes its queues first and logs the change, and the log drops an event that repeats the one
before it. Recovery folds the logged events over empty queues. As long as no allocator is exhausted the fold
ends in the live queues: an event that the log drops would change nothing.
-/

namespace Uniterm.Model.Work

open ToMathlib

theorem saturatingAdd64_of_lt {n : ℕ} (room : n < u64Max) : saturatingAdd64 n 1 = n + 1 := min_eq_left room

namespace WaitingQueue

variable {queue : WaitingQueue}

/-- At most one item for each Pane, under ids that were allocated. -/
structure Numbered (queue : WaitingQueue) : Prop where
  ids : (queue.items.map (·.id)).Nodup
  panes : (queue.items.map (·.pane)).Nodup
  allocated : ∀ item ∈ queue.items, item.id < queue.nextId

private theorem numbered_empty : Numbered {} :=
  ⟨List.nodup_nil, List.nodup_nil, fun _ member => absurd member List.not_mem_nil⟩

theorem Numbered.sublist (numbered : queue.Numbered) {items : List WaitingItem} (sub : items.Sublist queue.items) :
    Numbered { queue with items } where
  ids := numbered.ids.sublist (sub.map _)
  panes := numbered.panes.sublist (sub.map _)
  allocated item member := numbered.allocated item (sub.subset member)

theorem resolve_eq (numbered : queue.Numbered) (id : ℕ) :
    (queue.resolve id).1 = { queue with items := queue.items.filter (·.id != id) } := by
  rw [resolve, resolveWhere, eraseP_key WaitingItem.id numbered.ids]

/-- Taking the first item that fits takes the item of its id. -/
theorem resolveWhere_eq (numbered : queue.Numbered) {fits : WaitingItem → Bool} {item : WaitingItem}
    (found : queue.items.find? fits = some item) : (queue.resolveWhere fits).1 = (queue.resolve item.id).1 := by
  rw [resolve_eq numbered, resolveWhere, eraseP_of_find WaitingItem.id numbered.ids found]

private theorem updateSummary_eq (numbered : queue.Numbered) (id : ℕ) (summary : Text) :
    (queue.updateSummary id summary).1 = { queue with
      items := changeKey WaitingItem.id id ({ · with summary := boundedSummary summary }) queue.items } := by
  rw [updateSummary, modify_key WaitingItem.id numbered.ids]

private theorem boundedSummary_idem (summary : Text) : boundedSummary
    (boundedSummary summary) = boundedSummary summary := by
  rw [boundedSummary, boundedSummary, List.take_take, min_self]

theorem Numbered.updated (numbered : queue.Numbered) (id : ℕ) (summary : Text) :
    (queue.updateSummary id summary).1.Numbered := by
  have kept {β : Type} (other : WaitingItem → β)
      (same : ∀ item : WaitingItem, other { item with summary := boundedSummary summary } = other item) :
      (queue.updateSummary id summary).1.items.map other = queue.items.map other := by
    rw [updateSummary_eq numbered]
    exact map_changeKey WaitingItem.id same id
  refine ⟨?_, ?_, ?_⟩
  · rw [kept _ fun _ => rfl]
    exact numbered.ids
  · rw [kept _ fun _ => rfl]
    exact numbered.panes
  · rw [updateSummary_eq numbered]
    intro item member
    obtain ⟨old, listed, rfl⟩ := List.mem_map.mp member
    have allocated := numbered.allocated old listed
    split
    · exact allocated
    · exact allocated

private theorem insert_insert (queue : WaitingQueue) (item : WaitingItem) :
    (queue.insert item).insert item = queue.insert item := by
  unfold insert
  congr 1
  · rw [List.filter_append, List.filter_filter, List.filter_cons_of_neg (by simp), List.filter_nil,
      List.append_nil]
    simp only [Bool.and_self]
  · exact max_eq_left (le_max_right _ _)

theorem Numbered.insert (numbered : queue.Numbered) {item : WaitingItem} (room : item.id < u64Max) :
    (queue.insert item).Numbered := by
  have apart {α : Type} (key : WaitingItem → α) (distinct : (queue.items.map key).Nodup)
      (other : ∀ current ∈ queue.items, (current.id != item.id && current.pane != item.pane) = true →
        key current ≠ key item) :
      ((queue.insert item).items.map key).Nodup := by
    rw [WaitingQueue.insert, List.map_append, List.map_cons, List.map_nil, List.nodup_append]
    refine ⟨distinct.sublist (List.filter_sublist.map _), List.nodup_singleton _, ?_⟩
    rintro _ member _ last rfl
    obtain ⟨current, kept, same⟩ := List.mem_map.mp member
    obtain ⟨listed, passes⟩ := List.mem_filter.mp kept
    exact other current listed passes (same.trans (List.mem_singleton.mp last))
  refine ⟨apart _ numbered.ids ?_, apart _ numbered.panes ?_, ?_⟩
  · intro current _ passes
    simp only [Bool.and_eq_true, bne_iff_ne] at passes
    exact passes.1
  · intro current _ passes
    simp only [Bool.and_eq_true, bne_iff_ne] at passes
    exact passes.2
  · intro current member
    rw [WaitingQueue.insert, List.mem_append, List.mem_singleton] at member
    have next : item.id + 1 ≤ (queue.insert item).nextId := by
      rw [WaitingQueue.insert, saturatingAdd64_of_lt room]
      exact le_max_right _ _
    obtain old | rfl := member
    · exact (numbered.allocated current (List.mem_of_mem_filter old)).trans_le (le_max_left _ _)
    · exact next

/-- A new item for a Pane without one goes to the end. -/
theorem insert_fresh (numbered : queue.Numbered) {item : WaitingItem} (id : item.id = queue.nextId)
    (room : queue.nextId < u64Max) (free : ∀ current ∈ queue.items, current.pane ≠ item.pane) :
    queue.insert item = { items := queue.items ++ [item], nextId := queue.nextId + 1 } := by
  have kept : queue.items.filter (fun current => current.id != item.id && current.pane != item.pane) = queue.items := by
    rw [List.filter_eq_self]
    intro current member
    have old := numbered.allocated current member
    rw [Bool.and_eq_true, bne_iff_ne, bne_iff_ne]
    exact ⟨by omega, free current member⟩
  rw [insert, kept, id, saturatingAdd64_of_lt room]
  congr 1
  exact max_eq_right (Nat.le_succ _)

end WaitingQueue

namespace InstructionQueue

variable {queue : InstructionQueue}

/-- The instructions have ids of their own, all of which were allocated. -/
structure Numbered (queue : InstructionQueue) : Prop where
  ids : (queue.items.map (·.id)).Nodup
  allocated : ∀ item ∈ queue.items, item.id < queue.nextId
  limited : queue.nextId ≤ u64Max
  delivered : queue.nextDeliveryId ≤ u64Max

private theorem numbered_empty : Numbered {} :=
  ⟨List.nodup_nil, fun _ member => absurd member List.not_mem_nil, by decide, by decide⟩

private theorem remove_eq (numbered : queue.Numbered) (id : ℕ) :
    (queue.remove id).1 = { queue with items := queue.items.filter (·.id != id) } := by
  rw [remove, eraseP_key InstructionItem.id numbered.ids]

theorem Numbered.removed (numbered : queue.Numbered) (id : ℕ) : (queue.remove id).1.Numbered where
  ids := numbered.ids.sublist (List.eraseP_sublist.map _)
  allocated item member := numbered.allocated item (List.mem_of_mem_eraseP member)
  limited := numbered.limited
  delivered := numbered.delivered

private theorem remove_remove (numbered : queue.Numbered) (id : ℕ) :
    ((queue.remove id).1.remove id).1 = (queue.remove id).1 := by
  rw [remove_eq (numbered.removed id), remove_eq numbered]
  simp only [List.filter_filter, Bool.and_self]

private theorem max_saturatingAdd64 {n : ℕ} (limited : n ≤ u64Max) :
    max n (saturatingAdd64 n 1) = saturatingAdd64 n 1 :=
  max_eq_right (le_min (Nat.le_succ n) limited)

/-- Inserting allocates the id of the item, if that is the next one. -/
theorem insert_allocated (numbered : queue.Numbered) {item : InstructionItem} (id : item.id = queue.nextId) :
    ({ queue with nextId := saturatingAdd64 queue.nextId 1 } : InstructionQueue).insert item = queue.insert item := by
  rw [insert, insert, id, max_saturatingAdd64 numbered.limited, max_self]

private theorem replace_allocated (numbered : queue.Numbered) {item : InstructionItem} (id : item.id = queue.nextId)
    {replaced : ℕ}
    (found : queue.items.any (·.id == replaced)) :
    (({ queue with nextId := saturatingAdd64 queue.nextId 1 } : InstructionQueue).replace replaced item).1 =
      (queue.replace replaced item).1 := by
  rw [replace, replace, if_pos found, if_pos found, id, max_saturatingAdd64 numbered.limited, max_self]

private theorem nextId_insert (numbered : queue.Numbered) {item : InstructionItem} (id : item.id = queue.nextId)
    (room : queue.nextId < u64Max) : (queue.insert item).nextId = queue.nextId + 1 := by
  rw [insert, id, max_saturatingAdd64 numbered.limited, saturatingAdd64_of_lt room]

theorem Numbered.insert (numbered : queue.Numbered) {item : InstructionItem} (id : item.id = queue.nextId)
    (room : queue.nextId < u64Max) : (queue.insert item).Numbered := by
  have sorted : (queue.insert item).items.Perm (queue.items.filter (·.id != item.id) ++ [item]) :=
    List.mergeSort_perm _ _
  have next := nextId_insert numbered id room
  refine ⟨?_, ?_, next ▸ room, numbered.delivered⟩
  · rw [(sorted.map _).nodup_iff, List.map_append, List.map_cons, List.map_nil, List.nodup_append]
    refine ⟨numbered.ids.sublist (List.filter_sublist.map _), List.nodup_singleton _, ?_⟩
    rintro _ member _ last rfl
    obtain ⟨other, kept, same⟩ := List.mem_map.mp member
    rw [List.mem_singleton] at last
    have old := numbered.allocated other (List.mem_of_mem_filter kept)
    omega
  · intro other member
    rw [sorted.mem_iff, List.mem_append, List.mem_singleton] at member
    rw [next]
    obtain old | rfl := member
    · exact (numbered.allocated other (List.mem_of_mem_filter old)).trans (Nat.lt_succ_self _)
    · omega

private theorem nextId_replace (numbered : queue.Numbered) {item : InstructionItem} (id : item.id = queue.nextId)
    (room : queue.nextId < u64Max) {replaced : ℕ} (found : queue.items.any (·.id == replaced)) :
    (queue.replace replaced item).1.nextId = queue.nextId + 1 := by
  rw [replace, if_pos found, id, max_saturatingAdd64 numbered.limited, saturatingAdd64_of_lt room]

theorem Numbered.replace (numbered : queue.Numbered) {item : InstructionItem} (id : item.id = queue.nextId)
    (room : queue.nextId < u64Max) {replaced : ℕ} (found : queue.items.any (·.id == replaced)) :
    (queue.replace replaced item).1.Numbered := by
  have next := nextId_replace numbered id room found
  have items : (queue.replace replaced item).1.items =
      queue.items.set (queue.items.findIdx (·.id == replaced)) item := by
    rw [InstructionQueue.replace, if_pos found]
  refine ⟨?_, ?_, next ▸ room, ?_⟩
  · rw [items, List.map_set]
    refine List.Nodup.set numbered.ids ?_
    intro member
    obtain ⟨other, listed, same⟩ := List.mem_map.mp member
    have old := numbered.allocated other listed
    omega
  · intro other member
    rw [items] at member
    rw [next]
    obtain old | rfl := List.mem_or_eq_of_mem_set member
    · exact (numbered.allocated other old).trans (Nat.lt_succ_self _)
    · omega
  · rw [InstructionQueue.replace, if_pos found]
    exact numbered.delivered

end InstructionQueue

end Uniterm.Model.Work

namespace Uniterm.Model.Server

open EventLog Work

/-- What the reducer of the waiting items makes of one more event. -/
def waitingAfter (queue : WaitingQueue) (event : LogEvent) : WaitingQueue :=
  replayWaitingRecord queue ⟨none, none, event⟩

/-- What the reducer of the instructions makes of one more event. -/
def instructionsAfter (queue : InstructionQueue) (event : LogEvent) : InstructionQueue :=
  replayInstruction queue ⟨none, none, event⟩

/-- The instruction that an event puts in the queue. -/
def queuedItem : LogEvent → Option InstructionItem
  | .instructionQueued item => some item
  | .instructionReplaced _ item => some item
  | _ => none

/-- No reducer of the queues reads the event. -/
def Unread (event : LogEvent) : Prop :=
  (∀ queue, waitingAfter queue event = queue) ∧ ∀ queue, instructionsAfter queue event = queue

namespace Desk

variable {desk next : Desk} {event : LogEvent} {n : ℕ}

/-- Logging the event again would change no queue, or is impossible since its id was given away. -/
def Settled (desk : Desk) (event : LogEvent) : Prop :=
  (∃ item, queuedItem event = some item ∧ item.id < desk.instructions.nextId) ∨
    waitingAfter desk.waiting event = desk.waiting ∧ instructionsAfter desk.instructions event = desk.instructions

/-- The queues are the replay of the log, after a number of operations. -/
structure Replays (desk : Desk) (n : ℕ) : Prop where
  waiting : desk.log.records.foldl (fun queue record => waitingAfter queue record.2) {} = desk.waiting
  instructions : desk.log.records.foldl (fun queue record => instructionsAfter queue record.2) {} = desk.instructions
  settled : ∀ event, desk.log.last = some event → desk.Settled event
  waitingNumbered : desk.waiting.Numbered
  waitingNext : desk.waiting.nextId ≤ n + 1
  instructionsNumbered : desk.instructions.Numbered
  instructionsNext : desk.instructions.nextId ≤ n + 1

private theorem replays_empty : ({} : Desk).Replays 0 where
  waiting := rfl
  instructions := rfl
  settled _ logged := by cases logged
  waitingNumbered := WaitingQueue.numbered_empty
  waitingNext := le_rfl
  instructionsNumbered := InstructionQueue.numbered_empty
  instructionsNext := le_rfl

theorem Replays.mono {m : ℕ} (replays : desk.Replays n) (more : n ≤ m) : desk.Replays m :=
  { replays with
    waitingNext := replays.waitingNext.trans (Nat.succ_le_succ more)
    instructionsNext := replays.instructionsNext.trans (Nat.succ_le_succ more) }

/-- A change of the queues that its event tells to the reducers keeps the replay, also when the event is dropped. -/
theorem Replays.logged {m : ℕ} {always : Bool} (replays : desk.Replays n) (log : next.log = desk.log.record event always)
    (waiting : next.waiting = waitingAfter desk.waiting event)
    (instructions : next.instructions = instructionsAfter desk.instructions event)
    (fresh : ∀ item, queuedItem event = some item → desk.instructions.nextId ≤ item.id) (settled : next.Settled event)
    (waitingNumbered : next.waiting.Numbered) (waitingNext : next.waiting.nextId ≤ m + 1)
    (instructionsNumbered : next.instructions.Numbered) (instructionsNext : next.instructions.nextId ≤ m + 1) :
    next.Replays m := by
  rw [Log.record] at log
  split at log
  · next dropped =>
    have same : waitingAfter desk.waiting event = desk.waiting ∧
        instructionsAfter desk.instructions event = desk.instructions := by
      obtain ⟨item, queued, given⟩ | same := replays.settled event dropped.1
      · exact absurd given (Nat.not_lt.mpr (fresh item queued))
      · exact same
    refine ⟨?_, ?_, ?_, waitingNumbered, waitingNext, instructionsNumbered, instructionsNext⟩
    · rw [log, replays.waiting, waiting, same.1]
    · rw [log, replays.instructions, instructions, same.2]
    · intro last logged
      rw [log, dropped.1] at logged
      obtain rfl := Option.some.inj logged
      exact settled
  · refine ⟨?_, ?_, ?_, waitingNumbered, waitingNext, instructionsNumbered, instructionsNext⟩
    · rw [log, List.foldl_append, replays.waiting, waiting]
      rfl
    · rw [log, List.foldl_append, replays.instructions, instructions]
      rfl
    · intro last logged
      rw [log] at logged
      obtain rfl := Option.some.inj logged
      exact settled

section Waiting

/-- An event that only the reducer of the waiting items reads, logged with its change. -/
theorem Replays.waited {m : ℕ} (replays : desk.Replays n) (event : LogEvent) (more : n ≤ m)
    (unread : ∀ queue, instructionsAfter queue event = queue) (plain : queuedItem event = none)
    (again : waitingAfter (waitingAfter desk.waiting event) event = waitingAfter desk.waiting event)
    (numbered : (waitingAfter desk.waiting event).Numbered) (bounded : (waitingAfter desk.waiting event).nextId ≤ m + 1) :
    ({ desk with waiting := waitingAfter desk.waiting event }.append event).Replays m := by
  refine replays.logged rfl rfl (unread _).symm ?_ (.inr ⟨again, unread _⟩) numbered bounded
    replays.instructionsNumbered (replays.instructionsNext.trans (Nat.succ_le_succ more))
  intro item queued
  rw [plain] at queued
  cases queued

theorem Replays.resolved (replays : desk.Replays n) (id : ℕ) (resolution : WaitingResolution) :
    ({ desk with waiting := (desk.waiting.resolve id).1 }.append (.waitingResolved id resolution)).Replays n := by
  have numbered : (desk.waiting.resolve id).1.Numbered := replays.waitingNumbered.sublist List.eraseP_sublist
  refine replays.waited (.waitingResolved id resolution) le_rfl (fun _ => rfl) rfl ?_ numbered replays.waitingNext
  show ((desk.waiting.resolve id).1.resolve id).1 = (desk.waiting.resolve id).1
  rw [WaitingQueue.resolve_eq numbered, WaitingQueue.resolve_eq replays.waitingNumbered]
  simp only [List.filter_filter, Bool.and_self]

theorem Replays.updated (replays : desk.Replays n) (id : ℕ) (summary : Text) :
    ({ desk with waiting := (desk.waiting.updateSummary id summary).1 }.append (.waitingUpdated id summary)).Replays n := by
  have numbered := replays.waitingNumbered.updated id summary
  refine replays.waited (.waitingUpdated id summary) le_rfl (fun _ => rfl) rfl ?_ numbered replays.waitingNext
  show ((desk.waiting.updateSummary id summary).1.updateSummary id summary).1 = _
  rw [WaitingQueue.updateSummary_eq numbered]
  show _ = (desk.waiting.updateSummary id summary).1
  rw [WaitingQueue.updateSummary_eq replays.waitingNumbered]
  congr 1
  apply ToMathlib.changeKey_changeKey
  · exact fun _ => rfl
  · exact fun _ => rfl

theorem Replays.created (replays : desk.Replays n) (room : n + 1 < u64Max) {item : WaitingItem}
    (id : item.id = desk.waiting.nextId) (free : ∀ current ∈ desk.waiting.items, current.pane ≠ item.pane) :
    ({ desk with waiting := { items := desk.waiting.items ++ [item], nextId := saturatingAdd64 desk.waiting.nextId 1 } }.append
      (.waitingCreated item)).Replays (n + 1) := by
  have next := replays.waitingNext
  have inserted := WaitingQueue.insert_fresh replays.waitingNumbered id (by omega) free
  rw [saturatingAdd64_of_lt (by omega), ← inserted]
  refine replays.waited (.waitingCreated item) (Nat.le_succ n) (fun _ => rfl) rfl (WaitingQueue.insert_insert _ _)
    (replays.waitingNumbered.insert (by omega)) ?_
  show (desk.waiting.insert item).nextId ≤ _
  rw [inserted]
  exact Nat.succ_le_succ next

theorem Replays.request (replays : desk.Replays n) (room : n + 1 < u64Max) (pane : ℕ) (invocation : Option Int)
    (kind : WaitingKind) (summary : Text) :
    ({ desk with waiting := (desk.waiting.request pane invocation kind summary).1 }.recordWaitingChange
      (desk.waiting.request pane invocation kind summary).2).Replays (n + 1) := by
  rw [WaitingQueue.request]
  cases found : desk.waiting.items.find? (·.pane == pane) with
  | none =>
    refine replays.created room rfl ?_
    intro current member same
    exact List.find?_eq_none.mp found current member (beq_iff_eq.mpr same)
  | some old =>
    have taken := replays.resolved old.id .agentAdvanced
    rw [← WaitingQueue.resolveWhere_eq replays.waitingNumbered found] at taken
    refine taken.created room rfl ?_
    intro current member same
    rw [append, WaitingQueue.resolveWhere] at member
    dsimp only at member same
    rw [ToMathlib.eraseP_key WaitingItem.pane replays.waitingNumbered.panes, List.mem_filter, bne_iff_ne] at member
    exact member.2 same

theorem Replays.observeAgent (replays : desk.Replays n) (room : n + 1 < u64Max) (pane : ℕ) (invocation : Option Int)
    (status : Work.AgentStatus) (summary : Text) : (desk.observeAgent pane invocation status summary).Replays (n + 1) := by
  rw [Desk.observeAgent, WaitingQueue.observeAgent]
  cases found : desk.waiting.items.find? (·.pane == pane) with
  | none =>
    cases WaitingKind.fromAgentStatus status with
    | none => exact replays.mono (Nat.le_succ n)
    | some kind => exact replays.request room pane invocation kind summary
  | some item =>
    cases WaitingKind.fromAgentStatus status with
    | none =>
      have taken := replays.resolved item.id .agentAdvanced
      rw [← WaitingQueue.resolveWhere_eq replays.waitingNumbered found] at taken
      exact taken.mono (Nat.le_succ n)
    | some kind =>
      dsimp only
      split
      · split
        · exact replays.mono (Nat.le_succ n)
        · have refreshed := replays.updated item.id (boundedSummary summary)
          rw [WaitingQueue.updateSummary_eq replays.waitingNumbered, WaitingQueue.boundedSummary_idem,
            ← ToMathlib.modify_of_find WaitingItem.id replays.waitingNumbered.ids found] at refreshed
          exact refreshed.mono (Nat.le_succ n)
      · exact replays.request room pane invocation kind summary

theorem Replays.recordResolved (replays : desk.Replays n) (fits : WaitingItem → Bool) (resolution : WaitingResolution) :
    (desk.recordResolved (desk.waiting.resolveWhere fits) resolution).Replays n := by
  cases found : desk.waiting.items.find? fits with
  | none =>
    have same : desk.waiting.resolveWhere fits = (desk.waiting, none) := by
      rw [WaitingQueue.resolveWhere, found, ToMathlib.eraseP_of_find_none found]
    rw [same]
    exact replays
  | some item =>
    have taken := replays.resolved item.id resolution
    rw [← WaitingQueue.resolveWhere_eq replays.waitingNumbered found] at taken
    have both : desk.waiting.resolveWhere fits = ((desk.waiting.resolveWhere fits).1, some item) := by
      rw [← found]
      rfl
    rw [both]
    exact taken

end Waiting

section Instructions

/-- An event that only the reducer of the instructions reads, logged with its change. -/
theorem Replays.instructed {m : ℕ} (replays : desk.Replays n) (event : LogEvent) (more : n ≤ m)
    (unread : ∀ queue, waitingAfter queue event = queue)
    (fresh : ∀ item, queuedItem event = some item → desk.instructions.nextId ≤ item.id)
    (settled : ({ desk with instructions := instructionsAfter desk.instructions event }.append event).Settled event)
    (numbered : (instructionsAfter desk.instructions event).Numbered)
    (bounded : (instructionsAfter desk.instructions event).nextId ≤ m + 1) :
    ({ desk with instructions := instructionsAfter desk.instructions event }.append event).Replays m :=
  replays.logged rfl (unread _).symm rfl fresh settled replays.waitingNumbered
    (replays.waitingNext.trans (Nat.succ_le_succ more)) numbered bounded

theorem Replays.cancel (replays : desk.Replays n) (id : ℕ) (reason : InstructionCancellation) :
    (desk.cancel id reason).Replays n := by
  refine replays.instructed (.instructionCanceled id reason) le_rfl (fun _ => rfl) ?_ (.inr ⟨rfl, ?_⟩)
    (replays.instructionsNumbered.removed id) replays.instructionsNext
  · intro item queued
    cases queued
  · exact InstructionQueue.remove_remove replays.instructionsNumbered id

theorem Replays.cancelAll (replays : desk.Replays n) (ids : List ℕ) (reason : InstructionCancellation) :
    (desk.cancelAll ids reason).Replays n := by
  induction ids generalizing desk with
  | nil => exact replays
  | cons id ids ih => exact ih (replays.cancel id reason)

theorem Replays.deliverInstruction (replays : desk.Replays n) (around : Surroundings) (id : ℕ)
    (boundary : InstructionBoundary) : (desk.deliverInstruction around id boundary).2.Replays n := by
  have numbered := replays.instructionsNumbered
  rw [Desk.deliverInstruction]
  split
  · exact replays
  · next item found =>
    split
    · exact replays.cancel id .invocationEnded
    · have observed : desk.instructions.observeDeliveryId desk.instructions.nextDeliveryId =
          desk.instructions.mintDeliveryId.1 := by
        rw [InstructionQueue.observeDeliveryId, InstructionQueue.max_saturatingAdd64 numbered.delivered]
        rfl
      have minted : desk.instructions.mintDeliveryId.1.Numbered :=
        { ids := numbered.ids, allocated := numbered.allocated, limited := numbered.limited
          delivered := min_le_right _ _ }
      have twice : desk.instructions.mintDeliveryId.1.observeDeliveryId desk.instructions.nextDeliveryId =
          desk.instructions.mintDeliveryId.1 := by
        rw [InstructionQueue.observeDeliveryId]
        congr 1
        exact max_self _
      dsimp only
      cases accepted : around.accepts item.pane with
      | false =>
        have after : instructionsAfter desk.instructions
            (.instructionDelivery id desk.instructions.nextDeliveryId boundary false) =
              desk.instructions.mintDeliveryId.1 := observed
        refine replays.logged rfl rfl after.symm ?_ (.inr ⟨rfl, twice⟩) replays.waitingNumbered
          replays.waitingNext minted replays.instructionsNext
        intro item queued
        cases queued
      | true =>
        have after : instructionsAfter desk.instructions
            (.instructionDelivery id desk.instructions.nextDeliveryId boundary true) =
              (desk.instructions.mintDeliveryId.1.remove id).1 := by
          rw [← observed]
          rfl
        have settled : instructionsAfter (desk.instructions.mintDeliveryId.1.remove id).1
            (.instructionDelivery id desk.instructions.nextDeliveryId boundary true) =
              (desk.instructions.mintDeliveryId.1.remove id).1 := by
          have removed (queue : InstructionQueue) (same : queue = desk.instructions.mintDeliveryId.1) :
              (queue.remove id).1 = (desk.instructions.mintDeliveryId.1.remove id).1 := by rw [same]
          exact (congrArg (fun queue : InstructionQueue => (queue.remove id).1) (removed _ twice)).trans
            (InstructionQueue.remove_remove minted id)
        rw [if_pos rfl]
        refine replays.logged rfl rfl after.symm ?_ (.inr ⟨rfl, settled⟩) replays.waitingNumbered
          replays.waitingNext (minted.removed id) replays.instructionsNext
        intro item queued
        cases queued

theorem Replays.deliverCooperativeInstruction (replays : desk.Replays n) (around : Surroundings) (pane : ℕ) :
    (desk.deliverCooperativeInstruction around pane).Replays n := by
  have stale : (desk.cancelStaleInstructions pane (around.invocation pane)).Replays n :=
    replays.cancelAll _ .invocationEnded
  rw [Desk.deliverCooperativeInstruction]
  split
  · exact stale
  · split
    · exact stale
    · exact stale.deliverInstruction around _ .cooperativeReady

theorem Replays.instructionCommand (replays : desk.Replays n) (room : n + 1 < u64Max) (around : Surroundings)
    (command : InstructionCommand) : (desk.instructionCommand around command).2.Replays (n + 1) := by
  have numbered := replays.instructionsNumbered
  have next := replays.instructionsNext
  cases command with
  | add pane author text =>
    by_cases admitted : desk.Admits around pane text
    · obtain ⟨item, id, -, -, -, result⟩ := instructionCommand_add author admitted
      rw [result]
      have allocated := InstructionQueue.nextId_insert numbered id (by omega)
      have queued : (desk.instructions.allocate pane item.invocation author desk.createdSequence text).1.insert item =
          instructionsAfter desk.instructions (.instructionQueued item) := InstructionQueue.insert_allocated numbered id
      rw [queued]
      refine replays.instructed (.instructionQueued item) (Nat.le_succ n) (fun _ => rfl) ?_ (.inl ⟨item, rfl, ?_⟩)
        (numbered.insert id (by omega)) (allocated.trans_le (Nat.succ_le_succ next))
      · rintro _ ⟨⟩
        exact id.ge
      · exact (Nat.lt_succ_of_le id.le).trans_eq allocated.symm
    · rw [(instructionCommand_refused author admitted).2]
      exact replays.mono (Nat.le_succ n)
  | replace id author text =>
    by_cases replaceable : desk.Replaceable around id text
    · obtain ⟨current, item, found, given, -, result⟩ := instructionCommand_replace author replaceable
      rw [result]
      have listed : desk.instructions.items.any (·.id == id) :=
        List.find?_isSome.mp (Option.isSome_of_eq_some found) |> List.any_eq_true.mpr
      have allocated := InstructionQueue.nextId_replace numbered given (by omega) listed
      have replaced : ((desk.instructions.allocate current.pane current.invocation author desk.createdSequence
          text).1.replace id item).1 = instructionsAfter desk.instructions (.instructionReplaced id item) := by
        refine (InstructionQueue.replace_allocated numbered given listed).trans ?_
        show _ = if (desk.instructions.replace id item).2 then (desk.instructions.replace id item).1
          else desk.instructions.insert item
        rw [if_pos]
        rw [InstructionQueue.replace, if_pos listed]
      rw [replaced]
      have same : instructionsAfter desk.instructions (.instructionReplaced id item) =
          (desk.instructions.replace id item).1 :=
        replaced.symm.trans (InstructionQueue.replace_allocated numbered given listed)
      refine replays.instructed (.instructionReplaced id item) (Nat.le_succ n) (fun _ => rfl) ?_ (.inl ⟨item, rfl, ?_⟩)
        ?_ ?_
      · rintro _ ⟨⟩
        exact given.ge
      · show item.id < (instructionsAfter desk.instructions _).nextId
        rw [same, allocated]
        omega
      · rw [same]
        exact numbered.replace given (by omega) listed
      · rw [same]
        exact allocated.trans_le (Nat.succ_le_succ next)
    · rw [(instructionCommand_unreplaced author replaceable).2]
      exact replays.mono (Nat.le_succ n)
  | cancel id =>
    rw [Desk.instructionCommand]
    split
    · exact replays.mono (Nat.le_succ n)
    · exact (replays.cancel id .canceled).mono (Nat.le_succ n)
  | sendNow id => exact (replays.deliverInstruction around id .sendNow).mono (Nat.le_succ n)

end Instructions

theorem Replays.other (replays : desk.Replays n) {always : Bool} (unread : Unread event) (plain : queuedItem event = none) :
    { desk with log := desk.log.record event always }.Replays n := by
  refine replays.logged rfl (unread.1 _).symm (unread.2 _).symm ?_ (.inr ⟨unread.1 _, unread.2 _⟩)
    replays.waitingNumbered replays.waitingNext replays.instructionsNumbered replays.instructionsNext
  intro item queued
  rw [plain] at queued
  cases queued

/-- The events of everything else are read by neither reducer. -/
def Op.Foreign : Op → Prop
  | .other event _ => Unread event
  | _ => True

private theorem queuedItem_of_unread (unread : Unread event) : queuedItem event = none := by
  cases event with
  | instructionQueued item =>
    have grown : (InstructionQueue.insert {} item).items.length = 0 :=
      congrArg (fun queue : InstructionQueue => queue.items.length) (unread.2 {})
    rw [InstructionQueue.insert, List.length_mergeSort, List.length_append] at grown
    contradiction
  | instructionReplaced id item =>
    have grown : (InstructionQueue.insert {} item).items.length = 0 :=
      congrArg (fun queue : InstructionQueue => queue.items.length) (unread.2 {})
    rw [InstructionQueue.insert, List.length_mergeSort, List.length_append] at grown
    contradiction
  | _ => rfl

theorem Replays.step (replays : desk.Replays n) (room : n + 1 < u64Max) {op : Op} (foreign : op.Foreign) :
    (desk.step op).Replays (n + 1) := by
  cases op with
  | observeAgent pane invocation status summary => exact replays.observeAgent room pane invocation status summary
  | request pane invocation kind summary => exact replays.request room pane invocation kind summary
  | resolve id resolution => exact (replays.recordResolved _ resolution).mono (Nat.le_succ n)
  | resolvePane pane resolution => exact (replays.recordResolved _ resolution).mono (Nat.le_succ n)
  | resolvePaneKind pane kind resolution => exact (replays.recordResolved _ resolution).mono (Nat.le_succ n)
  | command around command => exact replays.instructionCommand room around command
  | ready around pane => exact (replays.deliverCooperativeInstruction around pane).mono (Nat.le_succ n)
  | stale pane invocation => exact (replays.cancelAll _ .invocationEnded).mono (Nat.le_succ n)
  | closed pane => exact (replays.cancelAll _ .paneClosed).mono (Nat.le_succ n)
  | other event always => exact (replays.other foreign (queuedItem_of_unread foreign)).mono (Nat.le_succ n)

private theorem replays_run {ops : List Op} (few : ops.length + 1 < u64Max) (foreign : ∀ op ∈ ops, op.Foreign) :
    (ops.foldl step {}).Replays ops.length := by
  induction ops using List.reverseRecOn with
  | nil => exact replays_empty
  | append_singleton ops op ih =>
    rw [List.length_append, List.length_singleton] at few ⊢
    rw [List.foldl_append]
    exact (ih (by omega) fun op member => foreign op (List.mem_append_left _ member)).step (by omega)
      (foreign op (List.mem_append_right _ (List.mem_singleton_self op)))

end Desk

/-- A stream holds some records, and its readers take them for a Workspace's. -/
structure Streamed (codec : Codec) (bytes : Bytes) (workspace : String) (records : List DecodedRecord) : Prop where
  lenient : codec.Lenient
  held : Records codec bytes records
  owned : ∃ owner, OwnershipChain none records owner ∧ (owner = none ∨ owner = some workspace)

/-- After fewer operations than there are ids, replaying what was logged gives back the live queues: the items in
their order, their summaries and the allocators. -/
theorem queues_replayed {ops : List Desk.Op} (few : ops.length + 1 < u64Max) (foreign : ∀ op ∈ ops, op.Foreign)
    {records : List DecodedRecord}
    (logged : records.map (·.event) = (ops.foldl Desk.step {}).log.records.map Prod.snd) :
    records.foldl replayWaitingRecord {} = (ops.foldl Desk.step {}).waiting ∧
      records.foldl replayInstruction {} = (ops.foldl Desk.step {}).instructions ∧
      ∀ codec bytes workspace, Streamed codec bytes workspace records →
        replayWaiting codec workspace bytes {} = .ok (ops.foldl Desk.step {}).waiting ∧
        replayInstructions codec workspace bytes {} = .ok (ops.foldl Desk.step {}).instructions := by
  have replays := Desk.replays_run few foreign
  have waiting : records.foldl replayWaitingRecord {} = (ops.foldl Desk.step {}).waiting := by
    rw [← replays.waiting]
    have folded := congrArg (List.foldl waitingAfter {}) logged
    rw [List.foldl_map, List.foldl_map] at folded
    exact folded
  have instructions : records.foldl replayInstruction {} = (ops.foldl Desk.step {}).instructions := by
    rw [← replays.instructions]
    have folded := congrArg (List.foldl instructionsAfter {}) logged
    rw [List.foldl_map, List.foldl_map] at folded
    exact folded
  refine ⟨waiting, instructions, fun codec bytes workspace streamed => ?_⟩
  obtain ⟨lenient, held, owner, chain, mine⟩ := streamed
  rw [← waiting, ← instructions]
  exact ⟨forEachRecord_chain lenient held chain mine _, forEachRecord_chain lenient held chain mine _⟩

/-- An agent in Pane 1 asks, goes on, asks for more and more, and is given an instruction. -/
private def session : List Desk.Op :=
  [.observeAgent 1 (some 7) .question ['a'], .observeAgent 1 (some 7) .working [],
    .observeAgent 1 (some 7) .permission ['b'], .observeAgent 1 (some 7) .permission ['c'],
    .command ⟨fun _ => true, fun _ => some 7, fun _ => true⟩ (.add 1 .cli ['x'])]

theorem queues_replayed_session :
    ((session.foldl Desk.step {}).log.records.map fun record => (⟨none, none, record.2⟩ : DecodedRecord)).foldl
        replayWaitingRecord {} = { items := [⟨2, 1, some 7, .permission, ['c']⟩], nextId := 3 } := by
  have foreign : ∀ op ∈ session, op.Foreign := by
    intro op member
    simp only [session, List.mem_cons, List.not_mem_nil, or_false] at member
    obtain rfl | rfl | rfl | rfl | rfl := member <;> trivial
  refine (@queues_replayed session (by decide) foreign _ (by rw [List.map_map]; rfl)).1.trans ?_
  rfl

end Uniterm.Model.Server
