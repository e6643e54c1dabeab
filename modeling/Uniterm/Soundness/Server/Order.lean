import Mathlib.Data.List.Pairwise
import Mathlib.Logic.Function.Basic
import Uniterm.Machine.Run
import Uniterm.Model.Server.Queues

/-! # The order of queued instructions

An accepted addition makes a slot, and an accepted replacement takes over the slot of the item it replaces.
As long as nothing is added behind a replacement that stands before an older item, the queue is in the order
of its slots.
-/

namespace Uniterm.Model.Server

open EventLog Work Machine

/-- The desk with the slot of every instruction, by its id. -/
structure Slotted where
  desk : Desk := {}
  slot : ℕ → ℕ := fun _ => 0
  made : ℕ := 0

namespace Slotted

/-- One operation; the replies to commands tell what was added and replaced. -/
def step (s : Slotted) (op : Desk.Op) : Slotted :=
  let desk := s.desk.step op
  match op with
  | .command around (.add pane author text) =>
    let (result, _) := s.desk.instructionCommand around (.add pane author text)
    if result.accepted then
      { desk := desk, slot := Function.update s.slot result.id s.made, made := s.made + 1 }
    else { s with desk := desk }
  | .command around (.replace id author text) =>
    let (result, _) := s.desk.instructionCommand around (.replace id author text)
    if result.accepted then { s with desk := desk, slot := Function.update s.slot result.id (s.slot id) }
    else { s with desk := desk }
  | _ => { s with desk := desk }

/-- The queue stands in the order of its slots. -/
def Ordered (s : Slotted) : Prop := s.desk.instructions.items.Pairwise fun a b => s.slot a.id < s.slot b.id

end Slotted

theorem record_sequence (log : Log) (event : LogEvent) (always : Bool)
    (bound : log.nextSequence ≤ u64Max) : log.nextSequence ≤ (log.record event always).nextSequence ∧
      (log.record event always).nextSequence ≤ u64Max := by
  unfold Log.record saturatingAdd64
  split
  · exact ⟨le_rfl, bound⟩
  · exact ⟨le_min (Nat.le_succ _) bound, min_le_right ..⟩

instance (s : Slotted) : Decidable s.Ordered :=
  inferInstanceAs (Decidable (s.desk.instructions.items.Pairwise fun a b => s.slot a.id < s.slot b.id))

namespace Desk

/-- The id to be allocated is no queued item's. -/
def Fresh (desk : Desk) : Prop := ∀ item ∈ desk.instructions.items, item.id ≠ desk.instructions.nextId

/-- The queue is sorted by creation: no replacement stands before an item that is older than it. -/
def Sorted (desk : Desk) : Prop := desk.instructions.items.Pairwise fun a b => InstructionQueue.keyLe a b = true

end Desk

section Keys

variable {a b c : InstructionItem}

private theorem keyLe_iff : InstructionQueue.keyLe a b = true ↔
    a.createdSequence < b.createdSequence ∨ a.createdSequence = b.createdSequence ∧ a.id ≤ b.id := by
  simp [InstructionQueue.keyLe]

private theorem keyLe_trans (first : InstructionQueue.keyLe a b = true) (second : InstructionQueue.keyLe b c = true) :
    InstructionQueue.keyLe a c = true := by
  rw [keyLe_iff] at *
  omega

private theorem keyLe_total (a b : InstructionItem) :
    (InstructionQueue.keyLe a b || InstructionQueue.keyLe b a) = true := by
  rw [Bool.or_eq_true, keyLe_iff, keyLe_iff]
  omega

/-- Sorting leaves a list alone exactly when it is sorted. -/
theorem mergeSort_eq_iff (items : List InstructionItem) : items.mergeSort InstructionQueue.keyLe = items ↔
    items.Pairwise fun a b => InstructionQueue.keyLe a b = true := by
  constructor
  · intro same
    rw [← same]
    apply List.pairwise_mergeSort
    · intro a b c first second
      exact keyLe_trans first second
    · exact keyLe_total
  · exact List.mergeSort_of_pairwise

end Keys

namespace Desk

/-- An addition is accepted for the process that runs in the pane. -/
def Admits (desk : Desk) (around : Surroundings) (pane : ℕ) (text : Text) : Prop :=
  ∃ invocation, around.invocation pane = some invocation ∧ ¬ text.isBlank ∧
    text.length ≤ maxInstructionChars ∧ desk.instructions.canEnqueue pane invocation

/-- A replacement is accepted while the process that the item waits for still runs. -/
def Replaceable (desk : Desk) (around : Surroundings) (id : ℕ) (text : Text) : Prop :=
  ∃ current, desk.instructions.get id = some current ∧ ¬ text.isBlank ∧
    text.length ≤ maxInstructionChars ∧ around.invocation current.pane = some current.invocation

/-- Nothing but removals from the queue; the log goes on. -/
structure Shrinks (desk next : Desk) : Prop where
  items : next.instructions.items.Sublist desk.instructions.items
  nextId : next.instructions.nextId = desk.instructions.nextId
  sequence : desk.log.nextSequence ≤ u64Max →
    desk.log.nextSequence ≤ next.log.nextSequence ∧ next.log.nextSequence ≤ u64Max

section Shrinks

variable {desk mid next : Desk} {around : Surroundings}

theorem Shrinks.refl (desk : Desk) : desk.Shrinks desk where
  items := .refl _
  nextId := rfl
  sequence bound := ⟨le_rfl, bound⟩

theorem Shrinks.trans (first : desk.Shrinks mid) (second : mid.Shrinks next) : desk.Shrinks next where
  items := second.items.trans first.items
  nextId := second.nextId.trans first.nextId
  sequence bound := by
    obtain ⟨early, kept⟩ := first.sequence bound
    obtain ⟨late, held⟩ := second.sequence kept
    exact ⟨early.trans late, held⟩

private theorem append_shrinks (desk : Desk) (event : LogEvent) : desk.Shrinks (desk.append event) where
  items := .refl _
  nextId := rfl
  sequence bound := record_sequence desk.log event false bound

/-- What an operation does to the waiting items is nothing to the instructions. -/
theorem waiting_shrinks (desk : Desk) (waiting : WaitingQueue) :
    desk.Shrinks { desk with waiting := waiting } where
  items := .refl _
  nextId := rfl
  sequence bound := ⟨le_rfl, bound⟩

private theorem recordWaitingChange_shrinks (desk : Desk) (change : WaitingChange) :
    desk.Shrinks (desk.recordWaitingChange change) := by
  cases change with
  | none => exact .refl desk
  | updated id summary => exact desk.append_shrinks _
  | created item => exact desk.append_shrinks _
  | replaced resolved created => exact (desk.append_shrinks _).trans (append_shrinks _ _)
  | resolved id resolution => exact desk.append_shrinks _

private theorem recordResolved_shrinks (desk : Desk) (result : WaitingQueue × Option WaitingItem)
    (resolution : WaitingResolution) : desk.Shrinks (desk.recordResolved result resolution) := by
  obtain ⟨waiting, resolved⟩ := result
  cases resolved with
  | none => exact desk.waiting_shrinks waiting
  | some item => exact (desk.waiting_shrinks waiting).trans (append_shrinks _ _)

private theorem removed_shrinks (desk : Desk) (id : ℕ) :
    desk.Shrinks { desk with instructions := (desk.instructions.remove id).1 } where
  items := List.eraseP_sublist
  nextId := rfl
  sequence bound := ⟨le_rfl, bound⟩

private theorem cancel_shrinks (desk : Desk) (id : ℕ) (reason : InstructionCancellation) :
    desk.Shrinks (desk.cancel id reason) :=
  (desk.append_shrinks _).trans (removed_shrinks _ id)

private theorem cancelAll_shrinks (desk : Desk) (ids : List ℕ) (reason : InstructionCancellation) :
    desk.Shrinks (desk.cancelAll ids reason) := by
  induction ids generalizing desk with
  | nil => exact .refl desk
  | cons id ids ih => exact (desk.cancel_shrinks id reason).trans (ih _)

private theorem deliverInstruction_shrinks (desk : Desk) (around : Surroundings) (id : ℕ)
    (boundary : InstructionBoundary) : desk.Shrinks (desk.deliverInstruction around id boundary).2 := by
  unfold deliverInstruction
  split
  · exact .refl desk
  · rename_i item found
    split
    · exact desk.cancel_shrinks id .invocationEnded
    · have minted : desk.Shrinks { desk with instructions := desk.instructions.mintDeliveryId.1 } :=
        { items := .refl _, nextId := rfl, sequence := fun bound => ⟨le_rfl, bound⟩ }
      have delivered := minted.trans (append_shrinks _
        (.instructionDelivery id desk.instructions.mintDeliveryId.2 boundary (around.accepts item.pane)))
      cases taken : around.accepts item.pane with
      | false => simpa [taken] using delivered
      | true => simpa [taken] using delivered.trans (removed_shrinks _ id)

private theorem deliverCooperativeInstruction_shrinks (desk : Desk) (around : Surroundings) (pane : ℕ) :
    desk.Shrinks (desk.deliverCooperativeInstruction around pane) := by
  have stale : desk.Shrinks (desk.cancelStaleInstructions pane (around.invocation pane)) :=
    desk.cancelAll_shrinks _ .invocationEnded
  unfold deliverCooperativeInstruction
  dsimp only
  split
  · exact stale
  · split
    · exact stale
    · exact stale.trans (deliverInstruction_shrinks _ around _ .cooperativeReady)

end Shrinks

section Commands

variable {desk : Desk} {around : Surroundings} {pane id : ℕ} (author : InstructionAuthor) {text : Text}

/-- An admitted addition records a fresh item and inserts it. -/
theorem instructionCommand_add (admitted : desk.Admits around pane text) :
    ∃ item : InstructionItem, item.id = desk.instructions.nextId ∧ item.pane = pane ∧
      around.invocation pane = some item.invocation ∧ item.createdSequence = desk.createdSequence ∧
      desk.instructionCommand around (.add pane author text) = (⟨item.id, true, true⟩,
        { desk.append (.instructionQueued item) with
          instructions := ((desk.instructions.allocate pane item.invocation author desk.createdSequence text).1).insert
            item }) := by
  obtain ⟨invocation, runs, spoken, short, room⟩ := admitted
  refine ⟨(desk.instructions.allocate pane invocation author desk.createdSequence text).2, rfl, rfl, runs, rfl, ?_⟩
  have accepted : ¬ (text.isBlank ∨ text.length > maxInstructionChars ∨
      ¬ desk.instructions.canEnqueue pane invocation) := by
    rintro (blank | long | full)
    · exact spoken blank
    · exact absurd short (Nat.not_le.mpr long)
    · exact full room
  simp only [instructionCommand, runs, if_neg accepted]
  rfl

/-- Any other addition changes nothing. -/
theorem instructionCommand_refused (refused : ¬ desk.Admits around pane text) :
    (desk.instructionCommand around (.add pane author text)).1.accepted = false ∧
      (desk.instructionCommand around (.add pane author text)).2 = desk := by
  cases runs : around.invocation pane with
  | none => simp only [instructionCommand, runs, and_self]
  | some invocation =>
    have rejected : text.isBlank ∨ text.length > maxInstructionChars ∨
        ¬ desk.instructions.canEnqueue pane invocation := by
      by_contra spoken
      push Not at spoken
      exact refused ⟨invocation, runs, by simpa using spoken.1, spoken.2.1, spoken.2.2⟩
    simp only [instructionCommand, runs, if_pos rejected, and_self]

/-- A replacement that is accepted records a fresh item and puts it in the place of the other. -/
theorem instructionCommand_replace (replaceable : desk.Replaceable around id text) :
    ∃ current item : InstructionItem, desk.instructions.get id = some current ∧
      item.id = desk.instructions.nextId ∧ item.createdSequence = desk.createdSequence ∧
      desk.instructionCommand around (.replace id author text) = (⟨item.id, true, true⟩,
        { desk.append (.instructionReplaced id item) with
          instructions := ((desk.instructions.allocate current.pane current.invocation author
            desk.createdSequence text).1.replace id item).1 }) := by
  obtain ⟨current, found, spoken, short, runs⟩ := replaceable
  refine ⟨current, (desk.instructions.allocate current.pane current.invocation author
    desk.createdSequence text).2, found, rfl, rfl, ?_⟩
  have accepted : ¬ (text.isBlank ∨ text.length > maxInstructionChars ∨
      around.invocation current.pane ≠ some current.invocation) := by
    rintro (blank | long | ended)
    · exact spoken blank
    · exact absurd short (Nat.not_le.mpr long)
    · exact ended runs
  simp only [instructionCommand, found, if_neg accepted]
  rfl

theorem instructionCommand_unreplaced (refused : ¬ desk.Replaceable around id text) :
    (desk.instructionCommand around (.replace id author text)).1.accepted = false ∧
      (desk.instructionCommand around (.replace id author text)).2 = desk := by
  cases found : desk.instructions.get id with
  | none => simp only [instructionCommand, found, and_self]
  | some current =>
    have rejected : text.isBlank ∨ text.length > maxInstructionChars ∨
        around.invocation current.pane ≠ some current.invocation := by
      by_contra spoken
      push Not at spoken
      exact refused ⟨current, found, by simpa using spoken.1, spoken.2.1, spoken.2.2⟩
    simp only [instructionCommand, found, if_pos rejected, and_self]

end Commands

end Desk

namespace Slotted

variable {s : Slotted}

/-- What carries the order: every queued item has a slot, and none is newer than the log or the allocator. -/
structure Standing (s : Slotted) : Prop where
  ordered : s.Ordered
  made : ∀ item ∈ s.desk.instructions.items, s.slot item.id < s.made
  created : ∀ item ∈ s.desk.instructions.items, item.createdSequence ≤ s.desk.log.nextSequence
  numbered : ∀ item ∈ s.desk.instructions.items, item.id ≤ s.desk.instructions.nextId
  limited : s.desk.instructions.nextId ≤ u64Max
  started : 1 ≤ s.desk.log.nextSequence
  bounded : s.desk.log.nextSequence ≤ u64Max

/-- Removals keep the order. -/
theorem Standing.shrunk (standing : s.Standing) {next : Desk} (shrunk : s.desk.Shrinks next) :
    ({ s with desk := next } : Slotted).Standing := by
  obtain ⟨later, held⟩ := shrunk.sequence standing.bounded
  exact
    { ordered := standing.ordered.sublist shrunk.items
      made := fun item queued => standing.made item (shrunk.items.subset queued)
      created := fun item queued => (standing.created item (shrunk.items.subset queued)).trans later
      numbered := fun item queued => (standing.numbered item (shrunk.items.subset queued)).trans shrunk.nextId.ge
      limited := shrunk.nextId.trans_le standing.limited
      started := standing.started.trans later
      bounded := held }

/-- The condition on a step: an accepted addition or replacement gets an id that no queued item has, and an
addition finds the queue sorted. -/
def Steady (s : Slotted) : Desk.Op → Prop
  | .command around (.add pane _ text) => s.desk.Admits around pane text → s.desk.Fresh ∧ s.desk.Sorted
  | .command around (.replace id _ text) => s.desk.Replaceable around id text → s.desk.Fresh
  | _ => True

theorem Standing.createdSequence (standing : s.Standing) :
    s.desk.createdSequence = s.desk.log.nextSequence := by
  have started := standing.started
  have bounded := standing.bounded
  unfold Desk.createdSequence Log.currentSequence saturatingAdd64
  omega

/-- A fresh item is newer than every queued one, so a sorted queue is left alone. -/
theorem Standing.sorted_concat (standing : s.Standing) {item : InstructionItem}
    (id : item.id = s.desk.instructions.nextId) (created : item.createdSequence = s.desk.createdSequence) :
    ((s.desk.instructions.items ++ [item]).Pairwise fun a b => InstructionQueue.keyLe a b = true) ↔
      s.desk.Sorted := by
  rw [List.pairwise_append]
  refine ⟨fun both => both.1, fun sorted => ⟨sorted, List.pairwise_singleton .., ?_⟩⟩
  intro older queued newer last
  obtain rfl := List.mem_singleton.mp last
  have early := standing.created older queued
  have numbered := standing.numbered older queued
  rw [keyLe_iff, id, created, standing.createdSequence]
  omega

section Addition

variable {around : Surroundings} {pane : ℕ} (author : InstructionAuthor) {text : Text}

private theorem step_add (admitted : s.desk.Admits around pane text) : ∃ item : InstructionItem,
    item.id = s.desk.instructions.nextId ∧ item.createdSequence = s.desk.createdSequence ∧
      s.step (.command around (.add pane author text)) =
        { desk := { s.desk.append (.instructionQueued item) with
            instructions := ((s.desk.instructions.allocate pane item.invocation author s.desk.createdSequence
              text).1).insert item }
          slot := Function.update s.slot item.id s.made
          made := s.made + 1 } := by
  obtain ⟨item, same, -, -, created, ran⟩ := Desk.instructionCommand_add author admitted
  refine ⟨item, same, created, ?_⟩
  simp only [step, Desk.step, ran, if_true]

private theorem inserted_items (fresh : s.desk.Fresh) {item : InstructionItem} (queue : InstructionQueue)
    (items : queue.items = s.desk.instructions.items) (same : item.id = s.desk.instructions.nextId) :
    (queue.insert item).items = (s.desk.instructions.items ++ [item]).mergeSort InstructionQueue.keyLe := by
  have kept : s.desk.instructions.items.filter (·.id != item.id) = s.desk.instructions.items := by
    rw [List.filter_eq_self]
    intro older queued
    rw [same]
    simpa using fresh older queued
  rw [InstructionQueue.insert, items, kept]

/-- The slots of the queue and of the item that comes last. -/
theorem Standing.slots_concat (standing : s.Standing) (fresh : s.desk.Fresh) {item : InstructionItem}
    (same : item.id = s.desk.instructions.nextId) :
    (s.desk.instructions.items ++ [item]).Pairwise fun a b =>
      Function.update s.slot item.id s.made a.id < Function.update s.slot item.id s.made b.id := by
  have other (older : InstructionItem) (queued : older ∈ s.desk.instructions.items) :
      Function.update s.slot item.id s.made older.id = s.slot older.id :=
    Function.update_of_ne (by rw [same]; exact fresh older queued) ..
  rw [List.pairwise_append]
  refine ⟨standing.ordered.imp_of_mem ?_, List.pairwise_singleton .., ?_⟩
  · intro a b first second before
    rwa [other a first, other b second]
  · intro older queued newer last
    obtain rfl := List.mem_singleton.mp last
    rw [other older queued, Function.update_self]
    exact standing.made older queued

/-- An accepted addition keeps the order exactly when the queue is sorted. -/
theorem Standing.ordered_add (standing : s.Standing) (fresh : s.desk.Fresh)
    (admitted : s.desk.Admits around pane text) :
    (s.step (.command around (.add pane author text))).Ordered ↔ s.desk.Sorted := by
  obtain ⟨item, same, created, stepped⟩ := step_add author admitted
  have inserted := inserted_items fresh
    (s.desk.instructions.allocate pane item.invocation author s.desk.createdSequence text).1 (by rfl) same
  have placed := standing.slots_concat fresh same
  rw [← standing.sorted_concat same created, ← mergeSort_eq_iff, stepped]
  unfold Ordered
  dsimp only
  rw [inserted]
  constructor
  · intro ordered
    refine List.Perm.eq_of_pairwise ?_ ordered placed (List.mergeSort_perm ..)
    intro a b _ _ before after
    omega
  · intro unmoved
    rwa [unmoved]

private theorem step_add_refused (refused : ¬ s.desk.Admits around pane text) :
    s.step (.command around (.add pane author text)) = s := by
  obtain ⟨rejected, unchanged⟩ := Desk.instructionCommand_refused author refused
  simp only [step, Desk.step, rejected, unchanged, Bool.false_eq_true, if_false]

theorem Standing.add (standing : s.Standing) (fresh : s.desk.Fresh) (sorted : s.desk.Sorted)
    (admitted : s.desk.Admits around pane text) :
    (s.step (.command around (.add pane author text))).Standing := by
  have ordered := (standing.ordered_add author fresh admitted).mpr sorted
  obtain ⟨item, same, created, stepped⟩ := step_add author admitted
  have inserted := inserted_items fresh
    (s.desk.instructions.allocate pane item.invocation author s.desk.createdSequence text).1 (by rfl) same
  have unmoved := (mergeSort_eq_iff _).mpr ((standing.sorted_concat same created).mpr sorted)
  rw [unmoved] at inserted
  obtain ⟨later, held⟩ := record_sequence s.desk.log (.instructionQueued item) false standing.bounded
  have advanced : s.desk.instructions.nextId ≤ saturatingAdd64 s.desk.instructions.nextId 1 :=
    le_min (Nat.le_succ _) standing.limited
  rw [stepped] at ordered ⊢
  refine
    { ordered := ordered, made := ?_, created := ?_, numbered := ?_, limited := ?_
      started := standing.started.trans later, bounded := held } <;>
  dsimp only
  · rw [inserted]
    intro queued member
    obtain older | newest := List.mem_append.mp member
    · rw [Function.update_of_ne (by rw [same]; exact fresh queued older)]
      exact (standing.made queued older).trans (Nat.lt_succ_self _)
    · rw [List.mem_singleton.mp newest, Function.update_self]
      exact Nat.lt_succ_self _
  · rw [inserted]
    intro queued member
    obtain older | newest := List.mem_append.mp member
    · exact (standing.created queued older).trans later
    · rw [List.mem_singleton.mp newest, created, standing.createdSequence]
      exact later
  · rw [inserted]
    intro queued member
    refine le_trans ?_ (advanced.trans (le_max_left ..))
    obtain older | newest := List.mem_append.mp member
    · exact standing.numbered queued older
    · rw [List.mem_singleton.mp newest, same]
  · exact max_le (min_le_right ..) (min_le_right ..)

end Addition

section Replacement

variable {around : Surroundings} {id : ℕ} (author : InstructionAuthor) {text : Text}

theorem replace_eq (queue : InstructionQueue) {current : InstructionItem} (found : queue.get id = some current)
    (item : InstructionItem) : (queue.replace id item).1 = { queue with
      nextId := max queue.nextId (saturatingAdd64 item.id 1)
      items := queue.items.set (queue.items.findIdx (·.id == id)) item } := by
  have present : queue.items.any (·.id == id) = true := by
    have matches_id : (current.id == id) = true := (List.find?_some found :)
    exact List.any_eq_true.mpr ⟨current, List.mem_of_find?_eq_some found, matches_id⟩
  rw [InstructionQueue.replace, if_pos present]

private theorem step_replace (replaceable : s.desk.Replaceable around id text) : ∃ current item : InstructionItem,
    s.desk.instructions.get id = some current ∧ item.id = s.desk.instructions.nextId ∧
      item.createdSequence = s.desk.createdSequence ∧
      s.step (.command around (.replace id author text)) =
        { s with
          desk := { s.desk.append (.instructionReplaced id item) with
            instructions := ((s.desk.instructions.allocate current.pane current.invocation author
              s.desk.createdSequence text).1.replace id item).1 }
          slot := Function.update s.slot item.id (s.slot id) } := by
  obtain ⟨current, item, found, same, created, ran⟩ :=
    Desk.instructionCommand_replace author replaceable
  refine ⟨current, item, found, same, created, ?_⟩
  simp only [step, Desk.step, ran, if_true]

private theorem step_replace_refused (refused : ¬ s.desk.Replaceable around id text) :
    s.step (.command around (.replace id author text)) = s := by
  obtain ⟨rejected, unchanged⟩ := Desk.instructionCommand_unreplaced author refused
  simp only [step, Desk.step, rejected, unchanged, Bool.false_eq_true, if_false]

/-- A fresh item takes over the slot of the item whose place it takes. -/
theorem slots_set (id : ℕ) {items : List InstructionItem} {item : InstructionItem}
    (fresh : ∀ older ∈ items, older.id ≠ item.id) (slot : ℕ → ℕ) :
    (items.set (items.findIdx (·.id == id)) item).map (fun queued =>
      Function.update slot item.id (slot id) queued.id) = items.map fun queued => slot queued.id := by
  apply List.ext_getElem
  · simp only [List.length_map, List.length_set]
  · intro i first second
    rw [List.length_map] at second
    rw [List.getElem_map, List.getElem_map, List.getElem_set]
    split
    · rename_i here
      subst here
      have taken := List.findIdx_getElem (w := second)
      rw [Function.update_self]
      exact congrArg slot (beq_iff_eq.mp taken).symm
    · exact Function.update_of_ne (fresh _ (List.getElem_mem second)) ..

theorem Standing.replace (standing : s.Standing) (fresh : s.desk.Fresh)
    (replaceable : s.desk.Replaceable around id text) :
    (s.step (.command around (.replace id author text))).Standing := by
  obtain ⟨current, item, found, same, created, stepped⟩ := step_replace author replaceable
  obtain ⟨later, held⟩ := record_sequence s.desk.log (.instructionReplaced id item) false standing.bounded
  have advanced : s.desk.instructions.nextId ≤ saturatingAdd64 s.desk.instructions.nextId 1 :=
    le_min (Nat.le_succ _) standing.limited
  have other (older : InstructionItem) (queued : older ∈ s.desk.instructions.items) : older.id ≠ item.id := by
    rw [same]
    exact fresh older queued
  have slots := slots_set id other s.slot
  have present : current ∈ s.desk.instructions.items := List.mem_of_find?_eq_some found
  have current_id : current.id = id := by simpa using List.find?_some found
  have replaced := replace_eq (s.desk.instructions.allocate current.pane current.invocation author
    s.desk.createdSequence text).1 found item
  rw [stepped, replaced]
  refine
    { ordered := ?_, made := ?_, created := ?_, numbered := ?_, limited := ?_
      started := standing.started.trans later, bounded := held }
  · have ordered := standing.ordered
    unfold Ordered at ordered ⊢
    rw [← List.pairwise_map (f := fun queued : InstructionItem => s.slot queued.id) (R := (· < ·)), ← slots,
      List.pairwise_map] at ordered
    exact ordered
  · intro queued member
    obtain older | newest := List.mem_or_eq_of_mem_set member
    · dsimp only
      rw [Function.update_of_ne (other queued older)]
      exact standing.made queued older
    · dsimp only
      rw [newest, Function.update_self, ← current_id]
      exact standing.made current present
  · intro queued member
    obtain older | newest := List.mem_or_eq_of_mem_set member
    · exact (standing.created queued older).trans later
    · rw [newest, created, standing.createdSequence]
      exact later
  · intro queued member
    refine le_trans ?_ (advanced.trans (le_max_left ..))
    obtain older | newest := List.mem_or_eq_of_mem_set member
    · exact standing.numbered queued older
    · rw [newest, same]
  · exact max_le (min_le_right ..) (min_le_right ..)

end Replacement

/-- A steady operation keeps what carries the order. -/
theorem Standing.step (standing : s.Standing) {op : Desk.Op} (steady : s.Steady op) : (s.step op).Standing := by
  cases op with
  | observeAgent pane invocation status summary =>
    exact standing.shrunk ((Desk.waiting_shrinks ..).trans (Desk.recordWaitingChange_shrinks ..))
  | request pane invocation kind summary =>
    exact standing.shrunk ((Desk.waiting_shrinks ..).trans (Desk.recordWaitingChange_shrinks ..))
  | resolve id resolution => exact standing.shrunk (Desk.recordResolved_shrinks ..)
  | resolvePane pane resolution => exact standing.shrunk (Desk.recordResolved_shrinks ..)
  | resolvePaneKind pane kind resolution => exact standing.shrunk (Desk.recordResolved_shrinks ..)
  | command around command =>
    cases command with
    | add pane author text =>
      by_cases admitted : s.desk.Admits around pane text
      · obtain ⟨fresh, sorted⟩ := steady admitted
        exact standing.add author fresh sorted admitted
      · rwa [step_add_refused author admitted]
    | replace id author text =>
      by_cases replaceable : s.desk.Replaceable around id text
      · exact standing.replace author (steady replaceable) replaceable
      · rwa [step_replace_refused author replaceable]
    | cancel id =>
      refine standing.shrunk ?_
      simp only [Desk.step, Desk.instructionCommand]
      split
      · exact .refl _
      · exact Desk.cancel_shrinks ..
    | sendNow id => exact standing.shrunk (Desk.deliverInstruction_shrinks ..)
  | ready around pane => exact standing.shrunk (Desk.deliverCooperativeInstruction_shrinks ..)
  | stale pane invocation => exact standing.shrunk (Desk.cancelAll_shrinks ..)
  | closed pane => exact standing.shrunk (Desk.cancelAll_shrinks ..)
  | other event always =>
    exact standing.shrunk
      { items := .refl _, nextId := rfl, sequence := record_sequence s.desk.log event always }

/-- The item handed to a process is the one whose slot was queued first for it. -/
theorem Standing.nextFor (standing : s.Standing) {pane : ℕ} {invocation : Int} {item other : InstructionItem}
    (next : s.desk.instructions.nextFor pane invocation = some item)
    (queued : other ∈ s.desk.instructions.items) (pane_eq : other.pane = pane)
    (invocation_eq : other.invocation = invocation) : s.slot item.id ≤ s.slot other.id := by
  obtain ⟨-, before, after, split, none⟩ := List.find?_eq_some_iff_append.mp next
  have ordered := standing.ordered
  unfold Ordered at ordered
  rw [split] at queued ordered
  obtain early | same | late := List.mem_append.mp queued |>.imp_right List.mem_cons.mp
  · exact absurd (none other early) (by simp [pane_eq, invocation_eq])
  · rw [same]
  · exact ((List.pairwise_cons.mp (List.pairwise_append.mp ordered).2.1).1 other late).le

/-- An empty queue, with counters of 64 bits. -/
structure Initial (s : Slotted) : Prop where
  empty : s.desk.instructions.items = []
  limited : s.desk.instructions.nextId ≤ u64Max
  started : 1 ≤ s.desk.log.nextSequence
  bounded : s.desk.log.nextSequence ≤ u64Max

theorem Initial.standing (initial : s.Initial) : s.Standing where
  ordered := by
    rw [Ordered, initial.empty]
    exact .nil
  made item queued := absurd queued (by rw [initial.empty]; exact List.not_mem_nil)
  created item queued := absurd queued (by rw [initial.empty]; exact List.not_mem_nil)
  numbered item queued := absurd queued (by rw [initial.empty]; exact List.not_mem_nil)
  limited := initial.limited
  started := initial.started
  bounded := initial.bounded

/-- One agent, process 1, that takes what is typed. -/
private def agent : Surroundings := ⟨fun _ => true, fun _ => some 1, fun _ => true⟩

/-- An instruction for the agent. -/
private def note (id : ℕ) : InstructionItem := ⟨id, 1, 1, .cli, id, ['a']⟩

/-- What the queue holds after the events, each of which allocated an id. -/
private def filed (events : List LogEvent) (items : List InstructionItem) (slot : ℕ → ℕ) (made : ℕ) :
    Slotted where
  desk :=
    { instructions := { items := items, nextId := events.length + 1 }
      log :=
        { last := events.getLast?, nextSequence := events.length + 1
          records := events.zipIdx.map fun event => (event.2 + 1, event.1) } }
  slot := slot
  made := made

private def one : Slotted := filed [.instructionQueued (note 1)] [note 1] (Function.update (fun _ => 0) 1 0) 1

private def two : Slotted :=
  filed [.instructionQueued (note 1), .instructionQueued (note 2)] [note 1, note 2]
    (Function.update one.slot 2 1) 2

end Slotted

end Uniterm.Model.Server
