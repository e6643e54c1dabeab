import Mathlib.Algebra.BigOperators.Group.List.Basic
import Mathlib.Data.List.Induction
import Uniterm.Model.Runtime.Outbox

/-! # The backlog keeps the order of what was pushed

The history of an outbox lists every message ever pushed, in that order, with what became of it. A
message is superseded when a later one of its projection is pushed while it is pending and no barrier
is pending behind it. What was delivered and what is pending are the rest of the history, in order.
-/

namespace Uniterm.Model.Runtime

variable {S O : Type}

namespace CoreToAgent

/-- The flag of a Pane's evidence. -/
def changed : CoreToAgent S O → Bool
  | paneEvidence evidence => evidence.processChanged
  | _ => false

/-- A message under another flag. -/
def withChanged (flag : Bool) : CoreToAgent S O → CoreToAgent S O
  | paneEvidence evidence => paneEvidence { evidence with processChanged := flag }
  | message => message

variable {message other third : CoreToAgent S O} {flag : Bool}

@[simp] theorem withChanged_changed : message.withChanged message.changed = message := by
  cases message <;> rfl

@[simp] theorem barrier_withChanged : (message.withChanged flag).barrier = message.barrier := by
  cases message <;> rfl

@[simp] theorem sameProjection_withChanged :
    (message.withChanged flag).sameProjection other = message.sameProjection other := by
  cases message <;> cases other <;> rfl

private theorem sameProjection_trans (first : message.sameProjection other)
    (second : third.sameProjection other) : message.sameProjection third := by
  cases message <;> cases other <;> cases third <;>
    simp_all only [sameProjection, beq_iff_eq, Bool.false_eq_true]

private theorem barrier_of_sameProjection (same : message.sameProjection other) : message.barrier = false := by
  cases message <;> first | rfl | cases same

/-- The new message takes over the flag of the one that it replaces. -/
theorem inherit_withChanged (same : message.sameProjection other) :
    (message.withChanged flag).inherit other =
      other.withChanged (other.changed || flag) := by
  cases message <;> cases other <;> simp_all [sameProjection, withChanged, inherit, changed]

end CoreToAgent

section History

/-- What became of a pushed message. -/
inductive Fate where
  | pending
  | delivered
  | superseded (later : ℕ)
deriving DecidableEq, Repr

/-- A pushed message, the flag that it carries, and its fate. -/
structure Record (S O : Type) where
  message : CoreToAgent S O
  changed : Bool
  fate : Fate

namespace Record

/-- The message as it is sent. -/
def sent (record : Record S O) : CoreToAgent S O := record.message.withChanged record.changed

def isPending (record : Record S O) : Bool := record.fate == .pending

def isDelivered (record : Record S O) : Bool := record.fate == .delivered

end Record

/-- Whether a message displaces a record, the later records being given: the record is pending, of the
same projection, and no barrier is pending behind it. -/
def displaces (message : CoreToAgent S O) (record : Record S O) (later : List (Record S O)) : Bool :=
  record.isPending && record.message.sameProjection message &&
    later.all fun other => !(other.isPending && other.message.barrier)

/-- The records after a push under an index: those that it displaces are superseded. -/
def supersede (message : CoreToAgent S O) (index : ℕ) : List (Record S O) → List (Record S O)
  | [] => []
  | record :: later =>
    (if displaces message record later then { record with fate := .superseded index } else record) ::
      supersede message index later

/-- The flags of the records that a message displaces. -/
def displacedChanged (message : CoreToAgent S O) : List (Record S O) → Bool
  | [] => false
  | record :: later =>
    displaces message record later && record.changed || displacedChanged message later

/-- The first pending records are delivered. -/
def deliver : ℕ → List (Record S O) → List (Record S O)
  | _, [] => []
  | 0, records => records
  | room + 1, record :: later =>
    if record.isPending then { record with fate := .delivered } :: deliver room later
    else record :: deliver (room + 1) later

/-- One more push or flush. -/
def recordOp (records : List (Record S O)) : Op S O → List (Record S O)
  | .push message => supersede message records.length records ++
      [⟨message, message.changed || displacedChanged message records, .pending⟩]
  | .flush receiver => deliver receiver.room records

/-- Every message ever pushed, with what became of it. -/
def history (ops : List (Op S O)) : List (Record S O) := ops.foldl recordOp []

/-- The pushed messages, oldest first. -/
def pushes (ops : List (Op S O)) : List (CoreToAgent S O) :=
  ops.filterMap fun op => match op with
    | .push message => some message
    | .flush _ => none

end History

section Replacing

variable {message : CoreToAgent S O}

/-- What a push takes out of the pending messages. -/
def strip (message : CoreToAgent S O) :
    List (CoreToAgent S O × ℕ) → Option (List (CoreToAgent S O × ℕ) × CoreToAgent S O × ℕ)
  | [] => none
  | item :: rest =>
    match strip message rest with
    | some (rest, old) => some (item :: rest, old)
    | none =>
      if item.1.sameProjection message ∧ rest.all (fun item => !item.1.barrier) then some (rest, item)
      else none

private theorem rposition_some {α : Type} {fits : α → Bool} {values : List α} {index : ℕ}
    (found : rposition fits values = some index) : ∃ value, values[index]? = some value := by
  induction values generalizing index with
  | nil => cases found
  | cons value rest ih =>
    rw [rposition] at found
    split at found
    · next later there =>
      cases found
      exact ih there
    · split at found
      · cases found
        exact ⟨value, rfl⟩
      · cases found

/-- Only the last message of a projection can be replaced: an earlier one has the same barriers
behind it. -/
theorem strip_eq (message : CoreToAgent S O) (items : List (CoreToAgent S O × ℕ)) :
    strip message items = match rposition (fun item => item.1.sameProjection message) items with
      | none => none
      | some index =>
        if (items.drop (index + 1)).all fun item => !item.1.barrier then
          (items[index]?).map fun old => (items.eraseIdx index, old)
        else none := by
  induction items with
  | nil => rfl
  | cons item rest ih =>
    rw [strip, rposition, ih]
    cases found : rposition (fun item => item.1.sameProjection message) rest with
    | none =>
      dsimp only
      by_cases same : item.1.sameProjection message = true
      · rw [if_pos same]
        simp only [same, true_and]
        rfl
      · rw [if_neg same, if_neg fun both => same both.1]
    | some index =>
      obtain ⟨old, read⟩ := rposition_some found
      dsimp only
      rw [List.drop_succ_cons, List.getElem?_cons_succ, List.eraseIdx_cons_succ, read]
      by_cases clear : ((rest.drop (index + 1)).all fun item => !item.1.barrier) = true
      · rw [if_pos clear, if_pos clear]
        rfl
      · rw [if_neg clear, if_neg clear]
        refine if_neg fun both => clear ?_
        exact List.all_eq_true.mpr fun other listed =>
          List.all_eq_true.mp both.2 other (List.mem_of_mem_drop listed)

theorem replace_eq (outbox : Outbox S O) (message : CoreToAgent S O) :
    outbox.replace message = match strip message outbox.pending with
      | none => (outbox, message)
      | some (rest, old, size) =>
        ({ outbox with pending := rest, bytes := outbox.bytes - size }, old.inherit message) := by
  rw [strip_eq, Outbox.replace]
  cases rposition (fun item => item.1.sameProjection message) outbox.pending with
  | none => rfl
  | some index =>
    dsimp only
    split
    · cases outbox.pending[index]? <;> rfl
    · rfl

/-- Between two pending records of one projection a barrier is pending. -/
def Separated : List (Record S O) → Prop
  | [] => True
  | record :: later =>
    (record.isPending = true → (∃ other ∈ later, other.isPending = true ∧
      record.message.sameProjection other.message = true) →
        ∃ other ∈ later, other.isPending = true ∧ other.message.barrier = true) ∧ Separated later

/-- The messages that are pending, as they will be sent. -/
def waiting (records : List (Record S O)) : List (CoreToAgent S O) :=
  (records.filter Record.isPending).map Record.sent

variable {records : List (Record S O)} {items : List (CoreToAgent S O × ℕ)} {index : ℕ}

private theorem all_barrier_iff (same : items.map Prod.fst = waiting records) :
    (items.all fun item => !item.1.barrier) =
      records.all fun other => !(other.isPending && other.message.barrier) := by
  have mapped : (items.all fun item => !item.1.barrier) =
      (items.map Prod.fst).all fun message => !message.barrier := by
    rw [List.all_map]
    rfl
  rw [mapped, same, waiting, List.all_map, List.all_filter]
  congr 1
  funext other
  cases other.isPending <;> simp [Record.sent]

private theorem waiting_cons_pending {record : Record S O} (pending : record.isPending = true) :
    waiting (record :: records) = record.sent :: waiting records := by
  rw [waiting, List.filter_cons_of_pos pending, List.map_cons, waiting]

private theorem waiting_cons_other {record : Record S O} (other : record.isPending = false) :
    waiting (record :: records) = waiting records := by
  rw [waiting, List.filter_cons_of_neg (by simp [other]), waiting]

private theorem strip_some {rest : List (CoreToAgent S O × ℕ)} {old : CoreToAgent S O × ℕ}
    (found : strip message items = some (rest, old)) :
    old.1.sameProjection message = true ∧ items.Perm (old :: rest) := by
  induction items generalizing rest with
  | nil => cases found
  | cons item items ih =>
    rw [strip] at found
    split at found
    · next later old' there =>
      cases found
      obtain ⟨same, perm⟩ := ih there
      exact ⟨same, (perm.cons item).trans (.swap ..)⟩
    · split at found
      · next both =>
        cases found
        exact ⟨both.1, .refl _⟩
      · cases found

/-- The push of a message displaces the one pending record that the queue drops for it, if any. -/
theorem strip_waiting (message : CoreToAgent S O) (separated : Separated records) (same : items.map Prod.fst = waiting records)
    (index : ℕ) :
    match strip message items with
    | none => supersede message index records = records ∧ displacedChanged message records = false
    | some (rest, old) => rest.map Prod.fst = waiting (supersede message index records) ∧
      old.1.inherit message =
        message.withChanged (message.changed || displacedChanged message records) := by
  induction records generalizing items with
  | nil =>
    obtain rfl : items = [] := List.map_eq_nil_iff.mp same
    exact ⟨rfl, rfl⟩
  | cons record later ih =>
    rw [supersede, displacedChanged]
    cases pending : record.isPending with
    | false =>
      have kept : displaces message record later = false := by
        rw [displaces, pending, Bool.false_and, Bool.false_and]
      rw [waiting_cons_other pending] at same
      have held := ih separated.2 same
      rw [kept, if_neg Bool.false_ne_true, Bool.false_and, Bool.false_or, waiting_cons_other pending]
      cases found : strip message items with
      | none =>
        rw [found] at held
        exact ⟨congrArg _ held.1, held.2⟩
      | some result =>
        rw [found] at held
        exact held
    | true =>
      rw [waiting_cons_pending pending] at same
      obtain ⟨item, rest, rfl, first, shorter⟩ := List.map_eq_cons_iff.mp same
      have held := ih separated.2 shorter
      have sentSame : item.1.sameProjection message = record.message.sameProjection message := by
        rw [first, Record.sent, CoreToAgent.sameProjection_withChanged]
      rw [strip]
      cases found : strip message rest with
      | some result =>
        obtain ⟨others, old⟩ := result
        rw [found] at held
        -- The record behind would be separated from this one by a barrier.
        have kept : displaces message record later = false := by
          rw [← Bool.not_eq_true]
          intro displaced
          simp only [displaces, Bool.and_eq_true, List.all_eq_true] at displaced
          obtain ⟨near, perm⟩ := strip_some found
          have inside : old.1 ∈ waiting later := by
            rw [← shorter]
            exact List.mem_map_of_mem (perm.mem_iff.mpr List.mem_cons_self)
          obtain ⟨other, listed, sent⟩ := List.mem_map.mp inside
          obtain ⟨listed, waits⟩ := List.mem_filter.mp listed
          rw [← sent, Record.sent, CoreToAgent.sameProjection_withChanged] at near
          obtain ⟨wall, behind, wallPending, wallBarrier⟩ := separated.1 pending
            ⟨other, listed, waits, CoreToAgent.sameProjection_trans displaced.1.2 near⟩
          have open' := displaced.2 wall behind
          rw [wallPending, wallBarrier] at open'
          cases open'
        rw [kept, if_neg Bool.false_ne_true, Bool.false_and, Bool.false_or,
          waiting_cons_pending pending]
        exact ⟨by rw [List.map_cons, first, held.1], held.2⟩
      | none =>
        rw [found] at held
        have decides : displaces message record later =
            decide (item.1.sameProjection message ∧ rest.all fun item => !item.1.barrier) := by
          rw [displaces, pending, Bool.true_and, ← sentSame, ← all_barrier_iff shorter,
            Bool.decide_and, Bool.decide_coe, Bool.decide_coe]
        rw [decides, held.1, held.2, Bool.or_false]
        dsimp only
        by_cases both : item.1.sameProjection message ∧ rest.all fun item => !item.1.barrier
        · rw [if_pos both, decide_eq_true both, if_pos rfl, Bool.true_and,
            waiting_cons_other (by rfl)]
          refine ⟨shorter, ?_⟩
          rw [first, Record.sent]
          exact CoreToAgent.inherit_withChanged (sentSame ▸ both.1)
        · rw [if_neg both, decide_eq_false both, if_neg Bool.false_ne_true, Bool.false_and]
          exact ⟨rfl, rfl⟩

end Replacing

section Histories

variable {records front back : List (Record S O)} {message : CoreToAgent S O} {index : ℕ}

private theorem supersede_messages (message : CoreToAgent S O) (index : ℕ) (records : List (Record S O)) :
    (supersede message index records).map Record.message = records.map Record.message := by
  induction records with
  | nil => rfl
  | cons record later ih =>
    rw [supersede, List.map_cons, List.map_cons, ih]
    split <;> rfl

private theorem deliver_messages (room : ℕ) (records : List (Record S O)) :
    (deliver room records).map Record.message = records.map Record.message := by
  induction records generalizing room with
  | nil => cases room <;> rfl
  | cons record later ih =>
    cases room with
    | zero => rfl
    | succ room =>
      rw [deliver]
      split
      · rw [List.map_cons, List.map_cons, ih]
      · rw [List.map_cons, List.map_cons, ih]

private theorem displaces_isPending {record : Record S O} (displaced : displaces message record back = true) :
    record.isPending = true := by
  simp only [displaces, Bool.and_eq_true] at displaced
  exact displaced.1.1

/-- What was delivered stays delivered. -/
theorem supersede_delivered (message : CoreToAgent S O) (index : ℕ) (records : List (Record S O)) :
    (supersede message index records).filter Record.isDelivered =
      records.filter Record.isDelivered := by
  induction records with
  | nil => rfl
  | cons record later ih =>
    rw [supersede]
    split
    · next displaced =>
      have waits : record.fate = .pending := beq_iff_eq.mp (displaces_isPending displaced)
      rw [List.filter_cons_of_neg (by rw [Record.isDelivered]; exact Bool.false_ne_true), ih,
        List.filter_cons_of_neg (by rw [Record.isDelivered, waits]; exact Bool.false_ne_true)]
    · rw [List.filter_cons, List.filter_cons, ih]

private theorem supersede_append (unaffected : ∀ record ∈ front, record.isPending = false) :
    supersede message index (front ++ back) = front ++ supersede message index back := by
  induction front with
  | nil => rfl
  | cons record front ih =>
    have own := unaffected record List.mem_cons_self
    rw [List.cons_append, supersede, ih fun other listed => unaffected other (.tail _ listed), if_neg]
    · rfl
    · intro displaced
      rw [displaces_isPending displaced] at own
      cases own

private theorem deliver_append (unaffected : ∀ record ∈ front, record.isPending = false) (room : ℕ) :
    deliver room (front ++ back) = front ++ deliver room back := by
  induction front with
  | nil => rfl
  | cons record front ih =>
    have own := unaffected record List.mem_cons_self
    cases room with
    | zero => cases back <;> simp [deliver]
    | succ room =>
      rw [List.cons_append, deliver, ih fun other listed => unaffected other (.tail _ listed),
        if_neg (by simp [own])]
      rfl

/-- Pending records come after delivered ones. -/
def Ordered (records : List (Record S O)) : Prop :=
  ∃ front back, records = front ++ back ∧ (∀ record ∈ front, record.isPending = false) ∧
    ∀ record ∈ back, record.isDelivered = false

theorem Ordered.survivors (ordered : Ordered records) :
    records.filter (fun record => record.isDelivered || record.isPending) =
      records.filter Record.isDelivered ++ records.filter Record.isPending := by
  obtain ⟨front, back, rfl, settled, waits⟩ := ordered
  rw [List.filter_append, List.filter_append, List.filter_append]
  have first : front.filter (fun record => record.isDelivered || record.isPending) =
      front.filter Record.isDelivered :=
    List.filter_congr fun record listed => by rw [settled record listed, Bool.or_false]
  have second : back.filter (fun record => record.isDelivered || record.isPending) =
      back.filter Record.isPending :=
    List.filter_congr fun record listed => by rw [waits record listed, Bool.false_or]
  have none₁ : front.filter Record.isPending = [] :=
    List.filter_eq_nil_iff.mpr fun record listed => by simp [settled record listed]
  have none₂ : back.filter Record.isDelivered = [] :=
    List.filter_eq_nil_iff.mpr fun record listed => by simp [waits record listed]
  rw [first, second, none₁, none₂, List.append_nil, List.nil_append]

private theorem mem_of_mem_supersede {record : Record S O} (listed : record ∈ supersede message index records)
    (waits : record.isPending = true) : record ∈ records := by
  induction records with
  | nil => cases listed
  | cons first later ih =>
    rw [supersede] at listed
    rcases List.mem_cons.mp listed with rfl | listed
    · split at waits
      · cases waits
      · next kept =>
        rw [if_neg kept]
        exact List.mem_cons_self
    · exact List.mem_cons_of_mem _ (ih listed)

private theorem barrier_mem_supersede {wall : Record S O} (listed : wall ∈ records)
    (barrier : wall.message.barrier = true) : wall ∈ supersede message index records := by
  induction records with
  | nil => cases listed
  | cons first later ih =>
    rw [supersede]
    rcases List.mem_cons.mp listed with rfl | listed
    · rw [if_neg]
      · exact List.mem_cons_self
      · intro displaced
        simp only [displaces, Bool.and_eq_true] at displaced
        rw [CoreToAgent.barrier_of_sameProjection displaced.1.2] at barrier
        cases barrier
    · exact List.mem_cons_of_mem _ (ih listed)

theorem Separated.supersede (separated : Separated records) (message : CoreToAgent S O) (index : ℕ)
    (changed : Bool) :
    Separated (supersede message index records ++ [⟨message, changed, .pending⟩]) := by
  induction records with
  | nil => exact ⟨fun _ ⟨_, listed, _⟩ => absurd listed List.not_mem_nil, trivial⟩
  | cons record later ih =>
    rw [Runtime.supersede, List.cons_append]
    refine ⟨?_, ih separated.2⟩
    split
    · intro waits
      cases waits
    · next kept =>
      rintro waits ⟨other, listed, otherWaits, same⟩
      have wall : ∃ wall ∈ later, wall.isPending = true ∧ wall.message.barrier = true := by
        rcases List.mem_append.mp listed with old | new
        · exact separated.1 waits ⟨other, mem_of_mem_supersede old otherWaits, otherWaits, same⟩
        · obtain rfl := List.mem_singleton.mp new
          simp only [displaces, waits, same, Bool.true_and, List.all_eq_true, not_forall] at kept
          obtain ⟨wall, behind, blocks⟩ := kept
          simp only [Bool.not_eq_true', Bool.and_eq_true, Bool.not_eq_false] at blocks
          exact ⟨wall, behind, blocks⟩
      obtain ⟨wall, behind, wallWaits, barrier⟩ := wall
      exact ⟨wall, List.mem_append_left _ (barrier_mem_supersede behind barrier), wallWaits, barrier⟩

theorem Separated.deliver (separated : Separated records) (room : ℕ) :
    Separated (deliver room records) := by
  induction records generalizing room with
  | nil => cases room <;> exact separated
  | cons record later ih =>
    cases room with
    | zero => exact separated
    | succ room =>
      rw [Runtime.deliver]
      split
      · exact ⟨nofun, ih separated.2 room⟩
      · next other => exact ⟨fun pending => absurd pending other, ih separated.2 _⟩

end Histories

section Bounds

variable {sizes : Sizes S O} {outbox : Outbox S O} {message : CoreToAgent S O}

/-- The counters of an outbox and its limits. -/
structure Bounded (sizes : Sizes S O) (outbox : Outbox S O) : Prop where
  sized : ∀ item ∈ outbox.pending, item.2 = item.1.size sizes
  bytes : outbox.bytes = (outbox.pending.map Prod.snd).sum
  maxBytes : outbox.bytes ≤ Runtime.maxBytes
  maxMessages : outbox.pending.length ≤ Runtime.maxMessages

theorem Bounded.replace (bounded : Bounded sizes outbox) (message : CoreToAgent S O) :
    Bounded sizes (outbox.replace message).1 ∧
      (outbox.replace message).1.failure = outbox.failure := by
  rw [replace_eq]
  split
  · exact ⟨bounded, rfl⟩
  · next rest old size found =>
    obtain ⟨_, perm⟩ := strip_some found
    have sum := (perm.map Prod.snd).sum_eq
    rw [List.map_cons, List.sum_cons, ← bounded.bytes] at sum
    have length := perm.length_eq
    rw [List.length_cons] at length
    refine ⟨⟨?_, ?_, ?_, ?_⟩, rfl⟩
    · intro item listed
      exact bounded.sized item (perm.mem_iff.mpr (List.mem_cons_of_mem _ listed))
    · dsimp only at sum ⊢
      omega
    · exact Nat.le_trans (Nat.sub_le _ _) bounded.maxBytes
    · have := bounded.maxMessages
      dsimp only
      omega

theorem Bounded.push (bounded : Bounded sizes outbox) (message : CoreToAgent S O) :
    Bounded sizes (outbox.push sizes message) := by
  unfold Outbox.push
  split
  · exact bounded
  obtain ⟨smaller, _⟩ := bounded.replace message
  generalize outbox.replace message = replaced at smaller
  obtain ⟨outbox, message⟩ := replaced
  dsimp only
  split
  · exact ⟨smaller.sized, smaller.bytes, smaller.maxBytes, smaller.maxMessages⟩
  · next fits =>
    obtain ⟨short, small⟩ := not_or.mp fits
    rw [Nat.not_le] at short
    rw [Nat.not_lt] at small
    have := smaller.maxBytes
    refine ⟨?_, ?_, ?_, ?_⟩
    · intro item listed
      rcases List.mem_append.mp listed with old | new
      · exact smaller.sized item old
      · obtain rfl := List.mem_singleton.mp new
        rfl
    · rw [List.map_append, List.sum_append, ← smaller.bytes]
      rfl
    · dsimp only at this ⊢
      omega
    · rw [List.length_append]
      exact short

theorem Bounded.send {failure : Option String} {connected : Bool} {room : ℕ}
    {pending : List (CoreToAgent S O × ℕ)} {bytes : ℕ}
    (bounded : Bounded sizes ⟨pending, bytes, failure⟩) :
    Bounded sizes (Outbox.send failure connected room pending bytes).1 := by
  induction pending generalizing room bytes with
  | nil =>
    cases room <;> exact bounded
  | cons item rest ih =>
    obtain ⟨message, size⟩ := item
    have dropped (failure : Option String) : Bounded sizes ⟨rest, bytes - size, failure⟩ := by
      have sum := bounded.bytes
      rw [List.map_cons, List.sum_cons] at sum
      refine ⟨fun item listed => bounded.sized item (List.mem_cons_of_mem _ listed), ?_, ?_, ?_⟩
      · dsimp only at sum ⊢
        omega
      · exact Nat.le_trans (Nat.sub_le _ _) bounded.maxBytes
      · exact Nat.le_trans (Nat.le_succ _) bounded.maxMessages
    cases room with
    | zero =>
      rw [Outbox.send]
      split
      · exact bounded
      · exact dropped _
    | succ room => exact ih (dropped failure)

theorem Bounded.step {trace : Trace S O} (bounded : Bounded sizes trace.outbox) (op : Op S O) :
    Bounded sizes (trace.step sizes op).outbox := by
  cases op with
  | push message => exact bounded.push message
  | flush receiver => exact Bounded.send bounded

private theorem bounded_run (sizes : Sizes S O) (ops : List (Op S O)) : Bounded sizes (run sizes ops).outbox := by
  refine List.foldlRecOn ops _ (motive := fun trace : Trace S O => Bounded sizes trace.outbox) ?_
    fun trace bounded op _ => bounded.step op
  exact ⟨nofun, rfl, Nat.zero_le _, Nat.zero_le _⟩

end Bounds

section Telling

variable {records : List (Record S O)}

/-- What became of every pushed message: the indexes of superseding messages, and the flags. -/
structure Told (records : List (Record S O)) : Prop where
  superseded : ∀ (index : ℕ) (record : Record S O), records[index]? = some record → ∀ later,
    record.fate = .superseded later → index < later ∧ ∃ successor, records[later]? = some successor ∧
      record.message.sameProjection successor.message = true
  changed : ∀ (index : ℕ) (record : Record S O), records[index]? = some record →
    record.changed = (record.message.changed ||
      records.any fun other => other.fate == .superseded index && other.changed)

/-- What a delivery leaves of a record. -/
def Record.view (record : Record S O) : CoreToAgent S O × Bool × Option ℕ :=
  (record.message, record.changed, match record.fate with
    | .superseded later => some later
    | _ => none)

private theorem view_later {record : Record S O} {later : ℕ} :
    record.view.2.2 = some later ↔ record.fate = .superseded later := by
  unfold Record.view
  cases record.fate <;> simp

private theorem deliver_view (room : ℕ) (records : List (Record S O)) :
    (deliver room records).map Record.view = records.map Record.view := by
  induction records generalizing room with
  | nil => cases room <;> rfl
  | cons record later ih =>
    cases room with
    | zero => rfl
    | succ room =>
      rw [deliver]
      split
      · next waits =>
        have fate : record.fate = .pending := beq_iff_eq.mp waits
        rw [List.map_cons, List.map_cons, ih]
        simp [Record.view, fate]
      · rw [List.map_cons, List.map_cons, ih]

private theorem any_superseded (records : List (Record S O)) (index : ℕ) :
    (records.any fun other => other.fate == .superseded index && other.changed) =
      (records.map Record.view).any fun view => view.2.2 == some index && view.2.1 := by
  rw [List.any_map]
  congr 1
  funext other
  have same : (other.fate == .superseded index) = (other.view.2.2 == some index) := by
    rw [Bool.eq_iff_iff, beq_iff_eq, beq_iff_eq, view_later]
  rw [same]
  rfl

/-- What is told does not depend on deliveries. -/
theorem Told.view (told : Told records) {records' : List (Record S O)}
    (same : records'.map Record.view = records.map Record.view) : Told records' := by
  have old {index : ℕ} {record : Record S O} (read : records'[index]? = some record) :
      ∃ before, records[index]? = some before ∧ before.view = record.view := by
    have mapped := congrArg (·[index]?) same
    simp only [List.getElem?_map, read, Option.map_some] at mapped
    exact Option.map_eq_some_iff.mp mapped.symm
  constructor
  · intro index record read later fate
    obtain ⟨before, known, equal⟩ := old read
    have was := view_later.mp (equal ▸ view_later.mpr fate)
    obtain ⟨low, successor, behind, projection⟩ := told.superseded index before known later was
    have mapped := congrArg (·[later]?) same
    simp only [List.getElem?_map, behind, Option.map_some] at mapped
    obtain ⟨after, there, view⟩ := Option.map_eq_some_iff.mp mapped
    have first : before.message = record.message := congrArg (·.1) equal
    have second : after.message = successor.message := congrArg (·.1) view
    exact ⟨low, after, there, by rwa [← first, second]⟩
  · intro index record read
    obtain ⟨before, known, equal⟩ := old read
    have message : before.message = record.message := congrArg (·.1) equal
    have changed : before.changed = record.changed := congrArg (·.2.1) equal
    rw [any_superseded, same, ← any_superseded, ← message, ← changed]
    exact told.changed index before known

private theorem supersede_getElem? (message : CoreToAgent S O) (index position : ℕ)
    (records : List (Record S O)) : (supersede message index records)[position]? =
      (records[position]?).map fun record =>
        if displaces message record (records.drop (position + 1)) then
          { record with fate := .superseded index } else record := by
  induction records generalizing position with
  | nil => rfl
  | cons record later ih =>
    rw [supersede]
    cases position with
    | zero => rfl
    | succ position => exact ih position

private theorem length_supersede (message : CoreToAgent S O) (index : ℕ) (records : List (Record S O)) :
    (supersede message index records).length = records.length := by
  have messages := congrArg List.length (supersede_messages message index records)
  rwa [List.length_map, List.length_map] at messages

/-- A push supersedes under its own index only. -/
theorem supersede_any (message : CoreToAgent S O) (index position : ℕ) (records : List (Record S O))
    (unused : ∀ record ∈ records, record.fate ≠ .superseded index) :
    ((supersede message index records).any fun other =>
      other.fate == .superseded position && other.changed) =
        if position = index then displacedChanged message records
        else records.any fun other => other.fate == .superseded position && other.changed := by
  induction records with
  | nil => split <;> rfl
  | cons record later ih =>
    have behind := ih fun other listed => unused other (List.mem_cons_of_mem _ listed)
    rw [supersede, List.any_cons, behind]
    have own := unused record List.mem_cons_self
    by_cases same : position = index
    · subst same
      rw [if_pos rfl, if_pos rfl, displacedChanged]
      split
      · next displaced => rw [displaced, beq_self_eq_true]
      · next kept =>
        rw [Bool.not_eq_true] at kept
        rw [kept, beq_eq_false_iff_ne.mpr own]
    · rw [if_neg same, if_neg same, List.any_cons]
      split
      · next displaced =>
        have waits : record.fate = .pending := beq_iff_eq.mp (displaces_isPending displaced)
        have other : Fate.superseded index ≠ Fate.superseded position := fun equal =>
          same (Fate.superseded.inj equal).symm
        rw [beq_eq_false_iff_ne.mpr other, waits]
        rfl
      · rfl

theorem Told.push (told : Told records) (message : CoreToAgent S O) :
    Told (recordOp records (.push message)) := by
  have unused : ∀ record ∈ records, record.fate ≠ .superseded records.length := by
    intro record listed fate
    obtain ⟨index, read⟩ := List.mem_iff_getElem?.mp listed
    obtain ⟨_, successor, there, _⟩ := told.superseded index record read _ fate
    rw [List.getElem?_eq_none (Nat.le_refl _)] at there
    cases there
  have length := length_supersede message records.length records
  have old {index : ℕ} (low : index < records.length) :
      (recordOp records (.push message))[index]? = (records[index]?).map fun record =>
        if displaces message record (records.drop (index + 1)) then
          { record with fate := .superseded records.length } else record := by
    rw [recordOp, List.getElem?_append_left (by omega), supersede_getElem?]
  have last : (recordOp records (.push message))[records.length]? =
      some ⟨message, message.changed || displacedChanged message records, .pending⟩ := by
    rw [recordOp, List.getElem?_append_right (by omega), length, Nat.sub_self]
    rfl
  have total : (recordOp records (.push message)).length = records.length + 1 := by
    rw [recordOp, List.length_append, length]
    rfl
  have anyway (position : ℕ) : ((recordOp records (.push message)).any fun other =>
      other.fate == .superseded position && other.changed) =
        if position = records.length then displacedChanged message records
        else records.any fun other => other.fate == .superseded position && other.changed := by
    rw [recordOp, List.any_append, supersede_any message _ _ _ unused]
    exact Bool.or_false _
  constructor
  · intro index record read later fate
    have low : index < records.length + 1 := total ▸ (List.getElem?_eq_some_iff.mp read).1
    rcases Nat.lt_succ_iff_lt_or_eq.mp low with low | rfl
    · rw [old low] at read
      obtain ⟨before, known, rfl⟩ := Option.map_eq_some_iff.mp read
      split at fate
      · next displaced =>
        cases fate
        simp only [displaces, Bool.and_eq_true] at displaced
        refine ⟨low, _, last, ?_⟩
        simpa only [apply_ite Record.message, ite_self] using displaced.1.2
      · obtain ⟨after, successor, there, same⟩ := told.superseded index before known later fate
        have inside := (List.getElem?_eq_some_iff.mp there).1
        refine ⟨after, _, (old inside).trans (congrArg _ there), ?_⟩
        simpa only [apply_ite Record.message, ite_self] using same
    · rw [last] at read
      cases read
      cases fate
  · intro index record read
    have low : index < records.length + 1 := total ▸ (List.getElem?_eq_some_iff.mp read).1
    rw [anyway]
    rcases Nat.lt_succ_iff_lt_or_eq.mp low with low | rfl
    · rw [if_neg (Nat.ne_of_lt low)]
      rw [old low] at read
      obtain ⟨before, known, rfl⟩ := Option.map_eq_some_iff.mp read
      have was := told.changed index before known
      split <;> exact was
    · rw [last] at read
      cases read
      rw [if_pos rfl]

private theorem told_history (ops : List (Op S O)) : Told (history ops) := by
  refine List.foldlRecOn ops _ (motive := Told) ⟨nofun, nofun⟩ fun records told op _ => ?_
  cases op with
  | push message => exact told.push message
  | flush receiver => exact told.view (deliver_view receiver.room records)

end Telling

section Refinement

variable {sizes : Sizes S O} {trace : Trace S O} {records : List (Record S O)}

/-- The outbox and its history agree. -/
structure Refines (trace : Trace S O) (records : List (Record S O)) : Prop where
  delivered : trace.delivered = (records.filter Record.isDelivered).map Record.sent
  pending : trace.outbox.pending.map Prod.fst = waiting records
  ordered : Ordered records
  separated : Separated records

theorem Refines.push (refines : Refines trace records) (message : CoreToAgent S O)
    (healthy : (trace.outbox.push sizes message).failure = none) :
    Refines (trace.step sizes (.push message)) (recordOp records (.push message)) := by
  have running : trace.outbox.failure.isSome = false := by
    rw [← Bool.not_eq_true]
    intro failed
    rw [Outbox.push, if_pos failed] at healthy
    rw [healthy] at failed
    cases failed
  have stripped := strip_waiting message refines.separated refines.pending records.length
  obtain ⟨front, back, split, settled, waits⟩ := refines.ordered
  have accepted : (trace.outbox.push sizes message).pending.map Prod.fst =
      (trace.outbox.replace message).1.pending.map Prod.fst ++ [(trace.outbox.replace message).2] := by
    unfold Outbox.push at healthy ⊢
    rw [running, if_neg Bool.false_ne_true] at healthy ⊢
    dsimp only at healthy ⊢
    split at healthy
    · cases healthy
    · next fits =>
      rw [if_neg fits, List.map_append]
      rfl
  have pending : (trace.outbox.replace message).1.pending.map Prod.fst =
        waiting (supersede message records.length records) ∧
      (trace.outbox.replace message).2 =
        message.withChanged (message.changed || displacedChanged message records) := by
    rw [replace_eq]
    split
    · next found =>
      rw [found] at stripped
      rw [stripped.1, stripped.2, Bool.or_false, CoreToAgent.withChanged_changed]
      exact ⟨refines.pending, rfl⟩
    · next found =>
      rw [found] at stripped
      exact stripped
  refine ⟨?_, ?_, ?_, refines.separated.supersede ..⟩
  · rw [recordOp, List.filter_append, supersede_delivered, List.filter_cons_of_neg, List.filter_nil,
      List.append_nil]
    · exact refines.delivered
    · exact Bool.false_ne_true
  · show (trace.outbox.push sizes message).pending.map Prod.fst = _
    rw [accepted, pending.1, pending.2, recordOp, waiting, waiting, List.filter_append, List.map_append]
    rfl
  · refine ⟨front, supersede message records.length back ++
      [⟨message, message.changed || displacedChanged message records, .pending⟩], ?_, settled, ?_⟩
    · rw [recordOp, split, supersede_append settled, List.append_assoc]
    · intro other listed
      rcases List.mem_append.mp listed with old | new
      · rw [← Bool.not_eq_true]
        intro delivered
        have kept := List.mem_filter.mpr ⟨old, delivered⟩
        rw [supersede_delivered] at kept
        obtain ⟨listed, delivered⟩ := List.mem_filter.mp kept
        rw [waits other listed] at delivered
        cases delivered
      · obtain rfl := List.mem_singleton.mp new
        rfl

/-- Sending from the front delivers the first pending records. -/
theorem send_waiting {connected : Bool} {room : ℕ} {items : List (CoreToAgent S O × ℕ)} {bytes : ℕ}
    {back : List (Record S O)} (same : items.map Prod.fst = waiting back)
    (waits : ∀ record ∈ back, record.isDelivered = false)
    (healthy : (Outbox.send none connected room items bytes).1.failure = none) :
    (Outbox.send none connected room items bytes).1.pending.map Prod.fst = waiting (deliver room back) ∧
      (Outbox.send none connected room items bytes).2 =
        ((deliver room back).filter Record.isDelivered).map Record.sent ∧
      Ordered (deliver room back) := by
  induction back generalizing items room bytes with
  | nil =>
    obtain rfl : items = [] := List.map_eq_nil_iff.mp same
    have nothing : deliver room ([] : List (Record S O)) = [] := by cases room <;> rfl
    rw [nothing]
    exact ⟨by cases room <;> rfl, by cases room <;> rfl, [], [], rfl, nofun, nofun⟩
  | cons record later ih =>
    have fresh := waits record List.mem_cons_self
    have behind : ∀ other ∈ later, other.isDelivered = false := fun other listed =>
      waits other (List.mem_cons_of_mem _ listed)
    cases pending : record.isPending with
    | false =>
      rw [waiting_cons_other pending] at same
      obtain ⟨held, sent, front, back, split, settled, open'⟩ := ih same behind healthy
      have passed : deliver room (record :: later) = record :: deliver room later :=
        have alone : ∀ other ∈ [record], other.isPending = false := fun other listed =>
          List.mem_singleton.mp listed ▸ pending
        deliver_append alone room
      rw [passed, waiting_cons_other pending, List.filter_cons_of_neg (by simp [fresh])]
      refine ⟨held, sent, record :: front, back, by rw [split, List.cons_append], ?_, open'⟩
      intro other listed
      rcases List.mem_cons.mp listed with rfl | listed
      · exact pending
      · exact settled other listed
    | true =>
      rw [waiting_cons_pending pending] at same
      obtain ⟨⟨message, size⟩, rest, rfl, rfl, shorter⟩ := List.map_eq_cons_iff.mp same
      cases room with
      | zero =>
        cases connected with
        | false => cases healthy
        | true =>
          have whole : deliver 0 (record :: later) = record :: later := rfl
          refine ⟨same.trans (waiting_cons_pending pending).symm, ?_, [], _, rfl, nofun, waits⟩
          rw [whole, List.filter_eq_nil_iff.mpr fun other listed => by simp [waits other listed]]
          rfl
      | succ room =>
        obtain ⟨held, sent, front, back, split, settled, open'⟩ := ih shorter behind healthy
        rw [deliver, if_pos pending]
        refine ⟨?_, ?_, { record with fate := .delivered } :: front, back, ?_, ?_, open'⟩
        · rw [waiting_cons_other (by rfl)]
          exact held
        · rw [List.filter_cons_of_pos (by rfl), List.map_cons, ← sent]
          rfl
        · rw [split, List.cons_append]
        · intro other listed
          rcases List.mem_cons.mp listed with rfl | listed
          · rfl
          · exact settled other listed

theorem Refines.flush (refines : Refines trace records) (receiver : Receiver)
    (running : trace.outbox.failure = none)
    (healthy : (trace.outbox.flush receiver).1.failure = none) :
    Refines (trace.step sizes (.flush receiver)) (recordOp records (.flush receiver)) := by
  obtain ⟨front, back, rfl, settled, waits⟩ := refines.ordered
  have nothing : waiting front = [] := by
    rw [waiting, List.filter_eq_nil_iff.mpr fun record listed => by simp [settled record listed],
      List.map_nil]
  have behind : trace.outbox.pending.map Prod.fst = waiting back := by
    rw [refines.pending, waiting, List.filter_append, List.map_append]
    show waiting front ++ waiting back = _
    rw [nothing, List.nil_append]
  have undelivered : back.filter Record.isDelivered = [] :=
    List.filter_eq_nil_iff.mpr fun record listed => by simp [waits record listed]
  rw [Outbox.flush, running] at healthy
  obtain ⟨pending, sent, first, rest, split, delivered, fresh⟩ := send_waiting behind waits healthy
  have result : trace.step sizes (.flush receiver) =
      { outbox := (Outbox.send none receiver.connected receiver.room trace.outbox.pending
          trace.outbox.bytes).1
        delivered := trace.delivered ++ (Outbox.send none receiver.connected receiver.room
          trace.outbox.pending trace.outbox.bytes).2 } := by
    rw [← running]
    rfl
  rw [result, recordOp]
  refine ⟨?_, ?_, ?_, refines.separated.deliver _⟩
  · rw [deliver_append settled, List.filter_append, List.map_append, ← sent, refines.delivered,
      List.filter_append, undelivered, List.append_nil]
  · rw [deliver_append settled, waiting, List.filter_append, List.map_append]
    show _ = waiting front ++ waiting (deliver receiver.room back)
    rw [nothing, List.nil_append]
    exact pending
  · refine ⟨front ++ first, rest, ?_, ?_, fresh⟩
    · rw [deliver_append settled, split, List.append_assoc]
    · intro record listed
      rcases List.mem_append.mp listed with old | new
      · exact settled record old
      · exact delivered record new

private theorem history_messages (ops : List (Op S O)) : (history ops).map Record.message = pushes ops := by
  induction ops using List.reverseRecOn with
  | nil => rfl
  | append_singleton ops op ih =>
    rw [history, List.foldl_concat, ← history, pushes, List.filterMap_append, ← pushes, ← ih]
    cases op with
    | push message =>
      rw [recordOp, List.map_append, supersede_messages]
      rfl
    | flush receiver =>
      rw [recordOp, deliver_messages]
      exact (List.append_nil _).symm

/-- Once an outbox failed, it stays so. -/
theorem step_failed (failed : trace.outbox.failure.isSome) (op : Op S O) :
    (trace.step sizes op).outbox.failure.isSome := by
  cases op with
  | push message =>
    show (trace.outbox.push sizes message).failure.isSome
    rw [Outbox.push, if_pos failed]
    exact failed
  | flush receiver =>
    have kept (room : ℕ) (items : List (CoreToAgent S O × ℕ)) (bytes : ℕ) :
        (Outbox.send trace.outbox.failure receiver.connected room items bytes).1.failure.isSome := by
      induction items generalizing room bytes with
      | nil => cases room <;> exact failed
      | cons item rest ih =>
        cases room with
        | zero =>
          rw [Outbox.send]
          split
          · exact failed
          · rfl
        | succ room => exact ih room _
    exact kept ..

private theorem refines_run (ops : List (Op S O)) (healthy : (run sizes ops).outbox.failure = none) :
    Refines (run sizes ops) (history ops) := by
  induction ops using List.reverseRecOn with
  | nil => exact ⟨rfl, rfl, ⟨[], [], rfl, nofun, nofun⟩, trivial⟩
  | append_singleton ops op ih =>
    rw [run, List.foldl_concat, ← run] at healthy ⊢
    rw [history, List.foldl_concat, ← history]
    have running : (run sizes ops).outbox.failure = none := by
      rw [← Option.not_isSome_iff_eq_none]
      intro failed
      have still : ((run sizes ops).step sizes op).outbox.failure.isSome := step_failed failed op
      rw [healthy] at still
      cases still
    cases op with
    | push message => exact (ih running).push message healthy
    | flush receiver => exact (ih running).flush receiver running healthy

/-- What an outbox promises as long as it did not fail: no message is lost or moved but for those that
a later message of their projection superseded. -/
structure Faithful (trace : Trace S O) (records : List (Record S O))
    (pushed : List (CoreToAgent S O)) : Prop where
  pushed : records.map Record.message = pushed
  order : trace.delivered ++ trace.outbox.pending.map Prod.fst =
    (records.filter fun record => record.isDelivered || record.isPending).map Record.sent
  delivered : trace.delivered = (records.filter Record.isDelivered).map Record.sent
  told : Told records
  kept : ∀ record ∈ records, (record.message.barrier = true ∨
    ∃ name line, record.message = .eventAppend name line) →
      (record.isDelivered || record.isPending) = true
  last : ∀ (index : ℕ) (record : Record S O), records[index]? = some record →
    (∀ (later : ℕ) (successor : Record S O), index < later → records[later]? = some successor →
      record.message.sameProjection successor.message = false) →
        (record.isDelivered || record.isPending) = true

/-- The contract of the outbox, for every sequence of pushes and flushes. -/
theorem outbox_contract (sizes : Sizes S O) (ops : List (Op S O)) :
    Bounded sizes (run sizes ops).outbox ∧
      ((run sizes ops).outbox.failure = none →
        Faithful (run sizes ops) (history ops) (pushes ops)) ∧
      ((run sizes ops).outbox.failure.isSome →
        ∀ message, (run sizes ops).outbox.push sizes message = (run sizes ops).outbox) := by
  refine ⟨bounded_run sizes ops, fun healthy => ?_, fun failed message => if_pos failed⟩
  have refines := refines_run ops healthy
  have told := told_history ops
  have survives {index : ℕ} {record : Record S O} (read : (history ops)[index]? = some record)
      (alone : ∀ (later : ℕ) (successor : Record S O), index < later →
        (history ops)[later]? = some successor →
          record.message.sameProjection successor.message = false) :
      (record.isDelivered || record.isPending) = true := by
    cases fate : record.fate with
    | pending => rw [Record.isPending, fate, beq_self_eq_true, Bool.or_true]
    | delivered => rw [Record.isDelivered, fate, beq_self_eq_true, Bool.true_or]
    | superseded later =>
      obtain ⟨after, successor, there, same⟩ := told.superseded index record read later fate
      rw [alone later successor after there] at same
      cases same
  refine ⟨history_messages ops, ?_, refines.delivered, told, ?_, fun index record => survives⟩
  · rw [refines.ordered.survivors, List.map_append, ← refines.delivered, refines.pending, waiting]
  · intro record listed ordered
    obtain ⟨index, read⟩ := List.mem_iff_getElem?.mp listed
    refine survives read fun later successor _ _ => ?_
    rcases ordered with barrier | ⟨name, line, event⟩
    · rw [← Bool.not_eq_true]
      intro same
      rw [CoreToAgent.barrier_of_sameProjection same] at barrier
      cases barrier
    · rw [event]
      cases successor.message <;> rfl

end Refinement

end Uniterm.Model.Runtime
