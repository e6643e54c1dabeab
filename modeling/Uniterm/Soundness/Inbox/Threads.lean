import Uniterm.Soundness.Inbox.Moves

/-! # Thread closure

Nothing in the removal paths looks at the children of a removed post. Closure rests on the order of
deadlines: a reply never outlives its parent, so a deadline that expires a parent has expired the
whole subtree, and the other removals take a project as a whole. The invariant therefore records
the deadlines beside the links, along every reply and towards every thread root.
-/

namespace Uniterm.Model.Inbox.Board

open Std

/-- The immutable post under a key. Receipts and leases never change it. -/
def messageAt (b : Board) (id : ℕ) : Option Message := b.entries[id]?.map (·.message)

theorem messageAt_eq_some_iff {b : Board} {id : ℕ} {m : Message} :
    b.messageAt id = some m ↔ ∃ e, b.entries[id]? = some e ∧ e.message = m :=
  Option.map_eq_some_iff

/-- A post is joined to another one of its project and thread that it does not outlive. -/
structure Joined (b : Board) (m : Message) (target : ℕ) (n : Message) : Prop where
  live : b.messageAt target = some n
  project : n.project = m.project
  thread : n.thread = m.thread
  deadline : m.expiresMs ≤ n.expiresMs

/-- Every live reply has its live parent, and every live post its live thread root. -/
structure Threaded (b : Board) : Prop where
  parent : ∀ id m, b.messageAt id = some m → ∀ target, m.replyTo = some target →
    ∃ n, b.Joined m target n
  root : ∀ id m, b.messageAt id = some m → ∃ n, b.Joined m m.thread n

private theorem threaded_empty : Threaded {} where
  parent := by simp [messageAt]
  root := by simp [messageAt]

/-- A removal keeps the threads when no surviving post loses a longer-lived one of its project. -/
private theorem Threaded.filter {b b' : Board} (threaded : b.Threaded) (keep : Message → Bool)
    (survivors : ∀ id, b'.messageAt id = (b.messageAt id).filter keep)
    (closed : ∀ m n : Message, keep m = true → n.project = m.project →
      m.expiresMs ≤ n.expiresMs → keep n = true) : b'.Threaded := by
  have joined : ∀ (m : Message) target, keep m = true → (∃ n, b.Joined m target n) →
      ∃ n, b'.Joined m target n := by
    rintro m target kept ⟨n, link⟩
    refine ⟨n, ?_, link.project, link.thread, link.deadline⟩
    rw [survivors, link.live, Option.filter_some, if_pos (closed m n kept link.project link.deadline)]
  constructor
  · intro id m found target reply
    obtain ⟨read, kept⟩ := Option.filter_eq_some_iff.mp (survivors id ▸ found)
    exact joined m target kept (threaded.parent id m read target reply)
  · intro id m found
    obtain ⟨read, kept⟩ := Option.filter_eq_some_iff.mp (survivors id ▸ found)
    exact joined m m.thread kept (threaded.root id m read)

/-- Threads depend on the posts alone. -/
private theorem Threaded.of_messageAt {b b' : Board} (threaded : b.Threaded)
    (same : ∀ id, b'.messageAt id = b.messageAt id) : b'.Threaded :=
  threaded.filter (fun _ => true) (fun id => by rw [same]; cases b.messageAt id <;> rfl)
    (fun _ _ _ _ _ => rfl)

/-- Only a post or a removal changes which messages are live. -/
theorem record_messageAt (b : Board) (event : Event) (id : ℕ) :
    (b.record event).messageAt id =
      match event with
      | .post message => if message.id = id then some message else b.messageAt id
      | .remove gone => if gone = id then none else b.messageAt id
      | _ => b.messageAt id := by
  simp only [messageAt, record_entries, entryAfter]
  cases event <;> dsimp only <;> split <;> simp [Option.map_map, Function.comp_def]

private theorem releaseAll_messageAt (b : Board) (ids : List ℕ) (id : ℕ) :
    (b.releaseAll ids).messageAt id = b.messageAt id := by
  have effect := b.releaseAll_entries ids id
  simp only [messageAt]
  rcases effect with ⟨_, same⟩ | ⟨_, ⟨before, after⟩ | ⟨e, e', before, after, same, _⟩⟩
  · rw [same]
  · rw [before, after]
  · rw [before, after, Option.map_some, Option.map_some, same]

/-- A new post joins its own thread, or its parent's with a deadline no later than the parent's. -/
private theorem Threaded.post {b : Board} (wf : b.WellFormed) (threaded : b.Threaded)
    (message : Message) (fresh : message.id = b.sequence + 1)
    (placed : b.placement message.project message.replyTo message.ttlMs message.createdMs =
      .ok (message.thread, message.expiresMs)) : (b.record (.post message)).Threaded := by
  have after : ∀ id, (b.record (.post message)).messageAt id =
      if message.id = id then some message else b.messageAt id := b.record_messageAt (.post message)
  have old : ∀ id m, b.messageAt id = some m → message.id ≠ id := by
    rintro id m found rfl
    obtain ⟨e, read, _⟩ := messageAt_eq_some_iff.mp found
    have := (wf.bounded _ e read).1
    omega
  have still : ∀ (m : Message) target, (∃ n, b.Joined m target n) →
      ∃ n, (b.record (.post message)).Joined m target n := by
    rintro m target ⟨n, link⟩
    refine ⟨n, ?_, link.project, link.thread, link.deadline⟩
    rw [after, if_neg (old target n link.live), link.live]
  have links : (∀ target, message.replyTo = some target →
      ∃ n, (b.record (.post message)).Joined message target n) ∧
      ∃ n, (b.record (.post message)).Joined message message.thread n := by
    unfold placement at placed
    split at placed
    · next noReply =>
      have thread : message.id = message.thread := by
        simp only [Except.ok.injEq, Prod.mk.injEq] at placed
        omega
      refine ⟨fun target reply => by simp [noReply] at reply, message, ?_, rfl, rfl, le_rfl⟩
      rw [after, if_pos thread]
    · next parent reply =>
      split at placed
      · contradiction
      next e found =>
      split at placed
      · contradiction
      obtain ⟨read, same⟩ := Option.filter_eq_some_iff.mp found
      simp only [Except.ok.injEq, Prod.mk.injEq] at placed
      have parentMessage : b.messageAt parent = some e.message :=
        messageAt_eq_some_iff.mpr ⟨e, read, rfl⟩
      have capped : message.expiresMs ≤ e.message.expiresMs := placed.2 ▸ Nat.min_le_right ..
      obtain ⟨root, rooted⟩ := threaded.root parent e.message parentMessage
      constructor
      · intro target again
        have : parent = target := Option.some.inj (reply.symm.trans again)
        subst this
        exact still message parent
          ⟨e.message, parentMessage, beq_iff_eq.mp same, placed.1, capped⟩
      · refine still message message.thread ⟨root, placed.1 ▸ rooted.live, ?_, ?_, ?_⟩
        · rw [rooted.project, beq_iff_eq.mp same]
        · rw [rooted.thread, placed.1]
        · exact capped.trans rooted.deadline
  constructor
  · intro id m found target reply
    rw [after] at found
    split at found
    · cases found
      exact links.1 target reply
    · exact still m target (threaded.parent id m found target reply)
  · intro id m found
    rw [after] at found
    split at found
    · cases found
      exact links.2
    · exact still m m.thread (threaded.root id m found)

/-- Every move keeps the threads closed. -/
theorem Threaded.move {b b' : Board} (wf : b.WellFormed) (threaded : b.Threaded)
    (move : Move b b') : b'.Threaded := by
  have cleared (project : ProjectId) : (b.removeAll (b.projectIds project)).Threaded := by
    refine threaded.filter (fun m => m.project != project) ?_ ?_
    · intro id
      simp only [messageAt, wf.clear_entries, Option.filter_map, Function.comp_def]
    · intro m n kept same _
      simpa [same] using kept
  cases move with
  | expireEntries now =>
    refine threaded.filter (fun m => now < m.expiresMs) ?_ ?_
    · intro id
      simp only [messageAt, wf.expire_entries, Option.filter_map, Function.comp_def]
    · intro m n kept _ later
      simp only [decide_eq_true_eq] at kept ⊢
      omega
  | clearProject project => exact cleared project
  | retire project => exact (cleared project).of_messageAt fun _ => rfl
  | releaseWhere condition => exact threaded.of_messageAt (b.releaseAll_messageAt _)
  | forget pane => exact threaded.of_messageAt (b.releaseAll_messageAt _)
  | revoke author =>
    refine threaded.of_messageAt fun id => ?_
    rw [releaseAll_messageAt, record_messageAt]
  | post message fresh placed afforded => exact threaded.post wf message fresh placed
  | ack id author afforded => exact threaded.of_messageAt (b.record_messageAt _)
  | claim author id revision leaseMs now e granted =>
    exact threaded.of_messageAt (b.record_messageAt _)
  | release id => exact threaded.of_messageAt (b.record_messageAt _)
  | pause project paused => exact threaded.of_messageAt (b.record_messageAt _)
  | grant author => exact threaded.of_messageAt (b.record_messageAt _)
  | pruneRates now => exact threaded.of_messageAt fun _ => rfl

/-- Whatever calls were made, with whatever clock values: every live reply's parent is live, in its
project and thread, and lives at least as long; every live post's thread is named by a live root of
its project whose own thread is itself. -/
theorem reached_threaded (b : Board) (reached : Reached b) (id : ℕ) (e : Entry)
    (live : b.entries[id]? = some e) :
    (∀ target, e.message.replyTo = some target → ∃ parent, b.entries[target]? = some parent ∧
      parent.message.project = e.message.project ∧ parent.message.thread = e.message.thread ∧
      e.message.expiresMs ≤ parent.message.expiresMs) ∧
    ∃ root, b.entries[e.message.thread]? = some root ∧ root.message.id = e.message.thread ∧
      root.message.project = e.message.project ∧ root.message.thread = root.message.id := by
  obtain ⟨wf, threaded⟩ := Reached.invariant threaded_empty
    (fun _ _ wf threaded move => threaded.move wf move) reached
  have here : b.messageAt id = some e.message := messageAt_eq_some_iff.mpr ⟨e, live, rfl⟩
  constructor
  · intro target reply
    obtain ⟨n, link⟩ := threaded.parent id e.message here target reply
    obtain ⟨parent, read, rfl⟩ := messageAt_eq_some_iff.mp link.live
    exact ⟨parent, read, link.project, link.thread, link.deadline⟩
  · obtain ⟨n, link⟩ := threaded.root id e.message here
    obtain ⟨root, read, rfl⟩ := messageAt_eq_some_iff.mp link.live
    have keyed := wf.keyed _ root read
    exact ⟨root, read, keyed, link.project, by rw [link.thread, keyed]⟩

/-- A root and a reply to it that asks for a longer life than the root has left. -/
def replyAfterRoot : List Call :=
  [.apply 1 (.agent 1 1) (.post .plan ['r'] none none none ['r'] 10000) 0,
   .apply 1 (.agent 2 1) (.post .answer ['a'] (some 1) none none ['a'] 10000) 5000]

theorem reached_threaded_reply : ∃ e parent, (after replyAfterRoot).entries[2]? = some e ∧
    e.message.replyTo = some 1 ∧ (after replyAfterRoot).entries[1]? = some parent ∧
    e.message.expiresMs ≤ parent.message.expiresMs := by
  have reply : (after replyAfterRoot).entries[2]?.map (·.message.replyTo) = some (some 1) := by
    decide +kernel
  obtain ⟨e, live, reply⟩ := Option.map_eq_some_iff.mp reply
  obtain ⟨parent, read, _, _, deadline⟩ :=
    (reached_threaded _ (reached_after replyAfterRoot) 2 e live).1 1 reply
  exact ⟨e, parent, live, reply, read, deadline⟩

end Uniterm.Model.Inbox.Board
