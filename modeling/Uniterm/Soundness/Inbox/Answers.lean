import Uniterm.Soundness.Inbox.Records

/-! # What an operation answers and records

An operation validates before it records. `Answers` lists every answer of the board beside the events recorded
with it and what the source has checked by then; a refusal records nothing. `apply_answers` is the only place
that follows the early returns one by one.
-/

namespace Uniterm.Model.Inbox.Board

open Std

/-- The checks of a post's own fields. -/
def PostValid (body key : Text) (ttl : ℕ) : Prop :=
  ¬ (body.isBlank ∨ body.len > bodyLimit ∨ (body.any fun c => isControl c && c != '\n' && c != '\t') = true ∨
    key.isEmpty ∨ key.len > 128 ∨ ¬(1000 ≤ ttl ∧ ttl ≤ ttlMs))

/-- The answer to an operation on a board that expiry and pruning have left, and the events it records. -/
inductive Answers (b : Board) (project : ProjectId) (author : Author) (now : ℕ) :
    Operation → List Event → Except Refusal (Option ℕ) → Prop
  | refused (op : Operation) (refusal : Refusal) : Answers b project author now op [] (.error refusal)
  | credential : Answers b project author now .credential [.grant author] (.ok none)
  | repost (kind : Kind) (body : Text) (replyTo : Option ℕ) (recipient : Option Author) (task : Option ℕ)
      (key : Text) (ttl : ℕ) (e : Entry) (valid : PostValid body key ttl) (live : e ∈ b.projectEntries project)
      (authored : e.message.author = author) (keyed : e.message.key = key)
      (repeats : e.message.repeats kind body replyTo recipient task ttl = true) :
      Answers b project author now (.post kind body replyTo recipient task key ttl) []
        (.ok (some e.message.id))
  | post (kind : Kind) (body : Text) (replyTo : Option ℕ) (recipient : Option Author) (task : Option ℕ)
      (key : Text) (ttl thread expiresMs : ℕ) (valid : PostValid body key ttl)
      (unused : ∀ e ∈ b.projectEntries project, ¬ (e.message.author = author ∧ e.message.key = key))
      (rated : ((b.rates[author]?).getD []).length < 30) :
      Answers b project author now (.post kind body replyTo recipient task key ttl)
        [.post {
          id := b.sequence + 1, project, author, kind, body, replyTo, thread, recipient, task, key
          createdMs := now, expiresMs, ttlMs := ttl }]
        (.ok (some (b.sequence + 1)))
  | acked (id : ℕ) (e : Entry) (read : b.entries[id]? = some e) (acknowledged : author ∈ e.acknowledged) :
      Answers b project author now (.ack id) [] (.ok (some id))
  | ack (id : ℕ) (e : Entry) (read : b.entries[id]? = some e) (pending : author ∉ e.acknowledged) :
      Answers b project author now (.ack id) [.ack id author] (.ok (some id))
  | claim (id revision leaseMs : ℕ) (claim : Claim) :
      Answers b project author now (.claim id revision leaseMs) [.claim id (some claim)] (.ok (some id))
  | release (id revision : ℕ) (events : List Event) (released : events = [] ∨ events = [.claim id none]) :
      Answers b project author now (.release id revision) events (.ok (some id))
  | standing (paused : Bool) (already : b.paused.contains project = paused) :
      Answers b project author now (.pause paused) [] (.ok none)
  | pause (paused : Bool) (changes : b.paused.contains project ≠ paused) :
      Answers b project author now (.pause paused) [.pause project paused] (.ok none)
  | clear (confirmed : Bool) :
      Answers b project author now (.clear confirmed) ((b.projectIds project).map .remove) (.ok none)
  | revoked (target : Author) (already : target ∈ b.revoked) :
      Answers b project author now (.revoke target) [] (.ok none)
  | revoke (target : Author) (ids : List ℕ) (admitted : target ∉ b.revoked) :
      Answers b project author now (.revoke target) (.revoke target :: ids.map fun id => .claim id none) (.ok none)

/-- A board and its answer agree with `Answers` for some recorded events. -/
private def Follows (b : Board) (project : ProjectId) (author : Author) (now : ℕ) (op : Operation)
    (outcome : Board × Except Refusal (Option ℕ)) : Prop :=
  ∃ events, Answers b project author now op events outcome.2 ∧ outcome.1 = b.recordAll events

section Follows

variable {b : Board} {project : ProjectId} {author : Author} {now : ℕ} {op : Operation}
  {answer : Except Refusal (Option ℕ)}

private theorem follows_silent (answers : Answers b project author now op [] answer) :
    Follows b project author now op (b, answer) :=
  ⟨[], answers, (recordAll_nil b).symm⟩

private theorem follows_single {event : Event} (answers : Answers b project author now op [event] answer) :
    Follows b project author now op (b.record event, answer) :=
  ⟨[event], answers, by rw [recordAll_cons, recordAll_nil]⟩

private theorem entryIn_eq_some {id : ℕ} {e : Entry} (found : b.entryIn project id = some e) :
    b.entries[id]? = some e :=
  (Option.filter_eq_some_iff.mp found).1

private theorem follows_post (b : Board) (project : ProjectId) (author : Author) (kind : Kind) (body : Text)
    (replyTo : Option ℕ) (recipient : Option Author) (task : Option ℕ) (key : Text) (ttl now : ℕ) :
    Follows b project author now (.post kind body replyTo recipient task key ttl)
      (b.applyPost project author kind body replyTo recipient task key ttl now) := by
  unfold applyPost
  split
  · exact follows_silent (.refused ..)
  next valid =>
  split
  · next e found =>
    obtain ⟨authored, keyed⟩ : e.message.author = author ∧ e.message.key = key := by
      simpa using List.find?_some found
    split
    · next repeats =>
      exact follows_silent (.repost _ _ _ _ _ _ _ e valid (List.mem_of_find?_eq_some found) authored keyed repeats)
    · exact follows_silent (.refused ..)
  next absent =>
  have unused : ∀ e ∈ b.projectEntries project, ¬ (e.message.author = author ∧ e.message.key = key) := by
    simpa using List.find?_eq_none.mp absent
  split
  · exact follows_silent (.refused ..)
  split
  · exact follows_silent (.refused ..)
  next limited =>
  have rated : ((b.rates[author]?).getD []).length < 30 := by
    cases read : b.rates[author]? with
    | none => simp
    | some times => simpa [read] using limited
  split
  · exact follows_silent (.refused ..)
  split
  · exact follows_silent (.refused ..)
  · exact follows_single (.post _ _ _ _ _ _ _ _ _ valid unused rated)

private theorem follows_ack (b : Board) (project : ProjectId) (author : Author) (id now : ℕ) :
    Follows b project author now (.ack id) (b.applyAck project author id) := by
  unfold applyAck
  split
  · exact follows_silent (.refused ..)
  next e found =>
  split
  · next already => exact follows_silent (.acked id e (entryIn_eq_some found) already)
  next pending =>
  split
  · exact follows_silent (.refused ..)
  · exact follows_single (.ack id e (entryIn_eq_some found) pending)

private theorem follows_claim (b : Board) (project : ProjectId) (author : Author) (id revision leaseMs now : ℕ) :
    Follows b project author now (.claim id revision leaseMs)
      (b.applyClaim project author id revision leaseMs now) := by
  unfold applyClaim
  split
  · exact follows_silent (.refused ..)
  split
  · exact follows_silent (.refused ..)
  split
  · exact follows_silent (.refused ..)
  split
  · exact follows_silent (.refused ..)
  split
  · exact follows_silent (.refused ..)
  split
  · exact follows_silent (.refused ..)
  · exact follows_single (.claim ..)

private theorem follows_release (b : Board) (project : ProjectId) (author : Author) (id revision now : ℕ) :
    Follows b project author now (.release id revision) (b.applyRelease project author id revision) := by
  unfold applyRelease
  split
  · exact follows_silent (.refused ..)
  split
  · exact follows_silent (.refused ..)
  split
  · exact follows_silent (.refused ..)
  split
  · exact follows_single (.release _ _ _ (.inr rfl))
  · exact follows_silent (.release _ _ _ (.inl rfl))

private theorem follows_revoke (b : Board) (project : ProjectId) (author target : Author) (now : ℕ) :
    Follows b project author now (.revoke target) (b.applyRevoke target) := by
  unfold applyRevoke
  split
  · exact follows_silent (.refused ..)
  split
  · next already => exact follows_silent (.revoked target already)
  next admitted =>
  split
  · exact follows_silent (.refused ..)
  · have released := recordAll_cons b (.revoke target) (((b.record (.revoke target)).idsWhere fun e =>
      e.claim.any fun c => c.owner == target).map fun id => .claim id none)
    exact ⟨_, .revoke target _ admitted, released.symm⟩

end Follows

/-- Every operation sweeps the board and then records the events of its answer. -/
theorem apply_answers (b : Board) (project : ProjectId) (author : Author) (op : Operation) (now : ℕ) :
    ∃ events, Answers ((b.expire now).pruneRates now) project author now op events
        (b.apply project author op now).2 ∧
      (b.apply project author op now).1 = ((b.expire now).pruneRates now).recordAll events := by
  unfold apply
  generalize (b.expire now).pruneRates now = b
  change Follows b project author now op _
  dsimp only
  split
  · exact follows_silent (.refused ..)
  split
  · exact follows_silent (.refused ..)
  cases op with
  | credential =>
    dsimp only
    split
    · exact follows_single .credential
    · exact follows_silent (.refused ..)
  | post kind body replyTo recipient task key ttl => exact follows_post ..
  | ack id => exact follows_ack ..
  | claim id revision leaseMs => exact follows_claim ..
  | release id revision => exact follows_release ..
  | pause paused =>
    dsimp only
    split
    · exact follows_silent (.refused ..)
    split
    · next changes => exact follows_single (.pause paused changes)
    · next same => exact follows_silent (.standing paused (not_not.mp same))
  | clear confirmed =>
    dsimp only
    split
    · exact ⟨_, .clear confirmed, rfl⟩
    · exact follows_silent (.refused ..)
  | revoke target =>
    dsimp only
    split
    · exact follows_revoke ..
    · exact follows_silent (.refused ..)
  | discover => exact follows_silent (.refused ..)
  | list after thread limit => exact follows_silent (.refused ..)
  | watch after timeoutMs => exact follows_silent (.refused ..)

end Uniterm.Model.Inbox.Board
