import Mathlib.Logic.Relation
import Uniterm.Soundness.Inbox.WellFormed

/-! # The moves a call is made of

A call on the board is a short sequence of moves: expiring, clearing or releasing a batch, or
recording one validated event. `Move` lists them with everything the source has checked by the
time it records, and `step_moves` decomposes every call. The invariants of threads and claims are
proved move by move, and no later proof unfolds `apply`.
-/

namespace Uniterm.Model.Inbox.Board

open Std Relation

/-- What the source has established when it records a claim. -/
structure ClaimGranted (b : Board) (author : Author) (id revision : ℕ) (e : Entry) : Prop where
  read : b.entries[id]? = some e
  root : e.message.thread = id
  current : e.revision = revision
  unowned : ∀ c, e.claim = some c → c.owner = author
  sole : ∀ task, e.message.task = some task → ∀ (other : ℕ) e', b.entries[other]? = some e' →
    e'.message.id ≠ id → e'.message.task = some task → e'.claim = none
  authorized : author ∉ b.revoked

/-- The quotas the source has checked when it records a post. -/
structure PostAfforded (b : Board) (message : Message) : Prop where
  project : (b.projectIds message.project).length < projectLimit
  bytes : b.bytes + message.body.len * 2 ≤ byteLimit
  entries : b.entries.size < 4000

/-- The quotas the source has checked when it records a receipt. -/
structure AckAfforded (b : Board) (id : ℕ) : Prop where
  entry : ∃ e, b.entries[id]? = some e ∧ e.acknowledged.size < 64
  total : (b.values.map fun e => e.acknowledged.size).sum < 4096

inductive Move (b : Board) : Board → Prop
  | expireEntries (now : ℕ) :
      Move b (b.removeAll (b.idsWhere fun e => e.message.expiresMs ≤ now))
  | clearProject (project : ProjectId) : Move b (b.removeAll (b.projectIds project))
  | retire (project : ProjectId) : Move b (b.retainProject project)
  | releaseWhere (condition : Claim → Bool) :
      Move b (b.releaseAll (b.idsWhere fun e => e.claim.any condition))
  | forget (pane : PaneId) : Move b (b.forgetPane pane)
  | revoke (author : Author) : Move b ((b.record (.revoke author)).releaseAll
      ((b.record (.revoke author)).idsWhere fun e => e.claim.any fun c => c.owner == author))
  | post (message : Message) (fresh : message.id = b.sequence + 1)
      (placed : b.placement message.project message.replyTo message.ttlMs message.createdMs =
        .ok (message.thread, message.expiresMs)) (afforded : b.PostAfforded message) :
      Move b (b.record (.post message))
  | ack (id : ℕ) (author : Author) (afforded : b.AckAfforded id) :
      Move b (b.record (.ack id author))
  | claim (author : Author) (id revision leaseMs now : ℕ) (e : Entry)
      (granted : b.ClaimGranted author id revision e) :
      Move b (b.record (.claim id (some {
        owner := author
        revision := revision + 1
        expiresMs := min (saturatingAdd64 now leaseMs) e.message.expiresMs })))
  | release (id : ℕ) : Move b (b.record (.claim id none))
  | pause (project : ProjectId) (paused : Bool) : Move b (b.record (.pause project paused))
  | grant (author : Author) : Move b (b.record (.grant author))
  | pruneRates (now : ℕ) : Move b (b.pruneRates now)

/-- The boards one call can lead to. -/
abbrev Moves : Board → Board → Prop := ReflTransGen Move

private theorem moves_post (b : Board) (project : ProjectId) (author : Author) (kind : Kind)
    (body : Text) (replyTo : Option ℕ) (recipient : Option Author) (task : Option ℕ) (key : Text)
    (ttl now : ℕ) :
    Moves b (b.applyPost project author kind body replyTo recipient task key ttl now).1 := by
  unfold applyPost
  split
  · exact .refl
  split
  · split <;> exact .refl
  split
  · exact .refl
  next afforded =>
  simp only [not_or, Nat.not_le, Nat.not_lt, ge_iff_le, gt_iff_lt] at afforded
  split
  · exact .refl
  split
  · exact .refl
  split
  · exact .refl
  · next placed => exact .single (.post _ rfl placed ⟨afforded.1, afforded.2.1, afforded.2.2⟩)

private theorem entryIn_read {b : Board} {project : ProjectId} {id : ℕ} {e : Entry}
    (found : b.entryIn project id = some e) :
    b.entries[id]? = some e ∧ e.message.project = project := by
  obtain ⟨read, same⟩ := Option.filter_eq_some_iff.mp found
  exact ⟨read, beq_iff_eq.mp same⟩

/-- Where a claim is recorded, the whole list of refusals has been passed. -/
theorem applyClaim_cases (b : Board) (project : ProjectId) (author : Author)
    (id revision leaseMs now : ℕ) (authorized : author ∉ b.revoked) :
    ((b.applyClaim project author id revision leaseMs now).1 = b ∧
      ∃ refusal, (b.applyClaim project author id revision leaseMs now).2 = .error refusal) ∨
    ∃ e, b.ClaimGranted author id revision e ∧
      (b.applyClaim project author id revision leaseMs now).1 = b.record (.claim id (some {
        owner := author
        revision := revision + 1
        expiresMs := min (saturatingAdd64 now leaseMs) e.message.expiresMs })) := by
  unfold applyClaim
  split
  · exact .inl ⟨rfl, _, rfl⟩
  next e found =>
  split
  · exact .inl ⟨rfl, _, rfl⟩
  next root =>
  split
  · exact .inl ⟨rfl, _, rfl⟩
  next current =>
  split
  · exact .inl ⟨rfl, _, rfl⟩
  next unowned =>
  split
  · exact .inl ⟨rfl, _, rfl⟩
  next sole =>
  split
  · exact .inl ⟨rfl, _, rfl⟩
  refine .inr ⟨e, ⟨(entryIn_read found).1, not_not.mp root, not_not.mp current, ?_, ?_, authorized⟩, rfl⟩
  · intro c held
    simpa [held] using unowned
  · intro task tagged other e' read different same
    have none_claimed : ∀ e' ∈ b.values, e'.message.id ≠ id → e'.message.task = some task →
        e'.claim = none := by simpa [tagged] using sole
    exact none_claimed e' (b.mem_values.mpr ⟨other, read⟩) different same

private theorem moves_claim (b : Board) (project : ProjectId) (author : Author)
    (id revision leaseMs now : ℕ) (authorized : author ∉ b.revoked) :
    Moves b (b.applyClaim project author id revision leaseMs now).1 := by
  obtain ⟨same, _⟩ | ⟨e, granted, same⟩ :=
    b.applyClaim_cases project author id revision leaseMs now authorized
  · rw [same]
  · rw [same]
    exact .single (.claim author id revision leaseMs now e granted)

private theorem moves_ack (b : Board) (project : ProjectId) (author : Author) (id : ℕ) :
    Moves b (b.applyAck project author id).1 := by
  unfold applyAck
  split
  · exact .refl
  next e found =>
  split
  · exact .refl
  split
  · exact .refl
  next afforded =>
  simp only [not_or, Nat.not_le, ge_iff_le] at afforded
  exact .single (.ack id author ⟨⟨e, (entryIn_read found).1, afforded.1⟩, afforded.2⟩)

private theorem moves_release (b : Board) (project : ProjectId) (author : Author)
    (id revision : ℕ) : Moves b (b.applyRelease project author id revision).1 := by
  unfold applyRelease
  split
  · exact .refl
  split
  · exact .refl
  split
  · exact .refl
  split
  · exact .single (.release id)
  · exact .refl

private theorem moves_revoke (b : Board) (author : Author) : Moves b (b.applyRevoke author).1 := by
  unfold applyRevoke
  split
  · exact .refl
  split
  · exact .refl
  split
  · exact .refl
  · exact .single (.revoke author)

private theorem moves_expire (b : Board) (now : ℕ) : Moves b (b.expire now) :=
  .tail (.single (.expireEntries now)) (.releaseWhere fun c => c.expiresMs ≤ now)

/-- The housekeeping that every operation starts with. -/
theorem moves_housekeeping (b : Board) (now : ℕ) : Moves b ((b.expire now).pruneRates now) :=
  .tail (b.moves_expire now) (.pruneRates now)

private theorem moves_apply (b : Board) (project : ProjectId) (author : Author) (op : Operation)
    (now : ℕ) : Moves b (b.apply project author op now).1 := by
  refine (b.moves_housekeeping now).trans ?_
  unfold apply
  generalize (b.expire now).pruneRates now = b
  dsimp only
  split
  · exact .refl
  next authorized =>
  split
  · exact .refl
  cases op with
  | credential => dsimp only; split; exacts [.single (.grant author), .refl]
  | post kind body replyTo recipient task key ttl => exact moves_post ..
  | ack id => exact moves_ack ..
  | claim id revision leaseMs => exact moves_claim b project author id revision leaseMs now authorized
  | release id revision => exact moves_release ..
  | pause paused => dsimp only; split; exacts [.refl, by split; exacts [.single (.pause ..), .refl]]
  | clear confirmed => dsimp only; split; exacts [.single (.clearProject project), .refl]
  | revoke target => dsimp only; split; exacts [moves_revoke .., .refl]
  | discover => exact .refl
  | list after thread limit => exact .refl
  | watch after timeoutMs => exact .refl

private theorem moves_retainProjects (b : Board) (live : ExtTreeSet ProjectId) :
    Moves b (b.retainProjects live) := by
  unfold retainProjects
  generalize b.changed.keys.filter (fun project => !live.contains project) = gone
  induction gone generalizing b with
  | nil => exact .refl
  | cons project rest ih =>
    rw [List.foldl_cons]
    exact (ReflTransGen.single (.retire project)).trans (ih _)

/-- Every call is a sequence of moves. -/
theorem step_moves {b b' : Board} {call : Call} (stepped : b.step call = some b') : Moves b b' := by
  obtain rfl := Option.some.inj stepped
  cases call with
  | apply project author op now => exact moves_apply ..
  | expire now => exact moves_expire ..
  | forgetPane pane => exact .single (.forget pane)
  | retainProjects live => exact moves_retainProjects ..

section Recorded

variable {inv : Board → Prop}

private theorem recordAll_keeps
    (recorded : ∀ (b : Board) event, inv b → b.Fresh event → inv (b.record event))
    {b : Board} (held : inv b) {events : List Event}
    (fresh : ∀ b : Board, ∀ event ∈ events, b.Fresh event) : inv (b.recordAll events) := by
  induction events generalizing b with
  | nil => rwa [recordAll_nil]
  | cons event rest ih =>
    rw [recordAll_cons]
    exact ih (recorded b event held (fresh b event (List.mem_cons_self ..)))
      (fun b other member => fresh b other (List.mem_cons_of_mem _ member))

private theorem fresh_map (make : ℕ → Event) (silent : ∀ (b : Board) id, b.Fresh (make id))
    (ids : List ℕ) (b : Board) : ∀ event ∈ ids.map make, b.Fresh event := by
  intro event member
  obtain ⟨id, _, rfl⟩ := List.mem_map.mp member
  exact silent b id

/-- What every recorded event keeps, and depends on the entries and the sequence only, every move
keeps. -/
theorem Move.keeps_recorded
    (recorded : ∀ (b : Board) event, inv b → b.Fresh event → inv (b.record event))
    (fields : ∀ b b' : Board, b'.entries = b.entries → b'.sequence = b.sequence → inv b → inv b')
    {b b' : Board} (held : inv b) (move : Move b b') : inv b' := by
  have removed (b : Board) (held : inv b) (ids : List ℕ) : inv (b.removeAll ids) :=
    recordAll_keeps recorded held (fresh_map .remove (fun _ _ => trivial) ids)
  have released (b : Board) (held : inv b) (ids : List ℕ) : inv (b.releaseAll ids) :=
    recordAll_keeps recorded held (fresh_map (fun id => .claim id none) (fun _ _ => trivial) ids)
  cases move with
  | expireEntries now => exact removed b held _
  | clearProject project => exact removed b held _
  | retire project => exact fields (b.removeAll (b.projectIds project)) _ rfl rfl (removed b held _)
  | releaseWhere condition => exact released b held _
  | forget pane => 
    exact fields (b.releaseAll (b.idsWhere fun e => e.claim.any fun c => c.owner.onPane pane)) _
      rfl rfl (released b held _)
  | revoke author => exact released _ (recorded b (.revoke author) held trivial) _
  | post message fresh placed afforded => exact recorded b _ held fresh
  | ack id author afforded => exact recorded b _ held trivial
  | claim author id revision leaseMs now e granted => exact recorded b _ held trivial
  | release id => exact recorded b _ held trivial
  | pause project paused => exact recorded b _ held trivial
  | grant author => exact recorded b _ held trivial
  | pruneRates now => exact fields b _ rfl rfl held

theorem Moves.keeps (keeps : ∀ b b' : Board, inv b → Move b b' → inv b') {b b' : Board}
    (held : inv b) (moves : Moves b b') : inv b' := by
  induction moves with
  | refl => exact held
  | tail _ move ih => exact keeps _ _ ih move

theorem calls_keep (keeps : ∀ b b' : Board, inv b → Move b b' → inv b') {b : Board} (held : inv b)
    (calls : List Call) : inv (calls.foldl call b) := by
  induction calls generalizing b with
  | nil => exact held
  | cons c rest ih => exact ih (Moves.keeps keeps held (step_moves (b := b) rfl))

/-- An invariant of every move is an invariant of every call. -/
theorem step_keeps (keeps : ∀ b b', inv b → Move b b' → inv b')
    (b : Board) (call : Call) (b' : Board) (held : inv b) (stepped : b.step call = some b') :
    inv b' :=
  Moves.keeps keeps held (step_moves stepped)

end Recorded

section Lasting

/-- A property of entries that receipts and lease changes keep. -/
structure Durable (P : Entry → Prop) : Prop where
  acked : ∀ e author stamp, P e →
    P { e with acknowledged := e.acknowledged.insert author, changed := stamp }
  claimed : ∀ e claim stamp, P e → P { e with revision := e.revision + 1, changed := stamp, claim }

/-- An assigned id, whose entry has the property while it is live. -/
def Lasting (id : ℕ) (P : Entry → Prop) (b : Board) : Prop :=
  id ≤ b.sequence ∧ ∀ e, b.entries[id]? = some e → P e

variable {P : Entry → Prop} {id : ℕ} {b b' : Board}

/-- The id is never assigned again, so only receipts and lease changes reach its entry. -/
theorem Lasting.record (durable : Durable P) (lasting : Lasting id P b) {event : Event} (fresh : b.Fresh event) :
    Lasting id P (b.record event) := by
  refine ⟨by rw [record_sequence]; exact Nat.le_succ_of_le lasting.1, fun e read => ?_⟩
  rw [record_entries] at read
  cases event with
  | post message =>
    simp only [entryAfter] at read
    split at read
    · next same =>
      have := lasting.1
      have : message.id = b.sequence + 1 := fresh
      omega
    · exact lasting.2 e read
  | ack target author =>
    simp only [entryAfter] at read
    split at read
    · obtain ⟨old, found, rfl⟩ := Option.map_eq_some_iff.mp read
      exact durable.acked old author _ (lasting.2 old found)
    · exact lasting.2 e read
  | claim target claim =>
    simp only [entryAfter] at read
    split at read
    · obtain ⟨old, found, rfl⟩ := Option.map_eq_some_iff.mp read
      exact durable.claimed old claim _ (lasting.2 old found)
    · exact lasting.2 e read
  | remove target =>
    simp only [entryAfter] at read
    split at read
    · contradiction
    · exact lasting.2 e read
  | _ => exact lasting.2 e read

theorem Lasting.move (durable : Durable P) (lasting : Lasting id P b) (move : Move b b') : Lasting id P b' := by
  refine move.keeps_recorded (fun _ _ lasting fresh => lasting.record durable fresh) ?_ lasting
  intro b b' entries sequence lasting
  rwa [Lasting, entries, sequence]

theorem Lasting.moves (durable : Durable P) (lasting : Lasting id P b) (moves : Moves b b') : Lasting id P b' :=
  Moves.keeps (fun _ _ lasting move => lasting.move durable move) lasting moves

theorem Lasting.calls (durable : Durable P) (lasting : Lasting id P b) (calls : List Call) :
    Lasting id P (calls.foldl call b) :=
  calls_keep (fun _ _ lasting move => lasting.move durable move) lasting calls

theorem moves_sequence (moves : Moves b b') : b.sequence ≤ b'.sequence :=
  have assigned : Lasting b.sequence (fun _ => True) b := ⟨le_rfl, fun _ _ => trivial⟩
  (assigned.moves ⟨fun _ _ _ => id, fun _ _ _ => id⟩ moves).1

end Lasting

section WellFormed

variable {b b' : Board}

/-- Fields that no entry, index or journal record depends on may change freely. -/
private theorem WellFormed.of_fields (wf : b.WellFormed) (entries : b'.entries = b.entries)
    (projects : b'.projects = b.projects) (sequence : b'.sequence = b.sequence)
    (journal : b'.journal = b.journal) (floor : b'.floor = b.floor)
    (listed : ∀ (id : ℕ) e, b.entries[id]? = some e → e.message.project ∈ b'.changed) :
    b'.WellFormed where
  keyed id e read := wf.keyed id e (entries ▸ read)
  bounded id e read := sequence ▸ wf.bounded id e (entries ▸ read)
  stamped id e read := wf.stamped id e (entries ▸ read)
  distinct id other e e' read read' same :=
    wf.distinct id other e e' (entries ▸ read) (entries ▸ read') same
  indexed project id := by
    rw [entries, ← wf.indexed, projectIds, projectIds, projects]
  listed id e read := listed id e (entries ▸ read)
  journalled record member := sequence ▸ wf.journalled record (journal ▸ member)
  floored := by rw [sequence, floor]; exact wf.floored

/-- Clearing a project removes exactly the entries of that project. -/
theorem WellFormed.clear_entries (wf : b.WellFormed) (project : ProjectId) (key : ℕ) :
    (b.removeAll (b.projectIds project)).entries[key]? =
      b.entries[key]?.filter fun e => e.message.project != project := by
  rw [removeAll_entries]
  simp only [wf.indexed]
  cases found : b.entries[key]? with
  | none => simp
  | some e => by_cases same : e.message.project = project <;> simp [same, Option.filter_some]

/-- Expiry removes exactly the entries whose deadline has passed. -/
theorem WellFormed.expire_entries (wf : b.WellFormed) (now key : ℕ) :
    (b.removeAll (b.idsWhere fun e => e.message.expiresMs ≤ now)).entries[key]? =
      b.entries[key]?.filter fun e => now < e.message.expiresMs := by
  rw [removeAll_entries]
  simp only [wf.mem_idsWhere]
  cases found : b.entries[key]? with
  | none => simp
  | some e =>
    by_cases due : e.message.expiresMs ≤ now
    · simp [due, Option.filter_some, Nat.not_lt.mpr due]
    · simp [due, Option.filter_some, Nat.lt_of_not_le due]

private theorem WellFormed.retainProject (wf : b.WellFormed) (project : ProjectId) :
    (b.retainProject project).WellFormed := by
  have cleared := wf.removeAll (b.projectIds project)
  refine cleared.of_fields rfl rfl rfl rfl rfl ?_
  intro id e read
  have other : e.message.project ≠ project := by
    rw [wf.clear_entries] at read
    simpa using (Option.filter_eq_some_iff.mp read).2
  have present := cleared.listed id e read
  simp only [Board.retainProject, ExtTreeMap.mem_erase, ne_eq, Std.compare_eq_iff_eq]
  exact ⟨Ne.symm other, present⟩

/-- Every move keeps the representation invariant. -/
theorem WellFormed.move (wf : b.WellFormed) (move : Move b b') : b'.WellFormed := by
  cases move with
  | expireEntries now => exact wf.removeAll _
  | clearProject project => exact wf.removeAll _
  | retire project => exact wf.retainProject project
  | releaseWhere condition => exact wf.releaseAll _
  | forget pane =>
    have released := wf.releaseAll (b.idsWhere fun e => e.claim.any fun c => c.owner.onPane pane)
    exact released.of_fields rfl rfl rfl rfl rfl released.listed
  | revoke author =>
    have recorded : (b.record (.revoke author)).WellFormed := wf.record trivial
    exact recorded.releaseAll _
  | post message fresh placed afforded => exact wf.record fresh
  | ack id author afforded => exact wf.record trivial
  | claim author id revision leaseMs now e granted => exact wf.record trivial
  | release id => exact wf.record trivial
  | pause project paused => exact wf.record trivial
  | grant author => exact wf.record trivial
  | pruneRates now => exact wf.of_fields rfl rfl rfl rfl rfl wf.listed

theorem WellFormed.moves (wf : b.WellFormed) (moves : Moves b b') : b'.WellFormed :=
  Moves.keeps (fun _ _ wf move => wf.move move) wf moves

end WellFormed

/-- The board starts empty. -/
def Initial (b : Board) : Prop := b = {}

/-- The boards that some sequence of calls reaches. -/
abbrev Reached (b : Board) : Prop := Machine.Reachable Initial step b

private theorem exec_step (b : Board) (calls : List Call) :
    Machine.exec step b calls = some (calls.foldl call b) := by
  induction calls generalizing b with
  | nil => rfl
  | cons c rest ih => simp only [Machine.exec, step, Option.bind_some, ih, List.foldl_cons]

theorem reached_after (calls : List Call) : Reached (after calls) :=
  ⟨{}, calls, rfl, exec_step {} calls⟩

/-- The rule every board invariant is proved with. -/
theorem Reached.invariant {inv : Board → Prop} (empty : inv {})
    (keeps : ∀ b b', b.WellFormed → inv b → Move b b' → inv b') {b : Board} (reached : Reached b) :
    b.WellFormed ∧ inv b := by
  have starts : ∀ b, Initial b → b.WellFormed ∧ inv b := by
    rintro b rfl
    exact ⟨wellFormed_empty, empty⟩
  have moves : ∀ b b' : Board, b.WellFormed ∧ inv b → Move b b' → b'.WellFormed ∧ inv b' :=
    fun b b' held move => ⟨held.1.move move, keeps b b' held.1 held.2 move⟩
  exact Machine.Reachable.invariant starts (step_keeps moves) reached

theorem Reached.wellFormed {b : Board} (reached : Reached b) : b.WellFormed :=
  (Reached.invariant trivial (fun _ _ _ _ _ => trivial) reached).1

end Uniterm.Model.Inbox.Board
