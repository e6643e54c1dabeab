import Mathlib.Data.Prod.Lex
import Mathlib.Order.Compare
import Std.Data.ExtTreeMap.Lemmas
import Std.Data.ExtTreeSet.Lemmas
import Uniterm.Model.Text

/-! # The Project inbox board

The board is a pure reducer: `record` appends one event to a bounded journal and projects it onto
the live entries, and `apply` validates one operation before recording anything. Ordered maps and
sets are extensional search trees, so iteration follows the keys, and deadlines saturate at the
64-bit maximum. The sequence counter is a natural number: one increment per recorded event never
exhausts 64 bits.
-/

namespace Uniterm.Model.Inbox

open Std

abbrev ProjectId := ℕ
abbrev PaneId := ℕ

def bodyLimit : ℕ := 8192
def projectLimit : ℕ := 1000
def byteLimit : ℕ := 8 * 1024 * 1024
def ttlMs : ℕ := 24 * 60 * 60 * 1000
def journalLimit : ℕ := 4096

/-- Server-derived authorship; a reused Pane never inherits an old identity. -/
inductive Author where
  | human
  | agent (pane : PaneId) (invocation : ℕ)
deriving DecidableEq, Repr

namespace Author

/-- The derived order: the human first, agents by pane and then by invocation. -/
def rank : Author → ℕ ×ₗ ℕ ×ₗ ℕ
  | human => toLex (0, toLex (0, 0))
  | agent pane invocation => toLex (1, toLex (pane, invocation))

private theorem rank_injective : Function.Injective rank := by
  intro a b same
  cases a <;> cases b <;> simp_all [rank]

instance : LinearOrder Author := LinearOrder.lift' rank rank_injective

instance : Std.TransCmp (compare : Author → Author → Ordering) := inferInstance

/-- Whether the identity is an invocation in the given pane. -/
def onPane (pane : PaneId) : Author → Bool
  | human => false
  | agent p _ => p == pane

end Author

/-- Conversation intent helps agents distinguish evidence, disagreement and work. -/
inductive Kind where
  | plan | proposal | critique | feedback | question | answer | finding | request | handoff
  | decision | blocked
deriving DecidableEq, Repr

/-- One immutable post. -/
structure Message where
  id : ℕ
  project : ProjectId
  author : Author
  kind : Kind
  body : Text
  replyTo : Option ℕ
  thread : ℕ
  recipient : Option Author
  task : Option ℕ
  key : Text
  createdMs : ℕ
  expiresMs : ℕ
  ttlMs : ℕ
deriving DecidableEq

/-- Whether a retried post repeats its original exactly. -/
def Message.repeats (m : Message) (kind : Kind) (body : Text) (replyTo : Option ℕ)
    (recipient : Option Author) (task : Option ℕ) (ttlMs : ℕ) : Bool :=
  m.kind == kind && m.body == body && m.replyTo == replyTo && m.recipient == recipient && m.task == task &&
    m.ttlMs == ttlMs

structure Claim where
  owner : Author
  revision : ℕ
  expiresMs : ℕ
deriving DecidableEq

/-- Current view of a post, with revisions for atomic claims. -/
structure Entry where
  message : Message
  revision : ℕ
  changed : ℕ
  acknowledged : ExtTreeSet Author
  claim : Option Claim

inductive Event where
  | post (message : Message)
  | ack (id : ℕ) (author : Author)
  | claim (id : ℕ) (claim : Option Claim)
  | remove (id : ℕ)
  | pause (project : ProjectId) (paused : Bool)
  | revoke (author : Author)
  | grant (author : Author)

inductive Operation where
  | discover
  | credential
  | list (after : ℕ) (thread : Option ℕ) (limit : ℕ)
  | watch (after timeoutMs : ℕ)
  | post (kind : Kind) (body : Text) (replyTo : Option ℕ) (recipient : Option Author) (task : Option ℕ)
      (key : Text) (ttlMs : ℕ)
  | ack (id : ℕ)
  | claim (id revision leaseMs : ℕ)
  | release (id revision : ℕ)
  | pause (paused : Bool)
  | clear (confirmed : Bool)
  | revoke (author : Author)

/-- The refusals of the board, one constructor for each static string of the source. -/
inductive Refusal where
  | revoked | paused | invalidPost | idempotencyConflict | capacity | rateLimited | notFound
  | threadBudget | claimThreadRoot | revisionConflict | alreadyClaimed | taskAlreadyClaimed
  | invalidLease | notOwner | invalidRecipient | forbidden | cursorExpired
deriving DecidableEq, Repr

def Refusal.text : Refusal → String
  | revoked => "revoked"
  | paused => "paused"
  | invalidPost => "invalid_post"
  | idempotencyConflict => "idempotency_conflict"
  | capacity => "capacity"
  | rateLimited => "rate_limited"
  | notFound => "not_found"
  | threadBudget => "thread_budget"
  | claimThreadRoot => "claim_thread_root"
  | revisionConflict => "revision_conflict"
  | alreadyClaimed => "already_claimed"
  | taskAlreadyClaimed => "task_already_claimed"
  | invalidLease => "invalid_lease"
  | notOwner => "not_owner"
  | invalidRecipient => "invalid_recipient"
  | forbidden => "forbidden"
  | cursorExpired => "cursor_expired"

/-- A page carries a reconnect cursor and the retention floor. -/
structure Page where
  entries : List Entry
  cursor : ℕ
  floor : ℕ
  more : Bool
  paused : Bool

/-- Runtime-owned ephemeral journal and its projection, both bounded. -/
structure Board where
  journal : List (ℕ × Event) := []
  entries : ExtTreeMap ℕ Entry := ∅
  projects : ExtTreeMap ProjectId (ExtTreeSet ℕ) := ∅
  paused : ExtTreeSet ProjectId := ∅
  revoked : ExtTreeSet Author := ∅
  sequence : ℕ := 0
  floor : ℕ := 0
  bytes : ℕ := 0
  changed : ExtTreeMap ProjectId ℕ := ∅
  rates : ExtTreeMap Author (List ℕ) := ∅

namespace Board

/-- The live entries of the whole board, in id order. -/
def values (b : Board) : List Entry := b.entries.toList.map Prod.snd

/-- The ids of the live entries that satisfy a condition, in id order. -/
def idsWhere (b : Board) (condition : Entry → Bool) : List ℕ :=
  (b.values.filter condition).map (·.message.id)

/-- The project whose subscribers an event wakes. -/
def eventProject (b : Board) : Event → Option ProjectId
  | .post m => some m.project
  | .ack id _ | .claim id _ | .remove id => b.entries[id]?.map (·.message.project)
  | .pause project _ => some project
  | .revoke _ | .grant _ => none

/-- Drop an id from its project's index, and the index entry with its last id. -/
def unindex (b : Board) (project : ProjectId) (id : ℕ) : ExtTreeMap ProjectId (ExtTreeSet ℕ) :=
  match b.projects[project]? with
  | none => b.projects
  | some ids =>
    if (ids.erase id).isEmpty then b.projects.erase project
    else b.projects.insert project (ids.erase id)

def isPostOf (id : ℕ) : Event → Bool
  | .post m => m.id == id
  | _ => false

/-- The projection of an event that has just been journalled under the current sequence. -/
def projectEvent (b : Board) : Event → Board
  | .post message =>
    { b with
      rates := b.rates.insert message.author
        ((b.rates[message.author]?).getD [] ++ [message.createdMs])
      bytes := b.bytes + message.body.len * 2
      projects := b.projects.insert message.project
        (((b.projects[message.project]?).getD ∅).insert message.id)
      entries := b.entries.insert message.id
        { message, revision := 0, changed := b.sequence, acknowledged := ∅, claim := none } }
  | .ack id author =>
    { b with entries := b.entries.modify id fun e =>
        { e with acknowledged := e.acknowledged.insert author, changed := b.sequence } }
  | .claim id claim =>
    { b with entries := b.entries.modify id fun e =>
        { e with revision := e.revision + 1, changed := b.sequence, claim } }
  | .remove id =>
    match b.entries[id]? with
    | none => b
    | some e =>
      -- Payload copies leave the journal too, not merely the visible projection.
      { b with
        entries := b.entries.erase id
        bytes := b.bytes - e.message.body.len * 2
        projects := b.unindex e.message.project id
        journal := b.journal.filter fun record => !isPostOf id record.2
        floor := b.sequence }
  | .pause project paused =>
    { b with paused := if paused then b.paused.insert project else b.paused.erase project }
  | .grant _ => b
  | .revoke author => { b with revoked := b.revoked.insert author }

/-- Pop the oldest records beyond the bound; each one popped raises the retention floor. -/
def truncate (b : Board) : Board :=
  let dropped := b.journal.take (b.journal.length - journalLimit)
  { b with
    journal := b.journal.drop (b.journal.length - journalLimit)
    floor := dropped.foldl (fun floor record => max floor record.1) b.floor }

/-- Take the next sequence number, wake the event's project and journal the event. -/
def append (b : Board) (event : Event) : Board :=
  { b with
    sequence := b.sequence + 1
    changed := match b.eventProject event with
      | none => b.changed
      | some project => b.changed.insert project (b.sequence + 1)
    journal := b.journal ++ [(b.sequence + 1, event)] }

/-- Append first, then project. Retained history is bounded and advertises gaps. -/
def record (b : Board) (event : Event) : Board := ((b.append event).projectEvent event).truncate

/-- Record a batch of events in order. -/
def recordAll (b : Board) (events : List Event) : Board := events.foldl record b

/-- Release the leases of the listed entries, one event for each. -/
def releaseAll (b : Board) (ids : List ℕ) : Board := b.recordAll (ids.map fun id => .claim id none)

/-- Remove the listed entries, one event for each. -/
def removeAll (b : Board) (ids : List ℕ) : Board := b.recordAll (ids.map .remove)

/-- The ids a project's index lists, in increasing order. -/
def projectIds (b : Board) (project : ProjectId) : List ℕ :=
  ((b.projects[project]?).map ExtTreeSet.toList).getD []

/-- The live entries of one project, in id order. -/
def projectEntries (b : Board) (project : ProjectId) : List Entry :=
  (b.projectIds project).filterMap fun id => b.entries[id]?

/-- Structural deletion erases all payload copies and Project controls. -/
def retainProject (b : Board) (project : ProjectId) : Board :=
  let b := b.removeAll (b.projectIds project)
  { b with changed := b.changed.erase project, paused := b.paused.erase project }

def retainProjects (b : Board) (live : ExtTreeSet ProjectId) : Board :=
  (b.changed.keys.filter fun project => !live.contains project).foldl retainProject b

/-- One-shot deadline; an empty board has no idle wakeup. -/
def deadline (b : Board) : Option ℕ :=
  (b.values.flatMap fun e =>
    e.message.expiresMs :: (e.claim.map (·.expiresMs)).toList).min?

/-- Expire bodies and leases on access or the earliest outstanding deadline. -/
def expire (b : Board) (now : ℕ) : Board :=
  let b := b.removeAll (b.idsWhere fun e => e.message.expiresMs ≤ now)
  b.releaseAll (b.idsWhere fun e => e.claim.any fun c => c.expiresMs ≤ now)

/-- Invocation exit releases work immediately without giving a successor ownership. -/
def forgetPane (b : Board) (pane : PaneId) : Board :=
  let b := b.releaseAll (b.idsWhere fun e => e.claim.any fun c => c.owner.onPane pane)
  { b with revoked := b.revoked.filter fun a => !a.onPane pane }

/-- Reject stale incremental cursors without allocating a page. -/
def validateCursor (b : Board) (after : ℕ) : Except Refusal Unit :=
  if after > b.sequence ∨ (after ≠ 0 ∧ after < b.floor) then .error .cursorExpired else .ok ()

/-- The live entries of a project, and optionally of one thread, changed after a cursor. -/
def matching (b : Board) (project : ProjectId) (after : ℕ) (thread : Option ℕ) : List Entry :=
  ((b.projectEntries project).filter fun e =>
    decide (e.changed > after) && thread.all (e.message.thread == ·)).mergeSort
      fun a b => a.changed ≤ b.changed

/-- A page holds at least one entry and at most twenty. -/
def pageSize (limit : ℕ) : ℕ := max 1 (min limit 20)

/-- Project-indexed pagination. -/
def list (b : Board) (project : ProjectId) (after : ℕ) (thread : Option ℕ) (limit : ℕ) :
    Except Refusal Page := do
  b.validateCursor after
  let entries := b.matching project after thread
  let more := decide (entries.length > pageSize limit)
  let entries := entries.take (pageSize limit)
  return {
    entries
    cursor := if more then (entries.getLast?.map (·.changed)).getD after else b.sequence
    floor := b.floor
    more
    paused := b.paused.contains project }

/-- Forget posts older than the one-minute window, and authors without recent posts. -/
def pruneRates (b : Board) (now : ℕ) : Board :=
  { b with rates := b.rates.filterMap fun _ times =>
      let recent := times.dropWhile fun t => 60000 ≤ now - t
      if recent.isEmpty then none else some recent }

/-- The thread and the deadline of a new post: a reply joins its parent's thread and never
outlives the parent. -/
def placement (b : Board) (project : ProjectId) (replyTo : Option ℕ) (ttlMs now : ℕ) :
    Except Refusal (ℕ × ℕ) :=
  match replyTo with
  | none => .ok (b.sequence + 1, saturatingAdd64 now ttlMs)
  | some parent =>
    match b.entries[parent]?.filter fun e => e.message.project == project with
    | none => .error .notFound
    | some parent =>
      if ((b.projectEntries project).filter fun e =>
          e.message.thread == parent.message.thread).length ≥ 100 then .error .threadBudget
      else .ok (parent.message.thread,
        min (saturatingAdd64 now ttlMs) parent.message.expiresMs)

def applyPost (b : Board) (project : ProjectId) (author : Author) (kind : Kind) (body : Text)
    (replyTo : Option ℕ) (recipient : Option Author) (task : Option ℕ) (key : Text) (ttl now : ℕ) :
    Board × Except Refusal (Option ℕ) :=
  if body.isBlank ∨ body.len > bodyLimit ∨
      (body.any fun c => isControl c && c != '\n' && c != '\t') = true ∨
      key.isEmpty ∨ key.len > 128 ∨ ¬(1000 ≤ ttl ∧ ttl ≤ ttlMs) then
    (b, .error .invalidPost)
  else match (b.projectEntries project).find? fun e =>
      e.message.author == author && e.message.key == key with
  | some e =>
    if e.message.repeats kind body replyTo recipient task ttl then (b, .ok (some e.message.id))
    else (b, .error .idempotencyConflict)
  | none =>
    if (b.projectIds project).length ≥ projectLimit ∨ b.bytes + body.len * 2 > byteLimit ∨
        b.entries.size ≥ 4000 then (b, .error .capacity)
    else if ((b.rates[author]?).any fun times => 30 ≤ times.length) = true then
      (b, .error .rateLimited)
    else if author ∉ b.rates ∧ b.rates.size ≥ 1024 then (b, .error .capacity)
    else match b.placement project replyTo ttl now with
    | .error refusal => (b, .error refusal)
    | .ok (thread, expiresMs) =>
      (b.record (.post {
        id := b.sequence + 1, project, author, kind, body, replyTo, thread, recipient, task, key
        createdMs := now, expiresMs, ttlMs := ttl }), .ok (some (b.sequence + 1)))

/-- The live entry an operation names, if it belongs to the caller's project. -/
def entryIn (b : Board) (project : ProjectId) (id : ℕ) : Option Entry :=
  b.entries[id]?.filter fun e => e.message.project == project

def applyAck (b : Board) (project : ProjectId) (author : Author) (id : ℕ) :
    Board × Except Refusal (Option ℕ) :=
  match b.entryIn project id with
  | none => (b, .error .notFound)
  | some e =>
    if author ∈ e.acknowledged then (b, .ok (some id))
    else if e.acknowledged.size ≥ 64 ∨
        (b.values.map fun e => e.acknowledged.size).sum ≥ 4096 then (b, .error .capacity)
    else (b.record (.ack id author), .ok (some id))

def applyClaim (b : Board) (project : ProjectId) (author : Author) (id revision leaseMs now : ℕ) :
    Board × Except Refusal (Option ℕ) :=
  match b.entryIn project id with
  | none => (b, .error .notFound)
  | some e =>
    if e.message.thread ≠ id then (b, .error .claimThreadRoot)
    else if e.revision ≠ revision then (b, .error .revisionConflict)
    else if (e.claim.any fun c => c.owner != author) = true then (b, .error .alreadyClaimed)
    else if (e.message.task.any fun task => b.values.any fun other =>
        other.message.id != id && other.message.task == some task && other.claim.isSome) = true then
      (b, .error .taskAlreadyClaimed)
    else if ¬(1000 ≤ leaseMs ∧ leaseMs ≤ 3600000) then (b, .error .invalidLease)
    else (b.record (.claim id (some {
        owner := author
        revision := revision + 1
        expiresMs := min (saturatingAdd64 now leaseMs) e.message.expiresMs })), .ok (some id))

def applyRelease (b : Board) (project : ProjectId) (author : Author) (id revision : ℕ) :
    Board × Except Refusal (Option ℕ) :=
  match b.entryIn project id with
  | none => (b, .error .notFound)
  | some e =>
    if e.revision ≠ revision then (b, .error .revisionConflict)
    else if author ≠ .human ∧ (e.claim.all fun c => c.owner != author) = true then
      (b, .error .notOwner)
    else if e.claim.isSome then (b.record (.claim id none), .ok (some id))
    else (b, .ok (some id))

def applyRevoke (b : Board) (author : Author) : Board × Except Refusal (Option ℕ) :=
  if author = .human then (b, .error .invalidRecipient)
  else if author ∈ b.revoked then (b, .ok none)
  else if b.revoked.size ≥ 1024 then (b, .error .capacity)
  else
    let b := b.record (.revoke author)
    (b.releaseAll (b.idsWhere fun e => e.claim.any fun c => c.owner == author), .ok none)

/-- Validate, append an event, and return the changed post id. -/
def apply (b : Board) (project : ProjectId) (author : Author) (op : Operation) (now : ℕ) :
    Board × Except Refusal (Option ℕ) :=
  let b := (b.expire now).pruneRates now
  if author ∈ b.revoked then (b, .error .revoked)
  else if project ∈ b.paused ∧ author ≠ .human then (b, .error .paused)
  else match op with
  | .credential => if author ≠ .human then (b.record (.grant author), .ok none)
      else (b, .error .forbidden)
  | .post kind body replyTo recipient task key ttl =>
    b.applyPost project author kind body replyTo recipient task key ttl now
  | .ack id => b.applyAck project author id
  | .claim id revision leaseMs => b.applyClaim project author id revision leaseMs now
  | .release id revision => b.applyRelease project author id revision
  | .pause paused =>
    if author ≠ .human then (b, .error .forbidden)
    else if b.paused.contains project ≠ paused then (b.record (.pause project paused), .ok none)
    else (b, .ok none)
  | .clear confirmed =>
    if author = .human ∧ confirmed then
      (b.removeAll (b.projectIds project), .ok none)
    else (b, .error .forbidden)
  | .revoke target => if author = .human then b.applyRevoke target else (b, .error .forbidden)
  | .discover | .list .. | .watch .. => (b, .error .forbidden)

end Board

/-- One call on the board. Calls are atomic: the runtime owns the board on a single thread. -/
inductive Call where
  | apply (project : ProjectId) (author : Author) (op : Operation) (now : ℕ)
  | expire (now : ℕ)
  | forgetPane (pane : PaneId)
  | retainProjects (live : ExtTreeSet ProjectId)

def Board.call (b : Board) : Call → Board
  | .apply project author op now => (b.apply project author op now).1
  | .expire now => b.expire now
  | .forgetPane pane => b.forgetPane pane
  | .retainProjects live => b.retainProjects live

/-- No call aborts the process. -/
def Board.step (b : Board) (c : Call) : Option Board := some (b.call c)

/-- The board after a sequence of calls on an empty one. -/
def Board.after (calls : List Call) : Board := calls.foldl Board.call {}

end Uniterm.Model.Inbox
