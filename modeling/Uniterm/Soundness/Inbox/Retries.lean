import Uniterm.Soundness.Inbox.Growth
import Uniterm.Soundness.Inbox.Threads

/-! # Retries and rates

A refused operation leaves the board that expiry and pruning made, because recording comes after every check.
A key stays with its author's post while the post is live, so a retry finds the post it repeats. The rate windows
are kept apart from the entries: the invariant is that the times an author's window has dropped are a minute
old by the last clock reading.
-/

namespace Uniterm.Model.Inbox.Board

open Std

variable {b b' b'' : Board}

section Thinned

/-- No post has been added. -/
def Thinned (b b' : Board) : Prop := ∀ id m, b'.messageAt id = some m → b.messageAt id = some m

theorem Thinned.trans (before : Thinned b b') (after : Thinned b' b'') : Thinned b b'' :=
  fun id m found => before id m (after id m found)

/-- The events that add no post. -/
def Quiet (events : List Event) : Prop := ∀ event ∈ events, ∀ m, event ≠ .post m

theorem quiet_map {make : ℕ → Event} (silent : ∀ id m, make id ≠ .post m) (ids : List ℕ) : Quiet (ids.map make) := by
  intro event member
  obtain ⟨id, -, rfl⟩ := List.mem_map.mp member
  exact silent id

private theorem thinned_record {event : Event} (quiet : ∀ m, event ≠ .post m) : Thinned b (b.record event) := by
  intro id m found
  rw [record_messageAt] at found
  cases event with
  | post m => exact absurd rfl (quiet m)
  | remove gone =>
    dsimp only at found
    split at found
    · contradiction
    · exact found
  | _ => exact found

private theorem thinned_recordAll {events : List Event} (quiet : Quiet events) : Thinned b (b.recordAll events) := by
  induction events generalizing b with
  | nil => rw [recordAll_nil]; exact fun _ _ => id
  | cons event rest ih =>
    rw [recordAll_cons]
    exact (thinned_record (quiet event (List.mem_cons_self ..))).trans
      (ih fun other member => quiet other (List.mem_cons_of_mem _ member))

private theorem thinned_removeAll (b : Board) (ids : List ℕ) : Thinned b (b.removeAll ids) :=
  thinned_recordAll (quiet_map (by simp) ids)

private theorem thinned_releaseAll (b : Board) (ids : List ℕ) : Thinned b (b.releaseAll ids) :=
  thinned_recordAll (quiet_map (by simp) ids)

private theorem thinned_expire (b : Board) (now : ℕ) : Thinned b (b.expire now) :=
  (thinned_removeAll b _).trans (thinned_releaseAll _ _)

/-- Neither the posts nor the sequence are touched by pruning the rates. -/
theorem thinned_housekeeping (b : Board) (now : ℕ) : Thinned b ((b.expire now).pruneRates now) :=
  thinned_expire b now

private theorem thinned_retainProjects (b : Board) (live : ExtTreeSet ProjectId) :
    Thinned b (b.retainProjects live) := by
  unfold retainProjects
  generalize b.changed.keys.filter (fun project => !live.contains project) = gone
  induction gone generalizing b with
  | nil => exact fun _ _ => id
  | cons project rest ih =>
    have retired : Thinned b (b.retainProject project) := thinned_removeAll b (b.projectIds project)
    exact retired.trans (ih _)

/-- The only call that adds a post is one answered with a new id. -/
theorem apply_thinned_or_posted (b : Board) (project : ProjectId) (author : Author) (op : Operation) (now : ℕ) :
    Thinned ((b.expire now).pruneRates now) (b.apply project author op now).1 ∨
      ∃ m : Message,
        (∀ e ∈ ((b.expire now).pruneRates now).projectEntries m.project,
          ¬ (e.message.author = m.author ∧ e.message.key = m.key)) ∧
        (b.apply project author op now).1 = ((b.expire now).pruneRates now).record (.post m) := by
  obtain ⟨events, answers, recorded⟩ := b.apply_answers project author op now
  rw [recorded]
  generalize (b.apply project author op now).2 = answer at answers
  generalize (b.expire now).pruneRates now = b at answers ⊢
  cases answers with
  | post kind body replyTo recipient task key ttl thread expiresMs valid unused rated =>
    exact .inr ⟨_, unused, by rw [recordAll_cons, recordAll_nil]⟩
  | refused | repost | acked | standing | revoked => exact .inl (by rw [recordAll_nil]; exact fun _ _ => id)
  | clear confirmed => exact .inl (thinned_removeAll b _)
  | release id revision events released =>
    refine .inl (thinned_recordAll fun event member m same => ?_)
    rcases released with rfl | rfl <;> simp [same] at member
  | revoke target ids admitted =>
    refine .inl (thinned_recordAll fun event member m same => ?_)
    simp [same] at member
  | credential | ack | claim | pause =>
    refine .inl (thinned_recordAll fun event member m same => ?_)
    simp [same] at member

end Thinned

section Keys

/-- An author uses a key once in a project while the post is live. -/
def KeysUnique (b : Board) : Prop :=
  ∀ id other m m', b.messageAt id = some m → b.messageAt other = some m' → m.project = m'.project →
    m.author = m'.author → m.key = m'.key → id = other

theorem KeysUnique.thinned (unique : b.KeysUnique) (thin : Thinned b b') : b'.KeysUnique :=
  fun id other m m' found found' => unique id other m m' (thin id m found) (thin other m' found')

theorem WellFormed.mem_projectEntries (wf : b.WellFormed) {project : ProjectId} {e : Entry} :
    e ∈ b.projectEntries project ↔ b.entries[e.message.id]? = some e ∧ e.message.project = project := by
  rw [projectEntries, List.mem_filterMap]
  constructor
  · rintro ⟨id, listed, read⟩
    obtain ⟨e', read', same⟩ := (wf.indexed project id).mp listed
    obtain rfl := Option.some.inj (read.symm.trans read')
    exact ⟨by rw [wf.keyed id e read]; exact read, same⟩
  · rintro ⟨read, same⟩
    exact ⟨_, (wf.indexed project _).mpr ⟨e, read, same⟩, read⟩

/-- The new post's key was unused in its project by its author. -/
theorem KeysUnique.posted (wf : b.WellFormed) (unique : b.KeysUnique) {m : Message}
    (unused : ∀ e ∈ b.projectEntries m.project, ¬ (e.message.author = m.author ∧ e.message.key = m.key)) :
    (b.record (.post m)).KeysUnique := by
  have old : ∀ id m', b.messageAt id = some m' → m'.project = m.project → m'.author = m.author →
      m'.key ≠ m.key := by
    intro id m' found inside author same
    obtain ⟨e, read, rfl⟩ := messageAt_eq_some_iff.mp found
    exact unused e (wf.mem_projectEntries.mpr ⟨by rw [wf.keyed id e read]; exact read, inside⟩) ⟨author, same⟩
  intro id other m₁ m₂ found found' inside author same
  rw [record_messageAt] at found found'
  dsimp only at found found'
  split at found <;> split at found'
  · next first_new second_new => exact first_new.symm.trans second_new
  · obtain rfl := Option.some.inj found
    exact absurd same.symm (old other m₂ found' inside.symm author.symm)
  · obtain rfl := Option.some.inj found'
    exact absurd same (old id m₁ found inside author)
  · exact unique id other m₁ m₂ found found' inside author same

theorem KeysUnique.call (wf : b.WellFormed) (unique : b.KeysUnique) (c : Call) : (b.call c).KeysUnique := by
  cases c with
  | apply project author op now =>
    have swept := unique.thinned (thinned_housekeeping b now)
    rcases b.apply_thinned_or_posted project author op now with thin | ⟨m, unused, same⟩
    · exact swept.thinned thin
    · change (b.apply project author op now).1.KeysUnique
      rw [same]
      exact swept.posted (wf.moves (b.moves_housekeeping now)) unused
  | expire now => exact unique.thinned (thinned_expire b now)
  | forgetPane pane => exact unique.thinned (thinned_releaseAll b _)
  | retainProjects live => exact unique.thinned (thinned_retainProjects b live)

private theorem after_keysUnique (calls : List Call) : (after calls).KeysUnique := by
  have keeps {b : Board} (wf : b.WellFormed) (unique : b.KeysUnique) : (calls.foldl Board.call b).KeysUnique := by
    induction calls generalizing b with
    | nil => exact unique
    | cons c rest ih => exact ih (wf.moves (@step_moves _ _ c rfl)) (unique.call wf c)
  exact keeps wellFormed_empty (by simp [KeysUnique, messageAt])

end Keys

section Posts

/-- What a retry must repeat, besides the key. -/
@[ext] structure Content where
  kind : Kind
  body : Text
  replyTo : Option ℕ
  recipient : Option Author
  task : Option ℕ
  ttl : ℕ
deriving DecidableEq

def Content.post (c : Content) (key : Text) : Operation :=
  .post c.kind c.body c.replyTo c.recipient c.task key c.ttl

/-- The content a post was made with. -/
def contentOf (m : Message) : Content := ⟨m.kind, m.body, m.replyTo, m.recipient, m.task, m.ttlMs⟩

private theorem repeats_iff {m : Message} {c : Content} :
    m.repeats c.kind c.body c.replyTo c.recipient c.task c.ttl = true ↔ contentOf m = c := by
  simp only [Message.repeats, contentOf, Content.ext_iff, Bool.and_eq_true, beq_iff_eq, and_assoc]

/-- The board an operation works on: entries and leases expired, rate windows pruned. -/
abbrev swept (b : Board) (now : ℕ) : Board := (b.expire now).pruneRates now

/-- A post is immutable. -/
theorem message_durable (m : Message) : Durable fun e => e.message = m where
  acked _ _ _ same := same
  claimed _ _ _ same := same

/-- A post answered with an id has that id, and keeps it. -/
theorem Answers.sealed (wf : b.WellFormed) {project : ProjectId} {author : Author} {c : Content} {key : Text}
    {now id : ℕ} {op : Operation} {answer : Except Refusal (Option ℕ)} {events : List Event}
    (answers : Answers b project author now op events answer) (posted : op = c.post key)
    (accepted : answer = .ok (some id)) :
    PostValid c.body key c.ttl ∧ ∃ m : Message, m.project = project ∧ m.author = author ∧ m.key = key ∧
      contentOf m = c ∧ Lasting id (·.message = m) (b.recordAll events) := by
  cases answers with
  | repost kind body replyTo recipient task key' ttl e valid live authored keyed repeats =>
    obtain ⟨rfl, rfl, rfl, rfl, rfl, rfl, rfl⟩ := Operation.post.inj posted
    obtain rfl := Option.some.inj (Except.ok.inj accepted)
    obtain ⟨read, inside⟩ := wf.mem_projectEntries.mp live
    refine ⟨valid, e.message, inside, authored, keyed, repeats_iff.mp repeats, ?_⟩
    rw [recordAll_nil]
    refine ⟨(wf.bounded _ e read).1, fun e' found => ?_⟩
    rw [Option.some.inj (found.symm.trans read)]
  | post kind body replyTo recipient task key' ttl thread expiresMs valid unused rated =>
    obtain ⟨rfl, rfl, rfl, rfl, rfl, rfl, rfl⟩ := Operation.post.inj posted
    obtain rfl := Option.some.inj (Except.ok.inj accepted)
    refine ⟨valid, {
      id := b.sequence + 1, project, author, kind := c.kind, body := c.body, replyTo := c.replyTo, thread
      recipient := c.recipient, task := c.task, key := key', createdMs := now, expiresMs, ttlMs := c.ttl },
      rfl, rfl, rfl, rfl, ?_⟩
    rw [recordAll_cons, recordAll_nil]
    refine ⟨by rw [record_sequence], fun e' found => ?_⟩
    rw [record_entries, entryAfter, if_pos rfl] at found
    rw [← Option.some.inj found]
  | refused => contradiction
  | _ => cases posted

/-- Under a live key of its author a post records nothing: it repeats the live post or conflicts with it. -/
theorem applyPost_live (wf : b.WellFormed) (unique : b.KeysUnique) {m : Message} {id : ℕ}
    (found : b.messageAt id = some m) {c : Content} (valid : PostValid c.body m.key c.ttl) (now : ℕ) :
    b.applyPost m.project m.author c.kind c.body c.replyTo c.recipient c.task m.key c.ttl now =
      (b, if contentOf m = c then .ok (some id) else .error .idempotencyConflict) := by
  obtain ⟨e, read, rfl⟩ := messageAt_eq_some_iff.mp found
  have own := wf.keyed id e read
  have live : e ∈ b.projectEntries e.message.project := wf.mem_projectEntries.mpr ⟨by rw [own]; exact read, rfl⟩
  have first_found : (b.projectEntries e.message.project).find? (fun other =>
      other.message.author == e.message.author && other.message.key == e.message.key) = some e := by
    cases searched : (b.projectEntries e.message.project).find? (fun other =>
        other.message.author == e.message.author && other.message.key == e.message.key) with
    | none => simpa using List.find?_eq_none.mp searched e live
    | some other =>
      obtain ⟨author, key⟩ : other.message.author = e.message.author ∧ other.message.key = e.message.key := by
        simpa using List.find?_some searched
      obtain ⟨read', inside⟩ := wf.mem_projectEntries.mp (List.mem_of_find?_eq_some searched)
      have same : other.message.id = id := unique _ _ other.message e.message
        (messageAt_eq_some_iff.mpr ⟨other, read', rfl⟩) found inside author key
      rw [same] at read'
      exact read'.symm.trans read
  unfold applyPost
  rw [if_neg valid, first_found]
  dsimp only
  by_cases same : contentOf e.message = c
  · rw [if_pos (repeats_iff.mpr same), if_pos same, own]
  · rw [if_neg (fun repeats => same (repeats_iff.mp repeats)), if_neg same]

/-- While a post answered with an id is live, its author's next post under the key in the project records nothing:
the same content gets the id again, another content that passes its own checks the conflict. The gates of
every operation come first: the author is not revoked, and the project is not paused for it. -/
def PostsRepeat (b : Board) : Prop :=
  ∀ project author c key now id, (b.apply project author (Content.post c key) now).2 = .ok (some id) →
    ∀ (calls : List Call) now' c',
      let later := calls.foldl call (b.apply project author (c.post key) now).1
      id ∈ (later.swept now').entries → author ∉ (later.swept now').revoked →
      (project ∈ (later.swept now').paused → author = .human) →
      (c' = c → later.apply project author (c'.post key) now' = (later.swept now', .ok (some id))) ∧
      (c' ≠ c → PostValid c'.body key c'.ttl →
        later.apply project author (c'.post key) now' = (later.swept now', .error .idempotencyConflict))

theorem after_postsRepeat (earlier : List Call) : (after earlier).PostsRepeat := by
  intro project author c key now id accepted calls now' c' later live admitted running
  have wf : (after earlier).WellFormed := (reached_after earlier).wellFormed
  have swept_wf := wf.moves (moves_housekeeping _ now)
  obtain ⟨events, answers, recorded⟩ := (after earlier).apply_answers project author (c.post key) now
  obtain ⟨valid, m, rfl, rfl, rfl, rfl, kept⟩ := answers.sealed swept_wf rfl accepted
  rw [← recorded] at kept
  have posted : later = after (earlier ++ [.apply m.project m.author ((contentOf m).post m.key) now] ++ calls) := by
    simp only [later, after, List.foldl_append, List.foldl_cons, List.foldl_nil, call]
  have wf' : later.WellFormed := posted ▸ (reached_after _).wellFormed
  have unique : (later.swept now').KeysUnique :=
    (posted ▸ after_keysUnique _ : later.KeysUnique).thinned (thinned_housekeeping later now')
  have stays : Lasting id (·.message = m) (later.swept now') :=
    (kept.calls (message_durable m) calls).moves (message_durable m) (moves_housekeeping later now')
  have swept_wf' : (later.swept now').WellFormed := wf'.moves (moves_housekeeping _ now')
  have found : (later.swept now').messageAt id = some m := by
    have read := ExtTreeMap.getElem?_eq_some_getElem live
    exact messageAt_eq_some_iff.mpr ⟨_, read, stays.2 _ read⟩
  have answer (c' : Content) (valid : PostValid c'.body m.key c'.ttl) :
      later.apply m.project m.author (c'.post m.key) now' = (later.swept now',
        if contentOf m = c' then .ok (some id) else .error .idempotencyConflict) := by
    have open_gate : ¬ (m.project ∈ (later.swept now').paused ∧ m.author ≠ .human) :=
      fun closed => closed.2 (running closed.1)
    unfold apply
    dsimp only
    rw [if_neg admitted, if_neg open_gate]
    exact applyPost_live swept_wf' unique found valid now'
  constructor
  · rintro rfl
    rw [answer _ valid, if_pos rfl]
  · intro differs valid'
    rw [answer c' valid', if_neg (Ne.symm differs)]

end Posts

section Refusals

theorem Answers.silent {project : ProjectId} {author : Author} {now : ℕ} {op : Operation} {events : List Event}
    {answer : Except Refusal (Option ℕ)} {refusal : Refusal} (answers : Answers b project author now op events answer)
    (refused : answer = .error refusal) : events = [] := by
  cases answers with
  | refused => rfl
  | _ => contradiction

/-- A refused operation leaves what expiry and pruning alone leave. -/
theorem apply_refused {project : ProjectId} {author : Author} {op : Operation} {now : ℕ} {refusal : Refusal}
    (refused : (b.apply project author op now).2 = .error refusal) :
    (b.apply project author op now).1 = b.swept now := by
  obtain ⟨events, answers, recorded⟩ := b.apply_answers project author op now
  rw [recorded, answers.silent refused, recordAll_nil]

end Refusals

section Controls

private theorem record_paused (b : Board) (event : Event) : (b.record event).paused =
    match event with
    | .pause project paused => if paused then b.paused.insert project else b.paused.erase project
    | _ => b.paused := by
  rw [record, truncate]
  cases event with
  | remove id => simp only [projectEvent]; split <;> rfl
  | _ => rfl

/-- The events that leave one project's pause flag alone. -/
theorem recordAll_paused {project : ProjectId} {events : List Event}
    (spared : ∀ event ∈ events, ∀ other paused, event = .pause other paused → other ≠ project) :
    project ∈ (b.recordAll events).paused ↔ project ∈ b.paused := by
  induction events generalizing b with
  | nil => rw [recordAll_nil]
  | cons event rest ih =>
    rw [recordAll_cons, ih fun other member => spared other (List.mem_cons_of_mem _ member), record_paused]
    cases event with
    | pause other paused =>
      have apart := spared _ (List.mem_cons_self ..) other paused rfl
      dsimp only
      split
      · simp [ExtTreeSet.mem_insert, apart]
      · simp [ExtTreeSet.mem_erase, apart]
    | _ => rfl

private theorem removeAll_paused (b : Board) (ids : List ℕ) (project : ProjectId) :
    project ∈ (b.removeAll ids).paused ↔ project ∈ b.paused :=
  recordAll_paused (by simp)

private theorem releaseAll_paused (b : Board) (ids : List ℕ) (project : ProjectId) :
    project ∈ (b.releaseAll ids).paused ↔ project ∈ b.paused :=
  recordAll_paused (by simp)

private theorem swept_paused (b : Board) (now : ℕ) (project : ProjectId) :
    project ∈ (b.swept now).paused ↔ project ∈ b.paused :=
  (releaseAll_paused ..).trans (removeAll_paused ..)

private theorem swept_revoked (b : Board) (now : ℕ) : (b.swept now).revoked = (b.expire now).revoked := by
  unfold swept pruneRates
  rfl

private theorem expire_paused (b : Board) (now : ℕ) (project : ProjectId) :
    project ∈ (b.expire now).paused ↔ project ∈ b.paused :=
  swept_paused b now project

/-- The calls that leave a project's pause flag alone: no pause of it, and no removal of it. -/
def SparesPause (project : ProjectId) : Call → Prop
  | .apply other _ (.pause _) _ => other ≠ project
  | .retainProjects live => project ∈ live
  | _ => True

private theorem call_paused {project : ProjectId} {c : Call} (spares : SparesPause project c) :
    project ∈ (b.call c).paused ↔ project ∈ b.paused := by
  cases c with
  | apply other author op now =>
    obtain ⟨events, answers, recorded⟩ := b.apply_answers other author op now
    change project ∈ (b.apply other author op now).1.paused ↔ _
    rw [recorded, ← swept_paused b now]
    refine recordAll_paused fun event member touched paused same => ?_
    generalize (b.apply other author op now).2 = answer at answers
    cases answers with
    | pause => simp_all [SparesPause]
    | release id revision events released => rcases released with rfl | rfl <;> simp [same] at member
    | _ => simp [same] at member
  | expire now => exact expire_paused ..
  | forgetPane pane => exact releaseAll_paused ..
  | retainProjects live =>
    change project ∈ (b.retainProjects live).paused ↔ _
    unfold retainProjects
    have gone_apart : ∀ gone ∈ b.changed.keys.filter (fun gone => !live.contains gone), gone ≠ project := by
      rintro gone member rfl
      have inside : gone ∈ live := spares
      rw [List.mem_filter, ExtTreeSet.contains_iff_mem.mpr inside] at member
      exact Bool.noConfusion member.2
    generalize b.changed.keys.filter (fun gone => !live.contains gone) = gone at gone_apart
    induction gone generalizing b with
    | nil => exact Iff.rfl
    | cons first_gone rest ih =>
      refine (ih fun other member => gone_apart other (List.mem_cons_of_mem _ member)).trans ?_
      rw [retainProject]
      have apart := gone_apart first_gone (List.mem_cons_self ..)
      simp [ExtTreeSet.mem_erase, apart, removeAll_paused]

private theorem calls_paused {project : ProjectId} {calls : List Call} (spare : ∀ c ∈ calls, SparesPause project c) :
    project ∈ (calls.foldl call b).paused ↔ project ∈ b.paused := by
  induction calls generalizing b with
  | nil => exact Iff.rfl
  | cons c rest ih =>
    exact (ih fun other member => spare other (List.mem_cons_of_mem _ member)).trans
      (call_paused (spare c (List.mem_cons_self ..)))

/-- The calls that readmit nobody but authors of other panes. -/
def SparesRevocation (target : Author) : Call → Prop
  | .forgetPane pane => target.onPane pane = false
  | _ => True

theorem Held.call (held : b.Held) (c : Call) : (b.call c).Held := by
  cases c with
  | apply project author op now => exact (held.apply project author op now).held
  | expire now => exact (held.expire now).held
  | forgetPane pane => exact (held.forgetPane pane).held
  | retainProjects live => exact (held.retainProjects live).held

private theorem calls_held (held : b.Held) (calls : List Call) : (calls.foldl call b).Held := by
  induction calls generalizing b with
  | nil => exact held
  | cons c rest ih => exact ih (held.call c)

private theorem calls_revoked (held : b.Held) {target : Author} (revoked : target ∈ b.revoked) {calls : List Call}
    (spare : ∀ c ∈ calls, SparesRevocation target c) : target ∈ (calls.foldl call b).revoked := by
  induction calls generalizing b with
  | nil => exact revoked
  | cons c rest ih =>
    refine ih (held.call c) ?_ fun other member => spare other (List.mem_cons_of_mem _ member)
    have spares := spare c (List.mem_cons_self ..)
    cases c with
    | apply project author op now => exact (held.apply project author op now).revoked target trivial revoked
    | expire now => exact (held.expire now).revoked target trivial revoked
    | forgetPane pane => exact (held.forgetPane pane).revoked target spares revoked
    | retainProjects live => exact (held.retainProjects live).revoked target trivial revoked

/-- A receipt, a pause or a revocation that has been accepted records nothing when it is asked for again, and its
author's other calls or those of others may come in between: any calls after a receipt, those that leave the
flag alone after a pause, those that do not forget the target's pane after a revocation. -/
structure ControlsRepeat (b : Board) : Prop where
  ack : ∀ project author id now answer, (b.apply project author (.ack id) now).2 = .ok answer →
    ∀ (calls : List Call) now', let later := calls.foldl call (b.apply project author (.ack id) now).1
      (later.apply project author (.ack id) now').1 = later.swept now'
  pause : ∀ project author paused now answer, (b.apply project author (.pause paused) now).2 = .ok answer →
    ∀ (calls : List Call) now', (∀ c ∈ calls, SparesPause project c) →
      let later := calls.foldl call (b.apply project author (.pause paused) now).1
      (later.apply project author (.pause paused) now').1 = later.swept now'
  revoke : ∀ project author target now answer, (b.apply project author (.revoke target) now).2 = .ok answer →
    ∀ (calls : List Call) now', (∀ c ∈ calls, SparesRevocation target c) →
      let later := calls.foldl call (b.apply project author (.revoke target) now).1
      (later.apply project author (.revoke target) now').1 = later.swept now'

/-- A receipt is in force once it is accepted. -/
theorem Answers.acknowledged (wf : b.WellFormed) {project : ProjectId} {author : Author} {now id : ℕ} {op : Operation}
    {events : List Event} {answer : Except Refusal (Option ℕ)} (answers : Answers b project author now op events answer)
    (asked : op = .ack id) (accepted : ∀ refusal, answer ≠ .error refusal) :
    Lasting id (fun e => author ∈ e.acknowledged) (b.recordAll events) := by
  cases answers with
  | acked id' e read acknowledged =>
    obtain rfl := Operation.ack.inj asked
    rw [recordAll_nil]
    refine ⟨(wf.bounded _ e read).1, fun e' found => ?_⟩
    rw [Option.some.inj (found.symm.trans read)]
    exact acknowledged
  | ack id' e read pending =>
    obtain rfl := Operation.ack.inj asked
    rw [recordAll_cons, recordAll_nil]
    refine ⟨?_, fun e' found => ?_⟩
    · rw [record_sequence]
      exact Nat.le_succ_of_le (wf.bounded _ e read).1
    · rw [record_entries, entryAfter, if_pos rfl, read, Option.map_some] at found
      rw [← Option.some.inj found]
      exact ExtTreeSet.mem_insert_self
  | refused op refusal => exact absurd rfl (accepted refusal)
  | _ => cases asked

private theorem acknowledged_durable (author : Author) : Durable fun e => author ∈ e.acknowledged where
  acked _ _ _ held := ExtTreeSet.mem_insert.mpr (.inr held)
  claimed _ _ _ held := held

/-- A receipt in force is not recorded again. -/
theorem Answers.silent_ack {project : ProjectId} {author : Author} {now id : ℕ} {op : Operation} {events : List Event}
    {answer : Except Refusal (Option ℕ)} (answers : Answers b project author now op events answer)
    (asked : op = .ack id) (force : Lasting id (fun e => author ∈ e.acknowledged) b) : events = [] := by
  cases answers with
  | refused | acked => rfl
  | ack id' e read pending =>
    obtain rfl := Operation.ack.inj asked
    exact absurd (force.2 e read) pending
  | _ => cases asked

/-- A pause flag is as asked once the pause is accepted. -/
theorem Answers.flagged {project : ProjectId} {author : Author} {now : ℕ} {paused : Bool} {op : Operation}
    {events : List Event} {answer : Except Refusal (Option ℕ)} (answers : Answers b project author now op events answer)
    (asked : op = .pause paused) (accepted : ∀ refusal, answer ≠ .error refusal) :
    project ∈ (b.recordAll events).paused ↔ paused = true := by
  cases answers with
  | standing paused' already =>
    obtain rfl := Operation.pause.inj asked
    rw [recordAll_nil, ← already, ExtTreeSet.contains_iff_mem]
  | pause paused' changes =>
    obtain rfl := Operation.pause.inj asked
    rw [recordAll_cons, recordAll_nil, record_paused]
    cases paused' <;> simp
  | refused op refusal => exact absurd rfl (accepted refusal)
  | _ => cases asked

theorem Answers.silent_pause {project : ProjectId} {author : Author} {now : ℕ} {paused : Bool} {op : Operation}
    {events : List Event} {answer : Except Refusal (Option ℕ)} (answers : Answers b project author now op events answer)
    (asked : op = .pause paused) (force : project ∈ b.paused ↔ paused = true) : events = [] := by
  cases answers with
  | refused | standing => rfl
  | pause paused' changes =>
    obtain rfl := Operation.pause.inj asked
    exact absurd (Bool.eq_iff_iff.mpr (ExtTreeSet.contains_iff_mem.trans force)) changes
  | _ => cases asked

/-- A revocation is in force once it is accepted. -/
theorem Answers.revoked_force {project : ProjectId} {author target : Author} {now : ℕ} {op : Operation}
    {events : List Event} {answer : Except Refusal (Option ℕ)} (answers : Answers b project author now op events answer)
    (asked : op = .revoke target) (accepted : ∀ refusal, answer ≠ .error refusal) :
    target ∈ (b.recordAll events).revoked := by
  cases answers with
  | revoked target' already =>
    obtain rfl := Operation.revoke.inj asked
    rwa [recordAll_nil]
  | revoke target' ids admitted =>
    obtain rfl := Operation.revoke.inj asked
    rw [recordAll_cons]
    change target' ∈ ((b.record (.revoke target')).releaseAll ids).revoked
    rw [releaseAll_revoked, record_revoked]
    exact ExtTreeSet.mem_insert_self
  | refused op refusal => exact absurd rfl (accepted refusal)
  | _ => cases asked

theorem Answers.silent_revoke {project : ProjectId} {author target : Author} {now : ℕ} {op : Operation}
    {events : List Event} {answer : Except Refusal (Option ℕ)} (answers : Answers b project author now op events answer)
    (asked : op = .revoke target) (force : target ∈ b.revoked) : events = [] := by
  cases answers with
  | refused | revoked => rfl
  | revoke target' ids admitted =>
    obtain rfl := Operation.revoke.inj asked
    exact absurd force admitted
  | _ => cases asked

theorem after_controlsRepeat (earlier : List Call) : (after earlier).ControlsRepeat := by
  have wf : (after earlier).WellFormed := (reached_after earlier).wellFormed
  have held : (after earlier).Held := calls_held held_empty earlier
  have unrefused {answer : Except Refusal (Option ℕ)} {id : Option ℕ} (accepted : answer = .ok id) :
      ∀ refusal, answer ≠ .error refusal := fun refusal refused => nomatch accepted.symm.trans refused
  constructor
  · intro project author id now answer accepted calls now' later
    obtain ⟨events, answers, recorded⟩ := (after earlier).apply_answers project author (.ack id) now
    have force := answers.acknowledged (wf.moves (moves_housekeeping _ now)) rfl (unrefused accepted)
    rw [← recorded] at force
    have lasts := (force.calls (acknowledged_durable author) calls).moves (acknowledged_durable author)
      (moves_housekeeping later now')
    obtain ⟨events', answers', recorded'⟩ := later.apply_answers project author (.ack id) now'
    rw [recorded', answers'.silent_ack rfl lasts, recordAll_nil]
  · intro project author paused now answer accepted calls now' spare later
    obtain ⟨events, answers, recorded⟩ := (after earlier).apply_answers project author (.pause paused) now
    have force := answers.flagged rfl (unrefused accepted)
    rw [← recorded] at force
    have lasts : project ∈ (later.swept now').paused ↔ paused = true :=
      (swept_paused later now' project).trans ((calls_paused spare).trans force)
    obtain ⟨events', answers', recorded'⟩ := later.apply_answers project author (.pause paused) now'
    rw [recorded', answers'.silent_pause rfl lasts, recordAll_nil]
  · intro project author target now answer accepted calls now' spare later
    obtain ⟨events, answers, recorded⟩ := (after earlier).apply_answers project author (.revoke target) now
    have force := answers.revoked_force rfl (unrefused accepted)
    rw [← recorded] at force
    have held' := (held.apply project author (.revoke target) now).held
    have lasts : target ∈ (later.swept now').revoked := by
      have revoked : target ∈ later.revoked := calls_revoked held' force spare
      have held'' : later.Held := calls_held held' calls
      rw [swept_revoked]
      exact (held''.expire now').revoked target trivial revoked
    obtain ⟨events', answers', recorded'⟩ := later.apply_answers project author (.revoke target) now'
    rw [recorded', answers'.silent_revoke rfl lasts, recordAll_nil]

end Controls

end Uniterm.Model.Inbox.Board
