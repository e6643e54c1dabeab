import Uniterm.Soundness.Inbox.Moves

/-! # Exclusive claims

A claim is optimistic: it succeeds only against the entry's current revision, and every claim,
release, lease expiry, revocation and pane exit raises that revision. `Exclusive` is the invariant
of the stored claims; `Outdated` is the fact about one id that survives every later call and makes
a second claim from the same revision fail, even after the entry itself is gone.
-/

namespace Uniterm.Model.Inbox.Board

open Std (ExtTreeSet)

structure Exclusive (b : Board) : Prop where
  root : ∀ (id : ℕ) e c, b.entries[id]? = some e → e.claim = some c → e.message.thread = id
  revision : ∀ (id : ℕ) e c, b.entries[id]? = some e → e.claim = some c → c.revision = e.revision
  lease : ∀ (id : ℕ) e c, b.entries[id]? = some e → e.claim = some c →
    c.expiresMs ≤ e.message.expiresMs
  task : ∀ (id other : ℕ) e e' task, b.entries[id]? = some e → b.entries[other]? = some e' →
    e.claim.isSome → e'.claim.isSome → e.message.task = some task → e'.message.task = some task →
    id = other
  granted : ∀ (id : ℕ) e c, b.entries[id]? = some e → e.claim = some c → c.owner ∉ b.revoked

private theorem exclusive_empty : Exclusive {} where
  root := by simp
  revision := by simp
  lease := by simp
  task := by simp
  granted := by simp

/-- A claim that a move leaves in place, on an entry that keeps its post and its revision. -/
def Carried (b : Board) (id : ℕ) (e : Entry) (c : Claim) : Prop :=
  ∃ old, b.entries[id]? = some old ∧ old.message = e.message ∧ old.revision = e.revision ∧
    old.claim = some c

/-- Dropping claims, and adding none, keeps the remaining ones exclusive. -/
private theorem Exclusive.of_carried {b b' : Board} (exclusive : b.Exclusive)
    (carried : ∀ (id : ℕ) e c, b'.entries[id]? = some e → e.claim = some c →
      b.Carried id e c ∧ c.owner ∉ b'.revoked) : b'.Exclusive where
  root id e c read held := by
    obtain ⟨⟨old, found, message, _, claim⟩, _⟩ := carried id e c read held
    exact message ▸ exclusive.root id old c found claim
  revision id e c read held := by
    obtain ⟨⟨old, found, _, revision, claim⟩, _⟩ := carried id e c read held
    exact revision ▸ exclusive.revision id old c found claim
  lease id e c read held := by
    obtain ⟨⟨old, found, message, _, claim⟩, _⟩ := carried id e c read held
    exact message ▸ exclusive.lease id old c found claim
  task id other e e' task read read' held held' tagged tagged' := by
    obtain ⟨c, held⟩ := Option.isSome_iff_exists.mp held
    obtain ⟨c', held'⟩ := Option.isSome_iff_exists.mp held'
    obtain ⟨⟨old, found, message, _, claim⟩, _⟩ := carried id e c read held
    obtain ⟨⟨old', found', message', _, claim'⟩, _⟩ := carried other e' c' read' held'
    exact exclusive.task id other old old' task found found' (by simp [claim]) (by simp [claim'])
      (message ▸ tagged) (message' ▸ tagged')
  granted id e c read held := (carried id e c read held).2

/-- An entry that is still there unchanged carries its claim. -/
private theorem Exclusive.of_kept {b b' : Board} (exclusive : b.Exclusive)
    (kept : ∀ (id : ℕ) e, b'.entries[id]? = some e → b.entries[id]? = some e)
    (revoked : b'.revoked = b.revoked) : b'.Exclusive :=
  exclusive.of_carried fun id e c read held =>
    ⟨⟨e, kept id e read, rfl, rfl, held⟩, revoked ▸ exclusive.granted id e c (kept id e read) held⟩

private theorem removeAll_kept (b : Board) (ids : List ℕ) (id : ℕ) (e : Entry)
    (read : (b.removeAll ids).entries[id]? = some e) : b.entries[id]? = some e := by
  rw [removeAll_entries] at read
  split at read
  · contradiction
  · exact read

/-- After a batch release, a claim is left only on an entry outside the batch, unchanged. -/
private theorem releaseAll_kept {b : Board} {ids : List ℕ} {id : ℕ} {e : Entry} {c : Claim}
    (read : (b.releaseAll ids).entries[id]? = some e) (held : e.claim = some c) :
    id ∉ ids ∧ b.entries[id]? = some e := by
  rcases b.releaseAll_entries ids id with
    ⟨outside, same⟩ | ⟨_, ⟨_, gone⟩ | ⟨_, new, _, after, _, free, _⟩⟩
  · exact ⟨outside, same ▸ read⟩
  · simp [gone] at read
  · rw [after, Option.some.injEq] at read
    subst read
    simp [free] at held

/-- Recording anything but a granted claim leaves at most the old claims. -/
private theorem record_carried {b : Board} {event : Event} {id : ℕ} {e : Entry} {c : Claim}
    (plain : ∀ target claim, event = .claim target (some claim) → False)
    (read : (b.record event).entries[id]? = some e) (held : e.claim = some c) :
    b.Carried id e c := by
  rw [record_entries] at read
  cases event with
  | post message =>
    simp only [entryAfter] at read
    split at read
    · cases read
      contradiction
    · exact ⟨e, read, rfl, rfl, held⟩
  | ack target author =>
    simp only [entryAfter] at read
    split at read
    · obtain ⟨old, found, rfl⟩ := Option.map_eq_some_iff.mp read
      exact ⟨old, found, rfl, rfl, held⟩
    · exact ⟨e, read, rfl, rfl, held⟩
  | claim target claim =>
    simp only [entryAfter] at read
    split at read
    · obtain ⟨old, found, rfl⟩ := Option.map_eq_some_iff.mp read
      cases claim with
      | none => contradiction
      | some granted => exact (plain target granted rfl).elim
    · exact ⟨e, read, rfl, rfl, held⟩
  | remove target =>
    simp only [entryAfter] at read
    split at read
    · contradiction
    · exact ⟨e, read, rfl, rfl, held⟩
  | _ => exact ⟨e, read, rfl, rfl, held⟩

private theorem Exclusive.record {b : Board} (exclusive : b.Exclusive) {event : Event}
    (plain : ∀ target claim, event = .claim target (some claim) → False)
    (revoked : (b.record event).revoked = b.revoked) : (b.record event).Exclusive :=
  exclusive.of_carried fun id e c read held => by
    have carried := record_carried plain read held
    refine ⟨carried, ?_⟩
    obtain ⟨old, found, _, _, claim⟩ := carried
    rw [revoked]
    exact exclusive.granted id old c found claim

/-- The granted claim sits on the root it was asked for, under the raised revision; every other
claim is an old one, and none of those is for the same task. -/
private theorem Exclusive.claim {b : Board} (wf : b.WellFormed) (exclusive : b.Exclusive)
    {author : Author} {id revision : ℕ} {e : Entry} (granted : b.ClaimGranted author id revision e)
    (deadline : ℕ) (capped : deadline ≤ e.message.expiresMs) :
    (b.record (.claim id (some ⟨author, revision + 1, deadline⟩))).Exclusive := by
  have lookup : ∀ (key : ℕ) new, (b.record (.claim id (some ⟨author, revision + 1, deadline⟩))).entries[key]? =
      some new → (key = id ∧ new = { e with
        revision := e.revision + 1, changed := b.sequence + 1,
        claim := some ⟨author, revision + 1, deadline⟩ }) ∨ (key ≠ id ∧ b.entries[key]? = some new) := by
    intro key new read
    rw [record_entries] at read
    by_cases same : id = key
    · subst same
      simp only [entryAfter, ↓reduceIte, granted.read, Option.map_some, Option.some.injEq] at read
      exact .inl ⟨rfl, read.symm⟩
    · simp only [entryAfter, same, ↓reduceIte] at read
      exact .inr ⟨Ne.symm same, read⟩
  have free : ∀ (other : ℕ) e' task, other ≠ id → b.entries[other]? = some e' →
      e.message.task = some task → e'.message.task = some task → ¬ e'.claim.isSome := by
    intro other e' task different read tagged tagged'
    have own : e'.message.id ≠ id := by rwa [wf.keyed other e' read]
    simp [granted.sole task tagged other e' read own tagged']
  constructor
  · intro key new c read held
    rcases lookup key new read with ⟨rfl, rfl⟩ | ⟨_, old⟩
    · exact granted.root
    · exact exclusive.root key new c old held
  · intro key new c read held
    rcases lookup key new read with ⟨rfl, rfl⟩ | ⟨_, old⟩
    · obtain rfl := Option.some.inj held
      exact congrArg Nat.succ granted.current.symm
    · exact exclusive.revision key new c old held
  · intro key new c read held
    rcases lookup key new read with ⟨rfl, rfl⟩ | ⟨_, old⟩
    · obtain rfl := Option.some.inj held
      exact capped
    · exact exclusive.lease key new c old held
  · intro key other new new' task read read' held held' tagged tagged'
    rcases lookup key new read with ⟨rfl, rfl⟩ | ⟨different, old⟩ <;>
      rcases lookup other new' read' with ⟨rfl, rfl⟩ | ⟨different', old'⟩
    · rfl
    · exact (free other new' task different' old' tagged tagged' held').elim
    · exact (free key new task different old tagged' tagged held).elim
    · exact exclusive.task key other new new' task old old' held held' tagged tagged'
  · intro key new c read held
    rw [record_revoked]
    rcases lookup key new read with ⟨rfl, rfl⟩ | ⟨_, old⟩
    · obtain rfl := Option.some.inj held
      exact granted.authorized
    · exact exclusive.granted key new c old held

private theorem Exclusive.revoke {b : Board} (wf : b.WellFormed) (exclusive : b.Exclusive)
    (author : Author) : ((b.record (.revoke author)).releaseAll
      ((b.record (.revoke author)).idsWhere fun e => e.claim.any fun c => c.owner == author)).Exclusive := by
  have wf' : (b.record (.revoke author)).WellFormed := wf.record trivial
  refine exclusive.of_carried fun id e c read held => ?_
  obtain ⟨outside, recorded⟩ := releaseAll_kept read held
  have found : b.entries[id]? = some e := by rwa [record_entries] at recorded
  refine ⟨⟨e, found, rfl, rfl, held⟩, ?_⟩
  have other : c.owner ≠ author := by
    intro owner
    exact outside (wf'.mem_idsWhere.mpr ⟨e, recorded, by simp [held, owner]⟩)
  rw [releaseAll_revoked, record_revoked]
  simp [exclusive.granted id e c found held, compare_eq_iff_eq, Ne.symm other]

/-- Every move keeps the claims exclusive. -/
theorem Exclusive.move {b b' : Board} (wf : b.WellFormed) (exclusive : b.Exclusive)
    (move : Move b b') : b'.Exclusive := by
  have released (ids : List ℕ) : (b.releaseAll ids).Exclusive :=
    exclusive.of_carried fun id e c read held => by
      obtain ⟨_, found⟩ := releaseAll_kept read held
      exact ⟨⟨e, found, rfl, rfl, held⟩,
        by rw [releaseAll_revoked]; exact exclusive.granted id e c found held⟩
  cases move with
  | expireEntries now => exact exclusive.of_kept (b.removeAll_kept _) (removeAll_revoked ..)
  | clearProject project => exact exclusive.of_kept (b.removeAll_kept _) (removeAll_revoked ..)
  | retire project => exact exclusive.of_kept (b.removeAll_kept _) (removeAll_revoked ..)
  | releaseWhere condition => exact released _
  | forget pane =>
    refine (released (b.idsWhere fun e => e.claim.any fun c => c.owner.onPane pane)).of_carried ?_
    intro id e c read held
    refine ⟨⟨e, read, rfl, rfl, held⟩, fun member => ?_⟩
    exact (released _).granted id e c read held (ExtTreeSet.mem_of_mem_filter member)
  | revoke author => exact exclusive.revoke wf author
  | post message fresh placed afforded => exact exclusive.record (by simp) (record_revoked ..)
  | ack id author afforded => exact exclusive.record (by simp) (record_revoked ..)
  | claim author id revision leaseMs now e granted =>
    exact exclusive.claim wf granted _ (Nat.min_le_right ..)
  | release id => exact exclusive.record (by simp) (record_revoked ..)
  | pause project paused => exact exclusive.record (by simp) (record_revoked ..)
  | grant author => exact exclusive.record (by simp) (record_revoked ..)
  | pruneRates now => exact exclusive.of_kept (fun _ _ read => read) rfl

/-- A revision that the entry has moved past. The id is never assigned again, so this is stable. -/
def Outdated (id revision : ℕ) (b : Board) : Prop :=
  id ≤ b.sequence ∧ ∀ e, b.entries[id]? = some e → revision < e.revision

/-- Receipts keep a revision and lease changes raise it. -/
private theorem outdated_durable (revision : ℕ) : Durable fun e => revision < e.revision where
  acked _ _ _ past := past
  claimed _ _ _ past := Nat.lt_succ_of_lt past

/-- A claim request and its answer. -/
def ClaimSucceeds (b : Board) (project : ProjectId) (author : Author)
    (id revision leaseMs now : ℕ) : Prop :=
  ∃ answer, (b.apply project author (.claim id revision leaseMs) now).2 = .ok answer

/-- A successful claim passed every check on the board that expiry left. -/
theorem claimSucceeds_granted {b : Board} {project : ProjectId} {author : Author}
    {id revision leaseMs now : ℕ} (success : b.ClaimSucceeds project author id revision leaseMs now) :
    ∃ e, ((b.expire now).pruneRates now).ClaimGranted author id revision e ∧
      (b.apply project author (.claim id revision leaseMs) now).1 =
        ((b.expire now).pruneRates now).record (.claim id (some {
          owner := author
          revision := revision + 1
          expiresMs := min (saturatingAdd64 now leaseMs) e.message.expiresMs })) := by
  obtain ⟨answer, success⟩ := success
  unfold apply at success ⊢
  generalize (b.expire now).pruneRates now = b at success ⊢
  dsimp only at success ⊢
  split at success
  · contradiction
  next authorized =>
  split at success
  · contradiction
  next unpaused =>
  rw [if_neg authorized, if_neg unpaused]
  obtain ⟨_, refusal, refused⟩ | ⟨e, granted, recorded⟩ :=
    b.applyClaim_cases project author id revision leaseMs now authorized
  · rw [refused] at success
    contradiction
  · exact ⟨e, granted, recorded⟩

private theorem housekeeping_entries (b : Board) (now : ℕ) :
    ((b.expire now).pruneRates now).entries =
      ((b.removeAll (b.idsWhere fun e => e.message.expiresMs ≤ now)).releaseAll
        ((b.removeAll (b.idsWhere fun e => e.message.expiresMs ≤ now)).idsWhere
          fun e => e.claim.any fun c => c.expiresMs ≤ now)).entries := by
  rw [pruneRates, expire]

/-- An unexpired claim and its entry survive the expiry pass of a call, unchanged. -/
private theorem expire_live {b : Board} (wf : b.WellFormed) (exclusive : b.Exclusive) {now id : ℕ}
    {e : Entry} {c : Claim} (read : b.entries[id]? = some e) (held : e.claim = some c)
    (live : now < c.expiresMs) : ((b.expire now).pruneRates now).entries[id]? = some e := by
  have kept : (b.removeAll (b.idsWhere fun e => e.message.expiresMs ≤ now)).entries[id]? = some e := by
    have := exclusive.lease id e c read held
    rw [wf.expire_entries, read, Option.filter_some, if_pos (decide_eq_true (by omega))]
  have wf' := wf.removeAll (b.idsWhere fun e => e.message.expiresMs ≤ now)
  rw [housekeeping_entries]
  generalize b.removeAll (b.idsWhere fun e => e.message.expiresMs ≤ now) = b' at kept wf'
  rcases releaseAll_entries b' (b'.idsWhere fun e => e.claim.any fun c => c.expiresMs ≤ now) id with
    ⟨_, same⟩ | ⟨member, _⟩
  · rw [same, kept]
  · obtain ⟨e', read', due⟩ := wf'.mem_idsWhere.mp member
    obtain rfl := Option.some.inj (kept.symm.trans read')
    simp only [held, Option.any_some, decide_eq_true_eq] at due
    omega

/-- The posts that a call's expiry pass leaves are posts of the board before it. -/
private theorem expire_message {b : Board} {now id : ℕ} {e : Entry}
    (read : ((b.expire now).pruneRates now).entries[id]? = some e) :
    ∃ old, b.entries[id]? = some old ∧ old.message = e.message := by
  rw [housekeeping_entries] at read
  have before := b.removeAll_kept (b.idsWhere fun e => e.message.expiresMs ≤ now)
  generalize b.removeAll (b.idsWhere fun e => e.message.expiresMs ≤ now) = b' at read before
  rcases releaseAll_entries b' (b'.idsWhere fun e => e.claim.any fun c => c.expiresMs ≤ now) id with
    ⟨_, same⟩ | ⟨_, ⟨_, gone⟩ | ⟨old, new, found, after, message, _⟩⟩
  · rw [same] at read
    exact ⟨e, before id e read, rfl⟩
  · rw [gone] at read
    contradiction
  · rw [after] at read
    obtain rfl := Option.some.inj read
    exact ⟨old, before id old found, message.symm⟩

/-- Claims are exclusive in every reachable board: the stored claims satisfy `Exclusive`; once a
claim has succeeded, no later claim from the same revision does, whatever calls come in between;
and while a claim is live, no other author can claim its entry, and nobody another entry of its
task. -/
theorem reached_claims_exclusive (b : Board) (reached : Reached b) :
    b.Exclusive ∧
    (∀ project author id revision leaseMs now,
      b.ClaimSucceeds project author id revision leaseMs now →
      ∀ (calls : List Call) project' author' leaseMs' now',
      ¬ (calls.foldl call (b.apply project author (.claim id revision leaseMs) now).1).ClaimSucceeds
        project' author' id revision leaseMs' now') ∧
    ∀ (id : ℕ) e c now, b.entries[id]? = some e → e.claim = some c → now < c.expiresMs →
      ∀ project author revision leaseMs,
        (author ≠ c.owner → ¬ b.ClaimSucceeds project author id revision leaseMs now) ∧
        ∀ (other : ℕ) e' task, other ≠ id → b.entries[other]? = some e' →
          e.message.task = some task → e'.message.task = some task →
          ¬ b.ClaimSucceeds project author other revision leaseMs now := by
  obtain ⟨wf, exclusive⟩ := Reached.invariant exclusive_empty
    (fun _ _ wf exclusive move => exclusive.move wf move) reached
  refine ⟨exclusive, ?_, ?_⟩
  · intro project author id revision leaseMs now success calls project' author' leaseMs' now' again
    obtain ⟨e, granted, recorded⟩ := claimSucceeds_granted success
    have expired := wf.moves (b.moves_housekeeping now)
    have outdated : Outdated id revision
        (b.apply project author (.claim id revision leaseMs) now).1 := by
      rw [recorded]
      refine ⟨?_, fun new read => ?_⟩
      · rw [record_sequence]
        exact Nat.le_succ_of_le (expired.bounded id e granted.read).1
      · rw [record_entries, entryAfter, if_pos rfl, granted.read, Option.map_some,
          Option.some.injEq] at read
        subst read
        exact Nat.lt_succ_of_le granted.current.ge
    have later := Lasting.calls (outdated_durable revision) outdated calls
    obtain ⟨e', granted', _⟩ := claimSucceeds_granted again
    have past := (later.moves (outdated_durable revision) (moves_housekeeping _ now')).2 e' granted'.read
    exact absurd granted'.current (by omega)
  · intro id e c now read held live project author revision leaseMs
    have still := expire_live wf exclusive read held live
    refine ⟨fun different success => ?_, fun other e' task apart read' tagged tagged' success => ?_⟩
    · obtain ⟨found, granted, _⟩ := claimSucceeds_granted success
      obtain rfl := Option.some.inj (still.symm.trans granted.read)
      exact different (granted.unowned c held).symm
    · obtain ⟨found, granted, _⟩ := claimSucceeds_granted success
      obtain ⟨old, before, message⟩ := expire_message granted.read
      obtain rfl := Option.some.inj (read'.symm.trans before)
      have own : e.message.id ≠ other := by rw [wf.keyed id e read]; exact Ne.symm apart
      have free := granted.sole task (message ▸ tagged') id e still own tagged
      simp [held] at free

/-- One author claims a posted offer. -/
def claimedOffer : List Call :=
  [.apply 1 (.agent 1 1) (.post .request ['w'] none none (some 7) ['k'] 10000) 0,
   .apply 1 (.agent 2 1) (.claim 1 0 5000) 0]

theorem reached_claims_exclusive_offer : ∃ e c, (after claimedOffer).entries[1]? = some e ∧
    e.claim = some c ∧ c.owner = .agent 2 1 ∧ c.revision = e.revision ∧
    ¬ (after claimedOffer).ClaimSucceeds 1 (.agent 3 1) 1 1 5000 1000 := by
  have claimed : (after claimedOffer).entries[1]?.map (fun e => e.claim) =
      some (some ⟨.agent 2 1, 1, 5000⟩) := by decide +kernel
  obtain ⟨e, read, held⟩ := Option.map_eq_some_iff.mp claimed
  obtain ⟨exclusive, _, live⟩ := reached_claims_exclusive _ (reached_after claimedOffer)
  refine ⟨e, _, read, held, rfl, exclusive.revision 1 e _ read held, ?_⟩
  exact (live 1 e _ 1000 read held (by decide) 1 (.agent 3 1) 1 5000).1 (by decide)

end Uniterm.Model.Inbox.Board
