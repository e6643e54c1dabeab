import Mathlib.Data.List.TakeWhile
import Uniterm.Soundness.Inbox.Retries

/-! # The rate of new posts

Every call prunes the windows of all authors before it looks at one of them, and only an accepted post extends its
author's window. Along a run the window is therefore the accepted times without a part that is a minute old, and
a minute that ends at the newest accepted time lies inside the window.
-/

namespace Uniterm.Model.Inbox.Board

variable {b : Board} {author : Author}

/-- The clock reading a call carries. -/
def clock : Call → Option ℕ
  | .apply _ _ _ now => some now
  | .expire now => some now
  | .forgetPane _ | .retainProjects _ => none

/-- An answer accepts a new post of the author when its id was not live before. -/
def newPost (b : Board) (author poster : Author) (now : ℕ) : Operation → Except Refusal (Option ℕ) → Option ℕ
  | .post .., .ok (some id) => if poster = author ∧ id ∉ b.entries then some now else none
  | _, _ => none

/-- The time of a call that is an accepted new post of the author. -/
def accepted (b : Board) (author : Author) : Call → Option ℕ
  | .apply project poster op now => b.newPost author poster now op (b.apply project poster op now).2
  | _ => none

/-- The times of the author's new posts along a run. Retries are not new posts. -/
def acceptedTimes (author : Author) : Board → List Call → List ℕ
  | _, [] => []
  | b, c :: rest => (b.accepted author c).toList ++ acceptedTimes author (b.call c) rest

/-- How many of the times lie in the minute that starts at `w`. -/
def inMinute (w : ℕ) (times : List ℕ) : ℕ := times.countP fun t => w ≤ t ∧ t < w + 60000

section Window

/-- The rate window of an author. -/
def window (b : Board) (author : Author) : List ℕ := (b.rates[author]?).getD []

private theorem record_window (event : Event) : (b.record event).window author =
    match event with
    | .post m => if m.author = author then b.window author ++ [m.createdMs] else b.window author
    | _ => b.window author := by
  have rates : (b.record event).rates = ((b.append event).projectEvent event).rates := by rw [record, truncate]
  rw [window, rates]
  cases event with
  | post m =>
    simp only [projectEvent, append, Std.ExtTreeMap.getElem?_insert, compare_eq_iff_eq]
    by_cases same : m.author = author
    · rw [if_pos same, if_pos same, same]
      rfl
    · rw [if_neg same, if_neg same]
      rfl
  | remove id => simp only [projectEvent]; split <;> rfl
  | _ => rfl

private theorem recordAll_window {events : List Event} (quiet : Quiet events) :
    (b.recordAll events).window author = b.window author := by
  induction events generalizing b with
  | nil => rw [recordAll_nil]
  | cons event rest ih =>
    rw [recordAll_cons, ih fun other member => quiet other (List.mem_cons_of_mem _ member), record_window]
    cases event with
    | post m => exact absurd rfl (quiet _ (List.mem_cons_self ..) m)
    | _ => rfl

private theorem expire_window (b : Board) (now : ℕ) : (b.expire now).window author = b.window author :=
  (recordAll_window (quiet_map (by simp) _)).trans (recordAll_window (quiet_map (by simp) _))

private theorem pruneRates_window (b : Board) (now : ℕ) :
    (b.pruneRates now).window author = (b.window author).dropWhile fun t => 60000 ≤ now - t := by
  simp only [window, pruneRates, Std.ExtTreeMap.getElem?_filterMap]
  cases b.rates[author]? with
  | none => rfl
  | some times =>
    simp only [Option.pbind_some]
    split <;> simp_all

private theorem swept_window (b : Board) (now : ℕ) :
    (b.swept now).window author = (b.window author).dropWhile fun t => 60000 ≤ now - t := by
  rw [pruneRates_window, expire_window]

private theorem retainProjects_window (b : Board) (live : Std.ExtTreeSet ProjectId) :
    (b.retainProjects live).window author = b.window author := by
  unfold retainProjects
  generalize b.changed.keys.filter (fun project => !live.contains project) = gone
  induction gone generalizing b with
  | nil => rfl
  | cons project rest ih =>
    have retired : (b.retainProject project).window author = b.window author :=
      recordAll_window (quiet_map (by simp) _)
    exact (ih _).trans retired

/-- What an operation does to a window, given whether it was an accepted post of the window's author. -/
inductive Windowed (b : Board) (author : Author) (now : ℕ) : Option ℕ → List ℕ → Prop
  | kept : Windowed b author now none ((b.swept now).window author)
  | posted (room : ((b.swept now).window author).length < 30) :
      Windowed b author now (some now) ((b.swept now).window author ++ [now])

/-- A retry is answered with an id that was live before. -/
theorem repost_live (wf : b.WellFormed) {project : ProjectId} {now : ℕ} {e : Entry}
    (live : e ∈ (b.swept now).projectEntries project) : e.message.id ∈ b.entries := by
  obtain ⟨read, -⟩ := (wf.moves (b.moves_housekeeping now)).mem_projectEntries.mp live
  obtain ⟨old, found, -⟩ := messageAt_eq_some_iff.mp
    (thinned_housekeeping b now _ _ (messageAt_eq_some_iff.mpr ⟨e, read, rfl⟩))
  exact Std.ExtTreeMap.mem_iff_isSome_getElem?.mpr (by rw [found]; rfl)

private theorem apply_windowed (wf : b.WellFormed) (project : ProjectId) (poster : Author) (op : Operation) (now : ℕ) :
    Windowed b author now (b.accepted author (.apply project poster op now))
      ((b.apply project poster op now).1.window author) := by
  obtain ⟨events, answers, recorded⟩ := b.apply_answers project poster op now
  rw [recorded, accepted]
  generalize (b.apply project poster op now).2 = answer at answers
  have kept (events : List Event) (quiet : Quiet events) :
      Windowed b author now none (((b.swept now).recordAll events).window author) := by
    rw [recordAll_window quiet]
    exact .kept
  cases answers with
  | post kind body replyTo recipient task key ttl thread expiresMs valid unused rated =>
    have fresh : (b.swept now).sequence + 1 ∉ b.entries := by
      intro live
      have bound := (wf.bounded _ _ (Std.ExtTreeMap.getElem?_eq_some_getElem live)).1
      have grown : b.sequence ≤ (b.swept now).sequence := moves_sequence (b.moves_housekeeping now)
      omega
    rw [recordAll_cons, recordAll_nil, record_window, newPost]
    dsimp only
    by_cases same : poster = author
    · subst same
      rw [if_pos ⟨rfl, fresh⟩, if_pos rfl]
      exact .posted rated
    · rw [if_neg (fun both => same both.1), if_neg same]
      exact .kept
  | repost kind body replyTo recipient task key ttl e valid live authored keyed repeats =>
    rw [newPost, if_neg fun both => both.2 (repost_live wf live)]
    exact kept [] (by simp [Quiet])
  | refused op refusal => cases op <;> exact kept [] (by simp [Quiet])
  | clear confirmed => exact kept _ (quiet_map (by simp) _)
  | release id revision events released =>
    refine kept _ fun event member m same => ?_
    rcases released with rfl | rfl <;> simp [same] at member
  | _ => exact kept _ (by simp [Quiet])

private theorem call_windowed (wf : b.WellFormed) (c : Call) :
    (b.accepted author c = none ∧ (b.call c).window author = b.window author) ∨
      ∃ now, clock c = some now ∧ Windowed b author now (b.accepted author c) ((b.call c).window author) := by
  cases c with
  | apply project poster op now => exact .inr ⟨now, rfl, apply_windowed wf project poster op now⟩
  | expire now => exact .inl ⟨rfl, expire_window b now⟩
  | forgetPane pane => exact .inl ⟨rfl, recordAll_window (quiet_map (by simp) _)⟩
  | retainProjects live => exact .inl ⟨rfl, retainProjects_window b live⟩

end Window

section Log

/-- The times accepted so far are the author's window and, before it, times that are a minute old by the last
clock reading; no minute holds more than thirty of them. -/
structure Logged (author : Author) (log : List ℕ) (last : ℕ) (b : Board) : Prop where
  dropped : ∃ old, log = old ++ b.window author ∧ ∀ t ∈ old, t + 60000 ≤ last
  bounded : ∀ w, inMinute w log ≤ 30

private theorem inMinute_append (w : ℕ) (before after : List ℕ) :
    inMinute w (before ++ after) = inMinute w before + inMinute w after :=
  List.countP_append ..

private theorem inMinute_le (w : ℕ) (times : List ℕ) : inMinute w times ≤ times.length := List.countP_le_length

/-- A time a minute before another one lies in no minute with it. -/
theorem inMinute_old {w now : ℕ} (inside : now < w + 60000) {old : List ℕ} (past : ∀ t ∈ old, t + 60000 ≤ now) :
    inMinute w old = 0 := by
  refine List.countP_eq_zero.mpr fun t member within => ?_
  have := past t member
  simp only [decide_eq_true_eq] at within
  omega

/-- Pruning moves the front of the window behind the minute. -/
theorem Logged.swept {log : List ℕ} {last now : ℕ} (logged : Logged author log last b) (later : last ≤ now) :
    ∃ old, log = old ++ (b.swept now).window author ∧ ∀ t ∈ old, t + 60000 ≤ now := by
  obtain ⟨old, rfl, past⟩ := logged.dropped
  refine ⟨old ++ (b.window author).takeWhile fun t => 60000 ≤ now - t, ?_, fun t member => ?_⟩
  · rw [swept_window, List.append_assoc, List.takeWhile_append_dropWhile]
  · rcases List.mem_append.mp member with earlier | pruned
    · exact (past t earlier).trans later
    · have aged := List.mem_takeWhile_imp pruned
      simp only [decide_eq_true_eq] at aged
      omega

/-- The step: a new post finds fewer than thirty times in its window, and those before it are a minute old. -/
theorem Logged.windowed {log times : List ℕ} {last now : ℕ} {accepted : Option ℕ}
    (logged : Logged author log last b) (later : last ≤ now) {b' : Board}
    (windowed : Windowed b author now accepted times) (shown : b'.window author = times) :
    Logged author (log ++ accepted.toList) now b' := by
  obtain ⟨old, split, past⟩ := logged.swept later
  cases windowed with
  | kept =>
    refine ⟨⟨old, ?_, past⟩, fun w => ?_⟩
    · rw [Option.toList_none, List.append_nil, shown, split]
    · rw [Option.toList_none, List.append_nil]
      exact logged.bounded w
  | posted room =>
    refine ⟨⟨old, ?_, past⟩, fun w => ?_⟩
    · rw [shown, Option.toList_some, split, List.append_assoc]
    · rw [Option.toList_some, inMinute_append]
      by_cases inside : now < w + 60000
      · have recent := inMinute_le w ((b.swept now).window author)
        have latest := inMinute_le w [now]
        rw [split, inMinute_append, inMinute_old inside past]
        simp only [List.length_singleton] at latest
        omega
      · have outside : inMinute w [now] = 0 := by simp [inMinute, inside]
        rw [outside]
        exact logged.bounded w

/-- The run: with a nondecreasing clock the accepted times stay within the rate. -/
theorem Logged.run (wf : b.WellFormed) {log : List ℕ} {last : ℕ} (logged : Logged author log last b)
    {calls : List Call} (ordered : (last :: calls.filterMap clock).Pairwise (· ≤ ·)) (w : ℕ) :
    inMinute w (log ++ acceptedTimes author b calls) ≤ 30 := by
  induction calls generalizing b log last with
  | nil =>
    rw [acceptedTimes, List.append_nil]
    exact logged.bounded w
  | cons c rest ih =>
    rw [acceptedTimes, ← List.append_assoc]
    have wf' : (b.call c).WellFormed := wf.moves (@step_moves _ _ c rfl)
    rcases call_windowed wf c with ⟨silent, same⟩ | ⟨now, read, windowed⟩
    · have logged' : Logged author log last (b.call c) := ⟨by rw [same]; exact logged.dropped, logged.bounded⟩
      rw [silent, Option.toList_none, List.append_nil]
      exact ih wf' logged' (ordered.sublist (((List.sublist_cons_self c rest).filterMap clock).cons_cons last))
    · rw [List.filterMap_cons_some read, List.pairwise_cons] at ordered
      have later : last ≤ now := ordered.1 now (List.mem_cons_self ..)
      exact ih wf' (logged.windowed later windowed rfl) ordered.2

/-- No minute holds more than thirty accepted posts of one author. -/
theorem acceptedTimes_bounded {calls : List Call} (ordered : (calls.filterMap clock).Pairwise (· ≤ ·))
    (author : Author) (w : ℕ) : inMinute w (acceptedTimes author {} calls) ≤ 30 := by
  have empty : Logged author [] 0 {} := by
    refine ⟨⟨[], ?_, by simp⟩, fun w => Nat.zero_le _⟩
    rw [window, Std.ExtTreeMap.getElem?_empty]
    rfl
  exact empty.run wellFormed_empty (ordered.cons fun _ _ => Nat.zero_le _) w

end Log

/-- Operations on the board are atomic and can be retried. On the board any calls have made a refused operation
leaves what expiry and pruning leave, a post and its receipts and the controls answer a retry without recording,
and when the clock has not gone back no minute holds more than thirty new posts of one author. -/
theorem after_operations_atomic (calls : List Call) :
    (∀ project author op now refusal, ((after calls).apply project author op now).2 = .error refusal →
      ((after calls).apply project author op now).1 = ((after calls).expire now).pruneRates now) ∧
    (after calls).PostsRepeat ∧ (after calls).ControlsRepeat ∧
    ((calls.filterMap clock).Pairwise (· ≤ ·) →
      ∀ author w, inMinute w (acceptedTimes author {} calls) ≤ 30) :=
  ⟨fun _ _ _ _ _ => apply_refused, after_postsRepeat calls, after_controlsRepeat calls, acceptedTimes_bounded⟩

/-- A post by a worker. -/
def offer : Content := ⟨.plan, ['w'], none, none, none, 10000⟩

/-- The worker posts once, and the human acknowledges. -/
def offered : List Call := [.apply 1 (.agent 1 1) (offer.post ['a']) 0, .apply 1 .human (.ack 1) 5]

theorem after_operations_atomic_offered :
    ((after offered).apply 1 (.agent 1 1) (offer.post ['a']) 20).2 = .ok (some 1) ∧
    ((after offered).apply 1 .human (.ack 1) 20).1.sequence = 2 ∧ inMinute 0 (acceptedTimes (.agent 1 1) {} offered) = 1 ∧
    inMinute 0 (acceptedTimes (.agent 1 1) {} offered) ≤ 30 := by
  obtain ⟨-, -, -, bounded⟩ := after_operations_atomic offered
  obtain ⟨-, repeats, -, -⟩ := after_operations_atomic []
  obtain ⟨-, -, controls, -⟩ := after_operations_atomic [.apply 1 (.agent 1 1) (offer.post ['a']) 0]
  refine ⟨?_, ?_, by decide +kernel, bounded (by decide) _ _⟩
  · have again := (repeats 1 (.agent 1 1) offer ['a'] 0 1 (by decide +kernel) [.apply 1 .human (.ack 1) 5] 20 offer
      (by decide +kernel) (by decide +kernel) (by decide +kernel)).1 rfl
    exact congrArg Prod.snd again
  · have again := controls.ack 1 .human 1 5 (some 1) (by decide +kernel) [] 20
    refine (congrArg Board.sequence again).trans ?_
    decide +kernel

/-- A revoked worker's retry is refused although its post is live. -/
theorem revoked_retry_refused :
    ((after []).apply 1 (.agent 1 1) (offer.post ['a']) 0).2 = .ok (some 1) ∧
    1 ∈ ((after [.apply 1 (.agent 1 1) (offer.post ['a']) 0, .apply 1 .human (.revoke (.agent 1 1)) 5]).apply 1 (.agent 1 1)
      (offer.post ['a']) 10).1.entries ∧
    ((after [.apply 1 (.agent 1 1) (offer.post ['a']) 0, .apply 1 .human (.revoke (.agent 1 1)) 5]).apply 1 (.agent 1 1)
      (offer.post ['a']) 10).2 = .error .revoked := by
  decide +kernel

end Uniterm.Model.Inbox.Board
