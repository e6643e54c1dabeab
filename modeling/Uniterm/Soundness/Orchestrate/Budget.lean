import Mathlib.Order.Basic
import Uniterm.Soundness.Orchestrate.Contract

/-! # The work an orchestration can hand out

`Charge` says who pays for a prompt: the start, the role before in the sequence, a verdict that still fits
under the cap, or a resume. Every verdict buys one pass over the roles at most, so the prompts of a run are
bounded by the cap and by the resumes, as long as the iteration counter does not wrap.
-/

namespace Uniterm.Model.Orchestrate

/-- A submission with a verdict that sends work back. -/
def Event.isRework : Event → Bool
  | .submit sub =>
    match sub.verdict with
    | some (.fix _) | some (.replan _) => true
    | _ => false
  | _ => false

namespace State

/-- The verdict that a step acts upon. -/
def verdict? (s : State) : Event → Option Verdict
  | .submit sub =>
    if s.phase = .awaiting ∧ sub.token = s.token ∧ sub.role = s.cur ∧ s.atVerifier ∧ sub.status = .done then
      sub.verdict
    else none
  | _ => none

/-- A step that counts an iteration: a fix other than the last one, or a replan. -/
def Counts (s : State) (event : Event) : Prop :=
  (∃ findings, s.verdict? event = some (.fix findings) ∧ s.lastFix ≠ some findings) ∨
    ∃ findings, s.verdict? event = some (.replan findings)

/-- A step that sends work back to an earlier role. -/
def routesBack (s : State) (event : Event) : Bool := event.isRework && (s.step event).2.token?.isSome

/-- How many steps of a run send work back. -/
def reworks : State → List Event → ℕ
  | _, [] => 0
  | s, e :: es => (s.routesBack e).toNat + reworks (s.step e).1 es

/-- How every step is paid for. -/
inductive Charge (s : State) (event : Event) : State × Action → Prop
  | quiet (s' : State) (action : Action) (silent : action.token? = none) (cur : s'.cur = s.cur)
      (iteration : s'.iteration = s.iteration) (cap : s'.maxIterations = s.maxIterations)
      (lastFix : s'.lastFix = s.lastFix) (phase : s'.phase = .idle → s.phase = .idle) :
      Charge s event (s', action)
  | capped (s' : State) (reason : String) (counts : s.Counts event) (cur : s'.cur = s.cur)
      (iteration : s'.iteration = s.nextIteration) (cap : s'.maxIterations = s.maxIterations)
      (phase : s'.phase = .paused) : Charge s event (s', .escalate reason)
  | opened (s' : State) (token : ℕ) (onward : event.isRework = false)
      (paid : s.phase = .idle ∧ s'.cur = 0 ∨ s'.cur = s.cur + 1 ∨ event = .resume ∧ s'.cur = s.cur)
      (iteration : s'.iteration = s.iteration) (cap : s'.maxIterations = s.maxIterations)
      (lastFix : s'.lastFix = s.lastFix) (phase : s'.phase = .awaiting) : Charge s event (s', .inject s'.cur token)
  | routed (s' : State) (token : ℕ) (counts : s.Counts event) (rework : event.isRework = true)
      (iteration : s'.iteration = s.nextIteration) (fits : s.nextIteration ≤ s.maxIterations)
      (cap : s'.maxIterations = s.maxIterations)
      (lastFix : ∀ findings, s.verdict? event = some (.fix findings) →
        s'.lastFix = some findings ∧ s.lastFix ≠ some findings)
      (phase : s'.phase = .awaiting) : Charge s event (s', .inject s'.cur token)

section Steps

variable {s : State} {event : Event}

private theorem charge_advance (onward : event.isRework = false) : Charge s event s.advanceAfterDone := by
  unfold advanceAfterDone
  split
  · exact .quiet _ _ rfl rfl rfl rfl rfl fun impossible => by cases impossible
  · exact .opened _ _ onward (.inr (.inl rfl)) rfl rfl rfl rfl

private theorem charge_routeFix {findings : String} (taken : s.verdict? event = some (.fix findings))
    (rework : event.isRework = true) : Charge s event (s.routeFix findings) := by
  unfold routeFix
  split
  · exact .quiet _ _ rfl rfl rfl rfl rfl fun impossible => by cases impossible
  next other =>
    dsimp only
    split
    · exact .capped _ _ (.inl ⟨findings, taken, other⟩) rfl rfl rfl rfl
    next fits =>
      refine .routed _ _ (.inl ⟨findings, taken, other⟩) rework rfl (Nat.not_lt.mp fits) rfl ?_ rfl
      intro found same
      obtain ⟨⟩ := taken.symm.trans same
      exact ⟨rfl, other⟩

private theorem charge_routeReplan {findings : String} (taken : s.verdict? event = some (.replan findings))
    (rework : event.isRework = true) : Charge s event s.routeReplan := by
  unfold routeReplan
  dsimp only
  split
  · exact .capped _ _ (.inr ⟨findings, taken⟩) rfl rfl rfl rfl
  next fits =>
    refine .routed _ _ (.inr ⟨findings, taken⟩) rework rfl (Nat.not_lt.mp fits) rfl ?_ rfl
    intro found same
    cases taken.symm.trans same

private theorem charge_acceptSubmit {sub : Submit} (awaiting : s.phase = .awaiting)
    (token : sub.token = s.token) (role : sub.role = s.cur) :
    Charge s (.submit sub) (s.acceptSubmit sub) := by
  have unmoved : Charge s (.submit sub) (s, .hold) := .quiet s .hold rfl rfl rfl rfl rfl id
  have waiting : Charge s (.submit sub) (s, .awaitSubmit) := .quiet s .awaitSubmit rfl rfl rfl rfl rfl id
  unfold acceptSubmit
  split
  · exact unmoved
  next allowed =>
    split
    · exact .quiet _ _ rfl rfl rfl rfl rfl fun impossible => by cases impossible
    · exact waiting
    next status =>
      split
      next verifier =>
        have taken : s.verdict? (.submit sub) = sub.verdict := if_pos ⟨awaiting, token, role, verifier, status⟩
        split
        · exact .quiet _ _ rfl rfl rfl rfl rfl fun impossible => by cases impossible
        next findings verdict =>
          exact charge_routeFix (taken.trans verdict) (by rw [Event.isRework, verdict])
        next findings verdict =>
          exact charge_routeReplan (taken.trans verdict) (by rw [Event.isRework, verdict])
        · exact waiting
      next worker =>
        -- A worker's submission carries no verdict here.
        have plain : sub.verdict = none := by
          by_contra given
          exact allowed ⟨Option.isSome_iff_ne_none.mpr given, by simpa using worker⟩
        exact charge_advance (by rw [Event.isRework, plain])

private theorem step_charge (s : State) (event : Event) : Charge s event (s.step event) := by
  have unmoved : Charge s event (s, .hold) := .quiet s .hold rfl rfl rfl rfl rfl id
  unfold step
  split
  · exact unmoved
  · exact unmoved
  · split
    · exact .opened _ _ rfl (.inr (.inr ⟨rfl, rfl⟩)) rfl rfl rfl rfl
    · exact .quiet _ _ rfl rfl rfl rfl rfl fun impossible => by cases impossible
    · exact unmoved
  all_goals
    next phase =>
    split
    · split
      · exact unmoved
      next idle => exact .opened _ _ rfl (.inl ⟨not_not.mp idle, rfl⟩) rfl rfl rfl rfl
    · exact .quiet _ _ rfl rfl rfl rfl rfl fun impossible => by cases impossible
    · exact .quiet _ _ rfl rfl rfl rfl rfl fun impossible => by cases impossible
    · exact .quiet _ _ rfl rfl rfl rfl rfl fun impossible => by cases impossible
    · exact unmoved
    · split
      · exact unmoved
      split
      · exact unmoved
      exact charge_advance rfl
    · split
      · exact unmoved
      next awaiting =>
      split
      · exact unmoved
      next applies =>
      rw [not_or, not_not, not_not] at applies
      exact charge_acceptSubmit (not_not.mp awaiting) applies.1 applies.2

end Steps

/-- The condition on a step: a verdict that counts does not find the 32-bit counter at its end. -/
def Roomy (s : State) (event : Event) : Prop := s.Counts event → s.iteration < 2 ^ 32 - 1

section Runs

private theorem nextIteration_eq {s : State} (room : s.iteration < 2 ^ 32 - 1) : s.nextIteration = s.iteration + 1 :=
  Nat.mod_eq_of_lt (by omega)

private theorem reworks_concat (s : State) (events : List Event) (event : Event) :
    s.reworks (events ++ [event]) = s.reworks events + ((s.after events).routesBack event).toNat := by
  induction events generalizing s with
  | nil => simp only [List.nil_append, reworks, after, List.foldl_nil, Nat.zero_add, Nat.add_zero]
  | cons first rest ih =>
    rw [List.cons_append, reworks, ih, reworks, Nat.add_assoc]
    rfl

/-- What a run has spent: each verdict that sent work back bought one pass over the roles, and each resume
one prompt. -/
structure Spent (roles cap : ℕ) (s : State) (injected reworked resumed : ℕ) : Prop where
  total : injected + (roles - 1 - s.cur) ≤ roles * (reworked + 1) + resumed
  fresh : s.phase = .idle → injected = 0
  counted : reworked ≤ s.iteration
  capped : reworked ≤ cap
  cap : s.maxIterations = cap

variable {roles cap injected reworked resumed : ℕ} {s : State} {event : Event}

theorem Spent.step (spent : Spent roles cap s injected reworked resumed)
    (next : (s.step event).1.cur < roles) (roomy : s.Roomy event) :
    Spent roles cap (s.step event).1 (injected + ((s.step event).2.token?).toList.length)
      (reworked + (s.routesBack event).toNat) (resumed + [event].count .resume) := by
  have charge := step_charge s event
  obtain ⟨total, fresh, counted, capped, same⟩ := spent
  unfold routesBack
  generalize s.step event = result at charge next
  have pass : roles * (reworked + 1 + 1) = roles * (reworked + 1) + roles := Nat.mul_succ ..
  cases charge with
  | quiet s' action silent cur' iteration cap' lastFix phase =>
    simp only [silent, Option.toList_none, List.length_nil, Option.isSome_none, Bool.and_false, Bool.toNat_false,
      Nat.add_zero]
    exact ⟨by rw [cur']; omega, fun idle => fresh (phase idle), iteration ▸ counted, capped, cap'.trans same⟩
  | capped s' reason counts cur' iteration cap' phase =>
    simp only [Action.token?, Option.toList_none, List.length_nil, Option.isSome_none, Bool.and_false,
      Bool.toNat_false, Nat.add_zero]
    refine ⟨by rw [cur']; omega, fun idle => absurd (phase.symm.trans idle) (by decide), ?_, capped, cap'.trans same⟩
    rw [iteration, nextIteration_eq (roomy counts)]
    omega
  | opened s' token onward paid iteration cap' lastFix phase =>
    simp only [Action.token?, Option.toList_some, List.length_singleton, onward, Bool.false_and, Bool.toNat_false,
      Nat.add_zero]
    refine ⟨?_, fun idle => absurd (phase.symm.trans idle) (by decide), iteration ▸ counted, capped, cap'.trans same⟩
    obtain ⟨idle, start⟩ | onward | ⟨rfl, again⟩ := paid
    · have none := fresh idle
      have enough : roles ≤ roles * (reworked + 1) := Nat.le_mul_of_pos_right _ (Nat.succ_pos _)
      omega
    · dsimp only at next
      omega
    · rw [again, List.count_singleton_self]
      omega
  | routed s' token counts rework iteration fits cap' lastFix phase =>
    simp only [Action.token?, Option.toList_some, List.length_singleton, rework, Option.isSome_some, Bool.and_true,
      Bool.toNat_true]
    have counter := nextIteration_eq (roomy counts)
    refine ⟨?_, fun idle => absurd (phase.symm.trans idle) (by decide), ?_, ?_, cap'.trans same⟩
    · omega
    · rw [iteration, counter]
      omega
    · omega

private theorem injected_length_concat (s : State) (events : List Event) (event : Event) :
    (s.injected (events ++ [event])).length =
      (s.injected events).length + (((s.after events).step event).2.token?).toList.length := by
  rw [injected_concat, List.length_append]

/-- A guarded run keeps the account. -/
theorem spent_after {roles : List Role} (nonempty : roles ≠ []) (cap : ℕ) (events : List Event)
    (roomy : ∀ before event after, events = before ++ event :: after →
      ((new roles cap).after before).Roomy event) :
    Spent roles.length cap ((new roles cap).after events) ((new roles cap).injected events).length
      ((new roles cap).reworks events) (events.count .resume) := by
  induction events using List.reverseRecOn with
  | nil =>
    have positive : 0 < roles.length := List.length_pos_of_ne_nil nonempty
    refine ⟨?_, fun _ => rfl, Nat.zero_le _, Nat.zero_le _, rfl⟩
    simp only [injected, actions, reworks, List.filterMap_nil, List.length_nil, List.count_nil]
    omega
  | append_singleton events event ih =>
    have spent := ih fun before first after split =>
      roomy before first (after ++ [event]) (by rw [split, List.append_assoc, List.cons_append])
    have later := minting_after nonempty cap (events ++ [event])
    rw [after_concat] at later
    rw [after_concat, injected_length_concat, reworks_concat, List.count_append]
    have inside := later.ready.cur
    rw [later.roles] at inside
    exact spent.step inside (roomy events event [] rfl)

private theorem iteration_step_le (s : State) (event : Event) : (s.step event).1.iteration ≤ s.iteration + 1 := by
  have charge := step_charge s event
  have next : s.nextIteration ≤ s.iteration + 1 := Nat.mod_le ..
  generalize s.step event = result at charge
  cases charge with
  | quiet s' action silent cur iteration => exact iteration.trans_le (Nat.le_succ _)
  | capped s' reason counts cur iteration => exact iteration.trans_le next
  | opened s' token onward paid iteration => exact iteration.trans_le (Nat.le_succ _)
  | routed s' token counts rework iteration => exact iteration.trans_le next

private theorem iteration_after_le (roles : List Role) (cap : ℕ) (events : List Event) :
    ((new roles cap).after events).iteration ≤ events.length := by
  induction events using List.reverseRecOn with
  | nil => exact Nat.le_refl _
  | append_singleton events event ih =>
    rw [after_concat, List.length_append]
    exact Nat.le_trans (iteration_step_le _ _) (Nat.add_le_add_right ih 1)

/-- A run of fewer than 2^32 events always finds room. -/
theorem roomy_of_length (roles : List Role) (cap : ℕ) {events : List Event} (short : events.length < 2 ^ 32)
    {before rest : List Event} {event : Event} (split : events = before ++ event :: rest) :
    ((new roles cap).after before).Roomy event := by
  intro _
  have reached := iteration_after_le roles cap before
  rw [split, List.length_append, List.length_cons] at short
  omega

end Runs

section Stalls

variable {s : State} {event : Event}

/-- Only a verdict that sends work back touches the findings of the last fix. -/
theorem step_lastFix (s : State) (event : Event) (fix : ∀ findings, s.verdict? event ≠ some (.fix findings))
    (replan : ∀ findings, s.verdict? event ≠ some (.replan findings)) :
    (s.step event).1.lastFix = s.lastFix := by
  have charge := step_charge s event
  have uncounted : ¬ s.Counts event := by
    rintro (⟨findings, taken, -⟩ | ⟨findings, taken⟩)
    · exact fix findings taken
    · exact replan findings taken
  generalize s.step event = result at charge
  cases charge with
  | quiet s' action silent cur iteration cap lastFix => exact lastFix
  | capped s' reason counts => exact absurd counts uncounted
  | opened s' token onward paid iteration cap lastFix => exact lastFix
  | routed s' token counts => exact absurd counts uncounted

/-- A fix that routes work back is not the last one, and is remembered. -/
theorem routed_lastFix {findings : String} (taken : s.verdict? event = some (.fix findings))
    (routes : s.routesBack event = true) :
    (s.step event).1.lastFix = some findings ∧ s.lastFix ≠ some findings := by
  have charge := step_charge s event
  unfold routesBack at routes
  generalize s.step event = result at charge routes
  cases charge with
  | quiet s' action silent => simp [silent] at routes
  | capped s' reason => simp [Action.token?] at routes
  | opened s' token onward => simp [onward] at routes
  | routed s' token counts rework iteration fits cap lastFix => exact lastFix findings taken

/-- No fix and no replan is acted upon along the events. -/
def Calm (s : State) (events : List Event) : Prop :=
  ∀ before event rest, events = before ++ event :: rest → ∀ findings,
    (s.after before).verdict? event ≠ some (.fix findings) ∧
      (s.after before).verdict? event ≠ some (.replan findings)

private theorem after_lastFix {s : State} {events : List Event} (calm : s.Calm events) :
    (s.after events).lastFix = s.lastFix := by
  induction events using List.reverseRecOn with
  | nil => rfl
  | append_singleton events event ih =>
    have last := calm events event [] rfl
    rw [after_concat, step_lastFix _ _ (fun findings => (last findings).1) fun findings => (last findings).2]
    refine ih fun before first rest split => ?_
    exact calm before first (rest ++ [event]) (by rw [split, List.append_assoc, List.cons_append])

/-- Two fix verdicts in a row with the same findings never both route work back. -/
theorem fix_stalls {first second : Event} {mid : List Event} {findings : String}
    (taken : s.verdict? first = some (.fix findings)) (calm : (s.step first).1.Calm mid)
    (again : ((s.step first).1.after mid).verdict? second = some (.fix findings))
    (routes : s.routesBack first = true) : ((s.step first).1.after mid).routesBack second = false := by
  by_contra both
  have remembered := (routed_lastFix taken routes).1
  have other := (routed_lastFix again (by simpa using both)).2
  rw [after_lastFix calm] at other
  exact other remembered

end Stalls

section Bounds

/-- For every nonempty role list, every cap and every sequence of events: as long as no verdict that counts
finds the iteration counter at its end, the prompts are bounded by the passes that the cap allows and by the
resumes, at most `cap` of them send work back, and the same fix twice in a row stalls. -/
theorem work_bounded {roles : List Role} (nonempty : roles ≠ []) (cap : ℕ) (events : List Event)
    (roomy : ∀ before event rest, events = before ++ event :: rest →
      ((new roles cap).after before).Roomy event) :
    ((new roles cap).injected events).length ≤ roles.length * (cap + 1) + events.count .resume ∧
      (new roles cap).reworks events ≤ cap ∧
      ∀ before first mid second rest findings, events = before ++ first :: (mid ++ second :: rest) →
        ((new roles cap).after before).verdict? first = some (.fix findings) →
        ((new roles cap).after (before ++ [first])).Calm mid →
        ((new roles cap).after (before ++ first :: mid)).verdict? second = some (.fix findings) →
        ¬ (((new roles cap).after before).routesBack first = true ∧
          ((new roles cap).after (before ++ first :: mid)).routesBack second = true) := by
  have spent := spent_after nonempty cap events roomy
  refine ⟨?_, spent.capped, ?_⟩
  · have total := spent.total
    have passes := Nat.mul_le_mul_left roles.length (Nat.add_le_add_right spent.capped 1)
    omega
  · rintro before first mid second rest findings - taken calm again ⟨routes, both⟩
    have later : (new roles cap).after (before ++ first :: mid) =
        (((new roles cap).after before).step first).1.after mid := by
      rw [after, List.foldl_append]
      rfl
    rw [later] at again both
    rw [after_concat] at calm
    rw [fix_stalls taken calm again routes] at both
    contradiction

/-- A builder and a verifier under the cap 1; the second fix exceeds the cap and is resumed. -/
def overrun : List Event :=
  [.start, .submit ⟨1, 0, .done, none⟩, .submit ⟨2, 1, .done, some (.fix "a")⟩, .submit ⟨3, 0, .done, none⟩,
    .submit ⟨4, 1, .done, some (.fix "b")⟩, .resume]

theorem work_bounded_overrun :
    ((new pairRoles 1).injected overrun).length = 5 ∧ (new pairRoles 1).reworks overrun ≤ 1 := by
  refine ⟨by decide, (work_bounded (by decide) 1 overrun ?_).2.1⟩
  intro before event rest split
  exact roomy_of_length pairRoles 1 (by decide) split

/-- What a lone verifier finds at its turn. -/
def finding (token : ℕ) : String := if token % 2 = 0 then "even" else "odd"

/-- A lone verifier that finds something else at every turn. -/
def restless : ℕ → ℕ → List Event
  | _, 0 => []
  | token, count + 1 => .submit ⟨token, 0, .done, some (.fix (finding token))⟩ :: restless (token + 1) count

/-- The turn of the lone verifier is open under its token. -/
structure Restless (s : State) (token : ℕ) : Prop where
  awaiting : s.phase = .awaiting
  cur : s.cur = 0
  live : s.token = token
  minted : s.tokenSeq = token
  verifier : s.roles = [⟨"verifier", true⟩]
  fixTarget : s.fixTarget = 0
  cap : s.maxIterations = 2 ^ 32 - 1
  other : s.lastFix ≠ some (finding token)

private theorem finding_succ (token : ℕ) : finding token ≠ finding (token + 1) := by
  unfold finding
  obtain even | odd := Nat.mod_two_eq_zero_or_one token
  · rw [if_pos even, if_neg (by omega)]
    decide
  · rw [if_neg (by omega), if_pos (by omega)]
    decide

/-- Under the largest cap the counter wraps before it exceeds it, so every fix is routed. -/
theorem Restless.step {s : State} {token : ℕ} (restless : s.Restless token) :
    s.step (.submit ⟨token, 0, .done, some (.fix (finding token))⟩) =
      openTurn { s with lastFix := some (finding token), iteration := s.nextIteration, cur := s.fixTarget } := by
  have verifier : s.atVerifier = true := by rw [atVerifier, restless.cur, restless.verifier]; rfl
  have fits : ¬ s.nextIteration > s.maxIterations := by
    have wrapped : s.nextIteration < 2 ^ 32 := Nat.mod_lt _ (by decide)
    rw [restless.cap]
    omega
  have accepted : s.step (.submit ⟨token, 0, .done, some (.fix (finding token))⟩) =
      s.acceptSubmit ⟨token, 0, .done, some (.fix (finding token))⟩ := by
    unfold State.step
    simp only [restless.awaiting, restless.live, restless.cur, ne_eq, not_true_eq_false, if_false, or_self]
  rw [accepted]
  simp only [acceptSubmit, verifier, routeFix, if_neg restless.other, if_neg fits, if_true, Bool.true_eq_false,
    and_false, if_false]

theorem Restless.next {s : State} {token : ℕ} (restless : s.Restless token) :
    (s.step (.submit ⟨token, 0, .done, some (.fix (finding token))⟩)).1.Restless (token + 1) := by
  rw [restless.step]
  exact
    { awaiting := rfl
      cur := restless.fixTarget
      live := congrArg (· + 1) restless.minted
      minted := congrArg (· + 1) restless.minted
      verifier := restless.verifier
      fixTarget := restless.fixTarget
      cap := restless.cap
      other := fun same => finding_succ token (Option.some.inj same) }

theorem Restless.run {s : State} {token : ℕ} (open_ : s.Restless token) (count : ℕ) :
    (s.injected (restless token count)).length = count ∧ s.reworks (restless token count) = count := by
  induction count generalizing s token with
  | zero => exact ⟨rfl, rfl⟩
  | succ count ih =>
    obtain ⟨prompts, routed⟩ := ih open_.next
    unfold injected at prompts ⊢
    rw [restless, reworks, routed, routesBack, actions, List.filterMap_cons]
    rw [open_.step] at prompts ⊢
    constructor
    · simpa only [openTurn, Action.token?, List.length_cons, Nat.add_left_inj] using prompts
    · exact Nat.add_comm ..

private theorem restless_quiet (token count : ℕ) : (restless token count).count .resume = 0 := by
  induction count generalizing token with
  | zero => rfl
  | succ count ih =>
    rw [restless, List.count_cons_of_ne (by simp)]
    exact ih (token + 1)

private theorem restless_started (count : ℕ) :
    ((new [⟨"verifier", true⟩] (2 ^ 32 - 1)).injected (.start :: restless 1 count)).length = count + 1 ∧
      (new [⟨"verifier", true⟩] (2 ^ 32 - 1)).reworks (.start :: restless 1 count) = count := by
  have opened : ((new [⟨"verifier", true⟩] (2 ^ 32 - 1)).step .start).1.Restless 1 :=
    { awaiting := rfl, cur := rfl, live := rfl, minted := rfl, verifier := rfl, fixTarget := rfl, cap := rfl
      other := fun impossible => by cases impossible }
  obtain ⟨prompts, routed⟩ := opened.run count
  constructor
  · exact congrArg (· + 1) prompts
  · rw [reworks, routed]
    exact Nat.zero_add _

/-- A lone verifier under the largest cap: after 2^32 fixes without a resume the prompts exceed their bound and
more than the cap sent work back. -/
theorem work_unbounded :
    ∃ (roles : List Role) (cap : ℕ) (events : List Event), roles ≠ [] ∧ cap < 2 ^ 32 ∧
      ¬ ((new roles cap).injected events).length ≤ roles.length * (cap + 1) + events.count .resume ∧
        ¬ (new roles cap).reworks events ≤ cap := by
  obtain ⟨prompts, routed⟩ := restless_started (2 ^ 32)
  have resumes : (Event.start :: restless 1 (2 ^ 32)).count .resume = 0 := by
    rw [List.count_cons_of_ne (by decide), restless_quiet]
  refine ⟨[⟨"verifier", true⟩], 2 ^ 32 - 1, .start :: restless 1 (2 ^ 32), by decide, by decide, ?_, ?_⟩
  · rw [prompts, resumes, List.length_singleton]
    omega
  · rw [routed]
    omega

end Bounds

end State

end Uniterm.Model.Orchestrate
