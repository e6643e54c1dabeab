import Mathlib.Data.List.Induction
import Uniterm.Model.Orchestrate.Engine

/-! # The completion contract of the engine

`Effect` lists everything one step can do: nothing, a pause or an abort, the opening of a turn under
the next token, or completion, each with the event that licenses it. The invariant of a run says that
the live token is the last one injected and that every role index in the state is in bounds.
-/

namespace Uniterm.Model.Orchestrate.State

/-- The events that may move the current role or complete the run. -/
inductive Licensed (s : State) (live : Option ℕ) : Event → Prop
  | start : Licensed s live .start
  | resume (paused : s.phase = .paused) : Licensed s live .resume
  | idle (awaiting : s.phase = .awaiting) (worker : s.atVerifier = false) :
      Licensed s live (.idle s.cur)
  | submit (sub : Submit) (awaiting : s.phase = .awaiting) (token : live = some sub.token)
      (role : sub.role = s.cur) : Licensed s live (.submit sub)

/-- A verifier's approval under the live token. -/
inductive Approval (s : State) (live : Option ℕ) : Event → Prop
  | mk (sub : Submit) (awaiting : s.phase = .awaiting) (token : live = some sub.token)
      (role : sub.role = s.cur) (verifier : s.atVerifier = true) (status : sub.status = .done)
      (verdict : sub.verdict = some .approved) : Approval s live (.submit sub)

/-- Everything a step can do. -/
inductive Effect (s : State) (event : Event) : State × Action → Prop
  | hold : Effect s event (s, .hold)
  | awaitSubmit : Effect s event (s, .awaitSubmit)
  | pause (s' : State) (reason : String) (running : s.phase.over = false)
      (roles : s'.roles = s.roles) (cur : s'.cur = s.cur) (targets : s'.fixTarget = s.fixTarget ∧
        s'.replanTarget = s.replanTarget) (token : s'.token = s.token)
      (tokenSeq : s'.tokenSeq = s.tokenSeq) (phase : s'.phase = .paused) :
      Effect s event (s', .escalate reason)
  | abort (reason : String) (running : s.phase.over = false) (stopped : event = .stop) :
      Effect s event ({ s with phase := .aborted }, .abort reason)
  | opened (s' : State) (running : s.phase.over = false) (licensed : s.Licensed (some s.token) event)
      (roles : s'.roles = s.roles) (cur : s'.cur < s.roles.length ∨ s'.cur = s.cur)
      (targets : s'.fixTarget = s.fixTarget ∧ s'.replanTarget = s.replanTarget)
      (token : s'.token = s.tokenSeq + 1) (tokenSeq : s'.tokenSeq = s.tokenSeq + 1)
      (phase : s'.phase = .awaiting) : Effect s event (s', .inject s'.cur s'.token)
  | completed (running : s.phase.over = false) (licensed : s.Licensed (some s.token) event)
      (how : s.Approval (some s.token) event ∨ s.atVerifier = false ∧ s.roles.length ≤ s.cur + 1) :
      Effect s event ({ s with phase := .done }, .complete)

/-- Every role index of the state is in bounds. -/
structure Indexed (s : State) : Prop where
  cur : s.cur < s.roles.length
  fixTarget : s.fixTarget < s.roles.length
  replanTarget : s.replanTarget < s.roles.length

/-- Moreover a live turn's token is the one last minted. -/
structure Ready (s : State) : Prop extends Indexed s where
  minted : s.token = s.tokenSeq

section Steps

variable {s : State} {event : Event}

private theorem effect_openTurn {s' : State} (running : s.phase.over = false)
    (licensed : s.Licensed (some s.token) event) (roles : s'.roles = s.roles)
    (cur : s'.cur < s.roles.length ∨ s'.cur = s.cur)
    (targets : s'.fixTarget = s.fixTarget ∧ s'.replanTarget = s.replanTarget)
    (tokenSeq : s'.tokenSeq = s.tokenSeq) : Effect s event s'.openTurn :=
  .opened { s' with tokenSeq := s'.tokenSeq + 1, token := s'.tokenSeq + 1, phase := .awaiting }
    running licensed roles cur targets (by rw [tokenSeq]) (by rw [tokenSeq]) rfl

private theorem effect_advance (running : s.phase.over = false)
    (licensed : s.Licensed (some s.token) event) (worker : s.atVerifier = false) :
    Effect s event s.advanceAfterDone := by
  unfold advanceAfterDone
  split
  · next last => exact .completed running licensed (.inr ⟨worker, last⟩)
  · next more => exact effect_openTurn running licensed rfl (.inl (by simpa using more)) ⟨rfl, rfl⟩ rfl

private theorem effect_routeFix (indexed : s.Indexed) (running : s.phase.over = false)
    (licensed : s.Licensed (some s.token) event) (findings : String) :
    Effect s event (s.routeFix findings) := by
  unfold routeFix
  split
  · exact .pause _ _ running rfl rfl ⟨rfl, rfl⟩ rfl rfl rfl
  dsimp only
  split
  · exact .pause _ _ running rfl rfl ⟨rfl, rfl⟩ rfl rfl rfl
  · exact effect_openTurn running licensed rfl (.inl indexed.fixTarget) ⟨rfl, rfl⟩ rfl

private theorem effect_routeReplan (indexed : s.Indexed) (running : s.phase.over = false)
    (licensed : s.Licensed (some s.token) event) : Effect s event s.routeReplan := by
  unfold routeReplan
  dsimp only
  split
  · exact .pause _ _ running rfl rfl ⟨rfl, rfl⟩ rfl rfl rfl
  · exact effect_openTurn running licensed rfl (.inl indexed.replanTarget) ⟨rfl, rfl⟩ rfl

private theorem effect_acceptSubmit (indexed : s.Indexed) {sub : Submit} (awaiting : s.phase = .awaiting)
    (token : sub.token = s.token) (role : sub.role = s.cur) :
    Effect s (.submit sub) (s.acceptSubmit sub) := by
  have running : s.phase.over = false := by rw [awaiting]; rfl
  have live : some s.token = some sub.token := by rw [token]
  have licensed : s.Licensed (some s.token) (.submit sub) := .submit sub awaiting live role
  unfold acceptSubmit
  split
  · exact .hold
  split
  · exact .pause _ _ running rfl rfl ⟨rfl, rfl⟩ rfl rfl rfl
  · exact .awaitSubmit
  · next status =>
    split
    · next verifier =>
      split
      · next verdict =>
        exact .completed running licensed
          (.inl (.mk sub awaiting live role verifier status verdict))
      · exact effect_routeFix indexed running licensed _
      · exact effect_routeReplan indexed running licensed
      · exact .awaitSubmit
    · next worker => exact effect_advance running licensed (by simpa using worker)

/-- The inversion of one step. -/
theorem step_effect (indexed : s.Indexed) (event : Event) : Effect s event (s.step event) := by
  have first : 0 < s.roles.length := Nat.lt_of_le_of_lt (Nat.zero_le _) indexed.cur
  unfold step
  split
  · exact .hold
  · exact .hold
  · next paused =>
    have running : s.phase.over = false := by rw [paused]; rfl
    split
    · exact effect_openTurn running (.resume paused) rfl (.inr rfl) ⟨rfl, rfl⟩ rfl
    · exact .abort _ running rfl
    · exact .hold
  all_goals
    next phase =>
    have running : s.phase.over = false := by rw [phase]; rfl
    split
    · split
      · exact .hold
      · exact effect_openTurn running .start rfl (.inl first) ⟨rfl, rfl⟩ rfl
    · exact .abort _ running rfl
    · exact .pause _ _ running rfl rfl ⟨rfl, rfl⟩ rfl rfl rfl
    · exact .pause _ _ running rfl rfl ⟨rfl, rfl⟩ rfl rfl rfl
    · exact .hold
    · split
      · exact .hold
      next applies =>
      rw [not_or, not_not, not_not] at applies
      split
      · exact .hold
      next worker =>
      rw [applies.2]
      exact effect_advance running (.idle applies.1 (by simpa using worker)) (by simpa using worker)
    · split
      · exact .hold
      next awaiting =>
      split
      · exact .hold
      next applies =>
      rw [not_or, not_not, not_not] at applies
      exact effect_acceptSubmit indexed (not_not.mp awaiting) applies.1 applies.2

private theorem step_over (closed : s.phase.over = true) : s.step event = (s, .hold) := by
  unfold step
  split
  · rfl
  · rfl
  all_goals
    next phase =>
    rw [phase] at closed
    contradiction

/-- Steps keep the indexes in bounds. -/
theorem Indexed.step (indexed : s.Indexed) (event : Event) : (s.step event).1.Indexed := by
  generalize result : s.step event = next
  have effect := step_effect indexed event
  rw [result] at effect
  cases effect with
  | hold => exact indexed
  | awaitSubmit => exact indexed
  | pause s' reason running roles cur targets =>
    refine ⟨?_, ?_, ?_⟩
    · rw [cur, roles]; exact indexed.cur
    · rw [targets.1, roles]; exact indexed.fixTarget
    · rw [targets.2, roles]; exact indexed.replanTarget
  | abort => exact ⟨indexed.cur, indexed.fixTarget, indexed.replanTarget⟩
  | opened s' running licensed roles cur targets =>
    refine ⟨?_, ?_, ?_⟩
    · rw [roles]
      exact cur.elim id fun same => same ▸ indexed.cur
    · rw [targets.1, roles]; exact indexed.fixTarget
    · rw [targets.2, roles]; exact indexed.replanTarget
  | completed => exact ⟨indexed.cur, indexed.fixTarget, indexed.replanTarget⟩

/-- Steps keep the live token the last one minted. -/
theorem Ready.step (ready : s.Ready) (event : Event) : (s.step event).1.Ready := by
  have indexed := ready.toIndexed.step event
  have effect := step_effect ready.toIndexed event
  generalize s.step event = next at effect indexed
  refine ⟨indexed, ?_⟩
  cases effect with
  | hold => exact ready.minted
  | awaitSubmit => exact ready.minted
  | pause s' reason running roles cur targets token tokenSeq =>
    rw [token, tokenSeq]
    exact ready.minted
  | abort => exact ready.minted
  | opened s' running licensed roles cur targets token tokenSeq => exact token.trans tokenSeq.symm
  | completed => exact ready.minted

theorem ready_new {roles : List Role} (nonempty : roles ≠ []) (cap : ℕ) : (new roles cap).Ready := by
  have positive : 0 < roles.length := List.length_pos_of_ne_nil nonempty
  refine ⟨⟨positive, ?_, positive⟩, rfl⟩
  simp only [new]
  cases found : roles.findIdx? (·.verifier) with
  | none => simpa using positive
  | some index =>
    obtain ⟨bound, _⟩ := List.findIdx?_eq_some_iff_getElem.mp found
    simp only [Option.getD_some]
    omega

end Steps

section Runs

theorem after_concat (s : State) (events : List Event) (event : Event) :
    s.after (events ++ [event]) = ((s.after events).step event).1 := by
  rw [after, List.foldl_concat, ← after]

theorem injected_concat (s : State) (events : List Event) (event : Event) :
    s.injected (events ++ [event]) =
      s.injected events ++ (((s.after events).step event).2.token?).toList := by
  have grown : s.actions (events ++ [event]) =
      s.actions events ++ [((s.after events).step event).2] := by
    induction events generalizing s with
    | nil => rfl
    | cons first rest ih =>
      rw [List.cons_append, actions, ih, actions, List.cons_append]
      rfl
  rw [injected, grown, List.filterMap_append, ← injected]
  rw [List.filterMap_cons, List.filterMap_nil]
  cases ((s.after events).step event).2.token? <;> rfl

/-- What a run keeps: the tokens grow, and the live one is the last injected. -/
structure Minting (roles : List Role) (s : State) (injected : List ℕ) : Prop where
  ready : s.Ready
  roles : s.roles = roles
  increasing : injected.Pairwise (· < ·)
  bounded : ∀ token ∈ injected, token ≤ s.tokenSeq
  last : 0 < s.tokenSeq → injected.getLast? = some s.tokenSeq
  awaiting : s.phase = .awaiting → 0 < s.tokenSeq

variable {roles : List Role} {s : State} {injected : List ℕ} {event : Event}

theorem Minting.step (minting : Minting roles s injected) (event : Event) :
    Minting roles (s.step event).1 (injected ++ ((s.step event).2.token?).toList) := by
  have ready := minting.ready.step event
  have effect := step_effect minting.ready.toIndexed event
  generalize s.step event = next at effect ready
  cases effect with
  | hold => simpa [Action.token?] using minting
  | awaitSubmit => simpa [Action.token?] using minting
  | pause s' reason running same cur targets token tokenSeq phase =>
    simp only [Action.token?, Option.toList_none, List.append_nil]
    refine ⟨ready, same.trans minting.roles, minting.increasing, ?_, ?_, ?_⟩
    · rw [tokenSeq]; exact minting.bounded
    · rw [tokenSeq]; exact minting.last
    · rw [phase]; exact fun impossible => by cases impossible
  | abort =>
    simp only [Action.token?, Option.toList_none, List.append_nil]
    exact ⟨ready, minting.roles, minting.increasing, minting.bounded, minting.last,
      fun impossible => by cases impossible⟩
  | opened s' running licensed same cur targets token tokenSeq phase =>
    simp only [Action.token?, Option.toList_some]
    refine ⟨ready, same.trans minting.roles, ?_, ?_, ?_, ?_⟩
    · refine List.pairwise_append.mpr ⟨minting.increasing, List.pairwise_singleton .., ?_⟩
      intro old member new fresh
      have := minting.bounded old member
      rw [List.mem_singleton.mp fresh, token]
      omega
    · intro old member
      rw [tokenSeq]
      rcases List.mem_append.mp member with earlier | fresh
      · exact Nat.le_succ_of_le (minting.bounded old earlier)
      · have same := List.mem_singleton.mp fresh
        omega
    · rw [List.getLast?_concat, token, tokenSeq]
      exact fun _ => rfl
    · rw [tokenSeq]
      exact fun _ => Nat.succ_pos _
  | completed =>
    simp only [Action.token?, Option.toList_none, List.append_nil]
    exact ⟨ready, minting.roles, minting.increasing, minting.bounded, minting.last,
      fun impossible => by cases impossible⟩

theorem minting_after {roles : List Role} (nonempty : roles ≠ []) (cap : ℕ) (events : List Event) :
    Minting roles ((new roles cap).after events) ((new roles cap).injected events) := by
  induction events using List.reverseRecOn with
  | nil => exact ⟨ready_new nonempty cap, rfl, .nil, by simp [State.injected, actions],
      fun positive => absurd positive (Nat.lt_irrefl 0), fun impossible => by cases impossible⟩
  | append_singleton events event ih =>
    rw [after_concat, injected_concat]
    exact ih.step event

/-- While a turn is open its token is the last one injected. -/
private theorem Minting.live (minting : Minting roles s injected) (awaiting : s.phase = .awaiting) :
    injected.getLast? = some s.token := by
  rw [minting.last (minting.awaiting awaiting), minting.ready.minted]

private theorem Minting.licensed (minting : Minting roles s injected)
    (licensed : s.Licensed (some s.token) event) : s.Licensed injected.getLast? event := by
  cases licensed with
  | start => exact .start
  | resume paused => exact .resume paused
  | idle awaiting worker => exact .idle awaiting worker
  | submit sub awaiting token role =>
    exact .submit sub awaiting ((minting.live awaiting).trans token) role

private theorem Minting.approval (minting : Minting roles s injected)
    (approval : s.Approval (some s.token) event) : s.Approval injected.getLast? event := by
  cases approval with
  | mk sub awaiting token role verifier status verdict =>
    exact .mk sub awaiting ((minting.live awaiting).trans token) role verifier status verdict

/-- What one step of a run promises, `live` being the last token injected. -/
structure StepContract (s : State) (live : Option ℕ) (event : Event) : Prop where
  moves : (s.step event).1.cur ≠ s.cur ∨ ((s.step event).1.phase = .done ∧ s.phase ≠ .done) →
    s.Licensed live event
  completes : (s.roles.getLast?).any (·.verifier) = true → (s.step event).2 = .complete →
    s.Approval live event
  quiet : (s.step event).2 = .hold ∨ (s.step event).2 = .awaitSubmit → (s.step event).1 = s
  absorbing : s.phase = .done ∨ s.phase = .aborted → s.step event = (s, .hold)

theorem Minting.contract (minting : Minting roles s injected) (event : Event) :
    s.StepContract injected.getLast? event := by
  have effect := step_effect minting.ready.toIndexed event
  generalize result : s.step event = next at effect
  have absorbing : s.phase = .done ∨ s.phase = .aborted → next = (s, .hold) := by
    rintro (closed | closed)
    · rw [← result, step_over (by rw [closed]; rfl)]
    · rw [← result, step_over (by rw [closed]; rfl)]
  constructor
  · rw [result]
    intro changed
    cases effect with
    | hold => simp at changed
    | awaitSubmit => simp at changed
    | pause s' reason running same cur targets token tokenSeq phase => simp [cur, phase] at changed
    | abort => simp at changed
    | opened s' running licensed => exact minting.licensed licensed
    | completed running licensed => exact minting.licensed licensed
  · rw [result]
    intro verifierLast completed
    cases effect with
    | completed running licensed how =>
      rcases how with approval | ⟨worker, last⟩
      · exact minting.approval approval
      -- Past the last role only a worker completes, and the last role is the verifier.
      have here : s.cur = s.roles.length - 1 := by
        have := minting.ready.cur
        omega
      rw [List.getLast?_eq_getElem?, ← here] at verifierLast
      rw [atVerifier, verifierLast] at worker
      contradiction
    | _ => cases completed
  · rw [result]
    intro silent
    cases effect with
    | hold => rfl
    | awaitSubmit => rfl
    | _ => simp at silent
  · rw [result]
    exact absorbing

/-- The completion contract, for every nonempty role list, every cap and every sequence of events. -/
theorem engine_contract (roles : List Role) (nonempty : roles ≠ []) (cap : ℕ)
    (events : List Event) :
    ((new roles cap).injected events).Pairwise (· < ·) ∧
      ((new roles cap).after events).cur < roles.length ∧
      ∀ event, ((new roles cap).after events).StepContract
        ((new roles cap).injected events).getLast? event := by
  have minting := minting_after nonempty cap events
  have bound := minting.ready.cur
  rw [minting.roles] at bound
  exact ⟨minting.increasing, bound, minting.contract⟩

/-- A builder and a verifier; the builder submits and the verifier sends the work back once. -/
def pairRoles : List Role := [⟨"builder", false⟩, ⟨"verifier", true⟩]

def sentBack : List Event :=
  [.start, .submit ⟨1, 0, .done, none⟩, .submit ⟨2, 1, .done, some (.fix "tests fail")⟩,
   .stall, .resume, .idle 0]

theorem engine_contract_sentBack :
    (new pairRoles 3).injected sentBack = [1, 2, 3, 4, 5] ∧
      ((new pairRoles 3).after sentBack).cur < 2 := by
  refine ⟨by decide, (engine_contract pairRoles (by decide) 3 sentBack).2.1⟩

end Runs

end Uniterm.Model.Orchestrate.State
