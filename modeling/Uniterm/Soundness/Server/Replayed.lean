import Uniterm.Machine.Run
import Uniterm.Soundness.Server.Ledger

/-! # Live orchestrations equal their replay

Every operation keeps the ledger: a run that was taken out comes back under a projection of what it
is then, or is finished in the log and gone.
-/

namespace Uniterm.Model.Orchestration

open EventLog Orchestrate Runs Work ToMathlib Std

namespace Server

section Interpreting

variable {s t : Server} {kind : OrchestrationKind} {w : World} {run : Run} {action : Action}

/-- What the interpretation of an action leaves alone. -/
structure Frame (s t : Server) : Prop where
  runs : t.runs = s.runs
  activations : t.activations = s.activations
  panes : t.panes = s.panes
  nextTask : t.nextTask = s.nextTask
  nextPane : t.nextPane = s.nextPane

theorem Frame.live (frame : Frame s t) : t.live = s.live := by rw [Server.live, Server.live, frame.runs]

private theorem inject_delivered (s : Server) (kind : OrchestrationKind) (w : World) (run : Run)
    (role token : ℕ) : Delivered run (s.inject kind w run role token).1 := by
  rcases inject_cases s kind w run role token with ⟨missing, _⟩ | ⟨_, _, _, accepted⟩ | ⟨_, _, refused⟩
  · rw [missing]
    exact .refl run
  · rw [accepted]
    refine ⟨rfl, rfl, rfl, rfl, rfl, ?_, rfl⟩
    dsimp only
    split
    · exact List.length_set
    · rfl
  · rw [refused]
    exact .refl run

private theorem inject_frame (s : Server) (kind : OrchestrationKind) (w : World) (run : Run)
    (role token : ℕ) : Frame s (s.inject kind w run role token).2 := by
  rcases inject_cases s kind w run role token with ⟨missing, _⟩ | ⟨_, _, accepted, _⟩ | ⟨_, _, refused⟩
  · rw [missing]
    exact ⟨rfl, rfl, rfl, rfl, rfl⟩
  · rw [accepted]
    exact ⟨rfl, rfl, rfl, rfl, rfl⟩
  · rw [refused]
    exact ⟨rfl, rfl, rfl, rfl, rfl⟩

theorem inject_log (s : Server) (kind : OrchestrationKind) (w : World) (run : Run)
    (role token : ℕ) : ∃ entries, (∀ entry ∈ entries, entry.Silent) ∧
      (s.inject kind w run role token).2.log = s.log ++ entries := by
  rcases inject_cases s kind w run role token with ⟨missing, _⟩ | ⟨_, _, accepted, _⟩ | ⟨_, _, refused⟩
  · rw [missing]
    exact ⟨[_], by simp [Entry.Silent], rfl⟩
  · rw [accepted]
    exact ⟨[_, _], by simp [Entry.Silent], List.append_assoc ..⟩
  · rw [refused]
    exact ⟨[_, _], by simp [Entry.Silent], List.append_assoc ..⟩

theorem applyAction_delivered (s : Server) (kind : OrchestrationKind) (w : World) (run : Run)
    (action : Action) : Delivered run (s.applyAction kind w run action).1 := by
  cases action with
  | inject role token => exact inject_delivered s kind w run role token
  | _ => exact .refl run

theorem applyAction_frame (s : Server) (kind : OrchestrationKind) (w : World) (run : Run)
    (action : Action) : Frame s (s.applyAction kind w run action).2 := by
  cases action with
  | inject role token => exact inject_frame s kind w run role token
  | _ => exact ⟨rfl, rfl, rfl, rfl, rfl⟩

private theorem applyAction_finished (s : Server) (kind : OrchestrationKind) (w : World) (run : Run)
    (ended : finishes action = true) : ∃ outcome,
      (s.applyAction kind w run action).2.log = s.log ++ [.finished kind run.taskId outcome] := by
  cases action with
  | complete => exact ⟨_, rfl⟩
  | abort reason => exact ⟨_, rfl⟩
  | _ => cases ended

private theorem applyAction_silent (s : Server) (kind : OrchestrationKind) (w : World) (run : Run)
    (running : finishes action = false) : ∃ entries, (∀ entry ∈ entries, entry.Silent) ∧
      (s.applyAction kind w run action).2.log = s.log ++ entries := by
  cases action with
  | inject role token => exact inject_log s kind w run role token
  | complete => cases running
  | abort => cases running
  | _ => exact ⟨[], by simp, (List.append_nil _).symm⟩

end Interpreting

section Keeping

/-- The ledger of a server between operations. -/
def Sound (s : Server) : Prop := Ledger s.live s.log s.nextTask s.nextPane

/-- A run in hand is projected and put back. -/
def restore (kind : OrchestrationKind) (result : Run × Server) : Server :=
  (result.2.project kind result.1).put kind result.1

/-- The ledger while a run is in hand. -/
def Holding (s : Server) (kind : OrchestrationKind) (run : Run) : Prop :=
  Ledger ((kind, run) :: s.live) s.log s.nextTask s.nextPane

/-- The run in hand changed, in its turn. -/
structure Continues (kind : OrchestrationKind) (run run' : Run) : Prop where
  task : run'.taskId = run.taskId
  panes : run'.rolePanes = run.rolePanes
  token : run'.state.token = run.state.token
  shaped : Shaped kind run'

theorem Continues.refl {kind : OrchestrationKind} {run : Run} (shaped : Shaped kind run) :
    Continues kind run run := ⟨rfl, rfl, rfl, shaped⟩

variable {s t : Server} {kind : OrchestrationKind} {w : World} {run run' : Run} {action : Action}

theorem Sound.taken (sound : s.Sound) {fits : Run → Bool} (taken : s.take kind fits = some (run, t)) :
    t.Holding kind run := by
  obtain ⟨_, rest, rfl, perm⟩ := take_some taken
  exact Ledger.perm sound (live_take perm)

theorem Holding.shape (holding : s.Holding kind run) : Shaped kind run :=
  holding.shaped (kind, run) List.mem_cons_self

theorem Holding.restored (holding : s.Holding kind run) (task : run'.taskId = run.taskId)
    (panes : run'.rolePanes = run.rolePanes) (shaped : Shaped kind run')
    (token : run'.state.token = run.state.token ∨
      run'.state.token ∉ s.live.map (·.2.state.token)) :
    (restore kind (run', s)).Sound :=
  (Ledger.projected holding task panes shaped token).perm live_put.symm

/-- An action that does not end the run in hand: project and put back. -/
theorem Holding.applied (holding : s.Holding kind run) (task : run'.taskId = run.taskId)
    (panes : run'.rolePanes = run.rolePanes) (shaped : Shaped kind run')
    (token : run'.state.token = run.state.token ∨ run'.state.token ∉ s.live.map (·.2.state.token))
    (running : finishes action = false) :
    (restore kind (s.applyAction kind w run' action)).Sound := by
  have delivered := applyAction_delivered s kind w run' action
  have frame := applyAction_frame s kind w run' action
  obtain ⟨entries, silent, log⟩ := applyAction_silent s kind w run' running
  generalize s.applyAction kind w run' action = result at delivered frame log ⊢
  obtain ⟨run'', t⟩ := result
  have held : t.Holding kind run := by
    rw [Holding, frame.live, frame.nextTask, frame.nextPane, log]
    exact Ledger.silent holding silent
  refine held.restored (delivered.task.trans task) (delivered.panes.trans panes)
    (delivered.shaped shaped) ?_
  rw [delivered.state, frame.live]
  exact token

/-- An action that ends the run in hand: it is gone. -/
theorem Holding.over (holding : s.Holding kind run) (task : run'.taskId = run.taskId)
    (ended : finishes action = true) : (s.applyAction kind w run' action).2.Sound := by
  have frame := applyAction_frame s kind w run' action
  obtain ⟨outcome, log⟩ := applyAction_finished s kind w run' ended
  rw [Sound, frame.live, frame.nextTask, frame.nextPane, log, task]
  exact Ledger.finished holding outcome

end Keeping

section Tokens

variable {s t : Server} {result : Orchestrate.State × Action} {state : Orchestrate.State}
  {action : Action}

private theorem drawLoop_fresh {occupied : List ℕ} {fuel register token : ℕ}
    (drawn : Model.Server.drawLoop occupied fuel register = some token) : token ∉ occupied := by
  induction fuel generalizing register with
  | zero => cases drawn
  | succ fuel ih =>
    unfold Model.Server.drawLoop at drawn
    split at drawn
    · exact ih drawn
    · next fresh =>
      cases drawn
      exact fresh

/-- A scoped result: an injection under a fresh token, or the result as it is. -/
theorem scopeActivationToken_some
    (issued : s.scopeActivationToken result = some (t, state, action)) :
    (∃ role old token, result.2 = .inject role old ∧ token ∉ s.occupied ∧
        t = { s with tokenState := token } ∧ state = { result.1 with token := token } ∧
        action = .inject role token) ∨
      ((∀ role token, action ≠ .inject role token) ∧ t = s ∧ (state, action) = result) := by
  unfold scopeActivationToken at issued
  split at issued
  · next role old =>
    obtain ⟨token, drawn, same⟩ := Option.bind_eq_some_iff.mp issued
    cases same
    exact .inl ⟨role, old, token, rfl, drawLoop_fresh drawn, rfl, rfl, rfl⟩
  · next other =>
    cases issued
    exact .inr ⟨fun role token same => other role token same, rfl, rfl⟩

private theorem scopeActivationToken_phase
    (issued : s.scopeActivationToken result = some (t, state, action)) :
    state.phase = result.1.phase := by
  rcases scopeActivationToken_some issued with ⟨_, _, _, _, _, _, rfl, _⟩ | ⟨_, _, rfl⟩
  · rfl
  · rfl

private theorem occupied_of_live {token : ℕ} (listed : token ∈ s.live.map (·.2.state.token)) :
    token ∈ s.occupied := by
  obtain ⟨⟨kind, run⟩, live, rfl⟩ := List.mem_map.mp listed
  have inside := mem_live.mp live
  cases kind <;> simp only [occupied, List.mem_append, List.mem_map]
  · exact .inl (.inl ⟨run, inside, rfl⟩)
  · exact .inl (.inr ⟨run, inside, rfl⟩)

end Tokens

section Advancing

variable {s t : Server} {kind : OrchestrationKind} {w : World} {run run' : Run} {event : Event}
  {state : Orchestrate.State} {action : Action}

/-- The run in hand advances by an event: it ends, or it comes back under its projection. -/
theorem Holding.advance (holding : s.Holding kind run) (w : World) (continues : Continues kind run run')
    (idle : run'.idleDeadline = none ∨ (run'.state.step event).1.cur = run'.state.cur)
    (issued : s.scopeActivationToken (run'.state.step event) = some (t, state, action)) :
    (state.phase.over = true ∧
        (t.applyAction kind w { run' with state := state } action).2.Sound) ∨
      ((state.phase = .awaiting ∨ state.phase = .paused) ∧
        (restore kind (t.applyAction kind w { run' with state := state } action)).Sound) := by
  have shaped := continues.shaped
  obtain ⟨roles, stepped⟩ := step_phase shaped.indexed shaped.phase event
  have indexed := shaped.indexed.step event
  rcases scopeActivationToken_some issued with
    ⟨role, old, token, injects, fresh, rfl, rfl, rfl⟩ | ⟨kept, rfl, same⟩
  · rw [injects] at stepped
    obtain ⟨impossible, _⟩ | ⟨_, phase⟩ := stepped
    · cases impossible
    · refine .inr ⟨phase, ?_⟩
      have held : ({ s with tokenState := token } : Server).Holding kind run := holding
      refine held.applied continues.task continues.panes ?_ (.inr ?_) rfl
      · exact shaped.stepped ⟨indexed.cur, indexed.fixTarget, indexed.replanTarget⟩ roles phase idle
      · exact fun listed => fresh (occupied_of_live listed)
  · obtain ⟨rfl, rfl⟩ := Prod.ext_iff.mp same
    obtain ⟨ends, ended⟩ | ⟨running, phase⟩ := stepped
    · exact .inl ⟨ended, holding.over continues.task ends⟩
    · refine .inr ⟨phase, holding.applied continues.task continues.panes
        (shaped.stepped indexed roles phase idle) (.inl ?_) running⟩
      exact (step_token shaped.indexed kept).trans continues.token

/-- An event without a licence leaves the run in hand in its turn. -/
theorem Holding.unlicensed (holding : s.Holding kind run) (continues : Continues kind run run')
    (w : World) (event : Event)
    (unlicensed : ¬ run'.state.Licensed (some run'.state.token) event) (going : event ≠ .stop) :
    (run'.state.step event).1.phase.over = false ∧
      (restore kind (s.applyAction kind w { run' with state := (run'.state.step event).1 }
        (run'.state.step event).2)).Sound := by
  have shaped := continues.shaped
  obtain ⟨roles, stepped⟩ := step_phase shaped.indexed shaped.phase event
  obtain ⟨running, cur, kept⟩ := step_unlicensed shaped.indexed unlicensed going
  have indexed := shaped.indexed.step event
  obtain ⟨ends, _⟩ | ⟨_, phase⟩ := stepped
  · rw [running] at ends
    cases ends
  · refine ⟨?_, holding.applied continues.task continues.panes ?_ (.inl ?_) running⟩
    · rcases phase with phase | phase <;> rw [phase] <;> rfl
    · exact shaped.stepped indexed roles phase (.inr cur)
    · exact (step_token shaped.indexed kept).trans continues.token

end Advancing

section Operations

variable {s t : Server} {kind : OrchestrationKind} {w : World} {run run' : Run}

/-- Runs of one kind change in what their durable images leave out. -/
theorem Sound.retimed (sound : s.Sound) {runs : List Run}
    (same : runs.map (Run.durable kind) = (s.runs kind).map (Run.durable kind))
    (shaped : ∀ run ∈ runs, Shaped kind run) : (s.withRuns kind runs).Sound := by
  have images : (s.withRuns kind runs).live.map (fun entry => entry.2.durable entry.1) =
      s.live.map fun entry => entry.2.durable entry.1 := by
    simp only [live, liveRuns, List.map_append, List.map_map]
    cases kind with
    | workflow =>
      rw [runs_withRuns_self, runs_withRuns_of_ne (by decide)]
      exact congrArg (· ++ _) same
    | relay =>
      rw [runs_withRuns_self, runs_withRuns_of_ne (by decide)]
      exact congrArg (_ ++ ·) same
  refine Ledger.retimed sound images ?_
  rintro ⟨other, run⟩ listed
  have inside := mem_live.mp listed
  by_cases own : other = kind
  · subst own
    rw [runs_withRuns_self] at inside
    exact shaped run inside
  · rw [runs_withRuns_of_ne own] at inside
    exact sound.shaped (other, run) (mem_live.mpr inside)

theorem Sound.shape (sound : s.Sound) (listed : run ∈ s.runs kind) : Shaped kind run :=
  sound.shaped (kind, run) (mem_live.mpr listed)

/-- A live run can be taken out of its list. -/
theorem Sound.hold (sound : s.Sound) (listed : run ∈ s.runs kind) :
    ∃ rest, (s.runs kind).Perm (run :: rest) ∧ (s.withRuns kind rest).Holding kind run := by
  obtain ⟨before, behind, split⟩ := List.append_of_mem listed
  have perm : (s.runs kind).Perm (run :: (before ++ behind)) := split ▸ List.perm_middle
  exact ⟨_, perm, Ledger.perm sound (live_take perm)⟩

theorem Sound.removed (sound : s.Sound) {index : ℕ} (read : (s.runs kind)[index]? = some run) :
    (s.withRuns kind (swapRemove (s.runs kind) index)).Holding kind run :=
  Ledger.perm sound (live_take (swapRemove_perm read))

/-- One run changes in place in what its durable image leaves out. -/
theorem Sound.set (sound : s.Sound) {index : ℕ} (read : (s.runs kind)[index]? = some run)
    (shaped : Shaped kind run') (same : run'.durable kind = run.durable kind) :
    (s.withRuns kind ((s.runs kind).set index run')).Sound := by
  refine sound.retimed ?_ ?_
  · obtain ⟨low, rfl⟩ := List.getElem?_eq_some_iff.mp read
    rw [List.map_set, same, ← List.getElem_map (Run.durable kind) (h := by simpa using low),
      List.set_getElem_self]
  · intro other listed
    rcases List.mem_or_eq_of_mem_set listed with old | rfl
    · exact sound.shape old
    · exact shaped

/-- A live run may be projected at any time. -/
theorem Sound.project (sound : s.Sound) (listed : run ∈ s.runs kind) : (s.project kind run).Sound := by
  obtain ⟨rest, perm, holding⟩ := sound.hold listed
  exact (Ledger.projected holding rfl rfl holding.shape (.inl rfl)).perm (live_take perm).symm

/-- The deadlines of all runs of a kind change. -/
theorem Sound.mapRuns (sound : s.Sound) {change : Run → Run}
    (same : ∀ run, (change run).durable kind = run.durable kind)
    (shaped : ∀ run, Shaped kind run → Shaped kind (change run)) : (s.mapRuns kind change).Sound := by
  refine sound.retimed ?_ ?_
  · rw [List.map_map]
    exact List.map_congr_left fun run _ => same run
  · intro run listed
    obtain ⟨old, inside, rfl⟩ := List.mem_map.mp listed
    exact shaped old (sound.shape inside)

theorem Sound.stallRun (sound : s.Sound) (kind : OrchestrationKind) (w : World) (taskId : ℕ) :
    (stallRun kind w s taskId).Sound := by
  unfold Server.stallRun
  split
  · exact sound
  · next run t taken =>
    have holding := sound.taken taken
    have continues : Continues kind run { run with stallDeadline := none } :=
      ⟨rfl, rfl, rfl, { holding.shape with }⟩
    obtain ⟨running, restored⟩ := holding.unlicensed continues w .stall nofun nofun
    dsimp only at running restored ⊢
    generalize run.state.step .stall = next at running restored ⊢
    obtain ⟨state, action⟩ := next
    have delivered :=
      applyAction_delivered t kind w { run with stallDeadline := none, state := state } action
    dsimp only at running restored delivered ⊢
    generalize t.applyAction kind w _ action = result at restored delivered ⊢
    have after : result.1.state = state := delivered.state
    rw [after, running]
    exact restored

theorem Sound.elapseRun (sound : s.Sound) (kind : OrchestrationKind) (w : World) (taskId : ℕ) :
    (elapseRun kind w s taskId).Sound := by
  unfold Server.elapseRun
  split
  · exact sound
  · next run t taken =>
    have holding := sound.taken taken
    dsimp only
    split
    · next within =>
      -- The elapsed time is at least the limit, so there always is a reason.
      unfold evaluateElapsed at within
      split at within
      · next early => exact absurd early (Nat.not_lt.mpr (Nat.le_max_right _ _))
      · cases within
    · next reason _ =>
      have continues : Continues kind run { run with
          elapsedDeadline := none, elapsedGuardTriggered := true, stallDeadline := none
          idleDeadline := none } :=
        ⟨rfl, rfl, rfl, { holding.shape with idle := nofun }⟩
      exact (holding.unlicensed continues w (.guardrail reason) nofun nofun).2

theorem Sound.idleRun (sound : s.Sound) {taskId : ℕ} (ran : idleRun kind w s taskId = some t) :
    t.Sound := by
  unfold Server.idleRun at ran
  split at ran
  · cases ran
    exact sound
  · next run held taken =>
    have holding := sound.taken taken
    dsimp only at ran
    rcases stepped : run.state.step (.idle run.state.cur) with ⟨next, answer⟩
    rw [stepped] at ran
    dsimp only at ran
    obtain ⟨⟨s', state, action⟩, issued, ran⟩ := Option.bind_eq_some_iff.mp ran
    generalize noted : (if answer = Action.hold then held else _) = server at issued
    have logged : server.Holding kind run := by
      rw [← noted]
      split
      · exact holding
      · exact Ledger.noted holding trivial
    rw [← stepped] at issued
    have continues : Continues kind run { run with idleDeadline := none, stallDeadline := none } :=
      ⟨rfl, rfl, rfl, { holding.shape with idle := nofun }⟩
    have advanced := logged.advance w continues (.inl rfl) issued
    have delivered := applyAction_delivered s' kind w
      { run with idleDeadline := none, stallDeadline := none, state := state } action
    dsimp only at advanced delivered ran
    generalize s'.applyAction kind w _ action = result at advanced delivered ran
    have after : result.1.state = state := delivered.state
    rw [after] at ran
    rcases advanced with ⟨halted, ended⟩ | ⟨phase, restored⟩
    · rw [halted] at ran
      cases ran
      exact ended
    · rw [if_neg (by rcases phase with phase | phase <;> rw [phase] <;> decide)] at ran
      cases ran
      exact restored

theorem Sound.clearIdle (sound : s.Sound) (kind : OrchestrationKind) (server : Server) :
    (s.mapRuns kind server.clearIdle).Sound := by
  apply sound.mapRuns
  · intro run
    unfold Server.clearIdle
    split <;> rfl
  · intro run shaped
    unfold Server.clearIdle
    split
    · exact { shaped with idle := nofun }
    · exact shaped

theorem Sound.reconcileRun (sound : s.Sound) (kind : OrchestrationKind) (server : Server) (w : World)
    (pane : PaneId) (status : Work.AgentStatus) :
    (s.mapRuns kind (server.reconcileRun w pane status)).Sound := by
  apply sound.mapRuns
  · intro run
    unfold Server.reconcileRun
    split <;> rfl
  · intro run shaped
    unfold Server.reconcileRun
    split
    · refine { shaped with idle := ?_ }
      dsimp only
      intro set
      split at set
      · next allowed =>
        simp only [orchestrationIdleAllowed, Bool.and_eq_true, Bool.not_eq_true',
          Bool.not_eq_false', List.isEmpty_iff] at allowed
        exact ⟨allowed.1.2, allowed.2⟩
      · cases set
    · exact shaped

theorem Sound.submit (sound : s.Sound) {token : ℕ} {status : SubmitStatus}
    {verdict : Option String} {summary : Text} {artifacts : List ArtifactClaim} {validated : Bool}
    (ran : s.submit kind w token status verdict summary artifacts validated = some t) : t.Sound := by
  unfold Server.submit at ran
  dsimp only at ran
  split at ran
  · cases ran
    exact sound
  split at ran
  · cases ran
    exact sound
  next index _ _ run read =>
  have shaped : Shaped kind { run with stallDeadline := none, idleDeadline := none } :=
    { sound.shape (List.mem_of_getElem? read) with idle := nofun }
  have touched := sound.set read shaped rfl
  have placed : ((s.withRuns kind ((s.runs kind).set index
      { run with stallDeadline := none, idleDeadline := none })).runs kind)[index]? =
        some { run with stallDeadline := none, idleDeadline := none } := by
    obtain ⟨low, _⟩ := List.getElem?_eq_some_iff.mp read
    rw [runs_withRuns_self, List.getElem?_set_self low]
  generalize s.withRuns kind ((s.runs kind).set index _) = s₁ at touched placed ran
  generalize noted : (if validated = true then s₁ else _) = s₂ at ran
  have sound₂ : s₂.Sound ∧ (s₂.runs kind)[index]? =
      some { run with stallDeadline := none, idleDeadline := none } := by
    rw [← noted]
    split
    · exact ⟨touched, placed⟩
    · exact ⟨Ledger.noted touched trivial, placed⟩
  clear touched placed noted
  obtain ⟨sound₂, placed⟩ := sound₂
  split at ran
  · split at ran
    · cases ran
      exact sound₂
    · cases ran
      exact Ledger.noted sound₂ trivial
  · generalize noted : (if validated = true then _ else s₂) = s₃ at ran
    have sound₃ : s₃.Sound ∧ (s₃.runs kind)[index]? =
        some { run with stallDeadline := none, idleDeadline := none } := by
      rw [← noted]
      split
      · exact ⟨Ledger.noted sound₂ trivial, placed⟩
      · exact ⟨sound₂, placed⟩
    clear sound₂ placed noted
    obtain ⟨sound₃, placed⟩ := sound₃
    split at ran
    · cases ran
      exact Sound.project (s := s₃.request _ _ _ _) sound₃ (List.mem_of_getElem? placed)
    · generalize resolved : s₃.resolvePaneKind _ _ = s₄ at ran
      have sound₄ : s₄.Sound ∧ (s₄.runs kind)[index]? =
          some { run with stallDeadline := none, idleDeadline := none } := by
        rw [← resolved]
        exact ⟨sound₃, placed⟩
      clear sound₃ placed resolved
      obtain ⟨sound₄, placed⟩ := sound₄
      obtain ⟨⟨s', state, action⟩, issued, ran⟩ := Option.bind_eq_some_iff.mp ran
      have advanced := (sound₄.removed placed).advance w (.refl shaped) (.inl rfl) issued
      have delivered := applyAction_delivered s' kind w
        { run with idleDeadline := none, stallDeadline := none, state := state } action
      dsimp only at advanced delivered ran
      generalize s'.applyAction kind w _ action = result at advanced delivered ran
      have after : result.1.state = state := delivered.state
      rw [after] at ran
      rcases advanced with ⟨halted, ended⟩ | ⟨phase, restored⟩
      · rw [if_neg (by rintro (phase | phase) <;> rw [phase] at halted <;> cases halted)] at ran
        cases ran
        exact ended
      · rw [if_pos phase] at ran
        cases ran
        exact restored

theorem Sound.reportArtifactGateFailure (sound : s.Sound) (kind : OrchestrationKind) (token : ℕ)
    (error : Text) : (s.reportArtifactGateFailure kind token error).Sound := by
  unfold Server.reportArtifactGateFailure
  split <;> exact sound

theorem Sound.artifactValidated (sound : s.Sound) {taskId token : ℕ}
    {artifacts : List ArtifactClaim} {error : Option Text} {recorded : Except Text Unit}
    (ran : s.artifactValidated w kind taskId token artifacts error recorded = some t) :
    t.Sound := by
  unfold Server.artifactValidated at ran
  dsimp only at ran
  split at ran
  · cases ran
    exact sound
  split at ran
  · cases ran
    exact sound
  next index _ _ pending _ =>
  have dropped : ({ s with submissions := swapRemove s.submissions index } : Server).Sound := sound
  split at ran
  · cases ran
    exact dropped.reportArtifactGateFailure ..
  · cases ran
    exact dropped.reportArtifactGateFailure ..
  · exact dropped.submit ran

theorem Sound.flushArtifactValidationsDue (sound : s.Sound) (w : World) :
    (s.flushArtifactValidationsDue w).Sound := by
  unfold Server.flushArtifactValidationsDue
  dsimp only
  refine List.foldlRecOn _ _ (motive := Sound) sound fun server kept pending _ => ?_
  unfold expireValidation
  split <;> exact kept

theorem Sound.flushOrchestrationStalls (sound : s.Sound) (w : World) :
    (s.flushOrchestrationStalls w).Sound := by
  unfold Server.flushOrchestrationStalls
  refine List.foldlRecOn _ _ (motive := Sound) ?_ fun server kept taskId _ => kept.stallRun ..
  exact List.foldlRecOn _ _ (motive := Sound) sound fun server kept taskId _ => kept.stallRun ..

theorem Sound.flushOrchestrationElapsedDue (sound : s.Sound) (w : World) :
    (s.flushOrchestrationElapsedDue w).Sound := by
  unfold Server.flushOrchestrationElapsedDue
  refine List.foldlRecOn _ _ (motive := Sound) ?_ fun server kept taskId _ => kept.elapseRun ..
  exact List.foldlRecOn _ _ (motive := Sound) sound fun server kept taskId _ => kept.elapseRun ..

theorem foldlM_idleRun (sound : s.Sound) {tasks : List ℕ}
    (ran : tasks.foldlM (idleRun kind w) s = some t) : t.Sound := by
  induction tasks generalizing s with
  | nil =>
    cases ran
    exact sound
  | cons taskId tasks ih =>
    obtain ⟨mid, first, rest⟩ := Option.bind_eq_some_iff.mp ran
    exact ih (sound.idleRun first) rest

theorem Sound.flushOrchestrationIdleDue (sound : s.Sound)
    (ran : s.flushOrchestrationIdleDue w = some t) : t.Sound := by
  unfold Server.flushOrchestrationIdleDue at ran
  obtain ⟨mid, first, rest⟩ := Option.bind_eq_some_iff.mp ran
  exact foldlM_idleRun (foldlM_idleRun ((sound.clearIdle .workflow s).clearIdle .relay s) first) rest

/-- One run changes in place and is projected. -/
theorem Sound.modified (sound : s.Sound) {index : ℕ} (read : (s.runs kind)[index]? = some run)
    {change : Run → Run} (continues : Continues kind run (change run)) :
    ((s.withRuns kind ((s.runs kind).modify index change)).project kind (change run)).Sound := by
  obtain ⟨low, rfl⟩ := List.getElem?_eq_some_iff.mp read
  have cut : s.runs kind = (s.runs kind).take index ++ (s.runs kind)[index] ::
      (s.runs kind).drop (index + 1) := by
    rw [List.getElem_cons_drop, List.take_append_drop]
  have before : (s.runs kind).Perm ((s.runs kind)[index] ::
      ((s.runs kind).take index ++ (s.runs kind).drop (index + 1))) :=
    (List.Perm.of_eq cut).trans List.perm_middle
  have behind : ((s.withRuns kind ((s.runs kind).modify index change)).runs kind).Perm
      (change (s.runs kind)[index] ::
        ((s.runs kind).take index ++ (s.runs kind).drop (index + 1))) := by
    rw [runs_withRuns_self, List.modify_eq_take_cons_drop low]
    exact List.perm_middle
  have holding : (s.withRuns kind _).Holding kind _ := Ledger.perm sound (live_take before)
  have projected := Ledger.projected holding continues.task continues.panes continues.shaped
    (.inl continues.token)
  have back := live_take behind
  rw [show (s.withRuns kind ((s.runs kind).modify index change)).withRuns kind
      ((s.runs kind).take index ++ (s.runs kind).drop (index + 1)) =
        s.withRuns kind ((s.runs kind).take index ++ (s.runs kind).drop (index + 1)) by
    simp [withRuns]] at back
  exact projected.perm back.symm

/-- A task names one live run. -/
theorem Sound.unique (sound : s.Sound) {other : Run} (listed : run ∈ s.runs kind)
    (known : other ∈ s.runs kind) (same : run.taskId = other.taskId) : run = other := by
  have equal := List.inj_on_of_nodup_map sound.tasks (mem_live.mpr listed) (mem_live.mpr known) same
  exact (Prod.mk.inj equal).2

/-- The run of a task changes in place and is found there again. -/
theorem Sound.modifiedTask (sound : s.Sound) (listed : run ∈ s.runs kind) {change : Run → Run}
    (continues : ∀ run, Shaped kind run → Continues kind run (change run)) {runs : List Run}
    (changed : (s.runs kind).modify ((s.runs kind).findIdx (·.taskId == run.taskId)) change = runs) :
    ∃ found, runs.find? (·.taskId == run.taskId) = some found ∧
      ((s.withRuns kind runs).project kind found).Sound := by
  have here : (s.runs kind).findIdx (·.taskId == run.taskId) < (s.runs kind).length :=
    List.findIdx_lt_length_of_exists ⟨run, listed, beq_self_eq_true _⟩
  have owner : ((s.runs kind)[(s.runs kind).findIdx (·.taskId == run.taskId)]).taskId = run.taskId :=
    beq_iff_eq.mp (List.findIdx_getElem (w := here))
  have read := List.getElem?_eq_getElem here
  generalize (s.runs kind)[(s.runs kind).findIdx (·.taskId == run.taskId)] = first at owner read
  have continues := continues first (sound.shape (List.mem_of_getElem? read))
  have modified := sound.modified read continues
  have inside : change first ∈ runs := by
    subst changed
    refine List.mem_of_getElem? (i := (s.runs kind).findIdx (·.taskId == run.taskId)) ?_
    rw [List.getElem?_modify_eq, read]
    rfl
  rw [changed] at modified
  cases found : runs.find? (·.taskId == run.taskId) with
  | none =>
    have missing := List.find?_eq_none.mp found _ inside
    exact absurd (beq_iff_eq.mpr (continues.task.trans owner)) missing
  | some answer =>
    refine ⟨answer, rfl, ?_⟩
    have task : answer.taskId = run.taskId := by simpa using List.find?_some found
    have member := List.mem_of_find?_eq_some found
    have placed : (s.withRuns kind runs).runs kind = runs := runs_withRuns_self runs
    rw [← placed] at member inside
    have same := Sound.unique modified member inside (task.trans (continues.task.trans owner).symm)
    rw [same]
    exact modified

theorem Sound.retryDelivery (sound : s.Sound) (w : World) (delivery : PendingDelivery) :
    (retryDelivery w s delivery).Sound := by
  unfold Server.retryDelivery
  split
  · exact sound
  next run found =>
  have fits := List.find?_some found
  simp only [Bool.and_eq_true, beq_iff_eq] at fits
  dsimp only
  split
  · generalize noted : s.append _ = s₁
    have logged : s₁.Sound ∧ run ∈ s₁.runs delivery.kind := by
      rw [← noted]
      exact ⟨Ledger.noted sound trivial, List.mem_of_find?_eq_some found⟩
    rw [← fits.1.1]
    generalize changed : (s₁.runs delivery.kind).modify _ _ = runs
    obtain ⟨answer, again, projected⟩ := logged.1.modifiedTask logged.2 (fun first shaped => by
      split
      · exact ⟨rfl, rfl, rfl, { shaped with started := List.length_set.trans shaped.started }⟩
      · exact ⟨rfl, rfl, rfl, { shaped with }⟩) changed
    have placed : ((s₁.withRuns delivery.kind runs).resolvePaneKind delivery.pane
        (waitingKind delivery.kind)).runs delivery.kind = runs :=
      runs_withRuns_self (s := s₁) runs
    rw [placed, again]
    exact projected
  · split
    · exact Ledger.noted sound trivial
    · exact Ledger.noted sound trivial

theorem Sound.flushPromptDeliveriesDue (sound : s.Sound) (w : World) :
    (s.flushPromptDeliveriesDue w).Sound := by
  unfold Server.flushPromptDeliveriesDue
  dsimp only
  exact List.foldlRecOn _ _ (motive := Sound) sound fun server kept delivery _ =>
    kept.retryDelivery w delivery

theorem Sound.relayCheckpointCreated (sound : s.Sound) (w : World) (taskId token : ℕ)
    (checkpoint : Option String) : (s.relayCheckpointCreated w taskId token checkpoint).Sound := by
  unfold Server.relayCheckpointCreated
  split
  · exact sound
  split
  · exact sound
  next index _ _ pending _ =>
  have dropped : ({ s with activations := swapRemove s.activations index } : Server).Sound := sound
  dsimp only
  split
  · exact dropped
  next run t taken =>
  have holding := dropped.taken taken
  exact holding.applied rfl rfl { holding.shape with } (.inl rfl) rfl

theorem Holding.resumeRun (holding : s.Holding kind run) (ran : s.resumeRun kind w run = some t) :
    t.Sound := by
  unfold Server.resumeRun at ran
  split at ran
  · next paused =>
    dsimp only at ran
    obtain ⟨⟨s', state, action⟩, issued, ran⟩ := Option.bind_eq_some_iff.mp ran
    have continues : Continues kind run { run with
        elapsedDeadline :=
          elapsedDeadline w run.startedAtMs run.guardLimits run.elapsedGuardTriggered } :=
      ⟨rfl, rfl, rfl, { holding.shape with }⟩
    have opens : run.state.step .resume = run.state.openTurn := by
      unfold State.step
      rw [paused]
    have advanced := holding.advance w continues (.inr (by rw [opens]; rfl)) issued
    have phase := scopeActivationToken_phase issued
    rw [opens] at phase
    cases ran
    refine (advanced.resolve_left ?_).2
    rintro ⟨ended, _⟩
    rw [phase] at ended
    cases ended
  · have restored : (restore kind
        (s.applyAction kind w run (.inject run.state.cur run.state.token))).Sound :=
      holding.applied rfl rfl holding.shape (.inl rfl) rfl
    cases ran
    exact restored

theorem Sound.resumeWaitingOrchestration (sound : s.Sound) {pane : PaneId}
    (ran : s.resumeWaitingOrchestration w pane = some t) : t.Sound := by
  unfold Server.resumeWaitingOrchestration at ran
  dsimp only at ran
  split at ran
  · next run held taken => exact (sound.taken taken).resumeRun ran
  split at ran
  · next run held taken => exact (sound.taken taken).resumeRun ran
  · cases ran
    exact sound

/-- The stall deadline of the first run that fits changes. -/
theorem Sound.armed (sound : s.Sound) (kind : OrchestrationKind) (fits : Run → Bool)
    (deadline : Option ℕ) :
    (s.modifyFirst kind fits fun run => { run with stallDeadline := deadline }).Sound := by
  refine sound.retimed ?_ ?_
  · refine List.ext_getElem? fun position => ?_
    rw [List.getElem?_map, List.getElem?_map, List.getElem?_modify]
    cases (s.runs kind)[position]? with
    | none => rfl
    | some run => split <;> rfl
  · intro run listed
    obtain ⟨position, read⟩ := List.mem_iff_getElem?.mp listed
    rw [List.getElem?_modify] at read
    obtain ⟨old, known, same⟩ := Option.map_eq_some_iff.mp read
    have shaped := sound.shape (List.mem_of_getElem? known)
    split at same
    · subst same
      exact { shaped with }
    · exact same ▸ shaped

theorem Sound.armOrchestrationDeadline (sound : s.Sound) (w : World) (pane : PaneId) :
    (s.armOrchestrationDeadline w pane).Sound := by
  unfold Server.armOrchestrationDeadline
  exact (sound.armed .workflow _ _).armed .relay _ _

theorem Sound.cancelFrom (sound : s.Sound) (kind : OrchestrationKind) (pane : PaneId)
    (fuel index : ℕ) : (cancelFrom kind pane fuel index s).Sound := by
  induction fuel generalizing index s with
  | zero => exact sound
  | succ fuel ih =>
    unfold Server.cancelFrom
    split
    · exact sound
    next run read =>
    split
    · have ended : ((s.withRuns kind (swapRemove (s.runs kind) index)).finish kind run.taskId
          "role Pane closed").Sound := Ledger.finished (sound.removed read) _
      cases kind with
      | workflow => exact ih ended _
      | relay =>
        have dropped : ({ (s.withRuns .relay (swapRemove (s.runs .relay) index)).finish .relay
            run.taskId "role Pane closed" with
          activations := s.activations.filter (·.taskId != run.taskId) } : Server).Sound := ended
        exact ih dropped _
    · exact ih sound _

theorem Sound.closePane (sound : s.Sound) (pane : PaneId) : (s.closePane pane).Sound := by
  unfold Server.closePane
  have dropped : ({ s with deliveries := s.deliveries.filter (·.pane != pane) } : Server).Sound := sound
  exact (dropped.cancelFrom .workflow pane _ _).cancelFrom .relay pane _ _

theorem Sound.answer (sound : s.Sound) (w : World) (item : WaitingItem) (text : Text) :
    (s.answer w item text).Sound := by
  unfold Server.answer
  dsimp only
  split
  · exact sound
  split
  · exact sound
  split
  · exact sound
  split
  · have noted : ((s.resolvePane item.pane).append (.answered item.pane)).Sound :=
      Ledger.noted sound trivial
    exact noted.armOrchestrationDeadline w item.pane
  · exact sound

theorem Sound.waitingAction (sound : s.Sound) {id : ℕ} {action : WaitingAction}
    (ran : s.waitingAction w id action = some t) : t.Sound := by
  unfold Server.waitingAction at ran
  split at ran
  · cases ran
    exact sound
  next item _ =>
  split at ran
  · cases ran
    exact sound
  cases action with
  | answer text =>
    cases ran
    exact sound.answer w item text
  | dismiss =>
    dsimp only at ran
    split at ran <;> (cases ran; exact sound)
  | stop =>
    cases ran
    refine List.foldlRecOn _ _ (motive := Sound) sound fun server kept pane _ => ?_
    split
    · exact kept.closePane pane
    · exact kept
  | resume =>
    dsimp only at ran
    split at ran
    · cases ran
      exact sound
    · have resolved : ({ s with waiting := (s.waiting.resolve id).1 } : Server).Sound := sound
      split at ran
      · cases ran
        exact resolved
      · exact resolved.resumeWaitingOrchestration ran
  | _ =>
    cases ran
    exact sound

theorem Sound.relayCheckpointRolledBack (sound : s.Sound) {id : ℕ} {error : Option Text}
    (ran : s.relayCheckpointRolledBack w id error = some t) : t.Sound := by
  unfold Server.relayCheckpointRolledBack at ran
  split at ran
  · split at ran <;> (cases ran; exact sound)
  · have resolved : ({ s with waiting := (s.waiting.resolve id).1 } : Server).Sound := sound
    dsimp only at ran
    split at ran
    · cases ran
      exact resolved
    · exact resolved.resumeWaitingOrchestration ran

theorem Sound.syncWaitingAgent (sound : s.Sound) (w : World) (pane : PaneId) (status : Work.AgentStatus)
    (summary : Text) : (s.syncWaitingAgent w pane status summary).Sound := by
  unfold Server.syncWaitingAgent
  split <;> exact sound

theorem Sound.notifyAgentTransition (sound : s.Sound) (w : World) (pane : PaneId)
    (status : Work.AgentStatus) (summary : Text) :
    (s.notifyAgentTransition w pane status summary).Sound :=
  ((sound.syncWaitingAgent w pane status summary).reconcileRun .workflow _ w pane status).reconcileRun
    .relay _ w pane status

end Operations

section Launching

variable {s t u : Server} {kind : OrchestrationKind} {w : World} {launch : Launch}
  {template : Option WorkflowTemplate} {roles : List Role} {run : Run} {state : Orchestrate.State}
  {action : Action}

/-- A launch opens the first turn of a run that is well shaped. -/
theorem newRun_shaped (kind : OrchestrationKind) (nonempty : roles ≠ []) (providers : launch.providers.length = roles.length)
    (bound : match kind with
      | .workflow => ∃ known, template = some known ∧ roles = known.engineRoles
      | .relay => template = none ∧ roles = relayRoles)
    (issued : t.scopeActivationToken ((s.newRun w launch template roles).state.step .start) =
      some (u, state, action)) :
    Shaped kind { s.newRun w launch template roles with state := state } ∧
      state.phase = .awaiting ∧ ∃ token, action = .inject 0 token ∧ state.token = token ∧
        token ∉ t.occupied ∧ u = { t with tokenState := token } := by
  have started : (s.newRun w launch template roles).state.step .start =
      (State.new roles launch.limits.maxIterations).openTurn := rfl
  have ready := State.ready_new nonempty launch.limits.maxIterations
  rw [started] at issued
  rcases scopeActivationToken_some issued with
    ⟨role, old, token, injects, fresh, rfl, rfl, rfl⟩ | ⟨kept, _, same⟩
  · cases injects
    refine ⟨?_, rfl, token, rfl, rfl, fresh, rfl⟩
    constructor
    · exact ⟨ready.cur, ready.fixTarget, ready.replanTarget⟩
    · exact (List.length_map _).trans List.length_range
    · exact providers
    · exact List.length_replicate
    · exact bound
    · exact .inl rfl
    · nofun
  · cases same
    exact absurd rfl (kept _ _)

/-- A run that its launch delivered to is projected and kept. -/
theorem Sound.launched (sound : s.Sound) (kind : OrchestrationKind) (nonempty : roles ≠ [])
    (providers : launch.providers.length = roles.length)
    (bound : match kind with
      | .workflow => ∃ known, template = some known ∧ roles = known.engineRoles
      | .relay => template = none ∧ roles = relayRoles)
    (issued : (s.spawned (s.newRun w launch template roles)).scopeActivationToken
      ((s.newRun w launch template roles).state.step .start) = some (t, state, action))
    (frame : Frame t u) (entries : List Entry) (silent : ∀ entry ∈ entries, entry.Silent)
    (log : u.log = t.log ++ entries)
    (delivered : Delivered { s.newRun w launch template roles with state := state } run) :
    ((u.project kind run).keep kind run).Sound := by
  obtain ⟨shaped, phase, token, rfl, own, fresh, rfl⟩ := newRun_shaped kind nonempty providers bound issued
  have awaiting : run.state.phase = .awaiting := by
    rw [delivered.state]
    exact phase
  rw [keep, if_pos (.inl awaiting)]
  have numbered : run.rolePanes = (List.range roles.length).map (s.nextPane + ·) := delivered.panes
  have base : Ledger u.live u.log s.nextTask s.nextPane := by
    rw [frame.live, log]
    exact Ledger.silent sound silent
  have added := base.added u.nextPane delivered.task ?_ ?_ ?_
    (delivered.shaped shaped) ?_
  · have task : u.nextTask = s.nextTask + 1 := frame.nextTask
    rw [← task] at added
    exact Ledger.perm added live_put.symm
  · rw [numbered]
    exact List.nodup_range.map fun _ _ same => Nat.add_left_cancel same
  · intro pane listed
    rw [numbered] at listed
    obtain ⟨offset, low, rfl⟩ := List.mem_map.mp listed
    have next : u.nextPane = s.nextPane + ((List.range roles.length).map (s.nextPane + ·)).length :=
      frame.nextPane
    rw [List.length_map, List.length_range] at next
    refine ⟨Nat.le_add_right .., ?_⟩
    rw [next]
    exact Nat.add_lt_add_left (List.mem_range.mp low) _
  · have next : u.nextPane = s.nextPane + (s.newRun w launch template roles).rolePanes.length :=
      frame.nextPane
    omega
  · rw [delivered.state, frame.live]
    show state.token ∉ _
    rw [own]
    exact fun listed => fresh (occupied_of_live listed)

theorem Sound.launchWorkflow (sound : s.Sound) {name : String}
    (ran : s.launchWorkflow w name launch = some t) : t.Sound := by
  unfold Server.launchWorkflow at ran
  split at ran
  · cases ran
    exact sound
  next template found =>
  split at ran
  · cases ran
    exact sound
  next providers =>
  dsimp only at ran
  obtain ⟨⟨s', state, action⟩, issued, ran⟩ := Option.bind_eq_some_iff.mp ran
  have listed := List.mem_of_find?_eq_some found
  have nonempty : template.engineRoles ≠ [] := by
    have known : ∀ template ∈ workflowTemplates, template.engineRoles ≠ [] := by decide
    exact known template listed
  have full : launch.providers.length = template.engineRoles.length := by
    rw [WorkflowTemplate.engineRoles, List.length_map]
    exact not_not.mp providers
  obtain ⟨_, _, token, rfl, _⟩ := newRun_shaped .workflow nonempty full ⟨_, rfl, rfl⟩ issued
  have delivered := inject_delivered s' .workflow w
    { s.newRun w launch (some template) template.engineRoles with state := state } 0 token
  have frame := inject_frame s' .workflow w
    { s.newRun w launch (some template) template.engineRoles with state := state } 0 token
  obtain ⟨entries, silent, log⟩ := inject_log s' .workflow w
    { s.newRun w launch (some template) template.engineRoles with state := state } 0 token
  have launched := sound.launched .workflow nonempty full ⟨_, rfl, rfl⟩ issued frame entries silent log
    delivered
  cases ran
  exact launched

theorem Sound.launchRelay (sound : s.Sound) (ran : s.launchRelay w launch = some t) : t.Sound := by
  unfold Server.launchRelay at ran
  split at ran
  · cases ran
    exact sound
  next providers =>
  dsimp only at ran
  obtain ⟨⟨s', state, action⟩, issued, ran⟩ := Option.bind_eq_some_iff.mp ran
  have nonempty : relayRoles ≠ [] := by decide
  have full := not_not.mp providers
  dsimp only at ran
  split at ran
  · -- The builder waits for its checkpoint: nothing is delivered yet.
    have waiting := sound.launched .relay nonempty full ⟨rfl, rfl⟩ issued
      ⟨rfl, rfl, rfl, rfl, rfl⟩ [] (List.forall_mem_nil _) (List.append_nil _).symm (.refl _)
    cases ran
    exact waiting
  · obtain ⟨_, _, token, rfl, _⟩ := newRun_shaped .relay nonempty full ⟨rfl, rfl⟩ issued
    have delivered := inject_delivered s' .relay w
      { s.newRun w launch none relayRoles with state := state } 0 token
    have frame := inject_frame s' .relay w
      { s.newRun w launch none relayRoles with state := state } 0 token
    obtain ⟨entries, silent, log⟩ := inject_log s' .relay w
      { s.newRun w launch none relayRoles with state := state } 0 token
    have launched := sound.launched .relay nonempty full ⟨rfl, rfl⟩ issued frame entries silent log
      delivered
    cases ran
    exact launched

end Launching

section Runs

/-- A step keeps the ledger. -/
theorem Sound.step {s t : Server} (sound : s.Sound) {input : World × Op}
    (stepped : s.step input = some t) : t.Sound := by
  obtain ⟨w, op⟩ := input
  cases op with
  | createTask =>
    cases stepped
    exact Ledger.grow sound (Nat.le_succ _) le_rfl
  | spawnPane =>
    cases stepped
    exact Ledger.grow sound le_rfl (Nat.le_succ _)
  | closePane pane =>
    cases stepped
    exact sound.closePane pane
  | launchWorkflow name launch => exact sound.launchWorkflow stepped
  | launchRelay launch => exact sound.launchRelay stepped
  | workflowSubmit token status verdict summary artifacts => exact sound.submit stepped
  | relaySubmit token status summary artifacts => exact sound.submit stepped
  | artifactValidated kind taskId token artifacts error recorded =>
    exact sound.artifactValidated stepped
  | flushValidations =>
    cases stepped
    exact sound.flushArtifactValidationsDue w
  | flushStalls =>
    cases stepped
    exact sound.flushOrchestrationStalls w
  | flushElapsed =>
    cases stepped
    exact sound.flushOrchestrationElapsedDue w
  | flushIdle => exact sound.flushOrchestrationIdleDue stepped
  | flushDeliveries =>
    cases stepped
    exact sound.flushPromptDeliveriesDue w
  | checkpointCreated taskId token checkpoint =>
    cases stepped
    exact sound.relayCheckpointCreated w taskId token checkpoint
  | checkpointRolledBack id error => exact sound.relayCheckpointRolledBack stepped
  | resume pane => exact sound.resumeWaitingOrchestration stepped
  | waitingAction id action => exact sound.waitingAction stepped
  | agentTransition pane status summary =>
    cases stepped
    exact sound.notifyAgentTransition w pane status summary
  | agentObserved pane status summary =>
    cases stepped
    exact sound.syncWaitingAgent w pane status summary
  | agentExited pane =>
    cases stepped
    exact sound

/-- A server before anything is launched. -/
def fresh (tokenState : ℕ) : Server := { tokenState := tokenState }

theorem fresh_sound (tokenState : ℕ) : (fresh tokenState).Sound := by
  have none : (fresh tokenState).live = [] := rfl
  refine ⟨?_, ?_, ?_, ?_, ?_, ?_, fun taskId durable => ?_⟩ <;> rw [none]
  · exact List.nodup_nil
  · exact List.forall_mem_nil _
  · exact List.nodup_nil
  · exact List.forall_mem_nil _
  · exact List.nodup_nil
  · exact List.forall_mem_nil _
  · constructor
    · intro replays
      exact absurd replays (by simp [fresh, replayed])
    · rintro ⟨entry, listed, -⟩
      exact absurd listed List.not_mem_nil

/-- A world in which every Pane takes its prompts. -/
def willing : World where
  now := 0
  nowMs := 0
  accepts _ _ := true
  takesAnswer _ := true
  hasRoot _ := true
  invocation _ := none
  status _ := none

end Runs

end Server

end Uniterm.Model.Orchestration
