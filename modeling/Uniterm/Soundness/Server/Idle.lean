import Uniterm.Soundness.Server.Replayed

/-! # The idle fallback

A role whose agent falls silent is taken for done after a delay. The deadline is set by nothing but a
transition of the agent in the role's own Pane, and it goes when the role changes. So the fallback advances
no verifier, no role that declares artifacts, no role that waits for a human or for a validation, and no role
whose agent was not seen idle for the whole delay.
-/

namespace Uniterm.Model.Orchestration

open EventLog Orchestrate Runs Work ToMathlib

/-- The same role of the same run, with the same idle deadline. -/
structure SameTurn (run run' : Run) : Prop where
  template : run'.template = run.template
  panes : run'.rolePanes = run.rolePanes
  cur : run'.state.cur = run.state.cur
  idle : run'.idleDeadline = run.idleDeadline

theorem SameTurn.refl (run : Run) : SameTurn run run := ⟨rfl, rfl, rfl, rfl⟩

theorem Delivered.sameTurn {run run' : Run} (delivered : Delivered run run') : SameTurn run run' :=
  ⟨delivered.template, delivered.panes, by rw [delivered.state], delivered.idle⟩

theorem SameTurn.trans {first second third : Run} (early : SameTurn first second) (late : SameTurn second third) :
    SameTurn first third :=
  ⟨late.template.trans early.template, late.panes.trans early.panes, late.cur.trans early.cur, late.idle.trans early.idle⟩

/-- A run without an idle deadline, or with one that it had before in the same turn. -/
def Lingers (runs : List Run) (run' : Run) : Prop := run'.idleDeadline = none ∨ ∃ run ∈ runs, SameTurn run run'

theorem Lingers.of_mem {runs : List Run} {run : Run} (member : run ∈ runs) : Lingers runs run :=
  .inr ⟨run, member, .refl run⟩

theorem Lingers.sameTurn {runs : List Run} {run run' : Run} (lingers : Lingers runs run) (same : SameTurn run run') :
    Lingers runs run' := by
  obtain none | ⟨first, member, early⟩ := lingers
  · exact .inl (same.idle.trans none)
  · exact .inr ⟨first, member, early.trans same⟩

/-- A step that leaves every paused or awaiting role where it was. -/
theorem step_cur {state : Orchestrate.State} {event : Event} (phase : state.phase = .awaiting ∨ state.phase = .paused)
    (held : event = .stall ∨ event = .resume ∨ ∃ reason, event = .guardrail reason) :
    (state.step event).1.cur = state.cur := by
  unfold State.step
  obtain phase | phase := phase <;> obtain rfl | rfl | ⟨reason, rfl⟩ := held <;> rw [phase] <;> rfl

namespace Server

variable {s t u : Server} {kind : OrchestrationKind} {w : World} {run run' : Run}

/-- Every idle deadline is an old one. -/
def Wanes (s t : Server) : Prop := ∀ kind, ∀ run ∈ t.runs kind, Lingers (s.runs kind) run

theorem Wanes.of_eq (same : t.runs = s.runs) : s.Wanes t := fun _ _ member => .of_mem (same ▸ member)

theorem Wanes.refl (s : Server) : s.Wanes s := .of_eq rfl

theorem Wanes.trans (first : s.Wanes t) (second : t.Wanes u) : s.Wanes u := by
  intro kind run member
  obtain none | ⟨middle, listed, same⟩ := second kind run member
  · exact .inl none
  · exact (first kind middle listed).sameTurn same

/-- Changing the runs of one kind. -/
theorem Wanes.withRuns {runs : List Run} (lingers : ∀ run ∈ runs, Lingers (s.runs kind) run) :
    s.Wanes (s.withRuns kind runs) := by
  intro other run member
  by_cases same : other = kind
  · subst same
    rw [runs_withRuns_self] at member
    exact lingers run member
  · rw [runs_withRuns_of_ne same] at member
    exact .of_mem member

/-- A run that was taken out is one of the runs, and the others stay. -/
theorem Wanes.taken {fits : Run → Bool} (taken : s.take kind fits = some (run, t)) :
    run ∈ s.runs kind ∧ s.Wanes t := by
  obtain ⟨-, rest, rfl, perm⟩ := take_some taken
  exact ⟨perm.mem_iff.mpr List.mem_cons_self,
    .withRuns fun other member => .of_mem (perm.mem_iff.mpr (List.mem_cons_of_mem _ member))⟩

theorem Wanes.put (wanes : s.Wanes t) (lingers : Lingers (s.runs kind) run) : s.Wanes (t.put kind run) := by
  intro other run' member
  by_cases same : other = kind
  · subst same
    rw [Server.put, runs_withRuns_self, List.mem_append, List.mem_singleton] at member
    obtain old | rfl := member
    · exact wanes _ run' old
    · exact lingers
  · rw [Server.put, runs_withRuns_of_ne same] at member
    exact wanes other run' member

theorem Wanes.mapRuns {change : Run → Run} (lingers : ∀ run ∈ s.runs kind, Lingers (s.runs kind) (change run)) :
    s.Wanes (s.mapRuns kind change) := by
  refine .withRuns fun run' member => ?_
  obtain ⟨run, listed, rfl⟩ := List.mem_map.mp member
  exact lingers run listed

theorem Wanes.modified {index : ℕ} {change : Run → Run} (same : ∀ run, SameTurn run (change run)) :
    s.Wanes (s.withRuns kind ((s.runs kind).modify index change)) := by
  refine .withRuns fun run' member => ?_
  obtain ⟨i, read⟩ := List.mem_iff_getElem?.mp member
  rw [List.getElem?_modify] at read
  obtain ⟨run, old, rfl⟩ := Option.map_eq_some_iff.mp read
  refine .inr ⟨run, List.mem_of_getElem? old, ?_⟩
  split
  · exact same run
  · exact .refl run

/-- The run in hand after an action, and the server around it. -/
theorem Wanes.applied (wanes : s.Wanes t) (lingers : Lingers (s.runs kind) run) (action : Action) :
    Lingers (s.runs kind) (t.applyAction kind w run action).1 ∧ s.Wanes (t.applyAction kind w run action).2 :=
  ⟨lingers.sameTurn (applyAction_delivered t kind w run action).sameTurn,
    wanes.trans (.of_eq (applyAction_frame t kind w run action).runs)⟩

theorem Wanes.restored {result : Run × Server} (wanes : Lingers (s.runs kind) result.1 ∧ s.Wanes result.2) :
    s.Wanes ((result.2.project kind result.1).put kind result.1) :=
  (wanes.2.trans (.of_eq rfl)).put wanes.1

theorem Wanes.scoped {result : Orchestrate.State × Action} {state : Orchestrate.State} {action : Action} (wanes : s.Wanes t)
    (issued : t.scopeActivationToken result = some (u, state, action)) : s.Wanes u ∧ state.cur = result.1.cur := by
  obtain ⟨stepped, answer⟩ := result
  cases answer with
  | inject role token =>
    obtain ⟨fresh, -, same⟩ := Option.bind_eq_some_iff.mp issued
    cases same
    exact ⟨wanes.trans (.of_eq rfl), rfl⟩
  | _ =>
    cases issued
    exact ⟨wanes, rfl⟩

private theorem wanes_foldl {α : Type} {f : Server → α → Server}
    (step : ∀ s a, s.Sound → (f s a).Sound ∧ s.Wanes (f s a)) (sound : s.Sound)
    (l : List α) : (l.foldl f s).Sound ∧ s.Wanes (l.foldl f s) := by
  induction l generalizing s with
  | nil => exact ⟨sound, .refl s⟩
  | cons a l ih =>
    obtain ⟨kept, first⟩ := step s a sound
    obtain ⟨after, rest⟩ := ih kept
    exact ⟨after, first.trans rest⟩

private theorem wanes_stallRun (sound : s.Sound) (kind : OrchestrationKind) (w : World) (taskId : ℕ) :
    s.Wanes (stallRun kind w s taskId) := by
  rw [stallRun]
  split
  · exact .refl s
  · next run held taken =>
    obtain ⟨member, wanes⟩ := Wanes.taken taken
    have cur := @step_cur _ .stall (sound.shape member).phase (.inl rfl)
    have lingers : Lingers (s.runs kind)
        { run with stallDeadline := none, state := (run.state.step .stall).1 } := .inr ⟨run, member, ⟨rfl, rfl, cur, rfl⟩⟩
    have applied := wanes.applied lingers (w := w) (run.state.step .stall).2
    dsimp only
    split
    · exact applied.2.trans (.of_eq rfl)
    · exact Wanes.restored applied

private theorem wanes_elapseRun (s : Server) (kind : OrchestrationKind) (w : World) (taskId : ℕ) :
    s.Wanes (elapseRun kind w s taskId) := by
  rw [elapseRun]
  split
  · exact .refl s
  · next run held taken =>
    obtain ⟨-, wanes⟩ := Wanes.taken taken
    dsimp only
    split
    · exact wanes.put (.inl rfl)
    · exact Wanes.restored (wanes.applied (.inl rfl) _)

private theorem wanes_idleRun {taskId : ℕ} (ran : idleRun kind w s taskId = some t) : s.Wanes t := by
  rw [idleRun] at ran
  split at ran
  · cases ran
    exact .refl s
  · next run held taken =>
    obtain ⟨-, wanes⟩ := Wanes.taken taken
    dsimp only at ran
    obtain ⟨⟨s', state, action⟩, issued, ran⟩ := Option.bind_eq_some_iff.mp ran
    have noted : s.Wanes (if (run.state.step (.idle run.state.cur)).2 = Action.hold then held
        else held.append (.idled kind { run with idleDeadline := none, stallDeadline := none })) := by
      split
      · exact wanes
      · exact wanes.trans (.of_eq rfl)
    have lingers : Lingers (s.runs kind) { run with idleDeadline := none, stallDeadline := none, state := state } :=
      .inl rfl
    have applied := (noted.scoped issued).1.applied lingers (w := w) action
    dsimp only at ran
    split at ran
    · cases ran
      exact applied.2
    · cases ran
      exact Wanes.restored applied

private theorem wanes_foldlM_idleRun {tasks : List ℕ} (ran : tasks.foldlM (idleRun kind w) s = some t) : s.Wanes t := by
  induction tasks generalizing s with
  | nil =>
    cases ran
    exact .refl _
  | cons taskId tasks ih =>
    obtain ⟨mid, first, rest⟩ := Option.bind_eq_some_iff.mp ran
    exact (wanes_idleRun first).trans (ih rest)

private theorem lingers_clearIdle (s : Server) {runs : List Run} (member : run ∈ runs) :
    Lingers runs (s.clearIdle run) := by
  rw [clearIdle]
  split
  · exact .inl rfl
  · exact .of_mem member

private theorem wanes_flushOrchestrationIdleDue (ran : s.flushOrchestrationIdleDue w = some t) : s.Wanes t := by
  rw [flushOrchestrationIdleDue] at ran
  obtain ⟨mid, first, rest⟩ := Option.bind_eq_some_iff.mp ran
  have cleared : s.Wanes ((s.mapRuns .workflow s.clearIdle).mapRuns .relay s.clearIdle) :=
    (Wanes.mapRuns fun _ member => lingers_clearIdle s member).trans
      (Wanes.mapRuns fun _ member => lingers_clearIdle s member)
  exact (cleared.trans (wanes_foldlM_idleRun first)).trans (wanes_foldlM_idleRun rest)

private theorem wanes_retryDelivery (w : World) (s : Server) (delivery : PendingDelivery) :
    s.Wanes (retryDelivery w s delivery) := by
  rw [retryDelivery]
  split
  · exact .refl s
  · dsimp only
    split
    · generalize noted : s.append _ = opened
      have first : s.Wanes opened := noted ▸ .of_eq rfl
      have changed (index : ℕ) : opened.Wanes (opened.withRuns delivery.kind ((opened.runs delivery.kind).modify index
          fun run => if delivery.firstDelivery then { run with
            stallDeadline := some (w.now + stallTimeout), started := run.started.set run.state.cur true }
          else { run with stallDeadline := some (w.now + stallTimeout) })) := by
        refine Wanes.modified fun run => ?_
        split
        · exact ⟨rfl, rfl, rfl, rfl⟩
        · exact ⟨rfl, rfl, rfl, rfl⟩
      have moved := changed ((opened.runs delivery.kind).findIdx (·.taskId == delivery.taskId))
      refine first.trans ?_
      split
      · exact moved.trans (.of_eq rfl)
      · exact moved.trans (.of_eq rfl)
    · split
      · exact .of_eq rfl
      · exact .of_eq rfl

private theorem wanes_relayCheckpointCreated (s : Server) (w : World) (taskId token : ℕ) (checkpoint : Option String) :
    s.Wanes (s.relayCheckpointCreated w taskId token checkpoint) := by
  rw [relayCheckpointCreated]
  split
  · exact .refl s
  split
  · exact .refl s
  dsimp only
  split
  · exact .of_eq rfl
  next run held taken =>
  obtain ⟨member, wanes⟩ := Wanes.taken taken
  have lingers (checkpoints : List (ℕ × String)) : Lingers (s.runs .relay) { run with checkpoints := checkpoints } :=
    .inr ⟨run, member, ⟨rfl, rfl, rfl, rfl⟩⟩
  have around : s.Wanes held := (Wanes.of_eq rfl).trans wanes
  exact Wanes.restored (around.applied (lingers _) _)

theorem Wanes.resumed (wanes : s.Wanes t) (phase : run.state.phase = .awaiting ∨ run.state.phase = .paused)
    (member : run ∈ s.runs kind) (ran : t.resumeRun kind w run = some u) : s.Wanes u := by
  rw [resumeRun] at ran
  split at ran
  · dsimp only at ran
    obtain ⟨⟨s', state, action⟩, issued, ran⟩ := Option.bind_eq_some_iff.mp ran
    obtain ⟨around, cur⟩ := wanes.scoped issued
    have stays := cur.trans (@step_cur _ .resume phase (.inr (.inl rfl)))
    have applied := around.applied (w := w) (.inr ⟨run, member, ⟨rfl, rfl, stays, rfl⟩⟩ :
      Lingers (s.runs kind) { run with
        elapsedDeadline := elapsedDeadline w run.startedAtMs run.guardLimits run.elapsedGuardTriggered
        state := state }) action
    cases ran
    exact Wanes.restored applied
  · have restored := Wanes.restored (wanes.applied (.of_mem member) (w := w) (.inject run.state.cur run.state.token))
    cases ran
    exact restored

private theorem wanes_resumeWaitingOrchestration (sound : s.Sound) {pane : PaneId}
    (ran : s.resumeWaitingOrchestration w pane = some t) : s.Wanes t := by
  rw [resumeWaitingOrchestration] at ran
  split at ran
  · next run held taken =>
    obtain ⟨member, wanes⟩ := Wanes.taken taken
    exact wanes.resumed (sound.shape member).phase member ran
  split at ran
  · next run held taken =>
    obtain ⟨member, wanes⟩ := Wanes.taken taken
    exact wanes.resumed (sound.shape member).phase member ran
  · cases ran
    exact .refl s

private theorem wanes_armed (s : Server) (kind : OrchestrationKind) (fits : Run → Bool) (deadline : Option ℕ) :
    s.Wanes (s.modifyFirst kind fits fun run => { run with stallDeadline := deadline }) :=
  .modified fun _ => ⟨rfl, rfl, rfl, rfl⟩

private theorem wanes_armOrchestrationDeadline (s : Server) (w : World) (pane : PaneId) :
    s.Wanes (s.armOrchestrationDeadline w pane) := by
  rw [armOrchestrationDeadline]
  exact (wanes_armed s .workflow _ _).trans (wanes_armed _ .relay _ _)

private theorem wanes_swapRemove {index : ℕ} (read : (s.runs kind)[index]? = some run) :
    s.Wanes (s.withRuns kind (swapRemove (s.runs kind) index)) :=
  .withRuns fun _ member => .of_mem ((swapRemove_perm read).mem_iff.mpr (List.mem_cons_of_mem _ member))

private theorem wanes_cancelFrom (kind : OrchestrationKind) (pane : PaneId) (fuel index : ℕ) (s : Server) :
    s.Wanes (cancelFrom kind pane fuel index s) := by
  induction fuel generalizing index s with
  | zero => exact .refl s
  | succ fuel ih =>
    rw [cancelFrom]
    split
    · exact .refl s
    next run read =>
    split
    · have ended : s.Wanes ((s.withRuns kind (swapRemove (s.runs kind) index)).finish kind run.taskId
          "role Pane closed") := (wanes_swapRemove read).trans (.of_eq rfl)
      cases kind with
      | workflow => exact ended.trans (ih _ _)
      | relay => exact (ended.trans (.of_eq rfl)).trans (ih _ _)
    · exact ih _ _

private theorem wanes_closePane (s : Server) (pane : PaneId) : s.Wanes (s.closePane pane) := by
  have dropped : s.Wanes { s with deliveries := s.deliveries.filter (·.pane != pane) } := .of_eq rfl
  have workflows := dropped.trans (wanes_cancelFrom .workflow pane (s.runs .workflow).length 0 _)
  exact (workflows.trans (wanes_cancelFrom .relay pane _ 0 _)).trans (.of_eq rfl)

private theorem wanes_answer (s : Server) (w : World) (item : WaitingItem) (text : Text) : s.Wanes
    (s.answer w item text) := by
  rw [answer]
  dsimp only
  split
  · exact .of_eq rfl
  split
  · exact .refl s
  split
  · exact .refl s
  split
  · exact (Wanes.of_eq rfl).trans (wanes_armOrchestrationDeadline _ w item.pane)
  · exact .refl s

private theorem wanes_waitingAction (sound : s.Sound) {id : ℕ} {action : WaitingAction}
    (ran : s.waitingAction w id action = some t) : s.Wanes t := by
  rw [waitingAction.eq_def] at ran
  split at ran
  · cases ran
    exact .refl s
  next item _ =>
  split at ran
  · cases ran
    exact .of_eq rfl
  cases action with
  | answer text =>
    cases ran
    exact wanes_answer s w item text
  | dismiss =>
    dsimp only at ran
    split at ran
    · cases ran
      exact .refl s
    · cases ran
      exact .of_eq rfl
  | stop =>
    cases ran
    have started : s.Wanes (s.resolvePane item.pane) := .of_eq rfl
    refine List.foldlRecOn _ _ (motive := s.Wanes) started fun server wanes pane _ => ?_
    split
    · exact wanes.trans (wanes_closePane server pane)
    · exact wanes
  | resume =>
    dsimp only at ran
    split at ran
    · cases ran
      exact .refl s
    · have resolved : ({ s with waiting := (s.waiting.resolve id).1 } : Server).Sound := sound
      have around : s.Wanes { s with waiting := (s.waiting.resolve id).1 } := .of_eq rfl
      split at ran
      · cases ran
        exact around
      · exact around.trans (wanes_resumeWaitingOrchestration resolved ran)
  | approve =>
    cases ran
    exact .refl s
  | focus =>
    cases ran
    exact .refl s
  | rollback =>
    cases ran
    exact .refl s

private theorem wanes_relayCheckpointRolledBack (sound : s.Sound) {id : ℕ} {error : Option Text}
    (ran : s.relayCheckpointRolledBack w id error = some t) : s.Wanes t := by
  rw [relayCheckpointRolledBack.eq_def] at ran
  split at ran
  · split at ran
    · cases ran
      exact .refl s
    · cases ran
      exact .of_eq rfl
  · have resolved : ({ s with waiting := (s.waiting.resolve id).1 } : Server).Sound := sound
    have around : s.Wanes { s with waiting := (s.waiting.resolve id).1 } := .of_eq rfl
    dsimp only at ran
    split at ran
    · cases ran
      exact around
    · exact around.trans (wanes_resumeWaitingOrchestration resolved ran)

private theorem wanes_reportArtifactGateFailure (s : Server) (kind : OrchestrationKind) (token : ℕ) (error : Text) :
    s.Wanes (s.reportArtifactGateFailure kind token error) := by
  rw [reportArtifactGateFailure]
  split
  · exact .refl s
  · exact .of_eq rfl

private theorem wanes_submit {token : ℕ} {status : SubmitStatus} {verdict : Option String} {summary : Text}
    {artifacts : List ArtifactClaim} {validated : Bool}
    (ran : s.submit kind w token status verdict summary artifacts validated = some t) : s.Wanes t := by
  rw [submit.eq_def] at ran
  dsimp only at ran
  split at ran
  · cases ran
    exact .refl s
  next index found =>
  split at ran
  · cases ran
    exact .refl s
  next run read =>
  have cleared : s.Wanes (s.withRuns kind ((s.runs kind).set index { run with stallDeadline := none, idleDeadline := none })) := by
    refine .withRuns fun other member => ?_
    obtain old | rfl := List.mem_or_eq_of_mem_set member
    · exact .of_mem old
    · exact .inl rfl
  have placed : ((s.withRuns kind ((s.runs kind).set index
      { run with stallDeadline := none, idleDeadline := none })).runs kind)[index]? =
        some { run with stallDeadline := none, idleDeadline := none } := by
    obtain ⟨low, -⟩ := List.getElem?_eq_some_iff.mp read
    rw [runs_withRuns_self, List.getElem?_set_self low]
  generalize s.withRuns kind ((s.runs kind).set index _) = s₁ at cleared placed ran
  generalize noted : (if validated = true then s₁ else _) = s₂ at ran
  have same : s₂.runs = s₁.runs := by
    rw [← noted]
    split <;> rfl
  have wanes : s.Wanes s₂ := cleared.trans (.of_eq same)
  rw [← same] at placed
  split at ran
  · split at ran
    · cases ran
      exact wanes
    · cases ran
      exact wanes.trans (.of_eq rfl)
  · generalize validating : (if validated = true then _ else s₂) = s₃ at ran
    have same : s₃.runs = s₂.runs := by
      rw [← validating]
      split <;> rfl
    have wanes : s.Wanes s₃ := wanes.trans (.of_eq same)
    rw [← same] at placed
    split at ran
    · cases ran
      exact wanes.trans (.of_eq rfl)
    · have resolved : s.Wanes (s₃.resolvePaneKind (run.rolePanes.getD run.state.cur 0) (waitingKind kind)) :=
        wanes.trans (.of_eq rfl)
      obtain ⟨⟨s', state, action⟩, issued, ran⟩ := Option.bind_eq_some_iff.mp ran
      have around := ((resolved.trans (wanes_swapRemove placed)).scoped issued).1
      have lingers : Lingers (s.runs kind) { run with stallDeadline := none, idleDeadline := none, state := state } :=
        .inl rfl
      have applied := around.applied lingers (w := w) action
      dsimp only at ran
      split at ran
      · cases ran
        exact Wanes.restored applied
      · cases ran
        exact applied.2

private theorem wanes_artifactValidated {taskId token : ℕ} {artifacts : List ArtifactClaim} {error : Option Text}
    {recorded : Except Text Unit} (ran : s.artifactValidated w kind taskId token artifacts error recorded = some t) :
    s.Wanes t := by
  rw [artifactValidated] at ran
  dsimp only at ran
  split at ran
  · cases ran
    exact .refl s
  split at ran
  · cases ran
    exact .refl s
  next index _ _ pending _ =>
  have dropped : s.Wanes { s with submissions := swapRemove s.submissions index } := .of_eq rfl
  split at ran
  · cases ran
    exact dropped.trans (wanes_reportArtifactGateFailure _ kind token _)
  · cases ran
    exact dropped.trans (wanes_reportArtifactGateFailure _ kind token _)
  · exact dropped.trans (wanes_submit ran)

private theorem wanes_flushArtifactValidationsDue (s : Server) (w : World) :
    s.Wanes (s.flushArtifactValidationsDue w) := by
  rw [flushArtifactValidationsDue]
  have kept : s.Wanes { s with submissions := s.submissions.filter fun pending => ¬ pending.due ≤ w.now } := .of_eq rfl
  refine List.foldlRecOn _ _ (motive := s.Wanes) kept fun server wanes pending _ => ?_
  rw [expireValidation]
  split
  · exact wanes.trans (.of_eq rfl)
  · exact wanes

private theorem wanes_flushOrchestrationStalls (sound : s.Sound) (w : World) :
    s.Wanes (s.flushOrchestrationStalls w) := by
  have step (kind : OrchestrationKind) (s : Server) (taskId : ℕ) (sound : s.Sound) :
      (stallRun kind w s taskId).Sound ∧ s.Wanes (stallRun kind w s taskId) :=
    ⟨sound.stallRun kind w taskId, wanes_stallRun sound kind w taskId⟩
  obtain ⟨kept, first⟩ := wanes_foldl (step .workflow) sound (s.dueTasks .workflow w (·.stallDeadline))
  exact first.trans (wanes_foldl (step .relay) kept _).2

private theorem wanes_flushOrchestrationElapsedDue (sound : s.Sound) (w : World) : s.Wanes
    (s.flushOrchestrationElapsedDue w) := by
  have step (kind : OrchestrationKind) (s : Server) (taskId : ℕ) (sound : s.Sound) :
      (elapseRun kind w s taskId).Sound ∧ s.Wanes (elapseRun kind w s taskId) :=
    ⟨sound.elapseRun kind w taskId, wanes_elapseRun s kind w taskId⟩
  obtain ⟨kept, first⟩ := wanes_foldl (step .workflow) sound (s.dueTasks .workflow w awaitedDeadline)
  exact first.trans (wanes_foldl (step .relay) kept _).2

private theorem wanes_flushPromptDeliveriesDue (s : Server) (w : World) : s.Wanes (s.flushPromptDeliveriesDue w) := by
  rw [flushPromptDeliveriesDue]
  have kept : s.Wanes { s with deliveries := s.deliveries.filter fun delivery => ¬ delivery.due ≤ w.now } := .of_eq rfl
  exact List.foldlRecOn _ _ (motive := s.Wanes) kept fun server wanes delivery _ =>
    wanes.trans (wanes_retryDelivery w server delivery)

theorem Wanes.keep (wanes : s.Wanes t) (lingers : Lingers (s.runs kind) run) : s.Wanes (t.keep kind run) := by
  rw [Server.keep]
  split
  · exact wanes.put lingers
  · exact wanes

theorem Wanes.launched {result : Run × Server} (wanes : Lingers (s.runs kind) result.1 ∧ s.Wanes result.2) :
    s.Wanes ((result.2.project kind result.1).keep kind result.1) := by
  have projected : s.Wanes (result.2.project kind result.1) := wanes.2.trans (.of_eq rfl)
  exact projected.keep wanes.1

private theorem wanes_launchWorkflow {name : String} {launch : Launch} (ran : s.launchWorkflow w name launch = some t) :
    s.Wanes t := by
  rw [launchWorkflow] at ran
  split at ran
  · cases ran
    exact .refl s
  next template known =>
  split at ran
  · cases ran
    exact .refl s
  dsimp only at ran
  obtain ⟨⟨s', state, action⟩, issued, ran⟩ := Option.bind_eq_some_iff.mp ran
  have spawned : s.Wanes (s.spawned (s.newRun w launch (some template) template.engineRoles)) := .of_eq rfl
  have lingers : Lingers (s.runs .workflow)
      { s.newRun w launch (some template) template.engineRoles with state := state } := .inl rfl
  have applied := (spawned.scoped issued).1.applied lingers (w := w) action
  have kept := Wanes.launched applied
  cases ran
  exact kept

private theorem wanes_launchRelay {launch : Launch} (ran : s.launchRelay w launch = some t) : s.Wanes t := by
  rw [launchRelay] at ran
  split at ran
  · cases ran
    exact .refl s
  dsimp only at ran
  obtain ⟨⟨s', state, action⟩, issued, ran⟩ := Option.bind_eq_some_iff.mp ran
  have spawned : s.Wanes (s.spawned (s.newRun w launch none relayRoles)) := .of_eq rfl
  have around := (spawned.scoped issued).1
  have lingers : Lingers (s.runs .relay) { s.newRun w launch none relayRoles with state := state } := .inl rfl
  dsimp only at ran
  split at ran
  · have kept := @Wanes.launched s .relay (_, _) ⟨lingers, around⟩
    cases ran
    intro other run' member
    exact kept other run' member
  · have applied := around.applied lingers (w := w) action
    have kept := Wanes.launched applied
    cases ran
    exact kept

/-- No step but a transition of an agent sets an idle deadline. -/
theorem wanes_step (sound : s.Sound) {op : Op} (stepped : s.step (w, op) = some t)
    (other : ∀ pane status summary, op ≠ .agentTransition pane status summary) : s.Wanes t := by
  cases op with
  | createTask =>
    cases stepped
    exact .of_eq rfl
  | spawnPane =>
    cases stepped
    exact .of_eq rfl
  | closePane pane =>
    cases stepped
    exact wanes_closePane s pane
  | launchWorkflow name launch => exact wanes_launchWorkflow stepped
  | launchRelay launch => exact wanes_launchRelay stepped
  | workflowSubmit token status verdict summary artifacts => exact wanes_submit stepped
  | relaySubmit token status summary artifacts => exact wanes_submit stepped
  | artifactValidated kind taskId token artifacts error recorded => exact wanes_artifactValidated stepped
  | flushValidations =>
    cases stepped
    exact wanes_flushArtifactValidationsDue s w
  | flushStalls =>
    cases stepped
    exact wanes_flushOrchestrationStalls sound w
  | flushElapsed =>
    cases stepped
    exact wanes_flushOrchestrationElapsedDue sound w
  | flushIdle => exact wanes_flushOrchestrationIdleDue stepped
  | flushDeliveries =>
    cases stepped
    exact wanes_flushPromptDeliveriesDue s w
  | checkpointCreated taskId token checkpoint =>
    cases stepped
    exact wanes_relayCheckpointCreated s w taskId token checkpoint
  | checkpointRolledBack id error => exact wanes_relayCheckpointRolledBack sound stepped
  | resume pane => exact wanes_resumeWaitingOrchestration sound stepped
  | waitingAction id action => exact wanes_waitingAction sound stepped
  | agentTransition pane status summary => exact absurd rfl (other pane status summary)
  | agentObserved pane status summary =>
    cases stepped
    refine .of_eq ?_
    rw [syncWaitingAgent]
    split <;> rfl
  | agentExited pane =>
    cases stepped
    exact .of_eq rfl

section Seen

/-- The agent in a run's current Pane went idle in the past, one idle delay before the deadline. -/
def SeenIdle (past : List (World × Op)) (run : Run) (deadline : ℕ) : Prop :=
  ∃ w summary pane, run.currentPane = some pane ∧ (w, Op.agentTransition pane .idle summary) ∈ past ∧
    deadline = w.now + idleDelay

/-- Every idle deadline comes from a transition of the agent in the role's own Pane. -/
def Seen (past : List (World × Op)) (s : Server) : Prop :=
  ∀ kind, ∀ run ∈ s.runs kind, ∀ deadline, run.idleDeadline = some deadline → SeenIdle past run deadline

variable {past : List (World × Op)}

theorem SeenIdle.mono {input : World × Op} {deadline : ℕ} (seen : SeenIdle past run deadline) :
    SeenIdle (past ++ [input]) run deadline := by
  obtain ⟨w, summary, pane, own, listed, due⟩ := seen
  exact ⟨w, summary, pane, own, List.mem_append_left _ listed, due⟩

theorem SeenIdle.sameTurn {deadline : ℕ} (seen : SeenIdle past run deadline) (same : SameTurn run run') :
    SeenIdle past run' deadline := by
  obtain ⟨w, summary, pane, own, listed, due⟩ := seen
  refine ⟨w, summary, pane, ?_, listed, due⟩
  rwa [Run.currentPane, same.panes, same.cur]

theorem Seen.wanes (seen : Seen past s) (wanes : s.Wanes t) (input : World × Op) : Seen (past ++ [input]) t := by
  intro kind run member deadline due
  obtain none | ⟨old, listed, same⟩ := wanes kind run member
  · rw [none] at due
    cases due
  · exact ((seen kind old listed deadline (same.idle.symm.trans due)).sameTurn same).mono

/-- A deadline after a transition is an old one, or it comes from this transition. -/
theorem reconcileRun_seen {server : Server} {pane : PaneId} {status : Work.AgentStatus} {summary : Text} {deadline : ℕ}
    (due : (server.reconcileRun w pane status run).idleDeadline = some deadline)
    (seen : ∀ old, run.idleDeadline = some old → SeenIdle past run old) :
    SeenIdle (past ++ [(w, .agentTransition pane status summary)]) (server.reconcileRun w pane status run) deadline := by
  rw [reconcileRun] at due ⊢
  split at due
  · next fits =>
    rw [if_pos fits]
    dsimp only at due
    split at due
    · split at due
      · next idle =>
        cases due
        subst idle
        exact ⟨w, summary, pane, fits.1, List.mem_append_right _ List.mem_cons_self, rfl⟩
      · cases due
    · cases due
  · next fits =>
    rw [if_neg fits]
    exact (seen deadline due).mono

private theorem mem_runs_mapRuns {other : OrchestrationKind} {change : Run → Run}
    (member : run' ∈ (s.mapRuns other change).runs kind) :
    (kind = other ∧ ∃ run ∈ s.runs kind, change run = run') ∨ (kind ≠ other ∧ run' ∈ s.runs kind) := by
  rw [mapRuns] at member
  by_cases same : kind = other
  · subst same
    rw [runs_withRuns_self] at member
    exact .inl ⟨rfl, List.mem_map.mp member⟩
  · rw [runs_withRuns_of_ne same] at member
    exact .inr ⟨same, member⟩

theorem Seen.notified (seen : Seen past s) (w : World) (pane : PaneId) (status : Work.AgentStatus) (summary : Text) :
    Seen (past ++ [(w, .agentTransition pane status summary)]) (s.notifyAgentTransition w pane status summary) := by
  rw [notifyAgentTransition, reconcileOrchestrationIdle]
  have synced : (s.syncWaitingAgent w pane status summary).runs = s.runs := by
    rw [syncWaitingAgent]
    split <;> rfl
  generalize s.syncWaitingAgent w pane status summary = server at synced
  intro kind run member deadline due
  have changed {other : OrchestrationKind} (old : Run) (listed : old ∈ server.runs other)
      (same : server.reconcileRun w pane status old = run) :
      SeenIdle (past ++ [(w, .agentTransition pane status summary)]) run deadline := by
    subst same
    exact reconcileRun_seen due (seen other old (synced ▸ listed))
  obtain ⟨rfl, old, listed, same⟩ | ⟨other, listed⟩ := mem_runs_mapRuns member
  · obtain ⟨nonsense, -⟩ | ⟨-, listed⟩ := mem_runs_mapRuns listed
    · cases nonsense
    · exact changed old listed same
  · obtain ⟨-, old, listed, same⟩ | ⟨-, listed⟩ := mem_runs_mapRuns listed
    · exact changed old listed same
    · exact (seen kind run (synced ▸ listed) deadline due).mono

theorem Seen.step {input : World × Op} (sound : s.Sound) (seen : Seen past s) (stepped : s.step input = some t) :
    Seen (past ++ [input]) t := by
  obtain ⟨w, op⟩ := input
  by_cases transition : ∃ pane status summary, op = .agentTransition pane status summary
  · obtain ⟨pane, status, summary, rfl⟩ := transition
    cases stepped
    exact seen.notified w pane status summary
  · refine seen.wanes (wanes_step sound stepped ?_) _
    intro pane status summary same
    exact transition ⟨pane, status, summary, same⟩

/-- The run lemma: deadlines over a whole history. -/
theorem Seen.exec {inputs : List (World × Op)} (sound : s.Sound) (seen : Seen past s)
    (ran : Machine.exec Server.step s inputs = some t) : t.Sound ∧ Seen (past ++ inputs) t := by
  induction inputs generalizing s past with
  | nil =>
    cases ran
    rw [List.append_nil]
    exact ⟨sound, seen⟩
  | cons input inputs ih =>
    obtain ⟨mid, stepped, rest⟩ := Option.bind_eq_some_iff.mp ran
    have later := ih (sound.step stepped) (seen.step sound stepped) rest
    rwa [List.append_assoc] at later

end Seen

section Advancing

variable {v : Server} {entry : Entry} {state : Orchestrate.State} {action : Action}

/-- The log grows, and no submission comes in. -/
structure Later (s t : Server) : Prop where
  log : s.log <+: t.log
  submissions : t.submissions ⊆ s.submissions

theorem Later.of_eq (log : t.log = s.log) (submissions : t.submissions = s.submissions) : Later s t :=
  ⟨log ▸ List.prefix_rfl, submissions ▸ List.Subset.refl _⟩

theorem Later.refl (s : Server) : Later s s := .of_eq rfl rfl

/-- One more entry. -/
theorem later_append (s : Server) (entry : Entry) : Later s (s.append entry) :=
  ⟨List.prefix_append _ _, List.Subset.refl _⟩

theorem Later.trans (first : Later s t) (second : Later t u) : Later s u :=
  ⟨first.log.trans second.log, List.Subset.trans second.submissions first.submissions⟩

/-- An entry that is logged from one state to another. -/
def Logs (s t : Server) (entry : Entry) : Prop := entry ∈ t.log.drop s.log.length

theorem Logs.between (logs : Logs t u entry) (first : Later s t) (last : Later u v) : Logs s v entry := by
  have within : entry ∈ v.log.drop t.log.length := (last.log.drop _).subset logs
  exact List.drop_subset_drop_left _ first.log.length_le within

/-- A run of the task is there in the same state. -/
def Stays (kind : OrchestrationKind) (run : Run) (t : Server) : Prop :=
  ∃ run' ∈ t.runs kind, run'.taskId = run.taskId ∧ run'.state = run.state

/-- The task of a run awaits its next role. The token was issued with that turn, and no other run and no submission
has it. -/
structure Turns (kind : OrchestrationKind) (s t : Server) (run run' : Run) : Prop where
  listed : run' ∈ t.runs kind
  task : run'.taskId = run.taskId
  cur : run'.state.cur = run.state.cur + 1
  phase : run'.state.phase = .awaiting
  alone : ∀ other, ∀ r ∈ t.runs other, r.state.token = run'.state.token → other = kind ∧ r = run'
  unsubmitted : run'.state.token ∉ t.submissions.map (·.token)
  issued : Logs s t
    (.activated kind run.taskId run'.state.cur (run.rolePanes.getD run'.state.cur 0) run'.state.token)

/-- The task of a run is at the next role, or it is over and logged as done after the last one. -/
def Advances (kind : OrchestrationKind) (s : Server) (run : Run) (t : Server) : Prop :=
  (run.state.cur + 1 < run.state.roles.length ∧ ∃ run', Turns kind s t run run') ∨
    run.state.roles.length ≤ run.state.cur + 1 ∧ (∀ run' ∈ t.runs kind, run'.taskId ≠ run.taskId) ∧
      Logs s t (.finished kind run.taskId "done")

/-- The next turn of a run seen from an earlier and from a later state, in which the run is still there. -/
theorem Turns.between (turns : Turns kind t u run run') (first : Later s t) (last : Later u v) (sound : v.Sound)
    (listed : run' ∈ v.runs kind) : Turns kind s v run run' where
  listed := listed
  task := turns.task
  cur := turns.cur
  phase := turns.phase
  alone other r member same := by
    have equal := List.inj_on_of_nodup_map sound.tokens (mem_live.mpr member) (mem_live.mpr listed) same
    exact Prod.mk.inj equal
  unsubmitted := fun pending => turns.unsubmitted (List.map_subset _ last.submissions pending)
  issued := turns.issued.between first last

/-- What becomes of a run is also seen from an earlier and in a later state, when the runs of the task stay. -/
theorem Advances.between (advances : Advances kind t run u) (first : Later s t) (last : Later u v) (sound : v.Sound)
    (kept : ∀ run' : Run, run'.taskId = run.taskId → (run' ∈ v.runs kind ↔ run' ∈ u.runs kind)) :
    Advances kind s run v := by
  obtain ⟨more, run', turns⟩ | ⟨final, gone, logs⟩ := advances
  · exact .inl ⟨more, run', turns.between first last sound ((kept run' turns.task).mpr turns.listed)⟩
  · exact .inr ⟨final, fun run' placed same => gone run' ((kept run' same).mp placed) same, logs.between first last⟩

theorem Advances.of_same {other : Run} (advances : Advances kind s other t) (task : other.taskId = run.taskId)
    (panes : other.rolePanes = run.rolePanes) (state : other.state = run.state) : Advances kind s run t := by
  obtain ⟨more, run', turns⟩ | ⟨final, gone, logs⟩ := advances
  · refine .inl ⟨state ▸ more, run', turns.listed, turns.task.trans task, state ▸ turns.cur, turns.phase, turns.alone,
      turns.unsubmitted, ?_⟩
    rw [← task, ← panes]
    exact turns.issued
  · exact .inr ⟨state ▸ final, task ▸ gone, task ▸ logs⟩

/-- What the fallback makes of one task. -/
structure Idled (kind : OrchestrationKind) (taskId : ℕ) (s t : Server) : Prop where
  later : Later s t
  kinds : ∀ other ≠ kind, t.runs other = s.runs other
  tasks : ∀ run, run.taskId ≠ taskId → (run ∈ t.runs kind ↔ run ∈ s.runs kind)
  holds : ∀ run ∈ s.runs kind, run.taskId = taskId → run.state.phase = .paused → Stays kind run t
  advances : ∀ run ∈ s.runs kind, run.taskId = taskId → run.state.phase = .awaiting → run.state.atVerifier = false →
    Advances kind s run t

private theorem step_idle_paused {state : Orchestrate.State} {role : ℕ} (phase : state.phase = .paused) :
    state.step (.idle role) = (state, .hold) := by
  unfold State.step
  rw [phase]

private theorem step_idle_awaiting {state : Orchestrate.State} (phase : state.phase = .awaiting)
    (plain : state.atVerifier = false) :
    state.step (.idle state.cur) = state.advanceAfterDone := by
  unfold State.step
  rw [phase]
  simp only [ne_eq, not_true_eq_false, or_self, if_false, plain, Bool.false_eq_true]

/-- What is left of an unlicensed or an advancing step. -/
theorem scoped_over {result : Orchestrate.State × Action}
    (issued : s.scopeActivationToken result = some (u, state, action)) : u.runs = s.runs ∧ Later s u := by
  obtain ⟨_, _, _, _, _, rfl, _⟩ | ⟨_, rfl, _⟩ := scopeActivationToken_some issued
  · exact ⟨rfl, .of_eq rfl rfl⟩
  · exact ⟨rfl, .refl u⟩

private theorem later_inject (s : Server) (kind : OrchestrationKind) (w : World) (run : Run) (role token : ℕ) :
    Later s (s.inject kind w run role token).2 := by
  obtain ⟨entries, -, log⟩ := inject_log s kind w run role token
  refine ⟨⟨entries, log.symm⟩, ?_⟩
  rcases inject_cases s kind w run role token with ⟨missing, _⟩ | ⟨_, _, accepted, _⟩ | ⟨_, _, refused⟩
  · rw [missing]
    exact List.Subset.refl _
  · rw [accepted]
    exact List.Subset.refl _
  · rw [refused]
    exact List.Subset.refl _

private theorem later_finish (s : Server) (kind : OrchestrationKind) (taskId : ℕ) (outcome : String) :
    Later s (s.finish kind taskId outcome) :=
  ⟨List.prefix_append _ _, List.filter_subset_self _⟩

private theorem later_applyAction (s : Server) (kind : OrchestrationKind) (w : World) (run : Run) (action : Action) :
    Later s (s.applyAction kind w run action).2 := by
  cases action with
  | inject role token => exact later_inject s kind w run role token
  | complete => exact later_finish ..
  | abort reason => exact later_finish ..
  | escalate reason => exact .of_eq rfl rfl
  | awaitSubmit => exact .refl s
  | hold => exact .refl s

/-- An injection is logged with its token. -/
theorem inject_logs (s : Server) (kind : OrchestrationKind) (w : World) (run : Run) (role token : ℕ) :
    Logs s (s.inject kind w run role token).2 (.activated kind run.taskId role (run.rolePanes.getD role 0) token) := by
  have opened : Logs s (s.append (.activated kind run.taskId role (run.rolePanes.getD role 0) token))
      (.activated kind run.taskId role (run.rolePanes.getD role 0) token) := by
    rw [Logs, append, List.drop_left]
    exact List.mem_singleton_self _
  rcases inject_cases s kind w run role token with ⟨missing, _⟩ | ⟨_, _, accepted, _⟩ | ⟨_, _, refused⟩
  · rw [missing]
    exact opened
  · rw [accepted]
    exact opened.between (.refl s) (later_append _ _)
  · rw [refused]
    exact opened.between (.refl s) ((later_append _ _).trans (.of_eq rfl rfl))

private theorem finish_logs (s : Server) (kind : OrchestrationKind) (taskId : ℕ) (outcome : String) :
    Logs s (s.finish kind taskId outcome) (.finished kind taskId outcome) := by
  have same : (s.finish kind taskId outcome).log = s.log ++ [.finished kind taskId outcome] := rfl
  rw [Logs, same, List.drop_left]
  exact List.mem_singleton_self _

/-- The run of a task that the fallback takes, and what it leaves. -/
theorem idleRun_cases {taskId : ℕ} (ran : idleRun kind w s taskId = some t) :
    (t = s ∧ ∀ run ∈ s.runs kind, run.taskId ≠ taskId) ∨
      ∃ (run : Run) (rest : List Run) (server u : Server) (state : Orchestrate.State) (action : Action),
        run.taskId = taskId ∧ (s.runs kind).Perm (run :: rest) ∧ Later s server ∧
        server.scopeActivationToken (run.state.step (.idle run.state.cur)) = some (u, state, action) ∧
        Later (u.applyAction kind w { run with idleDeadline := none, stallDeadline := none, state := state } action).2 t ∧
        (∀ other ≠ kind, t.runs other = s.runs other) ∧
        if state.phase.over then t.runs kind = rest
        else ∃ run' : Run, run'.taskId = run.taskId ∧ run'.state = state ∧ t.runs kind = rest ++ [run'] := by
  rw [idleRun] at ran
  split at ran
  · next missing =>
    cases ran
    exact .inl ⟨rfl, fun run member => by simpa using take_none missing run member⟩
  · next run held taken =>
    obtain ⟨own, rest, rfl, perm⟩ := take_some taken
    dsimp only at ran
    obtain ⟨⟨u, state, action⟩, issued, ran⟩ := Option.bind_eq_some_iff.mp ran
    have noted : Later s (if (run.state.step (.idle run.state.cur)).2 = Action.hold then s.withRuns kind rest
        else (s.withRuns kind rest).append (.idled kind { run with idleDeadline := none, stallDeadline := none })) := by
      split
      · exact .of_eq rfl rfl
      · have taken : Later s (s.withRuns kind rest) := .of_eq rfl rfl
        exact taken.trans (later_append _ _)
    refine .inr ⟨run, rest, _, u, state, action, beq_iff_eq.mp own, perm, noted, issued, ?_⟩
    have around : u.runs = (s.withRuns kind rest).runs := by
      rw [(scoped_over issued).1]
      split <;> rfl
    have delivered := applyAction_delivered u kind w
      { run with idleDeadline := none, stallDeadline := none, state := state } action
    have frame := (applyAction_frame u kind w
      { run with idleDeadline := none, stallDeadline := none, state := state } action).runs
    dsimp only at ran
    generalize u.applyAction kind w _ action = result at ran delivered frame
    have after : result.1.state = state := delivered.state
    have left : result.2.runs = (s.withRuns kind rest).runs := frame.trans around
    rw [after] at ran
    split at ran
    · next halted =>
      cases ran
      rw [if_pos halted, left, runs_withRuns_self]
      exact ⟨.refl _, fun other different => runs_withRuns_of_ne different _, rfl⟩
    · next halted =>
      cases ran
      rw [if_neg halted]
      have projected : (result.2.project kind result.1).runs = (s.withRuns kind rest).runs := left
      refine ⟨(later_append result.2 _).trans (.of_eq rfl rfl), fun other different => ?_, result.1, delivered.task, after, ?_⟩
      · rw [put, runs_withRuns_of_ne different, projected, runs_withRuns_of_ne different]
      · rw [put, runs_withRuns_self, projected, runs_withRuns_self]

/-- Every task has at most one run of a kind. -/
def Single (s : Server) : Prop :=
  ∀ kind, ∀ run ∈ s.runs kind, ∀ other ∈ s.runs kind, other.taskId = run.taskId → other = run

theorem Sound.kind_tasks (sound : s.Sound) (kind : OrchestrationKind) : ((s.runs kind).map (·.taskId)).Nodup := by
  have tasks := sound.tasks
  rw [live, liveRuns, List.map_append, List.map_map, List.map_map, List.nodup_append] at tasks
  cases kind with
  | workflow => exact tasks.1
  | relay => exact tasks.2.1

theorem Sound.dueTasks_nodup (sound : s.Sound) (kind : OrchestrationKind) (w : World) :
    (s.dueTasks kind w (·.idleDeadline)).Nodup :=
  (sound.kind_tasks kind).sublist (List.filter_sublist.map _)

theorem Sound.single (sound : s.Sound) : s.Single := fun _ _ listed _ member same => sound.unique member listed same

theorem Stays.not_advances (single : t.Single) (stays : Stays kind run t) : ¬ Advances kind s run t := by
  obtain ⟨run', member, task, same⟩ := stays
  rintro (⟨-, next, turns⟩ | ⟨-, gone, -⟩)
  · have cur := turns.cur
    rw [single kind run' member next turns.listed (turns.task.trans task.symm), same] at cur
    omega
  · exact gone run' member task

/-- A plain role that falls silent hands over to the next one, or the last one ends the run. -/
theorem advanceAfterDone_cases (state : Orchestrate.State) :
    state.cur + 1 < state.roles.length ∧ (∃ token, state.advanceAfterDone.2 = .inject (state.cur + 1) token) ∧
        state.advanceAfterDone.1.cur = state.cur + 1 ∧ state.advanceAfterDone.1.phase = .awaiting ∨
      state.roles.length ≤ state.cur + 1 ∧ state.advanceAfterDone = ({ state with phase := .done }, .complete) := by
  unfold State.advanceAfterDone
  split
  · next last => exact .inr ⟨by omega, rfl⟩
  · next left => exact .inl ⟨by omega, ⟨_, rfl⟩, rfl, rfl⟩

theorem Idled.of_idleRun (sound : s.Sound) {taskId : ℕ} (ran : idleRun kind w s taskId = some t) :
    Idled kind taskId s t := by
  have after := sound.idleRun ran
  obtain ⟨rfl, missing⟩ | ⟨taken, rest, server, u, state, action, rfl, perm, noted, issued, done, kinds, left⟩ :=
    idleRun_cases ran
  · exact ⟨.refl t, fun _ _ => rfl, fun _ _ => .rfl, fun run listed own => absurd own (missing run listed),
      fun run listed own => absurd own (missing run listed)⟩
  have listed : taken ∈ s.runs kind := perm.mem_iff.mpr List.mem_cons_self
  have alone (run : Run) (member : run ∈ s.runs kind) (own : run.taskId = taken.taskId) : run = taken :=
    sound.single kind taken listed run member own
  -- The other runs of the list are those of other tasks.
  have others (run : Run) (member : run ∈ rest) : run.taskId ≠ taken.taskId := by
    have unique := (perm.map (·.taskId)).nodup_iff.mp (sound.kind_tasks kind)
    rw [List.map_cons, List.nodup_cons] at unique
    intro own
    exact unique.1 (own ▸ List.mem_map_of_mem member)
  have drawn := noted.trans (scoped_over issued).2
  have later := (drawn.trans (later_applyAction ..)).trans done
  refine ⟨later, kinds, fun run other => ?_, fun run member own paused => ?_, fun run member own awaiting plain => ?_⟩
  · have old : run ∈ s.runs kind ↔ run ∈ rest := by
      rw [perm.mem_iff, List.mem_cons, or_iff_right]
      rintro rfl
      exact other rfl
    rw [old]
    split at left
    · rw [left]
    · obtain ⟨run', task, -, left⟩ := left
      rw [left, List.mem_append, List.mem_singleton, or_iff_left]
      rintro rfl
      exact other task
  · obtain rfl := alone run member own
    rw [step_idle_paused paused] at issued
    cases issued
    rw [if_neg (by rw [paused]; decide)] at left
    obtain ⟨run', task, same, left⟩ := left
    exact ⟨run', by rw [left]; exact List.mem_append_right _ List.mem_cons_self, task, same⟩
  · obtain rfl := alone run member own
    rw [step_idle_awaiting awaiting plain] at issued
    obtain ⟨more, ⟨old, injects⟩, cur, phase⟩ | ⟨last, ended⟩ := advanceAfterDone_cases run.state
    · obtain ⟨role, _, token, same, fresh, rfl, rfl, rfl⟩ | ⟨never, -, same⟩ := scopeActivationToken_some issued
      · obtain rfl : run.state.cur + 1 = role := (Action.inject.inj (injects.symm.trans same)).1
        rw [if_neg (by dsimp only; rw [phase]; decide)] at left
        obtain ⟨run', task, state, left⟩ := left
        have placed : run' ∈ t.runs kind := left ▸ List.mem_append_right _ List.mem_cons_self
        have pending : token ∉ server.submissions.map (·.token) := fun pending => fresh (List.mem_append_right _ pending)
        have here : run'.state.cur = run.state.cur + 1 := by rw [state, ← cur]
        have own : run'.state.token = token := by rw [state]
        refine .inl ⟨more, run', placed, task, here, by rw [state, ← phase], fun other r member' same => ?_, ?_, ?_⟩
        · have equal := List.inj_on_of_nodup_map after.tokens (mem_live.mpr member') (mem_live.mpr placed) same
          exact Prod.mk.inj equal
        · rw [own]
          have fewer := List.Subset.trans done.submissions (later_applyAction _ kind w _ _).submissions
          exact fun held => pending (List.map_subset _ fewer held)
        · rw [own, here]
          have given : Later (Server.inject _ kind w _ (run.state.cur + 1) token).2 t := done
          refine Logs.between ?_ drawn given
          exact inject_logs ..
      · rw [← same] at injects
        exact absurd injects (never _ _)
    · rw [ended] at issued
      cases issued
      have gone : t.runs kind = rest := left
      refine .inr ⟨last, fun run' member => others run' (gone ▸ member), ?_⟩
      exact (finish_logs _ kind run.taskId "done").between drawn done

/-- The fallback over a list of tasks of one kind. -/
theorem idle_tasks {tasks : List ℕ} (sound : s.Sound) (nodup : tasks.Nodup)
    (ran : tasks.foldlM (idleRun kind w) s = some t) :
    Later s t ∧ (∀ other ≠ kind, t.runs other = s.runs other) ∧
    (∀ run, run.taskId ∉ tasks → (run ∈ t.runs kind ↔ run ∈ s.runs kind)) ∧
    (∀ run ∈ s.runs kind, run.taskId ∈ tasks → run.state.phase = .paused → Stays kind run t) ∧
    ∀ run ∈ s.runs kind, run.taskId ∈ tasks → run.state.phase = .awaiting → run.state.atVerifier = false →
      Advances kind s run t := by
  induction tasks generalizing s with
  | nil =>
    cases ran
    exact ⟨.refl _, fun _ _ => rfl, fun _ _ => .rfl, fun _ _ none => absurd none List.not_mem_nil,
      fun _ _ none => absurd none List.not_mem_nil⟩
  | cons task tasks ih =>
    obtain ⟨mid, first, rest⟩ := Option.bind_eq_some_iff.mp ran
    obtain ⟨fresh, nodup⟩ := List.nodup_cons.mp nodup
    have here := Idled.of_idleRun sound first
    have middle := sound.idleRun first
    have after := foldlM_idleRun middle rest
    obtain ⟨later, kinds, kept, holds, advances⟩ := ih middle nodup rest
    refine ⟨here.later.trans later, fun other different => (kinds other different).trans (here.kinds other different),
      ?_, ?_, ?_⟩
    · intro run missing
      rw [List.mem_cons, not_or] at missing
      exact (kept run missing.2).trans (here.tasks run missing.1)
    · intro run member listed paused
      by_cases own : run.taskId = task
      · -- The tasks that follow are other ones.
        obtain ⟨run', placed, same, state⟩ := here.holds run member own paused
        have missing : run'.taskId ∉ tasks := by rwa [same, own]
        exact ⟨run', (kept run' missing).mpr placed, same, state⟩
      · exact holds run ((here.tasks run own).mpr member) ((List.mem_cons.mp listed).resolve_left own) paused
    · intro run member listed awaiting plain
      by_cases own : run.taskId = task
      · refine (here.advances run member own awaiting plain).between (.refl s) later after fun run' same => ?_
        exact kept run' (by rwa [same, own])
      · have others := (List.mem_cons.mp listed).resolve_left own
        exact (advances run ((here.tasks run own).mpr member) others awaiting plain).between here.later (.refl t) after
          fun _ _ => .rfl

end Advancing

section Fallback

/-- The fallback may take the current role of a run for done: it awaits a submission, its idle deadline is over,
and neither a human nor a validation has to act first. -/
structure Due (s : Server) (w : World) (run : Run) : Prop where
  awaiting : run.state.phase = .awaiting
  deadline : ∃ deadline ≤ w.now, run.idleDeadline = some deadline
  unasked : ¬ run.currentPane.any s.waits
  unsubmitted : run.state.token ∉ s.submissions.map (·.token)

private theorem clearIdle_due : (∃ deadline ≤ w.now, (s.clearIdle run).idleDeadline = some deadline) ↔
    (∃ deadline ≤ w.now, run.idleDeadline = some deadline) ∧ ¬ run.currentPane.any s.waits ∧
      run.state.token ∉ s.submissions.map (·.token) := by
  have listed : s.submissions.any (·.token == run.state.token) = true ↔ run.state.token ∈ s.submissions.map (·.token) := by
    simp only [List.any_eq_true, beq_iff_eq, List.mem_map]
  rw [clearIdle, ← listed]
  split
  · next held =>
    rw [Bool.or_eq_true] at held
    constructor
    · rintro ⟨deadline, -, nonsense⟩
      cases nonsense
    · rintro ⟨-, unasked, unsubmitted⟩
      exact absurd held (not_or.mpr ⟨unasked, unsubmitted⟩)
  · next free =>
    rw [Bool.or_eq_true, not_or] at free
    exact ⟨fun due => ⟨due, free⟩, fun due => due.1⟩

private theorem mem_dueTasks {taskId : ℕ} : taskId ∈ s.dueTasks kind w (·.idleDeadline) ↔
    ∃ run ∈ s.runs kind, run.taskId = taskId ∧ ∃ deadline ≤ w.now, run.idleDeadline = some deadline := by
  simp only [dueTasks, List.mem_map, List.mem_filter, Option.any_eq_true, decide_eq_true_eq]
  constructor
  · rintro ⟨run, ⟨listed, deadline, due, passed⟩, own⟩
    exact ⟨run, listed, own, deadline, passed, due⟩
  · rintro ⟨run, listed, own, deadline, passed, due⟩
    exact ⟨run, ⟨listed, deadline, due, passed⟩, own⟩

private theorem atVerifier_of_spec (shaped : Shaped kind run) (spec : run.spec.verifier = false) :
    run.state.atVerifier = false := by
  have roles := shaped.roles
  rw [Run.spec] at spec
  rw [State.atVerifier]
  cases kind with
  | workflow =>
    obtain ⟨template, known, roles⟩ := roles
    rw [known] at spec
    rw [roles, WorkflowTemplate.engineRoles, List.getElem?_map]
    cases read : template.roles[run.state.cur]? with
    | none => rfl
    | some role =>
      dsimp only at spec
      rw [read] at spec
      exact spec
  | relay =>
    rw [roles.2, relayRoles]
    rcases run.state.cur with _ | _ | _ <;> rfl

/-- The due tasks of one kind: exactly the awaiting runs whose deadline is over advance. -/
theorem idle_due (sound : s.Sound) (ran : (s.dueTasks kind w (·.idleDeadline)).foldlM (idleRun kind w) s = some t)
    (member : run ∈ s.runs kind) :
    (run.state.phase = .awaiting → (∃ deadline ≤ w.now, run.idleDeadline = some deadline) → Advances kind s run t) ∧
      (¬ (run.state.phase = .awaiting ∧ ∃ deadline ≤ w.now, run.idleDeadline = some deadline) → Stays kind run t) := by
  obtain ⟨-, -, kept, holds, advances⟩ := idle_tasks sound (sound.dueTasks_nodup kind w) ran
  refine ⟨fun awaiting due => ?_, fun idle => ?_⟩
  · obtain ⟨deadline, passed, set⟩ := due
    have gate := (sound.shape member).idle (by rw [set]; rfl)
    have listed := mem_dueTasks.mpr ⟨run, member, rfl, deadline, passed, set⟩
    exact advances run member listed awaiting (atVerifier_of_spec (sound.shape member) gate.1)
  · by_cases listed : run.taskId ∈ s.dueTasks kind w (·.idleDeadline)
    · obtain ⟨other, found, own, due⟩ := mem_dueTasks.mp listed
      obtain rfl := sound.single kind run member other found own
      exact holds other member listed ((sound.shape member).phase.resolve_left fun awaiting => idle ⟨awaiting, due⟩)
    · exact ⟨run, (kept run listed).mpr member, rfl, rfl⟩

private theorem clearIdle_same (s : Server) (run : Run) :
    (s.clearIdle run).taskId = run.taskId ∧ (s.clearIdle run).rolePanes = run.rolePanes ∧
      (s.clearIdle run).state = run.state := by
  rw [clearIdle]
  split
  · exact ⟨rfl, rfl, rfl⟩
  · exact ⟨rfl, rfl, rfl⟩

private theorem mem_clearIdle (s : Server) (member : run ∈ s.runs kind) :
    s.clearIdle run ∈ ((s.mapRuns .workflow s.clearIdle).mapRuns .relay s.clearIdle).runs kind := by
  cases kind with
  | workflow =>
    rw [mapRuns, runs_withRuns_of_ne (by decide), mapRuns, runs_withRuns_self]
    exact List.mem_map_of_mem member
  | relay =>
    rw [mapRuns, runs_withRuns_self, mapRuns, runs_withRuns_of_ne (by decide)]
    exact List.mem_map_of_mem member

private theorem due_iff : s.Due w run ↔ (s.clearIdle run).state.phase = .awaiting ∧
    ∃ deadline ≤ w.now, (s.clearIdle run).idleDeadline = some deadline := by
  rw [clearIdle_due, (clearIdle_same s run).2.2]
  constructor
  · rintro ⟨awaiting, deadline, unasked, unsubmitted⟩
    exact ⟨awaiting, deadline, unasked, unsubmitted⟩
  · rintro ⟨awaiting, deadline, unasked, unsubmitted⟩
    exact ⟨awaiting, deadline, unasked, unsubmitted⟩

/-- One flush: exactly the runs that are due advance, and every other one keeps its state. -/
theorem flushIdle_exact (sound : s.Sound) (ran : s.flushOrchestrationIdleDue w = some t) (member : run ∈ s.runs kind) :
    (s.Due w run → Advances kind s run t) ∧ (¬ s.Due w run → Stays kind run t) := by
  rw [flushOrchestrationIdleDue] at ran
  obtain ⟨mid, first, rest⟩ := Option.bind_eq_some_iff.mp ran
  have cleared := (sound.clearIdle .workflow s).clearIdle .relay s
  have early : Later s ((s.mapRuns .workflow s.clearIdle).mapRuns .relay s.clearIdle) := .of_eq rfl rfl
  have placed := mem_clearIdle s member
  obtain ⟨task, panes, state⟩ := clearIdle_same s run
  rw [due_iff, and_imp]
  generalize (s.mapRuns .workflow s.clearIdle).mapRuns .relay s.clearIdle = middle at cleared early placed first
  have kept := foldlM_idleRun cleared first
  have after := foldlM_idleRun kept rest
  have flushed := idle_tasks cleared (cleared.dueTasks_nodup .workflow w) first
  have checked := idle_tasks kept (kept.dueTasks_nodup .relay w) rest
  have moved : (s.clearIdle run).state.phase = .awaiting →
      (∃ deadline ≤ w.now, (s.clearIdle run).idleDeadline = some deadline) → Advances kind s (s.clearIdle run) t := by
    intro awaiting due
    cases kind with
    | workflow =>
      refine ((idle_due cleared first placed).1 awaiting due).between early checked.1 after fun run' _ => ?_
      rw [checked.2.1 .workflow (by decide)]
    | relay =>
      have before := flushed.2.1 .relay (by decide)
      exact ((idle_due kept rest (before ▸ placed)).1 awaiting due).between (early.trans flushed.1) (.refl t) after
        fun _ _ => .rfl
  have held : ¬ ((s.clearIdle run).state.phase = .awaiting ∧
      ∃ deadline ≤ w.now, (s.clearIdle run).idleDeadline = some deadline) → Stays kind (s.clearIdle run) t := by
    intro idle
    cases kind with
    | workflow =>
      rw [Stays, checked.2.1 .workflow (by decide)]
      exact (idle_due cleared first placed).2 idle
    | relay =>
      have before := flushed.2.1 .relay (by decide)
      exact (idle_due kept rest (before ▸ placed)).2 idle
  refine ⟨fun awaiting due => (moved awaiting due).of_same task panes state, fun idle => ?_⟩
  obtain ⟨run', listed, own, same⟩ := held idle
  exact ⟨run', listed, own.trans task, same.trans state⟩

/-- In every state that a server can reach, one look at the idle deadlines advances exactly the roles that are due,
by one, and leaves every other run as it was. A role that is due neither judges nor declares artifacts, and the
agent in its own Pane went idle at least one idle delay before. -/
theorem idle_exact (tokenState : ℕ) (inputs : List (World × Op)) (w : World) (s t : Server)
    (ran : Machine.exec Server.step (fresh tokenState) inputs = some s) (stepped : s.step (w, .flushIdle) = some t) :
    ∀ kind, ∀ run ∈ s.runs kind, (Advances kind s run t ↔ s.Due w run) ∧ (Stays kind run t ↔ ¬ s.Due w run) ∧
      (s.Due w run → run.spec.verifier = false ∧ run.spec.expectedArtifacts = [] ∧
        ∃ deadline ≤ w.now, SeenIdle inputs run deadline) := by
  have empty : Seen [] (fresh tokenState) := by
    intro kind run listed
    exact absurd listed List.not_mem_nil
  obtain ⟨sound, seen⟩ := empty.exec (fresh_sound tokenState) ran
  intro kind run member
  obtain ⟨moved, held⟩ := flushIdle_exact sound stepped member
  have single := (sound.step stepped).single
  refine ⟨⟨fun advances => ?_, moved⟩, ⟨fun stays due => stays.not_advances single (moved due), held⟩, fun due => ?_⟩
  · by_contra idle
    exact (held idle).not_advances single advances
  · obtain ⟨deadline, passed, set⟩ := due.deadline
    have gate := (sound.shape member).idle (by rw [set]; rfl)
    exact ⟨gate.1, gate.2, deadline, passed, seen kind run member deadline set⟩

/-- A pair whose builder falls silent. -/
def silentPair : List (World × Op) :=
  [(willing, .launchWorkflow "pair"
      ⟨[], [⟨"claude", "claude"⟩, ⟨"codex", "codex"⟩], ⟨8, 16, 3, 3600⟩, 0⟩),
    (willing, .agentTransition 1 .idle [])]

set_option maxRecDepth 4000 in
theorem idle_exact_silentPair : ∃ s t, Machine.exec Server.step (fresh 1) silentPair = some s ∧
    s.step ({ willing with now := 5000 }, .flushIdle) = some t ∧
    ∃ run ∈ s.runs .workflow, Advances .workflow s run t ∧ s.Due { willing with now := 5000 } run := by
  have ends : ((Machine.exec Server.step (fresh 1) silentPair).bind
      fun s => s.step ({ willing with now := 5000 }, .flushIdle)).isSome := by decide +kernel
  obtain ⟨t, stepped⟩ := Option.isSome_iff_exists.mp ends
  obtain ⟨s, ran, stepped⟩ := Option.bind_eq_some_iff.mp stepped
  have due : (s.runs .workflow).any fun run => run.state.phase == .awaiting && run.idleDeadline == some 5000 &&
      !run.currentPane.any s.waits && !(s.submissions.map (·.token)).contains run.state.token := by
    have checked : (Machine.exec Server.step (fresh 1) silentPair).any fun s =>
        (s.runs .workflow).any fun run => run.state.phase == .awaiting && run.idleDeadline == some 5000 &&
          !run.currentPane.any s.waits && !(s.submissions.map (·.token)).contains run.state.token := by
      decide +kernel
    rwa [ran] at checked
  obtain ⟨run, listed, fits⟩ := List.any_eq_true.mp due
  simp only [Bool.and_eq_true, beq_iff_eq, Bool.not_eq_true', List.contains_eq_mem, decide_eq_false_iff_not] at fits
  obtain ⟨⟨⟨awaiting, set⟩, unasked⟩, unsubmitted⟩ := fits
  have due : s.Due { willing with now := 5000 } run :=
    ⟨awaiting, ⟨5000, le_rfl, set⟩, by rw [unasked]; decide, unsubmitted⟩
  exact ⟨s, t, ran, stepped, run, listed,
    ((idle_exact 1 silentPair _ s t ran stepped .workflow run listed).1).mpr due, due⟩

end Fallback

end Server

end Uniterm.Model.Orchestration
