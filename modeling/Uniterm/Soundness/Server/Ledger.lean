import Uniterm.Model.Server.Supervision
import Uniterm.Soundness.Orchestrate.Contract

/-! # The ledger of live runs

While an operation works on a run, the run is out of its list. The ledger is the list of all runs that
the server owns, whether in a list or in hand; what holds of it does not depend on its order. Every
operation takes a run out, changes it under silent log entries, and either projects it and puts it back
or finishes it.
-/

namespace Uniterm.Model.Orchestration

open EventLog Orchestrate Runs Work ToMathlib Std

section Live

/-- The runs in the two lists. -/
def liveRuns (runs : OrchestrationKind → List Run) : List (OrchestrationKind × Run) :=
  (runs .workflow).map (Prod.mk .workflow) ++ (runs .relay).map (Prod.mk .relay)

namespace Server

def live (s : Server) : List (OrchestrationKind × Run) := liveRuns s.runs

variable {s t : Server} {kind : OrchestrationKind} {run : Run}

theorem mem_live : (kind, run) ∈ s.live ↔ run ∈ s.runs kind := by
  cases kind <;> simp [live, liveRuns]

@[simp] theorem runs_withRuns_self (runs : List Run) : (s.withRuns kind runs).runs kind = runs := by
  simp only [withRuns, Function.update_self]

theorem runs_withRuns_of_ne {other : OrchestrationKind} (different : other ≠ kind)
    (runs : List Run) : (s.withRuns kind runs).runs other = s.runs other := by
  simp only [withRuns, Function.update_of_ne different]

/-- Replacing one list changes the live runs by that list. -/
theorem live_withRuns {taken kept : List Run} (perm : (s.runs kind).Perm (taken ++ kept)) :
    s.live.Perm (taken.map (Prod.mk kind) ++ (s.withRuns kind kept).live) := by
  cases kind with
  | workflow =>
    rw [live, liveRuns, live, liveRuns, runs_withRuns_self, runs_withRuns_of_ne (by decide),
      ← List.append_assoc, ← List.map_append]
    exact (perm.map _).append_right _
  | relay =>
    rw [live, liveRuns, live, liveRuns, runs_withRuns_self, runs_withRuns_of_ne (by decide)]
    refine (List.Perm.append_left _ (perm.map _)).trans ?_
    rw [List.map_append, ← List.append_assoc, ← List.append_assoc]
    exact List.perm_append_comm.append_right _

/-- What taking a run out of its list leaves. -/
theorem take_some {fits : Run → Bool} (taken : s.take kind fits = some (run, t)) :
    fits run = true ∧ ∃ rest, t = s.withRuns kind rest ∧ (s.runs kind).Perm (run :: rest) := by
  unfold take at taken
  split at taken
  · cases taken
  · next index found =>
    obtain ⟨first, read, same⟩ := Option.map_eq_some_iff.mp taken
    cases same
    obtain ⟨low, fitting, _⟩ := List.findIdx?_eq_some_iff_getElem.mp found
    rw [List.getElem?_eq_getElem low, Option.some.injEq] at read
    subst read
    exact ⟨fitting, _, rfl, swapRemove_perm (List.getElem?_eq_getElem low)⟩

theorem take_none {fits : Run → Bool} (missing : s.take kind fits = none) :
    ∀ run ∈ s.runs kind, fits run = false := by
  unfold take at missing
  split at missing
  · next nowhere => simpa using List.findIdx?_eq_none_iff.mp nowhere
  · next index found =>
    obtain ⟨low, _⟩ := List.findIdx?_eq_some_iff_getElem.mp found
    rw [List.getElem?_eq_getElem low] at missing
    cases missing

theorem live_take {rest : List Run} (perm : (s.runs kind).Perm (run :: rest)) :
    s.live.Perm ((kind, run) :: (s.withRuns kind rest).live) := by
  have split : (s.runs kind).Perm ([run] ++ rest) := perm
  exact live_withRuns split

theorem live_put : (s.put kind run).live.Perm ((kind, run) :: s.live) := by
  have back : (s.put kind run).withRuns kind (s.runs kind) = s := by
    simp [put, withRuns]
  have added : ((s.put kind run).runs kind).Perm (run :: s.runs kind) := by
    rw [put, runs_withRuns_self]
    exact List.perm_append_singleton run _
  have perm := live_take added
  rwa [back] at perm

end Server

end Live

section Replay

/-- The runs that the log's records lead to. -/
def replayed (log : List Entry) : ExtTreeMap ℕ DurableOrchestration :=
  (log.map Entry.record).foldl replayOrchestration ∅

/-- An entry that the replay passes over. -/
def Entry.Silent : Entry → Prop
  | .projected _ => False
  | .finished _ _ _ => False
  | _ => True

private theorem replayed_silent {log entries : List Entry} (silent : ∀ entry ∈ entries, entry.Silent) :
    replayed (log ++ entries) = replayed log := by
  rw [replayed, List.map_append, List.foldl_append]
  show (entries.map Entry.record).foldl replayOrchestration (replayed log) = _
  induction entries with
  | nil => rfl
  | cons entry entries ih =>
    rw [List.map_cons, List.foldl_cons]
    have here : replayOrchestration (replayed log) entry.record = replayed log := by
      have quiet := silent entry List.mem_cons_self
      cases entry <;> first | exact False.elim quiet | rfl
    rw [here]
    exact ih fun other listed => silent other (List.mem_cons_of_mem _ listed)

private theorem replayed_projected (log : List Entry) (run : DurableOrchestration) :
    replayed (log ++ [.projected run]) = (replayed log).insert run.taskId run := by
  rw [replayed, List.map_append, List.foldl_append]
  rfl

private theorem replayed_finished (log : List Entry) (kind : OrchestrationKind) (taskId : ℕ)
    (outcome : String) :
    replayed (log ++ [.finished kind taskId outcome]) = (replayed log).erase taskId := by
  rw [replayed, List.map_append, List.foldl_append]
  rfl

end Replay

section Ledger

/-- The shape that every run of a kind keeps. -/
structure Shaped (kind : OrchestrationKind) (run : Run) : Prop where
  indexed : run.state.Indexed
  panes : run.rolePanes.length = run.state.roles.length
  providers : run.roleProviders.length = run.state.roles.length
  started : run.started.length = run.state.roles.length
  roles : match kind with
    | .workflow => ∃ template, run.template = some template ∧
      run.state.roles = template.engineRoles
    | .relay => run.template = none ∧ run.state.roles = relayRoles
  phase : run.state.phase = .awaiting ∨ run.state.phase = .paused
  /-- Only a role without a gate of its own may be taken for done when it is idle. -/
  idle : run.idleDeadline.isSome → run.spec.verifier = false ∧ run.spec.expectedArtifacts = []

/-- What the server keeps of the runs that it owns. -/
structure Ledger (runs : List (OrchestrationKind × Run)) (log : List Entry)
    (nextTask nextPane : ℕ) : Prop where
  tasks : (runs.map (·.2.taskId)).Nodup
  tasksBelow : ∀ entry ∈ runs, entry.2.taskId < nextTask
  panes : (runs.flatMap (·.2.rolePanes)).Nodup
  panesBelow : ∀ entry ∈ runs, ∀ pane ∈ entry.2.rolePanes, pane < nextPane
  tokens : (runs.map (·.2.state.token)).Nodup
  shaped : ∀ entry ∈ runs, Shaped entry.1 entry.2
  /-- The log leads to the durable images of the runs, and to nothing else. -/
  mirrored : ∀ taskId durable, (replayed log)[taskId]? = some durable ↔
    ∃ entry ∈ runs, entry.2.taskId = taskId ∧ entry.2.durable entry.1 = durable

variable {runs runs' : List (OrchestrationKind × Run)} {log : List Entry} {nextTask nextPane : ℕ}
  {kind : OrchestrationKind} {run run' : Run}

theorem Ledger.perm (ledger : Ledger runs log nextTask nextPane) (perm : runs.Perm runs') :
    Ledger runs' log nextTask nextPane where
  tasks := (perm.map _).nodup_iff.mp ledger.tasks
  tasksBelow entry listed := ledger.tasksBelow entry (perm.mem_iff.mpr listed)
  panes := (perm.flatMap_right _).nodup_iff.mp ledger.panes
  panesBelow entry listed := ledger.panesBelow entry (perm.mem_iff.mpr listed)
  tokens := (perm.map _).nodup_iff.mp ledger.tokens
  shaped entry listed := ledger.shaped entry (perm.mem_iff.mpr listed)
  mirrored taskId durable := by simp only [ledger.mirrored, perm.mem_iff]

theorem Ledger.silent (ledger : Ledger runs log nextTask nextPane) {entries : List Entry}
    (silent : ∀ entry ∈ entries, entry.Silent) : Ledger runs (log ++ entries) nextTask nextPane where
  __ := ledger
  mirrored := by
    rw [replayed_silent silent]
    exact ledger.mirrored

theorem Ledger.noted (ledger : Ledger runs log nextTask nextPane) {entry : Entry}
    (silent : entry.Silent) : Ledger runs (log ++ [entry]) nextTask nextPane :=
  ledger.silent fun _ listed => List.mem_singleton.mp listed ▸ silent

theorem Ledger.grow (ledger : Ledger runs log nextTask nextPane) {nextTask' nextPane' : ℕ}
    (tasks : nextTask ≤ nextTask') (panes : nextPane ≤ nextPane') :
    Ledger runs log nextTask' nextPane' where
  __ := ledger
  tasksBelow entry listed := (ledger.tasksBelow entry listed).trans_le tasks
  panesBelow entry listed pane own := (ledger.panesBelow entry listed pane own).trans_le panes

/-- A projection replaces what the log said about its task, and nothing else. -/
theorem mirrored_projected {run : Run} (fresh : run.taskId ∉ runs.map (·.2.taskId))
    (others : ∀ taskId ≠ run.taskId, ∀ durable, (replayed log)[taskId]? = some durable ↔
      ∃ entry ∈ runs, entry.2.taskId = taskId ∧ entry.2.durable entry.1 = durable)
    (taskId : ℕ) (durable : DurableOrchestration) :
    (replayed (log ++ [.projected (run.durable kind)]))[taskId]? = some durable ↔
      ∃ entry ∈ (kind, run) :: runs, entry.2.taskId = taskId ∧ entry.2.durable entry.1 = durable := by
  rw [replayed_projected, ExtTreeMap.getElem?_insert]
  show (if compare run.taskId taskId = .eq then some (run.durable kind)
    else (replayed log)[taskId]?) = some durable ↔ _
  split
  · next same =>
    obtain rfl := Std.compare_eq_iff_eq.mp same
    constructor
    · rintro ⟨⟩
      exact ⟨_, List.mem_cons_self, rfl, rfl⟩
    · rintro ⟨entry, listed, own, rfl⟩
      rcases List.mem_cons.mp listed with rfl | listed
      · rfl
      · exact absurd (own ▸ List.mem_map_of_mem listed) fresh
  · next different =>
    have other : run.taskId ≠ taskId := fun same => different (Std.compare_eq_iff_eq.mpr same)
    rw [others taskId (Ne.symm other)]
    constructor
    · rintro ⟨entry, listed, own, image⟩
      exact ⟨entry, List.mem_cons_of_mem _ listed, own, image⟩
    · rintro ⟨entry, listed, own, image⟩
      rcases List.mem_cons.mp listed with rfl | listed
      · exact absurd own other
      · exact ⟨entry, listed, own, image⟩

/-- A run in hand that changed is projected. -/
theorem Ledger.projected (ledger : Ledger ((kind, run) :: runs) log nextTask nextPane)
    (task : run'.taskId = run.taskId) (panes : run'.rolePanes = run.rolePanes)
    (shaped : Shaped kind run')
    (token : run'.state.token = run.state.token ∨ run'.state.token ∉ runs.map (·.2.state.token)) :
    Ledger ((kind, run') :: runs) (log ++ [.projected (run'.durable kind)]) nextTask nextPane where
  tasks := by
    rw [List.map_cons, task]
    exact ledger.tasks
  tasksBelow := by
    intro entry listed
    rcases List.mem_cons.mp listed with rfl | listed
    · exact task ▸ ledger.tasksBelow _ List.mem_cons_self
    · exact ledger.tasksBelow entry (List.mem_cons_of_mem _ listed)
  panes := by
    rw [List.flatMap_cons, panes]
    exact ledger.panes
  panesBelow := by
    intro entry listed
    rcases List.mem_cons.mp listed with rfl | listed
    · exact panes ▸ ledger.panesBelow _ List.mem_cons_self
    · exact ledger.panesBelow entry (List.mem_cons_of_mem _ listed)
  tokens := by
    have tokens := ledger.tokens
    rw [List.map_cons, List.nodup_cons] at tokens ⊢
    rcases token with same | fresh
    · exact ⟨same ▸ tokens.1, tokens.2⟩
    · exact ⟨fresh, tokens.2⟩
  shaped := by
    intro entry listed
    rcases List.mem_cons.mp listed with rfl | listed
    · exact shaped
    · exact ledger.shaped entry (List.mem_cons_of_mem _ listed)
  mirrored := by
    have tasks := ledger.tasks
    rw [List.map_cons, List.nodup_cons, ← task] at tasks
    refine mirrored_projected tasks.1 fun taskId other durable => ?_
    rw [ledger.mirrored]
    constructor
    · rintro ⟨entry, listed, own, image⟩
      rcases List.mem_cons.mp listed with rfl | listed
      · exact absurd (own.symm.trans task.symm) other
      · exact ⟨entry, listed, own, image⟩
    · rintro ⟨entry, listed, own, image⟩
      exact ⟨entry, List.mem_cons_of_mem _ listed, own, image⟩

/-- A run under a fresh task in fresh Panes is projected for the first time. -/
theorem Ledger.added (ledger : Ledger runs log nextTask nextPane) (nextPane' : ℕ)
    (task : run.taskId = nextTask) (panes : run.rolePanes.Nodup)
    (fresh : ∀ pane ∈ run.rolePanes, nextPane ≤ pane ∧ pane < nextPane')
    (grown : nextPane ≤ nextPane') (shaped : Shaped kind run)
    (token : run.state.token ∉ runs.map (·.2.state.token)) :
    Ledger ((kind, run) :: runs) (log ++ [.projected (run.durable kind)]) (nextTask + 1)
      nextPane' := by
  have unused : run.taskId ∉ runs.map (·.2.taskId) := by
    intro used
    obtain ⟨entry, listed, same⟩ := List.mem_map.mp used
    have below := ledger.tasksBelow entry listed
    omega
  constructor
  · exact List.nodup_cons.mpr ⟨unused, ledger.tasks⟩
  · intro entry listed
    rcases List.mem_cons.mp listed with rfl | listed
    · exact Nat.lt_succ_of_le task.le
    · exact Nat.lt_succ_of_lt (ledger.tasksBelow entry listed)
  · refine List.nodup_append.mpr ⟨panes, ledger.panes, ?_⟩
    rintro pane own _ used rfl
    obtain ⟨entry, listed, belongs⟩ := List.mem_flatMap.mp used
    exact absurd (ledger.panesBelow entry listed pane belongs) (Nat.not_lt.mpr (fresh pane own).1)
  · intro entry listed pane own
    rcases List.mem_cons.mp listed with rfl | listed
    · exact (fresh pane own).2
    · exact (ledger.panesBelow entry listed pane own).trans_le grown
  · exact List.nodup_cons.mpr ⟨token, ledger.tokens⟩
  · intro entry listed
    rcases List.mem_cons.mp listed with rfl | listed
    · exact shaped
    · exact ledger.shaped entry listed
  · exact mirrored_projected unused fun taskId _ durable => ledger.mirrored taskId durable

/-- Runs with the same durable images keep the ledger: their deadlines are not in it. -/
theorem Ledger.retimed (ledger : Ledger runs log nextTask nextPane)
    (same : runs'.map (fun entry => entry.2.durable entry.1) =
      runs.map fun entry => entry.2.durable entry.1)
    (shaped : ∀ entry ∈ runs', Shaped entry.1 entry.2) : Ledger runs' log nextTask nextPane := by
  have transfer {β : Type} (read : DurableOrchestration → β) :
      runs'.map (fun entry => read (entry.2.durable entry.1)) =
        runs.map fun entry => read (entry.2.durable entry.1) := by
    have mapped := congrArg (List.map read) same
    rwa [List.map_map, List.map_map] at mapped
  have image {entry : OrchestrationKind × Run} (listed : entry ∈ runs') :
      ∃ old ∈ runs, old.2.durable old.1 = entry.2.durable entry.1 := by
    have inside := List.mem_map_of_mem (f := fun entry => entry.2.durable entry.1) listed
    rw [same] at inside
    exact List.mem_map.mp inside
  constructor
  · exact (transfer (·.taskId)) ▸ ledger.tasks
  · intro entry listed
    obtain ⟨old, known, equal⟩ := image listed
    have task : old.2.taskId = entry.2.taskId := congrArg DurableOrchestration.taskId equal
    exact task ▸ ledger.tasksBelow old known
  · have panes := ledger.panes
    rw [List.flatMap_def] at panes ⊢
    exact (transfer (·.rolePanes)) ▸ panes
  · intro entry listed
    obtain ⟨old, known, equal⟩ := image listed
    have panes : old.2.rolePanes = entry.2.rolePanes :=
      congrArg DurableOrchestration.rolePanes equal
    exact panes ▸ ledger.panesBelow old known
  · exact (transfer (·.state.token)) ▸ ledger.tokens
  · exact shaped
  · intro taskId durable
    have members (runs : List (OrchestrationKind × Run)) :
        (∃ entry ∈ runs, entry.2.taskId = taskId ∧ entry.2.durable entry.1 = durable) ↔
          durable ∈ runs.map (fun entry => entry.2.durable entry.1) ∧ durable.taskId = taskId := by
      rw [List.mem_map]
      constructor
      · rintro ⟨entry, listed, rfl, rfl⟩
        exact ⟨⟨entry, listed, rfl⟩, rfl⟩
      · rintro ⟨⟨entry, listed, rfl⟩, rfl⟩
        exact ⟨entry, listed, rfl, rfl⟩
    rw [ledger.mirrored, members, members, same]

/-- A run in hand that is over leaves the ledger. -/
theorem Ledger.finished (ledger : Ledger ((kind, run) :: runs) log nextTask nextPane)
    (outcome : String) :
    Ledger runs (log ++ [.finished kind run.taskId outcome]) nextTask nextPane where
  tasks := (List.nodup_cons.mp ledger.tasks).2
  tasksBelow entry listed := ledger.tasksBelow entry (List.mem_cons_of_mem _ listed)
  panes := (List.nodup_append.mp ledger.panes).2.1
  panesBelow entry listed := ledger.panesBelow entry (List.mem_cons_of_mem _ listed)
  tokens := (List.nodup_cons.mp ledger.tokens).2
  shaped entry listed := ledger.shaped entry (List.mem_cons_of_mem _ listed)
  mirrored := by
    intro taskId durable
    have tasks := ledger.tasks
    rw [List.map_cons, List.nodup_cons] at tasks
    rw [replayed_finished, ExtTreeMap.getElem?_erase]
    split
    · next same =>
      obtain rfl := Std.compare_eq_iff_eq.mp same
      constructor
      · intro impossible
        cases impossible
      · rintro ⟨entry, listed, own, _⟩
        exact absurd (own ▸ List.mem_map_of_mem listed) tasks.1
    · next different =>
      have other : run.taskId ≠ taskId := fun same => different (Std.compare_eq_iff_eq.mpr same)
      rw [ledger.mirrored]
      constructor
      · rintro ⟨entry, listed, own, image⟩
        rcases List.mem_cons.mp listed with rfl | listed
        · exact absurd own other
        · exact ⟨entry, listed, own, image⟩
      · rintro ⟨entry, listed, own, image⟩
        exact ⟨entry, List.mem_cons_of_mem _ listed, own, image⟩

end Ledger

section Actions

/-- Actions that end a run. -/
def finishes : Action → Bool
  | .complete => true
  | .abort _ => true
  | _ => false

/-- Running or paused, a run steps to a phase that waits, or to its end. -/
theorem step_phase {state : Orchestrate.State} (indexed : state.Indexed)
    (phase : state.phase = .awaiting ∨ state.phase = .paused) (event : Event) :
    (state.step event).1.roles = state.roles ∧
      (finishes (state.step event).2 = true ∧ (state.step event).1.phase.over = true ∨
        finishes (state.step event).2 = false ∧
          ((state.step event).1.phase = .awaiting ∨ (state.step event).1.phase = .paused)) := by
  have effect := State.step_effect indexed event
  generalize state.step event = next at effect
  cases effect with
  | hold => exact ⟨rfl, .inr ⟨rfl, phase⟩⟩
  | awaitSubmit => exact ⟨rfl, .inr ⟨rfl, phase⟩⟩
  | pause s' reason running roles cur targets token tokenSeq paused =>
    exact ⟨roles, .inr ⟨rfl, .inr paused⟩⟩
  | abort => exact ⟨rfl, .inl ⟨rfl, rfl⟩⟩
  | opened s' running licensed roles cur targets token tokenSeq opened =>
    exact ⟨roles, .inr ⟨rfl, .inl opened⟩⟩
  | completed => exact ⟨rfl, .inl ⟨rfl, rfl⟩⟩

/-- Only an injection changes the token. -/
theorem step_token {state : Orchestrate.State} (indexed : state.Indexed) {event : Event}
    (kept : ∀ role token, (state.step event).2 ≠ .inject role token) :
    (state.step event).1.token = state.token := by
  have effect := State.step_effect indexed event
  generalize state.step event = next at effect kept
  cases effect with
  | pause s' reason running roles cur targets token => exact token
  | opened s' => exact absurd rfl (kept s'.cur s'.token)
  | _ => rfl

/-- An event without a licence at most pauses the run, in its turn. -/
theorem step_unlicensed {state : Orchestrate.State} (indexed : state.Indexed) {event : Event}
    (unlicensed : ¬ state.Licensed (some state.token) event) (going : event ≠ .stop) :
    finishes (state.step event).2 = false ∧ (state.step event).1.cur = state.cur ∧
      ∀ role token, (state.step event).2 ≠ .inject role token := by
  have effect := State.step_effect indexed event
  generalize state.step event = next at effect
  cases effect with
  | hold => exact ⟨rfl, rfl, fun _ _ => nofun⟩
  | awaitSubmit => exact ⟨rfl, rfl, fun _ _ => nofun⟩
  | pause s' reason running roles cur => exact ⟨rfl, cur, fun _ _ => nofun⟩
  | abort reason running stopped => exact absurd stopped going
  | opened s' running licensed => exact absurd licensed unlicensed
  | completed running licensed => exact absurd licensed unlicensed

/-- The engine's next state keeps the shape of a run whose idle deadline is not for another role. -/
theorem Shaped.stepped {kind : OrchestrationKind} {run : Run} (shaped : Shaped kind run)
    {state : Orchestrate.State} (indexed : state.Indexed) (roles : state.roles = run.state.roles)
    (phase : state.phase = .awaiting ∨ state.phase = .paused)
    (idle : run.idleDeadline = none ∨ state.cur = run.state.cur) :
    Shaped kind { run with state := state } where
  indexed := indexed
  panes := shaped.panes.trans (congrArg _ roles.symm)
  providers := shaped.providers.trans (congrArg _ roles.symm)
  started := shaped.started.trans (congrArg _ roles.symm)
  roles := by
    have own := shaped.roles
    cases kind <;> simpa only [roles] using own
  phase := phase
  idle := by
    intro set
    rcases idle with unset | cur
    · rw [unset] at set
      cases set
    · have same : ({ run with state := state } : Run).spec = run.spec := by
        rw [Run.spec, Run.spec, cur]
      rw [same]
      exact shaped.idle set

/-- The run as the interpretation of an action leaves it: a delivery may mark the role as started and
set the stall deadline. -/
structure Delivered (run run' : Run) : Prop where
  state : run'.state = run.state
  template : run'.template = run.template
  task : run'.taskId = run.taskId
  panes : run'.rolePanes = run.rolePanes
  providers : run'.roleProviders = run.roleProviders
  started : run'.started.length = run.started.length
  idle : run'.idleDeadline = run.idleDeadline

theorem Delivered.refl (run : Run) : Delivered run run := ⟨rfl, rfl, rfl, rfl, rfl, rfl, rfl⟩

theorem Delivered.spec {run run' : Run} (delivered : Delivered run run') : run'.spec = run.spec := by
  rw [Run.spec, Run.spec, delivered.template, delivered.state]

theorem Delivered.shaped {kind : OrchestrationKind} {run run' : Run} (delivered : Delivered run run')
    (shaped : Shaped kind run) : Shaped kind run' where
  indexed := delivered.state ▸ shaped.indexed
  panes := by
    rw [delivered.panes, delivered.state]
    exact shaped.panes
  providers := by
    rw [delivered.providers, delivered.state]
    exact shaped.providers
  started := by
    rw [delivered.started, delivered.state]
    exact shaped.started
  roles := by
    have roles := shaped.roles
    cases kind <;> simpa only [delivered.template, delivered.state] using roles
  phase := delivered.state ▸ shaped.phase
  idle := by
    rw [delivered.idle, delivered.spec]
    exact shaped.idle

namespace Server

variable {s : Server} {kind : OrchestrationKind} {w : World} {run : Run}

/-- The three outcomes of an injection. -/
theorem inject_cases (s : Server) (kind : OrchestrationKind) (w : World) (run : Run)
    (role token : ℕ) :
    let pane := run.rolePanes.getD role 0
    let first := !run.started.getD role false
    let opened := s.append (.activated kind run.taskId role pane token)
    let tried := opened.append
      (.delivery kind run role token pane s.log.length first (w.accepts pane token))
    (s.inject kind w run role token = (run, opened) ∧
        (pane ∉ s.panes ∨ run.roleProviders[role]? = none)) ∨
      (w.accepts pane token = true ∧ pane ∈ s.panes ∧ (s.inject kind w run role token).2 = tried ∧
        (s.inject kind w run role token).1 =
          { run with stallDeadline := some (w.now + stallTimeout)
                     started := if first then run.started.set role true else run.started }) ∨
      (w.accepts pane token = false ∧ pane ∈ s.panes ∧
        s.inject kind w run role token = (run, tried.schedulePromptRetry w
          { kind := kind, taskId := run.taskId, token := token, pane := pane
            firstDelivery := first, attempts := 1, due := w.now, inject := s.log.length })) := by
  dsimp only
  unfold inject
  dsimp only
  split
  · next missing => exact .inl ⟨rfl, missing⟩
  · next present =>
    obtain ⟨inside, _⟩ := not_or.mp present
    split
    · next accepted =>
      refine .inr (.inl ⟨accepted, not_not.mp inside, rfl, ?_⟩)
      cases run.started.getD role false <;> rfl
    · next refused =>
      exact .inr (.inr ⟨by simpa using refused, not_not.mp inside, rfl⟩)

end Server

end Actions

end Uniterm.Model.Orchestration
