import Mathlib.Data.List.Induction
import Uniterm.Soundness.Runs.Activity

/-! # Whole runs of the run graph

`apply_cases` inverts one event: it is refused and the graph is what it was, or it is one of four
updates with everything the source has checked. From it follow the representation invariant over
whole runs, pruning at any cap included, the atomicity of a refusal, and what the allocators promise:
they exceed every id ever used, up to the 64-bit maximum where `saturating_add` stops them.
-/

namespace Uniterm.Model.Runs

open Std ToMathlib

namespace RunGraphEvent

/-- The run an event gives a live turn. -/
def activatedRun : RunGraphEvent → Option RunId
  | activated run _ _ | handoff run _ _ _ => some run
  | _ => none

/-- The run id, the role id and the activation id an event uses up. -/
def usedRun : RunGraphEvent → Option ℕ
  | created run _ _ _ _ _ => some run
  | _ => none

def usedRole : RunGraphEvent → Option ℕ
  | roleDeclared _ role _ _ _ => some role
  | _ => none

def usedActivation : RunGraphEvent → Option ℕ
  | activated _ _ activation | handoff _ _ _ activation => some activation
  | _ => none

end RunGraphEvent

namespace RunGraph

/-- The accepted events, with what has been checked when the graph is touched. -/
inductive Applied (g : RunGraph) : RunGraphEvent → RunGraph → Prop
  | created {run parent project kind taskId title} (expected : run = g.nextRunId)
      (absent : g.runs[run]? = none)
      (parents : ∀ kin, parent = some kin → ∃ kept, g.runs[kin]? = some kept)
      (untasked : g.taskRuns[taskId]? = none) :
      Applied g (.created run parent project kind taskId title) (g.addRun {
        id := run, parent, project, kind, taskId, title
        status := .created, outcome := none, roles := [] })
  | declared {run role name pane provider node} (read : g.runs[run]? = some node)
      (unfinished : node.status.terminal = false) (expected : role = g.nextRoleId)
      (absent : g.roles[role]? = none) :
      Applied g (.roleDeclared run role name pane provider)
        (g.addRole node { id := role, run, name, pane, provider, activation := none })
  | activated {event} {run : RunId} {role : RoleId} {activation node record}
      (named : event.activatedRun = some run) (used : event.usedActivation = some activation)
      (others : event.usedRun = none ∧ event.usedRole = none)
      (expected : activation = g.nextActivationId) (read : g.runs[run]? = some node)
      (unfinished : node.status.terminal = false) (held : g.roles[role]? = some record)
      (owner : record.run = run)
      (free : ∀ owner, g.paneActive[record.pane]? = some owner → owner.1 = run) :
      Applied g event ((g.closeActive run).openRole run node role record activation)
  | finished {event} {run : RunId} {node} (status : RunStatus) (outcome : String)
      (silent : event.usedRun = none ∧ event.usedRole = none ∧ event.usedActivation = none)
      (terminal : status.terminal = true) (read : g.runs[run]? = some node) :
      Applied g event (((g.closeActive run).endRun run node status outcome).pruneTo
        runGraphHistoryCap)

/-- An event is refused and leaves the graph alone, or it is applied. -/
def Settled (g : RunGraph) (event : RunGraphEvent) (result : RunGraph × Verdict) : Prop :=
  (∃ error, result = (g, .error error)) ∨ result.2 = .ok () ∧ Applied g event result.1

private theorem settled_refuse (g : RunGraph) (event : RunGraphEvent) (message : String) :
    g.Settled event (g.refuse message) := .inl ⟨_, rfl⟩

private theorem settled_activate {g : RunGraph} {event : RunGraphEvent} {run : RunId}
    {role : RoleId} {activation : ℕ} (expectedFrom : Option RoleId)
    (named : event.activatedRun = some run) (used : event.usedActivation = some activation)
    (others : event.usedRun = none ∧ event.usedRole = none) :
    g.Settled event (g.activate run role activation expectedFrom) := by
  unfold activate
  split
  · exact settled_refuse ..
  split
  · exact settled_refuse ..
  next expected =>
  split
  · exact settled_refuse ..
  next node read =>
  split
  · exact settled_refuse ..
  next unfinished =>
  split
  · exact settled_refuse ..
  next record found =>
  obtain ⟨held, owner⟩ := Option.filter_eq_some_iff.mp found
  split
  · exact settled_refuse ..
  split
  · exact settled_refuse ..
  next free =>
  split
  · exact settled_refuse ..
  refine .inr ⟨rfl, .activated named used others (not_not.mp expected) read
    (Bool.not_eq_true _ ▸ unfinished) held (beq_iff_eq.mp owner) ?_⟩
  intro taken present
  simpa [present] using free

private theorem settled_finish {g : RunGraph} {event : RunGraphEvent} (run : RunId)
    {status : RunStatus} (outcome : String)
    (silent : event.usedRun = none ∧ event.usedRole = none ∧ event.usedActivation = none)
    (terminal : status.terminal = true) : g.Settled event (g.finish run status outcome) := by
  unfold finish
  split
  · exact settled_refuse ..
  next node read =>
  split
  · exact settled_refuse ..
  · exact .inr ⟨rfl, .finished status outcome silent terminal read⟩

/-- The inversion of one event. -/
theorem apply_cases (g : RunGraph) (event : RunGraphEvent) : g.Settled event (g.apply event) := by
  cases event with
  | created run parent project kind taskId title =>
    simp only [apply, applyCreated]
    split
    · exact settled_refuse ..
    next fresh =>
    rw [not_or, not_not] at fresh
    split
    · exact settled_refuse ..
    next parents =>
    split
    · exact settled_refuse ..
    next untasked =>
    refine .inr ⟨rfl, .created fresh.1 (lookup_eq_none_of_not_mem fresh.2) ?_
      (lookup_eq_none_of_not_mem untasked)⟩
    rintro kin rfl
    have present : kin ∈ g.runs := by simpa using parents
    exact ⟨_, ExtTreeMap.getElem?_eq_some_getElem present⟩
  | roleDeclared run role name pane provider =>
    simp only [apply, applyRoleDeclared]
    split
    · exact settled_refuse ..
    next node read =>
    split
    · exact settled_refuse ..
    next valid =>
    simp only [not_or, not_not, Bool.not_eq_true] at valid
    exact .inr ⟨rfl, .declared read valid.1 valid.2.1 (lookup_eq_none_of_not_mem valid.2.2)⟩
  | activated run role activation => exact settled_activate none rfl rfl ⟨rfl, rfl⟩
  | handoff run source target activation =>
    exact settled_activate (some source) rfl rfl ⟨rfl, rfl⟩
  | completed run outcome => exact settled_finish run outcome ⟨rfl, rfl, rfl⟩ rfl
  | failed run outcome => exact settled_finish run outcome ⟨rfl, rfl, rfl⟩ rfl
  | canceled run outcome => exact settled_finish run outcome ⟨rfl, rfl, rfl⟩ rfl

section Steps

variable {g g' : RunGraph} {event : RunGraphEvent}

theorem Applied.coherent (applied : Applied g event g') (coherent : g.Coherent) : g'.Coherent := by
  cases applied with
  | created expected absent parents untasked => exact coherent.addRun absent parents untasked rfl
  | declared read unfinished expected absent => exact coherent.addRole read absent rfl
  | @activated event run role activation node record named used others expected read unfinished held
      owner free =>
    have closed := coherent.closeActive read
    have quiet := (coherent.seated.closeActive coherent.owned read).2
    -- The role closed just before may be the one that is opened again.
    have still := closeActive_owners read role
    rw [held, Option.map_some] at still
    obtain ⟨kept, found, same⟩ := Option.map_eq_some_iff.mp still
    have owner' : kept.run = run := by
      simp only [Prod.mk.injEq] at same
      exact same.2.1.trans owner
    refine closed.openRole quiet (by rw [closeActive_runs]; exact read) found same.symm owner' ?_
    intro taken present
    exact free taken (closeActive_paneActive read present)
  | @finished event run node status outcome silent terminal read =>
    have closed := coherent.closeActive read
    have quiet := (coherent.seated.closeActive coherent.owned read).2
    exact (closed.endRun (by rw [closeActive_runs]; exact read) quiet).pruneTo _

theorem Coherent.step (coherent : g.Coherent) (step : Step) : (g.step step).Coherent := by
  cases step with
  | apply event =>
    obtain ⟨error, same⟩ | ⟨_, applied⟩ := g.apply_cases event
    · rw [RunGraph.step, same]
      exact coherent
    · exact applied.coherent coherent
  | prune cap => exact coherent.pruneTo cap

theorem after_concat (steps : List Step) (step : Step) :
    after (steps ++ [step]) = (after steps).step step := by
  rw [after, List.foldl_concat, ← after]

private theorem coherent_after (steps : List Step) : (after steps).Coherent := by
  induction steps using List.reverseRecOn with
  | nil => exact coherent_new
  | append_singleton steps step ih =>
    rw [after_concat]
    exact ih.step step

end Steps

section Allocators

/-- How an allocator follows the ids that accepted events use: each is the one it expects. -/
structure Allocates (next : RunGraph → ℕ) (used : RunGraphEvent → Option ℕ) : Prop where
  applied : ∀ {g event g'}, Applied g event g' →
    next g' = (used event).elim (next g) (fun id => max (next g) (saturatingAdd64 id 1)) ∧
      ∀ id, used event = some id → id = max (next g) 1
  pruned : ∀ (g : RunGraph) cap, next (g.pruneTo cap) = next g
  starts : next new = 1

private theorem pruneLoop_next (cap fuel : ℕ) (g : RunGraph) :
    (pruneLoop cap fuel g).nextRun = g.nextRun ∧ (pruneLoop cap fuel g).nextRole = g.nextRole ∧
      (pruneLoop cap fuel g).nextActivation = g.nextActivation := by
  induction fuel generalizing g with
  | zero => exact ⟨rfl, rfl, rfl⟩
  | succ fuel ih =>
    rw [pruneLoop]
    split
    · exact ⟨rfl, rfl, rfl⟩
    split
    · exact ⟨rfl, rfl, rfl⟩
    · exact ih _

private theorem closeActive_next (g : RunGraph) (run : RunId) :
    (g.closeActive run).nextRun = g.nextRun ∧ (g.closeActive run).nextRole = g.nextRole ∧
      (g.closeActive run).nextActivation = g.nextActivation := by
  unfold closeActive closeRole
  repeat' split
  all_goals exact ⟨rfl, rfl, rfl⟩

private theorem finished_next (g : RunGraph) (run : RunId) (node : RunRecord) (status : RunStatus)
    (outcome : String) (cap : ℕ) :
    (((g.closeActive run).endRun run node status outcome).pruneTo cap).nextRun = g.nextRun ∧
    (((g.closeActive run).endRun run node status outcome).pruneTo cap).nextRole = g.nextRole ∧
    (((g.closeActive run).endRun run node status outcome).pruneTo cap).nextActivation =
      g.nextActivation := by
  obtain ⟨run', role, activation⟩ := pruneLoop_next cap
    ((g.closeActive run).endRun run node status outcome).runs.size
    ((g.closeActive run).endRun run node status outcome)
  have closed := g.closeActive_next run
  exact ⟨run'.trans closed.1, role.trans closed.2.1, activation.trans closed.2.2⟩

private theorem allocates_runs : Allocates nextRun RunGraphEvent.usedRun where
  applied applied := by
    cases applied with
    | created expected => exact ⟨rfl, fun id same => by cases same; exact expected⟩
    | declared => exact ⟨rfl, fun id same => by cases same⟩
    | activated named used others =>
      rw [others.1]
      exact ⟨(closeActive_next ..).1, fun id same => by cases same⟩
    | finished status outcome silent =>
      rw [silent.1]
      exact ⟨(finished_next ..).1, fun id same => by cases same⟩
  pruned g cap := (pruneLoop_next cap _ g).1
  starts := rfl

private theorem allocates_roles : Allocates nextRole RunGraphEvent.usedRole where
  applied applied := by
    cases applied with
    | created => exact ⟨rfl, fun id same => by cases same⟩
    | declared read unfinished expected =>
      exact ⟨rfl, fun id same => by cases same; exact expected⟩
    | activated named used others =>
      rw [others.2]
      exact ⟨(closeActive_next ..).2.1, fun id same => by cases same⟩
    | finished status outcome silent =>
      rw [silent.2.1]
      exact ⟨(finished_next ..).2.1, fun id same => by cases same⟩
  pruned g cap := (pruneLoop_next cap _ g).2.1
  starts := rfl

private theorem allocates_activations : Allocates nextActivation RunGraphEvent.usedActivation where
  applied {g event g'} applied := by
    cases applied with
    | created => exact ⟨rfl, fun id same => by cases same⟩
    | declared => exact ⟨rfl, fun id same => by cases same⟩
    | @activated event run role activation node record named used others expected =>
      rw [used]
      refine ⟨?_, fun id same => by cases same; exact expected⟩
      exact congrArg (max · (saturatingAdd64 activation 1)) (g.closeActive_next run).2.2
    | finished status outcome silent =>
      rw [silent.2.2]
      exact ⟨(finished_next ..).2.2, fun id same => by cases same⟩
  pruned g cap := (pruneLoop_next cap _ g).2.2
  starts := rfl

variable {next : RunGraph → ℕ} {used : RunGraphEvent → Option ℕ}

private theorem Allocates.step (allocates : Allocates next used) (g : RunGraph) (step : Step)
    (bounded : next g ≤ u64Max) : next g ≤ next (g.step step) ∧ next (g.step step) ≤ u64Max := by
  cases step with
  | prune cap =>
    rw [RunGraph.step, allocates.pruned]
    exact ⟨Nat.le_refl _, bounded⟩
  | apply event =>
    rw [RunGraph.step]
    obtain ⟨error, same⟩ | ⟨_, applied⟩ := g.apply_cases event
    · rw [same]
      exact ⟨Nat.le_refl _, bounded⟩
    · rw [(allocates.applied applied).1]
      cases used event with
      | none => exact ⟨Nat.le_refl _, bounded⟩
      | some id =>
        simp only [Option.elim_some, saturatingAdd64]
        omega

private theorem Allocates.grows (allocates : Allocates next used) (rest : List Step) (g : RunGraph)
    (bounded : next g ≤ u64Max) : next g ≤ next (rest.foldl RunGraph.step g) := by
  induction rest generalizing g with
  | nil => exact Nat.le_refl _
  | cons step rest ih =>
    have stepped := allocates.step g step bounded
    exact Nat.le_trans stepped.1 (ih _ stepped.2)

private theorem Allocates.bounded (allocates : Allocates next used) (steps : List Step) :
    next (after steps) ≤ u64Max := by
  induction steps using List.reverseRecOn with
  | nil =>
    rw [after, List.foldl_nil, allocates.starts]
    decide
  | append_singleton steps step ih =>
    rw [after_concat]
    exact (allocates.step _ step ih).2

/-- Every id an accepted event used lies below the allocator, unless the allocator has reached the
64-bit maximum, and never above it. -/
def Exceeds (next : RunGraph → ℕ) (used : RunGraphEvent → Option ℕ) (steps : List Step) : Prop :=
  ∀ before event rest, steps = before ++ .apply event :: rest →
    ((after before).apply event).2 = .ok () → ∀ id, used event = some id →
      id ≤ next (after steps) ∧ (next (after steps) < u64Max → id < next (after steps))

theorem Allocates.exceeds (allocates : Allocates next used) (steps : List Step) :
    Exceeds next used steps := by
  rintro before event rest rfl accepted id carries
  obtain ⟨error, same⟩ | ⟨_, applied⟩ := (after before).apply_cases event
  · rw [same] at accepted
    contradiction
  have moved := (allocates.applied applied).1
  have expected := (allocates.applied applied).2 id carries
  rw [carries, Option.elim_some, saturatingAdd64] at moved
  have start := allocates.bounded before
  have later := allocates.grows rest _ (allocates.step _ (.apply event) start).2
  have split : after (before ++ .apply event :: rest) =
      rest.foldl RunGraph.step ((after before).step (.apply event)) := by
    rw [after, List.foldl_append, List.foldl_cons, ← after]
  have here : next ((after before).step (.apply event)) =
      max (next (after before)) (min (id + 1) u64Max) := moved
  have positive : 1 ≤ u64Max := by decide
  rw [split]
  omega

/-- The id an event must carry is the allocator's value: it starts at one and never falls. -/
theorem Allocates.exceeds_expected (allocates : Allocates next used) (steps : List Step) :
    Exceeds (fun g => max (next g) 1) used steps := by
  intro before event rest split accepted id carries
  have positive : 1 ≤ next (after steps) := by
    have grown := allocates.grows steps new (by rw [allocates.starts]; decide)
    rwa [allocates.starts, ← after] at grown
  have exceeded := allocates.exceeds steps before event rest split accepted id carries
  dsimp only
  rw [Nat.max_eq_left positive]
  exact exceeded

end Allocators

section Activation

/-- Pruning keeps the records of the runs it retains. -/
private theorem pruneTo_runs {g : RunGraph} {cap : ℕ} {run : RunId} {node : RunRecord}
    (read : (g.pruneTo cap).runs[run]? = some node) : g.runs[run]? = some node := by
  unfold pruneTo at read
  generalize g.runs.size = fuel at read
  induction fuel generalizing g with
  | zero => exact read
  | succ fuel ih =>
    rw [pruneLoop] at read
    split at read
    · exact read
    split at read
    · exact read
    · next id dropped found =>
      have kept := ih read
      have erased : (g.forgetRun id dropped).runs = g.runs.erase id := rfl
      rw [erased, lookup_erase] at kept
      split at kept
      · contradiction
      · exact kept

private theorem Applied.active {g g' : RunGraph} {event : RunGraphEvent} {run : RunId}
    {node : RunRecord} (applied : Applied g event g') (read : g'.runs[run]? = some node)
    (active : node.status = .active) :
    event.activatedRun = some run ∨ ∃ old, g.runs[run]? = some old ∧ old.status = .active := by
  cases applied with
  | created =>
    simp only [addRun, lookup_insert] at read
    split at read
    · cases read
      contradiction
    · exact .inr ⟨node, read, active⟩
  | @declared owner role name pane provider kept found =>
    simp only [addRole, lookup_insert] at read
    split at read
    · next same =>
      cases read
      exact .inr ⟨kept, same ▸ found, active⟩
    · exact .inr ⟨node, read, active⟩
  | activated named =>
    simp only [openRole, lookup_insert, closeActive_runs] at read
    split at read
    · next same => exact .inl (same ▸ named)
    · exact .inr ⟨node, read, active⟩
  | finished status outcome silent terminal =>
    have ended := pruneTo_runs read
    simp only [endRun, lookup_insert, closeActive_runs] at ended
    split at ended
    · cases ended
      dsimp only at active
      rw [active] at terminal
      contradiction
    · exact .inr ⟨node, ended, active⟩

/-- A run is active only where some event gave it a live turn. -/
theorem activated_of_active (steps : List Step) (run : RunId) (node : RunRecord)
    (read : (after steps).runs[run]? = some node) (active : node.status = .active) :
    ∃ event, Step.apply event ∈ steps ∧ event.activatedRun = some run := by
  induction steps using List.reverseRecOn generalizing node with
  | nil => simp [after, new] at read
  | append_singleton steps step ih =>
    have earlier : ∀ old, (after steps).runs[run]? = some old → old.status = .active →
        ∃ event, Step.apply event ∈ steps ++ [step] ∧ event.activatedRun = some run := by
      intro old found awake
      obtain ⟨event, member, named⟩ := ih old found awake
      exact ⟨event, List.mem_append_left _ member, named⟩
    rw [after_concat] at read
    cases step with
    | prune cap => exact earlier node (pruneTo_runs read) active
    | apply event =>
      rw [RunGraph.step] at read
      obtain ⟨error, same⟩ | ⟨_, applied⟩ := (after steps).apply_cases event
      · rw [same] at read
        exact earlier node read active
      · obtain named | ⟨old, found, awake⟩ := applied.active read active
        · exact ⟨event, by simp, named⟩
        · exact earlier old found awake

end Activation

/-- The representation invariant in the terms of the graph's own queries. -/
structure Exact (g : RunGraph) : Prop where
  children : ∀ parent run, run ∈ g.childrenOf parent ↔
    ∃ node, g.runs[run]? = some node ∧ node.parent = some parent
  childrenOnce : ∀ parent, (g.childrenOf parent).Nodup
  parents : ∀ (run : RunId) node parent, g.runs[run]? = some node → node.parent = some parent →
    ∃ kept, g.runs[parent]? = some kept
  projects : ∀ project run, run ∈ g.runsForProject project ↔
    ∃ node, g.runs[run]? = some node ∧ node.project = project
  projectsOnce : ∀ project, (g.runsForProject project).Nodup
  tasks : ∀ (task : ℕ) (run : RunId), g.taskRuns[task]? = some run ↔
    ∃ node, g.runs[run]? = some node ∧ node.taskId = task
  owned : ∀ (role : RoleId) record, g.roles[role]? = some record →
    ∃ node, g.runs[record.run]? = some node ∧ node.roles.count role = 1
  listed : ∀ (run : RunId) node (role : RoleId), g.runs[run]? = some node → role ∈ node.roles →
    ∃ record, g.roles[role]? = some record ∧ record.run = run
  panes : ∀ run pane, pane ∈ g.panes run ↔
    ∃ (role : RoleId) (record : RoleRecord),
      g.roles[role]? = some record ∧ record.run = run ∧ record.pane = pane
  panesOnce : ∀ run, (g.panes run).Nodup
  sole : ∀ (role role' : RoleId) record record', g.roles[role]? = some record →
    g.roles[role']? = some record' → record.live = true → record'.live = true →
    record.run = record'.run → role = role'
  terminal : ∀ (run : RunId) node, g.runs[run]? = some node → node.status.terminal = true →
    g.Quiet run
  paneActive : ∀ (pane : PaneId) (run : RunId) (role : RoleId),
    g.paneActive[pane]? = some (run, role) ↔
      ∃ (record : RoleRecord) (activation : RunActivation), g.roles[role]? = some record ∧
        record.run = run ∧ record.activation = some activation ∧ activation.active = true ∧
        activation.pane = pane

theorem Coherent.exact {g : RunGraph} (coherent : g.Coherent) : g.Exact := by
  obtain ⟨indexed, owned, seated⟩ := coherent
  refine ⟨?_, indexed.children.nodup, ?_, ?_, indexed.projects.nodup, ?_, ?_, owned.listed,
    owned.panes.mem, owned.panes.nodup, seated.sole, ?_, ?_⟩
  · intro parent run
    rw [childrenOf, indexed.children.mem]
    simp only [filing_eq_some_iff]
    constructor
    · rintro ⟨_, _, _, node, read, _, kin, _⟩
      exact ⟨node, read, kin⟩
    · rintro ⟨node, read, kin⟩
      exact ⟨_, _, _, node, read, rfl, kin, rfl, rfl⟩
  · intro run node parent read kin
    obtain ⟨filed, found⟩ := indexed.parents run node.id parent node.project node.taskId
      (filing_eq_some_iff.mpr ⟨node, read, rfl, kin, rfl, rfl⟩)
    obtain ⟨kept, present, _⟩ := Option.map_eq_some_iff.mp found
    exact ⟨kept, present⟩
  · intro project run
    rw [runsForProject, indexed.projects.mem]
    simp only [filing_eq_some_iff]
    constructor
    · rintro ⟨_, _, _, node, read, _, _, owner, _⟩
      exact ⟨node, read, owner⟩
    · rintro ⟨node, read, owner⟩
      exact ⟨_, _, _, node, read, rfl, rfl, owner, rfl⟩
  · intro task run
    rw [indexed.tasks]
    simp only [filing_eq_some_iff]
    constructor
    · rintro ⟨_, _, _, node, read, _, _, _, owner⟩
      exact ⟨node, read, owner⟩
    · rintro ⟨node, read, owner⟩
      exact ⟨_, _, _, node, read, rfl, rfl, rfl, owner⟩
  · intro role record found
    obtain ⟨_, node, read, member⟩ := owned.owned role record found
    exact ⟨node, read, List.count_eq_one_of_mem (owned.once _ node read) member⟩
  · intro run node read ended
    refine seated.quiet read ?_
    intro active
    rw [active] at ended
    contradiction
  · intro pane run role
    rw [seated.panes]
    constructor
    · rintro ⟨record, found, owner, live, rfl⟩
      obtain ⟨activation, opened, active⟩ := (Option.any_eq_true _ _).mp live
      exact ⟨record, activation, found, owner, opened, active,
        seated.seated role record activation found opened⟩
    · rintro ⟨record, activation, found, owner, opened, active, rfl⟩
      refine ⟨record, found, owner, ?_, (seated.seated role record activation found opened).symm⟩
      rw [RoleRecord.live, opened]
      exact active

/-- After every sequence of events, with pruning at any cap in between: the indexes are exact, a run
that no event activated has no live role, a refused event leaves the graph as it was, and the three
allocators exceed every id used so far until they reach the 64-bit maximum. -/
theorem after_exact (steps : List Step) :
    (after steps).Exact ∧
    (∀ run, (∀ event, Step.apply event ∈ steps → event.activatedRun ≠ some run) →
      (after steps).Quiet run) ∧
    (∀ event error, ((after steps).apply event).2 = .error error →
      ((after steps).apply event).1 = after steps) ∧
    Exceeds nextRunId RunGraphEvent.usedRun steps ∧
    Exceeds nextRoleId RunGraphEvent.usedRole steps ∧
    Exceeds nextActivationId RunGraphEvent.usedActivation steps := by
  have coherent := coherent_after steps
  refine ⟨coherent.exact, ?_, ?_, ?_, ?_, ?_⟩
  · intro run never role record found owner
    obtain ⟨_, node, read, _⟩ := coherent.owned.owned role record found
    refine coherent.seated.quiet (owner ▸ read) ?_ role record found owner
    intro active
    obtain ⟨event, member, named⟩ := activated_of_active steps run node (owner ▸ read) active
    exact never event member named
  · intro event error refused
    obtain ⟨error', same⟩ | ⟨accepted, _⟩ := (after steps).apply_cases event
    · rw [same]
    · rw [accepted] at refused
      contradiction
  · exact allocates_runs.exceeds_expected steps
  · exact allocates_roles.exceeds_expected steps
  · exact allocates_activations.exceeds_expected steps

/-- Create the runs 1 to `n` as roots, each for a task of its own. -/
def creations (n : ℕ) : List Step :=
  (List.range n).map fun i => .apply (.created (i + 1) none 0 .workflow (i + 1) "")

private theorem creation_accepted {g : RunGraph} {run : RunId} (expected : run = g.nextRunId)
    (absent : g.runs[run]? = none) (untasked : g.taskRuns[run]? = none) :
    g.apply (.created run none 0 .workflow run "") = (g.addRun {
      id := run, parent := none, project := 0, kind := .workflow, taskId := run, title := ""
      status := .created, outcome := none, roles := [] }, .ok ()) := by
  have unknown : ¬(run ≠ g.nextRunId ∨ run ∈ g.runs) := by
    rw [ExtTreeMap.mem_iff_isSome_getElem?, absent]
    simp [expected]
  have free : run ∉ g.taskRuns := by
    rw [ExtTreeMap.mem_iff_isSome_getElem?, untasked]
    simp
  simp only [apply, applyCreated, if_neg unknown, if_neg free, Option.any_none, Bool.false_eq_true,
    if_false]

private theorem after_creations (n : ℕ) (room : n ≤ u64Max) :
    (after (creations n)).nextRun = min (n + 1) u64Max ∧
      (∀ run : RunId, n < run → (after (creations n)).runs[run]? = none) ∧
      ∀ task : ℕ, n < task → (after (creations n)).taskRuns[task]? = none := by
  induction n with
  | zero =>
    refine ⟨by decide, fun run _ => ?_, fun task _ => ?_⟩
    · simp [creations, after, new]
    · simp [creations, after, new]
  | succ n ih =>
    obtain ⟨next, runs, tasks⟩ := ih (Nat.le_of_succ_le room)
    have split : after (creations (n + 1)) = (after (creations n)).step
        (.apply (.created (n + 1) none 0 .workflow (n + 1) "")) := by
      rw [creations, List.range_succ, List.map_append, List.map_singleton, after_concat, ← creations]
    have expected : n + 1 = (after (creations n)).nextRunId := by
      rw [nextRunId, next]
      omega
    have accepted := creation_accepted expected (runs _ (Nat.lt_succ_self n))
      (tasks _ (Nat.lt_succ_self n))
    rw [split, RunGraph.step, accepted]
    refine ⟨?_, fun run above => ?_, fun task above => ?_⟩
    · simp only [addRun, saturatingAdd64, next]
      omega
    · simp only [addRun, lookup_insert]
      rw [if_neg (by omega), runs run (by omega)]
    · simp only [addRun, lookup_insert]
      rw [if_neg (by omega), tasks task (by omega)]

private theorem creations_full {n : ℕ} (full : n + 1 = u64Max) :
    ((after (creations n)).apply (.created (n + 1) none 0 .workflow (n + 1) "")).2 = .ok () ∧
      ¬n + 1 < (after (creations n ++
        [.apply (.created (n + 1) none 0 .workflow (n + 1) "")])).nextRunId := by
  obtain ⟨next, runs, tasks⟩ := after_creations n (by omega)
  have expected : n + 1 = (after (creations n)).nextRunId := by
    rw [nextRunId, next]
    omega
  have accepted := creation_accepted expected (runs _ (Nat.lt_succ_self n))
    (tasks _ (Nat.lt_succ_self n))
  refine ⟨by rw [accepted], ?_⟩
  rw [after_concat, RunGraph.step, accepted, nextRunId]
  simp only [addRun, saturatingAdd64, next]
  omega

/-- The last 64-bit id is handed out like any other, and its allocator can no longer pass it. -/
theorem creations_saturate :
    ∃ n, n + 1 = u64Max ∧
      ((after (creations n)).apply (.created (n + 1) none 0 .workflow (n + 1) "")).2 = .ok () ∧
      ¬n + 1 < (after (creations n ++
        [.apply (.created (n + 1) none 0 .workflow (n + 1) "")])).nextRunId := by
  have positive : u64Max - 1 + 1 = u64Max := by decide
  exact ⟨u64Max - 1, positive, creations_full positive⟩

end RunGraph

end Uniterm.Model.Runs
