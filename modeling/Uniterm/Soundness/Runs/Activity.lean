import Uniterm.Soundness.Runs.Indexes

/-! # Live activations of the run graph

A run has at most one live role, and only while it is active; `paneActive` is the inverse of the
live activations. The two closing paths and the opening path share one fact: after `closeActive`
no role of the run is live, which is what makes the Pane of the next role free.
-/

namespace Uniterm.Model.Runs.RunGraph

open Std ToMathlib

/-- Live activations sit on their role's Pane, at most one for each run, and index `paneActive`. -/
structure Seated (g : RunGraph) : Prop where
  seated : ∀ (role : RoleId) record activation, g.roles[role]? = some record →
    record.activation = some activation → activation.pane = record.pane
  sole : ∀ (role role' : RoleId) record record', g.roles[role]? = some record →
    g.roles[role']? = some record' → record.live = true → record'.live = true →
    record.run = record'.run → role = role'
  active : ∀ (role : RoleId) record node, g.roles[role]? = some record → record.live = true →
    g.runs[record.run]? = some node → node.status = .active
  panes : ∀ (pane : PaneId) (run : RunId) (role : RoleId), g.paneActive[pane]? = some (run, role) ↔
    ∃ record, g.roles[role]? = some record ∧ record.run = run ∧ record.live = true ∧
      record.pane = pane

private theorem seated_new : Seated new where
  seated := by simp [new]
  sole := by simp [new]
  active := by simp [new]
  panes := by simp [new]

/-- No role of the run is live. -/
def Quiet (g : RunGraph) (run : RunId) : Prop :=
  ∀ (role : RoleId) record, g.roles[role]? = some record → record.run = run → record.live = false

section Updates

variable {g : RunGraph}

/-- A terminal or never activated run is quiet. -/
theorem Seated.quiet (seated : g.Seated) {run : RunId} {node : RunRecord}
    (read : g.runs[run]? = some node) (idle : node.status ≠ .active) : g.Quiet run := by
  rintro role record found rfl
  by_contra live
  exact idle (seated.active role record node found (by simpa using live) read)

/-- The runs may change as long as the owners of live roles stay active. -/
private theorem Seated.of_roles {g' : RunGraph} (seated : g.Seated) (roles : g'.roles = g.roles)
    (paneActive : g'.paneActive = g.paneActive)
    (active : ∀ (role : RoleId) record node, g.roles[role]? = some record → record.live = true →
      g'.runs[record.run]? = some node → node.status = .active) : g'.Seated where
  seated := roles ▸ seated.seated
  sole := roles ▸ seated.sole
  active role record node found := active role record node (roles ▸ found)
  panes := by rw [roles, paneActive]; exact seated.panes

theorem Seated.addRun {node : RunRecord} (seated : g.Seated) (owned : g.Owned)
    (absent : g.runs[node.id]? = none) : (g.addRun node).Seated := by
  refine seated.of_roles rfl rfl fun role record other found live read => ?_
  obtain ⟨_, kept, present, _⟩ := owned.owned role record found
  have runs : (g.addRun node).runs[record.run]? =
      if node.id = record.run then some node else g.runs[record.run]? := lookup_insert ..
  rw [runs, if_neg] at read
  · exact seated.active role record other found live read
  · intro same
    rw [← same, absent] at present
    contradiction

theorem Seated.endRun {run : RunId} {node : RunRecord} {status : RunStatus} {outcome : String}
    (seated : g.Seated) (quiet : g.Quiet run) : (g.endRun run node status outcome).Seated := by
  refine seated.of_roles rfl rfl fun role record other found live read => ?_
  have runs : (g.endRun run node status outcome).runs[record.run]? =
      if run = record.run then some { node with status, outcome := some outcome }
      else g.runs[record.run]? := lookup_insert ..
  rw [runs, if_neg] at read
  · exact seated.active role record other found live read
  · intro same
    rw [quiet role record found same.symm] at live
    contradiction

theorem Seated.addRole {node : RunRecord} {record : RoleRecord} (seated : g.Seated)
    (read : g.runs[record.run]? = some node) (absent : g.roles[record.id]? = none)
    (idle : record.activation = none) : (g.addRole node record).Seated := by
  have roles (role : RoleId) : (g.addRole node record).roles[role]? =
      if record.id = role then some record else g.roles[role]? := lookup_insert ..
  have asleep : record.live = false := by rw [RoleRecord.live, idle]; rfl
  have old : ∀ {role : RoleId} {held}, (g.addRole node record).roles[role]? = some held →
      held.live = true → g.roles[role]? = some held := by
    intro role held found live
    rw [roles] at found
    split at found
    · cases found
      rw [asleep] at live
      contradiction
    · exact found
  refine ⟨?_, ?_, ?_, ?_⟩
  · intro role held activation found opened
    rw [roles] at found
    split at found
    · cases found
      rw [idle] at opened
      contradiction
    · exact seated.seated role held activation found opened
  · intro role role' held held' found found' live live' same
    exact seated.sole role role' held held' (old found live) (old found' live') live live' same
  · intro role held other found live kept
    have runs : (g.addRole node record).runs[held.run]? = if record.run = held.run
        then some { node with roles := node.roles ++ [record.id] } else g.runs[held.run]? :=
      lookup_insert ..
    rw [runs] at kept
    split at kept
    · next same =>
      cases kept
      exact seated.active role held node (old found live) live (same ▸ read)
    · exact seated.active role held other (old found live) live kept
  · intro pane run role
    have index : (g.addRole node record).paneActive = g.paneActive := rfl
    rw [index, seated.panes]
    constructor
    · rintro ⟨held, found, owner, live, seat⟩
      refine ⟨held, ?_, owner, live, seat⟩
      rw [roles, if_neg, found]
      rintro rfl
      rw [absent] at found
      contradiction
    · rintro ⟨held, found, owner, live, seat⟩
      exact ⟨held, old found live, owner, live, seat⟩

theorem Seated.forgetRun {id : RunId} {node : RunRecord} (seated : g.Seated) (owned : g.Owned)
    (read : g.runs[id]? = some node) (idle : node.status ≠ .active) :
    (g.forgetRun id node).Seated := by
  have roles := owned.forgetRun_roles read
  refine ⟨?_, ?_, ?_, ?_⟩
  · intro role record activation found
    exact seated.seated role record activation ((roles role record).mp found).1
  · intro role role' record record' found found'
    exact seated.sole role role' record record' ((roles role record).mp found).1
      ((roles role' record').mp found').1
  · intro role record other found live kept
    obtain ⟨found, different⟩ := (roles role record).mp found
    have runs : (g.forgetRun id node).runs[record.run]? =
        if id = record.run then none else g.runs[record.run]? := lookup_erase ..
    rw [runs, if_neg (Ne.symm different)] at kept
    exact seated.active role record other found live kept
  · intro pane run role
    have index : (g.forgetRun id node).paneActive = g.paneActive := rfl
    rw [index, seated.panes]
    constructor
    · rintro ⟨record, found, owner, live, seat⟩
      refine ⟨record, (roles role record).mpr ⟨found, ?_⟩, owner, live, seat⟩
      intro same
      rw [seated.quiet read idle role record found same] at live
      contradiction
    · rintro ⟨record, found, rest⟩
      exact ⟨record, ((roles role record).mp found).1, rest⟩

end Updates

section Closing

variable {g : RunGraph} {run : RunId}

/-- What closing a live role leaves of it. -/
def shut (record : RoleRecord) (activation : RunActivation) : RoleRecord :=
  { record with activation := some { activation with active := false } }

private theorem shut_live (record : RoleRecord) (activation : RunActivation) :
    (shut record activation).live = false := rfl

/-- Either no listed role is live, or the first live one is closed. -/
theorem closeActive_cases {node : RunRecord} (read : g.runs[run]? = some node) :
    ((∀ role ∈ node.roles, ∀ record, g.roles[role]? = some record → record.live = false) ∧
      g.closeActive run = g) ∨
    ∃ role ∈ node.roles, ∃ record activation, g.roles[role]? = some record ∧
      record.activation = some activation ∧ record.live = true ∧
      g.closeActive run = { g with
        roles := g.roles.insert role (shut record activation)
        paneActive := g.paneActive.erase activation.pane } := by
  have search : g.activeRole run =
      node.roles.find? fun role => (g.roles[role]?).any RoleRecord.live := by
    rw [activeRole, read, Option.bind_some]
  unfold closeActive
  cases found : g.activeRole run with
  | none =>
    rw [search, List.find?_eq_none] at found
    refine .inl ⟨fun role member record held => ?_, rfl⟩
    simpa [held] using found role member
  | some role =>
    rw [search] at found
    have member := List.mem_of_find?_eq_some found
    have awake := List.find?_some found
    obtain ⟨record, held, live⟩ := (Option.any_eq_true _ _).mp awake
    obtain ⟨activation, opened, _⟩ := (Option.any_eq_true _ _).mp live
    refine .inr ⟨role, member, record, activation, held, opened, live, ?_⟩
    simp only [closeRole, held, opened, shut]

theorem closeActive_runs (g : RunGraph) (run : RunId) : (g.closeActive run).runs = g.runs := by
  unfold closeActive closeRole
  repeat' split
  all_goals rfl

/-- Closing leaves every owner and Pane alone. -/
theorem closeActive_owners {node : RunRecord} (read : g.runs[run]? = some node) (other : RoleId) :
    (g.closeActive run).roles[other]?.map (fun r => (r.id, r.run, r.pane)) =
      g.roles[other]?.map fun r => (r.id, r.run, r.pane) := by
  obtain ⟨_, same⟩ | ⟨role, _, record, activation, held, _, _, same⟩ := closeActive_cases read
  · rw [same]
  · have roles : (g.closeActive run).roles = g.roles.insert role (shut record activation) := by
      rw [same]
    exact owners_of_insert held roles rfl other

/-- Closing gives Panes free and takes none. -/
theorem closeActive_paneActive {node : RunRecord} {pane : PaneId} {owner : RunId × RoleId}
    (read : g.runs[run]? = some node)
    (present : (g.closeActive run).paneActive[pane]? = some owner) :
    g.paneActive[pane]? = some owner := by
  obtain ⟨_, same⟩ | ⟨_, _, _, activation, _, _, _, same⟩ := closeActive_cases read
  · rwa [same] at present
  · have erased : (g.closeActive run).paneActive = g.paneActive.erase activation.pane := by
      rw [same]
    rw [erased, lookup_erase] at present
    split at present
    · contradiction
    · exact present

theorem Seated.closeActive {node : RunRecord} (seated : g.Seated) (owned : g.Owned)
    (read : g.runs[run]? = some node) :
    (g.closeActive run).Seated ∧ (g.closeActive run).Quiet run := by
  obtain ⟨none_live, same⟩ | ⟨role, member, record, activation, held, opened, live, same⟩ :=
    closeActive_cases read
  · rw [same]
    refine ⟨seated, fun role record found owner => ?_⟩
    obtain ⟨_, kept, present, listed⟩ := owned.owned role record found
    rw [owner, read] at present
    cases present
    exact none_live role listed record found
  rw [same]
  have owner : record.run = run := by
    obtain ⟨again, found, owner⟩ := owned.listed run node role read member
    cases held.symm.trans found
    exact owner
  have roles (other : RoleId) : (g.roles.insert role (shut record activation))[other]? =
      if role = other then some (shut record activation) else g.roles[other]? := lookup_insert ..
  have old : ∀ {other : RoleId} {kept : RoleRecord},
      (g.roles.insert role (shut record activation))[other]? = some kept → kept.live = true →
      role ≠ other ∧ g.roles[other]? = some kept := by
    intro other kept found awake
    rw [roles] at found
    split at found
    · cases found
      rw [shut_live] at awake
      contradiction
    · next different => exact ⟨different, found⟩
  have pane : activation.pane = record.pane := seated.seated role record activation held opened
  refine ⟨⟨?_, ?_, ?_, ?_⟩, ?_⟩
  · intro other kept seat found taken
    rw [roles] at found
    split at found
    · cases found
      cases taken
      exact pane
    · exact seated.seated other kept seat found taken
  · intro first second kept kept' found found' awake awake'
    exact seated.sole first second kept kept' (old found awake).2 (old found' awake').2 awake awake'
  · intro other kept owning found awake
    exact seated.active other kept owning (old found awake).2 awake
  · intro place owning other
    rw [lookup_erase]
    constructor
    · intro indexed
      split at indexed
      · contradiction
      next different =>
      obtain ⟨kept, found, rest⟩ := (seated.panes place owning other).mp indexed
      refine ⟨kept, ?_, rest⟩
      rw [roles, if_neg, found]
      rintro rfl
      cases held.symm.trans found
      exact different (pane.trans rest.2.2)
    · rintro ⟨kept, found, owned, awake, seat⟩
      obtain ⟨different, found⟩ := old found awake
      have indexed := (seated.panes place owning other).mpr ⟨kept, found, owned, awake, seat⟩
      rw [if_neg, indexed]
      rintro rfl
      -- Two live roles on one Pane would be two values under one key.
      have here := (seated.panes activation.pane record.run role).mpr
        ⟨record, held, rfl, live, pane.symm⟩
      rw [here] at indexed
      cases indexed
      exact different rfl
  · intro other kept found same
    by_contra awake
    obtain ⟨different, found⟩ := old found (by simpa using awake)
    exact different (seated.sole role other record kept held found live (by simpa using awake)
      (owner.trans same.symm))

end Closing

section Opening

variable {g : RunGraph} {run : RunId} {node : RunRecord} {role : RoleId} {record : RoleRecord}
  {activation : ℕ}

theorem Seated.openRole (seated : g.Seated) (quiet : g.Quiet run) (owner : record.run = run)
    (mine : ∀ kept, g.roles[role]? = some kept → kept.run = run)
    (free : ∀ owner, g.paneActive[record.pane]? = some owner → owner.1 = run) :
    (g.openRole run node role record activation).Seated := by
  -- Whoever holds the target Pane holds it for this run, and this run is quiet.
  have vacant : g.paneActive[record.pane]? = none := by
    cases taken : g.paneActive[record.pane]? with
    | none => rfl
    | some owner =>
      obtain ⟨kept, found, owned, awake, _⟩ := (seated.panes record.pane owner.1 owner.2).mp taken
      rw [quiet owner.2 kept found (owned.trans (free owner taken))] at awake
      contradiction
  generalize opened : { record with activation := some (RunActivation.mk activation record.pane
    record.provider true) } = fresh
  have freshRun : fresh.run = run := by rw [← opened]; exact owner
  have freshPane : fresh.pane = record.pane := by rw [← opened]
  have freshLive : fresh.live = true := by rw [← opened]; rfl
  have roles (other : RoleId) : (g.openRole run node role record activation).roles[other]? =
      if role = other then some fresh else g.roles[other]? := by
    rw [← opened]
    exact lookup_insert ..
  have others : ∀ {other : RoleId} {kept}, role ≠ other →
      (g.openRole run node role record activation).roles[other]? = some kept →
      kept.live = true → kept.run ≠ run ∧ g.roles[other]? = some kept := by
    intro other kept different found awake
    rw [roles, if_neg different] at found
    refine ⟨fun same => ?_, found⟩
    rw [quiet other kept found same] at awake
    contradiction
  refine ⟨?_, ?_, ?_, ?_⟩
  · intro other kept seat found taken
    rw [roles] at found
    split at found
    · cases found
      rw [← opened] at taken ⊢
      cases taken
      rfl
    · exact seated.seated other kept seat found taken
  · intro first second kept kept' found found' awake awake' same
    by_cases here : role = first <;> by_cases there : role = second
    · exact here.symm.trans there
    · rw [roles, if_pos here] at found
      cases found
      exact absurd (same.symm.trans freshRun) (others there found' awake').1
    · rw [roles, if_pos there] at found'
      cases found'
      exact absurd (same.trans freshRun) (others here found awake).1
    · exact seated.sole first second kept kept' (others here found awake).2
        (others there found' awake').2 awake awake' same
  · intro other kept owning found awake read
    have runs : (g.openRole run node role record activation).runs[kept.run]? =
        if run = kept.run then some { node with status := .active } else g.runs[kept.run]? :=
      lookup_insert ..
    rw [runs] at read
    split at read
    · cases read
      rfl
    next different =>
    by_cases here : role = other
    · rw [roles, if_pos here] at found
      cases found
      exact absurd freshRun.symm different
    · exact seated.active other kept owning (others here found awake).2 awake read
  · intro pane owning other
    have index : (g.openRole run node role record activation).paneActive[pane]? =
        if record.pane = pane then some (run, role) else g.paneActive[pane]? := lookup_insert ..
    rw [index]
    constructor
    · intro indexed
      split at indexed
      · next same =>
        cases indexed
        exact ⟨fresh, by rw [roles, if_pos rfl], freshRun, freshLive, freshPane.trans same⟩
      · obtain ⟨kept, found, owned, awake, seat⟩ := (seated.panes pane owning other).mp indexed
        refine ⟨kept, ?_, owned, awake, seat⟩
        rw [roles, if_neg, found]
        rintro rfl
        rw [quiet role kept found (mine kept found)] at awake
        contradiction
    · rintro ⟨kept, found, owned, awake, seat⟩
      by_cases here : role = other
      · rw [roles, if_pos here] at found
        cases found
        rw [if_pos (freshPane.symm.trans seat), ← here, ← owned, freshRun]
      · obtain ⟨_, found⟩ := others here found awake
        have indexed := (seated.panes pane owning other).mpr ⟨kept, found, owned, awake, seat⟩
        rw [if_neg, indexed]
        rintro rfl
        rw [vacant] at indexed
        contradiction

end Opening

/-- The representation invariant of the run graph. -/
structure Coherent (g : RunGraph) : Prop where
  indexed : g.Indexed
  owned : g.Owned
  seated : g.Seated

theorem coherent_new : Coherent new := ⟨indexed_new, owned_new, seated_new⟩

section Operations

variable {g : RunGraph} {run : RunId} {node : RunRecord}

theorem Coherent.addRun (coherent : g.Coherent) (absent : g.runs[node.id]? = none)
    (parents : ∀ parent, node.parent = some parent → ∃ kept, g.runs[parent]? = some kept)
    (untasked : g.taskRuns[node.taskId]? = none) (roleless : node.roles = []) :
    (g.addRun node).Coherent :=
  ⟨coherent.indexed.addRun absent parents untasked, coherent.owned.addRun absent roleless,
    coherent.seated.addRun coherent.owned absent⟩

theorem Coherent.addRole {record : RoleRecord} (coherent : g.Coherent)
    (read : g.runs[record.run]? = some node) (absent : g.roles[record.id]? = none)
    (idle : record.activation = none) : (g.addRole node record).Coherent := by
  refine ⟨coherent.indexed.congr ?_ rfl rfl rfl, coherent.owned.addRole read absent,
    coherent.seated.addRole read absent idle⟩
  exact filing_of_insert read rfl rfl

theorem Coherent.closeActive (coherent : g.Coherent) (read : g.runs[run]? = some node) :
    (g.closeActive run).Coherent := by
  have runs := g.closeActive_runs run
  refine ⟨coherent.indexed.congr ?_ ?_ ?_ ?_, coherent.owned.congr ?_ (closeActive_owners read) ?_,
    (coherent.seated.closeActive coherent.owned read).1⟩
  · intro other
    rw [filing, filing, runs]
  · obtain ⟨_, same⟩ | ⟨_, _, _, _, _, _, _, same⟩ := closeActive_cases read <;> rw [same]
  · obtain ⟨_, same⟩ | ⟨_, _, _, _, _, _, _, same⟩ := closeActive_cases read <;> rw [same]
  · obtain ⟨_, same⟩ | ⟨_, _, _, _, _, _, _, same⟩ := closeActive_cases read <;> rw [same]
  · intro other
    rw [runs]
  · obtain ⟨_, same⟩ | ⟨_, _, _, _, _, _, _, same⟩ := closeActive_cases read <;> rw [same]

theorem Coherent.endRun {status : RunStatus} {outcome : String} (coherent : g.Coherent)
    (read : g.runs[run]? = some node) (quiet : g.Quiet run) :
    (g.endRun run node status outcome).Coherent := by
  refine ⟨coherent.indexed.congr ?_ rfl rfl rfl, coherent.owned.congr ?_ (fun _ => rfl) rfl,
    coherent.seated.endRun quiet⟩
  · exact filing_of_insert read rfl rfl
  · exact roles_of_insert read rfl rfl

theorem Coherent.openRole {role : RoleId} {record kept : RoleRecord} {activation : ℕ}
    (coherent : g.Coherent) (quiet : g.Quiet run) (read : g.runs[run]? = some node)
    (held : g.roles[role]? = some kept)
    (same : (record.id, record.run, record.pane) = (kept.id, kept.run, kept.pane))
    (owner : kept.run = run)
    (free : ∀ owner, g.paneActive[record.pane]? = some owner → owner.1 = run) :
    (g.openRole run node role record activation).Coherent := by
  refine ⟨coherent.indexed.congr ?_ rfl rfl rfl, coherent.owned.congr ?_ ?_ rfl,
    coherent.seated.openRole quiet ?_ ?_ free⟩
  · exact filing_of_insert read rfl rfl
  · exact roles_of_insert read rfl rfl
  · exact owners_of_insert held rfl same
  · simp only [Prod.mk.injEq] at same
    exact same.2.1.trans owner
  · intro again found
    cases held.symm.trans found
    exact owner

theorem Coherent.forgetRun (coherent : g.Coherent) (read : g.runs[run]? = some node)
    (terminal : node.status.terminal = true) (childless : g.childrenOf run = []) :
    (g.forgetRun run node).Coherent := by
  have idle : node.status ≠ .active := by
    intro active
    rw [active] at terminal
    contradiction
  exact ⟨coherent.indexed.forgetRun read childless, coherent.owned.forgetRun read,
    coherent.seated.forgetRun coherent.owned read idle⟩

/-- Only terminal leaves are candidates. -/
theorem pruneCandidate_spec (found : g.pruneCandidate = some (run, node)) :
    g.runs[run]? = some node ∧ node.status.terminal = true ∧ g.childrenOf run = [] := by
  have chosen := List.find?_some found
  simp only [Bool.and_eq_true, List.isEmpty_iff] at chosen
  exact ⟨ExtTreeMap.mem_toList_iff_getElem?_eq_some.mp (List.mem_of_find?_eq_some found), chosen⟩

theorem Coherent.pruneLoop (coherent : g.Coherent) (cap fuel : ℕ) :
    (pruneLoop cap fuel g).Coherent := by
  induction fuel generalizing g with
  | zero => exact coherent
  | succ fuel ih =>
    rw [RunGraph.pruneLoop]
    split
    · exact coherent
    split
    · exact coherent
    · next id node found =>
      obtain ⟨read, terminal, childless⟩ := pruneCandidate_spec found
      exact ih (coherent.forgetRun read terminal childless)

theorem Coherent.pruneTo (coherent : g.Coherent) (cap : ℕ) : (g.pruneTo cap).Coherent :=
  coherent.pruneLoop cap g.runs.size

end Operations

end Uniterm.Model.Runs.RunGraph
