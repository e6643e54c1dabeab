import Uniterm.Model.Runs.RunGraph

/-! # The indexes of the run graph

The graph is kept by six updates: adding a run, adding a role, closing and opening an activation,
ending a run and forgetting one. `Indexed` says that children, Projects and tasks index exactly the
retained runs, `Owned` that roles and Panes belong to exactly one retained run. Each depends on a
part of the run records only, so the updates that leave this part alone keep it by congruence.
-/

namespace Uniterm.Model.Runs.RunGraph

open Std ToMathlib

theorem lookup_insert {β : Type*} (m : ExtTreeMap ℕ β) (key other : ℕ) (value : β) :
    (m.insert key value)[other]? = if key = other then some value else m[other]? := by
  simp only [ExtTreeMap.getElem?_insert, Std.compare_eq_iff_eq]

theorem lookup_erase {β : Type*} (m : ExtTreeMap ℕ β) (key other : ℕ) :
    (m.erase key)[other]? = if key = other then none else m[other]? := by
  simp only [ExtTreeMap.getElem?_erase, Std.compare_eq_iff_eq]

theorem lookup_eq_none_of_not_mem {β : Type*} {m : ExtTreeMap ℕ β} {key : ℕ} (absent : key ∉ m) :
    m[key]? = none := ExtTreeMap.getElem?_eq_none absent

private theorem lookup_eraseAll {β : Type*} (keys : List ℕ) (m : ExtTreeMap ℕ β) (key : ℕ) :
    (keys.foldl (fun m key => m.erase key) m)[key]? = if key ∈ keys then none else m[key]? := by
  induction keys generalizing m with
  | nil => simp
  | cons first rest ih =>
    rw [List.foldl_cons, ih, lookup_erase]
    by_cases same : first = key
    · simp [same]
    · simp [same, Ne.symm same]

/-- What the indexes read of a retained run. -/
def filing (g : RunGraph) (run : RunId) : Option (RunId × Option RunId × ProjectId × ℕ) :=
  g.runs[run]?.map fun node => (node.id, node.parent, node.project, node.taskId)

theorem filing_eq_some_iff {g : RunGraph} {run id : RunId} {parent : Option RunId}
    {project : ProjectId} {task : ℕ} : g.filing run = some (id, parent, project, task) ↔
      ∃ node, g.runs[run]? = some node ∧ node.id = id ∧ node.parent = parent ∧
        node.project = project ∧ node.taskId = task := by
  simp only [filing, Option.map_eq_some_iff, Prod.mk.injEq]

/-- Rewriting a run that keeps its filing changes no filing. -/
theorem filing_of_insert {g g' : RunGraph} {run : RunId} {node node' : RunRecord}
    (read : g.runs[run]? = some node) (runs : g'.runs = g.runs.insert run node')
    (same : (node'.id, node'.parent, node'.project, node'.taskId) =
      (node.id, node.parent, node.project, node.taskId)) (other : RunId) :
    g'.filing other = g.filing other := by
  rw [filing, runs, lookup_insert]
  split
  · next equal => rw [filing, ← equal, read, Option.map_some, Option.map_some, same]
  · rfl

/-- Children, Projects and tasks index exactly the retained runs. -/
structure Indexed (g : RunGraph) : Prop where
  keyed : ∀ run id parent project task, g.filing run = some (id, parent, project, task) → id = run
  parents : ∀ run id parent project task, g.filing run = some (id, some parent, project, task) →
    ∃ filed, g.filing parent = some filed
  children : Lists g.children fun parent run =>
    ∃ id project task, g.filing run = some (id, some parent, project, task)
  projects : Lists g.projectRuns fun project run =>
    ∃ id parent task, g.filing run = some (id, parent, project, task)
  tasks : ∀ (task : ℕ) (run : RunId), g.taskRuns[task]? = some run ↔
    ∃ id parent project, g.filing run = some (id, parent, project, task)

theorem Indexed.congr {g g' : RunGraph} (indexed : g.Indexed)
    (filing : ∀ run, g'.filing run = g.filing run) (children : g'.children = g.children)
    (projectRuns : g'.projectRuns = g.projectRuns) (taskRuns : g'.taskRuns = g.taskRuns) :
    g'.Indexed where
  keyed run := by rw [filing]; exact indexed.keyed run
  parents run id parent project task filed := by
    rw [filing] at filed ⊢
    exact indexed.parents run id parent project task filed
  children := by simpa only [children, filing] using indexed.children
  projects := by simpa only [projectRuns, filing] using indexed.projects
  tasks := by simpa only [taskRuns, filing] using indexed.tasks

theorem indexed_new : Indexed new where
  keyed := by simp [filing, new]
  parents := by simp [filing, new]
  children := ⟨by simp [filing, new], by simp [new]⟩
  projects := ⟨by simp [filing, new], by simp [new]⟩
  tasks := by simp [filing, new]

section AddRun

variable {g : RunGraph} {node : RunRecord}

private theorem addRun_filing (g : RunGraph) (node : RunRecord) (run : RunId) :
    (g.addRun node).filing run =
      if node.id = run then some (node.id, node.parent, node.project, node.taskId)
      else g.filing run := by
  rw [filing, addRun, lookup_insert]
  split <;> rfl

theorem Indexed.addRun (indexed : g.Indexed) (absent : g.runs[node.id]? = none)
    (parents : ∀ parent, node.parent = some parent → ∃ kept, g.runs[parent]? = some kept)
    (untasked : g.taskRuns[node.taskId]? = none) : (g.addRun node).Indexed := by
  have unfiled : g.filing node.id = none := by rw [filing, absent, Option.map_none]
  have others : ∀ {run filed}, g.filing run = some filed → node.id ≠ run := by
    rintro run filed read rfl
    rw [unfiled] at read
    contradiction
  refine ⟨?_, ?_, ?_, ?_, ?_⟩
  · intro run id parent project task filed
    rw [addRun_filing] at filed
    split at filed
    · next same =>
      cases filed
      exact same
    · exact indexed.keyed run id parent project task filed
  · intro run id parent project task filed
    rw [addRun_filing] at filed
    have kept : ∃ filed, g.filing parent = some filed := by
      split at filed
      · simp only [Option.some.injEq, Prod.mk.injEq] at filed
        obtain ⟨kept, read⟩ := parents parent filed.2.1
        exact ⟨_, by rw [filing, read, Option.map_some]⟩
      · exact indexed.parents run id parent project task filed
    obtain ⟨filed, read⟩ := kept
    exact ⟨filed, by rw [addRun_filing, if_neg (others read), read]⟩
  · cases child : node.parent with
    | none =>
      have index : (g.addRun node).children = g.children := by simp only [RunGraph.addRun, child]
      rw [index]
      refine indexed.children.congr fun parent run => ?_
      rw [addRun_filing]
      split
      · next same => simp [← same, unfiled, child]
      · rfl
    | some parent =>
      have index : (g.addRun node).children = pushAt g.children parent node.id := by
        simp only [RunGraph.addRun, child]
      rw [index]
      have fresh : ¬∃ id project task, g.filing node.id = some (id, some parent, project, task) := by
        simp [unfiled]
      refine (indexed.children.push fresh).congr fun key run => ?_
      rw [addRun_filing]
      split
      · next same => simp [← same, unfiled, child, eq_comm]
      · next different => simp [Ne.symm different]
  · have fresh : ¬∃ id parent task, g.filing node.id = some (id, parent, node.project, task) := by
      simp [unfiled]
    refine (indexed.projects.push fresh).congr fun key run => ?_
    rw [addRun_filing]
    split
    · next same => simp [← same, unfiled, eq_comm]
    · next different => simp [Ne.symm different]
  · intro task run
    have index : (g.addRun node).taskRuns = g.taskRuns.insert node.taskId node.id := rfl
    rw [addRun_filing, index, lookup_insert]
    by_cases owner : node.id = run
    · rw [if_pos owner]
      by_cases same : node.taskId = task
      · simp [same, owner]
      · have elsewhere : g.taskRuns[task]? ≠ some run := by
          rw [ne_eq, indexed.tasks, ← owner, unfiled]
          simp
        simp [same, elsewhere]
    · rw [if_neg owner, ← indexed.tasks]
      by_cases same : node.taskId = task
      · simp [← same, untasked, owner]
      · rw [if_neg same]

end AddRun

section ForgetRun

variable {g : RunGraph} {id : RunId} {node : RunRecord}

private theorem forgetRun_filing (g : RunGraph) (id : RunId) (node : RunRecord) (run : RunId) :
    (g.forgetRun id node).filing run = if id = run then none else g.filing run := by
  rw [filing, forgetRun, lookup_erase]
  split <;> rfl

/-- Forgetting a childless run takes exactly its own filings away. -/
theorem Indexed.forgetRun (indexed : g.Indexed) (read : g.runs[id]? = some node)
    (childless : g.childrenOf id = []) : (g.forgetRun id node).Indexed := by
  have filed : g.filing id = some (node.id, node.parent, node.project, node.taskId) := by
    rw [filing, read, Option.map_some]
  have orphan : ∀ run key project task, g.filing run ≠ some (key, some id, project, task) := by
    intro run key project task child
    have listed := (indexed.children.mem id run).mpr ⟨key, project, task, child⟩
    rw [← childrenOf, childless] at listed
    contradiction
  refine ⟨?_, ?_, ?_, ?_, ?_⟩
  · intro run key parent project task kept
    rw [forgetRun_filing] at kept
    split at kept
    · contradiction
    · exact indexed.keyed run key parent project task kept
  · intro run key parent project task kept
    rw [forgetRun_filing] at kept ⊢
    split at kept
    · contradiction
    obtain ⟨kin, found⟩ := indexed.parents run key parent project task kept
    refine ⟨kin, ?_⟩
    rw [if_neg, found]
    rintro rfl
    exact orphan run key project task kept
  · have erased := indexed.children.erase id
    cases child : node.parent with
    | none =>
      have index : (g.forgetRun id node).children = g.children.erase id := by simp only [RunGraph.forgetRun, child]
      rw [index]
      refine erased.congr fun parent run => ?_
      rw [forgetRun_filing]
      split
      · next same => simp [← same, filed, child]
      · refine ⟨And.left, fun kept => ⟨kept, ?_⟩⟩
        rintro rfl
        obtain ⟨key, project, task, kept⟩ := kept
        exact orphan run key project task kept
    | some kin =>
      have index : (g.forgetRun id node).children = dropAt (g.children.erase id) kin id := by
        simp only [RunGraph.forgetRun, child]
      rw [index]
      refine (erased.drop kin id).congr fun parent run => ?_
      rw [forgetRun_filing]
      split
      · next same =>
        refine iff_of_false ?_ (by simp)
        rintro ⟨⟨⟨key, project, task, kept⟩, _⟩, apart⟩
        rw [← same, filed, child] at kept
        cases kept
        exact apart ⟨rfl, same.symm⟩
      · next different =>
        refine ⟨fun kept => kept.1.1, fun kept => ⟨⟨kept, ?_⟩, fun same => different same.2.symm⟩⟩
        rintro rfl
        obtain ⟨key, project, task, kept⟩ := kept
        exact orphan run key project task kept
  · refine (indexed.projects.drop node.project id).congr fun project run => ?_
    rw [forgetRun_filing]
    split
    · next same => simp [← same, filed, eq_comm]
    · next different => simp [Ne.symm different]
  · intro task run
    have index : (g.forgetRun id node).taskRuns = g.taskRuns.erase node.taskId := rfl
    have owner : g.taskRuns[node.taskId]? = some id :=
      (indexed.tasks _ _).mpr ⟨_, _, _, filed⟩
    rw [forgetRun_filing, index, lookup_erase]
    by_cases same : node.taskId = task
    · subst same
      rw [if_pos rfl]
      split
      · simp
      · next different =>
        rw [← indexed.tasks, owner]
        simp [different]
    · rw [if_neg same, indexed.tasks]
      split
      · next equal => simp [← equal, filed, same]
      · rfl

end ForgetRun

/-- Roles and Panes belong to retained runs, each role to the one run that lists it. -/
structure Owned (g : RunGraph) : Prop where
  owned : ∀ (role : RoleId) record, g.roles[role]? = some record →
    record.id = role ∧ ∃ node, g.runs[record.run]? = some node ∧ role ∈ node.roles
  listed : ∀ (run : RunId) node (role : RoleId), g.runs[run]? = some node → role ∈ node.roles →
    ∃ record, g.roles[role]? = some record ∧ record.run = run
  once : ∀ (run : RunId) node, g.runs[run]? = some node → node.roles.Nodup
  panes : Lists g.runPanes fun run pane =>
    ∃ (role : RoleId) (record : RoleRecord),
      g.roles[role]? = some record ∧ record.run = run ∧ record.pane = pane

theorem owned_new : Owned new where
  owned := by simp [new]
  listed := by simp [new]
  once := by simp [new]
  panes := ⟨by simp [new], by simp [new]⟩

section OwnedUpdates

variable {g g' : RunGraph}

/-- What ownership reads of the runs and of the roles. -/
theorem Owned.congr (owned : g.Owned)
    (runs : ∀ run : RunId, g'.runs[run]?.map RunRecord.roles = g.runs[run]?.map RunRecord.roles)
    (roles : ∀ role : RoleId, g'.roles[role]?.map (fun r => (r.id, r.run, r.pane)) =
      g.roles[role]?.map fun r => (r.id, r.run, r.pane))
    (runPanes : g'.runPanes = g.runPanes) : g'.Owned := by
  have nodes : ∀ {run : RunId} {node}, g'.runs[run]? = some node →
      ∃ old, g.runs[run]? = some old ∧ old.roles = node.roles := by
    intro run node read
    have same := runs run
    rw [read, Option.map_some] at same
    exact Option.map_eq_some_iff.mp same.symm
  have records : ∀ {role : RoleId} {record}, g'.roles[role]? = some record →
      ∃ old, g.roles[role]? = some old ∧ old.id = record.id ∧ old.run = record.run ∧
        old.pane = record.pane := by
    intro role record read
    have same := roles role
    rw [read, Option.map_some] at same
    obtain ⟨old, found, fields⟩ := Option.map_eq_some_iff.mp same.symm
    simp only [Prod.mk.injEq] at fields
    exact ⟨old, found, fields⟩
  have records' : ∀ {role : RoleId} {record}, g.roles[role]? = some record →
      ∃ new, g'.roles[role]? = some new ∧ new.run = record.run ∧ new.pane = record.pane := by
    intro role record read
    have same := roles role
    rw [read, Option.map_some] at same
    obtain ⟨new, found, fields⟩ := Option.map_eq_some_iff.mp same
    simp only [Prod.mk.injEq] at fields
    exact ⟨new, found, fields.2⟩
  refine ⟨?_, ?_, ?_, ?_⟩
  · intro role record read
    obtain ⟨old, found, key, run, _⟩ := records read
    obtain ⟨same, node, kept, member⟩ := owned.owned role old found
    have view := runs record.run
    rw [← run, kept, Option.map_some] at view
    obtain ⟨node', kept', list⟩ := Option.map_eq_some_iff.mp view
    exact ⟨key ▸ same, node', by rw [← run]; exact kept', by rw [list]; exact member⟩
  · intro run node role read member
    obtain ⟨old, found, list⟩ := nodes read
    obtain ⟨record, held, owner⟩ := owned.listed run old role found (by rw [list]; exact member)
    obtain ⟨new, held', run', _⟩ := records' held
    exact ⟨new, held', run'.trans owner⟩
  · intro run node read
    obtain ⟨old, found, list⟩ := nodes read
    rw [← list]
    exact owned.once run old found
  · rw [runPanes]
    refine owned.panes.congr fun run pane => ⟨?_, ?_⟩
    · rintro ⟨role, record, read, rfl, rfl⟩
      obtain ⟨new, held, run, pane⟩ := records' read
      exact ⟨role, new, held, run, pane⟩
    · rintro ⟨role, record, read, rfl, rfl⟩
      obtain ⟨old, held, _, run, pane⟩ := records read
      exact ⟨role, old, held, run, pane⟩

/-- Rewriting a run that keeps its role list keeps every role list. -/
theorem roles_of_insert {run : RunId} {node node' : RunRecord} (read : g.runs[run]? = some node)
    (runs : g'.runs = g.runs.insert run node') (same : node'.roles = node.roles) (other : RunId) :
    g'.runs[other]?.map RunRecord.roles = g.runs[other]?.map RunRecord.roles := by
  rw [runs, lookup_insert]
  split
  · next equal => rw [← equal, read, Option.map_some, Option.map_some, same]
  · rfl

/-- Rewriting a role that keeps its owner and its Pane keeps every owner and Pane. -/
theorem owners_of_insert {role : RoleId} {record record' : RoleRecord}
    (read : g.roles[role]? = some record) (roles : g'.roles = g.roles.insert role record')
    (same : (record'.id, record'.run, record'.pane) = (record.id, record.run, record.pane))
    (other : RoleId) : g'.roles[other]?.map (fun r => (r.id, r.run, r.pane)) =
      g.roles[other]?.map fun r => (r.id, r.run, r.pane) := by
  rw [roles, lookup_insert]
  split
  · next equal => rw [← equal, read, Option.map_some, Option.map_some, same]
  · rfl

theorem Owned.addRun {node : RunRecord} (owned : g.Owned) (absent : g.runs[node.id]? = none)
    (roleless : node.roles = []) : (g.addRun node).Owned := by
  have runs (run : RunId) : (g.addRun node).runs[run]? =
      if node.id = run then some node else g.runs[run]? := lookup_insert ..
  refine ⟨?_, ?_, ?_, owned.panes⟩
  · intro role record read
    obtain ⟨same, kept, found, member⟩ := owned.owned role record read
    refine ⟨same, kept, ?_, member⟩
    rw [runs, if_neg, found]
    intro equal
    rw [← equal, absent] at found
    contradiction
  · intro run other role read member
    rw [runs] at read
    split at read
    · cases read
      rw [roleless] at member
      contradiction
    · exact owned.listed run other role read member
  · intro run other read
    rw [runs] at read
    split at read
    · cases read
      rw [roleless]
      exact .nil
    · exact owned.once run other read

theorem Owned.addRole {node : RunRecord} {record : RoleRecord} (owned : g.Owned)
    (read : g.runs[record.run]? = some node) (absent : g.roles[record.id]? = none) :
    (g.addRole node record).Owned := by
  have runs (run : RunId) : (g.addRole node record).runs[run]? =
      if record.run = run then some { node with roles := node.roles ++ [record.id] }
      else g.runs[run]? := lookup_insert ..
  have roles (role : RoleId) : (g.addRole node record).roles[role]? =
      if record.id = role then some record else g.roles[role]? := lookup_insert ..
  have unlisted : ∀ (run : RunId) other, g.runs[run]? = some other → record.id ∉ other.roles := by
    intro run other found member
    obtain ⟨held, present, _⟩ := owned.listed run other record.id found member
    rw [absent] at present
    contradiction
  refine ⟨?_, ?_, ?_, ?_⟩
  · intro role held found
    rw [roles] at found
    split at found
    · next same =>
      cases found
      exact ⟨same, _, by rw [runs, if_pos rfl], by simp [same]⟩
    · obtain ⟨same, kept, present, member⟩ := owned.owned role held found
      refine ⟨same, ?_⟩
      rw [runs]
      split
      · next equal =>
        rw [← equal, read] at present
        cases present
        exact ⟨_, rfl, List.mem_append_left _ member⟩
      · exact ⟨kept, present, member⟩
  · intro run other role found member
    rw [roles]
    rw [runs] at found
    split at found
    · next same =>
      cases found
      rcases List.mem_append.mp member with old | new
      · rw [if_neg]
        · exact owned.listed run node role (same ▸ read) old
        · rintro rfl
          exact unlisted _ node read old
      · rw [if_pos (List.mem_singleton.mp new).symm]
        exact ⟨record, rfl, same⟩
    · rw [if_neg]
      · exact owned.listed run other role found member
      · rintro rfl
        exact unlisted run other found member
  · intro run other found
    rw [runs] at found
    split at found
    · cases found
      refine List.nodup_append.mpr ⟨owned.once _ node read, List.nodup_singleton _, ?_⟩
      intro x old y new equal
      rw [List.mem_singleton.mp new] at equal
      exact unlisted _ node read (equal ▸ old)
    · exact owned.once run other found
  · have index : (g.addRole node record).runPanes = if record.pane ∈ g.panes record.run
        then g.runPanes else pushAt g.runPanes record.run record.pane := rfl
    have seats : ∀ run pane, (∃ (role : RoleId) (held : RoleRecord),
        (g.addRole node record).roles[role]? = some held ∧ held.run = run ∧ held.pane = pane) ↔
        (∃ (role : RoleId) (held : RoleRecord),
          g.roles[role]? = some held ∧ held.run = run ∧ held.pane = pane) ∨
          run = record.run ∧ pane = record.pane := by
      intro run pane
      constructor
      · rintro ⟨role, held, found, rfl, rfl⟩
        rw [roles] at found
        split at found
        · cases found
          exact .inr ⟨rfl, rfl⟩
        · exact .inl ⟨role, held, found, rfl, rfl⟩
      · rintro (⟨role, held, found, rfl, rfl⟩ | ⟨rfl, rfl⟩)
        · refine ⟨role, held, ?_, rfl, rfl⟩
          rw [roles, if_neg, found]
          rintro rfl
          rw [absent] at found
          contradiction
        · exact ⟨record.id, record, by rw [roles, if_pos rfl], rfl, rfl⟩
    rw [index]
    split
    · next already =>
      refine owned.panes.congr fun run pane => ?_
      rw [seats, or_iff_left_of_imp]
      rintro ⟨rfl, rfl⟩
      exact (owned.panes.mem _ _).mp already
    · next missing =>
      have fresh := fun seated => missing ((owned.panes.mem _ _).mpr seated)
      exact (owned.panes.push fresh).congr fun run pane => (seats run pane).symm

/-- The roles left after a run is forgotten are those of the other runs. -/
theorem Owned.forgetRun_roles {id : RunId} {node : RunRecord} (owned : g.Owned)
    (read : g.runs[id]? = some node) (role : RoleId) (record : RoleRecord) :
    (g.forgetRun id node).roles[role]? = some record ↔
      g.roles[role]? = some record ∧ record.run ≠ id := by
  have left : (g.forgetRun id node).roles[role]? =
      if role ∈ node.roles then none else g.roles[role]? := lookup_eraseAll ..
  rw [left]
  split
  · next member =>
    obtain ⟨held, found, owner⟩ := owned.listed id node role read member
    refine iff_of_false (by simp) ?_
    rintro ⟨present, other⟩
    cases found.symm.trans present
    exact other owner
  · next missing =>
    refine ⟨fun found => ⟨found, ?_⟩, And.left⟩
    rintro rfl
    obtain ⟨_, kept, present, member⟩ := owned.owned role record found
    cases read.symm.trans present
    exact missing member

/-- Forgetting a run takes its roles and its Panes away, and no others. -/
theorem Owned.forgetRun {id : RunId} {node : RunRecord} (owned : g.Owned)
    (read : g.runs[id]? = some node) : (g.forgetRun id node).Owned := by
  have runs (run : RunId) : (g.forgetRun id node).runs[run]? =
      if id = run then none else g.runs[run]? := lookup_erase ..
  have roles := owned.forgetRun_roles read
  refine ⟨?_, ?_, ?_, ?_⟩
  · intro role record found
    obtain ⟨found, other⟩ := (roles role record).mp found
    rw [runs, if_neg (Ne.symm other)]
    exact owned.owned role record found
  · intro run kept role found member
    rw [runs] at found
    split at found
    · contradiction
    next different =>
    obtain ⟨record, held, owner⟩ := owned.listed run kept role found member
    exact ⟨record, (roles role record).mpr ⟨held, by rw [owner]; exact Ne.symm different⟩, owner⟩
  · intro run kept found
    rw [runs] at found
    split at found
    · contradiction
    · exact owned.once run kept found
  · refine (owned.panes.erase id).congr fun run pane => ?_
    constructor
    · rintro ⟨⟨role, record, held, rfl, rfl⟩, other⟩
      exact ⟨role, record, (roles role record).mpr ⟨held, other⟩, rfl, rfl⟩
    · rintro ⟨role, record, held, rfl, rfl⟩
      obtain ⟨held, other⟩ := (roles role record).mp held
      exact ⟨⟨role, record, held, rfl, rfl⟩, other⟩

end OwnedUpdates

end Uniterm.Model.Runs.RunGraph
