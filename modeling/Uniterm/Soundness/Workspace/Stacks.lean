import Uniterm.Soundness.Workspace.Forest
import Uniterm.Soundness.Workspace.Runs

/-! # Parents and roots of tabs

The parent of a tab is the tab of the pane it is anchored to. In a forest the walk to the root ends, the
assignment of a parent refuses exactly what would close a cycle, and tabs have one root exactly when their
panes belong to one stack.
-/

namespace Uniterm.Model.Workspace

open ToMathlib Machine Relation

namespace Server

variable {s t : Server} {pane anchor : PaneId} {i j child ancestor : ℕ} {tab other : Win} {depth : PaneId → ℕ}

section Parents

theorem position_of (housed : Housed s.windows s.panes) (read : s.windows[i]? = some tab)
    (inside : pane ∈ tab.panes) : s.position pane = some i := by
  cases found : s.position pane with
  | none => exact absurd inside (position_none found tab (List.mem_of_getElem? read))
  | some j =>
    obtain ⟨known, there, also⟩ := position_some found
    rw [index_unique housed.distinct there read also inside]

/-- The tab of a project that has a pane. -/
def anchorOf (s : Server) (project : ProjectId) (anchor : PaneId) : Option ℕ :=
  s.windows.findIdx? fun parent => parent.project == project && parent.layout.containsPane anchor

theorem anchorOf_some (housed : Housed s.windows s.panes) {project : ProjectId} :
    s.anchorOf project anchor = some j ↔
      ∃ other, s.windows[j]? = some other ∧ other.project = project ∧ anchor ∈ other.panes := by
  constructor
  · intro found
    obtain ⟨other, there, holds⟩ := findIdx?_read found
    obtain ⟨own, owns⟩ := Bool.and_eq_true_iff.mp holds
    exact ⟨other, there, beq_iff_eq.mp own, LayoutNode.containsPane_iff.mp owns⟩
  · rintro ⟨other, there, own, owns⟩
    obtain ⟨k, found⟩ := findIdx?_of_mem
      (p := fun parent : Win => parent.project == project && parent.layout.containsPane anchor)
      (List.mem_of_getElem? there)
      (Bool.and_eq_true_iff.mpr ⟨beq_iff_eq.mpr own, LayoutNode.containsPane_iff.mpr owns⟩)
    obtain ⟨known, here, also⟩ := findIdx?_read found
    have same := index_unique housed.distinct here there
      (LayoutNode.containsPane_iff.mp (Bool.and_eq_true_iff.mp also).2) owns
    rw [anchorOf, found, same]

private theorem tabParent_eq (read : s.windows[i]? = some tab) :
    s.tabParent i = tab.stackParent.bind (s.anchorOf tab.project) := by
  unfold tabParent
  rw [read]
  rfl

/-- The parent of a tab is the tab of its project that has the pane it is anchored to. -/
theorem tabParent_iff (housed : Housed s.windows s.panes) (read : s.windows[i]? = some tab) :
    s.tabParent i = some j ↔ ∃ anchor other, tab.stackParent = some anchor ∧ s.windows[j]? = some other ∧
      other.project = tab.project ∧ anchor ∈ other.panes := by
  rw [tabParent_eq read, Option.bind_eq_some_iff]
  simp only [anchorOf_some housed]
  constructor
  · rintro ⟨anchor, above, other, rest⟩
    exact ⟨anchor, other, above, rest⟩
  · rintro ⟨anchor, other, above, rest⟩
    exact ⟨anchor, above, other, rest⟩

private theorem tabParent_none (outside : s.windows[i]? = none) : s.tabParent i = none := by
  unfold tabParent
  rw [outside]
  rfl

private theorem tabParent_some (housed : Housed s.windows s.panes) (up : s.tabParent i = some j) :
    ∃ tab anchor other, s.windows[i]? = some tab ∧ tab.stackParent = some anchor ∧ s.windows[j]? = some other ∧
      other.project = tab.project ∧ anchor ∈ other.panes := by
  cases read : s.windows[i]? with
  | none =>
    rw [tabParent_none read] at up
    cases up
  | some tab =>
    obtain ⟨anchor, other, rest⟩ := (tabParent_iff housed read).mp up
    exact ⟨tab, anchor, other, rfl, rest⟩

/-- Depths of panes rank the tabs. -/
theorem ranks_of_ranked (ranked : Ranked depth s.windows) (housed : Housed s.windows s.panes) :
    Ranks s.tabParent (Finset.range s.windows.length)
      fun i => (s.windows[i]?.map fun tab => depth tab.active).getD 0 where
  node i j up := by
    obtain ⟨_, _, other, _, _, there, _⟩ := tabParent_some housed up
    exact Finset.mem_range.mpr (List.getElem?_eq_some_iff.mp there).1
  lower i j up := by
    obtain ⟨tab, anchor, other, read, above, there, _, owns⟩ := tabParent_some housed up
    have member := List.mem_of_getElem? read
    rw [read, there]
    show depth other.active < depth tab.active
    rw [← ranked.level other (List.mem_of_getElem? there) anchor owns]
    exact ranked.deeper tab member anchor above

/-- Ranks of the tabs give their panes depths. -/
theorem ranked_of_ranks {nodes : Finset ℕ} {rank : ℕ → ℕ} (housed : Housed s.windows s.panes)
    (ranks : Ranks s.tabParent nodes rank)
    (anchored : ∀ tab ∈ s.windows, ∀ anchor ∈ tab.stackParent,
      ∃ other ∈ s.windows, other.project = tab.project ∧ anchor ∈ other.panes) :
    Ranked (fun pane => ((s.position pane).map rank).getD 0) s.windows where
  level tab member pane inside := by
    obtain ⟨i, read⟩ := List.mem_iff_getElem?.mp member
    rw [position_of housed read inside, position_of housed read (housed.active tab member)]
  deeper tab member anchor above := by
    obtain ⟨i, read⟩ := List.mem_iff_getElem?.mp member
    obtain ⟨other, there, project, owns⟩ := anchored tab member anchor above
    obtain ⟨j, readOther⟩ := List.mem_iff_getElem?.mp there
    rw [position_of housed readOther owns, position_of housed read (housed.active tab member)]
    exact ranks.lower i j ((tabParent_iff housed read).mpr ⟨anchor, other, above, readOther, project, owns⟩)

/-- In a forest no way up comes back. -/
theorem tabParent_not_cycle (forest : Forest s.windows) (housed : Housed s.windows s.panes) (i : ℕ) :
    ¬ TransGen (fun a b => s.tabParent a = some b) i i := by
  obtain ⟨depth, ranked⟩ := forest.ranked
  exact (ranks_of_ranked ranked housed).not_cycle

private theorem below_card_le (n : ℕ) (rank : ℕ → ℕ) (i : ℕ) : (below (Finset.range n) rank i).card ≤ n :=
  (Finset.card_filter_le _ _).trans_eq (Finset.card_range n)

/-- In a forest the root of a tab is above it and has no parent. -/
theorem stackRoot_root (forest : Forest s.windows) (housed : Housed s.windows s.panes) (i : ℕ) :
    Reaches s.tabParent i (s.stackRoot i) ∧ s.tabParent (s.stackRoot i) = none := by
  obtain ⟨depth, ranked⟩ := forest.ranked
  exact (ranks_of_ranked ranked housed).climb_root (below_card_le _ _ i)

private theorem stackRoot_eq (forest : Forest s.windows) (housed : Housed s.windows s.panes)
    (reaches : Reaches s.tabParent i j) : s.stackRoot i = s.stackRoot j := by
  obtain ⟨above, root⟩ := stackRoot_root forest housed i
  obtain ⟨above', root'⟩ := stackRoot_root forest housed j
  exact root_unique above root (reaches.trans above') root'

end Parents

section Membership

/-- The tabs of two panes have one root. -/
def SameStack (s : Server) (first second : PaneId) : Prop :=
  ∃ i j, s.position first = some i ∧ s.position second = some j ∧ s.stackRoot i = s.stackRoot j

private theorem reaches_inside (housed : Housed s.windows s.panes) (reaches : Reaches s.tabParent i j)
    (read : s.windows[i]? = some tab) : ∃ top, s.windows[j]? = some top := by
  induction reaches with
  | refl => exact ⟨tab, read⟩
  | tail _ up _ =>
    obtain ⟨_, _, other, _, _, there, _⟩ := tabParent_some housed up
    exact ⟨other, there⟩

/-- A tab's panes belong to one stack with the panes of the tabs above it. -/
theorem connected_of_reaches (housed : Housed s.windows s.panes) (reaches : Reaches s.tabParent i j)
    {first second : PaneId} {top : Win} (read : s.windows[i]? = some tab) (inside : first ∈ tab.panes)
    (there : s.windows[j]? = some top) (also : second ∈ top.panes) : Connected s.windows first second := by
  induction reaches using ReflTransGen.head_induction_on generalizing tab first with
  | refl =>
    rw [read] at there
    cases there
    exact .rel _ _ (.beside (List.mem_of_getElem? read) inside also)
  | head up _ ih =>
    obtain ⟨anchor, other, above, next, _, owns⟩ := (tabParent_iff housed read).mp up
    exact .trans _ _ _ (.rel _ _ (.below (List.mem_of_getElem? read) inside above)) (ih next owns)

/-- Tabs have one root exactly when their panes belong to one stack. -/
theorem sameStack_iff (forest : Forest s.windows) (housed : Housed s.windows s.panes) {first second : PaneId}
    (live : first ∈ s.panes) (alive : second ∈ s.panes) :
    SameStack s first second ↔ Connected s.windows first second := by
  have place : ∀ pane ∈ s.panes, ∃ i tab, s.position pane = some i ∧ s.windows[i]? = some tab ∧
      pane ∈ tab.panes := by
    intro pane live
    obtain ⟨tab, member, inside⟩ := (housed.live pane).mp live
    obtain ⟨i, read⟩ := List.mem_iff_getElem?.mp member
    exact ⟨i, tab, position_of housed read inside, read, inside⟩
  obtain ⟨i, tab, placed, read, inside⟩ := place first live
  obtain ⟨j, other, placed', there, owns⟩ := place second alive
  constructor
  · rintro ⟨i', j', found, found', same⟩
    obtain rfl : i = i' := Option.some.inj (placed.symm.trans found)
    obtain rfl : j = j' := Option.some.inj (placed'.symm.trans found')
    obtain ⟨up, _⟩ := stackRoot_root forest housed i
    obtain ⟨up', _⟩ := stackRoot_root forest housed j
    obtain ⟨top, readTop⟩ := reaches_inside housed up read
    have active := housed.active top (List.mem_of_getElem? readTop)
    exact .trans _ _ _ (connected_of_reaches housed up read inside readTop active)
      (.symm _ _ (connected_of_reaches housed up' there owns (same ▸ readTop) active))
  · intro connected
    -- the root is the same along every link
    have invariant : ∀ first second, Connected s.windows first second →
        (s.position first).map s.stackRoot = (s.position second).map s.stackRoot := by
      intro first second joined
      induction joined with
      | rel first second linked =>
        cases linked with
        | beside member left right =>
          obtain ⟨k, read⟩ := List.mem_iff_getElem?.mp member
          rw [position_of housed read left, position_of housed read right]
        | below member left above =>
          obtain ⟨k, read⟩ := List.mem_iff_getElem?.mp member
          obtain ⟨parent, inside, project, owns⟩ := forest.anchored _ member _ above
          obtain ⟨l, readParent⟩ := List.mem_iff_getElem?.mp inside
          have up := (tabParent_iff housed read).mpr ⟨_, parent, above, readParent, project, owns⟩
          rw [position_of housed read left, position_of housed readParent owns]
          exact congrArg some (stackRoot_eq forest housed (.single up))
      | refl => rfl
      | symm _ _ _ ih => exact ih.symm
      | trans _ _ _ _ _ first second => exact first.trans second
    have same := invariant first second connected
    rw [placed, placed'] at same
    exact ⟨i, j, placed, placed', Option.some.inj same⟩

end Membership

section Assigning

theorem links_retain (s : Server) (i : ℕ) (expanded : Bool) :
    (s.retainStackRow i expanded).windows.map Win.link = s.windows.map Win.link :=
  map_modify_same s.windows i fun _ => rfl

/-- The anchor of one tab is set. -/
def anchorAt (i : ℕ) (parent : Option PaneId) (windows : List Win) : List Win :=
  windows.modify i fun tab => { tab with stackParent := parent }

private theorem links_anchorAt {windows others : List Win} (same : windows.map Win.link = others.map Win.link) (i : ℕ)
    (parent : Option PaneId) : (anchorAt i parent windows).map Win.link = (anchorAt i parent others).map Win.link := by
  induction windows generalizing others i with
  | nil =>
    rw [List.map_eq_nil_iff.mp same.symm]
  | cons tab windows ih =>
    cases others with
    | nil => cases same
    | cons other others =>
      obtain ⟨head, tail⟩ := List.cons.inj same
      cases i with
      | zero =>
        show (_, parent) :: windows.map Win.link = (_, parent) :: others.map Win.link
        rw [tail]
        exact congrArg (fun place => (place, parent) :: _) (congrArg (·.1) head)
      | succ i =>
        show tab.link :: (anchorAt i parent windows).map Win.link = other.link :: (anchorAt i parent others).map Win.link
        rw [head, ih tail]

private theorem anchorOf_congr (same : t.windows.map Win.place = s.windows.map Win.place) (project : ProjectId)
    (anchor : PaneId) : t.anchorOf project anchor = s.anchorOf project anchor := by
  have placed : ∀ s : Server, s.anchorOf project anchor = (s.windows.map Win.place).findIdx? fun place =>
      place.1 == project && place.2.1.containsPane anchor := fun s => by
    rw [List.findIdx?_map]
    rfl
  rw [placed, placed, same]

/-- Setting the anchor of a tab changes its own parent only. -/
theorem tabParent_setStackParent (read : s.windows[child]? = some tab) (parent : Option PaneId) :
    (s.setStackParent child parent).tabParent =
      Function.update s.tabParent child (parent.bind (s.anchorOf tab.project)) := by
  have places := (restacked_setStackParent s child parent).places
  funext i
  by_cases same : i = child
  · subst same
    have now : (s.setStackParent i parent).windows[i]? = some { tab with stackParent := parent } := by
      show (s.windows.modify i _)[i]? = _
      rw [List.getElem?_modify_eq, read]
      rfl
    rw [tabParent_eq now, Function.update_self]
    exact Option.bind_congr fun anchor _ => anchorOf_congr places tab.project anchor
  · have now : (s.setStackParent child parent).windows[i]? = s.windows[i]? :=
      List.getElem?_modify_ne _ _ (Ne.symm same)
    rw [Function.update_of_ne same]
    cases known : s.windows[i]? with
    | none => rw [tabParent_none known, tabParent_none (now.trans known)]
    | some other =>
      rw [tabParent_eq known, tabParent_eq (now.trans known)]
      exact Option.bind_congr fun anchor _ => anchorOf_congr places other.project anchor

/-- What assigning a parent to the tab of a pane comes to. -/
inductive Assigns (s : Server) (pane : PaneId) : Option PaneId → Bool × Server → Prop where
  | stray (parent : Option PaneId) : s.position pane = none → Assigns s pane parent (false, s)
  | root {child : ℕ} {tab : Win} : s.position pane = some child → s.windows[child]? = some tab →
      Assigns s pane none (true, s.setStackParent child none)
  | unknown {child : ℕ} {tab : Win} {anchor : PaneId} : s.position pane = some child →
      s.windows[child]? = some tab → s.anchorOf tab.project anchor = none →
      Assigns s pane (some anchor) (false, s)
  | cycle {child ancestor : ℕ} {tab : Win} {anchor : PaneId} : s.position pane = some child →
      s.windows[child]? = some tab → s.anchorOf tab.project anchor = some ancestor →
      Reaches s.tabParent ancestor child → Assigns s pane (some anchor) (false, s)
  | put {child ancestor : ℕ} {tab : Win} {anchor : PaneId} {t : Server} : s.position pane = some child →
      s.windows[child]? = some tab → s.anchorOf tab.project anchor = some ancestor →
      ¬ Reaches s.tabParent ancestor child →
      t.windows.map Win.link = (s.setStackParent child (some anchor)).windows.map Win.link →
      Assigns s pane (some anchor) (true, t)

theorem assigns (forest : Forest s.windows) (housed : Housed s.windows s.panes) (pane : PaneId)
    (parent : Option PaneId) : Assigns s pane parent (s.assignTabParent pane parent) := by
  unfold assignTabParent
  cases found : s.position pane with
  | none => exact .stray parent found
  | some child =>
    obtain ⟨tab, read, _⟩ := position_some found
    cases parent with
    | none => exact .root found read
    | some anchor =>
      have search : (s.windows.findIdx? fun w =>
          w.layout.containsPane anchor && s.windows[child]?.any (·.project == w.project)) =
          s.anchorOf tab.project anchor := by
        unfold anchorOf
        congr 1
        funext w
        rw [read, Option.any_some, Bool.and_comm, BEq.comm]
      dsimp only
      rw [search]
      cases known : s.anchorOf tab.project anchor with
      | none => exact .unknown found read known
      | some ancestor =>
        obtain ⟨depth, ranked⟩ := forest.ranked
        have sought := (ranks_of_ranked ranked housed).seek_none (c := child) (a := ancestor)
          (Nat.lt_succ_of_le (below_card_le _ _ ancestor))
        dsimp only
        cases seeks : seek s.tabParent child (s.windows.length + 1) ancestor with
        | none => exact .cycle found read known (sought.mp seeks)
        | some top =>
          refine .put found read known (fun reaches => ?_) (links_anchorAt (links_retain s top true) child (some anchor))
          rw [sought.mpr reaches] at seeks
          cases seeks

/-- Setting the anchor of a tab keeps the forest when the parents still rank. -/
theorem forest_setStackParent (forest : Forest s.windows) (housed : Housed s.windows s.panes)
    (read : s.windows[child]? = some tab) (parent : Option PaneId) {nodes : Finset ℕ} {rank : ℕ → ℕ}
    (ranks : Ranks (Function.update s.tabParent child (parent.bind (s.anchorOf tab.project))) nodes rank)
    (known : ∀ anchor ∈ parent, ∃ other ∈ s.windows, other.project = tab.project ∧ anchor ∈ other.panes) :
    Forest (s.setStackParent child parent).windows := by
  have restacked := restacked_setStackParent s child parent
  have housedNow : Housed (s.setStackParent child parent).windows (s.setStackParent child parent).panes :=
    housed.congr restacked.places
  have anchored : ∀ tab ∈ (s.setStackParent child parent).windows, ∀ anchor ∈ tab.stackParent,
      ∃ other ∈ (s.setStackParent child parent).windows, other.project = tab.project ∧ anchor ∈ other.panes := by
    intro now member anchor above
    have before : ∃ other ∈ s.windows, other.project = now.project ∧ anchor ∈ other.panes := by
      rcases mem_modify_cases read member with rfl | inside
      · exact known anchor above
      · exact forest.anchored now inside anchor above
    obtain ⟨other, there, project, owns⟩ := before
    obtain ⟨new, remains, same⟩ := restacked.forth there
    exact ⟨new, remains, (congrArg (·.1) same : new.project = other.project).trans project,
      (congrArg (fun place => anchor ∈ place.2.1.paneIds) same).mpr owns⟩
  rw [← tabParent_setStackParent read] at ranks
  exact ⟨anchored, _, ranked_of_ranks housedNow ranks anchored⟩

theorem Assigns.forest {parent : Option PaneId} {result : Bool × Server} (assigns : Assigns s pane parent result)
    (forest : Forest s.windows) (housed : Housed s.windows s.panes) : Forest result.2.windows := by
  obtain ⟨depth, ranked⟩ := forest.ranked
  have ranks := ranks_of_ranked ranked housed
  cases assigns with
  | stray | unknown | cycle => exact forest
  | root found read => exact forest_setStackParent forest housed read none (ranks.detach _) nofun
  | put found read known apart links =>
    obtain ⟨other, there, project, owns⟩ := (anchorOf_some housed).mp known
    obtain ⟨rank, lifted⟩ := ranks.attach (Finset.mem_range.mpr (List.getElem?_eq_some_iff.mp there).1) apart
    rw [← known] at lifted
    refine (SameLinks.of_eq links.symm).forest (forest_setStackParent forest housed read _ lifted ?_)
    · rintro _ ⟨⟩
      exact ⟨other, List.mem_of_getElem? there, project, owns⟩

/-- Assigning a parent refuses when the pane is in no tab, the parent in no tab of the project, or the link would
close a cycle. -/
def Refuses (s : Server) (pane : PaneId) (parent : Option PaneId) : Prop :=
  (∀ tab ∈ s.windows, pane ∉ tab.panes) ∨
    ∃ child tab anchor, s.windows[child]? = some tab ∧ pane ∈ tab.panes ∧ parent = some anchor ∧
      ((∀ other ∈ s.windows, other.project = tab.project → anchor ∉ other.panes) ∨
        ∃ i, TransGen (fun a b => (s.setStackParent child (some anchor)).tabParent a = some b) i i)

theorem Assigns.refuses {parent : Option PaneId} {result : Bool × Server} (assigns : Assigns s pane parent result)
    (forest : Forest s.windows) (housed : Housed s.windows s.panes) :
    result.1 = false ↔ Refuses s pane parent := by
  obtain ⟨depth, ranked⟩ := forest.ranked
  have ranks := ranks_of_ranked ranked housed
  have place : ∀ {child : ℕ} {tab : Win}, s.position pane = some child → s.windows[child]? = some tab →
      pane ∈ tab.panes := by
    intro child tab found read
    obtain ⟨known, there, inside⟩ := position_some found
    rw [read] at there
    cases there
    exact inside
  cases assigns with
  | stray _ found => exact iff_of_true rfl (.inl (position_none found))
  | root found read =>
    refine iff_of_false nofun ?_
    rintro (none | ⟨_, _, _, _, _, parent, _⟩)
    · exact none _ (List.mem_of_getElem? read) (place found read)
    · cases parent
  | unknown found read known =>
    refine iff_of_true rfl (.inr ⟨_, _, _, read, place found read, rfl, .inl fun other member project owns => ?_⟩)
    obtain ⟨j, there⟩ := List.mem_iff_getElem?.mp member
    rw [(anchorOf_some housed).mpr ⟨other, there, project, owns⟩] at known
    cases known
  | cycle found read known reaches =>
    obtain ⟨other, there, _, _⟩ := (anchorOf_some housed).mp known
    have inside := Finset.mem_range.mpr (List.getElem?_eq_some_iff.mp there).1
    refine iff_of_true rfl (.inr ⟨_, _, _, read, place found read, rfl, .inr ?_⟩)
    rw [tabParent_setStackParent read, Option.bind_some, known]
    exact (ranks.attach_cycle inside).mpr reaches
  | put found read known apart =>
    obtain ⟨other, there, project, owns⟩ := (anchorOf_some housed).mp known
    have inside := Finset.mem_range.mpr (List.getElem?_eq_some_iff.mp there).1
    refine iff_of_false nofun ?_
    rintro (none | ⟨child, tab, _, readChild, own, ⟨⟩, unknown | cycle⟩)
    · exact none _ (List.mem_of_getElem? read) (place found read)
    · rw [position_of housed readChild own] at found
      cases found
      rw [read] at readChild
      cases readChild
      exact unknown other (List.mem_of_getElem? there) project owns
    · rw [position_of housed readChild own] at found
      cases found
      rw [read] at readChild
      cases readChild
      rw [tabParent_setStackParent read, Option.bind_some, known] at cycle
      exact apart ((ranks.attach_cycle inside).mp cycle)

theorem Assigns.unchanged {parent : Option PaneId} {result : Bool × Server} (assigns : Assigns s pane parent result)
    (refused : result.1 = false) : result.2 = s := by
  cases assigns with
  | stray | unknown | cycle => rfl
  | root | put => cases refused

end Assigning

end Server

end Uniterm.Model.Workspace
