import Uniterm.Soundness.Workspace.Stacks

/-! # Anchoring the children of a pane elsewhere

Before a pane leaves its tab, the tabs anchored to it are anchored to another pane of the tab, to the pane
above the tab, or to one of themselves. Nothing is anchored to the pane then, and the stacks stay together
without it.
-/

namespace Uniterm.Model.Workspace

open ToMathlib Relation

variable {windows after : List Win} {pane : PaneId} {heir : Option PaneId} {tab now : Win}

section Heirs

/-- The pane that the tabs anchored to a pane are anchored to next. -/
inductive Heir (windows : List Win) (pane : PaneId) : Option PaneId → Prop where
  | sibling {tab : Win} {heir : PaneId} : tab ∈ windows → pane ∈ tab.panes → heir ∈ tab.panes → heir ≠ pane →
      Heir windows pane (some heir)
  | above {tab : Win} {heir : PaneId} : tab ∈ windows → pane ∈ tab.panes → (∀ other ∈ tab.panes, other = pane) →
      tab.stackParent = some heir → Heir windows pane (some heir)
  | child {tab child : Win} : tab ∈ windows → pane ∈ tab.panes → (∀ other ∈ tab.panes, other = pane) →
      tab.stackParent = none → child ∈ windows → child.stackParent = some pane →
      Heir windows pane (some child.active)
  | alone : (∀ tab ∈ windows, tab.stackParent ≠ some pane) →
      (∀ tab ∈ windows, pane ∈ tab.panes → (∀ other ∈ tab.panes, other = pane) ∧ tab.stackParent = none) →
      Heir windows pane none

/-- What a tab is anchored to once the children of a pane are anchored to its heir. -/
def Win.reanchored (pane : PaneId) (heir : Option PaneId) (tab : Win) : Option PaneId :=
  if tab.stackParent = some pane then if heir = some tab.active then none else heir else tab.stackParent

/-- The children of a pane were anchored to its heir. -/
def Reanchored (pane : PaneId) (heir : Option PaneId) (windows after : List Win) : Prop :=
  after.map Win.link = windows.map fun tab => (tab.place, tab.reanchored pane heir)

theorem Reanchored.back (reanchored : Reanchored pane heir windows after) (member : now ∈ after) :
    ∃ tab ∈ windows, now.place = tab.place ∧ now.stackParent = tab.reanchored pane heir := by
  have image : now.link ∈ windows.map fun tab => (tab.place, tab.reanchored pane heir) :=
    reanchored ▸ List.mem_map_of_mem member
  obtain ⟨tab, inside, same⟩ := List.mem_map.mp image
  exact ⟨tab, inside, (congrArg (·.1) same).symm, (congrArg (·.2) same).symm⟩

theorem Reanchored.forth (reanchored : Reanchored pane heir windows after) (member : tab ∈ windows) :
    ∃ now ∈ after, now.place = tab.place ∧ now.stackParent = tab.reanchored pane heir := by
  have image : (tab.place, tab.reanchored pane heir) ∈ after.map Win.link :=
    reanchored ▸ List.mem_map_of_mem (f := fun tab => (tab.place, tab.reanchored pane heir)) member
  obtain ⟨now, inside, same⟩ := List.mem_map.mp image
  exact ⟨now, inside, congrArg (·.1) same, congrArg (·.2) same⟩

private theorem place_panes {a b : Win} (same : a.place = b.place) : a.panes = b.panes :=
  congrArg (fun place => place.2.1.paneIds) same

private theorem place_project {a b : Win} (same : a.place = b.place) : a.project = b.project := congrArg (·.1) same

private theorem place_active {a b : Win} (same : a.place = b.place) : a.active = b.active := congrArg (·.2.2.1) same

private theorem reanchored_other (other : tab.stackParent ≠ some pane) : tab.reanchored pane heir = tab.stackParent :=
  if_neg other

private theorem reanchored_child (below : tab.stackParent = some pane) (different : heir ≠ some tab.active) :
    tab.reanchored pane heir = heir := by
  rw [Win.reanchored, if_pos below, if_neg different]

variable {panes : Finset PaneId} {heirPane : PaneId}

/-- The heir is a pane of the same project as the children. -/
theorem Heir.known (is : Heir windows pane (some heirPane)) (housed : Housed windows panes)
    (forest : Forest windows) (member : tab ∈ windows) (below : tab.stackParent = some pane) :
    ∃ other ∈ windows, other.project = tab.project ∧ heirPane ∈ other.panes := by
  obtain ⟨parent, there, project, owns⟩ := forest.anchored tab member pane below
  cases is with
  | sibling inside own heir _ =>
    obtain rfl := housed.unique inside there own owns
    exact ⟨_, there, project, heir⟩
  | above inside own _ up =>
    obtain rfl := housed.unique inside there own owns
    obtain ⟨other, known, same, has⟩ := forest.anchored _ inside _ up
    exact ⟨other, known, same.trans project, has⟩
  | child _ _ _ _ inside up =>
    obtain ⟨source, has, same, own⟩ := forest.anchored _ inside pane up
    obtain rfl := housed.unique has there own owns
    exact ⟨_, inside, same.symm.trans project, housed.active _ inside⟩

/-- Depths under which the heir takes the place of the pane it inherits from. -/
structure Inherits (depth : PaneId → ℕ) (pane heir : PaneId) (windows : List Win) : Prop where
  level : ∀ tab ∈ windows, ∀ pane ∈ tab.panes, depth pane = depth tab.active
  deeper : ∀ tab ∈ windows, ∀ anchor ∈ tab.stackParent, ¬ (anchor = pane ∧ tab.active = heir) →
    depth anchor < depth tab.active
  heir : ∀ tab ∈ windows, tab.stackParent = some pane → tab.active ≠ heir → depth heir < depth tab.active

theorem Ranked.inherits {depth : PaneId → ℕ} (ranked : Ranked depth windows)
    (lower : depth heirPane ≤ depth pane) : Inherits depth pane heirPane windows where
  level := ranked.level
  deeper tab member anchor above _ := ranked.deeper tab member anchor above
  heir tab member below _ := Nat.lt_of_le_of_lt lower (ranked.deeper tab member pane below)

theorem Heir.inherits (is : Heir windows pane (some heirPane)) (housed : Housed windows panes)
    (forest : Forest windows) : heirPane ≠ pane ∧ ∃ depth, Inherits depth pane heirPane windows := by
  obtain ⟨depth, ranked⟩ := forest.ranked
  cases is with
  | sibling inside own heir different =>
    refine ⟨different, depth, ranked.inherits (Nat.le_of_eq ?_)⟩
    rw [ranked.level _ inside _ heir, ranked.level _ inside _ own]
  | above inside own _ up =>
    have less : depth heirPane < depth pane := by
      rw [ranked.level _ inside pane own]
      exact ranked.deeper _ inside heirPane up
    refine ⟨?_, depth, ranked.inherits (Nat.le_of_lt less)⟩
    rintro rfl
    exact Nat.lt_irrefl _ less
  | @child source child _ _ _ _ inside up =>
    have less : depth pane < depth child.active := ranked.deeper child inside pane up
    have unique : ∀ tab ∈ windows, ∀ other ∈ tab.panes, other ∈ child.panes → tab = child :=
      fun tab member other shown also => housed.unique member inside shown also
    refine ⟨?_, fun other => if other ∈ child.panes then depth pane else depth other, ?_, ?_, ?_⟩
    · rintro same
      rw [same] at less
      exact Nat.lt_irrefl _ less
    · intro tab member other shown
      have active := housed.active tab member
      by_cases owns : other ∈ child.panes
      · obtain rfl := unique tab member other shown owns
        rw [if_pos owns, if_pos active]
      · have apart : tab.active ∉ child.panes := fun also =>
          owns (unique tab member _ active also ▸ shown)
        rw [if_neg owns, if_neg apart]
        exact ranked.level tab member other shown
    · intro tab member anchor above other
      have apart : tab.active ∉ child.panes := by
        intro also
        obtain rfl := unique tab member _ (housed.active tab member) also
        exact other ⟨Option.some.inj (Eq.trans above.symm up), rfl⟩
      have deeper := ranked.deeper tab member anchor above
      rw [if_neg apart]
      split
      · next owns =>
        have level := ranked.level child inside anchor owns
        omega
      · exact deeper
    · intro tab member below different
      have active := housed.active tab member
      have apart : tab.active ∉ child.panes := by
        intro also
        rw [unique tab member _ active also] at different
        exact different rfl
      rw [if_neg apart, if_pos (housed.active child inside)]
      exact ranked.deeper tab member pane below

/-- Once the children are anchored to the heir nothing is anchored to the pane. -/
theorem Reanchored.free (reanchored : Reanchored pane heir windows after) (is : Heir windows pane heir)
    (housed : Housed windows panes) (forest : Forest windows) : ∀ tab ∈ after, tab.stackParent ≠ some pane := by
  intro now member above
  obtain ⟨tab, inside, _, parent⟩ := reanchored.back member
  rw [above] at parent
  by_cases below : tab.stackParent = some pane
  · cases heir with
    | none =>
      rw [Win.reanchored, if_pos below] at parent
      split at parent <;> cases parent
    | some heirPane =>
      rw [Win.reanchored, if_pos below] at parent
      split at parent
      · cases parent
      · exact (is.inherits housed forest).1 (Option.some.inj parent).symm
  · rw [reanchored_other below] at parent
    exact below parent.symm

theorem Reanchored.forest (reanchored : Reanchored pane heir windows after) (is : Heir windows pane heir)
    (housed : Housed windows panes) (forest : Forest windows) : Forest after := by
  cases heir with
  | none =>
    have same : ∀ tab ∈ windows, tab.reanchored pane none = tab.stackParent := by
      cases is with
      | alone free _ => exact fun tab member => reanchored_other (free tab member)
    refine SameLinks.forest (.of_eq ?_) forest
    exact (reanchored.trans (List.map_congr_left fun tab member => by rw [same tab member]; rfl)).symm
  | some heirPane =>
    obtain ⟨_, depth, inherits⟩ := is.inherits housed forest
    refine ⟨fun now member anchor above => ?_, depth, fun now member other shown => ?_,
      fun now member anchor above => ?_⟩
    · obtain ⟨tab, inside, place, parent⟩ := reanchored.back member
      have known : ∃ other ∈ windows, other.project = tab.project ∧ anchor ∈ other.panes := by
        by_cases below : tab.stackParent = some pane
        · rw [Win.reanchored, if_pos below] at parent
          split at parent
          · rw [parent] at above
            cases above
          · rw [parent] at above
            cases above
            exact is.known housed forest inside below
        · rw [reanchored_other below] at parent
          exact forest.anchored tab inside anchor (parent ▸ above)
      obtain ⟨other, there, project, owns⟩ := known
      obtain ⟨new, remains, same, _⟩ := reanchored.forth there
      exact ⟨new, remains, (place_project same).trans (project.trans (place_project place).symm),
        place_panes same ▸ owns⟩
    · obtain ⟨tab, inside, place, _⟩ := reanchored.back member
      rw [place_active place]
      exact inherits.level tab inside other (place_panes place ▸ shown)
    · obtain ⟨tab, inside, place, parent⟩ := reanchored.back member
      rw [place_active place]
      by_cases below : tab.stackParent = some pane
      · rw [Win.reanchored, if_pos below] at parent
        split at parent
        · rw [parent] at above
          cases above
        · next different =>
          rw [parent] at above
          cases above
          exact inherits.heir tab inside below fun same => different (congrArg some same.symm)
      · rw [reanchored_other below] at parent
        have above : anchor ∈ tab.stackParent := parent ▸ above
        refine inherits.deeper tab inside anchor above fun both => below ?_
        rw [← both.1]
        exact above

end Heirs

section Staying

/-- A tab that has another pane stays when the pane leaves, anchored as the tab now is. -/
theorem Reanchored.remains (reanchored : Reanchored pane heir windows after) {other : PaneId}
    (member : tab ∈ windows) (inside : other ∈ tab.panes) (different : other ≠ pane) :
    ∃ left ∈ after.filterMap (Win.leave pane), left.stackParent = tab.reanchored pane heir ∧
      ∀ pane' ∈ tab.panes, pane' ≠ pane → pane' ∈ left.panes := by
  obtain ⟨now, remains, place, parent⟩ := reanchored.forth member
  obtain ⟨left, leaves⟩ := leave_isSome (place_panes place ▸ inside) different
  obtain ⟨panes, _, stackParent⟩ := leave_panes leaves
  refine ⟨left, List.mem_filterMap.mpr ⟨now, remains, leaves⟩, stackParent.trans parent, fun pane' shown other => ?_⟩
  rw [panes, place_panes place]
  exact List.mem_filter.mpr ⟨shown, decide_eq_true other⟩

/-- A pane, or the heir for the one that leaves. -/
def stand (pane : PaneId) (heir : Option PaneId) (other : PaneId) : PaneId :=
  if other = pane then heir.getD pane else other

private theorem stand_self : stand pane heir pane = heir.getD pane := if_pos rfl

private theorem stand_of_ne {other : PaneId} (different : other ≠ pane) :
    stand pane heir other = other := if_neg different

variable {panes : Finset PaneId}

/-- The panes beside the one that leaves stay in one stack with its heir. -/
theorem Reanchored.beside (reanchored : Reanchored pane heir windows after) (is : Heir windows pane heir)
    (housed : Housed windows panes) (member : tab ∈ windows) (own : pane ∈ tab.panes) {other : PaneId}
    (inside : other ∈ tab.panes) :
    Connected (after.filterMap (Win.leave pane)) (stand pane heir other) (stand pane heir pane) := by
  by_cases same : other = pane
  · rw [same]
    exact .refl _
  rw [stand_of_ne same, stand_self]
  cases is with
  | sibling there owns shown different =>
    obtain rfl := housed.unique there member owns own
    obtain ⟨left, remains, _, keeps⟩ := reanchored.remains member inside same
    exact .rel _ _ (.beside remains (keeps _ inside same) (keeps _ shown different))
  | above there owns only _ =>
    obtain rfl := housed.unique there member owns own
    exact absurd (only other inside) same
  | child there owns only _ _ _ =>
    obtain rfl := housed.unique there member owns own
    exact absurd (only other inside) same
  | alone _ single => exact absurd ((single tab member own).1 other inside) same

/-- Linked panes stay in one stack, the heir standing for the pane that leaves. -/
theorem Reanchored.linked (reanchored : Reanchored pane heir windows after) (is : Heir windows pane heir)
    (housed : Housed windows panes) (forest : Forest windows) {first second : PaneId}
    (linked : Linked windows first second) :
    Connected (after.filterMap (Win.leave pane)) (stand pane heir first) (stand pane heir second) := by
  cases linked with
  | @beside tab _ _ member left right =>
    by_cases own : pane ∈ tab.panes
    · exact .trans _ _ _ (reanchored.beside is housed member own left)
        (.symm _ _ (reanchored.beside is housed member own right))
    · have apart : ∀ other ∈ tab.panes, other ≠ pane := by
        rintro other inside rfl
        exact own inside
      obtain ⟨kept, remains, _, keeps⟩ := reanchored.remains member left (apart first left)
      rw [stand_of_ne (apart first left), stand_of_ne (apart second right)]
      exact .rel _ _ (.beside remains (keeps _ left (apart first left)) (keeps _ right (apart second right)))
  | @below tab _ _ member left above =>
    by_cases below : second = pane
    · -- a child of the pane that leaves
      rw [below, stand_self]
      rw [below] at above
      obtain ⟨depth, ranked⟩ := forest.ranked
      have apart : first ≠ pane := by
        rintro rfl
        have less := ranked.deeper tab member first above
        rw [ranked.level tab member first left] at less
        exact Nat.lt_irrefl _ less
      obtain ⟨kept, remains, parent, keeps⟩ := reanchored.remains member left apart
      rw [stand_of_ne apart]
      cases heir with
      | none =>
        cases is with
        | alone free _ => exact absurd above (free tab member)
      | some heirPane =>
        by_cases same : some heirPane = some tab.active
        · have different := (is.inherits housed forest).1
          obtain rfl := Option.some.inj same
          exact .rel _ _ (.beside remains (keeps _ left apart) (keeps _ (housed.active tab member) different))
        · rw [reanchored_child above same] at parent
          exact .rel _ _ (.below remains (keeps _ left apart) parent)
    · have kept : tab.reanchored pane heir = some second :=
        (reanchored_other fun same => below (Option.some.inj (above.symm.trans same))).trans above
      rw [stand_of_ne below]
      by_cases own : first = pane
      · -- the tab the pane leaves is anchored to another
        rw [own, stand_self]
        rw [own] at left
        cases is with
        | sibling there owns shown different =>
          obtain rfl := housed.unique there member owns left
          obtain ⟨left, remains, parent, keeps⟩ := reanchored.remains member shown different
          exact .rel _ _ (.below remains (keeps _ shown different) (parent.trans kept))
        | above there owns _ up =>
          obtain rfl := housed.unique there member owns left
          rw [above] at up
          rw [Option.some.inj up]
          exact .refl _
        | child there owns _ up _ _ =>
          obtain rfl := housed.unique there member owns left
          rw [above] at up
          cases up
        | alone _ single =>
          have up := (single tab member left).2
          rw [above] at up
          cases up
      · rw [stand_of_ne own]
        obtain ⟨left', remains, parent, keeps⟩ := reanchored.remains member left own
        exact .rel _ _ (.below remains (keeps _ left own) (parent.trans kept))

/-- A list of tabs that a pane can leave: nothing is anchored to it, and the stacks hold without it. -/
structure Frees (pane : PaneId) (windows after : List Win) : Prop where
  forest : Forest after
  free : ∀ tab ∈ after, tab.stackParent ≠ some pane
  connected : ∀ first second, first ≠ pane → second ≠ pane → Connected windows first second →
    Connected (after.filterMap (Win.leave pane)) first second

theorem Reanchored.frees (reanchored : Reanchored pane heir windows after) (is : Heir windows pane heir)
    (housed : Housed windows panes) (forest : Forest windows) : Frees pane windows after where
  forest := reanchored.forest is housed forest
  free := reanchored.free is housed forest
  connected first second left right joined := by
    have stands : ∀ first second, Connected windows first second →
        Connected (after.filterMap (Win.leave pane)) (stand pane heir first) (stand pane heir second) := by
      intro first second joined
      induction joined with
      | rel _ _ linked => exact reanchored.linked is housed forest linked
      | refl => exact .refl _
      | symm _ _ _ ih => exact .symm _ _ ih
      | trans _ _ _ _ _ first second => exact .trans _ _ _ first second
    have joined := stands first second joined
    rwa [stand_of_ne left, stand_of_ne right] at joined

end Staying

namespace Server

variable {s t : Server} {anchor : PaneId} {depth : PaneId → ℕ}

section Repairing

theorem restacked_housed (restacked : Restacked s t) (housed : Housed s.windows s.panes) :
    Housed t.windows t.panes := by
  have panes : t.panes = s.panes := by rw [restacked.rest]
  rw [panes]
  exact housed.congr restacked.places

/-- Setting the anchor of the tab of a pane. -/
theorem links_setStackParent (housed : Housed s.windows s.panes) {child : ℕ} (found : s.position pane = some child)
    (parent : Option PaneId) : (s.setStackParent child parent).windows.map Win.link =
      s.windows.map fun tab => (tab.place, if pane ∈ tab.panes then parent else tab.stackParent) := by
  obtain ⟨tab, read, inside⟩ := position_some found
  have changed := modify_of_unique (fun tab : Win => pane ∈ tab.panes)
    (fun tab => { tab with stackParent := parent }) read inside
    fun j other there also => index_unique housed.distinct there read also inside
  show (s.windows.modify child _).map Win.link = _
  rw [changed, List.map_map]
  refine List.map_congr_left fun tab _ => ?_
  show Win.link (if _ then _ else _) = _
  split <;> rfl

/-- A tab that is deeper than the new anchor is anchored to it. -/
theorem assign_links (forest : Forest s.windows) (housed : Housed s.windows s.panes) (ranked : Ranked depth s.windows)
    (member : tab ∈ s.windows) (inside : pane ∈ tab.panes) {other : Win} (there : other ∈ s.windows)
    (project : other.project = tab.project) (owns : anchor ∈ other.panes) (less : depth anchor < depth pane) :
    (s.assignTabParent pane (some anchor)).2.windows.map Win.link =
      s.windows.map fun tab => (tab.place, if pane ∈ tab.panes then some anchor else tab.stackParent) := by
  obtain ⟨i, read⟩ := List.mem_iff_getElem?.mp member
  obtain ⟨j, readOther⟩ := List.mem_iff_getElem?.mp there
  have position := position_of housed read inside
  have assigned := assigns forest housed pane (some anchor)
  generalize s.assignTabParent pane (some anchor) = result at assigned ⊢
  have known := (anchorOf_some housed).mpr ⟨other, readOther, project, owns⟩
  cases assigned with
  | stray _ found =>
    rw [position] at found
    cases found
  | unknown found readChild unknown =>
    rw [position] at found
    cases found
    rw [read] at readChild
    cases readChild
    rw [known] at unknown
    cases unknown
  | cycle found readChild ancestor reaches =>
    rw [position] at found
    cases found
    rw [read] at readChild
    cases readChild
    rw [known] at ancestor
    cases ancestor
    -- what is above is not deeper
    have lower := (ranks_of_ranked ranked housed).le_of_reaches reaches
    rw [read, readOther] at lower
    have lower : depth tab.active ≤ depth other.active := lower
    rw [← ranked.level tab member pane inside, ← ranked.level other there anchor owns] at lower
    exact absurd less (Nat.not_lt.mpr lower)
  | put found _ _ _ links => exact links.trans (links_setStackParent housed found (some anchor))

/-- What the children's tabs are linked to once they are anchored to another pane. -/
def relink (children : List PaneId) (heir : PaneId)
    (link : (ProjectId × LayoutNode Unit × PaneId × Option PaneId) × Option PaneId) :
    (ProjectId × LayoutNode Unit × PaneId × Option PaneId) × Option PaneId :=
  (link.1, if ∃ child ∈ children, child ≠ heir ∧ child ∈ link.1.2.1.paneIds then some heir else link.2)

private theorem relink_listed {children : List PaneId} {heir : PaneId}
    {link : (ProjectId × LayoutNode Unit × PaneId × Option PaneId) × Option PaneId}
    (listed : ∃ child ∈ children, child ≠ heir ∧ child ∈ link.1.2.1.paneIds) :
    relink children heir link = (link.1, some heir) := congrArg (link.1, ·) (if_pos listed)

private theorem relink_unlisted {children : List PaneId} {heir : PaneId}
    {link : (ProjectId × LayoutNode Unit × PaneId × Option PaneId) × Option PaneId}
    (unlisted : ¬ ∃ child ∈ children, child ≠ heir ∧ child ∈ link.1.2.1.paneIds) :
    relink children heir link = link := congrArg (link.1, ·) (if_neg unlisted)

/-- Anchoring deeper tabs of the project, one after the other, refuses none. -/
theorem reanchor_links (children : List PaneId) (heir : PaneId) (forest : Forest s.windows)
    (housed : Housed s.windows s.panes) (ranked : Ranked depth s.windows)
    (fits : ∀ child ∈ children, child ≠ heir → ∃ tab ∈ s.windows, child ∈ tab.panes ∧ depth heir < depth child ∧
      ∃ other ∈ s.windows, other.project = tab.project ∧ heir ∈ other.panes) :
    (s.reanchor children (some heir)).windows.map Win.link = (s.windows.map Win.link).map (relink children heir) := by
  induction children generalizing s with
  | nil =>
    refine Eq.trans ?_ (List.map_congr_left fun link _ => (?_ : id link = relink [] heir link))
    · exact (List.map_id _).symm
    · simp [relink]
  | cons child children ih =>
    have step : s.reanchor (child :: children) (some heir) =
        (if some child ≠ some heir then (s.assignTabParent child (some heir)).2 else s).reanchor children
          (some heir) := rfl
    rw [step]
    by_cases same : child = heir
    · rw [if_neg (by simp [same]), ih forest housed ranked fun other member => fits other (.tail _ member)]
      refine List.map_congr_left fun link _ => ?_
      simp [relink, same]
    · rw [if_pos (by simp [same])]
      obtain ⟨tab, member, inside, less, other, there, project, owns⟩ := fits child List.mem_cons_self same
      have links := assign_links forest housed ranked member inside there project owns less
      have restacked := restacked_assign s child (some heir)
      have grown := (assigns forest housed child (some heir)).forest forest housed
      have housedNow := restacked_housed restacked housed
      generalize (s.assignTabParent child (some heir)).2 = t at links restacked grown housedNow
      have back : ∀ now ∈ t.windows, ∃ old ∈ s.windows, now.place = old.place ∧
          now.stackParent = if child ∈ old.panes then some heir else old.stackParent := by
        intro now member
        have image := links ▸ List.mem_map_of_mem (f := Win.link) member
        obtain ⟨old, inside, same⟩ := List.mem_map.mp image
        exact ⟨old, inside, (congrArg (·.1) same).symm, (congrArg (·.2) same).symm⟩
      have rankedNow : Ranked depth t.windows := by
        refine ⟨fun now member other shown => ?_, fun now member anchor above => ?_⟩
        · obtain ⟨old, inside, place, _⟩ := back now member
          rw [place_active place]
          exact ranked.level old inside other (place_panes place ▸ shown)
        · obtain ⟨old, there, place, parent⟩ := back now member
          rw [place_active place]
          rw [parent] at above
          split at above
          · next also =>
            cases above
            rwa [← ranked.level old there child also]
          · exact ranked.deeper old there anchor above
      rw [ih grown housedNow rankedNow, links, List.map_map, List.map_map]
      · refine List.map_congr_left fun tab _ => ?_
        simp only [relink, Function.comp, Win.link, Win.place, List.mem_cons, exists_eq_or_imp]
        by_cases later : ∃ child ∈ children, child ≠ heir ∧ child ∈ tab.layout.paneIds
        · simp [later]
        · simp [later, same]
      · intro other member different
        obtain ⟨tab, before, shown, less, parent, known, own, has⟩ := fits other (.tail _ member) different
        obtain ⟨tab', now, samePlace⟩ := restacked.forth before
        obtain ⟨parent', remains, equal⟩ := restacked.forth known
        exact ⟨tab', now, place_panes samePlace ▸ shown, less, parent', remains,
          (place_project equal).trans (own.trans (place_project samePlace).symm), place_panes equal ▸ has⟩

/-- Once the tab of the heir is no child itself, the other children are anchored to the heir. -/
theorem reanchor_reanchored {heir : PaneId} (forest : Forest s.windows) (housed : Housed s.windows s.panes)
    (is : Heir s.windows pane (some heir)) (restacked : Restacked s t)
    (links : t.windows.map Win.link = s.windows.map fun tab =>
      (tab.place, if tab.stackParent = some pane ∧ tab.active = heir then none else tab.stackParent)) :
    Reanchored pane (some heir) s.windows
      (t.reanchor ((s.windows.filter (·.stackParent = some pane)).map (·.active)) (some heir)).windows := by
  obtain ⟨different, depth, inherits⟩ := is.inherits housed forest
  have housedNow := restacked_housed restacked housed
  have back : ∀ now ∈ t.windows, ∃ old ∈ s.windows, now.place = old.place ∧ now.stackParent =
      if old.stackParent = some pane ∧ old.active = heir then none else old.stackParent := by
    intro now member
    have image := links ▸ List.mem_map_of_mem (f := Win.link) member
    obtain ⟨old, inside, same⟩ := List.mem_map.mp image
    exact ⟨old, inside, (congrArg (·.1) same).symm, (congrArg (·.2) same).symm⟩
  have above : ∀ now ∈ t.windows, ∀ anchor ∈ now.stackParent, ∃ old ∈ s.windows, now.place = old.place ∧
      old.stackParent = some anchor ∧ ¬ (anchor = pane ∧ old.active = heir) := by
    intro now member anchor shown
    obtain ⟨old, inside, place, parent⟩ := back now member
    rw [parent] at shown
    split at shown
    · cases shown
    · next other =>
      have stackParent : old.stackParent = some anchor := shown
      refine ⟨old, inside, place, stackParent, fun both => other ⟨?_, both.2⟩⟩
      rw [stackParent, both.1]
  have ranked : Ranked depth t.windows := by
    refine ⟨fun now member other shown => ?_, fun now member anchor shown => ?_⟩
    · obtain ⟨old, inside, place, _⟩ := back now member
      rw [place_active place]
      exact inherits.level old inside other (place_panes place ▸ shown)
    · obtain ⟨old, inside, place, parent, other⟩ := above now member anchor shown
      rw [place_active place]
      exact inherits.deeper old inside anchor parent other
  have grown : Forest t.windows := by
    refine ⟨fun now member anchor shown => ?_, depth, ranked⟩
    obtain ⟨old, inside, place, parent, _⟩ := above now member anchor shown
    obtain ⟨other, there, project, owns⟩ := forest.anchored old inside anchor parent
    obtain ⟨new, remains, same⟩ := restacked.forth there
    exact ⟨new, remains, (place_project same).trans (project.trans (place_project place).symm),
      place_panes same ▸ owns⟩
  have children : ∀ child, child ∈ (s.windows.filter (·.stackParent = some pane)).map (·.active) ↔
      ∃ tab ∈ s.windows, tab.stackParent = some pane ∧ tab.active = child := by
    intro child
    simp only [List.mem_map, List.mem_filter, decide_eq_true_eq, and_assoc]
  have relinked := reanchor_links ((s.windows.filter (·.stackParent = some pane)).map (·.active)) heir grown
    housedNow ranked fun child member notHeir => by
      obtain ⟨tab, inside, below, rfl⟩ := (children child).mp member
      obtain ⟨now, remains, place⟩ := restacked.forth inside
      obtain ⟨other, there, project, owns⟩ := is.known housed forest inside below
      obtain ⟨new, stays, same⟩ := restacked.forth there
      exact ⟨now, remains, place_panes place ▸ housed.active tab inside, inherits.heir tab inside below notHeir,
        new, stays, (place_project same).trans (project.trans (place_project place).symm), place_panes same ▸ owns⟩
  refine relinked.trans ?_
  rw [links, List.map_map]
  refine List.map_congr_left fun tab member => ?_
  -- the children's active panes are in no other tabs
  have anchored : (∃ child ∈ (s.windows.filter (·.stackParent = some pane)).map (·.active),
      child ≠ heir ∧ child ∈ tab.panes) ↔ tab.stackParent = some pane ∧ tab.active ≠ heir := by
    constructor
    · rintro ⟨child, listed, notHeir, shown⟩
      obtain ⟨known, inside, below, rfl⟩ := (children child).mp listed
      obtain rfl := housed.unique inside member (housed.active known inside) shown
      exact ⟨below, notHeir⟩
    · rintro ⟨below, notHeir⟩
      exact ⟨tab.active, (children _).mpr ⟨tab, member, below, rfl⟩, notHeir, housed.active tab member⟩
  unfold Win.reanchored
  by_cases listed : ∃ child ∈ (s.windows.filter (·.stackParent = some pane)).map (·.active),
      child ≠ heir ∧ child ∈ tab.panes
  · obtain ⟨below, notHeir⟩ := anchored.mp listed
    refine (relink_listed listed).trans ?_
    rw [if_pos below, if_neg fun equal => notHeir (Option.some.inj equal).symm]
  · refine (relink_unlisted listed).trans ?_
    dsimp only
    by_cases below : tab.stackParent = some pane
    · by_cases same : tab.active = heir
      · rw [if_pos ⟨below, same⟩, if_pos below, if_pos (congrArg some same.symm)]
      · exact absurd (anchored.mpr ⟨below, same⟩) listed
    · rw [if_neg fun both => below both.1, if_neg below]

/-- The pane is in no tab, or has no child and nothing its children could be anchored to. -/
theorem reanchored_alone (is : Heir s.windows pane none) : Reanchored pane none s.windows s.windows := by
  cases is with
  | alone free _ =>
    refine List.map_congr_left fun tab member => ?_
    rw [reanchored_other (free tab member)]
    rfl

private theorem links_keepRow (s : Server) (i : ℕ) : (s.keepRow i).windows.map Win.link = s.windows.map Win.link := by
  unfold keepRow
  dsimp only
  split
  · exact links_retain s _ true
  · rfl

/-- The tab of the pane that takes over its stack is anchored to nothing. -/
theorem promote_links (forest : Forest s.windows) (housed : Housed s.windows s.panes) (live : anchor ∈ s.panes) :
    (s.promote anchor).windows.map Win.link =
      s.windows.map fun tab => (tab.place, if anchor ∈ tab.panes then none else tab.stackParent) := by
  have links : (s.assignTabParent anchor none).2.windows.map Win.link =
      s.windows.map fun tab => (tab.place, if anchor ∈ tab.panes then none else tab.stackParent) := by
    have assigned := assigns forest housed anchor none
    generalize s.assignTabParent anchor none = result at assigned ⊢
    cases assigned with
    | stray _ found =>
      obtain ⟨tab, member, inside⟩ := (housed.live anchor).mp live
      exact absurd inside (position_none found tab member)
    | root found _ => exact links_setStackParent housed found none
  unfold promote
  dsimp only
  split
  · exact (links_retain _ _ true).trans links
  · exact links

/-- The children are anchored to a pane that is no deeper than the one that leaves. -/
theorem reanchor_shallow {heir : PaneId} (forest : Forest s.windows) (housed : Housed s.windows s.panes)
    (is : Heir s.windows pane (some heir))
    (lower : ∀ depth, Ranked depth s.windows → depth heir ≤ depth pane) :
    Reanchored pane (some heir) s.windows
      (s.reanchor ((s.windows.filter (·.stackParent = some pane)).map (·.active)) (some heir)).windows := by
  refine reanchor_reanchored forest housed is (.refl s) (List.map_congr_left fun tab member => ?_)
  obtain ⟨depth, ranked⟩ := forest.ranked
  rw [if_neg]
  · rfl
  · rintro ⟨below, same⟩
    have less := ranked.deeper tab member pane below
    rw [same] at less
    exact absurd (lower depth ranked) (Nat.not_le.mpr less)

/-- The first child takes the place of its parent, and the others are anchored to it. -/
theorem reanchor_promoted {child : Win} (forest : Forest s.windows) (housed : Housed s.windows s.panes)
    (is : Heir s.windows pane (some child.active)) (member : child ∈ s.windows)
    (below : child.stackParent = some pane) :
    Reanchored pane (some child.active) s.windows
      ((s.promote child.active).reanchor ((s.windows.filter (·.stackParent = some pane)).map (·.active))
        (some child.active)).windows := by
  have active := housed.active child member
  have live : child.active ∈ s.panes := (housed.live _).mpr ⟨child, member, active⟩
  refine reanchor_reanchored forest housed is (restacked_promote s child.active) ?_
  rw [promote_links forest housed live]
  refine List.map_congr_left fun tab there => congrArg (tab.place, ·) ?_
  have own : child.active ∈ tab.panes ↔ tab = child := by
    constructor
    · exact fun shown => housed.unique there member shown active
    · rintro rfl
      exact active
  by_cases same : tab = child
  · subst same
    rw [if_pos active, if_pos ⟨below, rfl⟩]
  · have other : ¬ (tab.stackParent = some pane ∧ tab.active = child.active) := fun both =>
      same (own.mp (both.2 ▸ housed.active tab there))
    rw [if_neg (mt own.mp same), if_neg other]

/-- After the repair nothing is anchored to the pane, and its stack holds without it. -/
theorem frees_repair (forest : Forest s.windows) (housed : Housed s.windows s.panes) (pane : PaneId) :
    Frees pane s.windows (s.repairStackAnchor pane).windows := by
  unfold repairStackAnchor
  cases found : s.position pane with
  | none =>
    have absent := position_none found
    have alone : Heir s.windows pane none := by
      refine .alone (fun tab member below => ?_) fun tab member inside => absurd inside (absent tab member)
      obtain ⟨other, there, _, owns⟩ := forest.anchored tab member pane below
      exact absent other there owns
    exact (reanchored_alone alone).frees alone housed forest
  | some index =>
    obtain ⟨source, read, inside⟩ := position_some found
    have links := links_keepRow s index
    have restacked := restacked_keepRow s index
    have grown := (SameLinks.of_eq links.symm).forest forest
    have housedNow := restacked_housed restacked housed
    have same : ∀ {after : List Win}, Frees pane (s.keepRow index).windows after → Frees pane s.windows after :=
      fun frees => ⟨frees.forest, frees.free, fun first second left right joined =>
        frees.connected first second left right (joined.mono fun _ _ => (SameLinks.of_eq links.symm).linked)⟩
    obtain ⟨now, readNow, place⟩ := restacked.read read
    have member := List.mem_of_getElem? readNow
    have own : pane ∈ now.panes := place_panes place ▸ inside
    dsimp only
    rw [readNow]
    dsimp only
    generalize s.keepRow index = u at grown housedNow same readNow member ⊢
    refine same ?_
    cases beside : now.layout.paneIds.find? (· ≠ pane) with
    | some sibling =>
      have is : Heir u.windows pane (some sibling) :=
        .sibling member own (List.mem_of_find?_eq_some beside) (of_decide_eq_true (List.find?_some beside :))
      rw [Option.some_or]
      exact (reanchor_shallow grown housedNow is fun depth ranked => by
        rw [ranked.level now member _ (List.mem_of_find?_eq_some beside), ranked.level now member pane own]).frees
          is housedNow grown
    | none =>
      have only : ∀ other ∈ now.panes, other = pane := fun other shown => by
        simpa using List.find?_eq_none.mp beside other shown
      rw [Option.none_or]
      cases up : now.stackParent with
      | some above =>
        have is : Heir u.windows pane (some above) := .above member own only up
        exact (reanchor_shallow grown housedNow is fun depth ranked => by
          rw [ranked.level now member pane own]
          exact Nat.le_of_lt (ranked.deeper now member above up)).frees is housedNow grown
      | none =>
        cases head : ((u.windows.filter (·.stackParent = some pane)).map (·.active)).head? with
        | none =>
          have childless := List.head?_eq_none_iff.mp head
          have free : ∀ tab ∈ u.windows, tab.stackParent ≠ some pane := fun tab there below => by
            have listed : tab.active ∈ (u.windows.filter (·.stackParent = some pane)).map (·.active) :=
              List.mem_map_of_mem (List.mem_filter.mpr ⟨there, decide_eq_true below⟩)
            rw [childless] at listed
            cases listed
          have alone : Heir u.windows pane none := by
            refine .alone free fun tab there owns => ?_
            obtain rfl := housedNow.unique member there own owns
            exact ⟨only, up⟩
          rw [childless]
          exact (reanchored_alone alone).frees alone housedNow grown
        | some successor =>
          obtain ⟨child, listed, rfl⟩ := List.mem_map.mp (List.mem_of_head? head)
          obtain ⟨there, below⟩ := List.mem_filter.mp listed
          have below := of_decide_eq_true below
          have is : Heir u.windows pane (some child.active) := .child member own only up there below
          exact (reanchor_promoted grown housedNow is there below).frees is housedNow grown

end Repairing

end Server

end Uniterm.Model.Workspace
