import Uniterm.Soundness.Workspace.Trees

/-! # Splitting and closing at one place

A leaf of a tree has a context: the splits above it, each with its other side. Splitting the leaf fills the
context with a split of it, and closing a pane fills the context above its split with the other side, so that
both touch one place of the tree and the second undoes the first.
-/

namespace Uniterm.Model.Workspace.LayoutNode

variable {Ratio : Type}

/-- A split with one of its sides left open. -/
inductive Frame (Ratio : Type) where
  | first (dir : SplitDir) (ratio : Ratio) (second : LayoutNode Ratio)
  | second (dir : SplitDir) (ratio : Ratio) (first : LayoutNode Ratio)

namespace Frame

/-- The side that is there. -/
def sibling : Frame Ratio → LayoutNode Ratio
  | first _ _ node => node
  | second _ _ node => node

/-- Close the open side with a tree. -/
def fill : Frame Ratio → LayoutNode Ratio → LayoutNode Ratio
  | first dir ratio other, node => split dir ratio node other
  | second dir ratio other, node => split dir ratio other node

/-- The panes to the left of the open side. -/
def before : Frame Ratio → List PaneId
  | first _ _ _ => []
  | second _ _ node => node.paneIds

/-- The panes to the right of the open side. -/
def after : Frame Ratio → List PaneId
  | first _ _ node => node.paneIds
  | second _ _ _ => []

private theorem fill_paneIds (frame : Frame Ratio) (node : LayoutNode Ratio) :
    (frame.fill node).paneIds = frame.before ++ node.paneIds ++ frame.after := by
  cases frame <;> simp [fill, before, after, paneIds]

end Frame

/-- Fill a context, given from the root down. -/
def plug (frames : List (Frame Ratio)) (node : LayoutNode Ratio) : LayoutNode Ratio :=
  frames.foldr Frame.fill node

variable {node rest : LayoutNode Ratio} {frames : List (Frame Ratio)} {pane target : PaneId}

private theorem plug_cons (frame : Frame Ratio) (frames : List (Frame Ratio)) (node : LayoutNode Ratio) :
    plug (frame :: frames) node = frame.fill (plug frames node) := rfl

private theorem plug_append (frames inner : List (Frame Ratio)) (node : LayoutNode Ratio) :
    plug (frames ++ inner) node = plug frames (plug inner node) := List.foldr_append

/-- The panes of a filled context are those of the filling, between two lists of the context's own. -/
theorem plug_paneIds (frames : List (Frame Ratio)) :
    ∃ before after, ∀ node, (plug frames node).paneIds = before ++ node.paneIds ++ after := by
  induction frames with
  | nil => exact ⟨[], [], fun node => by rw [List.append_nil]; rfl⟩
  | cons frame frames ih =>
    obtain ⟨before, after, inner⟩ := ih
    refine ⟨frame.before ++ before, after ++ frame.after, fun node => ?_⟩
    rw [plug_cons, Frame.fill_paneIds, inner]
    simp only [List.append_assoc]

section Places

/-- A pane of the tree fills the context of one of its leaves. -/
theorem exists_plug (member : pane ∈ node.paneIds) : ∃ frames, node = plug frames (leaf pane) := by
  induction node with
  | leaf id =>
    obtain rfl := List.mem_singleton.mp member
    exact ⟨[], rfl⟩
  | split dir ratio first second ihFirst ihSecond =>
    rcases List.mem_append.mp member with left | right
    · obtain ⟨frames, same⟩ := ihFirst left
      exact ⟨.first dir ratio second :: frames, by rw [plug_cons, ← same]; rfl⟩
    · obtain ⟨frames, same⟩ := ihSecond right
      exact ⟨.second dir ratio first :: frames, by rw [plug_cons, ← same]; rfl⟩

/-- Splitting a pane of the tree splits one leaf of it. -/
theorem splitInPlace_plug (half : Ratio) (dir : SplitDir) (pane : PaneId) (member : target ∈ node.paneIds) :
    ∃ frames, node = plug frames (leaf target) ∧ node.splitInPlace half target dir pane =
      (true, plug frames (split dir half (leaf target) (leaf pane))) := by
  induction node with
  | leaf id =>
    obtain rfl := List.mem_singleton.mp member
    exact ⟨[], rfl, if_pos rfl⟩
  | split d ratio first second ihFirst ihSecond =>
    by_cases left : target ∈ first.paneIds
    · obtain ⟨frames, same, grown⟩ := ihFirst left
      refine ⟨.first d ratio second :: frames, by rw [plug_cons, ← same]; rfl, ?_⟩
      rw [splitInPlace, grown]
      rfl
    · obtain ⟨frames, same, grown⟩ := ihSecond ((List.mem_append.mp member).resolve_left left)
      refine ⟨.second d ratio first :: frames, by rw [plug_cons, ← same]; rfl, ?_⟩
      rw [splitInPlace, splitInPlace_absent half dir pane left, grown]
      rfl

private theorem resizeInner_absent (nudge : Ratio → Ratio) (orient : SplitDir) (absent : target ∉ node.paneIds) :
    node.resizeInner nudge target orient = (.absent, node) := by
  induction node with
  | leaf id =>
    have other : id ≠ target := fun same => absent (same ▸ List.mem_singleton_self id)
    rw [resizeInner, if_neg other]
  | split d ratio first second ihFirst ihSecond =>
    rw [paneIds, List.mem_append, not_or] at absent
    rw [resizeInner, ihFirst absent.1, ihSecond absent.2]
    rfl

end Places

section Closing

private theorem without_absent (absent : pane ∉ node.paneIds) : node.without pane = some node := by
  induction node with
  | leaf id =>
    have other : id ≠ pane := fun same => absent (same ▸ List.mem_singleton_self id)
    exact if_neg other
  | split d ratio first second ihFirst ihSecond =>
    rw [paneIds, List.mem_append, not_or] at absent
    rw [without, ihFirst absent.1, ihSecond absent.2]

/-- A side that loses a pane that the other side does not have. -/
theorem without_fill (frame : Frame Ratio) (node : LayoutNode Ratio) (apart : pane ∉ frame.sibling.paneIds) :
    (frame.fill node).without pane = some ((node.without pane).elim frame.sibling frame.fill) := by
  have kept := without_absent apart
  cases frame with
  | first dir ratio other =>
    have kept : other.without pane = some other := kept
    rw [Frame.fill, without, kept]
    cases node.without pane <;> rfl
  | second dir ratio other =>
    have kept : other.without pane = some other := kept
    rw [Frame.fill, without, kept]
    cases node.without pane <;> rfl

private theorem without_plug (apart : ∀ frame ∈ frames, pane ∉ frame.sibling.paneIds)
    (kept : node.without pane = some rest) : (plug frames node).without pane = some (plug frames rest) := by
  induction frames with
  | nil => exact kept
  | cons frame frames ih =>
    have inner := ih fun other member => apart other (.tail _ member)
    rw [plug_cons, without_fill frame _ (apart frame (List.mem_cons_self ..)), inner]
    rfl

/-- A pane that the filled context has once is nowhere in the context. -/
theorem apart_of_nodup (distinct : (plug frames (leaf pane)).paneIds.Nodup) :
    ∀ frame ∈ frames, pane ∉ frame.sibling.paneIds := by
  induction frames with
  | nil => exact fun _ member => absurd member List.not_mem_nil
  | cons frame frames ih =>
    rw [plug_cons, Frame.fill_paneIds] at distinct
    have middle : pane ∈ (plug frames (leaf pane)).paneIds := by
      obtain ⟨before, after, ids⟩ := plug_paneIds frames
      rw [ids]
      simp [paneIds]
    have parts := List.nodup_append.mp distinct
    have lefts := List.nodup_append.mp parts.1
    intro other member
    rcases List.mem_cons.mp member with rfl | deeper
    · intro inside
      cases other with
      | first dir ratio node => exact parts.2.2 pane (List.mem_append_right _ middle) pane inside rfl
      | second dir ratio node => exact lefts.2.2 pane inside pane middle rfl
    · exact ih lefts.2.1 other deeper

private theorem apart_of_fresh (fresh : pane ∉ (plug frames node).paneIds) :
    ∀ frame ∈ frames, pane ∉ frame.sibling.paneIds := by
  induction frames with
  | nil => exact fun _ member => absurd member List.not_mem_nil
  | cons frame frames ih =>
    rw [plug_cons, Frame.fill_paneIds, List.mem_append, List.mem_append, not_or, not_or] at fresh
    intro other member
    rcases List.mem_cons.mp member with rfl | deeper
    · cases other with
      | first dir ratio node => exact fresh.2
      | second dir ratio node => exact fresh.1.1
    · exact ih fresh.1.2 other deeper

/-- Closing a pane that is not the whole tree fills the context of its split with the other side. -/
theorem without_member (distinct : node.paneIds.Nodup) (member : pane ∈ node.paneIds) (more : node ≠ leaf pane) :
    ∃ frames frame, node = plug frames (Frame.fill frame (leaf pane)) ∧
      node.without pane = some (plug frames frame.sibling) := by
  obtain ⟨frames, rfl⟩ := exists_plug member
  have apart := apart_of_nodup distinct
  rcases frames.eq_nil_or_concat with rfl | ⟨outer, frame, rfl⟩
  · exact absurd rfl more
  · rw [List.concat_eq_append] at apart ⊢
    have above := apart frame (by simp)
    refine ⟨outer, frame, plug_append .., ?_⟩
    rw [plug_append]
    refine without_plug (fun other member => apart other (List.mem_append_left _ member)) ?_
    have collapsed := without_fill frame (leaf pane) above
    rw [show (leaf pane : LayoutNode Ratio).without pane = none from if_pos rfl] at collapsed
    exact collapsed

end Closing

section Inverse

/-- Splitting a pane of a tree puts the new pane right after it, and closing the new pane gives the tree back. -/
theorem splitInPlace_member (half : Ratio) (distinct : node.paneIds.Nodup) (member : target ∈ node.paneIds)
    (dir : SplitDir) (fresh : pane ∉ node.paneIds) :
    ∃ grown before after, node.splitInPlace half target dir pane = (true, grown) ∧
      node.paneIds = before ++ target :: after ∧ grown.paneIds = before ++ target :: pane :: after ∧
        grown.paneIds.Nodup ∧ grown.without pane = some node := by
  obtain ⟨frames, same, split⟩ := splitInPlace_plug half dir pane member
  obtain ⟨before, after, ids⟩ := plug_paneIds frames
  have old : node.paneIds = before ++ target :: after := by
    rw [same, ids]
    simp [paneIds]
  have new : (plug frames (.split dir half (leaf target) (leaf pane))).paneIds = before ++ target :: pane :: after := by
    rw [ids]
    simp [paneIds]
  refine ⟨_, before, after, split, old, new, ?_, ?_⟩
  · have perm : (before ++ target :: pane :: after).Perm (pane :: (before ++ target :: after)) := by
      have moved : ((before ++ [target]) ++ pane :: after).Perm (pane :: (before ++ [target] ++ after)) :=
        List.perm_middle
      simpa using moved
    rw [new, perm.nodup_iff, List.nodup_cons, ← old]
    exact ⟨fresh, distinct⟩
  · have other : target ≠ pane := fun same => fresh (same ▸ member)
    have apart : ∀ frame ∈ frames, pane ∉ frame.sibling.paneIds := apart_of_fresh (same ▸ fresh)
    have closed : (LayoutNode.split dir half (leaf target) (leaf pane)).without pane = some (leaf target) := by
      simp [without, other]
    rw [without_plug apart closed, ← same]

private theorem without_eq_none (distinct : node.paneIds.Nodup) (pane : PaneId) :
    node.without pane = none ↔ node = leaf pane := by
  constructor
  · intro gone
    by_contra more
    by_cases member : pane ∈ node.paneIds
    · obtain ⟨frames, frame, -, kept⟩ := without_member distinct member more
      rw [gone] at kept
      cases kept
    · rw [without_absent member] at gone
      cases gone
  · rintro rfl
    exact if_pos rfl

/-- In a tree of distinct panes: splitting a pane and closing the new one are inverse; closing a pane leaves the
others in order, leaves nothing exactly when there was nothing else, and otherwise replaces one split by its other
side; and an absent target changes nothing. -/
theorem split_close (half : Ratio) (nudge : Ratio → Ratio) (node : LayoutNode Ratio) (distinct : node.paneIds.Nodup) :
    (∀ target ∈ node.paneIds, ∀ dir, ∀ pane ∉ node.paneIds, ∃ grown before after,
      node.splitInPlace half target dir pane = (true, grown) ∧ node.paneIds = before ++ target :: after ∧
        grown.paneIds = before ++ target :: pane :: after ∧ grown.paneIds.Nodup ∧ grown.without pane = some node) ∧
    (∀ pane, (node.without pane).elim [] paneIds = node.paneIds.filter (· ≠ pane) ∧
      (node.without pane = none ↔ node = leaf pane) ∧ (pane ∉ node.paneIds → node.without pane = some node) ∧
        (pane ∈ node.paneIds → node ≠ leaf pane → ∃ frames frame,
          node = plug frames (Frame.fill frame (leaf pane)) ∧ node.without pane = some (plug frames frame.sibling))) ∧
    ∀ target ∉ node.paneIds, (∀ dir pane, node.splitInPlace half target dir pane = (false, node)) ∧
      ∀ orient, node.resizePane nudge target orient = (false, node) := by
  refine ⟨fun target member dir pane fresh => splitInPlace_member half distinct member dir fresh, fun pane => ?_,
    fun target absent => ⟨fun dir pane => splitInPlace_absent half dir pane absent, fun orient => ?_⟩⟩
  · exact ⟨without_paneIds node pane, without_eq_none distinct pane, without_absent, without_member distinct⟩
  · rw [resizePane, resizeInner_absent nudge orient absent]
    rfl

/-- A column beside two stacked panes. -/
theorem split_close_stack :
    ∃ grown, (split SplitDir.horizontal 1 (leaf 1) (split .vertical 2 (leaf 2) (leaf 3))).splitInPlace 5 2 .horizontal 4 =
      (true, grown) ∧ grown.without 4 = some (split .horizontal 1 (leaf 1) (split .vertical 2 (leaf 2) (leaf 3))) := by
  obtain ⟨inverse, -, -⟩ := split_close 5 (· + 1)
    (split SplitDir.horizontal 1 (leaf 1) (split .vertical 2 (leaf 2) (leaf 3))) (by decide)
  obtain ⟨grown, -, -, split, -, -, -, closed⟩ := inverse 2 (by decide) .horizontal 4 (by decide)
  exact ⟨grown, split, closed⟩

end Inverse

end Uniterm.Model.Workspace.LayoutNode
