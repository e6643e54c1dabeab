import Uniterm.ToMathlib.Tiling
import Uniterm.Model.Workspace.Layout

/-! # Layouts tile the window

In every mode the panes and dividers of a layout tile its area, whatever rounding makes of the ratios, and
no `u16` operation leaves its range. A split area that has room is its two halves and a divider between
them; one that does not is left whole to one side.
-/

namespace Uniterm.Model.Workspace

open Machine Model ToMathlib

/-- The cells of a rectangle. -/
def Rect.cells (rect : Rect) : Set (ℕ × ℕ) :=
  { cell | (rect.x ≤ cell.1 ∧ cell.1 < rect.x + rect.w) ∧ rect.y ≤ cell.2 ∧ cell.2 < rect.y + rect.h }

/-- A rectangle with cells, all of which have `u16` coordinates. -/
structure Rect.Fits (rect : Rect) : Prop where
  width : 1 ≤ rect.w
  height : 1 ≤ rect.h
  right : rect.x + rect.w ≤ 65536
  bottom : rect.y + rect.h ≤ 65536

/-- The areas of a layout: of its panes, then of its dividers. -/
def Layout.areas (layout : Layout) : List (Set (ℕ × ℕ)) :=
  layout.panes.map (·.2.cells) ++ layout.dividers.map (·.rect.cells)

def Layout.shown (layout : Layout) : List PaneId := layout.panes.map (·.1)

def Layout.append (out inner : Layout) : Layout :=
  ⟨out.panes ++ inner.panes, out.dividers ++ inner.dividers⟩

section Geometry

variable {area : Rect}

theorem mem_cells {rect : Rect} {cell : ℕ × ℕ} : cell ∈ rect.cells ↔
    (rect.x ≤ cell.1 ∧ cell.1 < rect.x + rect.w) ∧ rect.y ≤ cell.2 ∧ cell.2 < rect.y + rect.h := Iff.rfl

private theorem cells_nonempty {rect : Rect} (width : 1 ≤ rect.w) (height : 1 ≤ rect.h) : rect.cells.Nonempty :=
  ⟨(rect.x, rect.y), mem_cells.mpr (by omega)⟩

/-- A column between two sides divides an area. -/
theorem tiles_columns (fits : area.Fits) {left : ℕ} (some : 1 ≤ left) (more : left + 2 ≤ area.w) :
    Tiles [(⟨area.x, area.y, left, area.h⟩ : Rect).cells, (⟨area.x + left, area.y, 1, area.h⟩ : Rect).cells,
      (⟨area.x + left + 1, area.y, area.w - left - 1, area.h⟩ : Rect).cells] area.cells := by
  have height := fits.height
  refine tiles_three.mpr ⟨⟨?_, ?_, ?_⟩, ⟨?_, ?_, ?_⟩, ?_⟩
  · exact cells_nonempty some height
  · exact cells_nonempty (Nat.le_refl 1) height
  · exact cells_nonempty (show 1 ≤ area.w - left - 1 by omega) height
  iterate 3
    · refine Set.disjoint_left.mpr fun cell inside other => ?_
      simp only [mem_cells] at inside other
      omega
  · intro cell
    simp only [mem_cells]
    omega

/-- A row between two sides divides an area. -/
theorem tiles_rows (fits : area.Fits) {top : ℕ} (some : 1 ≤ top) (more : top + 2 ≤ area.h) :
    Tiles [(⟨area.x, area.y, area.w, top⟩ : Rect).cells, (⟨area.x, area.y + top, area.w, 1⟩ : Rect).cells,
      (⟨area.x, area.y + top + 1, area.w, area.h - top - 1⟩ : Rect).cells] area.cells := by
  have width := fits.width
  refine tiles_three.mpr ⟨⟨?_, ?_, ?_⟩, ⟨?_, ?_, ?_⟩, ?_⟩
  · exact cells_nonempty width some
  · exact cells_nonempty width (Nat.le_refl 1)
  · exact cells_nonempty width (show 1 ≤ area.h - top - 1 by omega)
  iterate 3
    · refine Set.disjoint_left.mpr fun cell inside other => ?_
      simp only [mem_cells] at inside other
      omega
  · intro cell
    simp only [mem_cells]
    omega

theorem Rect.Fits.columns (fits : area.Fits) {left : ℕ} (some : 1 ≤ left) (more : left + 2 ≤ area.w) :
    Rect.Fits ⟨area.x, area.y, left, area.h⟩ ∧
      Rect.Fits ⟨area.x + left + 1, area.y, area.w - left - 1, area.h⟩ := by
  have right := fits.right
  refine ⟨⟨some, fits.height, ?_, fits.bottom⟩, ⟨?_, fits.height, ?_, fits.bottom⟩⟩
  all_goals
    dsimp only
    omega

theorem Rect.Fits.rows (fits : area.Fits) {top : ℕ} (some : 1 ≤ top) (more : top + 2 ≤ area.h) :
    Rect.Fits ⟨area.x, area.y, area.w, top⟩ ∧
      Rect.Fits ⟨area.x, area.y + top + 1, area.w, area.h - top - 1⟩ := by
  have bottom := fits.bottom
  refine ⟨⟨fits.width, some, fits.right, ?_⟩, ⟨fits.width, ?_, fits.right, ?_⟩⟩
  all_goals
    dsimp only
    omega

end Geometry

section Arranged

/-- A layout that tiles its area with panes of a list, in its order. -/
structure Arranged (ids : List PaneId) (area : Rect) (layout : Layout) : Prop where
  tiles : Tiles layout.areas area.cells
  ordered : layout.shown.Sublist ids

variable {area first second gap : Rect} {ids idsFirst idsSecond : List PaneId} {out left right : Layout}

private theorem arranged_single (fits : area.Fits) {id : PaneId} (member : id ∈ ids) :
    Arranged ids area ⟨[(id, area)], []⟩ where
  tiles := tiles_single (cells_nonempty fits.width fits.height)
  ordered := List.singleton_sublist.mpr member

private theorem shuffled {α : Type*} (a b c d : List α) (gap : α) :
    (c ++ d ++ (a ++ b ++ [gap])).Perm (a ++ c ++ (b ++ [gap] ++ d)) := by
  classical
  rw [List.perm_iff_count]
  intro x
  simp only [List.count_append]
  omega

/-- Two arranged halves and the divider between them. -/
theorem Arranged.join (halves : Tiles [first.cells, gap.cells, second.cells] area.cells)
    (before : Arranged idsFirst first left) (dir : SplitDir) (after : Arranged idsSecond second right) :
    Arranged (idsFirst ++ idsSecond) area ((left.pushDivider dir gap).append right) where
  tiles := by
    have refined := halves.refine before.tiles
    have reordered : (left.areas ++ [gap.cells, second.cells]).Perm
        (second.cells :: (left.areas ++ [gap.cells])) := by
      rw [List.append_cons]
      exact List.perm_append_singleton ..
    have tiled := (refined.perm reordered).refine after.tiles
    have same : ((left.pushDivider dir gap).append right).areas =
        (left.panes.map (·.2.cells)) ++ (right.panes.map (·.2.cells)) ++
          (left.dividers.map (·.rect.cells) ++ [gap.cells] ++ right.dividers.map (·.rect.cells)) := by
      simp [Layout.areas, Layout.append, Layout.pushDivider]
    rw [same]
    exact tiled.perm (shuffled ..)
  ordered := by
    simp only [Layout.shown, Layout.append, Layout.pushDivider, List.map_append]
    exact before.ordered.append after.ordered

end Arranged

section Splits

variable {Ratio : Type} (scale : ℕ → Ratio → ℕ)

/-- What the first side of a split gets. -/
def share (extent : ℕ) (ratio : Ratio) : ℕ := max 1 (min (scale (extent - 1) ratio) (extent - 2))

/-- No split area of the tree is narrower or shorter than 3 along its axis. -/
def LayoutNode.Spacious : LayoutNode Ratio → Rect → Prop
  | leaf _, _ => True
  | split .horizontal ratio first second, area =>
    let w1 := share scale area.w ratio
    3 ≤ area.w ∧ first.Spacious ⟨area.x, area.y, w1, area.h⟩ ∧
      second.Spacious ⟨area.x + w1 + 1, area.y, area.w - w1 - 1, area.h⟩
  | split .vertical ratio first second, area =>
    let h1 := share scale area.h ratio
    3 ≤ area.h ∧ first.Spacious ⟨area.x, area.y, area.w, h1⟩ ∧
      second.Spacious ⟨area.x, area.y + h1 + 1, area.w, area.h - h1 - 1⟩

variable {scale} {area : Rect} {extent : ℕ} {ratio : Ratio}

theorem share_pos : 1 ≤ share scale extent ratio := Nat.le_max_left ..

theorem share_le (scale : ℕ → Ratio → ℕ) (ratio : Ratio) (room : 3 ≤ extent) : share scale extent ratio + 2 ≤ extent := by
  unfold share
  omega

/-- What laying a tree into an area adds. -/
def Walked (scale : ℕ → Ratio → ℕ) (node : LayoutNode Ratio) (area : Rect) (out next : Layout) : Prop :=
  ∃ inner, next = out.append inner ∧ Arranged node.paneIds area inner ∧
    (node.Spacious scale area → inner.shown = node.paneIds)

/-- Two sides walked one after the other, with the divider between them. -/
theorem Walked.join {first second : LayoutNode Ratio} {left gap right : Rect} {out middle next : Layout}
    {dir : SplitDir} (halves : Tiles [left.cells, gap.cells, right.cells] area.cells)
    (before : Walked scale first left out middle)
    (after : Walked scale second right (middle.pushDivider dir gap) next)
    (spacious : (LayoutNode.split dir ratio first second).Spacious scale area →
      first.Spacious scale left ∧ second.Spacious scale right) :
    Walked scale (.split dir ratio first second) area out next := by
  obtain ⟨one, rfl, arrangedOne, allOne⟩ := before
  obtain ⟨two, rfl, arrangedTwo, allTwo⟩ := after
  refine ⟨(one.pushDivider dir gap).append two, ?_, arrangedOne.join halves dir arrangedTwo, ?_⟩
  · simp [Layout.append, Layout.pushDivider]
  · intro roomy
    have shownOne := allOne (spacious roomy).1
    have shownTwo := allTwo (spacious roomy).2
    simp only [Layout.shown] at shownOne shownTwo
    simp [Layout.shown, Layout.append, Layout.pushDivider, LayoutNode.paneIds, shownOne, shownTwo]

/-- A split with no room gives its area to the first side. -/
theorem Walked.narrow {first : LayoutNode Ratio} {out next : Layout} (walked : Walked scale first area out next)
    (dir : SplitDir) (second : LayoutNode Ratio)
    (narrow : ¬ (LayoutNode.split dir ratio first second).Spacious scale area) :
    Walked scale (.split dir ratio first second) area out next := by
  obtain ⟨inner, same, arranged, _⟩ := walked
  refine ⟨inner, same, ⟨arranged.tiles, ?_⟩, fun spacious => absurd spacious narrow⟩
  exact arranged.ordered.trans (List.sublist_append_left ..)

private theorem settles_clamp {value low high : ℕ} (order : low ≤ high) :
    Settles (fun _ : Build => clamp value low high) (· = max low (min value high)) :=
  ⟨_, fun _ => if_pos order, rfl⟩

private theorem walk_settles (node : LayoutNode Ratio) (fits : area.Fits) (out : Layout) :
    Settles (fun build => node.walk build scale area out) (Walked scale node area out) := by
  induction node generalizing area out with
  | leaf id =>
    refine settles_some ⟨⟨[(id, area)], []⟩, ?_, arranged_single fits (List.mem_singleton_self id),
      fun _ => rfl⟩
    simp [Layout.pushPane, Layout.append]
  | split dir ratio first second ihFirst ihSecond =>
    cases dir with
    | horizontal =>
      simp only [LayoutNode.walk]
      by_cases narrow : area.w < 3
      · simp only [if_pos narrow]
        refine (ihFirst fits out).mono fun next walked => walked.narrow .horizontal second fun spacious => ?_
        exact absurd spacious.1 (Nat.not_le.mpr narrow)
      · simp only [if_neg narrow]
        have room := Nat.not_lt.mp narrow
        have right := fits.right
        have some : 1 ≤ share scale area.w ratio := share_pos
        have more := share_le scale ratio room
        refine (settles_sub16 (by omega)).bind fun avail availIs => ?_
        subst availIs
        refine (settles_sub16 (by omega)).bind fun bound boundIs => ?_
        subst boundIs
        refine (settles_clamp (by omega)).bind fun w1 w1Is => ?_
        obtain rfl : w1 = share scale area.w ratio := w1Is
        refine (settles_sub16 (by omega)).bind fun w2 w2Is => ?_
        obtain rfl : w2 = area.w - share scale area.w ratio - 1 := by omega
        refine (ihFirst (fits.columns some more).1 out).bind fun middle walkedFirst => ?_
        refine (settles_add16 (by omega)).bind fun dividerX dividerIs => ?_
        subst dividerIs
        refine (settles_add16 (by omega)).bind fun dividerX dividerIs => ?_
        subst dividerIs
        refine (settles_add16 (by omega)).bind fun secondX secondIs => ?_
        subst secondIs
        refine (ihSecond (fits.columns some more).2 _).mono fun next walkedSecond => ?_
        exact walkedFirst.join (tiles_columns fits some more) walkedSecond fun spacious => spacious.2
    | vertical =>
      simp only [LayoutNode.walk]
      by_cases narrow : area.h < 3
      · simp only [if_pos narrow]
        refine (ihFirst fits out).mono fun next walked => walked.narrow .vertical second fun spacious => ?_
        exact absurd spacious.1 (Nat.not_le.mpr narrow)
      · simp only [if_neg narrow]
        have room := Nat.not_lt.mp narrow
        have bottom := fits.bottom
        have some : 1 ≤ share scale area.h ratio := share_pos
        have more := share_le scale ratio room
        refine (settles_sub16 (by omega)).bind fun avail availIs => ?_
        subst availIs
        refine (settles_sub16 (by omega)).bind fun bound boundIs => ?_
        subst boundIs
        refine (settles_clamp (by omega)).bind fun h1 h1Is => ?_
        obtain rfl : h1 = share scale area.h ratio := h1Is
        refine (settles_sub16 (by omega)).bind fun h2 h2Is => ?_
        obtain rfl : h2 = area.h - share scale area.h ratio - 1 := by omega
        refine (ihFirst (fits.rows some more).1 out).bind fun middle walkedFirst => ?_
        refine (settles_add16 (by omega)).bind fun dividerY dividerIs => ?_
        subst dividerIs
        refine (settles_add16 (by omega)).bind fun dividerY dividerIs => ?_
        subst dividerIs
        refine (settles_add16 (by omega)).bind fun secondY secondIs => ?_
        subst secondIs
        refine (ihSecond (fits.rows some more).2 _).mono fun next walkedSecond => ?_
        exact walkedFirst.join (tiles_rows fits some more) walkedSecond fun spacious => spacious.2

end Splits

section Automatic

variable {area : Rect} {ids : List PaneId} {active : PaneId}

/-- What dwindling adds: panes of the list in its order, the active one among them. -/
def Dwindled (ids : List PaneId) (area : Rect) (active : PaneId) (out next : Layout) : Prop :=
  ∃ inner, next = out.append inner ∧ Arranged ids area inner ∧ (active ∈ ids → active ∈ inner.shown)

/-- The first pane has its half, the rest dwindle into the other. -/
theorem Dwindled.join {left gap right : Rect} {out next : Layout} {id : PaneId} {rest : List PaneId}
    {dir : SplitDir} (halves : Tiles [left.cells, gap.cells, right.cells] area.cells) (fits : left.Fits)
    (after : Dwindled rest right active ((out.pushPane id left).pushDivider dir gap) next) :
    Dwindled (id :: rest) area active out next := by
  obtain ⟨inner, rfl, arranged, active⟩ := after
  have first : Arranged [id] left ⟨[(id, left)], []⟩ := arranged_single fits (List.mem_singleton_self id)
  refine ⟨_, ?_, first.join halves dir arranged, fun member => ?_⟩
  · simp [Layout.append, Layout.pushDivider, Layout.pushPane]
  · have shown : (((⟨[(id, left)], []⟩ : Layout).pushDivider dir gap).append inner).shown =
        id :: inner.shown := by simp [Layout.shown, Layout.append, Layout.pushDivider]
    rw [shown]
    rcases List.mem_cons.mp member with rfl | member
    · exact List.mem_cons_self
    · exact List.mem_cons_of_mem _ (active member)

private theorem find_active (id : PaneId) (rest : List PaneId) (active : PaneId) :
    ((id :: rest).find? (· == active)).getD id ∈ id :: rest ∧
      (active ∈ id :: rest → ((id :: rest).find? (· == active)).getD id = active) := by
  cases found : (id :: rest).find? (· == active) with
  | none =>
    refine ⟨List.mem_cons_self, fun member => ?_⟩
    simpa using List.find?_eq_none.mp found active member
  | some pane =>
    refine ⟨List.mem_of_find?_eq_some found, fun _ => ?_⟩
    simpa using List.find?_some found

private theorem dwindle_settles (ids : List PaneId) (some : ids ≠ []) (fits : area.Fits) (active : PaneId)
    (out : Layout) :
    Settles (fun build => dwindle build ids area active out) (Dwindled ids area active out) := by
  induction ids generalizing area out with
  | nil => exact absurd rfl some
  | cons id rest ih =>
    simp only [dwindle]
    by_cases last : rest = [] ∨ area.w < 3 ∧ area.h < 3
    · simp only [if_pos last]
      obtain ⟨listed, kept⟩ := find_active id rest active
      refine settles_some ⟨⟨[(_, area)], []⟩, ?_, arranged_single fits listed, fun member => ?_⟩
      · simp [Layout.append, Layout.pushPane]
      · exact List.mem_singleton.mpr (kept member).symm
    · simp only [if_neg last]
      obtain ⟨more, room⟩ := not_or.mp last
      by_cases wide : area.w ≥ 3 ∧ (area.h < 3 ∨ area.w ≥ area.h * 2)
      · simp only [if_pos wide]
        have right := fits.right
        have half : 1 ≤ (area.w - 1) / 2 := by omega
        have other : (area.w - 1) / 2 + 2 ≤ area.w := by omega
        refine (settles_add16 (by omega)).bind fun secondX secondIs => ?_
        subst secondIs
        refine (settles_add16 (by omega)).bind fun secondX secondIs => ?_
        subst secondIs
        refine (settles_sub16 (by omega)).bind fun secondW secondIs => ?_
        subst secondIs
        refine (settles_sub16 (by omega)).bind fun secondW secondIs => ?_
        subst secondIs
        refine (settles_add16 (by omega)).bind fun dividerX dividerIs => ?_
        subst dividerIs
        refine (ih more (fits.columns half other).2 _).mono fun next dwindled => ?_
        exact dwindled.join (tiles_columns fits half other) (fits.columns half other).1
      · simp only [if_neg wide]
        have bottom := fits.bottom
        have half : 1 ≤ (area.h - 1) / 2 := by omega
        have other : (area.h - 1) / 2 + 2 ≤ area.h := by omega
        refine (settles_add16 (by omega)).bind fun secondY secondIs => ?_
        subst secondIs
        refine (settles_add16 (by omega)).bind fun secondY secondIs => ?_
        subst secondIs
        refine (settles_sub16 (by omega)).bind fun secondH secondIs => ?_
        subst secondIs
        refine (settles_sub16 (by omega)).bind fun secondH secondIs => ?_
        subst secondIs
        refine (settles_add16 (by omega)).bind fun dividerY dividerIs => ?_
        subst dividerIs
        refine (ih more (fits.rows half other).2 _).mono fun next dwindled => ?_
        exact dwindled.join (tiles_rows fits half other) (fits.rows half other).1

private theorem scrollTo_spec {count visible selected : ℕ} (scroll : ℕ) (inside : selected < count)
    (some : 1 ≤ visible) :
    scrollTo count visible selected scroll ≤ selected ∧
      selected < scrollTo count visible selected scroll + visible ∧
        (visible ≤ count → scrollTo count visible selected scroll + visible ≤ count) := by
  unfold scrollTo
  dsimp only
  split <;> split <;> omega

/-- The columns in view, at most two and only where there is room for two. -/
theorem columns_settles {shown : List PaneId} (fits : area.Fits) (some : shown ≠ [])
    (few : shown.length ≤ scrollingColumns area.w) :
    Settles (fun build => columns build area shown) fun layout =>
      Tiles layout.areas area.cells ∧ layout.shown = shown := by
  match shown with
  | [] => exact absurd rfl some
  | [id] => exact settles_some ⟨(arranged_single fits (List.mem_singleton_self id)).tiles, rfl⟩
  | [first, second] =>
    have wide : 49 ≤ area.w := by
      unfold scrollingColumns at few
      split at few
      · assumption
      · simp at few
    have right := fits.right
    have half : 1 ≤ (area.w - 1) / 2 := by omega
    have other : (area.w - 1) / 2 + 2 ≤ area.w := by omega
    simp only [columns]
    refine (settles_add16 (by omega)).bind fun dividerX dividerIs => ?_
    subst dividerIs
    refine (settles_add16 (by omega)).bind fun rightX rightIs => ?_
    subst rightIs
    refine (settles_add16 (by omega)).bind fun rightX rightIs => ?_
    subst rightIs
    refine (settles_sub16 (by omega)).bind fun rightW rightIs => ?_
    subst rightIs
    refine (settles_sub16 (by omega)).bind fun rightW rightIs => ?_
    subst rightIs
    have one := arranged_single (fits.columns half other).1 (List.mem_singleton_self first)
    have two := arranged_single (fits.columns half other).2 (List.mem_singleton_self second)
    exact settles_some ⟨(one.join (tiles_columns fits half other) .horizontal two).tiles, rfl⟩
  | _ :: _ :: _ :: _ =>
    unfold scrollingColumns at few
    split at few <;> simp at few

end Automatic

section Modes

variable {Ratio : Type}

private theorem paneIds_ne_nil (node : LayoutNode Ratio) : node.paneIds ≠ [] := by
  induction node with
  | leaf id => exact List.cons_ne_nil id []
  | split dir ratio first second ihFirst ihSecond => exact List.append_ne_nil_of_left_ne_nil ihFirst _

private theorem located_of_mem {ids : List PaneId} {active : PaneId} (member : active ∈ ids) :
    ∃ index, ids.findIdx? (· == active) = some index ∧ ids[index]? = some active := by
  cases found : ids.findIdx? (· == active) with
  | none => simpa using List.findIdx?_eq_none_iff.mp found active member
  | some index =>
    obtain ⟨inside, same, _⟩ := List.findIdx?_eq_some_iff_getElem.mp found
    refine ⟨index, rfl, ?_⟩
    rw [List.getElem?_eq_getElem inside, beq_iff_eq.mp same]

/-- Layouts tile their area in every mode, with the panes in the order of the tree. -/
theorem computeMode_tiles (scale : ℕ → Ratio → ℕ) (node : LayoutNode Ratio)
    (distinct : node.paneIds.Nodup) (area : Rect) (fits : area.Fits) (mode : PaneLayout) (active : PaneId)
    (inside : active ∈ node.paneIds) (scroll : ℕ) :
    Settles (fun build => node.computeMode build scale area mode active scroll) fun result =>
      Tiles result.1.areas area.cells ∧ result.1.shown.Nodup ∧ result.1.shown.Sublist node.paneIds ∧
        (mode = .split → node.Spacious scale area → result.1.shown = node.paneIds) ∧
        (mode ≠ .split → active ∈ result.1.shown) := by
  cases mode with
  | split =>
    refine Settles.map (walk_settles node fits {}) _ ?_
    rintro layout ⟨inner, rfl, arranged, all⟩
    exact ⟨arranged.tiles, distinct.sublist arranged.ordered, arranged.ordered, fun _ => all,
      absurd rfl⟩
  | dwindle =>
    refine Settles.map (dwindle_settles node.paneIds (paneIds_ne_nil node) fits active {}) _ ?_
    rintro layout ⟨inner, rfl, arranged, active⟩
    exact ⟨arranged.tiles, distinct.sublist arranged.ordered, arranged.ordered, nofun,
      fun _ => active inside⟩
  | scrolling =>
    obtain ⟨selected, located⟩ := located_of_mem inside
    have within := (List.getElem?_eq_some_iff.mp located.2).1
    have some : 1 ≤ scrollingColumns area.w := by
      unfold scrollingColumns
      split <;> decide
    obtain ⟨low, high, _⟩ := scrollTo_spec scroll within some
    simp only [LayoutNode.computeMode, located.1, Option.getD_some]
    generalize scrollTo node.paneIds.length (scrollingColumns area.w) selected scroll = start at low high
    have shown : active ∈ (node.paneIds.take (min node.paneIds.length
        (start + scrollingColumns area.w))).drop start := by
      refine List.mem_of_getElem? (i := selected - start) ?_
      rw [List.getElem?_drop, Nat.add_sub_cancel' low, List.getElem?_take, if_pos (by omega)]
      exact located.2
    have ordered := (List.drop_sublist start _).trans (List.take_sublist
      (min node.paneIds.length (start + scrollingColumns area.w)) node.paneIds)
    refine Settles.map (columns_settles fits (List.ne_nil_of_mem shown) ?_) _ ?_
    · rw [List.length_drop, List.length_take]
      omega
    · rintro layout ⟨tiles, same⟩
      rw [same]
      exact ⟨tiles, distinct.sublist ordered, ordered, nofun, fun _ => shown⟩

/-- A column beside two stacked panes, in a window of one row. -/
theorem computeMode_tiles_oneRow :
    Rect.Fits ⟨0, 0, 5, 1⟩ ∧
      Settles (fun build => (LayoutNode.split .horizontal () (.leaf 1)
          (.split .vertical () (.leaf 2) (.leaf 3))).computeMode build (fun avail _ => avail / 2)
            ⟨0, 0, 5, 1⟩ .dwindle 3 0) fun result =>
        Tiles result.1.areas (Rect.cells ⟨0, 0, 5, 1⟩) ∧ 3 ∈ result.1.shown := by
  have fits : Rect.Fits ⟨0, 0, 5, 1⟩ := ⟨by decide, by decide, by decide, by decide⟩
  refine ⟨fits, ?_⟩
  refine (computeMode_tiles (fun avail _ => avail / 2) _ (by decide) _ fits .dwindle 3 (by decide) 0).mono ?_
  rintro result ⟨tiles, _, _, _, active⟩
  exact ⟨tiles, active nofun⟩

end Modes

end Uniterm.Model.Workspace
