import Uniterm.Soundness.Workspace.Splitting
import Uniterm.Soundness.Workspace.Tiling

/-! # Dragging a divider

Every split with room draws one divider between its two sides, and the search for a divider cuts areas the way
the layout does. A divider is found exactly when it is drawn, and dragging it changes the ratio of one split:
what is laid out around the area of that split stays as it was. Coordinates may wrap around in a release build.
-/

namespace Uniterm.Model.Workspace

open Model LayoutNode

/-- A rectangle of `u16` fields that has cells. -/
structure Rect.Sized (rect : Rect) : Prop where
  width : 1 ≤ rect.w
  height : 1 ≤ rect.h
  narrow : rect.w < 65536
  short : rect.h < 65536
  left : rect.x < 65536
  top : rect.y < 65536

/-- A rectangle with cells inside an area, counted from the area's corner. -/
structure Within (area rect : Rect) : Prop where
  width : 1 ≤ rect.w
  height : 1 ≤ rect.h
  column : ∃ i, i + rect.w ≤ area.w ∧ rect.x = (area.x + i) % 65536
  row : ∃ j, j + rect.h ≤ area.h ∧ rect.y = (area.y + j) % 65536

/-- Every pane and every divider of a layout is inside an area. -/
def Layout.Inside (layout : Layout) (area : Rect) : Prop :=
  (∀ pane ∈ layout.panes, Within area pane.2) ∧ ∀ divider ∈ layout.dividers, Within area divider.rect

section Sides

/-- The extent that a split divides. -/
def axis (dir : SplitDir) (area : Rect) : ℕ :=
  match dir with
  | .horizontal => area.w
  | .vertical => area.h

/-- How far into an area the pointer is along the axis of a split. -/
def reach (dir : SplitDir) (area : Rect) (x y : ℕ) : ℕ :=
  match dir with
  | .horizontal => x - area.x
  | .vertical => y - area.y

/-- The first side, the divider and the second side of an area. -/
def sides (build : Build) (dir : SplitDir) (area : Rect) (first : ℕ) : Option (Rect × Rect × Rect) :=
  match dir with
  | .horizontal => do
    let gap ← add16 build area.x first
    let second ← add16 build gap 1
    return (⟨area.x, area.y, first, area.h⟩, ⟨gap, area.y, 1, area.h⟩, ⟨second, area.y, area.w - first - 1, area.h⟩)
  | .vertical => do
    let gap ← add16 build area.y first
    let second ← add16 build gap 1
    return (⟨area.x, area.y, area.w, first⟩, ⟨area.x, gap, area.w, 1⟩, ⟨area.x, second, area.w, area.h - first - 1⟩)

/-- The divider that a split draws in an area. -/
def drawn {Ratio : Type} (build : Build) (scale : ℕ → Ratio → ℕ) (dir : SplitDir) (ratio : Ratio) (area : Rect) :
    Option Rect :=
  if axis dir area < 3 then none
  else (sides build dir area (share scale (axis dir area) ratio)).map fun parts => parts.2.1

private theorem add16_mod {build : Build} {a b c : ℕ} (left : a < 65536) (right : b < 65536)
    (sum : add16 build a b = some c) : c = (a + b) % 65536 := by
  unfold add16 at sum
  split at sum
  · obtain rfl := Option.some.inj sum
    omega
  · cases build with
    | release =>
      obtain rfl := Option.some.inj sum
      omega
    | checked => cases sum

variable {build : Build} {dir : SplitDir} {area left gap right rect : Rect} {first : ℕ}

theorem Within.refl (sized : rect.Sized) : Within rect rect where
  width := sized.width
  height := sized.height
  column := ⟨0, by omega, by have := sized.left; omega⟩
  row := ⟨0, by omega, by have := sized.top; omega⟩

theorem Within.trans {inner : Rect} (outer : Within area rect) (deeper : Within rect inner) : Within area inner where
  width := deeper.width
  height := deeper.height
  column := by
    obtain ⟨i, fits, column⟩ := outer.column
    obtain ⟨j, fits', column'⟩ := deeper.column
    exact ⟨i + j, by omega, by omega⟩
  row := by
    obtain ⟨i, fits, row⟩ := outer.row
    obtain ⟨j, fits', row'⟩ := deeper.row
    exact ⟨i + j, by omega, by omega⟩

/-- Two areas with no rectangle in common. -/
def Apart (one other : Rect) : Prop := ∀ rect, Within one rect → ¬Within other rect

/-- What the sides of an area with room are. -/
structure Halved (area left gap right : Rect) : Prop where
  first : left.Sized ∧ Within area left
  middle : gap.Sized ∧ Within area gap
  second : right.Sized ∧ Within area right
  before : Apart left gap
  after : Apart gap right
  around : Apart left right

private theorem sides_halved (sized : area.Sized) (least : 1 ≤ first) (more : first + 2 ≤ axis dir area)
    (cut : sides build dir area first = some (left, gap, right)) : Halved area left gap right := by
  obtain ⟨width, height, narrow, short, corner, top⟩ := sized
  cases dir with
  | horizontal =>
    dsimp only [axis] at more
    obtain ⟨gapX, sum, rest⟩ := Option.bind_eq_some_iff.mp cut
    obtain ⟨secondX, sum', same⟩ := Option.bind_eq_some_iff.mp rest
    have gapIs := add16_mod corner (by omega) sum
    have secondIs := add16_mod (by omega) (by omega) sum'
    simp only [Option.pure_def, Option.some.injEq, Prod.mk.injEq] at same
    obtain ⟨rfl, rfl, rfl⟩ := same
    have row : ∃ j, j + area.h ≤ area.h ∧ area.y = (area.y + j) % 65536 := ⟨0, by omega, by omega⟩
    refine ⟨⟨⟨least, height, ?_, short, corner, top⟩, ⟨least, height, ⟨0, ?_, ?_⟩, row⟩⟩,
      ⟨⟨Nat.le_refl 1, height, ?_, short, ?_, top⟩, ⟨Nat.le_refl 1, height, ⟨first, ?_, gapIs⟩, row⟩⟩,
      ⟨⟨?_, height, ?_, short, ?_, top⟩, ⟨?_, height, ⟨first + 1, ?_, ?_⟩, row⟩⟩, ?_, ?_, ?_⟩
    all_goals try (dsimp only; omega)
    all_goals
      intro rect inside other
      obtain ⟨i, fits, column⟩ := inside.column
      obtain ⟨j, fits', column'⟩ := other.column
      have cells := inside.width
      dsimp only at fits fits' column column'
      omega
  | vertical =>
    dsimp only [axis] at more
    obtain ⟨gapY, sum, rest⟩ := Option.bind_eq_some_iff.mp cut
    obtain ⟨secondY, sum', same⟩ := Option.bind_eq_some_iff.mp rest
    have gapIs := add16_mod top (by omega) sum
    have secondIs := add16_mod (by omega) (by omega) sum'
    simp only [Option.pure_def, Option.some.injEq, Prod.mk.injEq] at same
    obtain ⟨rfl, rfl, rfl⟩ := same
    have column : ∃ i, i + area.w ≤ area.w ∧ area.x = (area.x + i) % 65536 := ⟨0, by omega, by omega⟩
    refine ⟨⟨⟨width, least, narrow, ?_, corner, top⟩, ⟨width, least, column, ⟨0, ?_, ?_⟩⟩⟩,
      ⟨⟨width, Nat.le_refl 1, narrow, ?_, corner, ?_⟩, ⟨width, Nat.le_refl 1, column, ⟨first, ?_, gapIs⟩⟩⟩,
      ⟨⟨width, ?_, narrow, ?_, corner, ?_⟩, ⟨width, ?_, column, ⟨first + 1, ?_, ?_⟩⟩⟩, ?_, ?_, ?_⟩
    all_goals try (dsimp only; omega)
    all_goals
      intro rect inside other
      obtain ⟨i, fits, row⟩ := inside.row
      obtain ⟨j, fits', row'⟩ := other.row
      have cells := inside.height
      dsimp only at fits fits' row row'
      omega

private theorem sides_release (dir : SplitDir) (area : Rect) (first : ℕ) :
    ∃ parts, sides .release dir area first = some parts := by
  cases dir with
  | horizontal =>
    obtain ⟨gap, sum⟩ := add16_release area.x first
    obtain ⟨second, sum'⟩ := add16_release gap 1
    exact ⟨_, by simp only [sides, sum, sum', Option.bind_eq_bind, Option.bind_some]; rfl⟩
  | vertical =>
    obtain ⟨gap, sum⟩ := add16_release area.y first
    obtain ⟨second, sum'⟩ := add16_release gap 1
    exact ⟨_, by simp only [sides, sum, sum', Option.bind_eq_bind, Option.bind_some]; rfl⟩

end Sides

section Walks

variable {Ratio : Type} {build : Build} {scale : ℕ → Ratio → ℕ} {dir : SplitDir} {ratio : Ratio}
  {first second node : LayoutNode Ratio} {area left gap right : Rect} {out layout : Layout}

private theorem clamp_share (scale : ℕ → Ratio → ℕ) (ratio : Ratio) (room : 3 ≤ axis dir area) :
    clamp (scale (axis dir area - 1) ratio) 1 (axis dir area - 2) = some (share scale (axis dir area) ratio) := by
  rw [clamp, if_pos (by omega), share]

/-- A split with no room is its first side. -/
theorem walk_narrow (narrow : axis dir area < 3) :
    (split dir ratio first second).walk build scale area out = first.walk build scale area out := by
  cases dir <;> exact if_pos narrow

/-- A split with room is its first side, its divider and its second side. -/
theorem walk_split (room : 3 ≤ axis dir area) :
    (split dir ratio first second).walk build scale area out =
      (sides build dir area (share scale (axis dir area) ratio)).bind fun parts =>
        (first.walk build scale parts.1 out).bind fun out =>
          second.walk build scale parts.2.2 (out.pushDivider dir parts.2.1) := by
  have shared := clamp_share scale ratio room
  cases dir with
  | horizontal =>
    dsimp only [axis] at room shared ⊢
    have fits : share scale area.w ratio ≤ area.w - 1 := by
      have := share_le scale ratio room
      omega
    have rest : area.w - 1 - share scale area.w ratio = area.w - share scale area.w ratio - 1 := by omega
    rw [LayoutNode.walk, if_neg (by omega), sub16_of_le build (by omega : 1 ≤ area.w)]
    dsimp only [Option.bind_eq_bind, Option.bind_some]
    rw [sub16_of_le build (by omega : 1 ≤ area.w - 1)]
    dsimp only [Option.bind_some]
    rw [show area.w - 1 - 1 = area.w - 2 from rfl, shared]
    dsimp only [Option.bind_some]
    rw [sub16_of_le build fits, rest, sides]
    dsimp only [Option.bind_some]
    generalize share scale area.w ratio = w1
    cases add16 build area.x w1 with
    | none => cases first.walk build scale ⟨area.x, area.y, w1, area.h⟩ out <;> rfl
    | some gapX =>
      dsimp only [Option.bind_eq_bind, Option.bind_some]
      cases add16 build gapX 1 with
      | none => cases first.walk build scale ⟨area.x, area.y, w1, area.h⟩ out <;> rfl
      | some secondX => rfl
  | vertical =>
    dsimp only [axis] at room shared ⊢
    have fits : share scale area.h ratio ≤ area.h - 1 := by
      have := share_le scale ratio room
      omega
    have rest : area.h - 1 - share scale area.h ratio = area.h - share scale area.h ratio - 1 := by omega
    rw [LayoutNode.walk, if_neg (by omega), sub16_of_le build (by omega : 1 ≤ area.h)]
    dsimp only [Option.bind_eq_bind, Option.bind_some]
    rw [sub16_of_le build (by omega : 1 ≤ area.h - 1)]
    dsimp only [Option.bind_some]
    rw [show area.h - 1 - 1 = area.h - 2 from rfl, shared]
    dsimp only [Option.bind_some]
    rw [sub16_of_le build fits, rest, sides]
    dsimp only [Option.bind_some]
    generalize share scale area.h ratio = h1
    cases add16 build area.y h1 with
    | none => cases first.walk build scale ⟨area.x, area.y, area.w, h1⟩ out <;> rfl
    | some gapY =>
      dsimp only [Option.bind_eq_bind, Option.bind_some]
      cases add16 build gapY 1 with
      | none => cases first.walk build scale ⟨area.x, area.y, area.w, h1⟩ out <;> rfl
      | some secondY => rfl

/-- What is laid out comes after what there was. -/
theorem walk_append (node : LayoutNode Ratio) (area : Rect) (out : Layout) :
    node.walk build scale area out = (node.compute build scale area).map out.append := by
  induction node generalizing area out with
  | leaf id => simp [compute, LayoutNode.walk, Layout.pushPane, Layout.append]
  | split dir ratio first second ihFirst ihSecond =>
    rcases Nat.lt_or_ge (axis dir area) 3 with narrow | room
    · rw [compute, walk_narrow narrow, walk_narrow narrow, ihFirst, ← compute]
    · rw [compute, walk_split room, walk_split room]
      cases sides build dir area (share scale (axis dir area) ratio) with
      | none => rfl
      | some parts =>
        dsimp only [Option.bind_some]
        rw [ihFirst, ihFirst parts.1 {}]
        cases first.compute build scale parts.1 with
        | none => rfl
        | some inner =>
          dsimp only [Option.map_some, Option.bind_some]
          rw [ihSecond, ihSecond parts.2.2 _]
          cases second.compute build scale parts.2.2 with
          | none => rfl
          | some later => simp [Layout.append, Layout.pushDivider]

private theorem compute_narrow (narrow : axis dir area < 3) :
    (split dir ratio first second).compute build scale area = first.compute build scale area := walk_narrow narrow

/-- The layout of a split is that of its sides around its divider. -/
theorem compute_split (room : 3 ≤ axis dir area) :
    (split dir ratio first second).compute build scale area =
      (sides build dir area (share scale (axis dir area) ratio)).bind fun parts =>
        (first.compute build scale parts.1).bind fun one =>
          (second.compute build scale parts.2.2).map fun other => (one.pushDivider dir parts.2.1).append other := by
  rw [compute, walk_split room]
  congr 1
  funext parts
  rw [← compute]
  congr 1
  funext one
  exact walk_append ..

private theorem compute_split_eq_some (room : 3 ≤ axis dir area) :
    (split dir ratio first second).compute build scale area = some layout ↔
      ∃ left gap right one other, sides build dir area (share scale (axis dir area) ratio) = some (left, gap, right) ∧
        first.compute build scale left = some one ∧ second.compute build scale right = some other ∧
          layout = (one.pushDivider dir gap).append other := by
  rw [compute_split room]
  simp only [Option.bind_eq_some_iff, Option.map_eq_some_iff, Prod.exists]
  constructor
  · rintro ⟨left, gap, right, cut, one, laid, other, laid', same⟩
    exact ⟨left, gap, right, one, other, cut, laid, laid', same.symm⟩
  · rintro ⟨left, gap, right, one, other, cut, laid, laid', same⟩
    exact ⟨left, gap, right, cut, one, laid, other, laid', same.symm⟩

private theorem compute_release (node : LayoutNode Ratio) (area : Rect) :
    ∃ layout, node.compute .release scale area = some layout := by
  induction node generalizing area with
  | leaf id => exact ⟨_, rfl⟩
  | split dir ratio first second ihFirst ihSecond =>
    rcases Nat.lt_or_ge (axis dir area) 3 with narrow | room
    · rw [compute_narrow narrow]
      exact ihFirst area
    · obtain ⟨⟨left, gap, right⟩, cut⟩ := sides_release dir area (share scale (axis dir area) ratio)
      obtain ⟨one, laid⟩ := ihFirst left
      obtain ⟨other, laid'⟩ := ihSecond right
      exact ⟨_, (compute_split_eq_some room).mpr ⟨left, gap, right, one, other, cut, laid, laid', rfl⟩⟩

private theorem halved_of_sides (sized : area.Sized) (room : 3 ≤ axis dir area)
    (cut : sides build dir area (share scale (axis dir area) ratio) = some (left, gap, right)) :
    Halved area left gap right := sides_halved sized share_pos (share_le scale ratio room) cut

theorem Layout.Inside.outer {inner : Rect} (inside : layout.Inside inner) (within : Within area inner) :
    layout.Inside area :=
  ⟨fun pane member => within.trans (inside.1 pane member), fun divider member => within.trans (inside.2 divider member)⟩

/-- Everything laid out is inside the area, and no two dividers are drawn at one place. -/
theorem compute_inside (sized : area.Sized) (laid : node.compute build scale area = some layout) :
    layout.Inside area ∧ (layout.dividers.map Divider.rect).Nodup := by
  induction node generalizing area layout with
  | leaf id =>
    obtain rfl := Option.some.inj laid
    refine ⟨⟨fun pane member => ?_, fun divider member => nomatch member⟩, List.nodup_nil⟩
    obtain rfl := List.mem_singleton.mp member
    exact .refl sized
  | split dir ratio first second ihFirst ihSecond =>
    rcases Nat.lt_or_ge (axis dir area) 3 with narrow | room
    · rw [compute_narrow narrow] at laid
      exact ihFirst sized laid
    · obtain ⟨left, gap, right, one, other, cut, laidOne, laidOther, rfl⟩ := (compute_split_eq_some room).mp laid
      have halved := halved_of_sides sized room cut
      obtain ⟨insideOne, distinctOne⟩ := ihFirst halved.first.1 laidOne
      obtain ⟨insideOther, distinctOther⟩ := ihSecond halved.second.1 laidOther
      have outerOne := insideOne.outer halved.first.2
      have outerOther := insideOther.outer halved.second.2
      refine ⟨⟨fun pane member => ?_, fun divider member => ?_⟩, ?_⟩
      · rcases List.mem_append.mp member with before | after
        · exact outerOne.1 pane before
        · exact outerOther.1 pane after
      · rcases List.mem_append.mp member with before | after
        · rcases List.mem_append.mp before with before | here
          · exact outerOne.2 divider before
          · rw [List.mem_singleton.mp here]
            exact halved.middle.2
        · exact outerOther.2 divider after
      · have apart (rect : Rect) (inFirst : rect ∈ one.dividers.map Divider.rect) : Within left rect := by
          obtain ⟨divider, member, rfl⟩ := List.mem_map.mp inFirst
          exact insideOne.2 divider member
        have apart' (rect : Rect) (inSecond : rect ∈ other.dividers.map Divider.rect) : Within right rect := by
          obtain ⟨divider, member, rfl⟩ := List.mem_map.mp inSecond
          exact insideOther.2 divider member
        rw [Layout.append, Layout.pushDivider, List.map_append, List.map_append, List.map_singleton]
        refine (distinctOne.append (List.nodup_singleton _) ?_).append distinctOther ?_
        · intro rect before here
          rw [List.mem_singleton.mp here] at before
          exact halved.before gap (apart gap before) (.refl halved.middle.1)
        · intro rect before after
          rcases List.mem_append.mp before with before | here
          · exact halved.around rect (apart rect before) (apart' rect after)
          · rw [List.mem_singleton.mp here] at after
            exact halved.after gap (.refl halved.middle.1) (apart' gap after)

end Walks

section Search

variable {Ratio : Type} [LinearOrder Ratio] {build : Build} {scale : ℕ → Ratio → ℕ} {quotient : ℕ → ℕ → Ratio}
  {low high : Ratio} {dir : SplitDir} {ratio : Ratio} {first second node node' : LayoutNode Ratio}
  {area left gap right d : Rect} {layout : Layout} {x y : ℕ}

/-- A split with no room passes the search on to its first side. -/
theorem setDividerAt_narrow (narrow : axis dir area < 3) :
    (split dir ratio first second).setDividerAt build scale quotient low high area d x y =
      (first.setDividerAt build scale quotient low high area d x y).map fun found =>
        (found.1, split dir ratio found.2 second) := by
  cases dir with
  | horizontal =>
    dsimp only [axis] at narrow
    rw [setDividerAt, if_pos narrow]
    cases first.setDividerAt build scale quotient low high area d x y <;> rfl
  | vertical =>
    dsimp only [axis] at narrow
    rw [setDividerAt, if_pos narrow]
    cases first.setDividerAt build scale quotient low high area d x y <;> rfl

/-- The ratio that brings the divider of a split to the pointer. -/
def dragged (quotient : ℕ → ℕ → Ratio) (low high : Ratio) (dir : SplitDir) (area : Rect) (x y : ℕ) : Ratio :=
  max low (min (quotient (max 1 (min (reach dir area x y) (axis dir area - 2))) (axis dir area - 1)) high)

/-- A split with room looks at its own divider, then in its first and in its second side. -/
theorem setDividerAt_split (order : low ≤ high) (room : 3 ≤ axis dir area)
    (cut : sides build dir area (share scale (axis dir area) ratio) = some (left, gap, right)) :
    (split dir ratio first second).setDividerAt build scale quotient low high area d x y =
      if gap = d then some (true, split dir (dragged quotient low high dir area x y) first second)
      else (first.setDividerAt build scale quotient low high left d x y).bind fun found =>
        if found.1 then some (true, split dir ratio found.2 second)
        else (second.setDividerAt build scale quotient low high right d x y).map fun found' =>
          (found'.1, split dir ratio found.2 found'.2) := by
  have shared := clamp_share scale ratio room
  cases dir with
  | horizontal =>
    dsimp only [axis] at room shared cut
    have fits : share scale area.w ratio ≤ area.w - 1 := by
      have := share_le scale ratio room
      omega
    have rest : area.w - 1 - share scale area.w ratio = area.w - share scale area.w ratio - 1 := by omega
    have wanted : clamp (x - area.x) 1 (area.w - 2) = some (max 1 (min (x - area.x) (area.w - 2))) :=
      if_pos (by omega)
    obtain ⟨gapX, sum, more⟩ := Option.bind_eq_some_iff.mp cut
    obtain ⟨secondX, sum', same⟩ := Option.bind_eq_some_iff.mp more
    simp only [Option.pure_def, Option.some.injEq, Prod.mk.injEq] at same
    obtain ⟨rfl, rfl, rfl⟩ := same
    rw [setDividerAt, if_neg (by omega), sub16_of_le build (by omega : 1 ≤ area.w)]
    dsimp only [Option.bind_eq_bind, Option.bind_some]
    rw [sub16_of_le build (by omega : 1 ≤ area.w - 1)]
    dsimp only [Option.bind_some]
    rw [show area.w - 1 - 1 = area.w - 2 from rfl, shared]
    dsimp only [Option.bind_some]
    rw [sum]
    dsimp only [Option.bind_some]
    rw [wanted, sum', sub16_of_le build fits, rest]
    split
    · rw [Option.bind_some, clampRatio, if_pos order]
      rfl
    · cases first.setDividerAt build scale quotient low high
        ⟨area.x, area.y, share scale area.w ratio, area.h⟩ d x y with
      | none => rfl
      | some found =>
        obtain ⟨found, first'⟩ := found
        cases found with
        | true => rfl
        | false =>
          simp only [Option.bind_some, Bool.false_eq_true, if_false]
          cases second.setDividerAt build scale quotient low high
            ⟨secondX, area.y, area.w - share scale area.w ratio - 1, area.h⟩ d x y <;> rfl
  | vertical =>
    dsimp only [axis] at room shared cut
    have fits : share scale area.h ratio ≤ area.h - 1 := by
      have := share_le scale ratio room
      omega
    have rest : area.h - 1 - share scale area.h ratio = area.h - share scale area.h ratio - 1 := by omega
    have wanted : clamp (y - area.y) 1 (area.h - 2) = some (max 1 (min (y - area.y) (area.h - 2))) :=
      if_pos (by omega)
    obtain ⟨gapY, sum, more⟩ := Option.bind_eq_some_iff.mp cut
    obtain ⟨secondY, sum', same⟩ := Option.bind_eq_some_iff.mp more
    simp only [Option.pure_def, Option.some.injEq, Prod.mk.injEq] at same
    obtain ⟨rfl, rfl, rfl⟩ := same
    rw [setDividerAt, if_neg (by omega), sub16_of_le build (by omega : 1 ≤ area.h)]
    dsimp only [Option.bind_eq_bind, Option.bind_some]
    rw [sub16_of_le build (by omega : 1 ≤ area.h - 1)]
    dsimp only [Option.bind_some]
    rw [show area.h - 1 - 1 = area.h - 2 from rfl, shared]
    dsimp only [Option.bind_some]
    rw [sum]
    dsimp only [Option.bind_some]
    rw [wanted, sum', sub16_of_le build fits, rest]
    split
    · rw [Option.bind_some, clampRatio, if_pos order]
      rfl
    · cases first.setDividerAt build scale quotient low high
        ⟨area.x, area.y, area.w, share scale area.h ratio⟩ d x y with
      | none => rfl
      | some found =>
        obtain ⟨found, first'⟩ := found
        cases found with
        | true => rfl
        | false =>
          simp only [Option.bind_some, Bool.false_eq_true, if_false]
          cases second.setDividerAt build scale quotient low high
            ⟨area.x, secondY, area.w, area.h - share scale area.h ratio - 1⟩ d x y <;> rfl

/-- One split of the tree, which draws a divider at `d`, has another ratio, and what is laid out before and after the
layout of that split stays as it is. -/
def Dragged (build : Build) (scale : ℕ → Ratio → ℕ) (low high : Ratio) (area d : Rect) (layout : Layout)
    (node node' : LayoutNode Ratio) : Prop :=
  ∃ (frames : List (Frame Ratio)) (dir : SplitDir) (ratio ratio' : Ratio) (first second : LayoutNode Ratio)
    (within : Rect), node = plug frames (split dir ratio first second) ∧
      node' = plug frames (split dir ratio' first second) ∧ (low ≤ ratio' ∧ ratio' ≤ high) ∧
        drawn build scale dir ratio within = some d ∧ ∃ before inner after : Layout,
          (split dir ratio first second).compute build scale within = some inner ∧ inner.Inside within ∧
            layout = (before.append inner).append after ∧
              ∀ layout', node'.compute build scale area = some layout' → ∃ inner' : Layout,
                (split dir ratio' first second).compute build scale within = some inner' ∧ inner'.Inside within ∧
                  layout' = (before.append inner').append after

private theorem dragged_bounds (order : low ≤ high) :
    low ≤ dragged quotient low high dir area x y ∧ dragged quotient low high dir area x y ≤ high :=
  ⟨le_max_left .., max_le order (min_le_right ..)⟩

/-- The split itself draws the divider. -/
theorem dragged_here (order : low ≤ high) (sized : area.Sized) (room : 3 ≤ axis dir area)
    (cut : sides build dir area (share scale (axis dir area) ratio) = some (left, gap, right))
    (laid : (split dir ratio first second).compute build scale area = some layout) :
    Dragged build scale low high area gap layout (split dir ratio first second)
      (split dir (dragged quotient low high dir area x y) first second) := by
  refine ⟨[], dir, ratio, _, first, second, area, rfl, rfl, dragged_bounds order, ?_, {}, layout, {}, laid,
    (compute_inside sized laid).1, ?_, fun layout' laid' => ⟨layout', laid', (compute_inside sized laid').1, ?_⟩⟩
  · rw [drawn, if_neg (by omega), cut]
    rfl
  · simp [Layout.append]
  · simp [Layout.append]

variable {one other : Layout}

/-- A split with no room passes a drag in its first side on. -/
theorem Dragged.narrow (narrow : axis dir area < 3) (drag : Dragged build scale low high area d layout node node') :
    Dragged build scale low high area d layout (split dir ratio node second) (split dir ratio node' second) := by
  obtain ⟨frames, dir', r, r', a, b, within, rfl, rfl, bounds, draws, before, inner, after, laid, inside, same, again⟩ :=
    drag
  refine ⟨.first dir ratio second :: frames, dir', r, r', a, b, within, rfl, rfl, bounds, draws, before, inner, after,
    laid, inside, same, fun layout' laid' => again layout' ?_⟩
  rwa [compute_narrow narrow] at laid'

/-- A drag in the first side leaves the divider and the second side alone. -/
theorem Dragged.inFirst (room : 3 ≤ axis dir area)
    (cut : sides build dir area (share scale (axis dir area) ratio) = some (left, gap, right))
    (laid : second.compute build scale right = some other) (drag : Dragged build scale low high left d one node node') :
    Dragged build scale low high area d ((one.pushDivider dir gap).append other) (split dir ratio node second)
      (split dir ratio node' second) := by
  obtain ⟨frames, dir', r, r', a, b, within, rfl, rfl, bounds, draws, before, inner, after, laid', inside, rfl, again⟩ :=
    drag
  have regroup (inner : Layout) : (((before.append inner).append after).pushDivider dir gap).append other =
      (before.append inner).append ((after.pushDivider dir gap).append other) := by
    simp [Layout.append, Layout.pushDivider]
  refine ⟨.first dir ratio second :: frames, dir', r, r', a, b, within, rfl, rfl, bounds, draws, before, inner,
    (after.pushDivider dir gap).append other, laid', inside, regroup inner, fun layout' laid'' => ?_⟩
  obtain ⟨left', gap', right', one', other', cut', laidOne, laidOther, rfl⟩ := (compute_split_eq_some room).mp laid''
  rw [cut, Option.some.injEq, Prod.mk.injEq, Prod.mk.injEq] at cut'
  obtain ⟨rfl, rfl, rfl⟩ := cut'
  rw [laid, Option.some.injEq] at laidOther
  obtain ⟨inner', relaid, inside', rfl⟩ := again one' laidOne
  exact ⟨inner', relaid, inside', laidOther ▸ regroup inner'⟩

/-- A drag in the second side leaves the first side and the divider alone. -/
theorem Dragged.inSecond (room : 3 ≤ axis dir area)
    (cut : sides build dir area (share scale (axis dir area) ratio) = some (left, gap, right))
    (laid : first.compute build scale left = some one) (drag : Dragged build scale low high right d other node node') :
    Dragged build scale low high area d ((one.pushDivider dir gap).append other) (split dir ratio first node)
      (split dir ratio first node') := by
  obtain ⟨frames, dir', r, r', a, b, within, rfl, rfl, bounds, draws, before, inner, after, laid', inside, rfl, again⟩ :=
    drag
  have regroup (inner : Layout) : (one.pushDivider dir gap).append ((before.append inner).append after) =
      (((one.pushDivider dir gap).append before).append inner).append after := by
    simp [Layout.append]
  refine ⟨.second dir ratio first :: frames, dir', r, r', a, b, within, rfl, rfl, bounds, draws,
    (one.pushDivider dir gap).append before, inner, after, laid', inside, regroup inner, fun layout' laid'' => ?_⟩
  obtain ⟨left', gap', right', one', other', cut', laidOne, laidOther, rfl⟩ := (compute_split_eq_some room).mp laid''
  rw [cut, Option.some.injEq, Prod.mk.injEq, Prod.mk.injEq] at cut'
  obtain ⟨rfl, rfl, rfl⟩ := cut'
  rw [laid, Option.some.injEq] at laidOne
  obtain ⟨inner', relaid, inside', rfl⟩ := again other' laidOther
  exact ⟨inner', relaid, inside', laidOne ▸ regroup inner'⟩

/-- What the search for a divider comes to in an area that is laid out. -/
def Searched (build : Build) (scale : ℕ → Ratio → ℕ) (low high : Ratio) (area d : Rect) (layout : Layout)
    (node : LayoutNode Ratio) (result : Bool × LayoutNode Ratio) : Prop :=
  (result.1 = true ↔ ∃ divider ∈ layout.dividers, divider.rect = d) ∧ (result.1 = false → result.2 = node) ∧
    (result.1 = true → Dragged build scale low high area d layout node result.2)

private theorem setDividerAt_searched (order : low ≤ high) (sized : area.Sized)
    (laid : node.compute build scale area = some layout) :
    ∃ result, node.setDividerAt build scale quotient low high area d x y = some result ∧
      Searched build scale low high area d layout node result := by
  induction node generalizing area layout with
  | leaf id =>
    obtain rfl := Option.some.inj laid
    exact ⟨_, rfl, by simp [Layout.pushPane], fun _ => rfl, fun found => Bool.noConfusion found⟩
  | split dir ratio first second ihFirst ihSecond =>
    rcases Nat.lt_or_ge (axis dir area) 3 with narrow | room
    · rw [compute_narrow narrow] at laid
      obtain ⟨⟨found, first'⟩, searched, iff, kept, drag⟩ := ihFirst sized laid
      rw [setDividerAt_narrow narrow, searched]
      refine ⟨_, rfl, iff, fun missed => ?_, fun found => (drag found).narrow narrow⟩
      have same : first' = first := kept missed
      rw [same]
    · obtain ⟨left, gap, right, one, other, cut, laidOne, laidOther, same⟩ := (compute_split_eq_some room).mp laid
      have halved := halved_of_sides sized room cut
      have drawnHere : (⟨dir, gap⟩ : Divider) ∈ layout.dividers := by
        rw [same]
        exact List.mem_append_left _ (List.mem_append_right _ (List.mem_singleton_self _))
      rw [setDividerAt_split order room cut]
      by_cases here : gap = d
      · rw [if_pos here]
        subst here
        exact ⟨_, rfl, ⟨fun _ => ⟨_, drawnHere, rfl⟩, fun _ => rfl⟩, fun found => Bool.noConfusion found,
          fun _ => dragged_here order sized room cut laid⟩
      · rw [if_neg here]
        obtain ⟨⟨found, first'⟩, searched, iff, kept, drag⟩ := ihFirst halved.first.1 laidOne
        obtain ⟨⟨found', second'⟩, searched', iff', kept', drag'⟩ := ihSecond halved.second.1 laidOther
        have dividers : layout.dividers = one.dividers ++ [⟨dir, gap⟩] ++ other.dividers := by rw [same]; rfl
        have either : (∃ divider ∈ layout.dividers, divider.rect = d) ↔
            (∃ divider ∈ one.dividers, divider.rect = d) ∨ ∃ divider ∈ other.dividers, divider.rect = d := by
          rw [dividers]
          simp only [List.mem_append, List.mem_singleton, or_and_right, exists_or, exists_eq_left, here, or_false]
        rw [searched]
        dsimp only [Option.bind_some]
        dsimp only at iff kept drag iff' kept' drag'
        cases found with
        | true =>
          refine ⟨_, if_pos rfl, ⟨fun _ => either.mpr (.inl (iff.mp rfl)), fun _ => rfl⟩,
            fun missed => Bool.noConfusion missed, fun _ => ?_⟩
          rw [same]
          exact (drag rfl).inFirst room cut laidOther
        | false =>
          obtain rfl : first' = first := kept rfl
          rw [if_neg Bool.false_ne_true, searched']
          refine ⟨_, rfl, ?_, fun missed => ?_, fun found => ?_⟩
          · rw [either]
            exact iff'.trans ⟨.inr, fun some => some.resolve_left fun inFirst => Bool.false_ne_true (iff.mpr inFirst)⟩
          · have same : second' = second := kept' missed
            rw [same]
          · rw [same]
            exact (drag' found).inSecond room cut laidOne

/-- A divider is found exactly when it is drawn, and no two are drawn at one place; a search that fails changes
nothing, and one that succeeds changes the ratio of one split, within its bounds, and nothing that is laid out
around its area. Where nothing overflows the layout is there, and a release build always has one. -/
theorem setDividerAt_local (scale : ℕ → Ratio → ℕ) (quotient : ℕ → ℕ → Ratio) (order : low ≤ high)
    (node : LayoutNode Ratio) (sized : area.Sized) (d : Rect) (x y : ℕ) :
    (∃ layout, node.compute .release scale area = some layout) ∧
      ∀ build layout, node.compute build scale area = some layout →
        (layout.dividers.map Divider.rect).Nodup ∧
          ∃ result, node.setDividerAt build scale quotient low high area d x y = some result ∧
            Searched build scale low high area d layout node result :=
  ⟨compute_release node area, fun _ _ laid =>
    ⟨(compute_inside sized laid).2, setDividerAt_searched order sized laid⟩⟩

/-- A pane beside two others on top of each other. -/
def besideTwo : LayoutNode ℕ := split .horizontal 1 (leaf 1) (split .vertical 1 (leaf 2) (leaf 3))

/-- The divider between the upper and the lower pane is found, and the first pane is laid out as before. -/
theorem setDividerAt_local_nested :
    ∃ result, besideTwo.setDividerAt .checked (fun avail _ => avail / 2) (fun wanted _ => wanted) 1 9 ⟨0, 0, 9, 9⟩
        ⟨5, 4, 4, 1⟩ 6 6 = some result ∧ result.1 = true ∧ result.2 ≠ besideTwo ∧
      Searched .checked (fun avail _ => avail / 2) 1 9 ⟨0, 0, 9, 9⟩ ⟨5, 4, 4, 1⟩
        ⟨[(1, ⟨0, 0, 4, 9⟩), (2, ⟨5, 0, 4, 4⟩), (3, ⟨5, 5, 4, 4⟩)],
          [⟨.horizontal, ⟨4, 0, 1, 9⟩⟩, ⟨.vertical, ⟨5, 4, 4, 1⟩⟩]⟩ besideTwo result := by
  have sized : Rect.Sized ⟨0, 0, 9, 9⟩ := ⟨by decide, by decide, by decide, by decide, by decide, by decide⟩
  obtain ⟨-, found⟩ := setDividerAt_local (fun avail _ => avail / 2) (fun wanted _ => wanted)
    (by decide : (1 : ℕ) ≤ 9) besideTwo sized ⟨5, 4, 4, 1⟩ 6 6
  obtain ⟨-, result, searched, held⟩ := found .checked _ rfl
  have moved : besideTwo.setDividerAt .checked (fun avail _ => avail / 2) (fun wanted _ => wanted) 1 9 ⟨0, 0, 9, 9⟩
      ⟨5, 4, 4, 1⟩ 6 6 = some (true, split .horizontal 1 (leaf 1) (split .vertical 6 (leaf 2) (leaf 3))) := rfl
  obtain rfl := Option.some.inj (searched.symm.trans moved)
  exact ⟨_, moved, rfl, by simp [besideTwo], held⟩

end Search

end Uniterm.Model.Workspace
