import Mathlib.Order.Lattice
import Uniterm.Model.Word

/-! # Layout trees

How panes tile a window: a binary tree of splits with pane leaves, laid into an area as its splits say,
by halving what is left, or as columns of a scrolled row. Coordinates are `u16` and what rounding makes
of a ratio is a parameter.
-/

namespace Uniterm.Model.Workspace

open Model

abbrev PaneId := ℕ

structure Rect where
  x : ℕ
  y : ℕ
  w : ℕ
  h : ℕ
deriving DecidableEq, Repr

inductive SplitDir where
  | horizontal | vertical
deriving DecidableEq, Repr

inductive LayoutNode (Ratio : Type) where
  | leaf (id : PaneId)
  | split (dir : SplitDir) (ratio : Ratio) (first second : LayoutNode Ratio)
deriving Repr

structure Divider where
  dir : SplitDir
  rect : Rect
deriving DecidableEq, Repr

/-- Where each pane is, and the dividers between them. -/
structure Layout where
  panes : List (PaneId × Rect) := []
  dividers : List Divider := []
deriving DecidableEq, Repr

inductive PaneLayout where
  | split | dwindle | scrolling
deriving DecidableEq, Repr

def Layout.pushPane (out : Layout) (id : PaneId) (rect : Rect) : Layout :=
  { out with panes := out.panes ++ [(id, rect)] }

def Layout.pushDivider (out : Layout) (dir : SplitDir) (rect : Rect) : Layout :=
  { out with dividers := out.dividers ++ [⟨dir, rect⟩] }

/-- `u16::clamp`, which asserts that its bounds are in order. -/
def clamp (value low high : ℕ) : Option ℕ :=
  if low ≤ high then some (max low (min value high)) else none

namespace LayoutNode

variable {Ratio : Type}

/-- `collect`: the panes from left to right. -/
def paneIds : LayoutNode Ratio → List PaneId
  | leaf id => [id]
  | split _ _ first second => first.paneIds ++ second.paneIds

def firstPane : LayoutNode Ratio → PaneId
  | leaf id => id
  | split _ _ first _ => first.firstPane

def containsPane (id : PaneId) : LayoutNode Ratio → Bool
  | leaf pane => pane == id
  | split _ _ first second => first.containsPane id || second.containsPane id

variable (build : Build) (scale : ℕ → Ratio → ℕ)

/-- Lay the tree into an area. `scale avail ratio` is `(avail as f32 * ratio).round() as u16`. -/
def walk : LayoutNode Ratio → Rect → Layout → Option Layout
  | leaf id, area, out => some (out.pushPane id area)
  | split .horizontal ratio first second, area, out =>
    -- too narrow to divide
    if area.w < 3 then first.walk area out
    else do
      let avail ← sub16 build area.w 1
      let w1 ← clamp (scale avail ratio) 1 (← sub16 build avail 1)
      let w2 ← sub16 build avail w1
      let out ← first.walk ⟨area.x, area.y, w1, area.h⟩ out
      let dividerX ← add16 build area.x w1
      let out := out.pushDivider .horizontal ⟨dividerX, area.y, 1, area.h⟩
      let secondX ← add16 build (← add16 build area.x w1) 1
      second.walk ⟨secondX, area.y, w2, area.h⟩ out
  | split .vertical ratio first second, area, out =>
    if area.h < 3 then first.walk area out
    else do
      let avail ← sub16 build area.h 1
      let h1 ← clamp (scale avail ratio) 1 (← sub16 build avail 1)
      let h2 ← sub16 build avail h1
      let out ← first.walk ⟨area.x, area.y, area.w, h1⟩ out
      let dividerY ← add16 build area.y h1
      let out := out.pushDivider .vertical ⟨area.x, dividerY, area.w, 1⟩
      let secondY ← add16 build (← add16 build area.y h1) 1
      second.walk ⟨area.x, secondY, area.w, h2⟩ out

def compute (node : LayoutNode Ratio) (area : Rect) : Option Layout := node.walk build scale area {}

end LayoutNode

/-- `f32::clamp` of a ratio that is a number. -/
def clampRatio {Ratio : Type} [LinearOrder Ratio] (value low high : Ratio) : Option Ratio :=
  if low ≤ high then some (max low (min value high)) else none

/-- Outcome of walking the tree during a resize. -/
inductive Resize where
  /-- The target is not in this subtree. -/
  | absent
  /-- The target is found, and no matching split has adjusted yet. -/
  | found
  /-- A matching split adjusted its ratio. -/
  | handled
deriving DecidableEq, Repr

namespace LayoutNode

section Edits

variable {Ratio : Type}

/-- `split`: whether the target was found, and the tree with its leaf split in place. -/
def splitInPlace (half : Ratio) (target : PaneId) (dir : SplitDir) (pane : PaneId) :
    LayoutNode Ratio → Bool × LayoutNode Ratio
  | leaf id => if id = target then (true, split dir half (leaf id) (leaf pane)) else (false, leaf id)
  | split d ratio first second =>
    let (found, first) := first.splitInPlace half target dir pane
    if found then (true, split d ratio first second)
    else
      let (found, second) := second.splitInPlace half target dir pane
      (found, split d ratio first second)

/-- Nudge the nearest split of an orientation above the target. `nudge ratio` is
`(ratio + delta).clamp(0.1, 0.9)`. -/
def resizeInner (nudge : Ratio → Ratio) (target : PaneId) (orient : SplitDir) :
    LayoutNode Ratio → Resize × LayoutNode Ratio
  | leaf id => (if id = target then .found else .absent, leaf id)
  | split dir ratio first second =>
    let (r, first) := first.resizeInner nudge target orient
    let (r, second) := if r = .absent then second.resizeInner nudge target orient else (r, second)
    if r = .found ∧ dir = orient then (.handled, split dir (nudge ratio) first second)
    else (r, split dir ratio first second)

def resizePane (nudge : Ratio → Ratio) (target : PaneId) (orient : SplitDir) (node : LayoutNode Ratio) :
    Bool × LayoutNode Ratio :=
  let (r, node) := node.resizeInner nudge target orient
  (r == .handled, node)

end Edits

section Dragging

variable {Ratio : Type} [LinearOrder Ratio] (build : Build) (scale : ℕ → Ratio → ℕ) (quotient : ℕ → ℕ → Ratio)
  (low high : Ratio)

/-- Drag the divider drawn at a rectangle to the pointer. `quotient wanted avail` is
`f32::from(wanted) / f32::from(avail)`, and the bounds are 0.1 and 0.9. -/
def setDividerAt : LayoutNode Ratio → (area divider : Rect) → (x y : ℕ) → Option (Bool × LayoutNode Ratio)
  | leaf id, _, _, _, _ => some (false, leaf id)
  | split .horizontal ratio first second, area, divider, x, y =>
    if area.w < 3 then do
      let (found, first) ← first.setDividerAt area divider x y
      return (found, split .horizontal ratio first second)
    else do
      let avail ← sub16 build area.w 1
      let w1 ← clamp (scale avail ratio) 1 (← sub16 build avail 1)
      let here : Rect := ⟨← add16 build area.x w1, area.y, 1, area.h⟩
      if here = divider then
        let wanted ← clamp (x - area.x) 1 (← sub16 build avail 1)
        let ratio ← clampRatio (quotient wanted avail) low high
        return (true, split .horizontal ratio first second)
      let (found, first) ← first.setDividerAt ⟨area.x, area.y, w1, area.h⟩ divider x y
      if found then return (true, split .horizontal ratio first second)
      let secondX ← add16 build (← add16 build area.x w1) 1
      let w2 ← sub16 build avail w1
      let (found, second) ← second.setDividerAt ⟨secondX, area.y, w2, area.h⟩ divider x y
      return (found, split .horizontal ratio first second)
  | split .vertical ratio first second, area, divider, x, y =>
    if area.h < 3 then do
      let (found, first) ← first.setDividerAt area divider x y
      return (found, split .vertical ratio first second)
    else do
      let avail ← sub16 build area.h 1
      let h1 ← clamp (scale avail ratio) 1 (← sub16 build avail 1)
      let here : Rect := ⟨area.x, ← add16 build area.y h1, area.w, 1⟩
      if here = divider then
        let wanted ← clamp (y - area.y) 1 (← sub16 build avail 1)
        let ratio ← clampRatio (quotient wanted avail) low high
        return (true, split .vertical ratio first second)
      let (found, first) ← first.setDividerAt ⟨area.x, area.y, area.w, h1⟩ divider x y
      if found then return (true, split .vertical ratio first second)
      let secondY ← add16 build (← add16 build area.y h1) 1
      let h2 ← sub16 build avail h1
      let (found, second) ← second.setDividerAt ⟨area.x, secondY, area.w, h2⟩ divider x y
      return (found, split .vertical ratio first second)

end Dragging

end LayoutNode

def scrollingColumns (width : ℕ) : ℕ := if width ≥ 49 then 2 else 1

/-- Halve what is left for the next pane, along its longer visual axis. -/
def dwindle (build : Build) : List PaneId → Rect → PaneId → Layout → Option Layout
  | [], _, _, out => some out
  | id :: rest, area, active, out =>
    if rest = [] ∨ area.w < 3 ∧ area.h < 3 then
      some (out.pushPane (((id :: rest).find? (· == active)).getD id) area)
    else if area.w ≥ 3 ∧ (area.h < 3 ∨ area.w ≥ area.h * 2) then do
      let first := (area.w - 1) / 2
      let secondX ← add16 build (← add16 build area.x first) 1
      let secondW ← sub16 build (← sub16 build area.w first) 1
      let dividerX ← add16 build area.x first
      let out := out.pushPane id ⟨area.x, area.y, first, area.h⟩
      let out := out.pushDivider .horizontal ⟨dividerX, area.y, 1, area.h⟩
      dwindle build rest ⟨secondX, area.y, secondW, area.h⟩ active out
    else do
      let first := (area.h - 1) / 2
      let secondY ← add16 build (← add16 build area.y first) 1
      let secondH ← sub16 build (← sub16 build area.h first) 1
      let dividerY ← add16 build area.y first
      let out := out.pushPane id ⟨area.x, area.y, area.w, first⟩
      let out := out.pushDivider .vertical ⟨area.x, dividerY, area.w, 1⟩
      dwindle build rest ⟨area.x, secondY, area.w, secondH⟩ active out

/-- The scroll origin that keeps the selected column in view. -/
def scrollTo (count visible selected scroll : ℕ) : ℕ :=
  let scroll := min scroll (count - visible)
  let scroll := if selected < scroll then selected else scroll
  if selected ≥ scroll + visible then selected + 1 - visible else scroll

/-- The columns of a scrolled row that are in view, of which there are at most two. -/
def columns (build : Build) (area : Rect) : List PaneId → Option Layout
  | [id] => some (({} : Layout).pushPane id area)
  | [left, right] => do
    let width := (area.w - 1) / 2
    let out := ({} : Layout).pushPane left ⟨area.x, area.y, width, area.h⟩
    let dividerX ← add16 build area.x width
    let out := out.pushDivider .horizontal ⟨dividerX, area.y, 1, area.h⟩
    let rightX ← add16 build (← add16 build area.x width) 1
    let rightW ← sub16 build (← sub16 build area.w width) 1
    return out.pushPane right ⟨rightX, area.y, rightW, area.h⟩
  | _ => some {}

/-- Arrange the panes of a tree, and move the scroll origin. -/
def LayoutNode.computeMode {Ratio : Type} (build : Build) (scale : ℕ → Ratio → ℕ)
    (node : LayoutNode Ratio) (area : Rect) (mode : PaneLayout) (active : PaneId) (scroll : ℕ) :
    Option (Layout × ℕ) :=
  match mode with
  | .split => (node.compute build scale area).map (·, scroll)
  | .dwindle => (dwindle build node.paneIds area active {}).map (·, scroll)
  | .scrolling =>
    let ids := node.paneIds
    let visible := scrollingColumns area.w
    let selected := (ids.findIdx? (· == active)).getD 0
    let scroll := scrollTo ids.length visible selected scroll
    let shown := (ids.take (min ids.length (scroll + visible))).drop scroll
    (columns build area shown).map (·, scroll)

/-- The loop that both callers run: the first column count from a start on whose square is enough. -/
def enoughColumns (n : ℕ) : (fuel cols : ℕ) → ℕ
  | 0, cols => cols
  | fuel + 1, cols => if cols * cols < n then enoughColumns n fuel (cols + 1) else cols

def overviewCols (n : ℕ) : ℕ := enoughColumns n n 1

/-- One row of tiles from a column on, and the number of tiles placed so far. -/
def tileColumns (build : Build) (n y h : ℕ) (colW : ℕ → Option ℕ) :
    List ℕ → (x i : ℕ) → Option (List Rect × ℕ)
  | [], _, i => some ([], i)
  | c :: cs, x, i =>
    if i ≥ n then some ([], i)
    else do
      let w ← colW c
      let (tiles, i) ← tileColumns build n y h colW cs (← add16 build x w) (i + 1)
      return (⟨x, y, w, h⟩ :: tiles, i)

/-- The rows of tiles from a row on. -/
def tileRows (build : Build) (n x cols : ℕ) (colW rowH : ℕ → Option ℕ) : List ℕ → (y i : ℕ) → Option (List Rect)
  | [], _, _ => some []
  | r :: rs, y, i => do
    let h ← rowH r
    let (row, i) ← tileColumns build n y h colW (List.range cols) x i
    return row ++ (← tileRows build n x cols colW rowH rs (← add16 build y h) i)

/-- The extent of one column or row: the remainder is spread over the leading ones. -/
def tileExtent (build : Build) (extent count index : ℕ) : Option ℕ :=
  add16 build (extent / count) (if index < extent % count then 1 else 0)

/-- Tile rectangles for an overview of `n` windows. -/
def overviewTiles (build : Build) (area : Rect) (n : ℕ) : Option (List Rect) :=
  if n = 0 ∨ area.w = 0 ∨ area.h = 0 then some []
  else
    let cols := overviewCols n
    let rows := (n + cols - 1) / cols
    -- `cols as u16` and `rows as u16` divide, so neither may be zero
    if cols % 65536 = 0 ∨ rows % 65536 = 0 then none
    else tileRows build n area.x cols (tileExtent build area.w (cols % 65536)) (tileExtent build area.h (rows % 65536))
      (List.range rows) area.y 0

end Uniterm.Model.Workspace
