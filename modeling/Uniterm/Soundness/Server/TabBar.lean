import Mathlib.Order.Monotone.Basic
import Uniterm.Model.Server.TabBar
import Uniterm.ToMathlib.MapAccum

/-! # The geometry of the tab bar

No sum of the layout leaves 16 bits. Equal shares tile everything left of the control for a new tab; between scroll
controls, tabs of eight cells follow each other and only the last one shown can be cut.
-/

namespace Uniterm.Model.Server

open Machine ToMathlib Workspace

section Scrolling

variable {count active requestedScroll visible : ℕ} {follow : Bool}

end Scrolling

section Shares

/-- The width of a share of a strip. -/
def share (width count index : ℕ) : ℕ := width / count + if index < width % count then 1 else 0

variable {width count : ℕ}

end Shares

section Bars

variable {area : Rect} {count : ℕ}

/-- Whether every tab has eight cells. -/
def Roomy (area : Rect) (count : ℕ) : Prop := count = 0 ∨ count ≤ (area.w - 3) / 8

variable (build : Build) (active requestedScroll : ℕ) (follow : Bool)

end Bars

section Geometry

/-- The controls of a bar. -/
def TabBarLayout.controls (bar : TabBarLayout) : List Rect :=
  bar.scrollLeft.toList ++ bar.scrollRight.toList ++ bar.newTab.toList

/-- A tab is shown at full width between scroll controls. -/
def TabBarLayout.Shows (bar : TabBarLayout) (item : ℕ) : Prop := ∃ slot ∈ bar.tabs, slot.item = item ∧ slot.rect.w = 8

/-- Two rectangles of one row have no column in common. -/
def Apart (r s : Rect) : Prop := r.x + r.w ≤ s.x ∨ s.x + s.w ≤ r.x

variable {area : Rect} {count scroll : ℕ}

end Geometry

section Layouts

variable {area : Rect} {count : ℕ} (active requestedScroll : ℕ) (follow : Bool)

end Layouts

end Uniterm.Model.Server
