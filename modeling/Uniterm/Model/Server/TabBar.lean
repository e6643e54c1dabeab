import Uniterm.Model.Word
import Uniterm.Model.Workspace.Layout

/-! # The tab bar

The control for a new tab is fixed at the right end of the bar. While every tab has eight cells they share the rest
equally; otherwise two scroll controls stand around a viewport of tabs that are eight cells wide. Columns are 16 bits
wide, counts are natural numbers.
-/

namespace Uniterm.Model.Server

open Workspace

/-- The column right of a rectangle. -/
def right (build : Build) (rect : Rect) : Option ℕ := add16 build rect.x rect.w

/-- One visible tab. -/
structure TabSlot where
  item : ℕ
  rect : Rect
deriving DecidableEq, Repr

/-- Complete geometry of the bar. -/
structure TabBarLayout where
  scroll : ℕ := 0
  tabs : List TabSlot := []
  scrollLeft : Option Rect := none
  scrollRight : Option Rect := none
  newTab : Option Rect := none
  hiddenBefore : Bool := false
  hiddenAfter : Bool := false
deriving DecidableEq, Repr

end Uniterm.Model.Server
