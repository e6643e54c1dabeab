import Uniterm.Model.Grid.Basic
import Uniterm.Model.Word

/-! # Editing operations and damage

Every edit of a visible cell goes through `set`, which records the column as damaged. Whole-grid
scrolls are tracked separately: `scrollUp` rotates the damage with the rows and counts the scroll in
`pendingScrollUp`, so that a client can shift its picture instead of repainting it.
-/

namespace Uniterm.Model.Grid

def fullRow (g : Grid) : RowDamage := { dirty := true, lo := 0, hi := g.width - 1 }

def markDamage (g : Grid) (x y : ℕ) : Grid :=
  { g with
    damage := g.damage.modify y fun row =>
      if row.dirty then { row with lo := min row.lo x, hi := max row.hi x }
      else { dirty := true, lo := x, hi := x }
    anyDamage := true }

/-- Low-level cell assignment for moves within this same grid. -/
def set (g : Grid) (x y : ℕ) (cell : Cell) : Grid :=
  if x ≥ g.width ∨ y ≥ g.height then g
  else if g.get x y = cell then g
  else { g with lines := g.lines.modify y fun line => { line with cells := line.cells.set x cell } }
    |>.markDamage x y

/-- Clear a cell and the other half of any wide glyph occupying it. -/
def clearGlyphAt (g : Grid) (x y : ℕ) (blank : Cell) : Grid :=
  if x ≥ g.width ∨ y ≥ g.height then g
  else
    let cell := g.get x y
    if cell.isContinuation ∧ x > 0 then (g.set (x - 1) y blank).set x y blank
    else
      let g := g.set x y blank
      if cell.width = 2 ∧ x + 1 < g.width then g.set (x + 1) y blank else g

/-- The erase loop. The column is 16 bits wide, so a lead that claims more columns than remain wraps
it around; the bound is beyond every run that terminates on cells of at most two columns. -/
def eraseLoop (build : Build) (y stop : ℕ) (blank : Cell) : ℕ → ℕ → Grid → Option Grid
  | 0, _, _ => none
  | fuel + 1, x, g =>
    if x < stop then do
      let following ← add16 build x (max (g.get x y).displayWidth 1)
      eraseLoop build y stop blank fuel following (g.clearGlyphAt x y blank)
    else some g

/-- Erase a half-open range, expanding across either half of a wide glyph. -/
def eraseCells (build : Build) (g : Grid) (y first stop : ℕ) (blank : Cell) : Option Grid :=
  if y ≥ g.height then some g
  else eraseLoop build y (min stop g.width) blank 131072 (min first g.width) g

/-- Replace every wide half that lost its other half. -/
def repairWideRow (g : Grid) (y : ℕ) (blank : Cell) : Grid :=
  (List.range g.width).foldl (fun g x =>
    let cell := g.get x y
    if cell.isContinuation then
      if x > 0 ∧ (g.get (x - 1) y).width = 2 then g else g.set x y blank
    else if cell.width = 2 then
      if x + 1 < g.width ∧ (g.get (x + 1) y).isContinuation then g else g.set x y blank
    else g) g

/-- Delete display columns and repair any wide glyph cut by the boundary. -/
def deleteCells (build : Build) (g : Grid) (y first count : ℕ) (blank : Cell) : Option Grid :=
  if y ≥ g.height ∨ first ≥ g.width ∨ count = 0 then some g
  else do
    let count := min count (g.width - first)
    let g ← (List.range' first (g.width - first)).foldlM (fun (g : Grid) x => do
      let source ← add16 build x count
      some (g.set x y (if source < g.width then g.get source y else blank))) g
    some (g.repairWideRow y blank)

/-- Insert display columns and repair any wide glyph cut by the boundary. -/
def insertCells (g : Grid) (y first count : ℕ) (blank : Cell) : Grid :=
  if y ≥ g.height ∨ first ≥ g.width ∨ count = 0 then g
  else
    let count := min count (g.width - first)
    let g := (List.range' first (g.width - first)).reverse.foldl (fun (g : Grid) x =>
      g.set x y (if x ≥ first + count then g.get (x - count) y else blank)) g
    g.repairWideRow y blank

/-- Clear the one or two columns that a glyph is about to occupy. -/
def clearColumns (g : Grid) (x y width : ℕ) (blank : Cell) : Grid :=
  let g := g.clearGlyphAt x y blank
  if width = 2 then g.clearGlyphAt (x + 1) y blank else g

/-- A single codepoint needs no arena entry. -/
def textHandle (g : Grid) (text : Text) : Grid × ℕ := if text.length > 1 then g.intern text else (g, 0)

/-- Assign a lead cell and, for a wide glyph, its continuation. -/
def writeGlyph (g : Grid) (x y : ℕ) (lead : Cell) : Grid :=
  let g := g.set x y lead
  if lead.width = 2 then g.set (x + 1) y lead.continuation else g

/-- Write one complete grapheme with a display width of one or two cells. -/
def setGrapheme (g : Grid) (x y : ℕ) (text : Text) (cell : Cell) (width : ℕ) : Grid :=
  let width := max 1 (min width 2)
  if x ≥ g.width ∨ y ≥ g.height then g
  else if width = 2 ∧ x + 1 ≥ g.width then g
  else
    let (g, cluster) :=
      (g.clearColumns x y width { fg := cell.fg, bg := cell.bg }).textHandle text
    g.writeGlyph x y { cell with ch := text.headD ' ', width, cluster }

section Unicode

variable (u : Unicode)

/-- Whether appending a character to this lead cell remains a single grapheme. -/
def graphemeExtends (g : Grid) (cell : Cell) (ch : Char) : Bool :=
  !cell.isContinuation && u.graphemes (g.cellTextOwned cell ++ [ch]) == 1

/-- Extend a previously written grapheme and repair its continuation width. -/
def appendToGrapheme (g : Grid) (x y : ℕ) (ch : Char) : Grid × Bool :=
  if x ≥ g.width ∨ y ≥ g.height then (g, false)
  else
    let leadX := if (g.get x y).isContinuation ∧ x > 0 then x - 1 else x
    let cell := g.get leadX y
    if g.graphemeExtends u cell ch then
      let text := g.cellTextOwned cell ++ [ch]
      (g.setGrapheme leadX y text cell (u.glyphWidth text), true)
    else (g, false)

end Unicode

def markRowsDamaged (g : Grid) (top bottom : ℕ) : Grid :=
  if g.width = 0 then g
  else
    { g with
      damage := g.damage.mapIdx fun y row => if top ≤ y ∧ y ≤ bottom then g.fullRow else row
      anyDamage := true }

def pushScrollback (g : Grid) (departing : Line) : Grid :=
  if g.scrollbackLimit = 0 then g
  else { g with scrollback := keepNewest g.scrollbackLimit (g.scrollback ++ [departing]) }

/-- Scroll the whole screen up, preserving the departing line in history. -/
def scrollUp (g : Grid) (blank : Cell) : Grid :=
  match g.lines with
  | [] => g
  | departing :: rest =>
    let replacement := Line.blank g.width blank g.nextLineId
    let g := { g with nextLineId := g.nextLineId + 1, lines := rest }.pushScrollback
      departing.trimDefaultTail
    { g with
      lines := g.lines ++ [replacement]
      damage := match g.damage with
        | [] => []
        | _ :: rows => rows ++ [RowDamage.clean]
      -- The height bounds the count below the 16-bit saturation of the source.
      pendingScrollUp := min (g.pendingScrollUp + 1) g.height }
      |>.markRowsDamaged (g.height - 1) (g.height - 1)

def scrollRegionUpInner (g : Grid) (top bottom : ℕ) (blank : Cell) (preserveHistory : Bool) : Grid :=
  if top ≥ g.height ∨ bottom ≥ g.height ∨ top > bottom then g
  else if preserveHistory ∧ top = 0 ∧ bottom = g.height - 1 then g.scrollUp blank
  else
    let departing := g.lines[top]?
    let g := { g with lines := g.lines.eraseIdx top }
    let g := if preserveHistory then (departing.map g.pushScrollback).getD g else g
    let (g, id) := g.allocLineId
    { g with
      lines := g.lines.insertIdx bottom (Line.blank g.width blank id)
      pendingScrollUp := 0 }
      |>.markRowsDamaged top bottom

/-- Scroll a vertical region upward. A region anchored at the screen top preserves its departing
line in history. -/
def scrollRegionUp (g : Grid) (top bottom : ℕ) (blank : Cell) : Grid :=
  g.scrollRegionUpInner top bottom blank (top == 0)

/-- Scroll a vertical region upward without preserving the departing line. -/
def scrollRegionUpDiscarding (g : Grid) (top bottom : ℕ) (blank : Cell) : Grid :=
  g.scrollRegionUpInner top bottom blank false

/-- Scroll a vertical region downward, blanking its top row. -/
def scrollRegionDown (g : Grid) (top bottom : ℕ) (blank : Cell) : Grid :=
  if top ≥ g.height ∨ bottom ≥ g.height ∨ top > bottom then g
  else
    let (g, id) := { g with lines := g.lines.eraseIdx bottom }.allocLineId
    { g with
      lines := g.lines.insertIdx top (Line.blank g.width blank id)
      pendingScrollUp := 0 }
      |>.markRowsDamaged top bottom

/-- The damaged column range of a row. -/
def rowDamage (g : Grid) (y : ℕ) : Option (ℕ × ℕ) :=
  g.damage[y]?.bind fun row => if row.dirty then some (row.lo, row.hi) else none

def markAllDamaged (g : Grid) : Grid :=
  if g.width = 0 ∨ g.height = 0 then g
  else
    { g with
      pendingScrollUp := 0
      damage := g.damage.map fun _ => g.fullRow
      anyDamage := true }

def clearDamage (g : Grid) : Grid :=
  { g with
    damage := if g.anyDamage then g.damage.map fun row => { row with dirty := false } else g.damage
    anyDamage := false
    pendingScrollUp := 0 }

end Uniterm.Model.Grid
