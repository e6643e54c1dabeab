import Uniterm.Model.Grid.Reflow

/-! # Stored lines and the reference reflow

A stored line carries resolved texts and colours instead of arena handles. The reference reflow is
the one that shipped before the streaming rewrite: it stores every line, recuts the stored cells and
rebuilds a grid from them. `none` is an index that aborts the process.
-/

namespace Uniterm.Model

/-- A self-contained persisted cell. -/
structure StoredCell where
  text : Text
  fg : Color := .default
  bg : Color := .default
  attrs : Attrs := Attrs.none
  underlineColor : Color := .default
  width : ℕ := 1
  continuation : Bool := false
deriving DecidableEq

/-- One persisted physical line, including whether it soft-wraps into the next. -/
structure StoredLine where
  cells : List StoredCell
  wrapped : Bool := false
deriving DecidableEq

def storedCellIsDefaultBlank (cell : StoredCell) : Bool :=
  cell.text == [' '] && cell.fg == .default && cell.bg == .default && cell.attrs == Attrs.none &&
    cell.underlineColor == .default && !cell.continuation

def storedBlankLine (width : ℕ) (blank : StoredCell) : StoredLine :=
  { cells := List.replicate width blank }

namespace Grid

section Store

variable (g : Grid)

/-- A cell with its handles resolved. -/
def storeCell (cell : Cell) : StoredCell where
  text := g.cellTextOwned cell
  fg := cell.fg
  bg := cell.bg
  attrs := cell.attrs
  underlineColor := g.underlineColor cell.underlineColor
  width := cell.width
  continuation := cell.isContinuation

def storeLine (i : ℕ) : StoredLine :=
  let wrapped := g.lineWrapped i
  let cells := (List.range g.width).map fun x => g.storeCell (g.lineCell i x)
  { cells := if wrapped then cells else cells.rdropWhile storedCellIsDefaultBlank
    wrapped }

/-- Place a stored glyph on a line under construction. -/
def setStoredOnLine (line : Line) (x : ℕ) (saved : StoredCell) (cell : Cell) : Grid × Line :=
  if x ≥ g.width ∨ saved.text.isEmpty then (g, line)
  else
    let (g, cluster) := if saved.text.length > 1 then g.intern saved.text else (g, 0)
    let cell := { cell with cluster }
    let cells := line.cells.set x cell
    let cells := if cell.width = 2 ∧ x + 1 < g.width then cells.set (x + 1) cell.continuation else cells
    (g, { line with cells })

/-- One stored cell of a line: continuations follow their lead, everything else is placed. -/
def placeStored (state : Grid × Line) (entry : StoredCell × ℕ) : Grid × Line :=
  let (g, line) := state
  let (saved, x) := entry
  if saved.continuation then (g, line)
  else
    let (g, underlineColor) := g.internUnderlineColor saved.underlineColor
    g.setStoredOnLine line x saved
      { ch := saved.text.head?.getD ' ', fg := saved.fg, bg := saved.bg, attrs := saved.attrs
        underlineColor, width := max saved.width 1 }

def lineFromStored (stored : StoredLine) : Grid × Line :=
  let (g, id) := g.allocLineId
  let line := { Line.blank g.width {} id with wrapped := stored.wrapped }
  (stored.cells.take g.width).zipIdx.foldl placeStored (g, line)

end Store

/-- The glyphs a stored row contributes to its logical line. -/
def storedLeads (line : StoredLine) : List StoredCell :=
  let leads := line.cells.filter fun cell => !cell.continuation
  if line.wrapped then leads else leads.rdropWhile storedCellIsDefaultBlank

/-- The logical lines joined so far, and where the cursor and the viewport top are in them. -/
structure Joined where
  logical : List (List StoredCell) := []
  current : List StoredCell := []
  currentWidth : ℕ := 0
  cursorLogical : ℕ := 0
  cursorOffset : ℕ := 0
  screenLogical : ℕ := 0
  screenOffset : ℕ := 0

def Joined.note (cursorX cursorLine screenLine index : ℕ) (j : Joined) : Joined :=
  let j := if index = cursorLine then
      { j with cursorLogical := j.logical.length, cursorOffset := j.currentWidth + cursorX }
    else j
  if index = screenLine then
    { j with screenLogical := j.logical.length, screenOffset := j.currentWidth }
  else j

def Joined.join (line : StoredLine) (j : Joined) : Joined :=
  let leads := storedLeads line
  let j := { j with
    currentWidth := j.currentWidth + (leads.map fun cell => max cell.width 1).sum
    current := j.current ++ leads }
  if line.wrapped then j
  else { j with logical := j.logical ++ [j.current], current := [], currentWidth := 0 }

def joinLine (cursorX cursorLine screenLine : ℕ) (j : Joined) (entry : StoredLine × ℕ) : Joined :=
  (j.note cursorX cursorLine screenLine entry.2).join entry.1

/-- Join all stored lines; there is always one logical line. -/
def joinLines (g : Grid) (cursor : ℕ × ℕ) : Joined :=
  let j := ((List.range g.totalLines).map g.storeLine).zipIdx.foldl
    (joinLine cursor.1 (g.scrollback.length + cursor.2) g.scrollback.length) {}
  let j := if j.current.isEmpty then j else { j with logical := j.logical ++ [j.current] }
  if j.logical.isEmpty then { j with logical := j.logical ++ [[]] } else j

/-- Assign a cell of a row, or abort. -/
def setStored (row : List StoredCell) (x : ℕ) (cell : StoredCell) : Option (List StoredCell) :=
  if x < row.length then some (row.set x cell) else none

/-- A blank in terminal-default style. -/
def defaultSaved : StoredCell := { text := [' '] }

/-- The stored row being cut from a logical line, and the rows finished so far. -/
structure StoredEmission where
  row : List StoredCell
  x : ℕ := 0
  physical : List StoredLine

section Recut

variable (u : Unicode) (width : ℕ)

/-- Finish the row under construction as a soft-wrapped one. -/
def StoredEmission.wrapRow (e : StoredEmission) : StoredEmission where
  row := List.replicate width defaultSaved
  physical := e.physical ++ [{ cells := e.row, wrapped := true }]

/-- Write a glyph, with its continuation, to the row under construction. -/
def StoredEmission.place (e : StoredEmission) (glyph : StoredCell) (glyphWidth : ℕ) :
    Option StoredEmission := do
  let row ← setStored e.row e.x { glyph with width := glyphWidth, continuation := false }
  let row ← if glyphWidth = 2 then
      setStored row (e.x + 1) { glyph with text := [], width := 0, continuation := true }
    else some row
  some { e with row, x := (e.x + glyphWidth) % 65536 }

def StoredEmission.emitGlyph (e : StoredEmission) (glyph : StoredCell) : Option StoredEmission :=
  let glyphWidth := min (u.glyphWidth glyph.text) width
  let e := if e.x > 0 ∧ (e.x + glyphWidth) % 65536 > width then e.wrapRow width else e
  e.place glyph glyphWidth

/-- Cut one logical line into stored rows. -/
def recutLine (physical : List StoredLine) (glyphs : List StoredCell) : Option (List StoredLine) := do
  let e ← glyphs.foldlM (StoredEmission.emitGlyph u width)
    { row := List.replicate width defaultSaved, physical }
  some (e.physical ++ [{ cells := e.row, wrapped := false }])

/-- Cut all logical lines, and note which rows each got. -/
def recutLines (logical : List (List StoredCell)) :
    Option (List StoredLine × List (ℕ × ℕ)) :=
  logical.foldlM (fun (rows : List StoredLine × List (ℕ × ℕ)) glyphs => do
    let physical ← recutLine u width rows.1 glyphs
    some (physical, rows.2 ++ [(rows.1.length, physical.length - rows.1.length)])) ([], [])

end Recut

/-- The row after the last one with content. -/
def storedContentEnd (physical : List StoredLine) : ℕ :=
  (physical.rdropWhile fun row => !row.wrapped && row.cells.all storedCellIsDefaultBlank).length

structure StoredViewport where
  physical : List StoredLine
  cursorGlobal : ℕ
  screenStart : ℕ

def growStored (width height : ℕ) (blank : StoredCell) (physical : List StoredLine) (cursorGlobal
    reflowedScreenStart : ℕ) : StoredViewport :=
  let start := max reflowedScreenStart (cursorGlobal + 1 - height)
  let (start, physical) :=
    if physical.length > start + height then
      let start := max start (max (storedContentEnd physical) (cursorGlobal + 1) - height)
      (start, physical.take (start + height))
    else (start, physical)
  let missing := start + height - physical.length
  { physical := physical ++ List.replicate missing (storedBlankLine width blank)
    cursorGlobal
    screenStart := start }

def shrinkStored (width height : ℕ) (blank : StoredCell) (physical : List StoredLine)
    (cursorGlobal : ℕ) : StoredViewport :=
  let missing := height - physical.length
  let physical := List.replicate missing (storedBlankLine width blank) ++ physical
  { physical
    cursorGlobal := cursorGlobal + missing
    screenStart := physical.length - height }

/-- Append one rebuilt line to the history or to the screen. -/
def rebuildLine (screenStart : ℕ) (g : Grid) (entry : StoredLine × ℕ) : Grid :=
  let (g, line) := g.lineFromStored entry.1
  if entry.2 < screenStart then { g with scrollback := g.scrollback ++ [line] }
  else { g with lines := g.lines ++ [line] }

/-- Rebuild a grid from stored rows. -/
def rebuild (width height limit : ℕ) (blank : Cell) (rows : List StoredLine) (screenStart : ℕ) :
    Grid :=
  let g := rows.zipIdx.foldl (rebuildLine screenStart)
    { (new width height).setScrollbackLimit limit with scrollback := [], lines := [] }
  let missing := height - g.lines.length
  { g with
    lines := (blankLines width blank g.nextLineId missing).reverse ++ g.lines
    nextLineId := g.nextLineId + missing
    damage := List.replicate height .clean }
    |>.markAllDamaged

/-- The stored rows chosen for the new grid, with the cursor among them. -/
def referenceRows (u : Unicode) (g : Grid) (width height : ℕ) (blank : Cell) (cursor : ℕ × ℕ)
    (pending : Bool) : Option StoredViewport := do
  let blankSaved : StoredCell :=
    { text := [' '], fg := blank.fg, bg := blank.bg, attrs := blank.attrs
      underlineColor := g.underlineColor blank.underlineColor }
  let j := joinLines g cursor
  let (physical, spans) ← recutLines u width j.logical
  let (cursorRow, _) := mapCursor width j.cursorOffset pending
  let (cursorStart, cursorCount) ← spans[min j.cursorLogical (spans.length - 1)]?
  let cursorGlobal := cursorStart + min cursorRow (max cursorCount 1 - 1)
  let (screenFirst, screenCount) ← spans[min j.screenLogical (spans.length - 1)]?
  let reflowedScreenStart := screenFirst + min (j.screenOffset / width) (screenCount - 1)
  some (if height > g.height then
      growStored width height blankSaved physical cursorGlobal reflowedScreenStart
    else shrinkStored width height blankSaved physical cursorGlobal)

/-- The reflow that shipped before the streaming rewrite. -/
def resizeReflowReference (u : Unicode) (g : Grid) (width height : ℕ) (blank : Cell)
    (cursor : ℕ × ℕ) (pending : Bool) : Option (Grid × (ℕ × ℕ × Bool)) :=
  let width := max width 1
  let height := max height 1
  let cursorX := if pending then cursor.1 - 1 else cursor.1
  if width = g.width ∧ height = g.height then some (g, cursor.1, cursor.2, pending)
  else if height > g.height ∧ width = g.width then
    some (g.growHeight height blank, min cursorX (width - 1), min cursor.2 (height - 1), pending)
  else do
    let v ← referenceRows u g width height blank cursor pending
    let (_, cursorX, mappedPending) := mapCursor width (joinLines g cursor).cursorOffset pending
    let historyStart := v.screenStart - g.scrollbackLimit
    let cursorY := min (v.cursorGlobal - historyStart - (v.screenStart - historyStart)) (height - 1)
    some (rebuild width height g.scrollbackLimit blank (v.physical.drop historyStart)
      (v.screenStart - historyStart), min cursorX (width - 1), cursorY, mappedPending)

end Grid

end Uniterm.Model
