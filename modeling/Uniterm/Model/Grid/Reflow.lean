import Uniterm.Model.Grid.Edit

/-! # Resizing with logical-line reflow

A width change joins soft-wrapped rows into logical lines and cuts them again at the new width. The
source streams: one buffer of glyph leads, one row under construction and a queue of finished rows.
`Emission` and `Reflow` are the states of its two loops. Row columns are 16 bits wide and the sum
that decides whether a glyph still fits wraps around like the source's.
-/

namespace Uniterm.Model.Grid

section Emit

variable (u : Unicode) (g : Grid) (width : ℕ)

/-- Natural display width of a glyph lead, from its text: one or two cells. -/
def glyphWidth (cell : Cell) : ℕ :=
  if cell.cluster ≠ 0 then
    match g.clusters[cell.cluster]? with
    | none => 1
    | some text => u.glyphWidth text
  else u.glyphWidth [cell.ch]

/-- A plain space in terminal-default style. -/
def isDefaultBlank (cell : Cell) : Bool :=
  cell.ch == ' ' && cell.cluster == 0 && !cell.isContinuation && cell.fg == .default &&
    cell.bg == .default && cell.attrs == Attrs.none && cell.hyperlink == 0 &&
    g.underlineColor cell.underlineColor == .default

/-- `Vec::resize` with default cells. -/
def resizeCells (cells : List Cell) : List Cell :=
  cells.take width ++ List.replicate (width - cells.length) ({} : Cell)

/-- The row being cut from a logical line, and the rows finished so far. -/
structure Emission where
  row : List Cell := []
  x : ℕ := 0
  physical : List Line
  nextLineId : ℕ

/-- Finish the row under construction as a soft-wrapped one. -/
def Emission.wrapRow (e : Emission) : Emission where
  physical := e.physical ++ [{ cells := resizeCells width e.row, wrapped := true, id := e.nextLineId }]
  nextLineId := e.nextLineId + 1

/-- Append one glyph lead, with its continuation, to the row under construction. -/
def emitLead (e : Emission) (lead : Cell) : Emission :=
  let glyph := min (g.glyphWidth u lead) width
  let e := if e.x > 0 ∧ (e.x + glyph) % 65536 > width then e.wrapRow width else e
  { e with
    row := e.row ++ { lead with width := glyph } :: if glyph = 2 then [lead.continuation] else []
    x := (e.x + glyph) % 65536 }

/-- Cut one logical line's glyph leads into physical rows, and say which rows it got. -/
def emitLogicalLine (leads : List Cell) (physical : List Line) (nextLineId : ℕ) :
    List Line × ℕ × (ℕ × ℕ) :=
  let e := leads.foldl (emitLead u g width) { physical, nextLineId }
  let rows := e.physical ++ [{ cells := Line.trimCells e.row, wrapped := false, id := e.nextLineId }]
  (rows, e.nextLineId + 1, physical.length, rows.length - physical.length)

end Emit

/-- Where the logical lines of the cursor and of the former viewport top land. -/
structure ReflowAnchors where
  logicalIndex : ℕ := 0
  cursorLogical : ℕ := 0
  screenLogical : ℕ := 0
  cursorSpan : ℕ × ℕ := (0, 1)
  screenSpan : ℕ × ℕ := (0, 1)

def ReflowAnchors.record (a : ReflowAnchors) (span : ℕ × ℕ) : ReflowAnchors :=
  { a with
    cursorSpan := if a.logicalIndex = a.cursorLogical then span else a.cursorSpan
    screenSpan := if a.logicalIndex = a.screenLogical then span else a.screenSpan
    logicalIndex := a.logicalIndex + 1 }

/-- The state of the streaming pass over the old rows. -/
structure Reflow where
  leads : List Cell := []
  physical : List Line := []
  nextLineId : ℕ
  currentWidth : ℕ := 0
  cursorOffset : ℕ := 0
  screenOffset : ℕ := 0
  anchors : ReflowAnchors := {}

section Reflow

variable (u : Unicode) (g : Grid) (width : ℕ)

/-- Emit the collected leads as one logical line. -/
def Reflow.finishLine (r : Reflow) : Reflow :=
  let (physical, nextLineId, span) := emitLogicalLine u g width r.leads r.physical r.nextLineId
  { r with physical, nextLineId, anchors := r.anchors.record span, leads := [], currentWidth := 0 }

/-- The glyph leads an old row contributes to its logical line. -/
def lineLeads (line : Line) : List Cell :=
  let leads := line.cells.filter fun cell => !cell.isContinuation
  if line.wrapped then leads ++ List.replicate (g.width - line.cells.length) ({} : Cell)
  else leads.rdropWhile g.isDefaultBlank

/-- Note the offsets of the cursor and of the viewport top when their rows come up. -/
def Reflow.note (cursorX cursorLine screenLine index : ℕ) (r : Reflow) : Reflow :=
  let r := if index = cursorLine then
      { r with
        anchors := { r.anchors with cursorLogical := r.anchors.logicalIndex }
        cursorOffset := r.currentWidth + cursorX }
    else r
  if index = screenLine then
    { r with
      anchors := { r.anchors with screenLogical := r.anchors.logicalIndex }
      screenOffset := r.currentWidth }
  else r

/-- Join one old row to the logical line, and emit the line at a hard newline. -/
def Reflow.join (line : Line) (r : Reflow) : Reflow :=
  let r := { r with
    leads := r.leads ++ g.lineLeads line
    currentWidth := r.currentWidth + ((g.lineLeads line).map fun cell => max cell.width 1).sum }
  if line.wrapped then r else r.finishLine u g width

/-- Consume one old row. -/
def reflowLine (cursorX cursorLine screenLine : ℕ) (r : Reflow) (entry : Line × ℕ) : Reflow :=
  (r.note cursorX cursorLine screenLine entry.2).join u g width entry.1

/-- The streaming pass over history and screen, with the lines left over at its end. -/
def reflowLines (cursor : ℕ × ℕ) : Reflow :=
  let r := (g.scrollback ++ g.lines).zipIdx.foldl
    (reflowLine u g width cursor.1 (g.scrollback.length + cursor.2) g.scrollback.length)
    { nextLineId := g.nextLineId }
  let r := if r.leads.isEmpty then r else r.finishLine u g width
  if r.anchors.logicalIndex = 0 then r.finishLine u g width else r

end Reflow

/-- The row after the last one with content. -/
def contentEnd (physical : List Line) : ℕ :=
  (physical.rdropWhile fun line => !line.wrapped && line.cells.isEmpty).length

/-- Blank rows with consecutive ids. -/
def blankLines (width : ℕ) (blank : Cell) (firstId count : ℕ) : List Line :=
  (List.range count).map fun i => Line.blank width blank (firstId + i)

/-- The rows with the viewport chosen among them. -/
structure Viewport where
  physical : List Line
  nextLineId : ℕ
  cursorGlobal : ℕ
  screenStart : ℕ

/-- A taller viewport keeps its former top row and advances only as far as the cursor and the
content need; rows falling off the bottom are blank. -/
def growViewport (width height : ℕ) (blank : Cell) (physical : List Line) (nextLineId cursorGlobal
    reflowedScreenStart : ℕ) : Viewport :=
  let start := max reflowedScreenStart (cursorGlobal + 1 - height)
  let (start, physical) :=
    if physical.length > start + height then
      let start := max start (max (contentEnd physical) (cursorGlobal + 1) - height)
      (start, physical.take (start + height))
    else (start, physical)
  let missing := start + height - physical.length
  { physical := physical ++ blankLines width blank nextLineId missing
    nextLineId := nextLineId + missing
    cursorGlobal
    screenStart := start }

/-- Otherwise the viewport ends at the last row, with blank rows above too few of them. -/
def shrinkViewport (width height : ℕ) (blank : Cell) (physical : List Line) (nextLineId
    cursorGlobal : ℕ) : Viewport :=
  let missing := height - physical.length
  let physical := (blankLines width blank nextLineId missing).reverse ++ physical
  { physical
    nextLineId := nextLineId + missing
    cursorGlobal := cursorGlobal + missing
    screenStart := physical.length - height }

/-- The cursor's row and column in its logical line, and whether it stays pending. -/
def mapCursor (width offset : ℕ) (pending : Bool) : ℕ × ℕ × Bool :=
  if pending ∧ offset % width = 0 ∧ offset ≠ 0 then (offset / width - 1, width - 1, true)
  else (offset / width, offset % width, false)

/-- Install the chosen rows: history up to its limit, visible rows padded to the full width. -/
def install (g : Grid) (width height : ℕ) (v : Viewport) : Grid :=
  let historyStart := v.screenStart - g.scrollbackLimit
  let physical := v.physical.drop historyStart
  let retained := v.screenStart - historyStart
  { g with
    lines := (physical.drop retained).map fun (line : Line) =>
      if line.cells.length < width then { line with cells := resizeCells width line.cells } else line
    scrollback := physical.take retained
    width
    height
    damage := List.replicate height .clean
    nextLineId := v.nextLineId }
    |>.markAllDamaged

/-- Reflow every retained line to a new width. -/
def reflowWidth (u : Unicode) (g : Grid) (width height : ℕ) (blank : Cell) (cursor : ℕ × ℕ)
    (pending : Bool) : Grid × (ℕ × ℕ × Bool) :=
  let r := reflowLines u g width cursor
  let (cursorRow, cursorX, mappedPending) := mapCursor width r.cursorOffset pending
  let (cursorStart, cursorCount) := r.anchors.cursorSpan
  let cursorGlobal := cursorStart + min cursorRow (cursorCount - 1)
  let (screenFirst, screenCount) := r.anchors.screenSpan
  let reflowedScreenStart := screenFirst + min (r.screenOffset / width) (screenCount - 1)
  let v := if height > g.height then
      growViewport width height blank r.physical r.nextLineId cursorGlobal reflowedScreenStart
    else shrinkViewport width height blank r.physical r.nextLineId cursorGlobal
  let historyStart := v.screenStart - g.scrollbackLimit
  let cursorY := min (v.cursorGlobal - historyStart - (v.screenStart - historyStart)) (height - 1)
  (g.install width height v, min cursorX (width - 1), cursorY, mappedPending)

/-- Grow vertically at the same width: blank rows below the live screen. -/
def growHeight (g : Grid) (height : ℕ) (blank : Cell) : Grid :=
  let missing := height - g.lines.length
  { g with
    lines := g.lines ++ blankLines g.width blank g.nextLineId missing
    nextLineId := g.nextLineId + missing
    height
    damage := List.replicate height .clean }
    |>.markAllDamaged

/-- Shrink vertically at the same width: the rows leaving the top become the newest history. -/
def shrinkHeight (g : Grid) (height : ℕ) : Grid :=
  let removed := g.height - height
  let g' := (g.lines.take removed).foldl
    (fun (g : Grid) line => g.pushScrollback line.trimDefaultTail)
    { g with lines := g.lines.drop removed }
  { g' with height, damage := List.replicate height .clean }
    |>.markAllDamaged

/-- Resize the terminal buffer with logical-line reflow; returns the mapped cursor. -/
def resizeReflow (u : Unicode) (g : Grid) (width height : ℕ) (blank : Cell) (cursor : ℕ × ℕ)
    (pending : Bool) : Grid × (ℕ × ℕ × Bool) :=
  let width := max width 1
  let height := max height 1
  let cursorX := if pending then cursor.1 - 1 else cursor.1
  if width = g.width ∧ height = g.height then (g, cursor.1, cursor.2, pending)
  else if height > g.height ∧ width = g.width then
    (g.growHeight height blank, min cursorX (width - 1), min cursor.2 (height - 1), pending)
  else if height < g.height ∧ width = g.width then
    (g.shrinkHeight height, min cursorX (width - 1), cursor.2 - (g.height - height), pending)
  else g.reflowWidth u width height blank cursor pending

end Uniterm.Model.Grid
