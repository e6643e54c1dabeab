import Uniterm.Model.Grid.Stored

/-! # Captures of a grid

A capture holds compact cells with arenas of their texts and underline colours, and a worker resolves them later. The
lines of a capture are slices of one list of cells; a slice that is out of range aborts the process and is `none`.
Handles of texts count in 32 bits.
-/

namespace Uniterm.Model

/-- Owned terminal content: cells, the ends of the lines with their wrap flags, and the arenas. -/
structure GridCapture where
  cells : List Cell := []
  lines : List (ℕ × Bool) := []
  clusters : List Text := []
  underlineColors : List Color := []

namespace GridCapture

/-- The handle of a colour, appended while the arena has room. -/
def colorHandle (colors : List Color) (color : Color) : List Color × ℕ :=
  match colors.idxOf? color with
  | some handle => (colors, handle)
  | none => if colors.length < 256 then (colors ++ [color], colors.length) else (colors, 0)

/-- Append one stored cell to a capture. -/
def pushCell (capture : GridCapture) (saved : StoredCell) : GridCapture :=
  let (clusters, cluster) :=
    if saved.text.length > 1 then (capture.clusters ++ [saved.text], capture.clusters.length % 2 ^ 32)
    else (capture.clusters, 0)
  let (underlineColors, underlineColor) := colorHandle capture.underlineColors saved.underlineColor
  let cell : Cell := {
    ch := saved.text.headD ' ', cluster, underlineColor, fg := saved.fg, bg := saved.bg, attrs := saved.attrs
    width := if saved.continuation then 0 else max saved.width 1 }
  { capture with cells := capture.cells ++ [cell], clusters, underlineColors }

/-- Append one stored line to a capture. -/
def pushLine (capture : GridCapture) (line : StoredLine) : GridCapture :=
  let capture := line.cells.foldl pushCell capture
  { capture with lines := capture.lines ++ [(capture.cells.length, line.wrapped)] }

/-- Preserve recovered content without a grid. -/
def fromStoredLines (lines : List StoredLine) : GridCapture :=
  lines.foldl pushLine { clusters := [[]], underlineColors := [.default] }

section Resolve

variable (capture : GridCapture)

/-- A captured cell with its handles resolved. -/
def cell (cell : Cell) : StoredCell where
  text :=
    if cell.isContinuation then []
    else if cell.cluster ≠ 0 then (capture.clusters[cell.cluster]?).getD [replacement]
    else [cell.ch]
  fg := cell.fg
  bg := cell.bg
  attrs := cell.attrs
  underlineColor := (capture.underlineColors[cell.underlineColor]?).getD .default
  width := cell.width
  continuation := cell.isContinuation

/-- The resolved lines from a start on, each without its trailing blanks unless it is wrapped. -/
def resolveLines (blank : StoredCell → Bool) : ℕ → List (ℕ × Bool) → Option (List StoredLine)
  | _, [] => some []
  | start, (stop, wrapped) :: rest =>
    if start ≤ stop ∧ stop ≤ capture.cells.length then do
      let cells := ((capture.cells.take stop).drop start).map capture.cell
      let rest ← resolveLines blank stop rest
      some ({ cells := if wrapped then cells else cells.rdropWhile blank, wrapped } :: rest)
    else none

/-- Expand the capture into stored lines. -/
def intoStoredLines : Option (List StoredLine) :=
  capture.resolveLines storedCellIsDefaultBlank 0 capture.lines

end Resolve

end GridCapture

end Uniterm.Model
