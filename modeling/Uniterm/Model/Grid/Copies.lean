import Uniterm.Model.Grid.Stored

/-! # Copies of a grid

A screen is frozen into a grid of its own, whose arenas are filled while its cells are placed. History is loaded
from stored lines, one arena handle at a time. An index that aborts the process is `none`.
-/

namespace Uniterm.Model.Grid

/-- A grapheme of another grid, in this one. -/
def freezeCluster (source frozen : Grid) (cell copy : Cell) : Grid × Cell :=
  if cell.cluster ≠ 0 then
    match source.clusters[cell.cluster]? with
    | some text =>
      let (frozen, cluster) := frozen.intern text
      (frozen, { copy with cluster })
    | none => (frozen, { copy with cluster := 0, ch := replacement })
  else (frozen, copy)

/-- An underline colour of another grid, in this one. -/
def freezeColor (source frozen : Grid) (cell copy : Cell) : Grid × Cell :=
  if cell.underlineColor ≠ 0 then
    let (frozen, underlineColor) := frozen.internUnderlineColor (source.underlineColor cell.underlineColor)
    (frozen, { copy with underlineColor })
  else (frozen, copy)

/-- A hyperlink of another grid, in this one. -/
def freezeLink (source frozen : Grid) (cell copy : Cell) : Grid × Cell :=
  if cell.hyperlink ≠ 0 then
    match source.hyperlink cell.hyperlink with
    | some uri =>
      let (frozen, hyperlink) := frozen.internHyperlink uri
      (frozen, { copy with hyperlink })
    | none => (frozen, { copy with hyperlink := 0 })
  else (frozen, copy)

/-- Re-intern the handles of a cell. -/
def freezeCell (source frozen : Grid) (cell : Cell) : Grid × Cell :=
  let (frozen, copy) := freezeCluster source frozen cell cell
  let (frozen, copy) := freezeColor source frozen cell copy
  freezeLink source frozen cell copy

/-- Assign a visible cell, or abort. -/
def assign (g : Grid) (x y : ℕ) (cell : Cell) : Option Grid :=
  if (g.get? x y).isSome then
    some { g with lines := g.lines.modify y fun line => { line with cells := line.cells.set x cell } }
  else none

/-- Copy one row, cell by cell. -/
def freezeRow (source frozen : Grid) (line : Line) (y : ℕ) : Option Grid :=
  if y < frozen.lines.length then
    ((line.cells.take source.width).zipIdx).foldlM (fun frozen (entry : Cell × ℕ) =>
      let (frozen, copy) := freezeCell source frozen entry.1
      frozen.assign entry.2 y copy) (frozen.setRowWrapped y line.wrapped)
  else none

/-- Copy the live screen rows into a standalone grid of the same size with no history. -/
def freezeScreen (g : Grid) : Option Grid :=
  g.lines.zipIdx.foldlM (fun frozen (entry : Line × ℕ) => freezeRow g frozen entry.1 entry.2)
    ((Grid.new g.width g.height).setScrollbackLimit 0)

/-- Rebuild one stored line and append it to the history. -/
def loadLine (g : Grid) (stored : StoredLine) : Grid :=
  let (g, line) := g.lineFromStored stored
  { g with scrollback := g.scrollback ++ [line.trimDefaultTail] }

/-- Load saved content into history, leaving the viewport as it is. -/
def loadScrollback (g : Grid) (lines : List StoredLine) : Grid :=
  let g := lines.foldl loadLine { g with scrollback := [] }
  { g with scrollback := keepNewest g.scrollbackLimit g.scrollback }

end Uniterm.Model.Grid
