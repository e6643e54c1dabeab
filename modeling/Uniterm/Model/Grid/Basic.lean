import Mathlib.Data.List.DropRight
import Std.Data.ExtTreeMap.Lemmas
import Uniterm.Model.Grid.Cell
import Uniterm.ToMathlib.MapAccum

/-! # The grid and its arenas

A grid owns its visible lines, a bounded history, per-row damage and three arenas that cells refer
to by handle: grapheme texts, hyperlink targets and underline colours. Compaction rebuilds an arena
from the handles that the retained lines still use.
-/

namespace Uniterm.Model

open Std ToMathlib

structure Line where
  cells : List Cell
  /-- This physical line continues into the next without a hard newline. -/
  wrapped : Bool := false
  /-- Stable while the line remains retained. -/
  id : ℕ
deriving DecidableEq

namespace Line

def blank (width : ℕ) (cell : Cell) (id : ℕ) : Line := { cells := List.replicate width cell, id }

/-- The cells of a list up to the last one that is not a default cell. -/
def trimCells (cells : List Cell) : List Cell := cells.rdropWhile (· == {})

def trimDefaultTail (line : Line) : Line :=
  if line.wrapped then line else { line with cells := trimCells line.cells }

end Line

/-- Per-row damage: the inclusive column range changed since the last render. -/
structure RowDamage where
  dirty : Bool := false
  lo : ℕ := 0
  hi : ℕ := 0
deriving DecidableEq

def RowDamage.clean : RowDamage := {}

/-- A terminal grid with a bounded history and exact damage tracking. -/
structure Grid where
  width : ℕ
  height : ℕ
  lines : List Line
  damage : List RowDamage
  anyDamage : Bool := false
  /-- Whole-grid upward scrolls not yet reflected in attached clients. -/
  pendingScrollUp : ℕ := 0
  scrollback : List Line := []
  scrollbackLimit : ℕ := 10000
  clusters : List Text := [[]]
  clusterGcAt : ℕ := 4096
  hyperlinks : ExtTreeMap ℕ Text := ∅
  hyperlinkGcAt : ℕ := 4096
  nextHyperlink : ℕ := 1
  underlineColors : List Color := [.default]
  nextLineId : ℕ

namespace Grid

def new (width height : ℕ) : Grid where
  width
  height
  lines := (List.range height).map fun y => Line.blank width {} (y + 1)
  damage := List.replicate height .clean
  nextLineId := height + 1

/-- Keep the newest history lines up to a bound. -/
def keepNewest (limit : ℕ) (history : List Line) : List Line := history.drop (history.length - limit)

def setScrollbackLimit (g : Grid) (limit : ℕ) : Grid :=
  { g with scrollbackLimit := limit, scrollback := keepNewest limit g.scrollback }

/-- Remove all saved lines, implementing ED 3 without touching the viewport. -/
def clearScrollback (g : Grid) : Grid := { g with scrollback := [] }

def totalLines (g : Grid) : ℕ := g.scrollback.length + g.height

/-- Actual cells retained across history and the live screen. -/
def retainedCellCount (g : Grid) : ℕ :=
  ((g.scrollback ++ g.lines).map fun line => line.cells.length).sum

/-- The combined history and screen lines, by index. -/
def line (g : Grid) (i : ℕ) : Option Line :=
  if i < g.scrollback.length then g.scrollback[i]? else g.lines[i - g.scrollback.length]?

def lineWrapped (g : Grid) (i : ℕ) : Bool := (g.line i).any (·.wrapped)

def lineCell (g : Grid) (i x : ℕ) : Cell := ((g.line i).bind (·.cells[x]?)).getD {}

/-- Set the visible row's soft-wrap flag. -/
def setRowWrapped (g : Grid) (y : ℕ) (wrapped : Bool) : Grid :=
  { g with lines := g.lines.modify y fun line => { line with wrapped } }

/-- A visible cell, or the index that aborts the process. -/
def get? (g : Grid) (x y : ℕ) : Option Cell := g.lines[y]?.bind (·.cells[x]?)

/-- A visible cell that the grid's own operations read after a bounds check. -/
def get (g : Grid) (x y : ℕ) : Cell := (g.get? x y).getD {}

/-- Resolve a cell to its text. -/
def cellTextOwned (g : Grid) (cell : Cell) : Text :=
  if cell.isContinuation then []
  else if cell.cluster ≠ 0 then (g.clusters[cell.cluster]?).getD [replacement]
  else [cell.ch]

/-- The first free handle from a candidate on; handles count in 32 bits and skip zero. -/
def freeHandle (taken : ExtTreeMap ℕ Text) : ℕ → ℕ → ℕ × ℕ
  | 0, next => (max next 1, max ((max next 1 + 1) % 2 ^ 32) 1)
  | fuel + 1, next =>
    let candidate := max next 1
    let following := max ((candidate + 1) % 2 ^ 32) 1
    if taken.contains candidate then freeHandle taken fuel following else (candidate, following)

def compactHyperlinks (g : Grid) : Grid :=
  let used := (g.scrollback ++ g.lines).flatMap fun line => line.cells.map (·.hyperlink)
  let kept := g.hyperlinks.filter fun handle _ => used.contains handle && handle != 0
  { g with hyperlinks := kept, hyperlinkGcAt := max (kept.size * 2) 4096 }

/-- Intern an OSC 8 target without allocating per linked cell. -/
def internHyperlink (g : Grid) (uri : Text) : Grid × ℕ :=
  if uri.isEmpty ∨ uri.len > 8192 ∨ uri.any isControl = true then (g, 0)
  else match g.hyperlinks.toList.find? fun entry => entry.2 == uri with
  | some (handle, _) => (g, handle)
  | none =>
    let g := if g.hyperlinks.size ≥ g.hyperlinkGcAt then g.compactHyperlinks else g
    let (handle, following) := freeHandle g.hyperlinks (g.hyperlinks.size + 1) g.nextHyperlink
    ({ g with hyperlinks := g.hyperlinks.insert handle uri, nextHyperlink := following }, handle)

/-- Resolve a hyperlink handle for rendering or click activation. -/
def hyperlink (g : Grid) (handle : ℕ) : Option Text :=
  if handle ≠ 0 then g.hyperlinks[handle]? else none

/-- Resolve one cell's underline colour handle. -/
def underlineColor (g : Grid) (handle : ℕ) : Color := (g.underlineColors[handle]?).getD .default

/-- Retain one underline colour of the old arena in the new one. -/
def compactUnderlineCell (old : List Color) (colors : List Color) (cell : Cell) :
    List Color × Cell :=
  if cell.underlineColor = 0 then (colors, cell)
  else match old[cell.underlineColor]? with
  | none => (colors, { cell with underlineColor := 0 })
  | some color =>
    -- The handle map of the source holds the colours pushed so far, the leading default apart.
    match colors.tail.idxOf? color with
    | some i => (colors, { cell with underlineColor := i + 1 })
    | none => (colors ++ [color], { cell with underlineColor := colors.length })

/-- Rewrite every retained cell from the oldest history line to the last visible one. -/
def rewriteCells {σ : Type} (f : σ → Cell → σ × Cell) (s : σ) (lines : List Line) :
    σ × List Line :=
  mapAccum (fun s line =>
    let (s, cells) := mapAccum f s line.cells
    (s, { line with cells })) s lines

def compactUnderlineColors (g : Grid) : Grid :=
  let (colors, lines) :=
    rewriteCells (compactUnderlineCell g.underlineColors) [.default] (g.scrollback ++ g.lines)
  { g with
    underlineColors := colors
    scrollback := lines.take g.scrollback.length
    lines := lines.drop g.scrollback.length }

/-- Intern an underline colour; more than 255 live colours degrade to the terminal default. -/
def internUnderlineColor (g : Grid) (color : Color) : Grid × ℕ :=
  if color = .default then (g, 0)
  else match g.underlineColors.idxOf? color with
  | some handle => (g, handle)
  | none =>
    let g := if g.underlineColors.length = 256 then g.compactUnderlineColors else g
    match g.underlineColors.idxOf? color with
    | some handle => (g, handle)
    | none =>
      if g.underlineColors.length = 256 then (g, 0)
      else ({ g with underlineColors := g.underlineColors ++ [color] }, g.underlineColors.length)

/-- Retain one grapheme of the old arena in the new one. -/
def compactClusterCell (old : List Text) (clusters : List Text) (cell : Cell) : List Text × Cell :=
  if cell.cluster = 0 then (clusters, cell)
  else match old[cell.cluster]? with
  | none => (clusters, { cell with cluster := 0, ch := replacement })
  | some text =>
    match clusters.tail.idxOf? text with
    | some i => (clusters, { cell with cluster := i + 1 })
    | none => (clusters ++ [text], { cell with cluster := clusters.length })

def compactClusters (g : Grid) : Grid :=
  let (clusters, lines) :=
    rewriteCells (compactClusterCell g.clusters) [[]] (g.scrollback ++ g.lines)
  { g with
    clusters
    clusterGcAt := max (clusters.length * 2) 4096
    scrollback := lines.take g.scrollback.length
    lines := lines.drop g.scrollback.length }

/-- The newest of the last sixty-four arena entries that holds the text. -/
def recentCluster (g : Grid) (text : Text) : Option ℕ :=
  ((g.clusters.zipIdx.reverse.take 64).find? fun entry => entry.1 == text).map Prod.snd

def intern (g : Grid) (text : Text) : Grid × ℕ :=
  match g.recentCluster text with
  | some handle => (g, handle)
  | none =>
    let g := if g.clusters.length ≥ g.clusterGcAt then g.compactClusters else g
    ({ g with clusters := g.clusters ++ [text] }, g.clusters.length)

def allocLineId (g : Grid) : Grid × ℕ := ({ g with nextLineId := g.nextLineId + 1 }, g.nextLineId)

end Grid

end Uniterm.Model
