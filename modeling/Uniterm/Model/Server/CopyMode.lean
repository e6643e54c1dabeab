import Uniterm.Model.Grid.Copies
import Uniterm.Model.Scan
import Uniterm.Model.Terminal.Renderer
import Uniterm.Model.Workspace.Layout

/-! # Copy-mode

While a pane is in copy-mode its keys move a cursor over the lines of history and screen, select text and search.
The cursor is kept relative to the top of the viewport, the anchor of a selection and the frozen screen rows are
kept as absolute lines; `syncHistory` compensates them when output evicts history.
-/

namespace Uniterm.Model.Server

open Workspace Terminal

/-- The outcome of handling copy-mode input. -/
inductive CopyAction where
  | none
  | redraw
  | exit
  | copy (text : Text)
deriving DecidableEq

/-- The live screen rows as they were when a selection began. -/
structure FrozenScreen where
  /-- The logical line of the first frozen row. -/
  start : ℕ
  rows : Grid

/-- A screen that cannot be copied aborts the process. -/
def FrozenScreen.capture (g : Grid) : Option FrozenScreen := do
  some { start := g.scrollback.length, rows := ← g.freezeScreen }

/-- Copy-mode state for one pane. -/
structure CopyState where
  /-- The logical line of the top visible row. -/
  top : ℕ
  cx : ℕ
  cy : ℕ
  width : ℕ
  height : ℕ
  /-- Selection anchor as an absolute line and a column. -/
  anchor : Option (ℕ × ℕ) := none
  query : Text := []
  typingSearch : Bool := false
  firstLineId : Option ℕ
  freezeOnSelect : Bool := false
  frozen : Option FrozenScreen := none
  mouseFinished : Bool := false

end Uniterm.Model.Server

namespace Uniterm.Model.Grid

/-- Stable id of the oldest retained line. -/
def firstLineId (g : Grid) : Option ℕ := (g.scrollback.head?.or g.lines.head?).map (·.id)

/-- Stable id of a combined history and screen line. -/
def lineId (g : Grid) (i : ℕ) : Option ℕ := (g.line i).map (·.id)

end Uniterm.Model.Grid

namespace Uniterm.Model.Server.CopyMode

variable (g : Grid)

/-- The glyphs of a line from a column on, with their columns. A glyph takes the columns of its width. -/
def glyphsFrom (i stop : ℕ) : ℕ → ℕ → List (ℕ × Cell)
  | 0, _ => []
  | fuel + 1, x =>
    if x < stop then
      let cell := g.lineCell i x
      let rest := glyphsFrom i stop fuel (x + max cell.displayWidth 1)
      if cell.isContinuation then rest else (x, cell) :: rest
    else []

/-- The glyphs of a line in a half-open range of columns. -/
def glyphs (i first stop : ℕ) : List (ℕ × Cell) := glyphsFrom g i stop stop first

def glyphsText (glyphs : List (ℕ × Cell)) : Text := glyphs.flatMap fun glyph => g.cellTextOwned glyph.2

/-- The first column that is read of a range: a wide glyph that the left edge cuts is included. -/
def firstColumn (i first : ℕ) : ℕ :=
  let x := min first g.width
  if x > 0 ∧ (g.lineCell i x).isContinuation then x - 1 else x

def lineTextRange (i first stop : ℕ) : Text :=
  glyphsText g (glyphs g i (firstColumn g i first) (min stop g.width))

def lineText (i width : ℕ) : Text := (lineTextRange g i 0 width).trimEnd

/-- The column of the glyph that holds a byte, from a list of glyphs after a number of bytes. -/
def columnOf (byteOffset : ℕ) : ℕ → List (ℕ × Cell) → Option ℕ
  | _, [] => none
  | bytes, (x, cell) :: rest =>
    let text := g.cellTextOwned cell
    if bytes ≥ byteOffset ∨ bytes + text.len > byteOffset then some x
    else columnOf byteOffset (bytes + text.len) rest

/-- Map a byte offset in a line's text back to a column. -/
def searchColumn (i width byteOffset : ℕ) : ℕ :=
  (columnOf g byteOffset 0 (glyphs g i 0 (min width g.width))).getD (width - 1)

end Uniterm.Model.Server.CopyMode

namespace Uniterm.Model.Server.CopyState

open Workspace Terminal

/-- Enter copy-mode at the bottom of the buffer. -/
def new (g : Grid) (rect : Rect) : CopyState where
  top := g.totalLines - max rect.h 1
  cx := 0
  cy := max rect.h 1 - 1
  width := max rect.w 1
  height := max rect.h 1
  firstLineId := g.firstLineId

variable (s : CopyState) (g : Grid)

def finishMouseSelection : CopyState := { s with mouseFinished := true }

def setFreezeOnSelect (on : Bool) : CopyState := { s with freezeOnSelect := on }

def freezeIfConfigured : Option CopyState :=
  if s.freezeOnSelect ∧ s.frozen.isNone then do
    some { s with frozen := some (← FrozenScreen.capture g) }
  else some s

def thaw : CopyState := { s with frozen := none }

/-- Logical lines the viewport can address. -/
def totalLines : ℕ :=
  match s.frozen with
  | some frozen => frozen.start + frozen.rows.height
  | none => g.totalLines

/-- The grid that holds a logical line, and the line's index there. -/
def source (line : ℕ) : Grid × ℕ :=
  match s.frozen with
  | some frozen => if line ≥ frozen.start then (frozen.rows, line - frozen.start) else (g, line)
  | none => (g, line)

def maxTop : ℕ := s.totalLines g - s.height

def cursorLine : ℕ := s.top + s.cy

/-- Where a line goes when history is evicted: a frozen row keeps its offset in the freeze. -/
def shift (evicted line : ℕ) : Option ℕ :=
  match s.frozen with
  | some frozen =>
    if line ≥ frozen.start then some (frozen.start - evicted + (line - frozen.start))
    else if evicted ≤ line then some (line - evicted) else none
  | none => if evicted ≤ line then some (line - evicted) else none

/-- Shift the coordinates down by a number of evicted lines. -/
def evict (evicted : ℕ) : CopyState :=
  { s with
    top := (s.shift evicted s.top).getD 0
    anchor := s.anchor.bind fun anchor => (s.shift evicted anchor.1).map fun line => (line, anchor.2)
    frozen := s.frozen.map fun frozen => { frozen with start := frozen.start - evicted } }

/-- The number of evicted lines, from the ids of the oldest line before and now. -/
def evicted : ℕ :=
  match s.firstLineId, g.firstLineId with
  | some old, some new => new - old
  | _, _ => 0

/-- Compensate the coordinates when live output evicts history. -/
def syncHistory : CopyState :=
  let s := (if s.evicted g ≠ 0 then s.evict (s.evicted g) else s)
  let s := { s with firstLineId := g.firstLineId }
  { s with top := min s.top (s.maxTop g), cy := min s.cy (s.height - 1) }

section Motions

def up : CopyState :=
  if s.cy > 0 then { s with cy := s.cy - 1 }
  else if s.top > 0 then { s with top := s.top - 1 }
  else s

def down : CopyState :=
  if s.cursorLine ≥ s.totalLines g - 1 then s
  else if s.cy < s.height - 1 then { s with cy := s.cy + 1 }
  else if s.top < s.maxTop g then { s with top := s.top + 1 }
  else s

def left : CopyState := { s with cx := s.cx - 1 }

def right : CopyState := if s.cx + 1 < s.width then { s with cx := s.cx + 1 } else s

def isSpace (x : ℕ) : Bool :=
  let (source, line) := s.source g s.cursorLine
  isWhitespace (source.lineCell line x).ch

/-- Move right while a column in front of the last one satisfies a condition. -/
def forward (p : ℕ → Bool) : ℕ → ℕ → ℕ
  | 0, x => x
  | fuel + 1, x => if x + 1 < s.width ∧ p x then forward p fuel (x + 1) else x

/-- Move left while a column behind the first one satisfies a condition. -/
def backward (p : ℕ → Bool) : ℕ → ℕ
  | 0 => 0
  | x + 1 => if p (x + 1) then backward p x else x + 1

def nextBigWord : CopyState :=
  let x := s.forward (fun x => !s.isSpace g x) s.width s.cx
  { s with cx := s.forward (fun x => s.isSpace g x) s.width x }

def previousBigWord : CopyState :=
  let x := backward (fun x => s.isSpace g x) (s.cx - 1)
  { s with cx := backward (fun x => !s.isSpace g (x - 1)) x }

def endBigWord : CopyState :=
  let x := s.forward (fun x => s.isSpace g x) s.width s.cx
  { s with cx := s.forward (fun x => !s.isSpace g (x + 1)) s.width x }

def page (up : Bool) : CopyState :=
  let half := max (s.height / 2) 1
  if up then { s with top := s.top - half } else { s with top := min (s.top + half) (s.maxTop g) }

/-- Scroll the viewport, up for a negative number of lines. -/
def scroll (lines : ℤ) : CopyState × Bool :=
  let top := if lines < 0 then s.top - lines.natAbs else min (s.top + lines.toNat) (s.maxTop g)
  ({ s with top }, top == s.maxTop g)

end Motions

section Mouse

/-- A screen cell in coordinates of the viewport. -/
def cellIn (rect : Rect) (sx sy : ℕ) : ℕ × ℕ := (min (sx - rect.x) (s.width - 1), min (sy - rect.y) (s.height - 1))

def mouseAnchor (rect : Rect) (sx sy : ℕ) : Option CopyState := do
  let s ← s.freezeIfConfigured g
  let (x, y) := s.cellIn rect sx sy
  let s := { s with mouseFinished := false, cx := x, cy := y }
  some { s with anchor := some (s.cursorLine, x) }

def mouseDrag (rect : Rect) (sx sy : ℕ) : CopyState :=
  let (x, y) := s.cellIn rect sx sy
  { s with cx := x, cy := y }

end Mouse

section Selecting

/-- The position of a cell in reading order. -/
def position (cell : ℕ × ℕ) : ℕ := cell.1 * s.width + cell.2

/-- The ordered selection endpoints. -/
def selection : Option ((ℕ × ℕ) × (ℕ × ℕ)) := do
  let anchor ← s.anchor
  let cursor := (s.cursorLine, s.cx)
  some (if s.position anchor ≤ s.position cursor then (anchor, cursor) else (cursor, anchor))

def isSelected (line x : ℕ) : Bool :=
  match s.selection with
  | some (first, last) => s.position first ≤ s.position (line, x) && s.position (line, x) ≤ s.position last
  | none => false

/-- The columns of one line between the endpoints of the selection. -/
def selectedColumns (first last : ℕ × ℕ) (line : ℕ) : ℕ × ℕ :=
  (if line = first.1 then first.2 else 0,
    if line = last.1 then min (saturatingAdd16 last.2 1) s.width else s.width)

/-- What one line adds to the selected text. -/
def selectedLine (first last : ℕ × ℕ) (line : ℕ) : Text :=
  let (start, stop) := s.selectedColumns first last line
  let (source, index) := s.source g line
  let selected := CopyMode.lineTextRange source index start stop
  (if stop = s.width then selected.trimEnd else selected) ++
    if line ≠ last.1 ∧ ¬ source.lineWrapped index then ['\n'] else []

def selectedText : Text :=
  match s.selection with
  | none =>
    let (source, line) := s.source g s.cursorLine
    CopyMode.lineText source line s.width
  | some (first, last) => (List.range' first.1 (last.1 + 1 - first.1)).flatMap (s.selectedLine g first last)

/-- The selected text, as the mouse release copies it. -/
def yank : Text := s.selectedText g

end Selecting

section Searching

/-- The text of a logical line. -/
def addressed (line : ℕ) : Text :=
  let (source, index) := s.source g line
  CopyMode.lineText source index s.width

/-- The line that a search visits at a step. -/
def visited (forward : Bool) (step : ℕ) : ℕ :=
  if forward then (s.cursorLine + step) % s.totalLines g
  else (s.cursorLine + s.totalLines g - step) % s.totalLines g

/-- Put the cursor on a byte of a line. -/
def land (line byte : ℕ) : CopyState :=
  let (source, index) := s.source g line
  let column := CopyMode.searchColumn source index s.width byte
  let top := min line (s.maxTop g)
  { s with top, cy := (line - top) % 65536, cx := min column (s.width - 1) }

/-- Scan every line once, starting just past the cursor. -/
def runSearch (forward : Bool) : CopyState :=
  if s.query.isEmpty then s
  else
    let found := (List.range' 1 (s.totalLines g)).findSome? fun step =>
      let line := s.visited g forward step
      (Text.find s.query (s.addressed g line)).map (s.land g line)
    found.getD s

end Searching

section Handling

/-- A byte while the query is typed. -/
def typeSearch (b : UInt8) : CopyState :=
  if b = 0x0d ∨ b = 0x0a then { s.runSearch g true with typingSearch := false }
  else if b = 0x1b then { s with typingSearch := false, query := [] }
  else if b = 0x7f ∨ b = 0x08 then { s with query := s.query.dropLast }
  else if 0x20 ≤ b ∧ b ≤ 0x7e then { s with query := s.query ++ [Char.ofNat b.toNat] }
  else s

def csiSequenceLen (input : Bytes) : Option ℕ :=
  (input.findIdx? fun byte => 0x40 ≤ byte && byte ≤ 0x7e).map (· + 1)

/-- A cursor key. -/
def cursorKey (sequence : Bytes) : CopyState :=
  if sequence = ascii "A" then s.up
  else if sequence = ascii "B" then s.down g
  else if sequence = ascii "C" then s.right
  else if sequence = ascii "D" then s.left
  else if sequence = ascii "5~" then s.page g true
  else if sequence = ascii "6~" then s.page g false
  else s

/-- Start a selection at the cursor, or drop it. -/
def toggleSelection : Option CopyState :=
  if s.anchor.isSome then some { s with anchor := none }.thaw
  else do
    let s ← s.freezeIfConfigured g
    some { s with anchor := some (s.cursorLine, s.cx) }

/-- A key that neither leaves copy-mode nor copies. -/
def command (b : UInt8) : Option CopyState :=
  match Char.ofNat b.toNat with
  | 'k' => some s.up
  | 'j' => some (s.down g)
  | 'h' => some s.left
  | 'l' => some s.right
  | 'w' | 'W' => some (s.nextBigWord g)
  | 'b' | 'B' => some (s.previousBigWord g)
  | 'e' | 'E' => some (s.endBigWord g)
  | '\x15' => some (s.page g true)
  | '\x04' => some (s.page g false)
  | 'g' => some { s with top := 0, cy := 0 }
  | 'G' => some { s with top := s.maxTop g, cy := s.height - 1 }
  | 'v' | ' ' => s.toggleSelection g
  | '/' => some { s with typingSearch := true, query := [] }
  | 'n' => some (s.runSearch g true)
  | 'N' => some (s.runSearch g false)
  | _ => some s

/-- What a batch amounts to that neither left copy-mode nor copied. -/
def settled (changed : Bool) : CopyAction := if changed then .redraw else .none

/-- The rest of a batch; every turn takes at least one byte. -/
def handleFrom : ℕ → Bytes → CopyState → Bool → Option (CopyState × CopyAction)
  | _, [], s, changed => some (s, settled changed)
  | 0, _, s, changed => some (s, settled changed)
  | fuel + 1, b :: rest, s, changed =>
    if s.typingSearch then handleFrom fuel rest (s.typeSearch g b) true
    else if b = 0x1b then
      if rest.head? = some 0x5b then
        match csiSequenceLen rest.tail with
        | none => some (s, settled changed)
        | some length =>
          let sequence := rest.tail.take length
          if sequence = ascii "1;5F" ∨ sequence = ascii "1;9B" then some (s, .exit)
          else handleFrom fuel (rest.tail.drop length) (s.cursorKey g sequence) true
      else some (s, .exit)
    else if b = 0x71 then some (s, .exit)
    else if b = 0x79 ∨ b = 0x0d ∨ b = 0x0a then some (s, .copy (s.selectedText g))
    else do handleFrom fuel rest (← s.command g b) true

/-- Process a batch of input bytes. -/
def handle (buf : Bytes) : Option (CopyState × CopyAction) := handleFrom g buf.length buf (s.syncHistory g) false

end Handling

section Rendering

/-- A glyph of the viewport, and whether it is highlighted. -/
structure DrawnGlyph where
  cell : Cell
  selected : Bool
deriving DecidableEq

/-- The glyphs that `render` writes in one row of the viewport. -/
def drawnRow (rect : Rect) (row : ℕ) : List DrawnGlyph :=
  let line := s.top + row
  let (source, index) := s.source g line
  (CopyMode.glyphs source index 0 rect.w).map fun (x, cell) =>
    { cell, selected := s.isSelected line x || (cell.width == 2 && s.isSelected line (x + 1)) }

end Rendering

end Uniterm.Model.Server.CopyState
