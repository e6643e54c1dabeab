import Uniterm.Model.Grid.Reflow
import Uniterm.Model.Utf8

/-! # The emulator state

The terminal is one flat record: the current grid and the emulator state beside it. The parser in
front of it is not part of the model; it hands over parsed actions one at a time.
-/

namespace Uniterm.Model

/-- The mouse-reporting protocol a pane's app asked for. -/
inductive MouseMode where
  | off | x10 | normal | button | any
deriving DecidableEq, Repr

/-- A bounded stack of keyboard disambiguation flags. -/
structure KeyboardMode where
  flags : ℕ := 0
  stack : List ℕ := List.replicate 16 0
  depth : ℕ := 0
deriving DecidableEq

namespace KeyboardMode

def push (k : KeyboardMode) (flags : ℕ) : KeyboardMode :=
  let k := if k.depth = 16 then
      { k with stack := k.stack.tail ++ k.stack.getLast?.toList, depth := k.depth - 1 }
    else k
  { stack := k.stack.set k.depth k.flags, depth := k.depth + 1, flags := flags % 2 }

def pop (k : KeyboardMode) (count : ℕ) : KeyboardMode :=
  if count > k.depth then { k with flags := 0, depth := 0 }
  else if count ≠ 0 then
    { k with depth := k.depth - count, flags := (k.stack[k.depth - count]?).getD 0 }
  else k

end KeyboardMode

/-- Cursor and graphic state saved by DECSC and by the alternate screen. -/
structure SavedCursor where
  cx : ℕ
  cy : ℕ
  fg : Color
  bg : Color
  attrs : Attrs
  underlineColor : Color
  pending : Bool

inductive AgentStatus where
  | unknown | starting | working | tool | permission | question | idle | error | exited
deriving DecidableEq, Repr

/-- A parsed agent event; only its status drives the terminal. -/
structure AgentEvent where
  status : Option AgentStatus
deriving DecidableEq

/-- What the emulator takes from other libraries: Unicode tables and the JSON decoder behind
OSC 777. -/
structure Env where
  unicode : Unicode
  parseOsc777 : Bytes → Option AgentEvent

/-- A terminal screen: a grid plus the cursor and the current graphic state. -/
structure Terminal where
  grid : Grid
  width : ℕ
  height : ℕ
  cx : ℕ := 0
  cy : ℕ := 0
  fg : Color := .default
  bg : Color := .default
  attrs : Attrs := Attrs.none
  underlineColor : Color := .default
  underlineColorHandle : ℕ := 0
  hyperlink : ℕ := 0
  /-- Deferred wrap: set after writing the last column. -/
  wrapPending : Bool := false
  /-- DECAWM: whether a glyph beyond the right margin wraps. -/
  autowrap : Bool := true
  /-- DECOM: row addressing is relative to the scroll region. -/
  originMode : Bool := false
  /-- IRM: printed glyphs insert rather than overwrite. -/
  insertMode : Bool := false
  cursorVisible : Bool := true
  bracketedPaste : Bool := false
  primaryKeyboard : KeyboardMode := {}
  alternateKeyboard : KeyboardMode := {}
  lastChar : Option Char := none
  tabs : List Bool
  decLineDrawing : Bool := false
  /-- Vertical scroll region, both rows inclusive. -/
  scrollTop : ℕ := 0
  scrollBottom : ℕ
  saved : Option SavedCursor := none
  /-- The primary grid while the alternate screen is shown. -/
  altBackup : Option Grid := none
  altCursor : Option SavedCursor := none
  appCursor : Bool := false
  mouseMode : MouseMode := .off
  mouseSgr : Bool := false
  nestedInput : Bool := false
  nestedInputChanges : List Bool := []
  agentEvents : List AgentEvent := []
  cwd : Option Text := none
  promptMarks : List Text := []
  clipboardRequests : List Bytes := []
  terminalTitle : Text := []
  defaultFg : Color := .rgb 0xcc 0xcc 0xcc
  defaultBg : Color := .rgb 0x1e 0x1e 0x2e
  darkTheme : Bool := true
  paletteNotifications : Bool := false
  scrollbackLimit : ℕ := 10000
  responses : Text := []

namespace Terminal

def defaultTabs (width : ℕ) : List Bool :=
  (List.range width).map fun x => decide (x ≠ 0 ∧ x % 8 = 0)

def new (width height : ℕ) : Terminal where
  grid := Grid.new (max width 1) (max height 1)
  width := max width 1
  height := max height 1
  tabs := defaultTabs (max width 1)
  scrollBottom := max height 1 - 1

/-- The blank that erases and scrolls fill with: current colours, no attributes. -/
def blankCell (t : Terminal) : Cell := { fg := t.fg, bg := t.bg }

/-- The cursor and the graphic state as DECSC saves them. -/
def cursorState (t : Terminal) : SavedCursor where
  cx := t.cx
  cy := t.cy
  fg := t.fg
  bg := t.bg
  attrs := t.attrs
  underlineColor := t.underlineColor
  pending := t.wrapPending

/-- Re-intern the pen's underline colour in the current grid. -/
def internPen (t : Terminal) : Terminal :=
  let (grid, handle) := t.grid.internUnderlineColor t.underlineColor
  { t with grid, underlineColorHandle := handle }

/-- Resize the stashed primary grid with the cursor saved for it. -/
def resizeStash (u : Unicode) (t : Terminal) (width height : ℕ) (blank : Cell) : Terminal :=
  match t.altBackup with
  | none => t
  | some primary =>
    let saved := (t.altCursor.map fun s => (s.cx + s.pending.toNat, s.cy)).getD (0, 0)
    let (primary, cx, cy, pending) := (primary.setScrollbackLimit t.scrollbackLimit).resizeReflow u
      width height blank saved (t.altCursor.any (·.pending))
    { t with
      altBackup := some primary
      altCursor := t.altCursor.map fun s => { s with cx, cy, pending }
      grid := t.grid.setScrollbackLimit 0 }

/-- Resize both buffers by reflowing their lines, and remap active and saved cursors. -/
def resize (u : Unicode) (t : Terminal) (width height : ℕ) : Terminal :=
  let w := max width 1
  let h := max height 1
  if w = t.width ∧ h = t.height then t
  else
    let (grid, cx, cy, pending) := t.grid.resizeReflow u w h t.blankCell
      (t.cx + t.wrapPending.toNat, t.cy) t.wrapPending
    let t' := ({ t with grid, cx, cy, wrapPending := pending }.internPen).resizeStash u w h t.blankCell
    { t' with
      width := w
      height := h
      scrollTop := 0
      scrollBottom := h - 1
      tabs := t'.tabs.take w ++ (defaultTabs w).drop t'.tabs.length }

end Terminal

end Uniterm.Model
