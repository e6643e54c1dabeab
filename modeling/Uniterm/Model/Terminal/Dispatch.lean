import Uniterm.Model.Terminal.Performer

/-! # Parsed actions

The five entry points of the parser's sink: printable characters, control bytes, and CSI, ESC and
OSC dispatches with their collected parameters. `step` is one action of any kind, or a resize.
-/

namespace Uniterm.Model.Terminal

def decLineDrawingChar (c : Char) : Char :=
  match c with
  | '\x60' => '◆'
  | 'a' => '▒'
  | 'b' => '␉'
  | 'c' => '␌'
  | 'd' => '␍'
  | 'e' => '␊'
  | 'f' => '°'
  | 'g' => '±'
  | 'h' => '␤'
  | 'i' => '␋'
  | 'j' => '┘'
  | 'k' => '┐'
  | 'l' => '┌'
  | 'm' => '└'
  | 'n' => '┼'
  | 'o' => '⎺'
  | 'p' => '⎻'
  | 'q' => '─'
  | 'r' => '⎼'
  | 's' => '⎽'
  | 't' => '├'
  | 'u' => '┤'
  | 'v' => '┴'
  | 'w' => '┬'
  | 'x' => '│'
  | 'y' => '≤'
  | 'z' => '≥'
  | '\x7b' => 'π'
  | '|' => '≠'
  | '\x7d' => '£'
  | '~' => '·'
  | c => c

section Print

variable (u : Unicode) (build : Build)

/-- The cell that a printed character could extend. -/
def previous (t : Terminal) : Option (ℕ × ℕ) :=
  if t.wrapPending then some (t.cx, t.cy)
  else if t.cx > 0 then some (t.cx - 1, t.cy)
  else none

/-- The lead cell at or before a position. -/
def leadAt (t : Terminal) (x y : ℕ) : Option (ℕ × Cell) := do
  let cell ← t.grid.get? x y
  if cell.isContinuation ∧ x > 0 then
    let lead ← t.grid.get? (x - 1) y
    some (x - 1, lead)
  else some (x, cell)

/-- Extend the grapheme at a lead cell that the character joins. -/
def extendAt (t : Terminal) (x y : ℕ) (old : Cell) (c : Char) : Option Terminal :=
  let text := t.grid.cellTextOwned old ++ [c]
  let width := u.glyphWidth text
  if width = 2 ∧ x + 1 ≥ t.width then
    let cleared := { t with grid := t.grid.clearGlyphAt x y t.blankCell }
    if t.autowrap then do
      let wrapped := { cleared with grid := cleared.grid.setRowWrapped y true, cx := 0 }
      let moved ← wrapped.linefeed build
      let written := { moved with
        wrapPending := false
        grid := moved.grid.setGrapheme 0 moved.cy text old 2 }
      some (if written.width = 2 then { written with cx := 1, wrapPending := true }
        else { written with cx := 2 })
    else some { cleared with grid := cleared.grid.setGrapheme x y [replacement] old 1 }
  else
    let (grid, appended) := t.grid.appendToGrapheme u x y c
    let t := { t with grid }
    if appended then
      let stop := saturatingAdd16 x width
      if stop ≥ t.width then do
        let right ← sub16 build t.width 1
        some { t with cx := right, wrapPending := t.autowrap }
      else if t.wrapPending then some t
      else some { t with cx := stop }
    else some t

/-- A glyph and its columns: a zero-width character gets a base, and a wide one that has no room a
placeholder. -/
def glyphFor (t : Terminal) (c : Char) : Text × ℕ :=
  let width := min ((u.charWidth c).getD 0) 2
  let (text, width) := if width = 0 then (['◌', c], 1) else ([c], width)
  if width = 2 ∧ t.width = 1 then ([replacement], 1) else (text, width)

/-- Wrap to the start of the next row. -/
def wrapLine (t : Terminal) : Option Terminal :=
  { t with grid := t.grid.setRowWrapped t.cy true, cx := 0 }.linefeed build

/-- Carry out a deferred wrap before the next glyph. -/
def wrapDeferred (t : Terminal) : Option Terminal :=
  if t.wrapPending then do
    let t ← if t.autowrap then t.wrapLine build else some t
    some { t with wrapPending := false }
  else some t

/-- Make room for a wide glyph at the right margin. -/
def wrapWide (t : Terminal) (text : Text) (width : ℕ) : Option (Terminal × Text × ℕ) := do
  if width = 2 then
    let following ← add16 build t.cx 1
    if following ≥ t.width then
      if t.autowrap then
        let t ← t.wrapLine build
        some (t, text, width)
      else some (t, [replacement], 1)
    else some (t, text, width)
  else some (t, text, width)

/-- Write a glyph at the cursor and advance. -/
def writeAt (t : Terminal) (c : Char) (text : Text) (width : ℕ) : Option Terminal := do
  let grid := if t.insertMode then t.grid.insertCells t.cy t.cx width t.blankCell else t.grid
  let cell : Cell := {
    ch := c, fg := t.fg, bg := t.bg, attrs := t.attrs
    underlineColor := t.underlineColorHandle, hyperlink := t.hyperlink }
  let t := { t with grid := grid.setGrapheme t.cx t.cy text cell width }
  let stop ← add16 build t.cx width
  if stop ≥ t.width then
    let right ← sub16 build t.width 1
    some { t with cx := right, wrapPending := t.autowrap }
  else some { t with cx := stop }

/-- Print a glyph that starts a grapheme of its own. -/
def printFresh (t : Terminal) (input c : Char) : Option Terminal := do
  let (text, width) := t.glyphFor u c
  let t ← t.wrapDeferred build
  let (t, text, width) ← t.wrapWide build text width
  let t ← t.writeAt build c text width
  some { t with lastChar := some input }

def print (t : Terminal) (input : Char) : Option Terminal :=
  let c := if t.decLineDrawing then decLineDrawingChar input else input
  match t.previous with
  | none => t.printFresh u build input c
  | some (x, y) => do
    let (x, old) ← t.leadAt x y
    if t.grid.graphemeExtends u old c then t.extendAt u build x y old c
    else t.printFresh u build input c

end Print

/-- The first tab stop in a list of columns. -/
def findTab (tabs : List Bool) : List ℕ → Option (Option ℕ)
  | [] => some none
  | x :: rest => do
    let stop ← tabs[x]?
    if stop then some (some x) else findTab tabs rest

/-- Assign the tab stop under the cursor. -/
def setTab (t : Terminal) (stop : Bool) : Option Terminal :=
  if t.cx < t.tabs.length then some { t with tabs := t.tabs.set t.cx stop } else none

def execute (build : Build) (t : Terminal) (byte : ℕ) : Option Terminal :=
  if 0x0A ≤ byte ∧ byte ≤ 0x0C then do
    let t ← { t with grid := t.grid.setRowWrapped t.cy false }.linefeed build
    some { t with wrapPending := false }
  else if byte = 0x0D then some { t with cx := 0, wrapPending := false }
  else if byte = 0x08 then some { t with cx := t.cx - 1, wrapPending := false }
  else if byte = 0x09 then do
    let first ← add16 build t.cx 1
    let found ← findTab t.tabs (List.range' first (t.width - first))
    let right ← sub16 build t.width 1
    some { t with cx := found.getD right, wrapPending := false }
  else some t

/-- First subparameter of the `n`th parameter, or the default if it is absent or zero. -/
def param (params : List (List ℕ)) (n default : ℕ) : ℕ :=
  ((params[n]?.bind List.head?).filter (· ≠ 0)).getD default

def paramsFlat (params : List (List ℕ)) : List ℕ := params.map (·.headD 0)

/-- Text of a decimal number. -/
def decimal (n : ℕ) : Text := (toString n).toList

def respond (t : Terminal) (answer : Text) : Terminal := { t with responses := t.responses ++ answer }

def themeReport (dark : Bool) : Text :=
  if dark then "\x1b[?997;1n".toList else "\x1b[?997;2n".toList

section Addressing

variable (build : Build) (t : Terminal) (params : List (List ℕ))

/-- The row that CUP and HVP address. -/
def positionRow (row : ℕ) : Option ℕ :=
  if t.originMode then do
    let sum ← add16 build t.scrollTop row
    let target ← sub16 build sum 1
    some (min target t.scrollBottom)
  else do
    let target ← sub16 build row 1
    let bottom ← sub16 build t.height 1
    some (min target bottom)

/-- CUP and HVP. -/
def cursorPosition : Option Terminal := do
  let cy ← t.positionRow build (param params 0 1)
  let target ← sub16 build (param params 1 1) 1
  let right ← sub16 build t.width 1
  some { t with cy, cx := min target right, wrapPending := false }

/-- The row above the cursor that CUU and CPL stop at. -/
def upperLimit : ℕ := if t.originMode then t.scrollTop else 0

/-- The row below the cursor that CUD and CNL stop at. -/
def lowerLimit : Option ℕ := if t.originMode then some t.scrollBottom else sub16 build t.height 1

/-- The row that VPA addresses, counted from zero. -/
def lineRow (row : ℕ) : Option ℕ :=
  if t.originMode then do
    let sum ← add16 build t.scrollTop row
    some (min sum t.scrollBottom)
  else do
    let bottom ← sub16 build t.height 1
    some (min row bottom)

/-- VPA. -/
def linePosition : Option Terminal := do
  let row ← sub16 build (param params 0 1) 1
  let cy ← t.lineRow build row
  some { t with cy, wrapPending := false }

/-- DECSTBM. -/
def setMargins : Option Terminal := do
  let top ← sub16 build (param params 0 1) 1
  let bottom ← sub16 build (param params 1 t.height) 1
  some (if top < bottom ∧ bottom < t.height then
      { t with scrollTop := top, scrollBottom := bottom }.home
    else t)

/-- The row that a cursor position report gives. -/
def reportedRow : Option ℕ :=
  if t.originMode then do
    let offset ← sub16 build t.cy t.scrollTop
    add16 build offset 1
  else add16 build t.cy 1

/-- DSR 6. -/
def reportCursor : Option Terminal := do
  let row ← t.reportedRow build
  let col ← add16 build t.cx 1
  some (t.respond ("\x1b[".toList ++ decimal row ++ ";".toList ++ decimal col ++ "R".toList))

/-- CBT, once. -/
def backTab : Option Terminal := do
  let found ← findTab t.tabs (List.range t.cx).reverse
  some { t with cx := found.getD 0 }

end Addressing

/-- The keyboard stack of the screen that is shown. -/
def keyboard (t : Terminal) : KeyboardMode :=
  if t.altBackup.isSome then t.alternateKeyboard else t.primaryKeyboard

def setKeyboard (t : Terminal) (k : KeyboardMode) : Terminal :=
  if t.altBackup.isSome then { t with alternateKeyboard := k } else { t with primaryKeyboard := k }

/-- The kitty keyboard protocol, by its marker byte. -/
def keyboardProtocol (t : Terminal) (params : List (List ℕ)) (marker : UInt8) : Terminal :=
  if marker = 0x3E then t.setKeyboard (t.keyboard.push (param params 0 0))
  else if marker = 0x3C then t.setKeyboard (t.keyboard.pop (param params 0 1))
  else
    let flags := param params 0 0 % 2
    match param params 1 1 with
    | 1 => t.setKeyboard { t.keyboard with flags }
    | 2 => t.setKeyboard { t.keyboard with flags := t.keyboard.flags ||| flags }
    | 3 => t.setKeyboard { t.keyboard with flags := t.keyboard.flags - t.keyboard.flags % 2 * flags }
    | _ => t

/-- XTWINOPS. -/
def windowOps (t : Terminal) (op : ℕ) : Terminal :=
  match op with
  | 14 => t.respond "\x1b[4;0;0t".toList
  | 18 | 19 => t.respond
      ("\x1b[8;".toList ++ decimal t.height ++ ";".toList ++ decimal t.width ++ "t".toList)
  | 21 => t.respond ("\x1b]l".toList ++
      (t.terminalTitle.map fun c => if c = '\x1b' ∨ c = '\x07' then ' ' else c) ++ "\x1b\\".toList)
  | _ => t

/-- DEC private modes, with the theme notifications apart. -/
def privateMode (build : Build) (enabled : Bool) (t : Terminal) (mode : ℕ) : Option Terminal :=
  if mode = 2031 then
    let t := { t with paletteNotifications := enabled }
    some (if enabled then t.respond (themeReport t.darkTheme) else t)
  else t.setPrivateMode build mode enabled

def csiDispatch (u : Unicode) (build : Build) (t : Terminal) (params : List (List ℕ)) (inter : Bytes)
    (action : Char) : Option Terminal :=
  let n := param params 0 1
  match action with
  | 'H' | 'f' => t.cursorPosition build params
  | 'A' => some { t with cy := max (t.cy - n) t.upperLimit, wrapPending := false }
  | 'B' | 'e' => do
    let bottom ← t.lowerLimit build
    some { t with cy := min (saturatingAdd16 t.cy n) bottom, wrapPending := false }
  | 'C' | 'a' => do
    let right ← sub16 build t.width 1
    some { t with cx := min (saturatingAdd16 t.cx n) right, wrapPending := false }
  | 'D' => some { t with cx := t.cx - n, wrapPending := false }
  | 'E' => do
    let bottom ← t.lowerLimit build
    some { t with cy := min (saturatingAdd16 t.cy n) bottom, cx := 0, wrapPending := false }
  | 'F' => some { t with cy := max (t.cy - n) t.upperLimit, cx := 0, wrapPending := false }
  | 'G' | '\x60' => do
    let target ← sub16 build n 1
    let right ← sub16 build t.width 1
    some { t with cx := min target right, wrapPending := false }
  | 'd' => t.linePosition build params
  | 'J' => t.eraseInDisplay build (param params 0 0)
  | 'K' => t.eraseInLine build (param params 0 0)
  | 'm' => if inter.isEmpty then some (t.applySgr params) else some t
  | 'P' => t.deleteChars build n
  | '@' => some (t.insertChars n)
  | 'X' => t.eraseChars build n
  | 'L' => some (t.insertLines n)
  | 'M' => some (t.deleteLines n)
  | 'b' =>
    match t.lastChar with
    | none => some t
    | some c => iterateM (fun t => print u build t c) n t
  | 'Z' => do
    let t ← iterateM (backTab ·) n t
    some { t with wrapPending := false }
  | 'g' =>
    match param params 0 0 with
    | 0 => t.setTab false
    | 3 => some { t with tabs := t.tabs.map fun _ => false }
    | _ => some t
  | 'S' => some (scrollRegionUp^[n] t)
  | 'T' => some (scrollRegionDown^[n] t)
  | 'r' => if inter.isEmpty then t.setMargins build params else some t
  | 's' => some (if inter.isEmpty then t.saveCursor else t)
  | 'u' =>
    if inter.isEmpty then t.restoreCursor build
    else if inter = [0x3F] then
      some (t.respond (if t.keyboard.flags = 0 then "\x1b[?0u".toList else "\x1b[?1u".toList))
    else if inter = [0x3E] ∨ inter = [0x3C] ∨ inter = [0x3D] then
      some (t.keyboardProtocol params (inter.headD 0))
    else some t
  | 'c' => some (t.respond
      (if inter.contains 0x3E then "\x1b[>84;0;0c".toList else "\x1b[?1;2c".toList))
  | 'n' =>
    if inter.contains 0x3E then some t
    else if inter.isEmpty then
      match param params 0 0 with
      | 5 => some (t.respond "\x1b[0n".toList)
      | 6 => t.reportCursor build
      | _ => some t
    else if inter.contains 0x3F ∧ param params 0 0 = 996 then
      some (t.respond (themeReport t.darkTheme))
    else some t
  | 't' => some (if inter.isEmpty then t.windowOps (param params 0 0) else t)
  | 'h' =>
    if inter.contains 0x3F then (paramsFlat params).foldlM (privateMode build true) t
    else if inter.isEmpty ∧ (paramsFlat params).contains 4 then some { t with insertMode := true }
    else some t
  | 'l' =>
    if inter.contains 0x3F then (paramsFlat params).foldlM (privateMode build false) t
    else if inter.isEmpty ∧ (paramsFlat params).contains 4 then some { t with insertMode := false }
    else some t
  | _ => some t

/-- Whether the parameter of an OSC at an index is the given ASCII text. -/
def oscIs (params : List Bytes) (i : ℕ) (text : String) : Bool := params[i]? == some (ascii text)

/-- Rejoin parameters that the parser split at semicolons. -/
def rejoin (params : List Bytes) : Bytes := [0x3B].intercalate params

def indexedRgb (index : UInt8) : UInt8 × UInt8 × UInt8 :=
  let ansi : List (UInt8 × UInt8 × UInt8) :=
    [(0x00, 0x00, 0x00), (0xcd, 0x00, 0x00), (0x00, 0xcd, 0x00), (0xcd, 0xcd, 0x00),
     (0x00, 0x00, 0xee), (0xcd, 0x00, 0xcd), (0x00, 0xcd, 0xcd), (0xe5, 0xe5, 0xe5),
     (0x7f, 0x7f, 0x7f), (0xff, 0x00, 0x00), (0x00, 0xff, 0x00), (0xff, 0xff, 0x00),
     (0x5c, 0x5c, 0xff), (0xff, 0x00, 0xff), (0x00, 0xff, 0xff), (0xff, 0xff, 0xff)]
  if index < 16 then (ansi[index.toNat]?).getD (0, 0, 0)
  else if index < 232 then
    let value := index - 16
    let component (part : UInt8) : UInt8 := if part = 0 then 0 else 55 + part * 40
    (component (value / 36), component (value / 6 % 6), component (value % 6))
  else
    let grey := 8 + (index - 232) * 10
    (grey, grey, grey)

def colorRgb : Color → UInt8 × UInt8 × UInt8
  | .default => (0, 0, 0)
  | .idx n => indexedRgb n
  | .rgb r g b => (r, g, b)

/-- Two lower-case hexadecimal digits. -/
def hex2 (b : UInt8) : Text := [Nat.digitChar (b.toNat / 16), Nat.digitChar (b.toNat % 16)]

def oscRgb (color : Color) : Text :=
  let (r, g, b) := colorRgb color
  "rgb:".toList ++ hex2 r ++ hex2 r ++ "/".toList ++ hex2 g ++ hex2 g ++ "/".toList ++ hex2 b ++ hex2 b

/-- OSC 4, 10 and 11: answer colour queries from the configured palette. -/
def colorQuery (t : Terminal) (params : List Bytes) : Terminal :=
  let queried : Option UInt8 :=
    if oscIs params 0 "4" ∧ params.length ≥ 3 ∧ oscIs params 2 "?" then
      parseU8 ((fromUtf8 ((params[1]?).getD [])).getD [])
    else none
  match queried with
  | some index => t.respond ("\x1b]4;".toList ++ decimal index.toNat ++ ";".toList ++
      oscRgb (.idx index) ++ "\x07".toList)
  | none =>
    if oscIs params 1 "?" then
      if oscIs params 0 "10" then
        t.respond ("\x1b]10;".toList ++ oscRgb t.defaultFg ++ "\x07".toList)
      else if oscIs params 0 "11" then
        t.respond ("\x1b]11;".toList ++ oscRgb t.defaultBg ++ "\x07".toList)
      else t
    else t

/-- OSC 777: agent metadata. An exited agent leaves its screen behind. -/
def agentNotify (env : Env) (build : Build) (t : Terminal) (params : List Bytes) : Option Terminal :=
  match env.parseOsc777 (rejoin (params.drop 3)) with
  | none => some t
  | some event => do
    let t ← if event.status = some .exited then t.recoverShellScreen build else some t
    some { t with agentEvents := t.agentEvents ++ [event] }

/-- OSC 133: shell prompt marks. A prompt on the alternate screen proves that its owner returned. -/
def promptMark (build : Build) (t : Terminal) (params : List Bytes) : Option Terminal := do
  let mark : Text := [';'].intercalate (params.tail.filterMap fromUtf8)
  let kind := mark.takeWhile (· ≠ ';')
  let t ← if t.altBackup.isSome ∧ (kind = ['A'] ∨ kind = ['D']) then t.recoverShellScreen build
    else some t
  some (if mark.len ≤ 4096 ∧ t.promptMarks.length < 1024 then
      { t with promptMarks := t.promptMarks ++ [mark] }
    else t)

/-- OSC 8: the hyperlink of subsequently printed cells. -/
def openHyperlink (t : Terminal) (params : List Bytes) : Terminal :=
  match fromUtf8 (rejoin (params.drop 2)) with
  | none => { t with hyperlink := 0 }
  | some uri =>
    let (grid, handle) := t.grid.internHyperlink uri
    { t with grid, hyperlink := handle }

def oscDispatch (env : Env) (build : Build) (t : Terminal) (params : List Bytes) : Option Terminal :=
  if oscIs params 0 "0" ∨ oscIs params 0 "2" then
    some { t with
      terminalTitle := ((fromUtf8Lossy (rejoin params.tail)).filter
        fun c => !isControl c && c != '\x7f').take 512 }
  else if oscIs params 0 "8" ∧ params.length ≥ 3 then some (t.openHyperlink params)
  else if oscIs params 0 "777" ∧ oscIs params 1 "uniterm-input" then
    some (if oscIs params 2 "1" then t.setNestedInput true
      else if oscIs params 2 "0" then t.setNestedInput false
      else t)
  else if oscIs params 0 "777" ∧ params.length ≥ 4 ∧ oscIs params 1 "notify" then
    t.agentNotify env build params
  else if oscIs params 0 "7" then
    match (params[1]?).bind fromUtf8 with
    | some value => some (if value.len ≤ 4096 then { t with cwd := some value } else t)
    | none => some t
  else if oscIs params 0 "133" then t.promptMark build params
  else if oscIs params 0 "52" then
    let payload := rejoin params.tail
    some (if payload.length ≤ 1024 * 1024 ∧ t.clipboardRequests.length < 16 then
        { t with clipboardRequests := t.clipboardRequests ++ [payload] }
      else t)
  else some (t.colorQuery params)

def escDispatch (build : Build) (t : Terminal) (inter : Bytes) (byte : ℕ) : Option Terminal :=
  if inter = ascii "(" then
    some (if byte = 0x30 then { t with decLineDrawing := true }
      else if byte = 0x42 then { t with decLineDrawing := false }
      else t)
  else match Char.ofNat byte with
  | 'M' => some t.reverseIndex
  | 'D' => do
    let t ← { t with grid := t.grid.setRowWrapped t.cy false }.linefeed build
    some { t with wrapPending := false }
  | 'E' => do
    let t ← { t with grid := t.grid.setRowWrapped t.cy false, cx := 0 }.linefeed build
    some { t with wrapPending := false }
  | 'H' => t.setTab true
  | '7' => some t.saveCursor
  | '8' => t.restoreCursor build
  | 'c' => t.resetTerminal build
  | _ => some t

/-- One parsed action, or a resize of the pane. Parameters and sizes are 16 bits wide. -/
inductive Action where
  | print (c : Char)
  | execute (byte : UInt8)
  | csi (params : List (List UInt16)) (inter : Bytes) (action : Char)
  | esc (inter : Bytes) (byte : UInt8)
  | osc (params : List Bytes)
  | resize (width height : UInt16)

def step (env : Env) (build : Build) (t : Terminal) : Action → Option Terminal
  | .print c => print env.unicode build t c
  | .execute byte => execute build t byte.toNat
  | .csi params inter action =>
    csiDispatch env.unicode build t (params.map (·.map UInt16.toNat)) inter action
  | .esc inter byte => escDispatch build t inter byte.toNat
  | .osc params => oscDispatch env build t params
  | .resize width height => some (t.resize env.unicode width.toNat height.toNat)

/-- A fresh terminal of some size. -/
def Initial (t : Terminal) : Prop := ∃ width height : UInt16, t = new width.toNat height.toNat

end Uniterm.Model.Terminal
