import Mathlib.Logic.Function.Iterate
import Uniterm.Model.Terminal.State

/-! # The performer

What the parsed actions do to the grid and the cursor. `none` is an abort of the process: an index
out of range, or 16-bit arithmetic out of range in a build that checks it.
-/

namespace Uniterm.Model.Terminal

/-- Run a fallible step a number of times. -/
def iterateM {α : Type} (step : α → Option α) : ℕ → α → Option α
  | 0, a => some a
  | n + 1, a => (step a).bind (iterateM step n)

section Scrolling

variable (build : Build) (t : Terminal)

/-- Scroll the active region up by one line. -/
def scrollRegionUp : Terminal :=
  { t with grid := t.grid.scrollRegionUp t.scrollTop t.scrollBottom t.blankCell }

/-- Scroll the active region down by one line. -/
def scrollRegionDown : Terminal :=
  { t with grid := t.grid.scrollRegionDown t.scrollTop t.scrollBottom t.blankCell }

/-- Move down one row, scrolling the region at the bottom. -/
def linefeed : Option Terminal :=
  if t.cy = t.scrollBottom then some t.scrollRegionUp
  else do
    let below ← add16 build t.cy 1
    some (if below < t.height then { t with cy := below } else t)

/-- Move up one row, scrolling the region down at the top. -/
def reverseIndex : Terminal :=
  if t.cy = t.scrollTop then t.scrollRegionDown
  else if t.cy > 0 then { t with cy := t.cy - 1 }
  else t

end Scrolling

section Erasing

variable (build : Build) (t : Terminal)

/-- DCH: delete characters at the cursor, shifting the rest of the line left. -/
def deleteChars (n : ℕ) : Option Terminal := do
  let grid ← t.grid.deleteCells build t.cy t.cx n t.blankCell
  some { t with grid := grid.setRowWrapped t.cy false, wrapPending := false }

/-- ICH: insert blanks at the cursor, shifting the rest of the line right. -/
def insertChars (n : ℕ) : Terminal :=
  { t with wrapPending := false, grid := t.grid.insertCells t.cy t.cx n t.blankCell }

/-- ECH: erase characters from the cursor. -/
def eraseChars (n : ℕ) : Option Terminal := do
  let grid ← t.grid.eraseCells build t.cy t.cx (saturatingAdd16 t.cx n) t.blankCell
  some { t with grid := grid.setRowWrapped t.cy false, wrapPending := false }

/-- IL: insert blank lines at the cursor row, within the scroll region. -/
def insertLines (n : ℕ) : Terminal :=
  let t := { t with wrapPending := false }
  if t.cy < t.scrollTop ∨ t.cy > t.scrollBottom then t
  else { t with
    grid := (fun g : Grid => g.scrollRegionDown t.cy t.scrollBottom t.blankCell)^[n] t.grid }

/-- DL: delete lines at the cursor row, within the scroll region. -/
def deleteLines (n : ℕ) : Terminal :=
  let t := { t with wrapPending := false }
  if t.cy < t.scrollTop ∨ t.cy > t.scrollBottom then t
  else { t with
    grid := (fun g : Grid => g.scrollRegionUpDiscarding t.cy t.scrollBottom t.blankCell)^[n] t.grid }

/-- The half-open column range that EL erases. -/
def lineRange (mode : ℕ) : Option (Option (ℕ × ℕ)) :=
  match mode with
  | 0 => some (some (t.cx, t.width))
  | 1 => do
    let stop ← add16 build t.cx 1
    some (some (0, stop))
  | 2 => some (some (0, t.width))
  | _ => some none

def eraseInLine (mode : ℕ) : Option Terminal := do
  match ← t.lineRange build mode with
  | none => some t
  | some (first, stop) =>
    let grid ← t.grid.eraseCells build t.cy first (min stop t.width) t.blankCell
    some { t with
      grid := if mode = 0 then grid.setRowWrapped t.cy false else grid
      wrapPending := false }

/-- Erase whole rows of the screen. -/
def eraseRows (rows : List ℕ) : Option Terminal := do
  let grid ← rows.foldlM (fun g y => g.eraseCells build y 0 t.width t.blankCell) t.grid
  some { t with grid }

def eraseInDisplay (mode : ℕ) : Option Terminal :=
  match mode with
  | 0 => do
    let t ← t.eraseInLine build 0
    let below ← add16 build t.cy 1
    t.eraseRows build (List.range' below (t.height - below))
  | 1 => do
    let t ← t.eraseRows build (List.range t.cy)
    t.eraseInLine build 1
  | 2 => do
    let t ← t.eraseRows build (List.range t.height)
    some { t with wrapPending := false }
  | 3 => some { t with grid := t.grid.clearScrollback }
  | _ => some t

end Erasing

section Graphics

/-- `v as u8` on a parameter. -/
def byte (v : ℕ) : UInt8 := UInt8.ofNat v

def underlineStyle : ℕ → Option UnderlineStyle
  | 0 => some .none
  | 1 => some .single
  | 2 => some .double
  | 3 => some .curly
  | 4 => some .dotted
  | 5 => some .dashed
  | _ => none

/-- An extended colour at the head of the groups, and how many groups it takes. -/
def parseExtendedColor (groups : List (List ℕ)) : Option Color × ℕ :=
  match groups.headD [] with
  | _ :: 5 :: n :: _ => (some (.idx (byte n)), 1)
  | _ :: 2 :: _ :: r :: g :: b :: _ => (some (.rgb (byte r) (byte g) (byte b)), 1)
  | [_, 2, r, g, b] => (some (.rgb (byte r) (byte g) (byte b)), 1)
  | _ :: _ :: _ => (none, 1)
  | _ =>
    let value (i : ℕ) : Option ℕ := groups[i]?.bind List.head?
    if value 1 = some 5 then
      match value 2 with
      | some n => (some (.idx (byte n)), 3)
      | none => (none, 2)
    else if value 1 = some 2 then
      match value 2, value 3, value 4 with
      | some r, some g, some b => (some (.rgb (byte r) (byte g) (byte b)), 5)
      | _, _, _ => (none, min groups.length 5)
    else (none, 1)

def resetSgr (t : Terminal) : Terminal :=
  { t with
    fg := .default, bg := .default, attrs := Attrs.none
    underlineColor := .default, underlineColorHandle := 0 }

/-- The SGR codes that take one group. -/
def applyCode (t : Terminal) (code : ℕ) (style : Option ℕ) : Terminal :=
  if code = 0 then t.resetSgr
  else if code = 1 then { t with attrs := t.attrs ||| Attrs.bold }
  else if code = 2 then { t with attrs := t.attrs ||| Attrs.dim }
  else if code = 3 then { t with attrs := t.attrs ||| Attrs.italic }
  else if code = 4 then
    match (style.map underlineStyle).getD (some .single) with
    | some style => { t with attrs := t.attrs.setUnderlineStyle style }
    | none => t
  else if code = 5 then { t with attrs := t.attrs ||| Attrs.blink }
  else if code = 7 then { t with attrs := t.attrs ||| Attrs.reverse }
  else if code = 8 then { t with attrs := t.attrs ||| Attrs.invisible }
  else if code = 9 then { t with attrs := t.attrs ||| Attrs.strike }
  else if code = 22 then { t with attrs := t.attrs &&& ~~~(Attrs.bold ||| Attrs.dim) }
  else if code = 23 then { t with attrs := t.attrs &&& ~~~Attrs.italic }
  else if code = 24 then { t with attrs := t.attrs.setUnderlineStyle .none }
  else if code = 25 then { t with attrs := t.attrs &&& ~~~Attrs.blink }
  else if code = 27 then { t with attrs := t.attrs &&& ~~~Attrs.reverse }
  else if code = 28 then { t with attrs := t.attrs &&& ~~~Attrs.invisible }
  else if code = 29 then { t with attrs := t.attrs &&& ~~~Attrs.strike }
  else if 30 ≤ code ∧ code ≤ 37 then { t with fg := .idx (byte (code - 30)) }
  else if code = 39 then { t with fg := .default }
  else if 40 ≤ code ∧ code ≤ 47 then { t with bg := .idx (byte (code - 40)) }
  else if code = 49 then { t with bg := .default }
  else if 90 ≤ code ∧ code ≤ 97 then { t with fg := .idx (byte (code - 90 + 8)) }
  else if 100 ≤ code ∧ code ≤ 107 then { t with bg := .idx (byte (code - 100 + 8)) }
  else if code = 59 then { t with underlineColor := .default, underlineColorHandle := 0 }
  else t

/-- The SGR codes that take an extended colour. -/
def applyColor (t : Terminal) (code : ℕ) : Option Color → Terminal
  | none => t
  | some c =>
    if code = 38 then { t with fg := c }
    else if code = 48 then { t with bg := c }
    else { t with underlineColor := c }.internPen

/-- The SGR loop; every round takes at least one group. -/
def sgrLoop : ℕ → List (List ℕ) → Terminal → Terminal
  | 0, _, t => t
  | _ + 1, [], t => t
  | fuel + 1, group :: rest, t =>
    let code := group.headD 0
    if code = 38 ∨ code = 48 ∨ code = 58 then
      let (color, consumed) := parseExtendedColor (group :: rest)
      sgrLoop fuel ((group :: rest).drop consumed) (t.applyColor code color)
    else sgrLoop fuel rest (t.applyCode code group[1]?)

def applySgr (t : Terminal) (groups : List (List ℕ)) : Terminal :=
  if groups.isEmpty then t.resetSgr else sgrLoop groups.length groups t

end Graphics

section Screens

variable (build : Build) (t : Terminal)

def saveCursor : Terminal := { t with saved := some t.cursorState }

/-- Put the cursor and the graphic state back, inside the current screen. -/
def loadCursor (s : SavedCursor) : Option Terminal := do
  let right ← sub16 build t.width 1
  let bottom ← sub16 build t.height 1
  some { { t with
    cx := min s.cx right, cy := min s.cy bottom, fg := s.fg, bg := s.bg, attrs := s.attrs
    underlineColor := s.underlineColor }.internPen with wrapPending := s.pending }

def restoreCursor : Option Terminal :=
  match t.saved with
  | none => some t
  | some s => t.loadCursor build s

/-- Enter the alternate screen: stash the primary grid and cursor, show a cleared grid. -/
def enterAlt : Option Terminal :=
  if t.altBackup.isSome then some t
  else do
    let bottom ← sub16 build t.height 1
    let entered := { t with
      grid := ((Grid.new t.width t.height).setScrollbackLimit 0).markAllDamaged
      altBackup := some t.grid }.internPen
    some { entered with
      altCursor := some t.cursorState
      cx := 0
      cy := 0
      hyperlink := 0
      wrapPending := false
      scrollTop := 0
      scrollBottom := bottom
      originMode := false }

/-- Exit the alternate screen: restore the stashed grid and cursor and repaint it. -/
def exitAlt : Option Terminal :=
  match t.altBackup with
  | none => some t
  | some primary => do
    let shown := { t with altBackup := none, grid := primary.markAllDamaged, altCursor := none }
    let restored ← match t.altCursor with
      | none => some shown
      | some s => shown.loadCursor build s
    let bottom ← sub16 build restored.height 1
    some { restored with
      scrollTop := 0, scrollBottom := bottom, originMode := false, hyperlink := 0 }

def setNestedInput (enabled : Bool) : Terminal :=
  if t.nestedInput ≠ enabled then
    { t with nestedInput := enabled, nestedInputChanges := t.nestedInputChanges ++ [enabled] }
  else t

/-- Restore shell-facing state after an application returned without undoing its modes. -/
def recoverShellScreen : Option Terminal := do
  let t ← t.exitAlt build
  let bottom ← sub16 build t.height 1
  let t := { t with
    cursorVisible := true
    bracketedPaste := false
    primaryKeyboard := {}
    alternateKeyboard := {}
    appCursor := false
    mouseMode := .off
    mouseSgr := false }.setNestedInput false
  some { t with
    originMode := false
    hyperlink := 0
    scrollTop := 0
    scrollBottom := bottom
    wrapPending := false }

def home : Terminal :=
  { t with cx := 0, cy := if t.originMode then t.scrollTop else 0, wrapPending := false }

def setPrivateMode (mode : ℕ) (enabled : Bool) : Option Terminal :=
  match mode with
  | 1 => some { t with appCursor := enabled }
  | 6 => some { t with originMode := enabled }.home
  | 7 => some { t with autowrap := enabled, wrapPending := false }
  | 9 => some { t with mouseMode := if enabled then .x10 else .off }
  | 25 => some { t with cursorVisible := enabled }
  | 1000 => some { t with mouseMode := if enabled then .normal else .off }
  | 1002 => some { t with mouseMode := if enabled then .button else .off }
  | 1003 => some { t with mouseMode := if enabled then .any else .off }
  | 1006 => some { t with mouseSgr := enabled }
  | 1048 => if enabled then some t.saveCursor else t.restoreCursor build
  | 47 | 1047 | 1049 => if enabled then t.enterAlt build else t.exitAlt build
  | 2004 => some { t with bracketedPaste := enabled }
  | _ => some t

/-- RIS. -/
def resetTerminal : Option Terminal := do
  let bottom ← sub16 build t.height 1
  some ({ t with
    grid := ((Grid.new t.width t.height).setScrollbackLimit t.scrollbackLimit).markAllDamaged
    cx := 0
    cy := 0
    fg := .default
    bg := .default
    attrs := Attrs.none
    underlineColor := .default
    underlineColorHandle := 0
    hyperlink := 0
    wrapPending := false
    autowrap := true
    originMode := false
    insertMode := false
    cursorVisible := true
    bracketedPaste := false
    primaryKeyboard := {}
    alternateKeyboard := {}
    lastChar := none
    tabs := defaultTabs t.width
    decLineDrawing := false
    scrollTop := 0
    scrollBottom := bottom
    saved := none
    altBackup := none
    altCursor := none
    appCursor := false
    mouseMode := .off
    mouseSgr := false }.setNestedInput false)

end Screens

end Uniterm.Model.Terminal
