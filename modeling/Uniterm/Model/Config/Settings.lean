import Uniterm.Model.Config.Values
import Uniterm.Model.EventLog.Event
import Uniterm.Model.Terminal.Renderer

/-! # Settings

The parser reads a configuration text line by line and ignores what it does not understand. The validator goes over
the same text and reports what is wrong with a line. They match keys and values separately.
-/

namespace Uniterm.Model

open EventLog Terminal

namespace Config

inductive StatusPosition where
  | top
  | bottom
deriving DecidableEq, Repr

inductive NotificationDelivery where
  | off
  | uniterm
  | terminal
  | system
deriving DecidableEq, Repr

namespace NotificationDelivery

def parse (value : Text) : NotificationDelivery :=
  match String.ofList (asciiLower value.trim) with
  | "uniterm" | "inline" => .uniterm
  | "terminal" => .terminal
  | "system" | "os" | "native" => .system
  | _ => .off

end NotificationDelivery

inductive NotificationSound where
  | off
  | bell
  | chime
  | file
deriving DecidableEq, Repr

namespace NotificationSound

def parse (value : Text) : NotificationSound :=
  match String.ofList (asciiLower value.trim) with
  | "bell" | "beep" => .bell
  | "chime" | "tone" => .chime
  | "file" | "custom" => .file
  | _ => .off

end NotificationSound

structure EditorRule where
  extension : Text
  command : Text
deriving DecidableEq, Repr

def EditorRule.parse (extension command : Text) : Except Text EditorRule :=
  let extension := asciiLower (extension.trim.dropWhile (· = '.'))
  if extension.isEmpty ∨ ¬ extension.all fun c => c.isAlphanum || c == '_' || c == '-' then
    .error ("invalid file extension '".toList ++ extension ++ ['\''])
  else
    let command := command.trim
    if command.isEmpty then .error ("editor command for .".toList ++ extension ++ " is empty".toList)
    else .ok { extension, command }

structure KeyBinding where
  key : UInt8
  action : Text
deriving DecidableEq, Repr

structure ConfigDiagnostic where
  line : ℕ
  message : Text
deriving DecidableEq, Repr

def maxActiveRuns : ℕ := 64
def maxRolePanes : ℕ := 256
def maxIterations : ℕ := 100
def maxElapsedSeconds : ℕ := 7 * 24 * 60 * 60
def maxProjectSelectors : ℕ := 64

end Config

open Config

structure Config where
  /-- The prefix key, Ctrl-A by default. -/
  prefixKey : UInt8 := 0x01
  status : Bool := true
  statusPosition : StatusPosition := .top
  scrollbackLimit : ℕ := 10000
  theme : Theme := .dark
  themePreset : ThemePreset := .unitermDark
  sidebar : Bool := true
  sidebarWidth : ℕ := 24
  fileSidebar : Bool := true
  fileSidebarWidth : ℕ := 36
  notifications : NotificationDelivery := .uniterm
  notifyCompletion : Bool := false
  notificationSound : NotificationSound := .bell
  notificationSoundFile : Text := []
  focusFollowsMouse : Bool := false
  confirmClose : Bool := true
  confirmTabClose : Bool := true
  editor : Text := "vi".toList
  editorRules : List EditorRule := []
  restore : Bool := true
  autoUpdateConnectors : Bool := true
  autoInstallConnectors : Bool := true
  windowTitle : Text := "{hostname}: {workspace}".toList
  statusRight : Text := "{zoom}".toList
  paneRightClick : Bool := false
  freezeOnSelect : Bool := false
  copyOnSelect : Bool := true
  guardrails : GuardLimits := ⟨8, 16, 3, 2 * 60 * 60⟩
  guardrailAllowedProjects : List Text := []
  bindings : List KeyBinding := []
deriving DecidableEq

namespace Config

/-- The settings that the lines so far gave. Whether closing a tab asks is open until a line says so. -/
structure Given extends Config where
  confirmTabCloseGiven : Option Bool := none
deriving DecidableEq

/-- Use a value if there is one. -/
def Given.take {α : Type} (g : Given) (value : Option α) (set : Given → α → Given) : Option Given :=
  some (value.elim g (set g))

section Reading

/-- The key and the value of a line that assigns one. -/
def assignment (raw : Text) : Option (Text × Text) :=
  let line := raw.trim
  if line.isEmpty ∨ line.head? = some '#' then none
  else (line.splitOnce ['=']).map fun (key, value) => (key.trim, configValue value)

/-- A value within limits. -/
def within (low high : ℕ) (value : Option ℕ) : Option ℕ := value.filter fun n => low ≤ n ∧ n ≤ high

/-- A selector that the settings can take. -/
def isSelector (value : Text) : Bool := !value.isEmpty && value.len ≤ 4096 && !value.any isControl

def Given.allowProject (g : Given) (value : Text) : Given :=
  if isSelector value ∧ g.guardrailAllowedProjects.length < maxProjectSelectors ∧
      value ∉ g.guardrailAllowedProjects then
    { g with guardrailAllowedProjects := g.guardrailAllowedProjects ++ [value] }
  else g

def Given.setEditorRule (g : Given) (rule : EditorRule) : Given :=
  let rules := g.editorRules.filter (·.extension ≠ rule.extension) ++ [rule]
  { g with editorRules := rules.mergeSort (fun left right => decide (left.extension ≤ right.extension)) }

def Given.bind (g : Given) (key : UInt8) (action : Text) : Given :=
  let bindings := g.bindings.filter (·.key ≠ key) ++ [⟨key, action⟩]
  { g with bindings := bindings.mergeSort (fun left right => decide (left.key ≤ right.key)) }

def Given.setTheme (g : Given) (value : Text) : Given :=
  { g with themePreset := .parse value, theme := .named value }

/-- A colour of the status line makes the theme a custom one. -/
def Given.setColor (g : Given) (value : Text) (set : Theme → Color → Theme) : Option Given :=
  (parseColor value).bind fun color =>
    g.take color fun g color => { g with themePreset := .custom, theme := set g.theme color }

/-- A setting, which aborts on a colour that cannot be sliced. -/
def Given.read (g : Given) (key val : Text) : Option Given :=
  match String.ofList key with
  | "prefix" => g.take (parseKey val) fun g b => { g with prefixKey := b }
  | "status" => g.take (parseBoolChecked val) fun g value => { g with status := value }
  | "auto-update-connectors" => g.take (parseBoolChecked val) fun g value => { g with autoUpdateConnectors := value }
  | "auto-install-connectors" => g.take (parseBoolChecked val) fun g value => { g with autoInstallConnectors := value }
  | "restore" | "autosave" => g.take (parseBoolChecked val) fun g value => { g with restore := value }
  | "status-position" =>
    if eqIgnoreAsciiCase val "top" then some { g with statusPosition := .top }
    else if eqIgnoreAsciiCase val "bottom" then some { g with statusPosition := .bottom }
    else some g
  | "scrollback-limit" => g.take (parseBelow (2 ^ 64) val) fun g n => { g with scrollbackLimit := n }
  | "theme" => some (g.setTheme val)
  | "sidebar" => g.take (parseBoolChecked val) fun g value => { g with sidebar := value }
  | "sidebar-width" =>
    g.take (parseBelow (2 ^ 16) val) fun g width => { g with sidebarWidth := min (max width 16) 40 }
  | "file-sidebar" => g.take (parseBoolChecked val) fun g value => { g with fileSidebar := value }
  | "file-sidebar-width" =>
    g.take (parseBelow (2 ^ 16) val) fun g width => { g with fileSidebarWidth := min (max width 22) 52 }
  | "notifications" | "notification-delivery" => some { g with notifications := .parse val }
  | "notify-completion" => g.take (parseBoolChecked val) fun g value => { g with notifyCompletion := value }
  | "notification-sound" => some { g with notificationSound := .parse val }
  | "notification-sound-file" => some { g with notificationSoundFile := val.trim }
  | "focus-follows-mouse" => g.take (parseBoolChecked val) fun g value => { g with focusFollowsMouse := value }
  | "confirm-close" => g.take (parseBoolChecked val) fun g value => { g with confirmClose := value }
  | "confirm-tab-close" => g.take (parseBoolChecked val) fun g value => { g with confirmTabCloseGiven := some value }
  | "window-title" => some { g with windowTitle := val }
  | "status-right" => some { g with statusRight := val }
  | "pane-right-click" => g.take (parseBoolChecked val) fun g value => { g with paneRightClick := value }
  | "freeze-on-select" => g.take (parseBoolChecked val) fun g value => { g with freezeOnSelect := value }
  | "copy-on-select" => g.take (parseBoolChecked val) fun g value => { g with copyOnSelect := value }
  | "guardrail-max-active-runs" =>
    g.take (within 1 maxActiveRuns (parseBelow (2 ^ 16) val)) fun g value =>
      { g with guardrails.maxActiveRuns := value }
  | "guardrail-max-role-panes" =>
    g.take (within 1 maxRolePanes (parseBelow (2 ^ 16) val)) fun g value => { g with guardrails.maxRolePanes := value }
  | "guardrail-max-iterations" =>
    g.take (within 1 maxIterations (parseBelow (2 ^ 32) val)) fun g value =>
      { g with guardrails.maxIterations := value }
  | "guardrail-max-elapsed-minutes" =>
    g.take (within 1 (maxElapsedSeconds / 60) (parseBelow (2 ^ 64) val)) fun g value =>
      { g with guardrails.maxElapsedSeconds := value * 60 }
  | "guardrail-allowed-project" => some (g.allowProject val)
  | "editor" => some (if val.isEmpty then g else { g with editor := val })
  | "status-bg" => g.setColor val fun theme color => { theme with statusBg := color }
  | "status-fg" => g.setColor val fun theme color => { theme with statusFg := color }
  | "status-active-bg" => g.setColor val fun theme color => { theme with statusActiveBg := color }
  | "status-active-fg" => g.setColor val fun theme color => { theme with statusActiveFg := color }
  | _ =>
    if "editor.".toList.isPrefixOf key then
      match EditorRule.parse (key.drop 7) val with
      | .ok rule => some (g.setEditorRule rule)
      | .error _ => some g
    else if "bind.".toList.isPrefixOf key then
      g.take ((parseBindingKey (key.drop 5)).filter fun _ => isBindingAction val) fun g b => g.bind b (asciiLower val)
    else some g

def Given.readLine (g : Given) (raw : Text) : Option Given :=
  match assignment raw with
  | some (key, val) => g.read key val
  | none => some g

/-- Without a line of its own, closing a tab asks when closing a pane does. -/
def Given.finish (g : Given) : Config := { g.toConfig with confirmTabClose := g.confirmTabCloseGiven.getD g.confirmClose }

/-- What the lines of a text give. -/
def given (text : Text) : Option Given := text.lines.foldlM Given.readLine {}

def parse (text : Text) : Option Config := (given text).map Given.finish

end Reading

section Validating

/-- A message about a value that is not accepted. -/
def complain (bad : Bool) (message : String) : Option Text := if bad then some message.toList else none

def projectProblem (allowedCount : ℕ) (value : Text) : Option Text :=
  if value.isEmpty ∨ value.len > 4096 ∨ value.any isControl then
    some "expected a non-empty Project name or canonical root".toList
  else complain (decide (allowedCount > maxProjectSelectors)) "at most 64 allowed Projects may be configured"

def bindingProblem (key value : Text) : Option Text :=
  if (parseBindingKey key).isNone then some ("invalid binding key '".toList ++ key ++ ['\''])
  else if ¬ isBindingAction value then some ("unknown binding action '".toList ++ value ++ ['\''])
  else none

/-- What is wrong with a setting, from the number of selectors up to this line. -/
def problem (allowedCount : ℕ) (key value : Text) : Option (Option Text) :=
  match String.ofList key with
  | "prefix" => some (complain (parseKey value).isNone "expected a key like C-a")
  | "status" | "restore" | "auto-update-connectors" | "auto-install-connectors" | "autosave" | "sidebar"
  | "file-sidebar" | "notify-completion" | "focus-follows-mouse" | "confirm-close" | "confirm-tab-close"
  | "pane-right-click" | "freeze-on-select" | "copy-on-select" =>
    some (complain (parseBoolChecked value).isNone "expected true/false, on/off, yes/no, or 1/0")
  | "status-position" =>
    some (complain (!eqIgnoreAsciiCase value "top" && !eqIgnoreAsciiCase value "bottom") "expected top or bottom")
  | "scrollback-limit" => some (complain (parseBelow (2 ^ 64) value).isNone "expected a non-negative integer")
  | "sidebar-width" | "file-sidebar-width" =>
    some (complain (parseBelow (2 ^ 16) value).isNone "expected an integer width")
  | "guardrail-max-active-runs" =>
    some (complain (within 1 maxActiveRuns (parseBelow (2 ^ 16) value)).isNone "expected an integer from 1 to 64")
  | "guardrail-max-role-panes" =>
    some (complain (within 1 maxRolePanes (parseBelow (2 ^ 16) value)).isNone "expected an integer from 1 to 256")
  | "guardrail-max-iterations" =>
    some (complain (within 1 maxIterations (parseBelow (2 ^ 32) value)).isNone "expected an integer from 1 to 100")
  | "guardrail-max-elapsed-minutes" =>
    some (complain (within 1 (maxElapsedSeconds / 60) (parseBelow (2 ^ 64) value)).isNone
      "expected an integer from 1 to 10080")
  | "guardrail-allowed-project" => some (projectProblem allowedCount value)
  | "theme" => some (if isThemeName value then none else some ("unknown theme '".toList ++ value ++ ['\'']))
  | "notifications" | "notification-delivery" =>
    some (complain (!(["off", "uniterm", "inline", "terminal", "system", "os", "native"].contains
      (String.ofList (asciiLower value)))) "expected off, uniterm, terminal, or system")
  | "notification-sound" =>
    some (complain (!(["off", "bell", "beep", "chime", "tone", "file", "custom"].contains
      (String.ofList (asciiLower value)))) "expected off, bell, chime, or file")
  | "status-bg" | "status-fg" | "status-active-bg" | "status-active-fg" =>
    (parseColor value).map fun color =>
      complain color.isNone "expected #rrggbb or a palette index from 0 to 255"
  | "editor" => some (complain value.isEmpty "editor command cannot be empty")
  | "notification-sound-file" | "window-title" | "status-right" | "default-workspace" => some none
  | _ =>
    if "editor.".toList.isPrefixOf key then
      match EditorRule.parse (key.drop 7) value with
      | .ok _ => some none
      | .error message => some (some message)
    else if "bind.".toList.isPrefixOf key then some (bindingProblem (key.drop 5) value)
    else some (some ("unknown key '".toList ++ key ++ ['\'']))

/-- The diagnostics of lines, from the number of the first one and the number of selectors in front of them. -/
def diagnosticsFrom (line allowedCount : ℕ) : List Text → Option (List ConfigDiagnostic)
  | [] => some []
  | raw :: rest =>
    match assignment raw with
    | none =>
      let bad := !(raw.trim.isEmpty || raw.trim.head? == some '#')
      (diagnosticsFrom (line + 1) allowedCount rest).map fun later =>
        ((complain bad "expected `key = value`").toList.map fun message => ⟨line, message⟩) ++ later
    | some (key, value) => do
      let allowedCount := if String.ofList key = "guardrail-allowed-project" then allowedCount + 1 else allowedCount
      let found ← problem allowedCount key value
      (diagnosticsFrom (line + 1) allowedCount rest).map fun later =>
        (found.toList.map fun message => ⟨line, message⟩) ++ later

def diagnostics (text : Text) : Option (List ConfigDiagnostic) := diagnosticsFrom 1 0 text.lines

end Validating

end Config

end Uniterm.Model
