import Uniterm.Model.Input.Keyboard

/-! # The prefix key

The attach client forwards raw input bytes, except that a byte after the prefix is a key: one bound to an action or
a command, or forwarded together with the prefix. A nested client needs a doubled prefix. Frames are modelled by the
messages that they encode.
-/

namespace Uniterm.Model.Input

open Model

inductive SplitAxis where
  | leftRight | topBottom
deriving DecidableEq, Repr

inductive FocusDir where
  | left | right | up | down
deriving DecidableEq, Repr

inductive TabMoveDirection where
  | previous | next
deriving DecidableEq, Repr

inductive FileSort where
  | name | recency
deriving DecidableEq, Repr

/-- The commands that keys run. -/
inductive Command where
  | split (axis : SplitAxis)
  | focus (direction : FocusDir)
  | zoomToggle | killPane | newWindow | nextWindow | prevWindow
  | selectWindow (index : UInt8)
  | killWindow | overview | copyMode
  | resizePane (direction : FocusDir)
  | fileSidebarToggle | sidebarToggle
  | moveTab (direction : TabMoveDirection)
  | lastPane | today
  | fileSort (order : FileSort)
deriving DecidableEq, Repr

/-- What a processed key batch asks the attach loop to do. -/
inductive Action where
  | none | detach | toggleOverlay | observatory | tasks | agents | rename | renameSession | menu | sessions
  | settings | projects | newProject | closeWorkspace
  | confirm (command : Command)
deriving DecidableEq, Repr

/-- The messages that the frames carry. -/
inductive ClientMessage where
  | input (bytes : Bytes)
  | command (command : Command)
deriving DecidableEq, Repr

structure PrefixState where
  pending : Bool := false
  outerPending : Bool := false
  nested : Bool := false
  paste : KeyboardInput := {}
deriving DecidableEq, Repr

/-- One post-prefix key mapped to a stable semantic action name. -/
structure KeyBinding where
  key : UInt8
  action : String
deriving DecidableEq, Repr

inductive ConfiguredBinding where
  | disabled
  | action (action : Action)
  | command (command : Command)
deriving DecidableEq, Repr

/-- The key of an ASCII character. -/
def keyOf (c : Char) : UInt8 := UInt8.ofNat c.toNat

/-- The binding of an action name. Invalid action names never enter the configuration. -/
def bindingOf (action : String) : Option ConfiguredBinding :=
  match action with
  | "none" => some .disabled
  | "detach" => some (.action .detach)
  | "new-task" => some (.action .toggleOverlay)
  | "observatory" => some (.action .observatory)
  | "tasks" => some (.action .tasks)
  | "today" => some (.command .today)
  | "agents" => some (.action .agents)
  | "rename-tab" => some (.action .rename)
  | "rename-workspace" => some (.action .renameSession)
  | "menu" => some (.action .menu)
  | "workspaces" => some (.action .sessions)
  | "settings" => some (.action .settings)
  | "projects" => some (.action .projects)
  | "new-project" => some (.action .newProject)
  | "close-workspace" => some (.action .closeWorkspace)
  | "split-right" => some (.command (.split .leftRight))
  | "split-down" => some (.command (.split .topBottom))
  | "focus-left" => some (.command (.focus .left))
  | "focus-right" => some (.command (.focus .right))
  | "focus-up" => some (.command (.focus .up))
  | "focus-down" => some (.command (.focus .down))
  | "resize-left" => some (.command (.resizePane .left))
  | "resize-right" => some (.command (.resizePane .right))
  | "resize-up" => some (.command (.resizePane .up))
  | "resize-down" => some (.command (.resizePane .down))
  | "zoom" => some (.command .zoomToggle)
  | "kill-pane" => some (.command .killPane)
  | "new-tab" => some (.command .newWindow)
  | "next-tab" => some (.command .nextWindow)
  | "previous-tab" => some (.command .prevWindow)
  | "move-tab-left" => some (.command (.moveTab .previous))
  | "move-tab-right" => some (.command (.moveTab .next))
  | "kill-tab" => some (.command .killWindow)
  | "overview" => some (.command .overview)
  | "copy-mode" => some (.command .copyMode)
  | "files" => some (.command .fileSidebarToggle)
  | "files-by-name" => some (.command (.fileSort .name))
  | "files-by-recency" => some (.command (.fileSort .recency))
  | "sidebar" => some (.command .sidebarToggle)
  | _ => none

/-- The configured binding of a key: the first one counts. -/
def configuredBinding (key : UInt8) (bindings : List KeyBinding) : Option ConfiguredBinding :=
  (bindings.find? (·.key = key)).bind fun binding => bindingOf binding.action

/-- The built-in action of a key that the attach loop carries out itself. -/
def actionFor (key : UInt8) : Option Action :=
  if key = keyOf 'N' then some .toggleOverlay
  else if key = keyOf 'o' then some .observatory
  else if key = keyOf 't' then some .tasks
  else if key = keyOf 'a' then some .agents
  else if key = keyOf ',' then some .rename
  else if key = keyOf '$' then some .renameSession
  else if key = keyOf 'm' then some .menu
  else if key = keyOf 's' then some .sessions
  else if key = keyOf 'g' then some .settings
  else if key = keyOf 'P' then some .projects
  else if key = keyOf 'A' then some .newProject
  else if key = keyOf 'Q' then some .closeWorkspace
  else none

/-- Map a post-prefix key byte to a built-in command, if bound. -/
def commandFor (key : UInt8) : Option Command :=
  if key = keyOf '%' then some (.split .leftRight)
  else if key = keyOf '"' then some (.split .topBottom)
  else if key = keyOf 'h' then some (.focus .left)
  else if key = keyOf 'j' then some (.focus .down)
  else if key = keyOf 'k' then some (.focus .up)
  else if key = keyOf 'l' then some (.focus .right)
  else if key = keyOf 'z' then some .zoomToggle
  else if key = keyOf 'x' then some .killPane
  else if key = keyOf 'c' then some .newWindow
  else if key = keyOf 'n' then some .nextWindow
  else if key = keyOf 'p' then some .prevWindow
  else if keyOf '1' ≤ key ∧ key ≤ keyOf '9' then some (.selectWindow (key - keyOf '1'))
  else if key = keyOf '0' then some (.selectWindow 9)
  else if key = keyOf '&' then some .killWindow
  else if key = keyOf 'w' then some .overview
  else if key = keyOf '[' then some .copyMode
  else if key = keyOf 'f' then some .fileSidebarToggle
  else if key = keyOf 'b' then some .sidebarToggle
  else if key = keyOf 'H' then some (.resizePane .left)
  else if key = keyOf 'J' then some (.resizePane .down)
  else if key = keyOf 'K' then some (.resizePane .up)
  else if key = keyOf 'L' then some (.resizePane .right)
  else if key = keyOf '<' then some (.moveTab .previous)
  else if key = keyOf '>' then some (.moveTab .next)
  else if key = keyOf ';' then some .lastPane
  else if key = keyOf 'D' then some .today
  else none

/-- What the configuration tells the prefix machine. -/
structure Settings where
  prefixKey : UInt8
  confirmClose : Bool
  confirmTabClose : Bool
  bindings : List KeyBinding
deriving DecidableEq, Repr

def requiresCloseConfirmation (settings : Settings) : Command → Bool
  | .killPane => settings.confirmClose
  | .killWindow => settings.confirmTabClose
  | _ => false

/-- What a byte after the prefix does. -/
inductive Resolved where
  | act (action : Action)
  | run (command : Command)
  | forward (bytes : Bytes)
deriving DecidableEq, Repr

/-- A command that asks for a second action first becomes one. -/
def runOrConfirm (settings : Settings) (command : Command) : Resolved :=
  if requiresCloseConfirmation settings command then .act (.confirm command) else .run command

/-- The configured bindings come first, then the built-in ones; an unbound key goes through with the prefix. -/
def resolveKey (settings : Settings) (key : UInt8) : Resolved :=
  match configuredBinding key settings.bindings with
  | some .disabled => .forward []
  | some (.action action) => .act action
  | some (.command command) => runOrConfirm settings command
  | none =>
    match actionFor key with
    | some action => .act action
    | none =>
      match commandFor key with
      | some command => runOrConfirm settings command
      | none =>
        if key = keyOf 'd' then .act .detach
        else if key = settings.prefixKey then .forward [settings.prefixKey]
        else .forward [settings.prefixKey, key]

/-- What one byte does: it is passed on, with or without a prefix that was held back, or it is a key. -/
inductive Effect where
  | pass (bytes : Bytes)
  | key (resolved : Resolved)
deriving DecidableEq, Repr

/-- One byte of the prefix machine. -/
def PrefixState.step (settings : Settings) (state : PrefixState) (byte : UInt8) : PrefixState × Effect :=
  let (paste, claimed) := state.paste.observeByte byte
  let state := { state with paste }
  if claimed then (state, .pass [byte])
  else if state.nested && !state.outerPending then
    if state.pending then
      if byte = settings.prefixKey then ({ state with pending := false, outerPending := true }, .pass [])
      else ({ state with pending := false }, .pass [settings.prefixKey, byte])
    else if byte = settings.prefixKey then ({ state with pending := true }, .pass [])
    else (state, .pass [byte])
  else if state.nested || state.pending then
    ({ state with outerPending := if state.nested then false else state.outerPending, pending := false },
      .key (resolveKey settings byte))
  else if byte = settings.prefixKey then ({ state with pending := true }, .pass [])
  else (state, .pass [byte])

/-- Send the bytes that were passed on. -/
def flushPassthrough (passthrough : Bytes) (out : List ClientMessage) : List ClientMessage :=
  if passthrough.isEmpty then out else out ++ [.input passthrough]

/-- Feed bytes through the machine, flushing typed bytes before a key acts. An action ends the call. -/
def processFrom (settings : Settings) :
    PrefixState → Bytes → List ClientMessage → Bytes → Action × PrefixState × List ClientMessage
  | state, passthrough, out, [] => (.none, state, flushPassthrough passthrough out)
  | state, passthrough, out, byte :: rest =>
    match state.step settings byte with
    | (state, .pass bytes) => processFrom settings state (passthrough ++ bytes) out rest
    | (state, .key (.forward bytes)) => processFrom settings state bytes (flushPassthrough passthrough out) rest
    | (state, .key (.run command)) =>
      processFrom settings state [] (flushPassthrough passthrough out ++ [.command command]) rest
    | (state, .key (.act action)) => (action, state, flushPassthrough passthrough out)

/-- Feed one read through the prefix machine, appending its messages. -/
def processInputWithBindings (settings : Settings) (state : PrefixState) (bytes : Bytes) (out : List ClientMessage) :
    Action × PrefixState × List ClientMessage := processFrom settings state [] out bytes

end Uniterm.Model.Input
