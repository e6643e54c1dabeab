import Uniterm.Model.Config.Settings

/-! # The validator and the parser

What a line asks for is read strictly from its value. A line is judged rightly when it draws no diagnostic just where
the parser does what it asks for, and when a rejected value changes nothing. The parser falls back to defaults for some
values, trims others, and counts selectors differently; those lines are told by a condition.
-/

namespace Uniterm.Model.Config

section Asking

/-- Where a value says that notifications go. -/
def deliveryNamed (value : Text) : Option NotificationDelivery :=
  match String.ofList (asciiLower value.trim) with
  | "off" => some .off
  | "uniterm" | "inline" => some .uniterm
  | "terminal" => some .terminal
  | "system" | "os" | "native" => some .system
  | _ => none

/-- Which sound a value names. -/
def soundNamed (value : Text) : Option NotificationSound :=
  match String.ofList (asciiLower value.trim) with
  | "off" => some .off
  | "bell" | "beep" => some .bell
  | "chime" | "tone" => some .chime
  | "file" | "custom" => some .file
  | _ => none

def positionNamed (value : Text) : Option StatusPosition :=
  if eqIgnoreAsciiCase value "top" then some .top
  else if eqIgnoreAsciiCase value "bottom" then some .bottom
  else none

/-- A switch that a setting turns. -/
def switched (value : Text) (set : Given → Bool → Given) : Option (Given → Given) :=
  (parseBoolChecked value).map fun on g => set g on

/-- A number that a setting takes. -/
def counted (value : Option ℕ) (set : Given → ℕ → Given) : Option (Given → Given) := value.map fun n g => set g n

/-- A colour of the status line. -/
def colored (value : Text) (set : Theme → Color → Theme) : Option (Given → Given) :=
  (parseColor value).join.map fun color g => { g with themePreset := .custom, theme := set g.theme color }

/-- What a line asks for: its setting, with the value of the line and nothing else. -/
def asked (key value : Text) : Option (Given → Given) :=
  match String.ofList key with
  | "prefix" => (parseKey value).map fun b g => { g with prefixKey := b }
  | "status" => switched value fun g on => { g with status := on }
  | "auto-update-connectors" => switched value fun g on => { g with autoUpdateConnectors := on }
  | "auto-install-connectors" => switched value fun g on => { g with autoInstallConnectors := on }
  | "restore" | "autosave" => switched value fun g on => { g with restore := on }
  | "status-position" => (positionNamed value).map fun place g => { g with statusPosition := place }
  | "scrollback-limit" => counted (parseBelow (2 ^ 64) value) fun g n => { g with scrollbackLimit := n }
  | "theme" => if isThemeName value then some fun g => g.setTheme value else none
  | "sidebar" => switched value fun g on => { g with sidebar := on }
  | "sidebar-width" => counted (parseBelow (2 ^ 16) value) fun g n => { g with sidebarWidth := min (max n 16) 40 }
  | "file-sidebar" => switched value fun g on => { g with fileSidebar := on }
  | "file-sidebar-width" =>
    counted (parseBelow (2 ^ 16) value) fun g n => { g with fileSidebarWidth := min (max n 22) 52 }
  | "notifications" | "notification-delivery" =>
    (deliveryNamed value).map fun delivery g => { g with notifications := delivery }
  | "notify-completion" => switched value fun g on => { g with notifyCompletion := on }
  | "notification-sound" => (soundNamed value).map fun sound g => { g with notificationSound := sound }
  | "notification-sound-file" => some fun g => { g with notificationSoundFile := value.trim }
  | "focus-follows-mouse" => switched value fun g on => { g with focusFollowsMouse := on }
  | "confirm-close" => switched value fun g on => { g with confirmClose := on }
  | "confirm-tab-close" => switched value fun g on => { g with confirmTabCloseGiven := some on }
  | "window-title" => some fun g => { g with windowTitle := value }
  | "status-right" => some fun g => { g with statusRight := value }
  | "pane-right-click" => switched value fun g on => { g with paneRightClick := on }
  | "freeze-on-select" => switched value fun g on => { g with freezeOnSelect := on }
  | "copy-on-select" => switched value fun g on => { g with copyOnSelect := on }
  | "guardrail-max-active-runs" =>
    counted (within 1 maxActiveRuns (parseBelow (2 ^ 16) value)) fun g n => { g with guardrails.maxActiveRuns := n }
  | "guardrail-max-role-panes" =>
    counted (within 1 maxRolePanes (parseBelow (2 ^ 16) value)) fun g n => { g with guardrails.maxRolePanes := n }
  | "guardrail-max-iterations" =>
    counted (within 1 maxIterations (parseBelow (2 ^ 32) value)) fun g n => { g with guardrails.maxIterations := n }
  | "guardrail-max-elapsed-minutes" =>
    counted (within 1 (maxElapsedSeconds / 60) (parseBelow (2 ^ 64) value)) fun g n =>
      { g with guardrails.maxElapsedSeconds := n * 60 }
  | "guardrail-allowed-project" =>
    if isSelector value then
      some fun g =>
        if value ∈ g.guardrailAllowedProjects then g
        else { g with guardrailAllowedProjects := g.guardrailAllowedProjects ++ [value] }
    else none
  | "editor" => if value.isEmpty then none else some fun g => { g with editor := value }
  | "status-bg" => colored value fun theme color => { theme with statusBg := color }
  | "status-fg" => colored value fun theme color => { theme with statusFg := color }
  | "status-active-bg" => colored value fun theme color => { theme with statusActiveBg := color }
  | "status-active-fg" => colored value fun theme color => { theme with statusActiveFg := color }
  | _ =>
    if "editor.".toList.isPrefixOf key then (EditorRule.parse (key.drop 7) value).toOption.map fun rule g => g.setEditorRule rule
    else if "bind.".toList.isPrefixOf key ∧ isBindingAction value then
      (parseBindingKey (key.drop 5)).map fun b g => g.bind b (asciiLower value.trim)
    else none

end Asking

section Plain

/-- The parser does what a line asks for and ignores a line that asks for nothing, and the validator reports just the
latter. -/
def Plain (key value : Text) : Prop := ∀ (g : Given) (count : ℕ),
  g.read key value = some ((asked key value).elim g (· g)) ∧
    ∃ found, problem count key value = some found ∧ (found = none ↔ (asked key value).isSome)

variable {key value : Text}

private theorem complain_eq_none {bad : Bool} {message : String} : complain bad message = none ↔ bad = false := by
  cases bad <;> simp [complain]

private theorem plain_of_take {α : Type} (reading : Option α) (set : Given → α → Given) (message : String)
    (reads : ∀ g : Given, g.read key value = g.take reading set)
    (judges : ∀ count, problem count key value = some (complain reading.isNone message))
    (asks : asked key value = reading.map fun a g => set g a) : Plain key value := by
  intro g count
  refine ⟨?_, _, judges count, ?_⟩
  · rw [reads, asks, Given.take]
    cases reading <;> rfl
  · rw [complain_eq_none, asks, Option.isSome_map]
    cases reading <;> simp

/-- The settings that take a switch, a number or a key, or stay as they are. -/
def takenKeys : List String :=
  ["prefix", "status", "auto-update-connectors", "auto-install-connectors", "restore", "autosave", "sidebar",
    "file-sidebar", "notify-completion", "focus-follows-mouse", "confirm-close", "confirm-tab-close",
    "pane-right-click", "freeze-on-select", "copy-on-select", "scrollback-limit", "sidebar-width",
    "file-sidebar-width", "guardrail-max-active-runs", "guardrail-max-role-panes", "guardrail-max-iterations",
    "guardrail-max-elapsed-minutes"]

/-- The settings that take any text, or any but an empty one. -/
def textKeys : List String := ["notification-sound-file", "window-title", "status-right", "editor"]

def colorKeys : List String := ["status-bg", "status-fg", "status-active-bg", "status-active-fg"]

/-- The settings with a key of their own. -/
def settingKeys : List String :=
  takenKeys ++ textKeys ++ colorKeys ++ ["status-position", "theme", "notifications", "notification-delivery",
    "notification-sound", "guardrail-allowed-project"]

theorem plain_taken (is_taken : String.ofList key ∈ takenKeys) : Plain key value := by
  simp only [takenKeys, List.mem_cons, List.not_mem_nil, or_false] at is_taken
  rcases is_taken with is_key | is_key | is_key | is_key | is_key | is_key | is_key | is_key | is_key | is_key |
    is_key | is_key | is_key | is_key | is_key | is_key | is_key | is_key | is_key | is_key | is_key | is_key
  -- The validator's own match tells the reading and the message, the parser's the setting.
  all_goals
    apply plain_of_take
    case judges =>
      intro count
      unfold problem
      rw [is_key]
      rfl
    case reads =>
      intro g
      unfold Given.read
      rw [is_key]
      rfl
    case asks =>
      unfold asked
      rw [is_key]
      rfl

theorem plain_text (is_text : String.ofList key ∈ textKeys) : Plain key value := by
  intro g count
  simp only [textKeys, List.mem_cons, List.not_mem_nil, or_false] at is_text
  unfold Given.read problem asked
  obtain is_key | is_key | is_key | is_key := is_text
  · rw [is_key]
    exact ⟨rfl, none, rfl, by simp⟩
  · rw [is_key]
    exact ⟨rfl, none, rfl, by simp⟩
  · rw [is_key]
    exact ⟨rfl, none, rfl, by simp⟩
  · rw [is_key]
    cases empty : value.isEmpty with
    | true => exact ⟨rfl, _, rfl, by simp [complain]⟩
    | false => exact ⟨rfl, _, rfl, by simp [complain]⟩

theorem plain_position (is_key : String.ofList key = "status-position") : Plain key value := by
  intro g count
  have reads : g.read key value = if eqIgnoreAsciiCase value "top" then some { g with statusPosition := .top }
      else if eqIgnoreAsciiCase value "bottom" then some { g with statusPosition := .bottom } else some g := by
    unfold Given.read
    rw [is_key]
    rfl
  have asks : asked key value =
      (positionNamed value).map fun place (g : Given) => { g with statusPosition := place } := by
    unfold asked
    rw [is_key]
    rfl
  have judges : problem count key value = some (complain
      (!eqIgnoreAsciiCase value "top" && !eqIgnoreAsciiCase value "bottom") "expected top or bottom") := by
    unfold problem
    rw [is_key]
    rfl
  rw [reads, asks, positionNamed]
  refine ⟨by split_ifs <;> rfl, _, judges, ?_⟩
  rw [complain_eq_none]
  cases eqIgnoreAsciiCase value "top" <;> cases eqIgnoreAsciiCase value "bottom" <;> simp

private theorem setColor_eq {color : Option Color} (sliced : parseColor value = some color) (g : Given)
    (set : Theme → Color → Theme) : g.setColor value set =
      g.take color fun g color => { g with themePreset := .custom, theme := set g.theme color } := by
  rw [Given.setColor, sliced]
  rfl

private theorem colored_eq {color : Option Color} (sliced : parseColor value = some color)
    (set : Theme → Color → Theme) :
    colored value set = color.map fun color g => { g with themePreset := .custom, theme := set g.theme color } := by
  rw [colored, sliced]
  rfl

/-- Colours that can be sliced are plain. -/
theorem plain_color {color : Option Color} (sliced : parseColor value = some color)
    (is_color : String.ofList key ∈ colorKeys) : Plain key value := by
  simp only [colorKeys, List.mem_cons, List.not_mem_nil, or_false] at is_color
  obtain is_key | is_key | is_key | is_key := is_color
  all_goals
    apply plain_of_take color
    case judges =>
      intro count
      unfold problem
      rw [is_key]
      exact congrArg (Option.map _) sliced
    case reads =>
      intro g
      unfold Given.read
      rw [is_key]
      exact setColor_eq sliced g _
    case asks =>
      unfold asked
      rw [is_key]
      exact colored_eq sliced _

section Families

/-- The keys that a match on whole keys tells apart. -/
def wholeKeys : List String := "default-workspace" :: settingKeys

private theorem not_whole {lead : String} (alone : ∀ name ∈ wholeKeys, ¬ lead.toList.isPrefixOf name.toList)
    (starts : lead.toList.isPrefixOf key) : String.ofList key ∉ wholeKeys := fun member => by
  have other := alone _ member
  rw [String.toList_ofList] at other
  exact other starts

variable (other : String.ofList key ∉ wholeKeys)

include other in
theorem read_other (g : Given) : g.read key value =
    if "editor.".toList.isPrefixOf key then
      match EditorRule.parse (key.drop 7) value with
      | .ok rule => some (g.setEditorRule rule)
      | .error _ => some g
    else if "bind.".toList.isPrefixOf key then
      g.take ((parseBindingKey (key.drop 5)).filter fun _ => isBindingAction value) fun g b =>
        g.bind b (asciiLower value)
    else some g := by
  unfold Given.read
  split
  -- The last arm is the only one whose key is none of the listed ones.
  all_goals first
    | rfl
    | next is_key =>
      rw [is_key] at other
      exact absurd (by decide) other

include other in
theorem problem_other (count : ℕ) : problem count key value =
    if "editor.".toList.isPrefixOf key then
      match EditorRule.parse (key.drop 7) value with
      | .ok _ => some none
      | .error message => some (some message)
    else if "bind.".toList.isPrefixOf key then some (bindingProblem (key.drop 5) value)
    else some (some ("unknown key '".toList ++ key ++ ['\''])) := by
  unfold problem
  split
  all_goals first
    | rfl
    | next is_key =>
      rw [is_key] at other
      exact absurd (by decide) other

include other in
theorem asked_other : asked key value =
    if "editor.".toList.isPrefixOf key then
      (EditorRule.parse (key.drop 7) value).toOption.map fun rule g => g.setEditorRule rule
    else if "bind.".toList.isPrefixOf key ∧ isBindingAction value then
      (parseBindingKey (key.drop 5)).map fun b g => g.bind b (asciiLower value.trim)
    else none := by
  unfold asked
  split
  all_goals first
    | rfl
    | next is_key =>
      rw [is_key] at other
      exact absurd (by decide) other

omit other

theorem editor_other (starts : "editor.".toList.isPrefixOf key) : String.ofList key ∉ wholeKeys :=
  not_whole (by decide) starts

theorem bind_other (starts : "bind.".toList.isPrefixOf key) : String.ofList key ∉ wholeKeys :=
  not_whole (by decide) starts

/-- Both read an editor rule with the same parser. -/
theorem plain_editor (starts : "editor.".toList.isPrefixOf key) : Plain key value := by
  intro g count
  rw [read_other (editor_other starts), problem_other (editor_other starts), asked_other (editor_other starts),
    if_pos starts, if_pos starts, if_pos starts]
  cases EditorRule.parse (key.drop 7) value with
  | error message => exact ⟨rfl, _, rfl, by simp [Except.toOption]⟩
  | ok rule => exact ⟨rfl, none, rfl, by simp [Except.toOption]⟩

theorem not_editor (starts : "bind.".toList.isPrefixOf key) : ¬ "editor.".toList.isPrefixOf key := by
  rw [List.isPrefixOf_iff_prefix] at starts ⊢
  obtain ⟨rest, rfl⟩ := starts
  rintro ⟨other_rest, same⟩
  exact absurd (List.cons.inj same).1 (by decide)

end Families

end Plain

end Uniterm.Model.Config
