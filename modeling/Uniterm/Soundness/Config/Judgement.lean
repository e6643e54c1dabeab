import Uniterm.Soundness.Config.Validation

/-! # Lines judged rightly

Most settings are plain. The theme and the notification settings fall back to a default, a quoted value may have blanks
around it, and the validator counts the selectors of the text where the parser counts the ones it took.
-/

namespace Uniterm.Model.Config

variable {key value : Text}

section Blanks

theorem trim_sublist (text : Text) : text.trim.Sublist text :=
  (List.rdropWhile_prefix ..).sublist.trans (List.dropWhile_sublist _)

private theorem trim_eq_self {text : Text} (unspaced : ∀ c ∈ text, isWhitespace c = false) : text.trim = text := by
  have front : text.dropWhile isWhitespace = text := by
    rw [List.dropWhile_eq_self_iff]
    intro long
    exact Bool.eq_false_iff.mp (unspaced _ (List.getElem_mem long))
  rw [Text.trim, Text.trimMatches, front, List.rdropWhile_eq_self_iff]
  intro long
  exact Bool.eq_false_iff.mp (unspaced _ (List.getLast_mem long))

private theorem asciiLower_trim : asciiLower value.trim = asciiLower value ↔ value.trim = value := by
  constructor
  · intro same
    have lengths := congrArg List.length same
    rw [asciiLower, asciiLower, List.length_map, List.length_map] at lengths
    exact (trim_sublist value).eq_of_length lengths
  · exact congrArg asciiLower

/-- Blanks have no case. -/
theorem toLower_blank {c : Char} (blank : isWhitespace c) : c.toLower = c := by
  apply dif_neg
  rintro ⟨from_a, to_z⟩
  have from_a : 65 ≤ c.toNat := by simpa [Char.le_def, UInt32.le_iff_toNat_le] using from_a
  have to_z : c.toNat ≤ 90 := by simpa [Char.le_def, UInt32.le_iff_toNat_le] using to_z
  simp only [isWhitespace, Bool.or_eq_true, Bool.and_eq_true, decide_eq_true_eq, beq_iff_eq] at blank
  omega

/-- A value is one of some names as it stands when it is one without the blanks around it and has none. -/
theorem contains_lower {names : List String} (unspaced : ∀ name ∈ names, name.toList.all fun c => !isWhitespace c) :
    names.contains (String.ofList (asciiLower value)) ↔
      value.trim = value ∧ names.contains (String.ofList (asciiLower value.trim)) := by
  constructor
  · intro listed
    have trimmed : value.trim = value := by
      apply trim_eq_self
      intro c member
      by_contra blank
      rw [Bool.not_eq_false] at blank
      have lower : c ∈ asciiLower value := List.mem_map.mpr ⟨c, member, toLower_blank blank⟩
      have clear := List.all_eq_true.mp (unspaced _ (List.contains_iff_mem.mp listed)) c (by rwa [String.toList_ofList])
      rw [blank] at clear
      contradiction
    exact ⟨trimmed, by rwa [trimmed]⟩
  · rintro ⟨trimmed, listed⟩
    rwa [trimmed] at listed

end Blanks

section Verdicts

/-- The validator passes a line just where the parser does what it asks for, and a line that it does not pass leaves the
settings as they are. -/
def Judged (g : Given) (count : ℕ) (key value : Text) : Prop := ∃ next found,
  g.read key value = some next ∧ problem count key value = some found ∧
    (found = none ↔ ∃ update ∈ asked key value, next.finish = (update g).finish) ∧
    (found.isSome → next.finish = g.finish)

theorem Plain.judged (plain : Plain key value) (g : Given) (count : ℕ) : Judged g count key value := by
  obtain ⟨reads, found, judges, passed⟩ := plain g count
  refine ⟨_, found, reads, judges, ?_, ?_⟩
  · rw [passed]
    cases asked key value with
    | none => simp
    | some update => simp
  · intro rejected
    have nothing : ¬ (asked key value).isSome := fun asks => by
      rw [passed.mpr asks] at rejected
      contradiction
    rw [Option.not_isSome_iff_eq_none] at nothing
    rw [nothing]
    rfl

/-- A setting that falls back to a default: a name that it does not know is not passed and sets the default. -/
theorem judged_fallback {α : Type} (named : Option α) (fallback : α) (set : Given → α → Given)
    {passed isDefault : Prop} [Decidable passed] {message : Text} {g : Given} {count : ℕ}
    (reads : g.read key value = some (set g (named.getD fallback)))
    (judges : problem count key value = some (if passed then none else some message))
    (asks : asked key value = named.map fun a g => set g a) (knows : passed → named.isSome)
    (kept : (set g fallback).finish = g.finish ↔ isDefault) :
    Judged g count key value ↔ (named.isSome → passed) ∧ (named = none → isDefault) := by
  cases named with
  | none =>
    have rejected : ¬ passed := fun pass => by simpa using knows pass
    rw [if_neg rejected] at judges
    constructor
    · rintro ⟨next, found, read, judged, -, unchanged⟩
      rw [reads] at read
      rw [judges] at judged
      obtain rfl := Option.some.inj read
      obtain rfl := Option.some.inj judged
      exact ⟨by simp, fun _ => kept.mp (unchanged rfl)⟩
    · rintro ⟨-, default⟩
      exact ⟨_, _, reads, judges, by simp [asks], fun _ => kept.mpr (default rfl)⟩
  | some a =>
    constructor
    · rintro ⟨next, found, read, judged, honoured, -⟩
      rw [reads] at read
      rw [judges] at judged
      obtain rfl := Option.some.inj read
      obtain rfl := Option.some.inj judged
      have passes := honoured.mpr ⟨_, by rw [asks]; rfl, rfl⟩
      refine ⟨fun _ => ?_, nofun⟩
      by_contra rejected
      rw [if_neg rejected] at passes
      contradiction
    · rintro ⟨pass, -⟩
      rw [if_pos (pass rfl)] at judges
      exact ⟨_, _, reads, judges, by simp [asks], by simp⟩

private theorem complain_not (passed : Bool) (message : String) :
    complain (!passed) message = if passed then none else some message.toList := by
  cases passed <;> rfl

end Verdicts

section Fallbacks

/-- The names that the validator passes for a notification, and for a sound. -/
def deliveryNames : List String := ["off", "uniterm", "inline", "terminal", "system", "os", "native"]

def soundNames : List String := ["off", "bell", "beep", "chime", "tone", "file", "custom"]

private theorem deliveryNamed_isSome :
    (deliveryNamed value).isSome ↔ deliveryNames.contains (String.ofList (asciiLower value.trim)) := by
  unfold deliveryNamed
  generalize String.ofList (asciiLower value.trim) = name
  split
  case h_8 => simp_all [deliveryNames]
  all_goals simp [deliveryNames]

private theorem soundNamed_isSome :
    (soundNamed value).isSome ↔ soundNames.contains (String.ofList (asciiLower value.trim)) := by
  unfold soundNamed
  generalize String.ofList (asciiLower value.trim) = name
  split
  case h_8 => simp_all [soundNames]
  all_goals simp [soundNames]

private theorem parse_delivery : NotificationDelivery.parse value = (deliveryNamed value).getD .off := by
  unfold NotificationDelivery.parse deliveryNamed
  generalize String.ofList (asciiLower value.trim) = name
  split
  case h_7 => split <;> simp_all
  all_goals rfl

private theorem parse_sound : NotificationSound.parse value = (soundNamed value).getD .off := by
  unfold NotificationSound.parse soundNamed
  generalize String.ofList (asciiLower value.trim) = name
  split
  case h_7 => split <;> simp_all
  all_goals rfl

/-- A delivery or a sound is judged rightly unless it has blanks around it or is unknown where something is set. -/
theorem judged_delivery (is_key : String.ofList key ∈ ["notifications", "notification-delivery"]) (g : Given)
    (count : ℕ) : Judged g count key value ↔ ((deliveryNamed value).isSome → value.trim = value) ∧
      (deliveryNamed value = none → g.notifications = .off) := by
  have spaced : deliveryNames.contains (String.ofList (asciiLower value)) ↔
      value.trim = value ∧ (deliveryNamed value).isSome := by
    rw [contains_lower (by decide), deliveryNamed_isSome]
  have judged : Judged g count key value ↔
      ((deliveryNamed value).isSome → deliveryNames.contains (String.ofList (asciiLower value))) ∧
        (deliveryNamed value = none → g.notifications = .off) := by
    simp only [List.mem_cons, List.not_mem_nil, or_false] at is_key
    apply judged_fallback (deliveryNamed value) .off (fun g delivery => { g with notifications := delivery })
    case reads =>
      rw [← parse_delivery]
      unfold Given.read
      obtain is_key | is_key := is_key <;> rw [is_key] <;> rfl
    case judges =>
      rw [← complain_not _ "expected off, uniterm, terminal, or system"]
      unfold problem
      obtain is_key | is_key := is_key <;> rw [is_key] <;> rfl
    case asks =>
      unfold asked
      obtain is_key | is_key := is_key <;> rw [is_key] <;> rfl
    case knows => exact fun passes => (spaced.mp passes).2
    case kept =>
      exact ⟨fun same => (congrArg Config.notifications same).symm, fun default => by rw [← default]⟩
  rw [judged, spaced]
  constructor
  · rintro ⟨passes, default⟩
    exact ⟨fun names => (passes names).1, default⟩
  · rintro ⟨trimmed, default⟩
    exact ⟨fun names => ⟨trimmed names, names⟩, default⟩

private theorem judged_sound (is_key : String.ofList key = "notification-sound") (g : Given) (count : ℕ) :
    Judged g count key value ↔ ((soundNamed value).isSome → value.trim = value) ∧
      (soundNamed value = none → g.notificationSound = .off) := by
  have spaced : soundNames.contains (String.ofList (asciiLower value)) ↔
      value.trim = value ∧ (soundNamed value).isSome := by
    rw [contains_lower (by decide), soundNamed_isSome]
  have judged : Judged g count key value ↔
      ((soundNamed value).isSome → soundNames.contains (String.ofList (asciiLower value))) ∧
        (soundNamed value = none → g.notificationSound = .off) := by
    apply judged_fallback (soundNamed value) .off (fun g sound => { g with notificationSound := sound })
    case reads =>
      rw [← parse_sound]
      unfold Given.read
      rw [is_key]
      rfl
    case judges =>
      rw [← complain_not _ "expected off, bell, chime, or file"]
      unfold problem
      rw [is_key]
      rfl
    case asks =>
      unfold asked
      rw [is_key]
      rfl
    case knows => exact fun passes => (spaced.mp passes).2
    case kept =>
      exact ⟨fun same => (congrArg Config.notificationSound same).symm, fun default => by rw [← default]⟩
  rw [judged, spaced]
  constructor
  · rintro ⟨passes, default⟩
    exact ⟨fun names => (passes names).1, default⟩
  · rintro ⟨trimmed, default⟩
    exact ⟨fun names => ⟨trimmed names, names⟩, default⟩

end Fallbacks

section Themes

/-- The validator knows every name that the parser does. -/
theorem parse_theme (unknown : isThemeName value = false) : ThemePreset.parse value = .unitermDark := by
  simp only [isThemeName, Bool.or_eq_false_iff, List.any_eq_false] at unknown
  obtain ⟨unlisted, unnamed⟩ := unknown
  unfold ThemePreset.parse
  revert unlisted unnamed
  generalize String.ofList (asciiLower value.trim) = name
  intro unlisted unnamed
  have absent : ∀ preset : ThemePreset, preset ∈ ThemePreset.all → preset.name ≠ name := by
    intro preset listed same
    exact unlisted preset listed (beq_iff_eq.mpr same)
  have missing : ThemePreset.search name = none := by
    rw [ThemePreset.search, List.findFinIdx?_eq_none_iff]
    intro entry member same
    obtain ⟨index, inside, rfl⟩ := List.getElem_of_mem member
    have listed : ThemePreset.omarchy ⟨index, inside⟩ ∈ ThemePreset.all :=
      List.mem_append_right _ (List.mem_map.mpr ⟨_, List.mem_finRange _, rfl⟩)
    exact absent _ listed (beq_iff_eq.mp same)
  have builtin := fun preset member => absent preset (List.mem_append_left _ member)
  simp only [List.forall_mem_cons, ThemePreset.name] at builtin
  -- Every name in front of the catalog is one of a preset of its own or an accepted one.
  split
  case h_19 => rw [missing]; rfl
  all_goals first
    | simp at unnamed; done
    | simp at builtin

private theorem judged_theme (is_key : String.ofList key = "theme") (g : Given) (count : ℕ) :
    Judged g count key value ↔ isThemeName value ∨ g.themePreset = .unitermDark ∧ g.theme = .dark := by
  have judged : Judged g count key value ↔
      ((if isThemeName value then some (ThemePreset.parse value) else none).isSome → isThemeName value) ∧
        ((if isThemeName value then some (ThemePreset.parse value) else none) = none →
          g.themePreset = .unitermDark ∧ g.theme = .dark) := by
    apply judged_fallback _ .unitermDark
      (fun g preset => { g with themePreset := preset, theme := .ofPalette (Theme.palette preset) })
    case reads =>
      have reads : g.read key value = some (g.setTheme value) := by
        unfold Given.read
        rw [is_key]
        rfl
      rw [reads, Given.setTheme, Theme.named]
      cases known : isThemeName value with
      | true => rfl
      | false => rw [parse_theme known]; rfl
    case judges =>
      unfold problem
      rw [is_key]
      rfl
    case asks =>
      have asks : asked key value = if isThemeName value then some fun g => g.setTheme value else none := by
        unfold asked
        rw [is_key]
        rfl
      rw [asks]
      cases isThemeName value <;> rfl
    case knows =>
      intro known
      rw [if_pos known]
      rfl
    case kept =>
      constructor
      · intro same
        exact ⟨(congrArg Config.themePreset same).symm, (congrArg Config.theme same).symm⟩
      · rintro ⟨preset, theme⟩
        have shown : Theme.ofPalette (Theme.palette .unitermDark) = g.theme := theme.symm
        rw [shown, ← preset]
  rw [judged]
  cases isThemeName value <;> simp

end Themes

section Bindings

/-- A key has one binding: the last one. -/
theorem finish_bind {g : Given} {b : UInt8} {action other : Text} :
    (g.bind b action).finish = (g.bind b other).finish ↔ action = other := by
  constructor
  · intro same
    have member : ⟨b, action⟩ ∈ (g.bind b other).finish.bindings := by
      rw [← same, Given.finish, Given.bind, List.mem_mergeSort]
      exact List.mem_append_right _ (List.mem_singleton_self _)
    rw [Given.finish, Given.bind, List.mem_mergeSort, List.mem_append, List.mem_filter, List.mem_singleton] at member
    obtain ⟨-, differs⟩ | bound := member
    · simp at differs
    · exact congrArg KeyBinding.action bound
  · rintro rfl
    rfl

/-- A binding is stored with the blanks around a quoted action, but its action is looked up without them. -/
theorem judged_bind (starts : "bind.".toList.isPrefixOf key) (g : Given) (count : ℕ) : Judged g count key value ↔
    ((parseBindingKey (key.drop 5)).isSome → isBindingAction value → value.trim = value) := by
  have reads : g.read key value = _ := read_other (bind_other starts) g
  have judges : problem count key value = _ := problem_other (bind_other starts) count
  have asks : asked key value = _ := asked_other (bind_other starts)
  rw [if_neg (not_editor starts), if_pos starts] at reads judges
  rw [if_neg (not_editor starts)] at asks
  rw [bindingProblem] at judges
  cases bound : parseBindingKey (key.drop 5) with
  | none =>
    rw [bound] at reads judges asks
    have nothing : asked key value = none := by
      rw [asks]
      split <;> rfl
    exact iff_of_true ⟨g, _, reads, judges, by simp [nothing], fun _ => rfl⟩ (by simp)
  | some b =>
    rw [bound] at reads judges asks
    cases known : isBindingAction value with
    | false =>
      rw [known] at reads judges
      rw [if_neg (by simp [known])] at asks
      exact iff_of_true ⟨g, _, reads, judges, by simp [asks], fun _ => rfl⟩ (by simp)
    | true =>
      rw [known] at reads judges
      rw [if_pos ⟨starts, known⟩] at asks
      have passed : problem count key value = some none := judges
      have read : g.read key value = some (g.bind b (asciiLower value)) := reads
      constructor
      · rintro ⟨next, found, read', judged, honoured, -⟩ - -
        rw [read] at read'
        rw [passed] at judged
        obtain rfl := Option.some.inj read'
        obtain rfl := Option.some.inj judged
        obtain ⟨update, asked_update, same⟩ := honoured.mp rfl
        rw [asks] at asked_update
        obtain rfl := Option.some.inj asked_update
        exact asciiLower_trim.mp (finish_bind.mp same).symm
      · intro trimmed
        refine ⟨_, _, read, passed, ?_, nofun⟩
        rw [asks, trimmed rfl rfl]
        simp

end Bindings

section Projects

/-- The projects that are allowed once a line has allowed one. -/
def allow (g : Given) (value : Text) : Given :=
  if value ∈ g.guardrailAllowedProjects then g
  else { g with guardrailAllowedProjects := g.guardrailAllowedProjects ++ [value] }

private theorem finish_allow {g : Given} : g.finish = (allow g value).finish ↔ value ∈ g.guardrailAllowedProjects := by
  constructor
  · intro same
    have member : value ∈ (allow g value).finish.guardrailAllowedProjects := by
      rw [allow]
      split_ifs with allowed
      · exact allowed
      · exact List.mem_append_right _ (List.mem_singleton_self _)
    rw [← same] at member
    exact member
  · intro allowed
    rw [allow, if_pos allowed]

private theorem allowProject_eq {g : Given} (selects : isSelector value) : g.allowProject value =
    if g.guardrailAllowedProjects.length < maxProjectSelectors then allow g value else g := by
  rw [Given.allowProject, allow]
  by_cases room : g.guardrailAllowedProjects.length < maxProjectSelectors
  · by_cases allowed : value ∈ g.guardrailAllowedProjects <;> simp [selects, room, allowed]
  · simp [room]

private theorem isSelector_iff : isSelector value ↔ ¬ (value.isEmpty ∨ value.len > 4096 ∨ value.any isControl) := by
  simp [isSelector, and_assoc]

/-- The validator counts every line, the parser the selectors it took. -/
theorem judged_project (is_key : String.ofList key = "guardrail-allowed-project") {g : Given} {count : ℕ}
    (bounded : g.guardrailAllowedProjects.length ≤ count)
    (capped : g.guardrailAllowedProjects.length ≤ maxProjectSelectors) :
    Judged g (count + 1) key value ↔ (isSelector value → count < maxProjectSelectors ∨
      g.guardrailAllowedProjects.length = maxProjectSelectors ∧ value ∉ g.guardrailAllowedProjects) := by
  have reads : g.read key value = some (g.allowProject value) := by
    unfold Given.read
    rw [is_key]
    rfl
  have judges : problem (count + 1) key value = some (projectProblem (count + 1) value) := by
    unfold problem
    rw [is_key]
    rfl
  have asks : asked key value = if isSelector value then some (allow · value) else none := by
    unfold asked
    rw [is_key]
    rfl
  rw [projectProblem] at judges
  by_cases selects : isSelector value
  case neg =>
    rw [if_pos (by rwa [isSelector_iff, not_not] at selects)] at judges
    rw [if_neg selects] at asks
    have kept : g.allowProject value = g := by simp [Given.allowProject, selects]
    rw [kept] at reads
    exact iff_of_true ⟨g, _, reads, judges, by simp [asks], fun _ => rfl⟩ (fun selects' => absurd selects' selects)
  case pos =>
    rw [if_neg (isSelector_iff.mp selects)] at judges
    rw [if_pos selects] at asks
    rw [allowProject_eq selects] at reads
    by_cases few : count < maxProjectSelectors
    · rw [if_pos (by omega)] at reads
      have passes : decide (count + 1 > maxProjectSelectors) = false := by
        rw [decide_eq_false_iff_not]
        omega
      rw [passes] at judges
      exact iff_of_true ⟨_, _, reads, judges, by simp [asks, complain], by simp [complain]⟩ (fun _ => .inl few)
    · have complains : decide (count + 1 > maxProjectSelectors) = true := by
        rw [decide_eq_true_eq]
        omega
      rw [complains] at judges
      constructor
      · rintro ⟨next, found, read, judged, honoured, -⟩ -
        rw [reads] at read
        rw [judges] at judged
        obtain rfl := Option.some.inj read
        obtain rfl := Option.some.inj judged
        have unmet := mt honoured.mpr (Option.some_ne_none _)
        rw [asks] at unmet
        simp only [Option.mem_some_iff, exists_eq_left'] at unmet
        split_ifs at unmet with room
        · exact absurd rfl unmet
        · exact .inr ⟨by omega, mt finish_allow.mpr unmet⟩
      · intro room
        obtain few' | ⟨full, fresh⟩ := room selects
        · exact absurd few' few
        rw [if_neg (by omega)] at reads
        refine ⟨_, _, reads, judges, ?_, fun _ => rfl⟩
        rw [asks]
        simp only [complain, if_true, reduceCtorEq, Option.mem_some_iff, exists_eq_left', false_iff]
        exact mt finish_allow.mp fresh

end Projects

section Settings

/-- The settings that the parser handles. -/
def Handled (key : Text) : Prop :=
  String.ofList key ∈ settingKeys ∨ "editor.".toList.isPrefixOf key ∨ "bind.".toList.isPrefixOf key

/-- Where the validator and the parser agree on a line, from the settings and the number of selectors before it. -/
def Agrees (count : ℕ) (g : Given) (key value : Text) : Prop :=
  match String.ofList key with
  | "theme" => isThemeName value ∨ g.themePreset = .unitermDark ∧ g.theme = .dark
  | "notifications" | "notification-delivery" =>
    ((deliveryNamed value).isSome → value.trim = value) ∧ (deliveryNamed value = none → g.notifications = .off)
  | "notification-sound" =>
    ((soundNamed value).isSome → value.trim = value) ∧ (soundNamed value = none → g.notificationSound = .off)
  | "guardrail-allowed-project" =>
    isSelector value → count < maxProjectSelectors ∨
      g.guardrailAllowedProjects.length = maxProjectSelectors ∧ value ∉ g.guardrailAllowedProjects
  | _ =>
    "bind.".toList.isPrefixOf key → (parseBindingKey (key.drop 5)).isSome → isBindingAction value → value.trim = value

/-- The settings that the parser and the validator read differently. -/
def unlikeKeys : List String :=
  ["theme", "notifications", "notification-delivery", "notification-sound", "guardrail-allowed-project"]

private theorem agrees_other (other : String.ofList key ∉ unlikeKeys) (count : ℕ) (g : Given) :
    Agrees count g key value =
    ("bind.".toList.isPrefixOf key → (parseBindingKey (key.drop 5)).isSome → isBindingAction value →
      value.trim = value) := by
  unfold Agrees
  split
  all_goals first
    | rfl
    | next is_key =>
      rw [is_key] at other
      exact absurd (by decide) other

private theorem agrees_setting (is_setting : String.ofList key ∈ wholeKeys) (other : String.ofList key ∉ unlikeKeys)
    (count : ℕ)
    (g : Given) : Agrees count g key value := by
  rw [agrees_other other]
  intro starts
  exact absurd is_setting (bind_other starts)

/-- The number of selectors up to a line. -/
def selectorsAfter (count : ℕ) (key : Text) : ℕ :=
  if String.ofList key = "guardrail-allowed-project" then count + 1 else count

private theorem judged_iff_agrees (handled : Handled key) {g : Given} {count : ℕ}
    (sliced : String.ofList key ∈ colorKeys → (parseColor value).isSome)
    (bounded : g.guardrailAllowedProjects.length ≤ count)
    (capped : g.guardrailAllowedProjects.length ≤ maxProjectSelectors) :
    Judged g (selectorsAfter count key) key value ↔ Agrees count g key value := by
  have plainly (plain : Plain key value) (is_setting : String.ofList key ∈ wholeKeys)
      (other : String.ofList key ∉ unlikeKeys) :
      Judged g (selectorsAfter count key) key value ↔ Agrees count g key value :=
    iff_of_true (plain.judged ..) (agrees_setting is_setting other ..)
  obtain is_setting | starts | starts := handled
  · have whole : String.ofList key ∈ wholeKeys := List.mem_cons_of_mem _ is_setting
    rw [settingKeys, List.mem_append, List.mem_append, List.mem_append] at is_setting
    obtain ((is_taken | is_text) | is_color) | is_special := is_setting
    · exact plainly (plain_taken is_taken) whole ((by decide : ∀ name ∈ takenKeys, name ∉ unlikeKeys) _ is_taken)
    · exact plainly (plain_text is_text) whole ((by decide : ∀ name ∈ textKeys, name ∉ unlikeKeys) _ is_text)
    · obtain ⟨color, sliced⟩ := Option.isSome_iff_exists.mp (sliced is_color)
      exact plainly (plain_color sliced is_color) whole
        ((by decide : ∀ name ∈ colorKeys, name ∉ unlikeKeys) _ is_color)
    · simp only [List.mem_cons, List.not_mem_nil, or_false] at is_special
      obtain is_key | is_key | is_key | is_key | is_key | is_key := is_special
      · exact plainly (plain_position is_key) whole (by rw [is_key]; decide)
      · rw [judged_theme is_key, Agrees, is_key]
        exact Iff.rfl
      · rw [judged_delivery (by simp [is_key]), Agrees, is_key]
        exact Iff.rfl
      · rw [judged_delivery (by simp [is_key]), Agrees, is_key]
        exact Iff.rfl
      · rw [judged_sound is_key, Agrees, is_key]
        exact Iff.rfl
      · rw [selectorsAfter, if_pos is_key, judged_project is_key bounded capped, Agrees, is_key]
        exact Iff.rfl
  · have other := editor_other starts
    have unlike : String.ofList key ∉ unlikeKeys := fun member => other
      ((by decide : ∀ name ∈ unlikeKeys, name ∈ wholeKeys) _ member)
    refine iff_of_true ((plain_editor starts).judged ..) ?_
    rw [agrees_other unlike]
    exact fun binds => absurd starts (not_editor binds)
  · have other := bind_other starts
    have unlike : String.ofList key ∉ unlikeKeys := fun member => other
      ((by decide : ∀ name ∈ unlikeKeys, name ∈ wholeKeys) _ member)
    rw [judged_bind starts, agrees_other unlike]
    exact ⟨fun trimmed _ => trimmed, fun trimmed => trimmed starts⟩

end Settings

section Texts

/-- Every colour of the lines can be sliced. -/
def Sliceable (lines : List Text) : Prop := ∀ raw ∈ lines, ∀ assigned ∈ assignment raw,
  String.ofList assigned.1 ∈ colorKeys → (parseColor assigned.2).isSome

/-- How many of the lines allow a project. -/
def selectorLines (lines : List Text) : ℕ :=
  lines.countP fun raw => (assignment raw).any fun assigned => String.ofList assigned.1 == "guardrail-allowed-project"

private theorem take_isSome {α : Type} (g : Given) (reading : Option α) (set : Given → α → Given) :
    (g.take reading set).isSome := rfl

private theorem setColor_isSome (g : Given) (set : Theme → Color → Theme) :
    (g.setColor value set).isSome = (parseColor value).isSome := by
  rw [Given.setColor]
  cases parseColor value <;> rfl

private theorem read_isSome (g : Given) :
    (g.read key value).isSome ↔ (String.ofList key ∈ colorKeys → (parseColor value).isSome) := by
  by_cases is_color : String.ofList key ∈ colorKeys
  · have sets : ∃ set, g.read key value = g.setColor value set := by
      simp only [colorKeys, List.mem_cons, List.not_mem_nil, or_false] at is_color
      unfold Given.read
      obtain is_key | is_key | is_key | is_key := is_color <;> rw [is_key] <;> exact ⟨_, rfl⟩
    obtain ⟨set, reads⟩ := sets
    rw [reads, setColor_isSome]
    simp [is_color]
  · refine iff_of_true ?_ (fun listed => absurd listed is_color)
    unfold Given.read
    split
    case h_37 => split <;> split <;> rfl
    all_goals first
      | exact take_isSome ..
      | rfl
      | split_ifs <;> rfl
      | next is_key =>
        rw [is_key] at is_color
        exact absurd (by decide) is_color

private theorem problem_isSome (count : ℕ) :
    (problem count key value).isSome ↔ (String.ofList key ∈ colorKeys → (parseColor value).isSome) := by
  by_cases is_color : String.ofList key ∈ colorKeys
  · have judges : problem count key value = (parseColor value).map fun color =>
        complain color.isNone "expected #rrggbb or a palette index from 0 to 255" := by
      simp only [colorKeys, List.mem_cons, List.not_mem_nil, or_false] at is_color
      unfold problem
      obtain is_key | is_key | is_key | is_key := is_color <;> rw [is_key] <;> rfl
    rw [judges, Option.isSome_map]
    simp [is_color]
  · refine iff_of_true ?_ (fun listed => absurd listed is_color)
    unfold problem
    split
    case h_38 => split <;> split <;> rfl
    all_goals first
      | rfl
      | next is_key =>
        rw [is_key] at is_color
        exact absurd (by decide) is_color

private theorem take_projects {α : Type} {g g' : Given} {reading : Option α} {set : Given → α → Given}
    (taken : g.take reading set = some g')
    (frames : ∀ g a, (set g a).guardrailAllowedProjects = g.guardrailAllowedProjects) :
    g'.guardrailAllowedProjects = g.guardrailAllowedProjects := by
  rw [Given.take, Option.some.injEq] at taken
  subst taken
  cases reading with
  | none => rfl
  | some a => exact frames g a

private theorem setColor_projects {g g' : Given} {set : Theme → Color → Theme}
    (taken : g.setColor value set = some g') :
    g'.guardrailAllowedProjects = g.guardrailAllowedProjects := by
  rw [Given.setColor, Option.bind_eq_some_iff] at taken
  obtain ⟨color, -, taken⟩ := taken
  exact take_projects taken fun _ _ => rfl

/-- Only a line that allows a project changes which projects are allowed. -/
theorem read_projects {g g' : Given} (other : String.ofList key ≠ "guardrail-allowed-project")
    (reads : g.read key value = some g') : g'.guardrailAllowedProjects = g.guardrailAllowedProjects := by
  unfold Given.read at reads
  split at reads
  case h_37 =>
    split at reads
    · split at reads <;> obtain rfl := Option.some.inj reads <;> rfl
    · split at reads
      · exact take_projects reads fun _ _ => rfl
      · obtain rfl := Option.some.inj reads
        rfl
  case h_31 is_key => exact absurd is_key other
  all_goals first
    | exact take_projects reads fun _ _ => rfl
    | exact setColor_projects reads
    | obtain rfl := Option.some.inj reads; rfl
    | split_ifs at reads <;> obtain rfl := Option.some.inj reads <;> rfl

private theorem allowProject_length (g : Given) :
    (g.allowProject value).guardrailAllowedProjects.length ≤ g.guardrailAllowedProjects.length + 1 := by
  rw [Given.allowProject]
  split_ifs
  · simp
  · omega

private theorem allowProject_capped {g : Given} (capped : g.guardrailAllowedProjects.length ≤ maxProjectSelectors) :
    (g.allowProject value).guardrailAllowedProjects.length ≤ maxProjectSelectors := by
  rw [Given.allowProject]
  split_ifs with room
  · simp only [List.length_append, List.length_singleton]
    omega
  · exact capped

private theorem selectorsAfter_eq (count : ℕ) (raw : Text) (rest : List Text)
    (assigns : assignment raw = some (key, value)) :
    selectorsAfter count key + selectorLines rest = count + selectorLines (raw :: rest) := by
  rw [selectorsAfter, selectorLines, selectorLines, List.countP_cons, assigns]
  by_cases is_key : String.ofList key = "guardrail-allowed-project"
  · simp only [is_key, Option.any_some, beq_self_eq_true, if_true]
    omega
  · simp [is_key]

private theorem selectorLines_unassigned {raw : Text} (rest : List Text) (unassigned : assignment raw = none) :
    selectorLines (raw :: rest) = selectorLines rest := by
  rw [selectorLines, List.countP_cons, unassigned]
  rfl

/-- The parser takes no more selectors than there are lines that give one, and no more than it has room for. -/
theorem readLines_bounded {lines : List Text} : ∀ {g g' : Given} {count : ℕ},
    lines.foldlM Given.readLine g = some g' → g.guardrailAllowedProjects.length ≤ count →
    g.guardrailAllowedProjects.length ≤ maxProjectSelectors →
    g'.guardrailAllowedProjects.length ≤ count + selectorLines lines ∧
      g'.guardrailAllowedProjects.length ≤ maxProjectSelectors := by
  induction lines with
  | nil =>
    intro g g' count reads bounded capped
    obtain rfl := Option.some.inj reads
    exact ⟨bounded, capped⟩
  | cons raw rest ih =>
    intro g g' count reads bounded capped
    rw [List.foldlM_cons, Option.bind_eq_bind, Option.bind_eq_some_iff] at reads
    obtain ⟨next, reads, later⟩ := reads
    rw [Given.readLine] at reads
    cases assigns : assignment raw with
    | none =>
      rw [assigns] at reads
      obtain rfl := Option.some.inj reads
      rw [selectorLines_unassigned rest assigns]
      exact ih later bounded capped
    | some assigned =>
      obtain ⟨key, value⟩ := assigned
      rw [assigns] at reads
      rw [← selectorsAfter_eq count raw rest assigns, selectorsAfter]
      split_ifs with is_key
      · have allows : g.read key value = some (g.allowProject value) := by
          unfold Given.read
          rw [is_key]
          rfl
        obtain rfl := Option.some.inj (allows.symm.trans reads)
        exact ih later ((allowProject_length g).trans (by omega)) (allowProject_capped capped)
      · have same := read_projects is_key reads
        exact ih later (by rwa [same]) (by rwa [same])

private theorem readLine_isSome (g : Given) (raw : Text) : (g.readLine raw).isSome ↔ Sliceable [raw] := by
  rw [Given.readLine]
  cases assigns : assignment raw with
  | none => simp [Sliceable, assigns]
  | some assigned =>
    obtain ⟨key, value⟩ := assigned
    simp [Sliceable, assigns, read_isSome]

private theorem sliceable_cons {raw : Text} {rest : List Text} :
    Sliceable (raw :: rest) ↔ Sliceable [raw] ∧ Sliceable rest := by
  simp [Sliceable]

private theorem sliceable_append {before after : List Text} :
    Sliceable (before ++ after) ↔ Sliceable before ∧ Sliceable after := by
  simp [Sliceable, or_imp, forall_and]

/-- Only a colour that cannot be sliced stops the parser. -/
theorem readLines_isSome {lines : List Text} : ∀ {g : Given},
    (lines.foldlM Given.readLine g).isSome ↔ Sliceable lines := by
  induction lines with
  | nil => simp [Sliceable]
  | cons raw rest ih =>
    intro g
    rw [sliceable_cons, ← readLine_isSome g raw, List.foldlM_cons, Option.bind_eq_bind]
    cases g.readLine raw with
    | none => simp
    | some next => simpa using ih

private theorem diagnosticsFrom_assigned {raw : Text} (assigns : assignment raw = some (key, value)) (rest : List Text)
    (line count : ℕ) : diagnosticsFrom line count (raw :: rest) =
      (problem (selectorsAfter count key) key value).bind fun found =>
        (diagnosticsFrom (line + 1) (selectorsAfter count key) rest).map fun later =>
          (found.toList.map fun message => ⟨line, message⟩) ++ later := by
  rw [diagnosticsFrom, assigns]
  rfl

private theorem diagnosticsFrom_append (lines after : List Text) : ∀ line count : ℕ,
    diagnosticsFrom line count (lines ++ after) = (diagnosticsFrom line count lines).bind fun found =>
      (diagnosticsFrom (line + lines.length) (count + selectorLines lines) after).map (found ++ ·) := by
  induction lines with
  | nil =>
    intro line count
    simp [diagnosticsFrom, selectorLines]
  | cons raw rest ih =>
    intro line count
    have lines_next : line + (raw :: rest).length = line + 1 + rest.length := by
      rw [List.length_cons]
      omega
    rw [lines_next, List.cons_append]
    cases assigns : assignment raw with
    | none =>
      rw [selectorLines_unassigned rest assigns, diagnosticsFrom, diagnosticsFrom, assigns]
      dsimp only
      rw [ih]
      cases diagnosticsFrom (line + 1) count rest with
      | none => rfl
      | some found =>
        simp only [Option.bind_some, Option.map_some, Option.map_map, Function.comp_def, List.append_assoc]
    | some assigned =>
      obtain ⟨key, value⟩ := assigned
      rw [← selectorsAfter_eq count raw rest assigns, diagnosticsFrom_assigned assigns,
        diagnosticsFrom_assigned assigns, ih]
      cases problem (selectorsAfter count key) key value with
      | none => rfl
      | some complaint =>
        cases diagnosticsFrom (line + 1) (selectorsAfter count key) rest with
        | none => rfl
        | some found =>
          simp only [Option.bind_some, Option.map_some, Option.map_map, Function.comp_def, List.append_assoc]

/-- The diagnostics of one line that assigns. -/
theorem diagnosticsFrom_single {raw : Text} (assigns : assignment raw = some (key, value)) (line count : ℕ) :
    diagnosticsFrom line count [raw] =
      (problem (selectorsAfter count key) key value).map fun found => found.toList.map fun message => ⟨line, message⟩ := by
  rw [diagnosticsFrom_assigned assigns]
  cases problem (selectorsAfter count key) key value with
  | none => rfl
  | some found => simp [diagnosticsFrom]

/-- A diagnostic stands at one of the lines. -/
theorem diagnosticsFrom_line {lines : List Text} : ∀ {line count : ℕ} {found : List ConfigDiagnostic},
    diagnosticsFrom line count lines = some found → ∀ d ∈ found, d.line < line + lines.length := by
  induction lines with
  | nil =>
    intro line count found judged
    obtain rfl := Option.some.inj judged
    nofun
  | cons raw rest ih =>
    intro line count found judged d member
    rw [List.length_cons]
    cases assigns : assignment raw with
    | none =>
      rw [diagnosticsFrom, assigns, Option.map_eq_some_iff] at judged
      obtain ⟨later, judged, rfl⟩ := judged
      obtain member | member := List.mem_append.mp member
      · obtain ⟨message, -, rfl⟩ := List.mem_map.mp member
        dsimp only
        omega
      · have below := ih judged d member
        omega
    | some assigned =>
      rw [diagnosticsFrom_assigned assigns, Option.bind_eq_some_iff] at judged
      simp only [Option.map_eq_some_iff] at judged
      obtain ⟨complaint, -, later, judged, rfl⟩ := judged
      obtain member | member := List.mem_append.mp member
      · obtain ⟨message, -, rfl⟩ := List.mem_map.mp member
        dsimp only
        omega
      · have below := ih judged d member
        omega

private theorem diagnosticsFrom_isSome {lines : List Text} : ∀ {line count : ℕ},
    (diagnosticsFrom line count lines).isSome ↔ Sliceable lines := by
  induction lines with
  | nil => simp [diagnosticsFrom, Sliceable]
  | cons raw rest ih =>
    intro line count
    rw [sliceable_cons]
    cases assigns : assignment raw with
    | none =>
      rw [diagnosticsFrom, assigns]
      simp [Sliceable, assigns, ih]
    | some assigned =>
      obtain ⟨key, value⟩ := assigned
      have alone : Sliceable [raw] ↔ (problem (selectorsAfter count key) key value).isSome := by
        simp [Sliceable, assigns, problem_isSome]
      rw [alone, diagnosticsFrom_assigned assigns]
      cases problem (selectorsAfter count key) key value with
      | none => simp
      | some complaint => simp [ih]

end Texts

section Appending

/-- The last line of a text is judged rightly. It draws no diagnostic just where the text parses to the settings in front
of it with what the line asks for, and where it draws one the text parses like the text without it. -/
def JudgesLast (text text' key value : Text) : Prop := ∃ g next found,
  given text = some g ∧ parse text' = some next ∧ diagnostics text' = some found ∧
    ((∀ d ∈ found, d.line ≠ text'.lines.length) ↔ ∃ update ∈ asked key value, next = (update g).finish) ∧
    ((∃ d ∈ found, d.line = text'.lines.length) → parse text = some next)

variable {text text' raw : Text} (appended : text'.lines = text.lines ++ [raw])
  (assigns : assignment raw = some (key, value))

include appended assigns in
/-- Parser and validator go on from what they make of the text in front. -/
theorem judgesLast_iff_judged {g : Given} {before : List ConfigDiagnostic} (gives : given text = some g)
    (found_before : diagnostics text = some before) :
    JudgesLast text text' key value ↔ Judged g (selectorsAfter (selectorLines text.lines) key) key value := by
  have parses : parse text' = (g.read key value).map Given.finish := by
    rw [parse, given, appended, List.foldlM_append, ← given, gives]
    simp only [Option.bind_eq_bind, Option.bind_some, List.foldlM_cons, List.foldlM_nil, Given.readLine, assigns]
    cases g.read key value <;> rfl
  have validates : diagnostics text' =
      (problem (selectorsAfter (selectorLines text.lines) key) key value).map fun found =>
        before ++ found.toList.map fun message => ⟨1 + text.lines.length, message⟩ := by
    rw [diagnostics, appended, diagnosticsFrom_append, ← diagnostics, found_before, Option.bind_some, Nat.zero_add,
      diagnosticsFrom_single assigns, Option.map_map]
    rfl
  have last : text'.lines.length = 1 + text.lines.length := by
    rw [appended, List.length_append, List.length_singleton, Nat.add_comm]
  have earlier : ∀ d ∈ before, d.line ≠ 1 + text.lines.length := by
    intro d member
    have below := diagnosticsFrom_line found_before d member
    omega
  have here (found : Option Text) :
      (∀ d ∈ before ++ found.toList.map fun message => (⟨1 + text.lines.length, message⟩ : ConfigDiagnostic),
        d.line ≠ 1 + text.lines.length) ↔ found = none := by
    rw [List.forall_mem_append]
    cases found with
    | none => simpa using earlier
    | some message => simp
  have unchanged : parse text = some g.finish := by rw [parse, gives, Option.map_some]
  constructor
  · rintro ⟨g', next, found, gives', parsed, judged, honoured, rejected⟩
    obtain rfl := Option.some.inj (gives.symm.trans gives')
    rw [parses, Option.map_eq_some_iff] at parsed
    obtain ⟨after, reads, rfl⟩ := parsed
    rw [validates, Option.map_eq_some_iff] at judged
    obtain ⟨complaint, judges, rfl⟩ := judged
    rw [last, here] at honoured
    refine ⟨after, complaint, reads, judges, honoured, fun complains => ?_⟩
    have flagged : ∃ d ∈ before ++ complaint.toList.map fun message =>
        (⟨1 + text.lines.length, message⟩ : ConfigDiagnostic), d.line = text'.lines.length := by
      by_contra clear
      push Not at clear
      rw [last, here] at clear
      rw [clear] at complains
      contradiction
    exact Option.some.inj ((rejected flagged).symm.trans unchanged)
  · rintro ⟨after, complaint, reads, judges, honoured, rejected⟩
    refine ⟨g, after.finish, _, gives, by rw [parses, reads]; rfl, by rw [validates, judges]; rfl, ?_, ?_⟩
    · rw [last, here]
      exact honoured
    · intro flagged
      have complains : complaint ≠ none := fun clear => by
        rw [last] at flagged
        obtain ⟨d, member, at_last⟩ := flagged
        exact (here complaint).mpr clear d member at_last
      rw [unchanged, rejected (Option.isSome_iff_ne_none.mpr complains)]

include appended assigns in
/-- The last line is judged rightly just where every colour can be sliced and the parser and the validator agree. -/
theorem judgesLast_iff (handled : Handled key) : JudgesLast text text' key value ↔
    Sliceable text'.lines ∧ ∀ g, given text = some g → Agrees (selectorLines text.lines) g key value := by
  by_cases sliceable : Sliceable text'.lines
  case neg =>
    refine iff_of_false ?_ (fun agrees => sliceable agrees.1)
    rintro ⟨g, next, found, -, -, judged, -⟩
    exact sliceable (diagnosticsFrom_isSome.mp (Option.isSome_of_eq_some judged))
  case pos =>
    have parts := sliceable
    rw [appended, sliceable_append] at parts
    obtain ⟨before_sliceable, last_sliceable⟩ := parts
    obtain ⟨g, gives⟩ := Option.isSome_iff_exists.mp (readLines_isSome (g := {}).mpr before_sliceable)
    have validated : (diagnosticsFrom 1 0 text.lines).isSome := diagnosticsFrom_isSome.mpr before_sliceable
    obtain ⟨before, found_before⟩ := Option.isSome_iff_exists.mp validated
    have start : ({} : Given).guardrailAllowedProjects.length ≤ 0 := Nat.le_refl 0
    obtain ⟨bounded, capped⟩ := readLines_bounded gives start (Nat.zero_le _)
    rw [Nat.zero_add] at bounded
    have sliced : String.ofList key ∈ colorKeys → (parseColor value).isSome :=
      last_sliceable raw (List.mem_singleton_self _) (key, value) assigns
    rw [judgesLast_iff_judged appended assigns gives found_before, judged_iff_agrees handled sliced bounded capped]
    constructor
    · intro agrees
      refine ⟨sliceable, fun g' gives' => ?_⟩
      obtain rfl := Option.some.inj (gives.symm.trans gives')
      exact agrees
    · rintro ⟨-, agrees⟩
      exact agrees g gives

set_option maxRecDepth 8000 in
theorem judgesLast_status : JudgesLast "theme = light\n".toList "theme = light\nstatus = off\n".toList "status".toList
    "off".toList := by
  have appended : Text.lines "theme = light\nstatus = off\n".toList =
      Text.lines "theme = light\n".toList ++ ["status = off".toList] := by decide
  apply (judgesLast_iff appended (by decide) (.inl (by decide))).mpr
  have validated : (diagnosticsFrom 1 0 (Text.lines "theme = light\nstatus = off\n".toList)).isSome := by decide
  refine ⟨diagnosticsFrom_isSome.mp validated, fun g gives => ?_⟩
  exact agrees_setting (by decide) (by decide) ..

/-- The presets by their names, each bundled palette at once. -/
theorem any_preset (name : String) : ThemePreset.all.any (·.name == name) =
    (([.unitermDark, .unitermLight, .catppuccin, .tokyoNight, .dracula, .nord, .gruvboxDark, .gruvboxLight,
      .solarizedDark, .solarizedLight, .kanagawa, .rosePine] : List ThemePreset).any (·.name == name) ||
        palettes.any (·.1 == name)) := by
  have bundled : (List.finRange palettes.length).map (palettes[·.1]) = palettes := List.map_getElem_finRange palettes
  have other : ((List.finRange palettes.length).map ThemePreset.omarchy).any (·.name == name) =
      palettes.any (·.1 == name) := by
    rw [List.any_map]
    conv_rhs => rw [← bundled, List.any_map]
    refine congrArg (List.any _) (funext fun _ => ?_)
    simp only [Function.comp_apply, ThemePreset.name, Fin.getElem_fin]
  rw [ThemePreset.all, List.any_append, other]

set_option maxRecDepth 8000 in
private theorem isThemeName_light : isThemeName "light".toList := by
  have lowered : String.ofList (asciiLower (Text.trim "light".toList)) = "light" := by decide
  rw [isThemeName, lowered]
  exact Bool.or_eq_true_iff.mpr (.inr (by decide))

set_option maxRecDepth 8000 in
private theorem isThemeName_midnight : isThemeName "midnight".toList = false := by
  have lowered : String.ofList (asciiLower (Text.trim "midnight".toList)) = "midnight" := by decide
  rw [isThemeName, lowered, any_preset]
  decide

private theorem problem_theme (is_key : String.ofList key = "theme") (count : ℕ) : problem count key value =
    some (if isThemeName value then none else some ("unknown theme '".toList ++ value ++ ['\''])) := by
  unfold problem
  rw [is_key]
  rfl

set_option maxRecDepth 8000 in
/-- An unknown theme is reported, and yet it takes the one that was chosen away. -/
theorem not_judgesLast_theme : Text.lines "theme = light\ntheme = midnight\n".toList =
      Text.lines "theme = light\n".toList ++ ["theme = midnight".toList] ∧
    assignment "theme = midnight".toList = some ("theme".toList, "midnight".toList) ∧
    ¬ JudgesLast "theme = light\n".toList "theme = light\ntheme = midnight\n".toList "theme".toList
      "midnight".toList := by
  have cut : Text.lines "theme = light\ntheme = midnight\n".toList =
      ["theme = light".toList, "theme = midnight".toList] := by decide
  have first : assignment "theme = light".toList = some ("theme".toList, "light".toList) := by decide
  have second : assignment "theme = midnight".toList = some ("theme".toList, "midnight".toList) := by decide
  refine ⟨by decide, second, ?_⟩
  rintro ⟨g, next, found, -, parsed, judged, -, rejected⟩
  have flagged : (diagnostics "theme = light\ntheme = midnight\n".toList).map (·.map (·.line)) = some [2] := by
    rw [diagnostics, cut, diagnosticsFrom, first]
    simp only [diagnosticsFrom, second, problem_theme String.ofList_toList, isThemeName_light, isThemeName_midnight,
      if_true, Option.bind_eq_bind, Option.bind_some, Option.map_some, Option.toList_none, Option.toList_some,
      List.map_nil, List.map_cons, List.nil_append, List.append_nil, Bool.false_eq_true, if_false]
  have chosen : (parse "theme = light\n".toList).map (·.themePreset) = some .unitermLight := by decide
  have lost : (parse "theme = light\ntheme = midnight\n".toList).map (·.themePreset) = some .unitermDark := by
    decide
  have drawn : ∃ d ∈ found, d.line = (Text.lines "theme = light\ntheme = midnight\n".toList).length := by
    rw [judged, Option.map_some, Option.some.injEq] at flagged
    have member : 2 ∈ found.map (·.line) := by
      rw [flagged]
      exact List.mem_singleton_self _
    exact List.mem_map.mp member
  rw [rejected drawn] at chosen
  rw [parsed, chosen] at lost
  exact absurd lost (by decide)

end Appending

end Uniterm.Model.Config
