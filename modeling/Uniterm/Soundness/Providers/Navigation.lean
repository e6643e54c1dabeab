import Uniterm.Soundness.Providers.Dialogs

/-! # Navigating a dialog

Every arrow moves the marker by one option row, and the choice on the next screen is delivered only when it has
the fingerprint of the first one. The hashed rows end at the marked row when that one is below the first
affirmative and the first negative row, so the fingerprint survives a move that keeps the last hashed row. A row
that starts like a heading becomes the newest one when the marker leaves it; no dialog is promised then.
-/

namespace Uniterm.Model.Providers

variable {headings allow deny : List Text} {hash : List Text → ℕ} {before after : List Text}
  {header choice denial i j : ℕ}

section Bodies

/-- Dropping other characters from the front keeps the occurrences of a text. -/
theorem infix_dropWhile {p : Char → Bool} {needle : Text} (some : needle ≠ []) (kept : ∀ c ∈ needle, p c = false)
    (text : Text) : needle <:+: text.dropWhile p ↔ needle <:+: text := by
  obtain ⟨c, rest, rfl⟩ := List.exists_cons_of_ne_nil some
  induction text with
  | nil => rfl
  | cons d text ih =>
    by_cases dropped : p d
    · rw [List.dropWhile_cons_of_pos dropped, ih, List.infix_cons_iff]
      refine ⟨.inr, fun occurs => occurs.resolve_left fun starts => ?_⟩
      rw [List.cons_prefix_cons] at starts
      have stays := kept c (List.mem_cons_self ..)
      rw [starts.1, dropped] at stays
      exact Bool.noConfusion stays
    · rw [List.dropWhile_cons_of_neg dropped]

private theorem infix_rdropWhile {p : Char → Bool} {needle : Text} (some : needle ≠ [])
    (kept : ∀ c ∈ needle, p c = false)
    (text : Text) : needle <:+: text.rdropWhile p ↔ needle <:+: text := by
  rw [← List.reverse_infix, List.rdropWhile, List.reverse_reverse,
    infix_dropWhile (by simpa using some) (by simpa using kept), List.reverse_infix]

private theorem infix_trimMatches {p : Char → Bool} {needle : Text} (some : needle ≠ [])
    (kept : ∀ c ∈ needle, p c = false)
    (text : Text) : needle <:+: text.trimMatches p ↔ needle <:+: text := by
  rw [Text.trimMatches, infix_rdropWhile some kept, infix_dropWhile some kept]

/-- A footer is read off the row without its frame and bullets. -/
theorem contains_body (line : Text) : (body line).contains "esc".toList = line.contains "esc".toList := by
  have some : "esc".toList ≠ [] := by decide
  have kept {p : Char → Bool} (all : ("esc".toList.all fun c => !p c) = true) : ∀ c ∈ "esc".toList, p c = false := by
    simpa only [List.all_eq_true, Bool.not_eq_true'] using all
  unfold Text.contains body content Text.trim
  rw [decide_eq_decide, infix_trimMatches some (kept (by decide)), infix_dropWhile some (kept (by decide)),
    infix_trimMatches some (kept (by decide)), infix_trimMatches some (kept (by decide)),
    infix_trimMatches some (kept (by decide))]

private theorem option_label (line : Text) : (option line).1 = withoutNumber (body line) := by rw [option]

/-- Rows with the same bodies have the same labels. -/
theorem labels_of_bodies (bodies : after.map body = before.map body) :
    (after.map fun line => (option line).1) = before.map fun line => (option line).1 := by
  have composed (lines : List Text) :
      (lines.map fun line => (option line).1) = (lines.map body).map withoutNumber := by
    simp only [option_label, List.map_map, Function.comp_def]
  rw [composed, composed, bodies]

end Bodies

section Moves

/-- The second screen shows the dialog of the first one and differs only in that the marker moved to another
option row. -/
structure Moved (headings allow deny before after : List Text) (i j : ℕ) : Prop where
  bodies : after.map body = before.map body
  others : ∀ k, k ≠ i → k ≠ j → after[k]? = before[k]?
  below : ∀ header, rposition (isHeading headings) before = some header → header < j
  left : ∀ line, after[i]? = some line → (option line).2 = false
  entered : ∃ line, after[j]? = some line ∧ (option line).2 = true ∧ isChoice allow deny (option line).1 = true

/-- The labels that are hashed down to a row. -/
def hashedLabels (lines : List Text) (row : ℕ) : List Text :=
  ((lines.take (row + 1)).map fun line => (option line).1).filter fun label => !label.isEmpty

private theorem fingerprint_approvalOf (lines : List Text) (choice denial selected : ℕ) :
    (approvalOf hash lines choice denial selected).fingerprint =
      hash (hashedLabels lines (lastRow choice denial selected)) := rfl

/-- The move leaves the newest heading and the last hashed row where they are. -/
structure Steady (headings before after : List Text) (choice denial i j : ℕ) : Prop where
  heading : rposition (isHeading headings) after = rposition (isHeading headings) before
  last : lastRow choice denial j = lastRow choice denial i

theorem Moved.labels (moved : Moved headings allow deny before after i j) (row : ℕ) :
    hashedLabels after row = hashedLabels before row := by
  unfold hashedLabels
  rw [List.map_take, List.map_take, labels_of_bodies moved.bodies]

theorem Moved.ne (moved : Moved headings allow deny before after i j) : i ≠ j := by
  rintro rfl
  obtain ⟨line, here, marked, -⟩ := moved.entered
  have unmarked := moved.left line here
  rw [marked] at unmarked
  exact Bool.noConfusion unmarked

/-- A footer stays at or below a row. -/
theorem Moved.footer (moved : Moved headings allow deny before after i j) {row : ℕ} :
    FooterFrom after row ↔ FooterFrom before row := by
  have bodies (lines : List Text) :
      FooterFrom lines row ↔ ∃ line ∈ (lines.map body).drop row, line.contains "esc".toList = true := by
    rw [← List.map_drop]
    constructor
    · rintro ⟨line, member, esc⟩
      exact ⟨body line, List.mem_map_of_mem member, by rw [contains_body, esc]⟩
    · rintro ⟨line, member, esc⟩
      obtain ⟨old, inside, rfl⟩ := List.mem_map.mp member
      exact ⟨old, inside, by rw [← contains_body, esc]⟩
  rw [bodies, bodies, moved.bodies]

/-- Rows below both markers are the same. -/
theorem Moved.newest (moved : Moved headings allow deny before after i j) {row : ℕ} (first : i ≤ row) (second : j ≤ row) :
    NoPromptBelow after row ↔ NoPromptBelow before row := by
  have same : after.drop (row + 1) = before.drop (row + 1) := by
    refine List.ext_getElem? fun k => ?_
    rw [List.getElem?_drop, List.getElem?_drop, moved.others _ (by omega) (by omega)]
  unfold NoPromptBelow
  rw [same]

/-- The rows of the dialog other than the marked one depend on the labels. -/
theorem Moved.position (moved : Moved headings allow deny before after i j) (start : ℕ) (p : Text → Bool) :
    positionFrom start (fun line => p (option line).1) after =
      positionFrom start (fun line => p (option line).1) before := by
  refine positionFrom_congr ?_
  have composed (lines : List Text) : (lines.map fun line => p (option line).1) =
      (lines.map fun line => (option line).1).map p := by
    rw [List.map_map]
    rfl
  rw [composed, composed, labels_of_bodies moved.bodies]

/-- The marker is on the new row alone. -/
theorem Moved.marked (moved : Moved headings allow deny before after i j)
    (heading : rposition (isHeading headings) before = some header) (marked : markedRows (header + 1) before = [i]) :
    markedRows (header + 1) after = [j] := by
  obtain ⟨line, here, carries, -⟩ := moved.entered
  refine markedRows_singleton.mpr fun row => ⟨fun member => ?_, ?_⟩
  · obtain ⟨start, other, there, carries'⟩ := mem_markedRows.mp member
    by_contra differs
    have away : row ≠ i := by
      rintro rfl
      have unmarked := moved.left other there
      rw [carries'] at unmarked
      exact Bool.noConfusion unmarked
    rw [moved.others row away differs] at there
    exact away ((markedRows_singleton.mp marked row).mp (mem_markedRows.mpr ⟨start, other, there, carries'⟩))
  · rintro rfl
    exact mem_markedRows.mpr ⟨moved.below header heading, line, here, carries⟩

/-- A moved marker shows the same rows when what is below the last one stays complete. -/
theorem Moved.shows (moved : Moved headings allow deny before after i j)
    (heading : rposition (isHeading headings) after = rposition (isHeading headings) before)
    (shows : Shows headings allow deny before header choice denial i)
    (near : optionsBetween allow deny before choice j ≤ 9) (footer : FooterFrom after (lastRow choice denial j))
    (newest : NoPromptBelow after (lastRow choice denial j)) :
    Shows headings allow deny after header choice denial j := by
  obtain ⟨line, here, -, option⟩ := moved.entered
  refine ⟨heading.trans shows.heading, ?_, ?_, moved.marked shows.heading shows.marked, ?_, footer, newest,
    fun _ => ?_⟩
  · rw [moved.position]
    exact shows.affirmative
  · rw [moved.position (header + 1) (isDenial deny)]
    exact shows.negative
  · rw [List.getD_eq_getElem?_getD, here]
    exact option
  · rw [optionsBetween_congr (labels_of_bodies moved.bodies)]
    exact near

/-- After a move the dialog has the same rows and the marker on the new one. -/
theorem Moved.rows {header' choice' denial' i' : ℕ} (moved : Moved headings allow deny before after i j)
    (heading : rposition (isHeading headings) after = rposition (isHeading headings) before)
    (shows : Shows headings allow deny before header choice denial i)
    (shows' : Shows headings allow deny after header' choice' denial' i') :
    header' = header ∧ choice' = choice ∧ denial' = denial ∧ i' = j := by
  obtain rfl := Option.some.inj ((heading.trans shows.heading).symm.trans shows'.heading)
  have affirmative := shows'.affirmative
  rw [moved.position, shows.affirmative] at affirmative
  have negative := shows'.negative
  rw [moved.position (_ + 1) (isDenial deny), shows.negative] at negative
  have marked := shows'.marked
  rw [moved.marked shows.heading shows.marked] at marked
  exact ⟨rfl, (Option.some.inj affirmative).symm, (Option.some.inj negative).symm,
    (List.singleton_inj.mp marked).symm⟩

/-- The screen after a steady move is recognised with the same fingerprint. -/
theorem Moved.recognised {screen screen' : Text} (hash : List Text → ℕ)
    (moved : Moved headings allow deny screen.lines screen'.lines i j)
    (shows : Shows headings allow deny screen.lines header choice denial i)
    (near : optionsBetween allow deny screen.lines choice j ≤ 9)
    (steady : Steady headings screen.lines screen'.lines choice denial i j) :
    ∃ approval, selectedChoices headings allow deny hash screen' = some approval ∧
      approval.fingerprint = (approvalOf hash screen.lines choice denial i).fingerprint := by
  obtain ⟨heading, last⟩ := steady
  have first : i ≤ lastRow choice denial j := last ▸ Nat.le_max_right _ _
  have footer : FooterFrom screen'.lines (lastRow choice denial j) := by
    rw [moved.footer, last]
    exact shows.footer
  have newest : NoPromptBelow screen'.lines (lastRow choice denial j) := by
    rw [moved.newest first (Nat.le_max_right _ _), last]
    exact shows.newest
  refine ⟨_, selectedChoices_eq_some.mpr
    ⟨header, choice, denial, j, moved.shows heading shows near footer newest, rfl⟩, ?_⟩
  rw [fingerprint_approvalOf, fingerprint_approvalOf, moved.labels, last]

/-- Labels are hashed down to a row that has one. -/
theorem hashedLabels_ne {lines : List Text} {line : Text} (above : i < j) (here : lines[j]? = some line)
    (label : (option line).1 ≠ []) : hashedLabels lines i ≠ hashedLabels lines j := by
  have length (row : ℕ) : (hashedLabels lines row).length =
      ((lines.take (row + 1)).map fun line => (option line).1).countP fun label => !label.isEmpty :=
    List.countP_eq_length_filter.symm
  have fewer := ((List.take_sublist_take_left (l := lines) (by omega : i + 1 ≤ j)).map
    fun line => (option line).1).countP_le (p := fun label => !label.isEmpty)
  have more : (lines.take (j + 1)).map (fun line => (option line).1) =
      (lines.take j).map (fun line => (option line).1) ++ [(option line).1] := by
    rw [List.take_add_one, here, Option.toList_some, List.map_append, List.map_singleton]
  intro same
  have counted := congrArg List.length same
  rw [length, length, more, List.countP_append, List.countP_singleton, if_pos (by simpa using label)] at counted
  omega

/-- A label of an option row is not empty when no given one is. -/
theorem label_ne_nil (allowed : [] ∉ allow) (denied : [] ∉ deny) {label : Text}
    (option : isChoice allow deny label = true) : label ≠ [] := by
  rintro rfl
  unfold isChoice at option
  have none : (allow.contains ([] : Text)) = false ∧ (deny.contains ([] : Text)) = false :=
    ⟨by simpa using allowed, by simpa using denied⟩
  rw [none.1, none.2] at option
  exact absurd option (by decide)

/-- Below the same heading, a hash without collisions tells a moved last row apart. -/
theorem Moved.last {screen screen' : Text} (moved : Moved headings allow deny screen.lines screen'.lines i j)
    (shows : Shows headings allow deny screen.lines header choice denial i)
    (heading : rposition (isHeading headings) screen'.lines = rposition (isHeading headings) screen.lines)
    (apart : Function.Injective hash) (allowed : [] ∉ allow) (denied : [] ∉ deny) {approval : Approval}
    (found : selectedChoices headings allow deny hash screen' = some approval)
    (same : approval.fingerprint = (approvalOf hash screen.lines choice denial i).fingerprint) :
    lastRow choice denial j = lastRow choice denial i := by
  obtain ⟨header', choice', denial', i', shows', rfl⟩ := selectedChoices_eq_some.mp found
  obtain ⟨rfl, rfl, rfl, rfl⟩ := moved.rows heading shows shows'
  rw [fingerprint_approvalOf, fingerprint_approvalOf] at same
  have labels := apart same
  obtain ⟨line, here, option⟩ := shows.last_row
  obtain ⟨line', here', option'⟩ := shows'.last_row
  rcases Nat.lt_trichotomy (lastRow choice' denial' i') (lastRow choice' denial' i) with above | equal | below
  · rw [moved.labels] at labels
    exact absurd labels (hashedLabels_ne above here (label_ne_nil allowed denied option))
  · exact equal
  · rw [← moved.labels] at labels
    exact absurd labels.symm (hashedLabels_ne below here' (label_ne_nil allowed denied option'))

end Moves

section Arrows

/-- The next option row from a row towards the first affirmative one. -/
structure Neighbour (allow deny lines : List Text) (choice i j : ℕ) : Prop where
  down : i < choice → i < j
  up : choice < i → j < i
  next : ∀ k line, min i j < k → k < max i j → lines[k]? = some line → isChoice allow deny (option line).1 = false

/-- An arrow leaves one option row less to the first affirmative one. -/
theorem Neighbour.count {lines : List Text} {line row : Text} (neighbour : Neighbour allow deny lines choice i j)
    (differ : i ≠ choice) (here : lines[i]? = some line) (target : lines[choice]? = some row)
    (first : isChoice allow deny (option line).1 = true) (affirmative : isChoice allow deny (option row).1 = true) :
    optionsBetween allow deny lines choice j + 1 = optionsBetween allow deny lines choice i := by
  have reached : ¬(min i j < choice ∧ choice < max i j) := fun ⟨low, high⟩ => by
    have none := neighbour.next choice row low high target
    rw [affirmative] at none
    exact Bool.noConfusion none
  rw [optionsBetween_above, optionsBetween_above]
  rcases Nat.lt_or_gt_of_ne differ with below | above
  · have down := neighbour.down below
    have skipped := optionsAbove_skip allow deny lines (by omega : i + 1 ≤ j)
      fun k line low high at' => neighbour.next k line (by omega) (by omega) at'
    rw [optionsAbove_succ _ _ here, if_pos first] at skipped
    have inside := optionsAbove_mono allow deny lines (by omega : j ≤ choice)
    have counted := optionsAbove_succ allow deny target
    rw [if_pos affirmative] at counted
    rw [Nat.max_eq_left (by omega : j ≤ choice), Nat.min_eq_right (by omega : j ≤ choice),
      Nat.max_eq_left below.le, Nat.min_eq_right below.le]
    omega
  · have up := neighbour.up above
    have skipped := optionsAbove_skip allow deny lines (by omega : j + 1 ≤ i)
      fun k line low high at' => neighbour.next k line (by omega) (by omega) at'
    have inside := optionsAbove_mono allow deny lines (by omega : choice ≤ j + 1)
    have counted := optionsAbove_succ allow deny here
    rw [if_pos first] at counted
    rw [Nat.max_eq_right (by omega : choice ≤ j), Nat.min_eq_left (by omega : choice ≤ j),
      Nat.max_eq_right above.le, Nat.min_eq_left above.le]
    omega

/-- The pane answers an arrow by a steady move of the marker to the neighbouring option row. -/
def Obeys (headings allow deny : List Text) (screen next : Text) : Prop :=
  ∀ header choice denial selected, Shows headings allow deny screen.lines header choice denial selected →
    selected ≠ choice → ∃ row, Moved headings allow deny screen.lines next.lines selected row ∧
      Neighbour allow deny screen.lines choice selected row ∧
      Steady headings screen.lines next.lines choice denial selected row

/-- A manual approval of the first screen and its continuation on the screens after it, with a queue that
accepts. -/
def manual (headings allow deny : List Text) (hash : List Text → ℕ) (state : AutoApproval) (pane invocation : ℕ)
    (screens : ℕ → Text) : ℕ → AutoApproval × Option (List UInt8)
  | 0 => state.approvePermission pane invocation (selectedChoices headings allow deny hash (screens 0)) false false true
  | n + 1 => (manual headings allow deny hash state pane invocation screens n).1.approvePermission pane invocation
      (selectedChoices headings allow deny hash (screens (n + 1))) false true true

/-- A new choice of the delivered dialog is delivered too. -/
theorem approvePermission_new {state : AutoApproval} {pane invocation : ℕ} {approval : Approval} {continuation : Bool}
    (allowed : continuation = true → state.canContinueManual pane invocation approval.fingerprint = true)
    (new : state.isNew pane invocation approval.fingerprint approval.navigation = true) :
    state.approvePermission pane invocation (some approval) false continuation true =
      (state.deliver pane invocation approval.fingerprint approval.navigation false, some approval.keys) := by
  have guard : ¬(continuation && !state.canContinueManual pane invocation approval.fingerprint) = true := by
    cases continuation with
    | false => rw [Bool.false_and]; decide
    | true => rw [allowed rfl]; decide
  unfold AutoApproval.approvePermission
  dsimp only
  rw [if_neg guard, if_neg (by rw [new]; decide), if_neg (by decide)]

private theorem deliver_pane (state : AutoApproval) (pane invocation prompt : ℕ) (navigation : Option ℕ) :
    (state.deliver pane invocation prompt navigation false).delivered pane =
      some { invocation, prompt, navigation, automatic := false } := by
  unfold AutoApproval.deliver
  exact Function.update_self ..

/-- What the deliveries have come to at a screen of the run. -/
structure Underway (headings allow deny : List Text) (hash : List Text → ℕ) (pane invocation prompt header choice denial
    : ℕ) (screen : Text) (left : ℕ) (delivered : AutoApproval × Option (List UInt8)) (selected : ℕ) : Prop where
  shows : Shows headings allow deny screen.lines header choice denial selected
  same : (approvalOf hash screen.lines choice denial selected).fingerprint = prompt
  left : optionsBetween allow deny screen.lines choice selected = left + 1
  state : delivered.1.delivered pane = some
    { invocation, prompt, navigation := (approvalOf hash screen.lines choice denial selected).navigation
      automatic := false }
  keys : delivered.2 = some (approvalOf hash screen.lines choice denial selected).keys

variable {pane invocation prompt left selected : ℕ} {screen next : Text} {delivered : AutoApproval × Option (List UInt8)}

/-- The run is at the first affirmative row when no option row is left. -/
theorem Underway.arrived (underway : Underway headings allow deny hash pane invocation prompt header choice denial
    screen left delivered selected) : selected = choice ↔ left = 0 := by
  have counted := underway.left
  constructor
  · rintro rfl
    obtain ⟨-, line, here, affirmative⟩ := underway.shows.choice_row
    have one := optionsAbove_succ allow deny here
    rw [if_pos affirmative] at one
    rw [optionsBetween_above, Nat.max_self, Nat.min_self] at counted
    omega
  · intro none
    by_contra differ
    have two := underway.shows.two_le differ
    omega

/-- Before it is there, the delivered arrow can be continued. -/
theorem Underway.continues (underway : Underway headings allow deny hash pane invocation prompt header choice denial
    screen left delivered selected) (some : left ≠ 0) :
    delivered.1.canContinueManual pane invocation prompt = true := by
  have differ : ¬selected = choice := fun same => some (underway.arrived.mp same)
  unfold AutoApproval.canContinueManual
  rw [underway.state, approvalOf, if_neg differ, if_neg differ]
  simp

/-- One obeyed arrow is one delivery and leaves one option row less. -/
theorem Underway.step (underway : Underway headings allow deny hash pane invocation prompt header choice denial
    screen (left + 1) delivered selected) (obeys : Obeys headings allow deny screen next) :
    ∃ row, Underway headings allow deny hash pane invocation prompt header choice denial next left
      (delivered.1.approvePermission pane invocation (selectedChoices headings allow deny hash next) false true true)
      row := by
  have differ : selected ≠ choice := fun equal => Nat.succ_ne_zero left (underway.arrived.mp equal)
  have allowed := underway.continues (Nat.succ_ne_zero left)
  obtain ⟨shows, same, counted, state, -⟩ := underway
  obtain ⟨row, moved, neighbour, steady⟩ := obeys header choice denial selected shows differ
  obtain ⟨-, line, here, -, first⟩ := shows.selected_row
  obtain ⟨-, target, at', affirmative⟩ := shows.choice_row
  have fewer := neighbour.count differ here at' first affirmative
  have near := shows.near differ
  obtain ⟨approval, found, equal⟩ := moved.recognised hash shows (by omega) steady
  obtain ⟨header', choice', denial', row', shows', rfl⟩ := selectedChoices_eq_some.mp found
  obtain ⟨rfl, rfl, rfl, rfl⟩ := moved.rows steady.heading shows shows'
  rw [same] at equal
  have new : delivered.1.isNew pane invocation
      (approvalOf hash next.lines choice' denial' row').fingerprint
      (approvalOf hash next.lines choice' denial' row').navigation = true := by
    have old : (approvalOf hash screen.lines choice' denial' selected).navigation = some selected := if_neg differ
    have other : (approvalOf hash next.lines choice' denial' row').navigation ≠ some selected := by
      unfold approvalOf
      dsimp only
      split
      · exact (Option.some_ne_none _).symm
      · exact fun equal => moved.ne (Option.some.inj equal).symm
    unfold AutoApproval.isNew
    rw [state, old]
    dsimp only
    rw [if_pos ⟨rfl, equal.symm⟩, Option.isSome_some, Bool.true_and, bne_iff_ne]
    exact other.symm
  refine ⟨row', shows', equal, ?_, ?_, ?_⟩
  · rw [optionsBetween_congr (labels_of_bodies moved.bodies)]
    omega
  · rw [found, approvePermission_new (fun _ => equal.symm ▸ allowed) new]
    dsimp only
    rw [deliver_pane, equal]
  · rw [found, approvePermission_new (fun _ => equal.symm ▸ allowed) new]

/-- Every screen of the run up to the last one finds it one option row further. -/
theorem manual_underway {state : AutoApproval} {screens : ℕ → Text}
    (start : Underway headings allow deny hash pane invocation prompt header choice denial (screens 0) left
      (manual headings allow deny hash state pane invocation screens 0) selected)
    (obeys : ∀ n, Obeys headings allow deny (screens n) (screens (n + 1))) {k : ℕ} (within : k ≤ left) :
    ∃ row, Underway headings allow deny hash pane invocation prompt header choice denial (screens k) (left - k)
      (manual headings allow deny hash state pane invocation screens k) row := by
  induction k with
  | zero => exact ⟨selected, start⟩
  | succ k ih =>
    obtain ⟨row, underway⟩ := ih (by omega)
    rw [show left - k = left - (k + 1) + 1 by omega] at underway
    exact underway.step (obeys k)

/-- The first delivery of a manual approval. -/
theorem manual_start (state : AutoApproval) {screens : ℕ → Text}
    (shows : Shows headings allow deny (screens 0).lines header choice denial selected)
    (new : state.isNew pane invocation (approvalOf hash (screens 0).lines choice denial selected).fingerprint
      (approvalOf hash (screens 0).lines choice denial selected).navigation = true) :
    ∃ left ≤ 8, Underway headings allow deny hash pane invocation
      (approvalOf hash (screens 0).lines choice denial selected).fingerprint header choice denial (screens 0) left
      (manual headings allow deny hash state pane invocation screens 0) selected := by
  have found : selectedChoices headings allow deny hash (screens 0) =
      some (approvalOf hash (screens 0).lines choice denial selected) :=
    selectedChoices_eq_some.mpr ⟨header, choice, denial, selected, shows, rfl⟩
  have counted : 1 ≤ optionsBetween allow deny (screens 0).lines choice selected ∧
      optionsBetween allow deny (screens 0).lines choice selected ≤ 9 := by
    by_cases same : selected = choice
    · subst same
      obtain ⟨-, line, here, affirmative⟩ := shows.choice_row
      have one := optionsAbove_succ allow deny here
      rw [if_pos affirmative] at one
      rw [optionsBetween_above, Nat.max_self, Nat.min_self]
      omega
    · have two := shows.two_le same
      exact ⟨by omega, shows.near same⟩
  refine ⟨_, by omega, shows, rfl, (Nat.sub_add_cancel counted.1).symm, ?_, ?_⟩
  · rw [manual, found, approvePermission_new (fun impossible => Bool.noConfusion impossible) new]
    exact deliver_pane ..
  · rw [manual, found, approvePermission_new (fun impossible => Bool.noConfusion impossible) new]

/-- A returned choice submits the first affirmative row when that one is marked and otherwise sends one arrow
towards it. The next screen of the dialog has its fingerprint when the move of the marker is steady, and below the
same heading only then, unless the hash collides. A run of steady moves submits after at most eight arrows, each
continued by the manual approval. -/
theorem selectedChoices_dialog {screen : Text} {approval : Approval}
    (found : selectedChoices headings allow deny hash screen = some approval) :
    ∃ header choice denial selected, Shows headings allow deny screen.lines header choice denial selected ∧
      approval.keys = (if selected = choice then submitKeys else if selected < choice then arrowDown else arrowUp) ∧
      (∀ screen' row, Moved headings allow deny screen.lines screen'.lines selected row →
        optionsBetween allow deny screen.lines choice row ≤ 9 →
        (Steady headings screen.lines screen'.lines choice denial selected row →
          ∃ approval', selectedChoices headings allow deny hash screen' = some approval' ∧
            approval'.fingerprint = approval.fingerprint) ∧
        (Function.Injective hash → [] ∉ allow → [] ∉ deny →
          rposition (isHeading headings) screen'.lines = rposition (isHeading headings) screen.lines →
          ∀ approval', selectedChoices headings allow deny hash screen' = some approval' →
            approval'.fingerprint = approval.fingerprint →
            Steady headings screen.lines screen'.lines choice denial selected row)) ∧
      ∀ state pane invocation screens, screens 0 = screen →
        state.isNew pane invocation approval.fingerprint approval.navigation = true →
        (∀ n, Obeys headings allow deny (screens n) (screens (n + 1))) →
        ∃ n ≤ 8, ∀ k ≤ n, ∃ approval', selectedChoices headings allow deny hash (screens k) = some approval' ∧
          approval'.fingerprint = approval.fingerprint ∧ (approval'.keys = submitKeys ↔ k = n) ∧
          (manual headings allow deny hash state pane invocation screens k).2 = some approval'.keys ∧
          (k < n → (manual headings allow deny hash state pane invocation screens k).1.canContinueManual pane invocation
            approval.fingerprint = true) := by
  obtain ⟨header, choice, denial, selected, shows, rfl⟩ := selectedChoices_eq_some.mp found
  refine ⟨header, choice, denial, selected, shows, rfl, fun screen' row moved near => ⟨moved.recognised hash shows near, ?_⟩, ?_⟩
  · intro apart allowed denied heading approval' found' same
    exact ⟨heading, moved.last shows heading apart allowed denied found' same⟩
  rintro state pane invocation screens rfl new obeys
  obtain ⟨left, bound, start⟩ := manual_start state shows new
  refine ⟨left, bound, fun k within => ?_⟩
  obtain ⟨row, underway⟩ := manual_underway start obeys within
  refine ⟨_, selectedChoices_eq_some.mpr ⟨header, choice, denial, row, underway.shows, rfl⟩, underway.same, ?_,
    underway.keys, fun before => underway.continues (by omega)⟩
  have arrived := underway.arrived
  constructor
  · intro submits
    by_contra differ
    have away : ¬row = choice := fun same => differ (by have := arrived.mp same; omega)
    unfold approvalOf at submits
    dsimp only at submits
    rw [if_neg away] at submits
    split at submits
    · exact absurd submits (by decide)
    · exact absurd submits (by decide)
  · rintro rfl
    exact if_pos (arrived.mpr (Nat.sub_self k))

end Arrows

section Screens

/-- A dialog with its marker on the first affirmative row, and with it on the row below the negative one. -/
def firstMarked : Text := "proceed?\n❯ 1. yes\n  2. no\n  3. yes, always\nesc to cancel".toList

def lastMarked : Text := "proceed?\n  1. yes\n  2. no\n❯ 3. yes, always\nesc to cancel".toList

private theorem selectedChoices_firstMarked :
    selectedChoices ["proceed?".toList] ["yes".toList] ["no".toList] DefaultHasher.hashTexts firstMarked =
      some { fingerprint := 699772933933997048, keys := submitKeys, navigation := none } := by decide

theorem selectedChoices_dialog_first : ∃ header choice denial selected,
    Shows ["proceed?".toList] ["yes".toList] ["no".toList] firstMarked.lines header choice denial selected ∧
      submitKeys = if selected = choice then submitKeys else if selected < choice then arrowDown else arrowUp := by
  obtain ⟨header, choice, denial, selected, shows, keys, -⟩ := selectedChoices_dialog selectedChoices_firstMarked
  exact ⟨header, choice, denial, selected, shows, keys⟩

/-- The two screens differ only in the marked row, and the last row is hashed when it carries the marker. -/
theorem not_same_lastMarked :
    selectedChoices ["proceed?".toList] ["yes".toList] ["no".toList] DefaultHasher.hashTexts firstMarked =
        some { fingerprint := 699772933933997048, keys := submitKeys, navigation := none } ∧
      Moved ["proceed?".toList] ["yes".toList] ["no".toList] firstMarked.lines lastMarked.lines 1 3 ∧
      optionsBetween ["yes".toList] ["no".toList] firstMarked.lines 1 3 ≤ 9 ∧
      ¬∃ approval, selectedChoices ["proceed?".toList] ["yes".toList] ["no".toList] DefaultHasher.hashTexts lastMarked =
        some approval ∧ approval.fingerprint = 699772933933997048 := by
  have moved : Moved ["proceed?".toList] ["yes".toList] ["no".toList] firstMarked.lines lastMarked.lines 1 3 := by
    refine ⟨by decide, fun k first second => ?_, fun header newest => ?_, fun line here => ?_, ?_⟩
    · match k with
      | 0 | 2 | 4 => decide
      | 1 => exact absurd rfl first
      | 3 => exact absurd rfl second
      | k + 5 =>
        have short : firstMarked.lines.length ≤ k + 5 ∧ lastMarked.lines.length ≤ k + 5 :=
          ⟨le_trans (by decide : _ ≤ 5) (Nat.le_add_left ..), le_trans (by decide : _ ≤ 5) (Nat.le_add_left ..)⟩
        rw [List.getElem?_eq_none short.1, List.getElem?_eq_none short.2]
    · have zero : rposition (isHeading ["proceed?".toList]) firstMarked.lines = some 0 := by decide
      rw [zero] at newest
      obtain rfl := Option.some.inj newest
      decide
    · have row : lastMarked.lines[1]? = some "  1. yes".toList := by decide
      rw [row] at here
      obtain rfl := Option.some.inj here
      decide
    · exact ⟨"❯ 3. yes, always".toList, by decide, by decide, by decide⟩
  have last : selectedChoices ["proceed?".toList] ["yes".toList] ["no".toList] DefaultHasher.hashTexts lastMarked =
      some { fingerprint := 5227735823452248543, keys := arrowUp, navigation := some 3 } := by decide
  refine ⟨selectedChoices_firstMarked, moved, by decide, fun ⟨approval, found, same⟩ => ?_⟩
  rw [last] at found
  obtain rfl := Option.some.inj found
  exact absurd same (by decide)

/-- A row that reads like a heading once the marker has left it hides the dialog. -/
example : selectedChoices ["proceed?".toList, "yes".toList] ["yes".toList] ["no".toList] DefaultHasher.hashTexts
      "proceed?\n❯ yes\n  no\nesc to cancel".toList ≠ none ∧
    selectedChoices ["proceed?".toList, "yes".toList] ["yes".toList] ["no".toList] DefaultHasher.hashTexts
      "proceed?\n  yes\n❯ no\nesc to cancel".toList = none := by decide

end Screens

end Uniterm.Model.Providers
