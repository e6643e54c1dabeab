import Uniterm.Model.Providers.Approval
import Mathlib.Data.List.Range
import Mathlib.Data.List.Nodup

/-! # What a recognised dialog shows

A screen is recognised when it has a heading, an affirmative and a negative row below it, one marked option row,
a footer and no newer prompt. Everything but the footer, the prompt and the hashed rows is read off the labels
and the marker.
-/

namespace Uniterm.Model.Providers

variable {headings allow deny : List Text} {hash : List Text → ℕ} {lines : List Text}
  {header choice denial selected : ℕ}

section Positions

variable {p : Text → Bool} {start k : ℕ}

private theorem positionFrom_some (found : positionFrom start p lines = some k) :
    start ≤ k ∧ ∃ line, lines[k]? = some line ∧ p line = true := by
  unfold positionFrom at found
  obtain ⟨row, here, rfl⟩ := Option.map_eq_some_iff.mp found
  obtain ⟨above, at'⟩ := List.mem_zipIdx_iff_le_and_getElem?_sub.mp (List.mem_of_find?_eq_some here)
  rw [List.getElem?_drop, Nat.add_sub_cancel' above] at at'
  have holds := List.find?_some here
  exact ⟨above, row.1, at', holds⟩

/-- The position depends only on where the predicate holds. -/
theorem positionFrom_congr {before after : List Text} (same : before.map p = after.map p) :
    positionFrom start p before = positionFrom start p after := by
  have flags (lines : List Text) :
      positionFrom start p lines = ((((lines.map p).drop start).zipIdx start).find? Prod.fst).map Prod.snd := by
    unfold positionFrom
    rw [← List.map_drop, List.zipIdx_map, List.find?_map, Option.map_map]
    rfl
  rw [flags, flags, same]

/-- A row is listed when it is marked and not above the start. -/
theorem mem_markedRows : k ∈ markedRows start lines ↔
    start ≤ k ∧ ∃ line, lines[k]? = some line ∧ (option line).2 = true := by
  unfold markedRows
  rw [List.mem_map]
  constructor
  · rintro ⟨row, member, rfl⟩
    obtain ⟨inside, marked⟩ := List.mem_filter.mp member
    obtain ⟨above, at'⟩ := List.mem_zipIdx_iff_le_and_getElem?_sub.mp inside
    rw [List.getElem?_drop, Nat.add_sub_cancel' above] at at'
    exact ⟨above, row.1, at', marked⟩
  · rintro ⟨above, line, at', marked⟩
    refine ⟨(line, k), List.mem_filter.mpr ⟨?_, marked⟩, rfl⟩
    rw [List.mem_zipIdx_iff_le_and_getElem?_sub, List.getElem?_drop, Nat.add_sub_cancel' above]
    exact ⟨above, at'⟩

theorem markedRows_singleton : markedRows start lines = [k] ↔ ∀ row, row ∈ markedRows start lines ↔ row = k := by
  constructor
  · intro single row
    rw [single, List.mem_singleton]
  · intro only
    have distinct : (markedRows start lines).Nodup := by
      refine List.Nodup.sublist (List.filter_sublist.map Prod.snd) ?_
      rw [List.zipIdx_map_snd]
      exact List.nodup_range'
    refine List.perm_singleton.mp ((List.perm_ext_iff_of_nodup distinct (List.nodup_singleton k)).mpr fun row => ?_)
    rw [only, List.mem_singleton]

end Positions

section Counting

variable {a b i j : ℕ}

/-- The option rows above a row. -/
def optionsAbove (allow deny lines : List Text) (row : ℕ) : ℕ :=
  (lines.take row).countP fun line => isChoice allow deny (option line).1

theorem optionsAbove_mono (allow deny lines : List Text) (le : a ≤ b) : optionsAbove allow deny lines a ≤ optionsAbove allow deny lines b :=
  (List.take_sublist_take_left le).countP_le

/-- A row that is an option counts. -/
theorem optionsAbove_succ (allow deny : List Text) {line : Text} (here : lines[i]? = some line) :
    optionsAbove allow deny lines (i + 1) =
      optionsAbove allow deny lines i + if isChoice allow deny (option line).1 then 1 else 0 := by
  unfold optionsAbove
  rw [List.take_add_one, here, List.countP_append, Option.toList_some, List.countP_singleton]

/-- Rows without an option between two rows do not count. -/
theorem optionsAbove_skip (allow deny lines : List Text) (le : i ≤ j)
    (none : ∀ k line, i ≤ k → k < j → lines[k]? = some line → isChoice allow deny (option line).1 = false) :
    optionsAbove allow deny lines j = optionsAbove allow deny lines i := by
  induction j, le using Nat.le_induction with
  | base => rfl
  | succ j le ih =>
    have before := ih fun k line above below => none k line above (by omega)
    rcases here : lines[j]? with _ | line
    · rw [← before]
      unfold optionsAbove
      rw [List.take_add_one, here, Option.toList_none, List.append_nil]
    · rw [optionsAbove_succ _ _ here, none j line le (Nat.lt_succ_self j) here, before]
      rfl

theorem optionsBetween_above (lines : List Text) (a b : ℕ) : optionsBetween allow deny lines a b =
    optionsAbove allow deny lines (max a b + 1) - optionsAbove allow deny lines (min a b) := by
  unfold optionsBetween optionsAbove
  have whole : max a b + 1 = min a b + (max a b - min a b + 1) := by omega
  conv_rhs => rw [whole]
  rw [List.take_add (i := min a b), List.countP_append, Nat.add_sub_cancel_left]

/-- Two different option rows are two of those between them. -/
theorem two_le_optionsBetween {line other : Text} (differ : a ≠ b) (here : lines[a]? = some line)
    (there : lines[b]? = some other) (first : isChoice allow deny (option line).1 = true)
    (second : isChoice allow deny (option other).1 = true) : 2 ≤ optionsBetween allow deny lines a b := by
  have step (low high : ℕ) (lowLine highLine : Text) (lt : low < high) (lowHere : lines[low]? = some lowLine)
      (highHere : lines[high]? = some highLine) (lowOption : isChoice allow deny (option lowLine).1 = true)
      (highOption : isChoice allow deny (option highLine).1 = true) :
      2 ≤ optionsAbove allow deny lines (high + 1) - optionsAbove allow deny lines low := by
    have later := optionsAbove_mono allow deny lines (Nat.succ_le_of_lt lt)
    rw [optionsAbove_succ _ _ lowHere, if_pos lowOption] at later
    rw [optionsAbove_succ _ _ highHere, if_pos highOption]
    omega
  rw [optionsBetween_above]
  rcases Nat.lt_or_gt_of_ne differ with lt | gt
  · rw [Nat.max_eq_right lt.le, Nat.min_eq_left lt.le]
    exact step a b line other lt here there first second
  · rw [Nat.max_eq_left gt.le, Nat.min_eq_right gt.le]
    exact step b a other line gt there here second first

/-- The count depends only on the labels. -/
theorem optionsBetween_congr {before after : List Text}
    (same : before.map (fun line => (option line).1) = after.map fun line => (option line).1) (a b : ℕ) :
    optionsBetween allow deny before a b = optionsBetween allow deny after a b := by
  have labels (lines : List Text) : optionsBetween allow deny lines a b =
      (((lines.map fun line => (option line).1).drop (min a b)).take (max a b - min a b + 1)).countP
        (isChoice allow deny) := by
    unfold optionsBetween
    rw [← List.map_drop, ← List.map_take, List.countP_map]
    rfl
  rw [labels, labels, same]

end Counting

section Shows

/-- The last row that is hashed. -/
def lastRow (choice denial selected : ℕ) : ℕ := max (max choice denial) selected

/-- A footer at or below a row. -/
def FooterFrom (lines : List Text) (row : ℕ) : Prop := ∃ line ∈ lines.drop row, line.contains "esc".toList = true

/-- No newer prompt below a row. -/
def NoPromptBelow (lines : List Text) (row : ℕ) : Prop := ∀ line ∈ lines.drop (row + 1), isPrompt line = false

private theorem footerFrom_iff {row : ℕ} :
    FooterFrom lines row ↔ ((lines.drop row).any fun line => line.contains "esc".toList) = true :=
  List.any_eq_true.symm

private theorem noPromptBelow_iff {row : ℕ} :
    NoPromptBelow lines row ↔ (lines.drop (row + 1)).any isPrompt = false := by
  unfold NoPromptBelow
  simp only [List.any_eq_false, Bool.not_eq_true]

/-- What is checked of a screen before a key is sent. -/
structure Shows (headings allow deny lines : List Text) (header choice denial selected : ℕ) : Prop where
  heading : rposition (isHeading headings) lines = some header
  affirmative : positionFrom (header + 1) (fun line => allow.contains (option line).1) lines = some choice
  negative : positionFrom (header + 1) (fun line => isDenial deny (option line).1) lines = some denial
  marked : markedRows (header + 1) lines = [selected]
  label : isChoice allow deny (option (lines.getD selected [])).1 = true
  footer : FooterFrom lines (lastRow choice denial selected)
  newest : NoPromptBelow lines (lastRow choice denial selected)
  near : selected ≠ choice → optionsBetween allow deny lines choice selected ≤ 9

/-- The choice read off such a screen. -/
def approvalOf (hash : List Text → ℕ) (lines : List Text) (choice denial selected : ℕ) : Approval :=
  { fingerprint hash (lines.take (lastRow choice denial selected + 1)) submitKeys with
    keys := if selected = choice then submitKeys else if selected < choice then arrowDown else arrowUp
    navigation := if selected = choice then none else some selected }

private theorem isChoice_of_allow {label : Text} (allowed : allow.contains label = true) :
    isChoice allow deny label = true := by
  unfold isChoice
  rw [allowed, Bool.true_or, Bool.true_or, Bool.true_or, Bool.true_or]

theorem Shows.selected_row (shows : Shows headings allow deny lines header choice denial selected) :
    header < selected ∧ ∃ line, lines[selected]? = some line ∧ (option line).2 = true ∧
      isChoice allow deny (option line).1 = true := by
  obtain ⟨below, line, here, marked⟩ := mem_markedRows.mp ((markedRows_singleton.mp shows.marked selected).mpr rfl)
  refine ⟨below, line, here, marked, ?_⟩
  have label := shows.label
  rwa [List.getD_eq_getElem?_getD, here, Option.getD_some] at label

theorem Shows.choice_row (shows : Shows headings allow deny lines header choice denial selected) :
    header < choice ∧ ∃ line, lines[choice]? = some line ∧ isChoice allow deny (option line).1 = true := by
  obtain ⟨below, line, here, allowed⟩ := positionFrom_some shows.affirmative
  exact ⟨below, line, here, isChoice_of_allow allowed⟩

private theorem isChoice_of_denial {label : Text} (denied : isDenial deny label = true) :
    isChoice allow deny label = true := by
  unfold isChoice
  unfold isDenial at denied
  rw [Bool.or_assoc (allow.contains label), denied, Bool.or_true, Bool.true_or, Bool.true_or]

/-- The last hashed row is an option row. -/
theorem Shows.last_row (shows : Shows headings allow deny lines header choice denial selected) :
    ∃ line, lines[lastRow choice denial selected]? = some line ∧ isChoice allow deny (option line).1 = true := by
  unfold lastRow
  rcases Nat.le_total selected (max choice denial) with upper | marked
  · rw [Nat.max_eq_left upper]
    rcases Nat.le_total denial choice with affirmative | negative
    · rw [Nat.max_eq_left affirmative]
      exact shows.choice_row.2
    · rw [Nat.max_eq_right negative]
      obtain ⟨-, line, here, denied⟩ := positionFrom_some shows.negative
      exact ⟨line, here, isChoice_of_denial denied⟩
  · rw [Nat.max_eq_right marked]
    obtain ⟨-, line, here, -, option⟩ := shows.selected_row
    exact ⟨line, here, option⟩

/-- The marked row and the affirmative one are two option rows. -/
theorem Shows.two_le (shows : Shows headings allow deny lines header choice denial selected)
    (differ : selected ≠ choice) : 2 ≤ optionsBetween allow deny lines choice selected := by
  obtain ⟨-, line, here, option⟩ := shows.choice_row
  obtain ⟨-, other, there, -, option'⟩ := shows.selected_row
  exact two_le_optionsBetween (Ne.symm differ) here there option option'

/-- A choice is returned exactly for the screens that pass the checks. -/
theorem selectedChoices_eq_some {screen : Text} {approval : Approval} :
    selectedChoices headings allow deny hash screen = some approval ↔
      ∃ header choice denial selected, Shows headings allow deny screen.lines header choice denial selected ∧
        approval = approvalOf hash screen.lines choice denial selected := by
  constructor
  · intro found
    unfold selectedChoices at found
    obtain ⟨header, heading, found⟩ := Option.bind_eq_some_iff.mp found
    obtain ⟨choice, affirmative, found⟩ := Option.bind_eq_some_iff.mp found
    obtain ⟨denial, negative, found⟩ := Option.bind_eq_some_iff.mp found
    split at found
    next selected marked =>
      dsimp only at found
      split at found
      · cases found
      next label =>
        split at found
        · cases found
        next footer =>
          split at found
          · cases found
          next newest =>
            have footer' : FooterFrom screen.lines (lastRow choice denial selected) :=
              footerFrom_iff.mpr (by simpa [lastRow] using footer)
            have newest' : NoPromptBelow screen.lines (lastRow choice denial selected) :=
              noPromptBelow_iff.mpr (by simpa [lastRow] using newest)
            split at found
            next same =>
              refine ⟨header, choice, denial, selected, ⟨heading, affirmative, negative, marked, by simpa using label,
                footer', newest', fun differ => absurd same differ⟩, ?_⟩
              rw [← Option.some.inj found, approvalOf, if_pos same, if_pos same]
              rfl
            next differ =>
              split at found
              · cases found
              split at found
              · cases found
              next near =>
                refine ⟨header, choice, denial, selected, ⟨heading, affirmative, negative, marked, by simpa using label,
                  footer', newest', fun _ => by omega⟩, ?_⟩
                rw [← Option.some.inj found, approvalOf, if_neg differ, if_neg differ]
                rfl
    next => cases found
  · rintro ⟨header, choice, denial, selected, shows, rfl⟩
    unfold selectedChoices
    dsimp only
    have footer : ¬(!(screen.lines.drop (max (max choice denial) selected)).any fun line =>
        line.contains "esc".toList) = true := by
      simpa [lastRow] using footerFrom_iff.mp shows.footer
    have newest : ¬(screen.lines.drop (max (max choice denial) selected + 1)).any isPrompt = true := by
      simpa [lastRow] using noPromptBelow_iff.mp shows.newest
    have label : ¬(!isChoice allow deny (option (screen.lines.getD selected [])).1) = true := by
      simpa using shows.label
    rw [shows.heading, Option.bind_eq_bind, Option.bind_some, shows.affirmative, Option.bind_some, shows.negative,
      Option.bind_some, shows.marked]
    dsimp only
    rw [if_neg label, if_neg footer, if_neg newest]
    by_cases same : selected = choice
    · rw [if_pos same, approvalOf, if_pos same, if_pos same]
      rfl
    · have low := shows.two_le same
      have high := shows.near same
      rw [if_neg same, if_neg (by omega), if_neg (by omega), approvalOf, if_neg same, if_neg same]
      rfl

end Shows

end Uniterm.Model.Providers
