import Uniterm.Machine.Run
import Uniterm.Soundness.Terminal.Print
import Uniterm.Soundness.Terminal.Screens

/-! # One action

What one action does to a sound state, in whatever build: it leaves a sound state, a release build
does not abort, and builds agree where no 16-bit sum leaves its range. The conditions name the few
actions that need one.
-/

namespace Uniterm.Model.Terminal

open Machine Grid

/-- An action on a state: sound results, no abort of a release build with the cursor on the screen,
and, given `inside`, one result for all builds with the cursor still inside the margins. -/
structure Acts (slack : Slack) (inside : Prop) (t : Terminal) (f : Build → Option Terminal) : Prop where
  keeps : Keeps f (Sound slack)
  total : ¬slack.column → ∃ t', f .release = some t'
  agrees : inside → t.Homed → Agrees f fun t' => Sound slack t' ∧ t'.Homed

section Rules

variable {slack : Slack} {inside : Prop} {t : Terminal} {f : Build → Option Terminal}

/-- An action that all builds carry out alike. -/
theorem acts_of_agrees (agrees : Agrees f (Kept slack t)) (total : ¬slack.column → ∃ t', f .release = some t') :
    Acts slack inside t f where
  keeps := agrees.keeps.mono fun _ kept => kept.sound
  total := total
  agrees _ homed := agrees.mono fun _ kept => ⟨kept.sound, kept.homed homed⟩

theorem acts_of_settles (settles : Settles f (Kept slack t)) : Acts slack inside t f :=
  acts_of_agrees settles.agrees fun _ => settles.imp fun _ result => result.1 .release

theorem acts_some {t' : Terminal} (kept : Kept slack t t') : Acts slack inside t fun _ => some t' :=
  acts_of_settles (settles_some kept)

theorem acts_of_layout (sound : Sound slack t) {t' : Terminal} (same : t'.layout = t.layout) :
    Acts slack inside t fun _ => some t' := acts_some (sound.of_layout same)

/-- An action that may leave the margins. -/
theorem acts_of_settles_if
    (settles : Settles f fun t' => Sound slack t' ∧ (inside → t.Homed → t'.Homed)) :
    Acts slack inside t f where
  keeps := settles.keeps.mono fun _ held => held.1
  total _ := settles.imp fun _ result => result.1 .release
  agrees holds homed := (settles.mono fun _ held => ⟨held.1, held.2 holds homed⟩).agrees

theorem Acts.imp {inside' : Prop} (acts : Acts slack inside t f) (weaker : inside' → inside) :
    Acts slack inside' t f := ⟨acts.keeps, acts.total, fun holds => acts.agrees (weaker holds)⟩

end Rules

section Tabs

variable {slack : Slack} {t : Terminal}

private theorem findTab_lt {tabs : List Bool} {columns : List ℕ} {x : ℕ}
    (found : findTab tabs columns = some (some x)) : x ∈ columns ∧ x < tabs.length := by
  induction columns with
  | nil => cases found
  | cons column rest ih =>
    obtain ⟨stop, read, next⟩ := Option.bind_eq_some_iff.mp found
    split at next
    · cases next
      exact ⟨List.mem_cons_self .., (List.getElem?_eq_some_iff.mp read).1⟩
    · obtain ⟨member, bound⟩ := ih next
      exact ⟨.tail _ member, bound⟩

private theorem findTab_some (tabs : List Bool) (columns : List ℕ)
    (inside : ∀ x ∈ columns, x < tabs.length) :
    ∃ found, findTab tabs columns = some found := by
  induction columns with
  | nil => exact ⟨none, rfl⟩
  | cons column rest ih =>
    have read := List.getElem?_eq_getElem (inside column (List.mem_cons_self ..))
    obtain ⟨found, later⟩ := ih fun x member => inside x (.tail _ member)
    simp only [findTab, read, Option.bind_eq_bind, Option.bind_some]
    split
    · exact ⟨_, rfl⟩
    · exact ⟨found, later⟩

theorem Sound.setTab (sound : Sound slack t) (stop : Bool) {inside : Prop} :
    Acts slack inside t fun _ => t.setTab stop := by
  unfold Terminal.setTab
  split
  · refine acts_some ⟨{ sound with tabs := ?_ }, id⟩
    rw [List.length_set]
    exact sound.tabs
  · next beyond =>
    refine acts_of_agrees agrees_none fun firm => ?_
    have column := sound.column.resolve_right fun loose => firm loose.1
    exact absurd (sound.tabs.symm ▸ column) beyond

theorem Sound.backTab (sound : Sound slack t) : Agrees (fun _ : Build => t.backTab) (Kept slack t) := by
  unfold Terminal.backTab
  cases search : findTab t.tabs (List.range t.cx).reverse with
  | none => exact agrees_none
  | some found =>
    refine (settles_some ⟨{ sound with column := .inl ?_ }, id⟩).agrees
    cases found with
    | none => exact sound.wide
    | some x => exact sound.tabs ▸ (findTab_lt search).2

theorem Sound.backTab_some (sound : Sound slack t) (firm : ¬slack.column) : ∃ t', t.backTab = some t' := by
  have column : t.cx < t.width := sound.column.resolve_right fun loose => firm loose.1
  have tabs := sound.tabs
  obtain ⟨found, search⟩ := findTab_some t.tabs (List.range t.cx).reverse fun x member => by
    have := List.mem_range.mp (List.mem_reverse.mp member)
    omega
  exact ⟨_, by rw [Terminal.backTab, search]; rfl⟩

theorem Sound.tab (sound : Sound slack t) : Settles (fun build => do
    let first ← add16 build t.cx 1
    let found ← findTab t.tabs (List.range' first (t.width - first))
    let right ← sub16 build t.width 1
    some { t with cx := found.getD right, wrapPending := false }) (Kept slack t) := by
  have column := sound.column
  have narrow := sound.narrow
  have tabs := sound.tabs
  have wide := sound.wide
  refine (settles_add16 (by omega)).bind fun first sum => ?_
  subst sum
  obtain ⟨found, search⟩ := findTab_some t.tabs (List.range' (t.cx + 1) (t.width - (t.cx + 1)))
    fun x member => by
      have := List.mem_range'_1.mp member
      omega
  simp only [search, Option.bind_eq_bind, Option.bind_some]
  refine (settles_sub16 (by omega)).bind fun right edge => settles_some ?_
  subst edge
  refine sound.withColumn ?_ false
  cases found with
  | none => exact Nat.sub_lt wide Nat.one_pos
  | some x => exact tabs ▸ (findTab_lt search).2

end Tabs

section Execute

variable {slack : Slack} {t : Terminal}

/-- A hard newline: the row is not continued, and the cursor moves down. -/
theorem Sound.newline (sound : Sound slack t) : Settles (fun build => do
    let t ← { t with grid := t.grid.setRowWrapped t.cy false }.linefeed build
    some { t with wrapPending := false }) (Kept slack t) := by
  have ended := sound.setRowWrapped t.cy false
  refine ended.sound.linefeed.bind fun t' fed => settles_some ?_
  exact (ended.trans fed.1).trans (fed.1.sound.withPending false)

theorem Sound.execute (sound : Sound slack t) (byte : ℕ) :
    Settles (fun build => t.execute build byte) (Kept slack t) := by
  unfold Terminal.execute
  split
  · exact sound.newline
  split
  · exact settles_some (sound.withColumn sound.wide false)
  split
  · exact settles_some (sound.withColumnLe (Nat.sub_le ..))
  split
  · exact sound.tab
  · exact settles_some sound.kept

end Execute

section Addressing

variable {slack : Slack} {t : Terminal} (params : List (List ℕ))

theorem param_pos (n : ℕ) {default : ℕ} (positive : 0 < default) : 0 < param params n default := by
  unfold param
  cases params[n]?.bind List.head? with
  | none => exact positive
  | some value =>
    rw [Option.filter_some]
    split
    · next used => simpa [Nat.pos_iff_ne_zero] using used
    · exact positive

/-- The cursor at an addressed position. -/
theorem Sound.withCursor (sound : Sound slack t) {cx cy : ℕ} (column : cx < t.width)
    (row : cy < t.height) : Sound slack { t with cy, cx, wrapPending := false } :=
  { sound with column := .inl column, row }

/-- A row computed from a parameter: on the screen, and inside the margins under origin mode when
no sum leaves its range. -/
structure Addresses (t : Terminal) (inside : Prop) (row : Build → Option ℕ) : Prop where
  keeps : Keeps row (· < t.height)
  total : ∃ cy, row .release = some cy
  settles : inside → Settles row fun cy =>
    cy < t.height ∧ (t.originMode = true → t.scrollTop ≤ cy ∧ cy ≤ t.scrollBottom)

theorem Sound.positionRow (sound : Sound slack t) {row : ℕ} (positive : 0 < row) :
    t.Addresses (t.originMode = true → t.scrollTop + row < 65536) fun build =>
      t.positionRow build row := by
  have tall := sound.tall
  have bottom := sound.bottom
  have margins := sound.margins
  unfold Terminal.positionRow
  by_cases origin : t.originMode = true
  · simp only [if_pos origin]
    refine ⟨?_, ?_, fun inside => ?_⟩
    · refine (keeps_true _).bind fun sum _ => (keeps_true _).bind fun target _ => keeps_some ?_
      omega
    · obtain ⟨sum, first⟩ := add16_release t.scrollTop row
      obtain ⟨target, second⟩ := sub16_release sum 1
      exact ⟨_, by simp only [first, second, Option.bind_eq_bind, Option.bind_some]; rfl⟩
    · refine (settles_add16 (inside origin)).bind fun sum first => ?_
      subst first
      refine (settles_sub16 (by omega)).bind fun target second => settles_some ?_
      subst second
      exact ⟨by omega, fun _ => by omega⟩
  · simp only [if_neg origin]
    have settled : Settles (fun build => do
        let target ← sub16 build row 1
        let bottom ← sub16 build t.height 1
        some (min target bottom)) (· < t.height) := by
      refine (settles_sub16 (by omega)).bind fun target _ => ?_
      refine (settles_sub16 (by omega)).bind fun last edge => settles_some ?_
      subst edge
      omega
    exact ⟨settled.keeps, settled.imp fun _ result => result.1 _,
      fun _ => settled.mono fun _ row => ⟨row, fun on => absurd on origin⟩⟩

theorem Sound.lineRow (sound : Sound slack t) (row : ℕ) :
    t.Addresses (t.originMode = true → t.scrollTop + row < 65536) fun build => t.lineRow build row := by
  have tall := sound.tall
  have bottom := sound.bottom
  have margins := sound.margins
  unfold Terminal.lineRow
  by_cases origin : t.originMode = true
  · simp only [if_pos origin]
    refine ⟨?_, ?_, fun inside => ?_⟩
    · refine (keeps_true _).bind fun sum _ => keeps_some ?_
      omega
    · obtain ⟨sum, first⟩ := add16_release t.scrollTop row
      exact ⟨_, by simp only [first, Option.bind_eq_bind, Option.bind_some]; rfl⟩
    · refine (settles_add16 (inside origin)).bind fun sum first => settles_some ?_
      subst first
      exact ⟨by omega, fun _ => by omega⟩
  · simp only [if_neg origin]
    have settled : Settles (fun build => do
        let bottom ← sub16 build t.height 1
        some (min row bottom)) (· < t.height) := by
      refine (settles_sub16 (by omega)).bind fun last edge => settles_some ?_
      subst edge
      omega
    exact ⟨settled.keeps, settled.imp fun _ result => result.1 _,
      fun _ => settled.mono fun _ row => ⟨row, fun on => absurd on origin⟩⟩

/-- An action that moves the cursor to an addressed row. -/
theorem Addresses.acts {inside : Prop} {row : Build → Option ℕ} (addresses : t.Addresses inside row)
    {place : ℕ → Build → Option Terminal}
    (places : ∀ cy, cy < t.height → Settles (place cy) fun t' =>
      Sound slack t' ∧ ((t.originMode = true → t.scrollTop ≤ cy ∧ cy ≤ t.scrollBottom) → t'.Homed)) :
    Acts slack inside t fun build => row build >>= fun cy => place cy build where
  keeps := addresses.keeps.bind fun cy bound => (places cy bound).keeps.mono fun _ held => held.1
  total _ := by
    obtain ⟨cy, addressed⟩ := addresses.total
    obtain ⟨t', result, _⟩ := places cy (addresses.keeps _ _ addressed)
    exact ⟨t', by simp only [addressed, Option.bind_eq_bind, Option.bind_some, result]⟩
  agrees holds _ := ((addresses.settles holds).bind fun cy addressed =>
    (places cy addressed.1).mono fun _ held => ⟨held.1, held.2 addressed.2⟩).agrees

theorem Sound.cursorPosition (sound : Sound slack t) :
    Acts slack (t.originMode = true → t.scrollTop + param params 0 1 < 65536) t fun build =>
      t.cursorPosition build params := by
  have wide := sound.wide
  have positive := param_pos params 1 Nat.one_pos
  refine (sound.positionRow (param_pos params 0 Nat.one_pos)).acts fun cy row => ?_
  refine (settles_sub16 (by omega)).bind fun target _ => ?_
  refine (settles_sub16 (by omega)).bind fun right edge => settles_some ?_
  subst edge
  exact ⟨sound.withCursor (by omega) row, id⟩

theorem Sound.linePosition (sound : Sound slack t) :
    Acts slack (t.originMode = true → t.scrollTop + (param params 0 1 - 1) < 65536) t fun build =>
      t.linePosition build params := by
  have positive := param_pos params 0 Nat.one_pos
  have same : (fun build => t.linePosition build params) = fun build =>
      t.lineRow build (param params 0 1 - 1) >>= fun cy => some { t with cy, wrapPending := false } := by
    funext build
    rw [Terminal.linePosition, sub16_of_le build (by omega)]
    rfl
  rw [same]
  exact (sound.lineRow (param params 0 1 - 1)).acts fun cy row => settles_some ⟨{ sound with row }, id⟩

theorem Sound.setMargins (sound : Sound slack t) :
    Settles (fun build => t.setMargins build params) (Kept slack t) := by
  have first := param_pos params 0 Nat.one_pos
  have last := param_pos params 1 sound.tall
  unfold Terminal.setMargins
  refine (settles_sub16 (by omega)).bind fun top _ => ?_
  refine (settles_sub16 (by omega)).bind fun bottom _ => settles_some ?_
  split
  · next ordered =>
    have moved : Sound slack { t with scrollTop := top, scrollBottom := bottom } :=
      { sound with margins := ordered.1.le, bottom := ordered.2 }
    exact ⟨moved.home.1, fun _ => moved.home.2⟩
  · exact sound.kept

/-- The row a position report gives counts from one, inside the margins under origin mode. -/
theorem Sound.reportedRow (sound : Sound slack t) (homed : t.Homed) :
    Settles (fun build => t.reportedRow build) fun row =>
      1 ≤ row ∧ (t.originMode = true → row ≤ t.scrollBottom - t.scrollTop + 1) := by
  have row := sound.row
  have short := sound.short
  unfold Terminal.reportedRow
  by_cases origin : t.originMode = true
  · have inside := homed origin
    simp only [if_pos origin]
    refine (settles_sub16 inside.1).bind fun offset first => ?_
    subst first
    refine (settles_add16 (by omega)).mono fun reported sum => ⟨by omega, fun _ => by omega⟩
  · simp only [if_neg origin]
    exact (settles_add16 (by omega)).mono fun reported sum =>
      ⟨by omega, fun on => absurd on origin⟩

theorem Sound.reportCursor (sound : Sound slack t) {inside : Prop} :
    Acts slack inside t fun build => t.reportCursor build := by
  have column := sound.column
  have narrow := sound.narrow
  have finish (row : ℕ) : Settles (fun build => do
      let col ← add16 build t.cx 1
      some (t.respond
        ("\x1b[".toList ++ decimal row ++ ";".toList ++ decimal col ++ "R".toList)))
      (Kept slack t) :=
    (settles_add16 (by omega)).bind fun col _ => settles_some (sound.of_layout rfl)
  refine ⟨?_, fun _ => ?_, fun _ homed => ?_⟩
  · exact (keeps_true _).bind fun row _ => (finish row).keeps.mono fun _ kept => kept.sound
  · obtain ⟨row, reported⟩ : ∃ row, t.reportedRow .release = some row := by
      unfold Terminal.reportedRow
      split
      · obtain ⟨offset, first⟩ := sub16_release t.cy t.scrollTop
        obtain ⟨row, second⟩ := add16_release offset 1
        exact ⟨row, by simp only [first, Option.bind_eq_bind, Option.bind_some, second]⟩
      · exact add16_release t.cy 1
    obtain ⟨t', result, _⟩ := finish row
    exact ⟨t', by rw [Terminal.reportCursor, reported]; exact result .release⟩
  · refine ((sound.reportedRow homed).bind fun row _ => ?_).agrees
    exact (finish row).mono fun _ kept => ⟨kept.sound, kept.homed homed⟩

end Addressing

end Uniterm.Model.Terminal
