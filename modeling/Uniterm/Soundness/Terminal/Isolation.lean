import Uniterm.Soundness.Terminal.Pens

/-! # The alternate screen in isolation

Entering the alternate screen stashes the grid and the cursor, and no ordinary action touches the stash. Leaving
it shows the stashed grid again. The stashed cursor is clamped into the screen, so a cursor that was beside the
screen comes back elsewhere.
-/

namespace Uniterm.Model.Terminal

open Machine Grid

variable {t t' : Terminal}

/-- Set or reset one private mode. -/
def altMode (mode : UInt16) (final : Char) : Action := .csi [[mode]] [0x3F] final

/-- What leaving the alternate screen restores: the picture with its history, and the cursor with its state. -/
structure Restored (t t' : Terminal) : Prop where
  grid : t.grid.ShowsSame t'.grid
  cursor : t'.cursorState = t.cursorState

/-- The alternate screen is shown over the primary screen of a terminal. -/
structure OnAlt (primary t : Terminal) : Prop where
  backup : t.altBackup = some primary.grid
  cursor : t.altCursor = some primary.cursorState
  width : t.width = primary.width
  height : t.height = primary.height
  limit : t.grid.scrollbackLimit = 0
  history : t.grid.scrollback = []

section Steps

variable (env : Env) (build : Build)

private theorem altMode_cases {mode : UInt16} (screen : altScreenMode mode.toNat) :
    mode = 47 ∨ mode = 1047 ∨ mode = 1049 :=
  screen.imp UInt16.toNat.inj (·.imp UInt16.toNat.inj UInt16.toNat.inj)

private theorem step_enter {mode : UInt16} (screen : altScreenMode mode.toNat) :
    step env build t (altMode mode 'h') = t.enterAlt build := by
  obtain rfl | rfl | rfl := altMode_cases screen
  · exact Option.bind_fun_some _
  · exact Option.bind_fun_some _
  · exact Option.bind_fun_some _

private theorem step_leave {mode : UInt16} (screen : altScreenMode mode.toNat) :
    step env build t (altMode mode 'l') = t.exitAlt build := by
  obtain rfl | rfl | rfl := altMode_cases screen
  · exact Option.bind_fun_some _
  · exact Option.bind_fun_some _
  · exact Option.bind_fun_some _

private theorem enterAlt_again (shown : t.altBackup.isSome) : t.enterAlt build = some t := if_pos shown

/-- Entering the alternate screen stashes the primary one. -/
theorem enterAlt_onAlt (primary : t.altBackup = none) (entered : t.enterAlt build = some t') : OnAlt t t' := by
  unfold Terminal.enterAlt at entered
  rw [primary] at entered
  obtain ⟨bottom, -, done⟩ := Option.bind_eq_some_iff.mp entered
  obtain rfl := Option.some.inj done
  have rest := internUnderlineColor_rest ((Grid.new t.width t.height).setScrollbackLimit 0).markAllDamaged
    t.underlineColor
  rw [markAllDamaged_frame] at rest
  refine ⟨rfl, rfl, rfl, rfl, ?_, ?_⟩
  · unfold internPen
    dsimp only
    rw [markAllDamaged_frame, rest.2.1]
    rfl
  · unfold internPen
    dsimp only
    rw [markAllDamaged_frame]
    exact rest.2.2 rfl

private theorem onAlt_closed (u : Unicode) (primary : Terminal) : Closed u (OnAlt primary) where
  draws t t' shown drawn := by
    have stash := drawn.stash
    unfold Terminal.stash at stash
    injection stash with _ rest
    injection rest with _ rest
    injection rest with _ rest
    injection rest with backup rest
    injection rest with cursor rest
    injection rest with width rest
    injection rest with height
    exact ⟨backup.trans shown.backup, cursor.trans shown.cursor, width.trans shown.width,
      height.trans shown.height, drawn.grid.frames.limit.trans shown.limit, drawn.grid.frames.history shown.limit shown.history⟩
  paint t color shown := by
    have rest := internUnderlineColor_rest t.grid color
    exact ⟨shown.backup, shown.cursor, shown.width, shown.height, rest.2.1.trans shown.limit,
      rest.2.2 shown.history⟩
  clear _ shown := ⟨shown.backup, shown.cursor, shown.width, shown.height, shown.limit, shown.history⟩

/-- Opening a link on the alternate screen stores it in the grid that is shown. -/
theorem OnAlt.openHyperlink {primary : Terminal} (shown : OnAlt primary t) (params : List Bytes) :
    OnAlt primary (t.openHyperlink params) := by
  unfold Terminal.openHyperlink
  split
  · exact ⟨shown.backup, shown.cursor, shown.width, shown.height, shown.limit, shown.history⟩
  next uri _ =>
    have rest := internHyperlink_rest t.grid uri
    exact ⟨shown.backup, shown.cursor, shown.width, shown.height, rest.2.1.trans shown.limit,
      rest.2.2.trans shown.history⟩

/-- On the alternate screen every other action leaves the stash alone. -/
theorem OnAlt.step {primary : Terminal} (shown : OnAlt primary t) {a : Action} (quiet : ¬LeavesAlt env a)
    (stepped : step env build t a = some t') : OnAlt primary t' := by
  refine (onAlt_closed env.unicode primary).step env shown a (fun t shown => ?_)
    (fun params _ _ => shown.openHyperlink params) (fun _ _ is => absurd (is ▸ trivial) quiet) (fun leaves => absurd leaves quiet) build t' stepped
  have backup : t.altBackup.isSome := by rw [shown.backup]; rfl
  simp only [enterAlt_again _ backup]
  exact keeps_some shown

theorem OnAlt.exec {primary : Terminal} (shown : OnAlt primary t) {actions : List Action}
    (quiet : ∀ a ∈ actions, ¬LeavesAlt env a) (ran : exec (Terminal.step env build) t actions = some t') :
    OnAlt primary t' :=
  exec_preserves (fun _ _ _ shown quiet stepped => OnAlt.step env build shown quiet stepped) shown
    (guards_of_forall _ _ fun a member _ => quiet a member) ran

/-- Leaving the alternate screen shows the stashed grid, and puts the stashed cursor inside the screen. -/
theorem OnAlt.exitAlt {primary : Terminal} (shown : OnAlt primary t) (wide : 0 < primary.width)
    (tall : 0 < primary.height) (left : t.exitAlt build = some t') :
    t'.grid = (primary.grid.markAllDamaged.internUnderlineColor primary.underlineColor).1 ∧
      t'.cursorState = { primary.cursorState with
        cx := min primary.cx (primary.width - 1), cy := min primary.cy (primary.height - 1) } := by
  unfold Terminal.exitAlt at left
  rw [shown.backup, shown.cursor] at left
  unfold loadCursor at left
  dsimp only at left
  rw [shown.width, shown.height, sub16_of_le build wide, sub16_of_le build tall] at left
  obtain ⟨r, restored, rest⟩ := Option.bind_eq_some_iff.mp left
  obtain ⟨bottom, -, done⟩ := Option.bind_eq_some_iff.mp rest
  obtain rfl := Option.some.inj restored
  obtain rfl := Option.some.inj done
  exact ⟨rfl, rfl⟩

end Steps

section Sizes

/-- The size is at least one and 16 bits, and every column has its tab stop. -/
structure Occupied (t : Terminal) : Prop where
  wide : 0 < t.width
  narrow : t.width < 65536
  tall : 0 < t.height
  short : t.height < 65536
  tabs : t.tabs.length = t.width

theorem Occupied.of_stash (held : Occupied t) (stash : t'.stash = t.stash) : Occupied t' := by
  have same : (t'.width, t'.height, t'.tabs.length) = (t.width, t.height, t.tabs.length) :=
    congrArg (·.2.2.2.2.2) stash
  injection same with width rest
  injection rest with height tabs
  obtain ⟨wide, narrow, tall, short, stops⟩ := held
  refine ⟨?_, ?_, ?_, ?_, ?_⟩
  all_goals omega

private theorem occupied_closed (u : Unicode) : Closed u Occupied where
  draws _ _ held drawn := held.of_stash drawn.stash
  paint _ _ held := ⟨held.wide, held.narrow, held.tall, held.short, held.tabs⟩
  clear _ held := ⟨held.wide, held.narrow, held.tall, held.short, held.tabs⟩

theorem Occupied.enterAlt (held : Occupied t) : Keeps (fun build => t.enterAlt build) Occupied := by
  unfold Terminal.enterAlt
  split
  · exact keeps_some held
  · refine (keeps_true _).bind fun bottom _ => keeps_some ?_
    exact ⟨held.wide, held.narrow, held.tall, held.short, held.tabs⟩

theorem Occupied.nested (held : Occupied t) (enabled : Bool) : Occupied (t.setNestedInput enabled) :=
  held.of_stash (setNestedInput_same t enabled).2

theorem Occupied.loadCursor (held : Occupied t) (s : SavedCursor) :
    Keeps (fun build => t.loadCursor build s) Occupied := by
  refine (keeps_true _).bind fun right _ => (keeps_true _).bind fun bottom _ => keeps_some ?_
  exact ⟨held.wide, held.narrow, held.tall, held.short, held.tabs⟩

theorem Occupied.exitAlt (held : Occupied t) : Keeps (fun build => t.exitAlt build) Occupied := by
  unfold Terminal.exitAlt
  split
  · exact keeps_some held
  next primary _ =>
    have shown : Occupied { t with altBackup := none, grid := primary.markAllDamaged, altCursor := none } :=
      ⟨held.wide, held.narrow, held.tall, held.short, held.tabs⟩
    have left (t : Terminal) (held : Occupied t) : Keeps (fun build => do
        let bottom ← sub16 build t.height 1
        some { t with scrollTop := 0, scrollBottom := bottom, originMode := false, hyperlink := 0 }) Occupied := by
      refine (keeps_true _).bind fun bottom _ => keeps_some ?_
      exact ⟨held.wide, held.narrow, held.tall, held.short, held.tabs⟩
    split
    · exact (keeps_some shown).bind fun r restored => left r restored
    next s _ => exact (shown.loadCursor s).bind fun r restored => left r restored

theorem Occupied.recoverShellScreen (held : Occupied t) :
    Keeps (fun build => t.recoverShellScreen build) Occupied := by
  unfold Terminal.recoverShellScreen
  refine held.exitAlt.bind fun r restored => (keeps_true _).bind fun bottom _ => keeps_some ?_
  have shell : Occupied { r with
      cursorVisible := true, bracketedPaste := false, primaryKeyboard := {}, alternateKeyboard := {}
      appCursor := false, mouseMode := .off, mouseSgr := false } :=
    ⟨restored.wide, restored.narrow, restored.tall, restored.short, restored.tabs⟩
  have nested := shell.nested false
  exact ⟨nested.wide, nested.narrow, nested.tall, nested.short, nested.tabs⟩

theorem Occupied.resetTerminal (held : Occupied t) : Keeps (fun build => t.resetTerminal build) Occupied := by
  unfold Terminal.resetTerminal
  refine (keeps_true _).bind fun bottom _ => keeps_some (Occupied.nested ?_ false)
  exact ⟨held.wide, held.narrow, held.tall, held.short, by simp [defaultTabs]⟩

theorem Occupied.resize (u : Unicode) (held : Occupied t) {width height : ℕ} (narrow : width < 65536)
    (short : height < 65536) : Occupied (t.resize u width height) := by
  unfold Terminal.resize
  dsimp only
  split
  · exact held
  · refine ⟨?_, ?_, ?_, ?_, length_resizedTabs _ _⟩
    all_goals
      dsimp only
      omega

private theorem occupied_leaving : Leaving Occupied where
  exit _ held := held.exitAlt
  recover _ held := held.recoverShellScreen
  reset _ held := held.resetTerminal

theorem Occupied.openHyperlink (held : Occupied t) (params : List Bytes) : Occupied (t.openHyperlink params) := by
  unfold Terminal.openHyperlink
  split
  · exact ⟨held.wide, held.narrow, held.tall, held.short, held.tabs⟩
  · exact ⟨held.wide, held.narrow, held.tall, held.short, held.tabs⟩

/-- Whatever a run does to the primary screen, the size stays in range and every column keeps its stop. -/
theorem run_occupied (env : Env) (build : Build) {start : Terminal} (initial : Initial start)
    {actions : List Action} (ran : exec (step env build) start actions = some t) : Occupied t := by
  have sound := (initial.sound ⟨False, False⟩).1
  have fresh : Occupied start := ⟨sound.wide, sound.narrow, sound.tall, sound.short, sound.tabs⟩
  refine exec_invariant (fun t a t' (held : Occupied t) stepped => ?_) fresh ran
  exact (occupied_closed env.unicode).step env held a (fun _ held => held.enterAlt)
    (fun params _ _ => held.openHyperlink params)
    (fun width height _ => held.resize env.unicode width.toNat_lt height.toNat_lt)
    (fun _ => occupied_leaving) build t' stepped

end Sizes

section Visits

variable (env : Env)

/-- The alternate screen starts sound, whatever the screen that it stashes. -/
theorem Occupied.enterAlt_sound (held : Occupied t) (primary : t.altBackup = none) :
    Settles (fun build => t.enterAlt build) (Sound ⟨False, True⟩) := by
  have tall := held.tall
  unfold Terminal.enterAlt
  rw [primary]
  refine (settles_sub16 (by omega)).bind fun bottom last => settles_some ?_
  subst last
  have fresh : Fitted t.width t.height ((Grid.new t.width t.height).setScrollbackLimit 0).markAllDamaged :=
    ((fitted_new held.wide held.tall).setScrollbackLimit 0).markAllDamaged
  have interned := fresh.internUnderlineColor t.underlineColor
  exact ⟨held.wide, held.narrow, held.tall, held.short, .inl held.wide, held.tall, Nat.zero_le _,
    Nat.sub_one_lt_of_lt held.tall, held.tabs, interned, .inl trivial⟩

/-- On the alternate screen a run without a leaving action returns, unless a glyph is widened in one column. -/
theorem Sound.exec_quiet (sound : Sound ⟨False, True⟩ t) {actions : List Action}
    (quiet : ∀ a ∈ actions, ¬LeavesAlt env a)
    (fits : Guards (fun t a => t.FitsColumn env a) (Terminal.step env .release) t actions) :
    ∃ t', exec (Terminal.step env .release) t actions = some t' := by
  have advances (t : Terminal) (a : Action) (sound : Sound ⟨False, True⟩ t)
      (guarded : t.FitsColumn env a ∧ ¬LeavesAlt env a) :
      ∃ t', Terminal.step env .release t a = some t' ∧ Sound ⟨False, True⟩ t' := by
    have word : t.FitsWord env a := by
      cases a with
      | resize width height => exact absurd trivial guarded.2
      | _ => trivial
    have acts := sound.step a (.inr guarded.1) word fun leaves => absurd leaves guarded.2
    obtain ⟨t', stepped⟩ := acts.total id
    exact ⟨t', stepped, acts.keeps _ t' stepped⟩
  obtain ⟨t', ran, -⟩ := exec_total advances sound (fits.and_forall quiet)
  exact ⟨t', ran⟩

private theorem loadCursor_release (t : Terminal) (saved : SavedCursor) :
    ∃ t', t.loadCursor .release saved = some t' := by
  obtain ⟨right, edge⟩ := sub16_release t.width 1
  obtain ⟨bottom, last⟩ := sub16_release t.height 1
  exact ⟨_, Option.bind_eq_some_iff.mpr ⟨right, edge, Option.bind_eq_some_iff.mpr ⟨bottom, last, rfl⟩⟩⟩

/-- A release build leaves the alternate screen from every state. -/
theorem exitAlt_release (t : Terminal) : ∃ t', t.exitAlt .release = some t' := by
  unfold Terminal.exitAlt
  cases t.altBackup with
  | none => exact ⟨t, rfl⟩
  | some primary =>
    have finish (restored : Terminal) : ∃ t', (do
        let bottom ← sub16 .release restored.height 1
        some { restored with
          scrollTop := 0, scrollBottom := bottom, originMode := false, hyperlink := 0 }) = some t' := by
      obtain ⟨bottom, last⟩ := sub16_release restored.height 1
      exact ⟨_, Option.bind_eq_some_iff.mpr ⟨bottom, last, rfl⟩⟩
    cases t.altCursor with
    | none => exact finish _
    | some saved =>
      obtain ⟨restored, loaded⟩ := loadCursor_release
        { t with altBackup := none, grid := primary.markAllDamaged, altCursor := none } saved
      obtain ⟨t', left⟩ := finish restored
      exact ⟨t', Option.bind_eq_some_iff.mpr ⟨restored, loaded, left⟩⟩

end Visits

section Runs

variable (env : Env) (build : Build)

/-- A visit to the alternate screen returns when nothing printed there widens a glyph in one column. It retains no
history there, ignores further requests to enter, and leads back to the primary picture. The cursor and its state
come back exactly when the cursor was on the screen. -/
theorem alt_isolated {start : Terminal} (initial : Initial start) {before : List Action}
    (ran : exec (step env build) start before = some t) (primary : t.altBackup = none) {mode mode' : UInt16}
    (enters : altScreenMode mode.toNat) (leaves : altScreenMode mode'.toNat) {body : List Action}
    (quiet : ∀ a ∈ body, ¬LeavesAlt env a) :
    (Guards (fun t a => t.FitsColumn env a) (step env .release) t (altMode mode 'h' :: body) →
      ∃ t', exec (step env .release) t (altMode mode 'h' :: (body ++ [altMode mode' 'l'])) = some t') ∧
    ∀ t', exec (step env build) t (altMode mode 'h' :: (body ++ [altMode mode' 'l'])) = some t' →
      (∀ first rest mid, body = first ++ rest → exec (step env build) t (altMode mode 'h' :: first) = some mid →
        mid.grid.scrollback = [] ∧
          ∀ again : UInt16, altScreenMode again.toNat → step env build mid (altMode again 'h') = some mid) ∧
        t.grid.ShowsSame t'.grid ∧ (Restored t t' ↔ t.cx < t.width ∧ t.cy < t.height) := by
  have held := run_occupied env build initial ran
  have valid : PenValid (lastLink before) t := by
    obtain ⟨width, height, rfl⟩ := initial
    have valid := (new_penValid width.toNat height.toNat).exec env build ran
    rwa [Option.or_none] at valid
  have shown {actions : List Action} {mid : Terminal} (quiet : ∀ a ∈ actions, ¬LeavesAlt env a)
      (ran : exec (step env build) t (altMode mode 'h' :: actions) = some mid) : OnAlt t mid := by
    obtain ⟨entered, stepped, rest⟩ := Option.bind_eq_some_iff.mp ran
    rw [step_enter env build enters] at stepped
    exact (enterAlt_onAlt build primary stepped).exec env build quiet rest
  refine ⟨fun fits => ?_, fun t' left => ⟨fun first rest mid split ran => ?_, ?_⟩⟩
  · obtain ⟨entered, enter, sound⟩ := held.enterAlt_sound primary
    have stepped : step env .release t (altMode mode 'h') = some entered := by
      rw [step_enter env .release enters]
      exact enter .release
    obtain ⟨last, visited⟩ := sound.exec_quiet env quiet (fits.2 entered stepped)
    obtain ⟨t', exited⟩ := exitAlt_release last
    refine ⟨t', ?_⟩
    rw [exec, stepped, Option.bind_some, exec_append, visited, Option.bind_some, exec,
      step_leave env .release leaves, exited]
    rfl
  · have onAlt := shown (fun a member => quiet a (split ▸ List.mem_append_left _ member)) ran
    refine ⟨onAlt.history, fun again screen => ?_⟩
    rw [step_enter env build screen, enterAlt_again build (by rw [onAlt.backup]; rfl)]
  · rw [← List.cons_append, exec_append] at left
    obtain ⟨mid, ran, rest⟩ := Option.bind_eq_some_iff.mp left
    obtain ⟨last, stepped, done⟩ := Option.bind_eq_some_iff.mp rest
    obtain rfl := Option.some.inj done
    rw [step_leave env build leaves] at stepped
    obtain ⟨grid, cursor⟩ := (shown quiet ran).exitAlt build held.wide held.tall stepped
    have picture : t.grid.ShowsSame last.grid := by
      have steady : t.grid.markAllDamaged.Steady t.underlineColor := by
        rw [markAllDamaged_frame]
        exact valid.steady
      have first : t.grid.markAllDamaged.underlineColors[0]? = some .default := by
        rw [markAllDamaged_frame]
        exact valid.first
      rw [grid]
      exact (markAllDamaged_shows t.grid).trans (steady.shows first)
    have wide := held.wide
    have tall := held.tall
    refine ⟨picture, fun restored => ?_, fun inside => ⟨picture, ?_⟩⟩
    · have same := cursor.symm.trans restored.cursor
      have column : min t.cx (t.width - 1) = t.cx := congrArg SavedCursor.cx same
      have row : min t.cy (t.height - 1) = t.cy := congrArg SavedCursor.cy same
      omega
    · rw [cursor, Nat.min_eq_left (by omega), Nat.min_eq_left (by omega)]
      rfl

/-- A visit to the alternate screen that writes there, under another mode than the one that leaves it. -/
theorem alt_isolated_visit : ∃ t t',
    exec (step asciiEnv .release) (new 3 2) [.csi [[4], [31]] [] 'm', .print 'a'] = some t ∧
      exec (step asciiEnv .release) t
        (altMode 1049 'h' :: ([.print 'x', .csi [[2]] [] 'J'] ++ [altMode 47 'l'])) = some t' ∧
      (∀ first rest mid, [Action.print 'x', .csi [[2]] [] 'J'] = first ++ rest →
        exec (step asciiEnv .release) t (altMode 1049 'h' :: first) = some mid → mid.grid.scrollback = [] ∧
          ∀ again : UInt16, altScreenMode again.toNat →
            step asciiEnv .release mid (altMode again 'h') = some mid) ∧
      t.grid.ShowsSame t'.grid ∧ (Restored t t' ↔ t.cx < t.width ∧ t.cy < t.height) := by
  have starts : (exec (step asciiEnv .release) (new 3 2)
      [.csi [[4], [31]] [] 'm', .print 'a']).map (·.altBackup) = some none := by rfl
  obtain ⟨t, before, primary⟩ := Option.map_eq_some_iff.mp starts
  have quiet : ∀ a ∈ [Action.print 'x', .csi [[2]] [] 'J'], ¬LeavesAlt asciiEnv a := fun a member => by
    simp only [List.mem_cons, List.not_mem_nil, or_false] at member
    obtain rfl | rfl := member
    · exact id
    · exact fun leaves => absurd leaves.1 (by decide)
  obtain ⟨returns, isolated⟩ := alt_isolated asciiEnv .release ⟨3, 2, rfl⟩ before primary
    (show altScreenMode (1049 : UInt16).toNat from .inr (.inr rfl))
    (show altScreenMode (47 : UInt16).toNat from .inl rfl) quiet
  obtain ⟨t', left⟩ := returns (guards_of_forall _ _ fun a member t => by
    refine (asciiEnv_fits t fun width height is => ?_).1
    subst is
    simp [altMode] at member)
  exact ⟨t, t', before, left, isolated t' left⟩

/-- A heart widened on a screen of one column leaves the cursor in column two, and a visit to the alternate screen
brings it back to column zero. -/
theorem not_restored_of_heart : ∃ t t',
    exec (step heartEnv .release) (new 1 1) [.print '❤', .print '\uFE0F'] = some t ∧ t.altBackup = none ∧
      exec (step heartEnv .release) t (altMode 1049 'h' :: ([] ++ [altMode 1049 'l'])) = some t' ∧
      ¬Restored t t' := by
  have columns : (exec (step heartEnv .release) (new 1 1) [.print '❤', .print '\uFE0F']).map
      (fun t => (t.cx, t.altBackup.isSome, (exec (step heartEnv .release) t
        [altMode 1049 'h', altMode 1049 'l']).map (·.cx))) = some (2, false, some 0) := by decide
  obtain ⟨t, before, shape⟩ := Option.map_eq_some_iff.mp columns
  injection shape with column rest
  injection rest with primary visited
  obtain ⟨t', left, back⟩ := Option.map_eq_some_iff.mp visited
  refine ⟨t, t', before, Option.isSome_eq_false_iff.mp primary |> Option.isNone_iff_eq_none.mp, left, fun restored => ?_⟩
  have same : t'.cx = t.cx := congrArg SavedCursor.cx restored.cursor
  omega

end Runs

end Uniterm.Model.Terminal
