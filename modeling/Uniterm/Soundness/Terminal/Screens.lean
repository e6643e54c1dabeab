import Uniterm.Soundness.Terminal.Sound

/-! # Saved cursors, the alternate screen and resizes

A saved cursor is clamped to the screen when it is put back, but not to the margins of the moment:
under origin mode it may land outside them.
-/

namespace Uniterm.Model.Terminal

open Machine Grid

/-- A cursor saved earlier would land inside the margins that origin mode counts from. -/
def LandsInside (t : Terminal) (s : SavedCursor) : Prop :=
  t.originMode = true →
    t.scrollTop ≤ min s.cy (t.height - 1) ∧ min s.cy (t.height - 1) ≤ t.scrollBottom

/-- Restoring the cursor keeps it inside the margins under origin mode. -/
def RestoresInside (t : Terminal) : Prop := ∀ s ∈ t.saved, t.LandsInside s

section Leaving

/-- The private modes of the alternate screen. -/
def altScreenMode (mode : ℕ) : Prop := mode = 47 ∨ mode = 1047 ∨ mode = 1049

/-- A CSI sequence that resets a mode of the alternate screen. -/
def CsiLeaves (params : List (List ℕ)) (inter : Bytes) (action : Char) : Prop :=
  action = 'l' ∧ inter.contains 0x3F = true ∧ ∃ mode ∈ paramsFlat params, altScreenMode mode

/-- The escape that resets the terminal. -/
def EscResets (inter : Bytes) (byte : ℕ) : Prop := inter ≠ ascii "(" ∧ Char.ofNat byte = 'c'

/-- A prompt mark after which the shell owns the screen. -/
def promptReturns (params : List Bytes) : Prop :=
  let kind := ([';'].intercalate (params.tail.filterMap fromUtf8) : Text).takeWhile (· ≠ ';')
  kind = ['A'] ∨ kind = ['D']

/-- An OSC that recovers the shell's screen: an agent exited, or a prompt is shown on the alternate screen. -/
def OscRecovers (env : Env) (params : List Bytes) : Prop :=
  ((oscIs params 0 "777" ∧ params.length ≥ 4 ∧ oscIs params 1 "notify") ∧
      ∃ event, env.parseOsc777 (rejoin (params.drop 3)) = some event ∧ event.status = some .exited) ∨
    oscIs params 0 "133" ∧ promptReturns params

/-- An action that may leave the alternate screen, reset the terminal or resize it. -/
def LeavesAlt (env : Env) : Action → Prop
  | .csi params inter action => CsiLeaves (params.map (·.map UInt16.toNat)) inter action
  | .esc inter byte => EscResets inter byte.toNat
  | .osc params => OscRecovers env params
  | .resize _ _ => True
  | _ => False

end Leaving

section Screens

variable {slack : Slack} {t : Terminal}

theorem Sound.loadCursor (sound : Sound slack t) (s : SavedCursor) :
    Settles (fun build => t.loadCursor build s) fun t' =>
      Sound slack t' ∧ t'.height = t.height ∧ (t.LandsInside s → t'.Homed) := by
  have wide := sound.wide
  have tall := sound.tall
  unfold Terminal.loadCursor
  refine (settles_sub16 (by omega)).bind fun right edge => ?_
  refine (settles_sub16 (by omega)).bind fun bottom last => settles_some ?_
  subst edge last
  have moved : Sound slack { t with
      cx := min s.cx (t.width - 1), cy := min s.cy (t.height - 1), fg := s.fg, bg := s.bg,
      attrs := s.attrs, underlineColor := s.underlineColor } :=
    { sound with
      column := .inl (by dsimp only; omega)
      row := by dsimp only; omega }
  exact ⟨(moved.internPen.sound.withPending s.pending).sound, rfl, fun inside => inside⟩

theorem Sound.restoreCursor (sound : Sound slack t) :
    Settles (fun build => t.restoreCursor build) fun t' =>
      Sound slack t' ∧ (t.RestoresInside → t.Homed → t'.Homed) := by
  unfold Terminal.restoreCursor RestoresInside
  cases t.saved with
  | none => exact settles_some ⟨sound, fun _ homed => homed⟩
  | some s =>
    refine (sound.loadCursor s).mono fun t' loaded => ⟨loaded.1, fun inside _ => ?_⟩
    exact loaded.2.2 (inside s rfl)

/-- Full margins and absolute addressing leave the cursor inside them. -/
private theorem Sound.withFullMargins (sound : Sound slack t) {t' : Terminal}
    (same : t'.layout = { t with
      scrollTop := 0, scrollBottom := t.height - 1, originMode := false }.layout) :
    Kept slack t t' := by
  have tall := sound.tall
  have reset : Sound slack { t with
      scrollTop := 0, scrollBottom := t.height - 1, originMode := false } :=
    { sound with
      margins := Nat.zero_le _
      bottom := by dsimp only; omega }
  have kept := reset.of_layout same
  refine ⟨kept.sound, fun _ => kept.homed ?_⟩
  intro origin
  cases origin

theorem Sound.enterAlt (sound : Sound slack t) :
    Settles (fun build => t.enterAlt build) (Kept slack t) := by
  have tall := sound.tall
  unfold Terminal.enterAlt
  split
  · exact settles_some sound.kept
  refine (settles_sub16 (by omega)).bind fun bottom last => settles_some ?_
  subst last
  have fresh : Fitted t.width t.height
      ((Grid.new t.width t.height).setScrollbackLimit 0).markAllDamaged :=
    ((fitted_new sound.wide sound.tall).setScrollbackLimit 0).markAllDamaged
  have shown : Sound slack { t with
      grid := ((Grid.new t.width t.height).setScrollbackLimit 0).markAllDamaged
      altBackup := some t.grid } :=
    { sound with
      screen := fresh
      stash := .inr fun g member => by
        obtain rfl := Option.mem_some_iff.mp member
        exact sound.screen }
  have entered := shown.internPen.sound
  refine ⟨{ entered with
    column := .inl entered.wide
    row := entered.tall
    margins := Nat.zero_le _
    bottom := ?_ }, fun _ origin => ?_⟩
  · change t.height - 1 < t.height
    omega
  · cases origin

theorem Sound.exitAlt (sound : Sound slack t) (kept : ¬slack.stash) :
    Settles (fun build => t.exitAlt build) (Kept slack t) := by
  unfold Terminal.exitAlt
  cases stash : t.altBackup with
  | none => exact settles_some sound.kept
  | some primary =>
    dsimp only
    have shown : Sound slack { t with
        altBackup := none, grid := primary.markAllDamaged, altCursor := none } :=
      { sound with
        screen := (sound.stash.resolve_left kept primary stash).markAllDamaged
        stash := .inr (by simp) }
    have finish (t' : Terminal) (loaded : Sound slack t') : Settles (fun build => do
        let bottom ← sub16 build t'.height 1
        some { t' with scrollTop := 0, scrollBottom := bottom, originMode := false, hyperlink := 0 })
        (Kept slack t) := by
      have tall := loaded.tall
      refine (settles_sub16 (by omega)).bind fun bottom last => settles_some ?_
      subst last
      refine ⟨(loaded.withFullMargins (by rfl)).sound, fun _ origin => ?_⟩
      cases origin
    cases t.altCursor with
    | none => exact finish _ shown
    | some s => exact (shown.loadCursor s).bind fun t' loaded => finish t' loaded.1

theorem setNestedInput_layout (t : Terminal) (enabled : Bool) :
    (t.setNestedInput enabled).layout = t.layout := by
  unfold setNestedInput
  exact layout_ite rfl rfl

theorem Sound.recoverShellScreen (sound : Sound slack t) (kept : ¬slack.stash) :
    Settles (fun build => t.recoverShellScreen build) (Kept slack t) := by
  refine (sound.exitAlt kept).bind fun t' kept => ?_
  have tall := kept.sound.tall
  refine (settles_sub16 (by omega)).bind fun bottom last => settles_some (kept.trans ?_)
  subst last
  refine kept.sound.withFullMargins ?_
  unfold setNestedInput
  dsimp only
  split <;> rfl

theorem Sound.home (sound : Sound slack t) : Sound slack t.home ∧ t.home.Homed := by
  unfold Terminal.home
  refine ⟨{ sound with column := .inl sound.wide, row := ?_ }, fun origin => ?_⟩
  · dsimp only
    split
    · exact sound.margins.trans_lt sound.bottom
    · exact sound.tall
  · dsimp only at origin ⊢
    rw [if_pos origin]
    exact ⟨le_rfl, sound.margins⟩

theorem Sound.resetTerminal (sound : Sound slack t) :
    Settles (fun build => t.resetTerminal build) (Kept slack t) := by
  have tall := sound.tall
  unfold Terminal.resetTerminal
  refine (settles_sub16 (by omega)).bind fun bottom last => settles_some ?_
  subst last
  refine ⟨(Sound.of_layout ?_ (setNestedInput_layout _ false)).sound, fun _ origin => ?_⟩
  · exact { sound with
      column := .inl sound.wide
      row := sound.tall
      margins := Nat.zero_le _
      bottom := by dsimp only; omega
      tabs := by simp [defaultTabs]
      screen := ((fitted_new sound.wide sound.tall).setScrollbackLimit _).markAllDamaged
      stash := .inr (by simp) }
  · unfold setNestedInput at origin
    split at origin <;> cases origin

/-- Every mode but 1048 keeps the cursor inside the margins by itself. -/
theorem Sound.setPrivateMode (sound : Sound slack t) (mode : ℕ) (enabled : Bool)
    (kept : enabled = false → altScreenMode mode → ¬slack.stash) :
    Settles (fun build => t.setPrivateMode build mode enabled) fun t' =>
      Sound slack t' ∧
        ((mode = 1048 → enabled = false → t.RestoresInside) → t.Homed → t'.Homed) := by
  have simple {t' : Terminal} (kept : Kept slack t t') : Sound slack t' ∧
      ((mode = 1048 → enabled = false → t.RestoresInside) → t.Homed → t'.Homed) :=
    ⟨kept.sound, fun _ => kept.homed⟩
  have screens (alt : altScreenMode mode) : Settles
      (fun build => if enabled then t.enterAlt build else t.exitAlt build) fun t' => Sound slack t' ∧
        ((mode = 1048 → enabled = false → t.RestoresInside) → t.Homed → t'.Homed) := by
    cases enabled with
    | true => exact sound.enterAlt.mono fun _ => simple
    | false => exact (sound.exitAlt (kept rfl alt)).mono fun _ => simple
  unfold Terminal.setPrivateMode
  split
  case h_2 =>
    have set : Sound slack { t with originMode := enabled } := { sound with }
    exact settles_some ⟨set.home.1, fun _ _ => set.home.2⟩
  case h_10 =>
    cases enabled with
    | true => exact settles_some (simple (sound.of_layout rfl))
    | false =>
      exact sound.restoreCursor.mono fun _ restored =>
        ⟨restored.1, fun inside => restored.2 (inside rfl rfl)⟩
  all_goals first
    | exact settles_some (simple (sound.of_layout rfl))
    | exact screens (.inl rfl)
    | exact screens (.inr (.inl rfl))
    | exact screens (.inr (.inr rfl))

theorem Sound.privateMode (sound : Sound slack t) (mode : ℕ) (enabled : Bool)
    (kept : enabled = false → altScreenMode mode → ¬slack.stash) :
    Settles (fun build => privateMode build enabled t mode) fun t' =>
      Sound slack t' ∧
        ((mode = 1048 → enabled = false → t.RestoresInside) → t.Homed → t'.Homed) := by
  unfold Terminal.privateMode
  split
  · refine settles_some ?_
    have kept : Kept slack t (if enabled = true then
        { t with paletteNotifications := enabled }.respond
          (themeReport { t with paletteNotifications := enabled }.darkTheme)
      else { t with paletteNotifications := enabled }) := sound.of_layout (layout_ite rfl rfl)
    exact ⟨kept.sound, fun _ => kept.homed⟩
  · exact sound.setPrivateMode mode enabled kept

end Screens

section Resize

variable {slack : Slack} (u : Unicode) {t : Terminal}

/-- Both grids can be recut at the new width without a column sum leaving 16 bits. -/
def ResizeFits (t : Terminal) (width : ℕ) : Prop :=
  max width 1 = t.width ∨ t.grid.Fits u (max width 1) ∧
    ∀ g ∈ t.altBackup, (g.setScrollbackLimit t.scrollbackLimit).Fits u (max width 1)

/-- The stashed grid gets the new size, and the shown one keeps its own. -/
private theorem resizeStash_fitted {w h : ℕ} (wide : 0 < w) (tall : 0 < h)
    (screen : Fitted w h t.grid)
    (stash : ∀ g ∈ t.altBackup, Fitted g.width g.height g ∧
      (w = g.width ∨ (g.setScrollbackLimit t.scrollbackLimit).Fits u w))
    {blank : Cell} (plain : Plain blank) :
    Fitted w h (t.resizeStash u w h blank).grid ∧
      ∀ g ∈ (t.resizeStash u w h blank).altBackup, Fitted w h g := by
  unfold resizeStash
  cases found : t.altBackup with
  | none =>
    refine ⟨screen, fun g member => ?_⟩
    dsimp only at member
    rw [found] at member
    cases member
  | some primary =>
    obtain ⟨fitted, fits⟩ := stash primary found
    refine ⟨screen.setScrollbackLimit 0, fun g member => ?_⟩
    obtain rfl := Option.mem_some_iff.mp member
    exact (fitted.setScrollbackLimit t.scrollbackLimit).resizeReflow u plain wide tall fits _ _

private theorem resizeStash_frame (t : Terminal) (w h : ℕ) (blank : Cell) :
    (t.resizeStash u w h blank).tabs = t.tabs ∧ (t.resizeStash u w h blank).cx = t.cx ∧
      (t.resizeStash u w h blank).cy = t.cy := by
  unfold resizeStash
  split <;> exact ⟨rfl, rfl, rfl⟩

theorem length_resizedTabs (tabs : List Bool) (w : ℕ) :
    (tabs.take w ++ (defaultTabs w).drop tabs.length).length = w := by
  rw [List.length_append, List.length_take, List.length_drop, defaultTabs, List.length_map,
    List.length_range]
  omega

theorem Sound.resize (sound : Sound slack t) {width height : ℕ} (narrow : width < 65536)
    (short : height < 65536) (fits : t.ResizeFits u width) (kept : ¬slack.stash) :
    Kept slack t (t.resize u width height) := by
  have wide : 0 < max width 1 := by omega
  have tall : 0 < max height 1 := by omega
  have narrow' : max width 1 < 65536 := by omega
  have short' : max height 1 < 65536 := by omega
  unfold ResizeFits at fits
  unfold Terminal.resize
  dsimp only
  generalize max width 1 = w at *
  generalize max height 1 = h at *
  split
  · exact sound.kept
  next changes =>
  have plain := t.plain_blankCell
  have fits' : w = t.grid.width ∨ t.grid.Fits u w := by
    rw [sound.screen.width]
    exact fits.imp_right And.left
  have resized := sound.screen.resizeReflow u plain wide tall fits'
    (t.cx + t.wrapPending.toNat, t.cy) t.wrapPending
  have cursor := resizeReflow_cursor u t.grid t.blankCell wide tall
    (by rw [sound.screen.width, sound.screen.height]; exact changes)
    (t.cx + t.wrapPending.toNat, t.cy) (by rw [sound.screen.height]; exact sound.row) t.wrapPending
  have stash : ∀ g ∈ t.altBackup, Fitted g.width g.height g ∧
      (w = g.width ∨ (g.setScrollbackLimit t.scrollbackLimit).Fits u w) := fun g member => by
    have fitted := sound.stash.resolve_left kept g member
    refine ⟨by rw [fitted.width, fitted.height]; exact fitted, ?_⟩
    rw [fitted.width]
    exact fits.imp_right fun both => both.2 g member
  generalize t.grid.resizeReflow u w h t.blankCell (t.cx + t.wrapPending.toNat, t.cy) t.wrapPending =
    outcome at *
  obtain ⟨grid, cx, cy, pending⟩ := outcome
  have stashed := resizeStash_fitted u (t := { t with
    grid, cx, cy, wrapPending := pending }.internPen) wide tall
    (resized.internUnderlineColor t.underlineColor) stash plain
  have frame := resizeStash_frame u ({ t with grid, cx, cy, wrapPending := pending }.internPen)
    w h t.blankCell
  refine ⟨⟨wide, narrow', tall, short', .inl ?_, ?_, Nat.zero_le _, ?_, length_resizedTabs _ w,
    stashed.1, .inr stashed.2⟩, fun _ _ => ⟨Nat.zero_le _, ?_⟩⟩
  · exact frame.2.1 ▸ cursor.1
  · exact frame.2.2 ▸ cursor.2
  · dsimp only
    omega
  · have inside : (Terminal.resizeStash u { t with
        grid, cx, cy, wrapPending := pending }.internPen w h t.blankCell).cy < h :=
      frame.2.2 ▸ cursor.2
    dsimp only at inside ⊢
    omega

end Resize

end Uniterm.Model.Terminal
