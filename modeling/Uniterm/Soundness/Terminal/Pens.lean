import Uniterm.Soundness.Grid.Palette
import Uniterm.Soundness.Terminal.Frames
import Uniterm.Soundness.Terminal.Pairing

/-! # The pen's handles

The pen names an underline colour and a hyperlink by their handles in the grid that is shown. Every change of
the grid interns the colour again and drops the link.
-/

namespace Uniterm.Model.Terminal

open Machine Grid

/-- A target that OSC 8 interns. -/
def linkTarget (uri : Text) : Bool := !decide (uri.isEmpty ∨ uri.len > 8192 ∨ uri.any isControl = true)

/-- The hyperlink that an action opens. -/
def acceptedLink : Action → Option Text
  | .osc params =>
    if oscIs params 0 "8" ∧ params.length ≥ 3 then (fromUtf8 (rejoin (params.drop 2))).filter linkTarget
    else none
  | _ => none

/-- The target of the last accepted OSC 8. -/
def lastLink (actions : List Action) : Option Text := actions.reverse.findSome? acceptedLink

/-- The pen's colour and handles, and the stashed screen. -/
def penState (t : Terminal) : Color × ℕ × ℕ × Option Grid × Option SavedCursor :=
  (t.underlineColor, t.underlineColorHandle, t.hyperlink, t.altBackup, t.altCursor)

/-- Both handles of the pen are zero or name its own entries of the current grid. -/
structure PenValid (link : Option Text) (t : Terminal) : Prop where
  color : t.underlineColorHandle = 0 ∨ t.grid.underlineColors[t.underlineColorHandle]? = some t.underlineColor
  link : t.hyperlink = 0 ∨ ∃ uri, link = some uri ∧ t.grid.hyperlinks[t.hyperlink]? = some uri
  /-- Interning the colour again appends nothing to an arena with room. -/
  steady : t.grid.Steady t.underlineColor
  first : t.grid.underlineColors[0]? = some .default
  stash : ∀ g ∈ t.altBackup, g.underlineColors[0]? = some .default
  /-- A stashed screen has a stashed cursor, so that leaving it interns the colour again. -/
  cursor : t.altBackup.isSome → t.altCursor.isSome

variable {link : Option Text} {t t' : Terminal}

theorem PenValid.of_frame (valid : PenValid link t) (colors : t'.grid.underlineColors = t.grid.underlineColors)
    (links : t'.grid.hyperlinks = t.grid.hyperlinks) (same : t'.penState = t.penState) : PenValid link t' := by
  unfold penState at same
  injection same with color rest
  injection rest with handle rest
  injection rest with hyperlink rest
  injection rest with backup cursor
  refine ⟨?_, ?_, ?_, ?_, ?_, ?_⟩
  · rw [handle, colors, color]
    exact valid.color
  · rw [hyperlink, links]
    exact valid.link
  · unfold Steady
    rw [colors, color]
    exact valid.steady
  · rw [colors]
    exact valid.first
  · rw [backup]
    exact valid.stash
  · rw [backup, cursor]
    exact valid.cursor

theorem PenValid.of_same (valid : PenValid link t) (grid : t'.grid = t.grid) (stash : t'.stash = t.stash) :
    PenValid link t' := by
  have same : t'.penState = t.penState := congrArg (fun s => (s.1, s.2.1, s.2.2.1, s.2.2.2.1, s.2.2.2.2.1)) stash
  exact valid.of_frame (by rw [grid]) (by rw [grid]) same

/-- Interning a colour makes it the pen's, whatever its handle was. -/
theorem interned_penValid (link : Option Text) (t : Terminal)
    (opened : t.hyperlink = 0 ∨ ∃ uri, link = some uri ∧ t.grid.hyperlinks[t.hyperlink]? = some uri)
    (first : t.grid.underlineColors[0]? = some .default)
    (stash : ∀ g ∈ t.altBackup, g.underlineColors[0]? = some .default)
    (cursor : t.altBackup.isSome → t.altCursor.isSome) : PenValid link t.internPen := by
  refine ⟨internUnderlineColor_resolves t.grid t.underlineColor, ?_, internUnderlineColor_steady ..,
    internUnderlineColor_first first _, stash, cursor⟩
  have links := (internUnderlineColor_rest t.grid t.underlineColor).1
  obtain none | ⟨uri, named, found⟩ := opened
  · exact .inl none
  · refine .inr ⟨uri, named, ?_⟩
    exact (congrArg (·[t.hyperlink]?) links).trans found

private theorem penValid_closed (u : Unicode) (link : Option Text) : Closed u (PenValid link) where
  draws t t' valid drawn := by
    have same : t'.penState = t.penState := congrArg (fun s => (s.1, s.2.1, s.2.2.1, s.2.2.2.1, s.2.2.2.2.1)) drawn.stash
    exact valid.of_frame drawn.grid.frames.colors drawn.grid.frames.links same
  paint _ _ valid := interned_penValid link _ valid.link valid.first valid.stash valid.cursor
  clear _ valid := ⟨.inl rfl, valid.link, .inl rfl, valid.first, valid.stash, valid.cursor⟩

section Screens

theorem PenValid.enterAlt (valid : PenValid link t) : Keeps (fun build => t.enterAlt build) (PenValid link) := by
  unfold Terminal.enterAlt
  split
  · exact keeps_some valid
  · refine (keeps_true _).bind fun bottom _ => keeps_some ?_
    -- The colour is interned in the new grid, whose arena holds nothing else.
    have interned := interned_penValid link { t with
      grid := ((Grid.new t.width t.height).setScrollbackLimit 0).markAllDamaged, altBackup := some t.grid
      altCursor := some t.cursorState, hyperlink := 0 } (.inl rfl)
      (by dsimp only; rw [markAllDamaged_frame]; rfl) (fun g member => ?_) (fun _ => rfl)
    · exact interned.of_frame rfl rfl rfl
    · obtain rfl := Option.mem_some_iff.mp member
      exact valid.first

/-- Loading a cursor interns its colour, wherever the pen's handle came from. -/
theorem loadCursor_penValid (link : Option Text) (first : t.grid.underlineColors[0]? = some .default)
    (shown : t.altBackup = none) (s : SavedCursor) :
    Keeps (fun build => t.loadCursor build s) fun r => PenValid link { r with hyperlink := 0 } := by
  refine (keeps_true _).bind fun right _ => (keeps_true _).bind fun bottom _ => keeps_some ?_
  have interned := interned_penValid link { t with
    cx := min s.cx right, cy := min s.cy bottom, fg := s.fg, bg := s.bg, attrs := s.attrs
    underlineColor := s.underlineColor, hyperlink := 0 } (.inl rfl) first
    (fun g member => by rw [shown] at member; cases member) (fun stashed => by rw [shown] at stashed; cases stashed)
  exact interned.of_frame rfl rfl rfl

theorem PenValid.exitAlt (valid : PenValid link t) : Keeps (fun build => t.exitAlt build) (PenValid link) := by
  unfold Terminal.exitAlt
  split
  · exact keeps_some valid
  next primary backup =>
    obtain ⟨s, cursor⟩ := Option.isSome_iff_exists.mp (valid.cursor (by rw [backup]; rfl))
    have first : primary.markAllDamaged.underlineColors[0]? = some .default := by
      rw [markAllDamaged_frame]
      exact valid.stash primary backup
    rw [cursor]
    refine (loadCursor_penValid link first rfl s).bind fun r restored => ?_
    exact (keeps_true _).bind fun bottom _ => keeps_some (restored.of_frame rfl rfl rfl)

theorem PenValid.recoverShellScreen (valid : PenValid link t) :
    Keeps (fun build => t.recoverShellScreen build) (PenValid link) := by
  unfold Terminal.recoverShellScreen
  refine valid.exitAlt.bind fun r restored => (keeps_true _).bind fun bottom _ => keeps_some ?_
  have same := setNestedInput_same { r with
    cursorVisible := true, bracketedPaste := false, primaryKeyboard := {}, alternateKeyboard := {}
    appCursor := false, mouseMode := .off, mouseSgr := false } false
  have quiet := restored.of_same same.1 same.2
  exact ⟨quiet.color, .inl rfl, quiet.steady, quiet.first, quiet.stash, quiet.cursor⟩

private theorem resetTerminal_penValid (link : Option Text) (t : Terminal) :
    Keeps (fun build => t.resetTerminal build) (PenValid link) := by
  unfold Terminal.resetTerminal
  have same := setNestedInput_same
  refine (keeps_true _).bind fun bottom _ => keeps_some (PenValid.of_same ?_ (same _ false).1 (same _ false).2)
  refine ⟨.inl rfl, .inl rfl, .inl rfl, ?_, (fun _ stashed => nomatch stashed), fun stashed => nomatch stashed⟩
  dsimp only
  rw [markAllDamaged_frame]
  rfl

theorem PenValid.resizeStash (u : Unicode) (valid : PenValid link t) (width height : ℕ) (blank : Cell) :
    PenValid link (t.resizeStash u width height blank) := by
  unfold Terminal.resizeStash
  split
  · exact valid
  next primary backup =>
    refine ⟨valid.color, valid.link, valid.steady, valid.first, fun g stashed => ?_, fun _ => ?_⟩
    · obtain rfl := Option.mem_some_iff.mp stashed
      rw [(resizeReflow_arenas u (primary.setScrollbackLimit t.scrollbackLimit) width height blank _ _).1]
      exact valid.stash primary backup
    · have cursor := valid.cursor (by rw [backup]; rfl)
      simpa using cursor

theorem PenValid.resize (u : Unicode) (valid : PenValid link t) (width height : ℕ) :
    PenValid link (t.resize u width height) := by
  unfold Terminal.resize
  dsimp only
  split
  · exact valid
  · have arenas := resizeReflow_arenas u t.grid (max width 1) (max height 1) t.blankCell
      (t.cx + t.wrapPending.toNat, t.cy) t.wrapPending
    generalize t.grid.resizeReflow u (max width 1) (max height 1) t.blankCell
      (t.cx + t.wrapPending.toNat, t.cy) t.wrapPending = outcome at arenas ⊢
    obtain ⟨grid, cx, cy, pending⟩ := outcome
    have interned := interned_penValid link { t with grid, cx, cy, wrapPending := pending }
      (by dsimp only; rw [arenas.2]; exact valid.link) (by dsimp only; rw [arenas.1]; exact valid.first)
      valid.stash valid.cursor
    exact (interned.resizeStash u (max width 1) (max height 1) t.blankCell).of_frame rfl rfl rfl

private theorem penValid_leaving (link : Option Text) : Leaving (PenValid link) where
  exit _ valid := valid.exitAlt
  recover _ valid := valid.recoverShellScreen
  reset t _ := resetTerminal_penValid link t

end Screens

section Links

private theorem internHyperlink_accepts (g : Grid) {uri : Text} (accepted : linkTarget uri = false) :
    (g.internHyperlink uri).2 = 0 := by
  have refused : uri.isEmpty ∨ uri.len > 8192 ∨ uri.any isControl = true := by
    simpa only [linkTarget, Bool.not_eq_false', decide_eq_true_eq] using accepted
  unfold internHyperlink
  rw [if_pos refused]

/-- OSC 8 opens the link of its target, or closes the link. -/
theorem PenValid.openHyperlink (valid : PenValid link t) (params : List Bytes) :
    PenValid (((fromUtf8 (rejoin (params.drop 2))).filter linkTarget).or link) (t.openHyperlink params) := by
  unfold Terminal.openHyperlink
  cases fromUtf8 (rejoin (params.drop 2)) with
  | none => exact ⟨valid.color, .inl rfl, valid.steady, valid.first, valid.stash, valid.cursor⟩
  | some uri =>
    dsimp only
    have colors := (internHyperlink_rest t.grid uri).1
    refine ⟨?_, ?_, ?_, ?_, valid.stash, valid.cursor⟩
    · dsimp only
      rw [colors]
      exact valid.color
    rotate_left
    · unfold Steady
      rw [colors]
      exact valid.steady
    · dsimp only
      rw [colors]
      exact valid.first
    · cases target : linkTarget uri with
      | false => exact .inl (internHyperlink_accepts t.grid target)
      | true =>
        refine (internHyperlink_resolves t.grid uri).imp id fun found => ⟨uri, ?_, found⟩
        rw [Option.filter_some_pos target, Option.some_or]

end Links

section Runs

variable (env : Env) (build : Build)

/-- An OSC that opens or closes a hyperlink does nothing else. -/
theorem oscDispatch_link {params : List Bytes} (opens : OscLinks params) :
    t.oscDispatch env build params = some (t.openHyperlink params) := by
  have title : ¬(oscIs params 0 "0" = true ∨ oscIs params 0 "2" = true) := by
    have eight : params[0]? = some (ascii "8") := by simpa [oscIs] using opens.1
    simp only [oscIs, eight]
    decide
  unfold Terminal.oscDispatch
  rw [if_neg title]
  exact if_pos opens

theorem PenValid.step (valid : PenValid link t) (a : Action) (stepped : step env build t a = some t') :
    PenValid ((acceptedLink a).or link) t' := by
  by_cases opens : ∃ params, a = .osc params ∧ OscLinks params
  · obtain ⟨params, rfl, opens⟩ := opens
    have target : acceptedLink (.osc params) = (fromUtf8 (rejoin (params.drop 2))).filter linkTarget := if_pos opens
    rw [target]
    obtain rfl := Option.some.inj ((oscDispatch_link env build opens).symm.trans stepped)
    exact valid.openHyperlink params
  · have plain : acceptedLink a = none := by
      unfold acceptedLink
      split
      next params => exact if_neg fun links => opens ⟨params, rfl, links⟩
      · rfl
    rw [plain, Option.none_or]
    refine (penValid_closed env.unicode link).step env valid a (fun _ valid => valid.enterAlt)
      (fun params is links => ?_) (fun width height _ => valid.resize env.unicode _ _)
      (fun _ => penValid_leaving link) build t' stepped
    exact absurd ⟨params, is, links⟩ opens

theorem PenValid.exec (valid : PenValid link t) {actions : List Action}
    (ran : exec (Terminal.step env build) t actions = some t') :
    PenValid ((lastLink actions).or link) t' := by
  induction actions generalizing t link with
  | nil =>
    obtain rfl := Option.some.inj ran
    exact valid
  | cons a actions ih =>
    obtain ⟨mid, stepped, rest⟩ := Option.bind_eq_some_iff.mp ran
    have after := ih (valid.step env build a stepped) rest
    have last : lastLink (a :: actions) = (lastLink actions).or (acceptedLink a) := by
      rw [lastLink, List.reverse_cons, List.findSome?_append, List.findSome?_singleton]
      rfl
    rw [last, Option.or_assoc]
    exact after

theorem new_penValid (width height : ℕ) : PenValid none (new width height) :=
  ⟨.inl rfl, .inl rfl, .inl rfl, rfl, (fun _ stashed => nomatch stashed), fun stashed => nomatch stashed⟩

/-- In every state that a run reaches, the handle of the pen's underline colour is zero or resolves to that
colour, and its link is zero or resolves to the target of the last accepted OSC 8. -/
theorem run_pens {start : Terminal} (initial : Initial start) {actions : List Action}
    (ran : exec (Terminal.step env build) start actions = some t) :
    (t.underlineColorHandle = 0 ∨ t.grid.underlineColors[t.underlineColorHandle]? = some t.underlineColor) ∧
      (t.hyperlink = 0 ∨ ∃ uri, lastLink actions = some uri ∧ t.grid.hyperlink t.hyperlink = some uri) := by
  obtain ⟨width, height, rfl⟩ := initial
  have fresh := new_penValid width.toNat height.toNat
  have valid := fresh.exec env build ran
  rw [Option.or_none] at valid
  refine ⟨valid.color, ?_⟩
  by_cases closed : t.hyperlink = 0
  · exact .inl closed
  · obtain none | ⟨uri, last, found⟩ := valid.link
    · exact .inl none
    · refine .inr ⟨uri, last, ?_⟩
      unfold Grid.hyperlink
      rw [if_pos closed]
      exact found

/-- A curly link in red, the alternate screen with a link of its own, and back. -/
theorem run_pens_screens : ∃ t,
    exec (Terminal.step wideEnv .release) (new 4 2) [.csi [[58], [5], [1]] [] 'm',
      .osc [ascii "8", [], ascii "a:b"], .print 'x', .csi [[1049]] [0x3F] 'h', .osc [ascii "8", [], ascii "c:d"]] =
      some t ∧
    (t.underlineColorHandle = 0 ∨ t.grid.underlineColors[t.underlineColorHandle]? = some t.underlineColor) ∧
    (t.hyperlink = 0 ∨ ∃ uri, lastLink [.csi [[58], [5], [1]] [] 'm',
      .osc [ascii "8", [], ascii "a:b"], .print 'x', .csi [[1049]] [0x3F] 'h', .osc [ascii "8", [], ascii "c:d"]] =
        some uri ∧ t.grid.hyperlink t.hyperlink = some uri) := by
  have runs : (exec (Terminal.step wideEnv .release) (new 4 2) [.csi [[58], [5], [1]] [] 'm',
      .osc [ascii "8", [], ascii "a:b"], .print 'x', .csi [[1049]] [0x3F] 'h',
      .osc [ascii "8", [], ascii "c:d"]]).isSome = true := by decide
  obtain ⟨t, ran⟩ := Option.isSome_iff_exists.mp runs
  exact ⟨t, ran, run_pens wideEnv .release ⟨4, 2, rfl⟩ ran⟩

end Runs

end Uniterm.Model.Terminal
