import Uniterm.Soundness.Grid.Draws
import Uniterm.Soundness.Terminal.Steps

/-! # What ordinary actions leave alone

Only the graphic rendition, hyperlinks, saved cursors, the alternate screen and the reset touch the pen's
handles or the stashed screen. Everything else moves the cursor and edits cells.
-/

namespace Uniterm.Model.Terminal

open Machine Grid

/-- The pen's colour and handles, the stashed screen, the size and the number of tab stops. -/
def stash (t : Terminal) : Color × ℕ × ℕ × Option Grid × Option SavedCursor × ℕ × ℕ × ℕ :=
  (t.underlineColor, t.underlineColorHandle, t.hyperlink, t.altBackup, t.altCursor, t.width, t.height,
    t.tabs.length)

/-- The stash is the same, and the grid that is shown was only drawn on. -/
structure Drawn (u : Unicode) (t t' : Terminal) : Prop where
  grid : Draws u t.grid t'.grid
  stash : t'.stash = t.stash

variable {u : Unicode} {t t' t'' : Terminal}

theorem Drawn.refl (t : Terminal) : Drawn u t t := ⟨.refl, rfl⟩

theorem Drawn.trans (first : Drawn u t t') (second : Drawn u t' t'') : Drawn u t t'' :=
  ⟨first.grid.trans second.grid, second.stash.trans first.stash⟩

private theorem drawn_of_grid {g : Grid} (draws : Draws u t.grid g) : Drawn u t { t with grid := g } := ⟨draws, rfl⟩

private theorem drawn_ite {p : Prop} [Decidable p] {a b : Terminal} (left : Drawn u t a) (right : Drawn u t b) :
    Drawn u t (if p then a else b) := by
  split
  · exact left
  · exact right

/-- An action that keeps the grid and the stash. -/
theorem drawn_of_eq (grid : t'.grid = t.grid) (stash : t'.stash = t.stash) : Drawn u t t' :=
  ⟨grid ▸ .refl, stash⟩

private theorem iterate_drawn {f : Terminal → Terminal} (step : ∀ t, Drawn u t (f t)) (n : ℕ) (t : Terminal) :
    Drawn u t (f^[n] t) := by
  induction n generalizing t with
  | zero => exact .refl t
  | succ n ih => exact (step t).trans (ih (f t))

private theorem iterate_draws {f : Grid → Grid} (step : ∀ g : Grid, Draws u g (f g)) (n : ℕ) (g : Grid) :
    Draws u g (f^[n] g) := by
  induction n generalizing g with
  | zero => exact .refl
  | succ n ih => exact (step g).trans (ih (f g))

section Scrolling

variable (u)

private theorem scrollRegionUp_drawn (t : Terminal) : Drawn u t t.scrollRegionUp :=
  drawn_of_grid (scrollRegionUpInner_draws _ _ _ t.plain_blankCell _)

private theorem scrollRegionDown_drawn (t : Terminal) : Drawn u t t.scrollRegionDown :=
  drawn_of_grid (scrollRegionDown_draws _ _ _ t.plain_blankCell)

private theorem linefeed_drawn (t : Terminal) : Keeps (fun build => t.linefeed build) (Drawn u t) := by
  unfold linefeed
  split
  · exact keeps_some (scrollRegionUp_drawn u t)
  · refine (keeps_true _).bind fun below _ => keeps_some (drawn_ite ?_ (.refl t))
    exact drawn_of_eq rfl rfl

private theorem reverseIndex_drawn (t : Terminal) : Drawn u t t.reverseIndex := by
  unfold reverseIndex
  refine drawn_ite (scrollRegionDown_drawn u t) (drawn_ite ?_ (.refl t))
  exact drawn_of_eq rfl rfl

private theorem insertLines_drawn (t : Terminal) (n : ℕ) : Drawn u t (t.insertLines n) := by
  unfold insertLines
  refine drawn_ite (drawn_of_eq rfl rfl) ⟨?_, rfl⟩
  exact iterate_draws (fun g => scrollRegionDown_draws g _ _ t.plain_blankCell) n t.grid

private theorem deleteLines_drawn (t : Terminal) (n : ℕ) : Drawn u t (t.deleteLines n) := by
  unfold deleteLines
  refine drawn_ite (drawn_of_eq rfl rfl) ⟨?_, rfl⟩
  exact iterate_draws (fun g => scrollRegionUpInner_draws g _ _ t.plain_blankCell _) n t.grid

end Scrolling

section Erasing

variable (u)

private theorem insertChars_drawn (t : Terminal) (n : ℕ) : Drawn u t (t.insertChars n) :=
  ⟨insertCells_draws _ _ _ _ t.plain_blankCell, rfl⟩

private theorem deleteChars_drawn (t : Terminal) (n : ℕ) : Keeps (fun build => t.deleteChars build n) (Drawn u t) := by
  intro build next returned
  obtain ⟨g, deleted, rest⟩ := Option.bind_eq_some_iff.mp returned
  obtain rfl := Option.some.inj rest
  exact ⟨(Relation.ReflTransGen.single (.rewrites t.plain_blankCell (deleteCells_rewrites deleted))).trans
    (setRowWrapped_draws ..), rfl⟩

private theorem eraseCells_keeps (g : Grid) (y first stop : ℕ) {blank : Cell} (plain : Plain blank) :
    Keeps (fun build => g.eraseCells build y first stop blank) (Draws u g) :=
  fun _ _ erased => .single (.rewrites plain (eraseCells_rewrites erased))

private theorem eraseChars_drawn (t : Terminal) (n : ℕ) : Keeps (fun build => t.eraseChars build n) (Drawn u t) :=
  (eraseCells_keeps u t.grid t.cy t.cx _ t.plain_blankCell).bind fun _ draws =>
    keeps_some ⟨draws.trans (setRowWrapped_draws ..), rfl⟩

private theorem eraseInLine_drawn (t : Terminal) (mode : ℕ) : Keeps (fun build => t.eraseInLine build mode)
    (Drawn u t) := by
  refine (keeps_true _).bind fun range _ => ?_
  match range with
  | none => exact keeps_some (.refl t)
  | some (first, stop) =>
    refine (eraseCells_keeps u t.grid t.cy first _ t.plain_blankCell).bind fun grid draws => keeps_some ⟨?_, rfl⟩
    dsimp only
    split
    · exact draws.trans (setRowWrapped_draws ..)
    · exact draws

private theorem eraseRows_drawn (t : Terminal) (rows : List ℕ) : Keeps (fun build => t.eraseRows build rows)
    (Drawn u t) := by
  have erased (g : Grid) : Keeps (fun build => rows.foldlM (fun (g : Grid) y =>
      g.eraseCells build y 0 t.width t.blankCell) g) (Draws u g) := by
    induction rows generalizing g with
    | nil => exact keeps_some .refl
    | cons y rows ih =>
      exact (eraseCells_keeps u g y 0 t.width t.plain_blankCell).bind fun g' draws =>
        (ih g').mono fun _ rest => draws.trans rest
  exact (erased t.grid).bind fun _ draws => keeps_some (drawn_of_grid draws)

private theorem eraseInDisplay_drawn (t : Terminal) (mode : ℕ) :
    Keeps (fun build => t.eraseInDisplay build mode) (Drawn u t) := by
  unfold eraseInDisplay
  split
  · refine (eraseInLine_drawn u t 0).bind fun t' drawn => (keeps_true _).bind fun below _ => ?_
    exact (eraseRows_drawn u t' _).mono fun _ rest => drawn.trans rest
  · refine (eraseRows_drawn u t _).bind fun t' drawn => ?_
    exact (eraseInLine_drawn u t' 1).mono fun _ rest => drawn.trans rest
  · exact (eraseRows_drawn u t _).bind fun t' drawn => keeps_some ⟨drawn.grid, drawn.stash⟩
  · exact keeps_some (drawn_of_grid (.single (.clearScrollback _)))
  · exact keeps_some (.refl t)

end Erasing

section Printing

variable (u)

/-- A row is flagged and the cursor moved. -/
theorem flag_drawn (t : Terminal) (y cx : ℕ) (wrapped : Bool) :
    Drawn u t { t with grid := t.grid.setRowWrapped y wrapped, cx := cx } := ⟨setRowWrapped_draws .., rfl⟩

private theorem wrapLine_drawn (t : Terminal) : Keeps (fun build => t.wrapLine build) (Drawn u t) :=
  (linefeed_drawn u _).mono fun _ rest => (flag_drawn u t t.cy 0 true).trans rest

private theorem wrapDeferred_drawn (t : Terminal) : Keeps (fun build => t.wrapDeferred build) (Drawn u t) := by
  unfold wrapDeferred
  split
  · split
    · exact (wrapLine_drawn u t).bind fun t' drawn => keeps_some ⟨drawn.grid, drawn.stash⟩
    · exact keeps_some (drawn_of_eq rfl rfl)
  · exact keeps_some (.refl t)

private theorem wrapWide_drawn (t : Terminal) {text : Text} {width : ℕ} (glyph : Measured u text width) :
    Keeps (fun build => t.wrapWide build text width) fun wrapped =>
      Drawn u t wrapped.1 ∧ Measured u wrapped.2.1 wrapped.2.2 := by
  unfold wrapWide
  split
  · refine (keeps_true _).bind fun following _ => ?_
    split
    · split
      · exact (wrapLine_drawn u t).bind fun t' drawn => keeps_some ⟨drawn, glyph⟩
      · exact keeps_some ⟨.refl t, fun _ _ => .inl le_rfl⟩
    · exact keeps_some ⟨.refl t, glyph⟩
  · exact keeps_some ⟨.refl t, glyph⟩

private theorem writeAt_drawn (t : Terminal) (c : Char) {text : Text} {width : ℕ} (glyph : Measured u text width) :
    Keeps (fun build => t.writeAt build c text width) (Drawn u t) := by
  unfold writeAt
  dsimp only
  have inserted : Draws u t.grid
      (if t.insertMode = true then t.grid.insertCells t.cy t.cx width t.blankCell else t.grid) := by
    split
    · exact insertCells_draws _ _ _ _ t.plain_blankCell
    · exact .refl
  have written := inserted.trans (setGrapheme_draws _ t.cx t.cy {
    ch := c, fg := t.fg, bg := t.bg, attrs := t.attrs
    underlineColor := t.underlineColorHandle, hyperlink := t.hyperlink } glyph)
  refine (keeps_true _).bind fun stop _ => ?_
  split
  · exact (keeps_true _).bind fun right _ => keeps_some ⟨written, rfl⟩
  · exact keeps_some ⟨written, rfl⟩

/-- The glyph of a character is as wide as the tables say, or a placeholder. -/
theorem glyphFor_measured (t : Terminal) (c : Char) : Measured u (t.glyphFor u c).1 (t.glyphFor u c).2 := by
  unfold glyphFor
  dsimp only
  split
  · split
    · exact fun _ space => absurd space (by decide)
    · exact fun short _ => absurd short (by simp)
  · split
    · exact fun _ space => absurd space (by decide)
    next bounded =>
      intro _ space
      obtain rfl : c = ' ' := space
      rcases Nat.lt_or_ge ((u.charWidth ' ').getD 0) 2 with narrow | wide
      · exact .inl (by dsimp only; omega)
      · exact .inr (.inl wide)

private theorem printFresh_drawn (t : Terminal) (input c : Char) :
    Keeps (fun build => t.printFresh u build input c) (Drawn u t) := by
  unfold printFresh
  have glyph := glyphFor_measured u t c
  generalize t.glyphFor u c = shown at glyph ⊢
  obtain ⟨text, width⟩ := shown
  refine (wrapDeferred_drawn u t).bind fun t₁ deferred => ?_
  refine (wrapWide_drawn u t₁ glyph).bind fun (t₂, text', width') ⟨wrapped, glyph'⟩ => ?_
  refine (writeAt_drawn u t₂ c glyph').bind fun t₃ written => keeps_some ?_
  have all := (deferred.trans wrapped).trans written
  exact ⟨all.grid, all.stash⟩

private theorem extendAt_drawn (t : Terminal) (x y : ℕ) (old : Cell) (c : Char) :
    Keeps (fun build => t.extendAt u build x y old c) (Drawn u t) := by
  have cleared : Drawn u t { t with grid := t.grid.clearGlyphAt x y t.blankCell } :=
    drawn_of_grid (clearGlyphAt_draws _ _ _ t.plain_blankCell)
  have glyph := measured_append u (t.grid.cellTextOwned old) c
  unfold extendAt
  dsimp only
  split
  next edge =>
    rw [edge.1] at glyph
    split
    · refine (linefeed_drawn u _).bind fun t' fed => keeps_some ?_
      have moved : Drawn u t t' := cleared.trans ((flag_drawn u _ y 0 true).trans fed)
      have written := moved.grid.trans (setGrapheme_draws t'.grid 0 t'.cy old glyph)
      exact drawn_ite ⟨written, moved.stash⟩ ⟨written, moved.stash⟩
    · have placeholder : Measured u [replacement] 1 := fun _ _ => .inl le_rfl
      exact keeps_some (cleared.trans (drawn_of_grid (setGrapheme_draws _ _ _ old placeholder)))
  · have appended := appendToGrapheme_draws u t.grid x y c
    generalize t.grid.appendToGrapheme u x y c = outcome at appended ⊢
    obtain ⟨grid, joined⟩ := outcome
    dsimp only at appended ⊢
    split
    · split
      · exact (keeps_true _).bind fun right _ => keeps_some ⟨appended, rfl⟩
      · split
        · exact keeps_some ⟨appended, rfl⟩
        · exact keeps_some ⟨appended, rfl⟩
    · exact keeps_some ⟨appended, rfl⟩

private theorem print_drawn (t : Terminal) (input : Char) : Keeps (fun build => t.print u build input) (Drawn u t) := by
  obtain fresh | ⟨pos, -, ⟨-, lost⟩ | ⟨lead, -, -, extended⟩⟩ := print_cases u t input
  · rw [fresh]
    exact printFresh_drawn u t input _
  · rw [lost]
    exact fun _ _ impossible => nomatch impossible
  · rw [extended]
    exact extendAt_drawn u t lead.1 pos.2 lead.2 _

end Printing

section Closure

/-- What ordinary actions keep, and what interning the pen and resetting it keep. -/
structure Closed (u : Unicode) (P : Terminal → Prop) : Prop where
  draws : ∀ t t', P t → Drawn u t t' → P t'
  paint : ∀ (t : Terminal) (color : Color), P t → P { t with underlineColor := color }.internPen
  clear : ∀ t : Terminal, P t → P { t with underlineColor := .default, underlineColorHandle := 0 }

variable {P : Terminal → Prop}

/-- An action that keeps the grid and the stash. -/
theorem Closed.same (closed : Closed u P) (held : P t) (grid : t'.grid = t.grid) (stash : t'.stash = t.stash) :
    P t' :=
  closed.draws t t' held (drawn_of_eq grid stash)

theorem Closed.keeps (closed : Closed u P) (held : P t) {f : Build → Option Terminal}
    (drawn : Keeps f (Drawn u t)) : Keeps f P :=
  drawn.mono fun _ drawn => closed.draws _ _ held drawn

private theorem holds_ite {p : Prop} [Decidable p] {a b : Terminal} (left : P a) (right : P b) :
    P (if p then a else b) := by
  split
  · exact left
  · exact right

section Graphics

theorem Closed.resetSgr (closed : Closed u P) (held : P t) : P t.resetSgr :=
  closed.same (closed.clear t held) rfl rfl

theorem Closed.applyCode (closed : Closed u P) (held : P t) (code : ℕ) (style : Option ℕ) :
    P (t.applyCode code style) := by
  have plain {next : Terminal} (grid : next.grid = t.grid) (stash : next.stash = t.stash) : P next :=
    closed.same held grid stash
  unfold Terminal.applyCode
  refine holds_ite (closed.resetSgr held) ?_
  iterate 3 refine holds_ite (plain rfl rfl) ?_
  refine holds_ite ?_ ?_
  · split
    · exact plain rfl rfl
    · exact held
  iterate 17 refine holds_ite (plain rfl rfl) ?_
  exact holds_ite (closed.clear t held) held

theorem Closed.applyColor (closed : Closed u P) (held : P t) (code : ℕ) (color : Option Color) :
    P (t.applyColor code color) := by
  unfold Terminal.applyColor
  split
  · exact held
  · split
    · exact closed.same held rfl rfl
    split
    · exact closed.same held rfl rfl
    · exact closed.paint t _ held

theorem Closed.applySgr (closed : Closed u P) (held : P t) (groups : List (List ℕ)) : P (t.applySgr groups) := by
  have loop (fuel : ℕ) : ∀ groups t, P t → P (sgrLoop fuel groups t) := by
    induction fuel with
    | zero => exact fun _ _ held => held
    | succ fuel ih =>
      intro groups t held
      cases groups with
      | nil => exact held
      | cons group rest =>
        rw [sgrLoop]
        dsimp only
        split
        · exact ih _ _ (closed.applyColor held ..)
        · exact ih _ _ (closed.applyCode held ..)
  unfold Terminal.applySgr
  split
  · exact closed.resetSgr held
  · exact loop _ _ _ held

theorem Closed.loadCursor (closed : Closed u P) (held : P t) (s : SavedCursor) :
    Keeps (fun build => t.loadCursor build s) P := by
  refine (keeps_true _).bind fun right _ => (keeps_true _).bind fun bottom _ => keeps_some ?_
  have placed : P { t with
      cx := min s.cx right, cy := min s.cy bottom, fg := s.fg, bg := s.bg, attrs := s.attrs } :=
    closed.same held rfl rfl
  exact closed.same (closed.paint _ s.underlineColor placed) rfl rfl

theorem Closed.restoreCursor (closed : Closed u P) (held : P t) : Keeps (fun build => t.restoreCursor build) P := by
  unfold Terminal.restoreCursor
  split
  · exact keeps_some held
  · exact closed.loadCursor held _

end Graphics

section Dispatch

theorem Closed.setPrivateMode (closed : Closed u P) (held : P t) (mode : ℕ) (enabled : Bool)
    (enter : Keeps (fun build => t.enterAlt build) P)
    (leave : enabled = false → altScreenMode mode → Keeps (fun build => t.exitAlt build) P) :
    Keeps (fun build => t.setPrivateMode build mode enabled) P := by
  have plain {next : Terminal} (grid : next.grid = t.grid) (stash : next.stash = t.stash) :
      Keeps (fun _ : Build => some next) P := keeps_some (closed.same held grid stash)
  have screens (leaves : altScreenMode mode) :
      Keeps (fun build => if enabled then t.enterAlt build else t.exitAlt build) P := by
    cases enabled with
    | true => exact enter
    | false => exact leave rfl leaves
  unfold Terminal.setPrivateMode
  split
  case h_1 => exact plain rfl rfl
  case h_2 => exact plain rfl rfl
  case h_3 => exact plain rfl rfl
  case h_4 => exact plain rfl rfl
  case h_5 => exact plain rfl rfl
  case h_6 => exact plain rfl rfl
  case h_7 => exact plain rfl rfl
  case h_8 => exact plain rfl rfl
  case h_9 => exact plain rfl rfl
  case h_10 =>
    cases enabled with
    | true => exact plain rfl rfl
    | false => exact closed.restoreCursor held
  case h_11 => exact screens (.inl rfl)
  case h_12 => exact screens (.inr (.inl rfl))
  case h_13 => exact screens (.inr (.inr rfl))
  case h_14 => exact plain rfl rfl
  case h_15 => exact keeps_some held

theorem Closed.privateModes (closed : Closed u P) (held : P t) (enabled : Bool) (modes : List ℕ)
    (enter : ∀ t, P t → Keeps (fun build => t.enterAlt build) P)
    (leave : enabled = false → (∃ mode ∈ modes, altScreenMode mode) →
      ∀ t, P t → Keeps (fun build => t.exitAlt build) P) :
    Keeps (fun build => modes.foldlM (privateMode build enabled) t) P := by
  induction modes generalizing t with
  | nil => exact keeps_some held
  | cons mode modes ih =>
    have first : Keeps (fun build => privateMode build enabled t mode) P := by
      unfold privateMode
      split
      · refine keeps_some (holds_ite ?_ ?_)
        · exact closed.same held rfl rfl
        · exact closed.same held rfl rfl
      · refine closed.setPrivateMode held mode enabled (enter t held) fun reset leaves => ?_
        exact leave reset ⟨mode, List.mem_cons_self .., leaves⟩ t held
    simp only [List.foldlM_cons]
    refine first.bind fun t' held => ih held fun reset ⟨other, member, leaves⟩ => ?_
    exact leave reset ⟨other, .tail _ member, leaves⟩

private theorem iterateM_keeps {f : Build → Terminal → Option Terminal}
    (step : ∀ t, P t → Keeps (fun build => f build t) P) (held : P t) (n : ℕ) :
    Keeps (fun build => iterateM (f build) n t) P := by
  induction n generalizing t with
  | zero => exact keeps_some held
  | succ n ih => exact (step t held).bind fun t' held => ih held

theorem Closed.backTab (closed : Closed u P) (held : P t) : Keeps (fun _ : Build => t.backTab) P :=
  (keeps_true _).bind fun _ _ => keeps_some (closed.same held rfl rfl)

private theorem withTabs_stash (t : Terminal) {tabs : List Bool} (long : tabs.length = t.tabs.length) :
    { t with tabs := tabs }.stash = t.stash := by
  unfold stash
  dsimp only
  rw [long]

theorem Closed.setTab (closed : Closed u P) (held : P t) (stop : Bool) :
    Keeps (fun _ : Build => t.setTab stop) P := by
  unfold Terminal.setTab
  split
  · exact keeps_some (closed.same held rfl (withTabs_stash t List.length_set))
  · exact fun _ _ impossible => nomatch impossible

private theorem keyboardProtocol_same (t : Terminal) (params : List (List ℕ)) (marker : UInt8) :
    (t.keyboardProtocol params marker).grid = t.grid ∧ (t.keyboardProtocol params marker).stash = t.stash := by
  have set (k : KeyboardMode) : (t.setKeyboard k).grid = t.grid ∧ (t.setKeyboard k).stash = t.stash := by
    unfold setKeyboard
    split
    · exact ⟨rfl, rfl⟩
    · exact ⟨rfl, rfl⟩
  unfold keyboardProtocol
  split
  · exact set _
  split
  · exact set _
  · dsimp only
    split
    · exact set _
    · exact set _
    · exact set _
    · exact ⟨rfl, rfl⟩

theorem Closed.csiDispatch (u : Unicode) (closed : Closed u P) (held : P t) (params : List (List ℕ)) (inter : Bytes)
    (action : Char) (enter : ∀ t, P t → Keeps (fun build => t.enterAlt build) P)
    (leave : CsiLeaves params inter action → ∀ t, P t → Keeps (fun build => t.exitAlt build) P) :
    Keeps (fun build => t.csiDispatch u build params inter action) P := by
  have plain {next : Terminal} (grid : next.grid = t.grid) (stash : next.stash = t.stash) :
      Keeps (fun _ : Build => some next) P := keeps_some (closed.same held grid stash)
  have done : Keeps (fun _ : Build => some t) P := keeps_some held
  have word {word : Build → Option ℕ} {next : ℕ → Build → Option Terminal}
      (rest : ∀ n, Keeps (next n) P) : Keeps (fun build => word build >>= fun n => next n build) P :=
    (keeps_true _).bind fun n _ => rest n
  have edited {f : Build → Option Terminal} (drawn : Keeps f (Drawn u t)) : Keeps f P := closed.keeps held drawn
  unfold Terminal.csiDispatch
  dsimp only
  split
  case h_1 => exact word fun _ => word fun _ => word fun _ => plain rfl rfl
  case h_2 => exact word fun _ => word fun _ => word fun _ => plain rfl rfl
  case h_3 => exact plain rfl rfl
  case h_4 => exact word fun _ => plain rfl rfl
  case h_5 => exact word fun _ => plain rfl rfl
  case h_6 => exact word fun _ => plain rfl rfl
  case h_7 => exact word fun _ => plain rfl rfl
  case h_8 => exact plain rfl rfl
  case h_9 => exact word fun _ => plain rfl rfl
  case h_10 => exact plain rfl rfl
  case h_11 => exact word fun _ => word fun _ => plain rfl rfl
  case h_12 => exact word fun _ => word fun _ => plain rfl rfl
  case h_13 => exact word fun _ => word fun _ => plain rfl rfl
  case h_14 => exact edited (eraseInDisplay_drawn u t _)
  case h_15 => exact edited (eraseInLine_drawn u t _)
  case h_16 =>
    split
    · exact keeps_some (closed.applySgr held params)
    · exact done
  case h_17 => exact edited (deleteChars_drawn u t _)
  case h_18 => exact keeps_some (closed.draws _ _ held (insertChars_drawn u t _))
  case h_19 => exact edited (eraseChars_drawn u t _)
  case h_20 => exact keeps_some (closed.draws _ _ held (insertLines_drawn u t _))
  case h_21 => exact keeps_some (closed.draws _ _ held (deleteLines_drawn u t _))
  case h_22 =>
    split
    · exact done
    next c _ =>
      refine iterateM_keeps (fun t held => ?_) held _
      exact closed.keeps held (print_drawn u t c)
  case h_23 =>
    refine (iterateM_keeps (fun t held => closed.backTab held) held _).bind fun t' held => keeps_some ?_
    exact closed.same held rfl rfl
  case h_24 =>
    split
    · exact closed.setTab held false
    · exact plain rfl (withTabs_stash t (List.length_map _))
    · exact done
  case h_25 => exact keeps_some (closed.draws _ _ held (iterate_drawn (scrollRegionUp_drawn u) _ t))
  case h_26 => exact keeps_some (closed.draws _ _ held (iterate_drawn (scrollRegionDown_drawn u) _ t))
  case h_27 =>
    split
    · refine word fun _ => word fun _ => keeps_some (holds_ite ?_ held)
      exact closed.same held rfl rfl
    · exact done
  case h_28 => exact keeps_some (holds_ite (closed.same held rfl rfl) held)
  case h_29 =>
    split
    · exact closed.restoreCursor held
    split
    · exact plain rfl rfl
    split
    · have same := keyboardProtocol_same t params (inter.headD 0)
      exact plain same.1 same.2
    · exact done
  case h_30 => exact plain rfl rfl
  case h_31 =>
    split
    · exact done
    split
    · split
      · exact plain rfl rfl
      · exact word fun _ => word fun _ => plain rfl rfl
      · exact done
    split
    · exact plain rfl rfl
    · exact done
  case h_32 =>
    refine keeps_some (holds_ite ?_ held)
    unfold windowOps
    split <;> exact closed.same held rfl rfl
  case h_33 =>
    split
    · exact closed.privateModes held true _ enter fun absurd => nomatch absurd
    split
    · exact plain rfl rfl
    · exact done
  case h_34 =>
    split
    · next marked =>
      exact closed.privateModes held false _ enter fun _ leaves => leave ⟨rfl, marked, leaves⟩
    split
    · exact plain rfl rfl
    · exact done
  case h_35 => exact done

private theorem newline_drawn (u : Unicode) (t : Terminal) (cx : ℕ) : Keeps (fun build => do
    let t ← { t with grid := t.grid.setRowWrapped t.cy false, cx := cx }.linefeed build
    some { t with wrapPending := false }) (Drawn u t) := by
  refine (linefeed_drawn u _).bind fun t' fed => keeps_some ?_
  have moved := (flag_drawn u t t.cy cx false).trans fed
  exact ⟨moved.grid, moved.stash⟩

theorem Closed.execute (closed : Closed u P) (held : P t) (byte : ℕ) :
    Keeps (fun build => t.execute build byte) P := by
  unfold Terminal.execute
  split
  · exact closed.keeps held (newline_drawn u t t.cx)
  split
  · exact keeps_some (closed.same held rfl rfl)
  split
  · exact keeps_some (closed.same held rfl rfl)
  split
  · refine (keeps_true _).bind fun _ _ => (keeps_true _).bind fun _ _ => (keeps_true _).bind fun _ _ => ?_
    exact keeps_some (closed.same held rfl rfl)
  · exact keeps_some held

theorem Closed.escDispatch (closed : Closed u P) (held : P t) (inter : Bytes) (byte : ℕ)
    (reset : EscResets inter byte → Keeps (fun build => t.resetTerminal build) P) :
    Keeps (fun build => t.escDispatch build inter byte) P := by
  unfold Terminal.escDispatch
  split
  · refine keeps_some (holds_ite ?_ (holds_ite ?_ held))
    · exact closed.same held rfl rfl
    · exact closed.same held rfl rfl
  next other =>
  split
  case h_1 => exact keeps_some (closed.draws _ _ held (reverseIndex_drawn u t))
  case h_2 => exact closed.keeps held (newline_drawn u t t.cx)
  case h_3 => exact closed.keeps held (newline_drawn u t 0)
  case h_4 => exact closed.setTab held true
  case h_5 => exact keeps_some (closed.same held rfl rfl)
  case h_6 => exact closed.restoreCursor held
  case h_7 is => exact reset ⟨other, is⟩
  case h_8 => exact keeps_some held

/-- An OSC that opens or closes a hyperlink. -/
def OscLinks (params : List Bytes) : Prop := oscIs params 0 "8" = true ∧ params.length ≥ 3

theorem setNestedInput_same (t : Terminal) (enabled : Bool) :
    (t.setNestedInput enabled).grid = t.grid ∧ (t.setNestedInput enabled).stash = t.stash := by
  unfold setNestedInput
  split
  · exact ⟨rfl, rfl⟩
  · exact ⟨rfl, rfl⟩

theorem Closed.nested (closed : Closed u P) (held : P t) (enabled : Bool) : P (t.setNestedInput enabled) :=
  closed.same held (setNestedInput_same t enabled).1 (setNestedInput_same t enabled).2

theorem Closed.oscDispatch (env : Env) (closed : Closed u P) (held : P t) (params : List Bytes)
    (link : OscLinks params → P (t.openHyperlink params))
    (recover : OscRecovers env params → Keeps (fun build => t.recoverShellScreen build) P) :
    Keeps (fun build => t.oscDispatch env build params) P := by
  have plain {next : Terminal} (grid : next.grid = t.grid) (stash : next.stash = t.stash) :
      Keeps (fun _ : Build => some next) P := keeps_some (closed.same held grid stash)
  unfold Terminal.oscDispatch
  split
  · exact plain rfl rfl
  split
  next links => exact keeps_some (link links)
  split
  · exact keeps_some (holds_ite (closed.nested held true) (holds_ite (closed.nested held false) held))
  split
  next notified =>
    unfold agentNotify
    split
    · exact keeps_some held
    next event parsed =>
      split
      next exited =>
        refine (recover (.inl ⟨notified, event, parsed, exited⟩)).bind fun t' held => ?_
        exact keeps_some (closed.same held rfl rfl)
      · exact plain rfl rfl
  split
  · split
    · exact keeps_some (holds_ite (closed.same held rfl rfl) held)
    · exact keeps_some held
  split
  next prompt =>
    unfold promptMark
    dsimp only
    split
    next shown =>
      refine (recover (.inr ⟨prompt, shown.2⟩)).bind fun t' held => ?_
      exact keeps_some (holds_ite (closed.same held rfl rfl) held)
    · exact keeps_some (holds_ite (closed.same held rfl rfl) held)
  split
  · exact keeps_some (holds_ite (closed.same held rfl rfl) held)
  · unfold colorQuery
    dsimp only
    split
    · exact plain rfl rfl
    · refine keeps_some (holds_ite (holds_ite ?_ (holds_ite ?_ held)) held)
      · exact closed.same held rfl rfl
      · exact closed.same held rfl rfl

/-- What the actions keep that leave the alternate screen or reset the terminal. -/
structure Leaving (P : Terminal → Prop) : Prop where
  exit : ∀ t, P t → Keeps (fun build => t.exitAlt build) P
  recover : ∀ t, P t → Keeps (fun build => t.recoverShellScreen build) P
  reset : ∀ t, P t → Keeps (fun build => t.resetTerminal build) P

theorem Closed.step (env : Env) (closed : Closed env.unicode P) (held : P t) (a : Action)
    (enter : ∀ t, P t → Keeps (fun build => t.enterAlt build) P)
    (link : ∀ params, a = .osc params → OscLinks params → P (t.openHyperlink params))
    (resize : ∀ width height, a = .resize width height → P (t.resize env.unicode width.toNat height.toNat))
    (leaving : LeavesAlt env a → Leaving P) : Keeps (fun build => step env build t a) P := by
  cases a with
  | print c => exact closed.keeps held (print_drawn env.unicode t c)
  | execute byte => exact closed.execute held byte.toNat
  | csi params inter action =>
    exact closed.csiDispatch env.unicode held _ inter action enter fun leaves => (leaving leaves).exit
  | esc inter byte => exact closed.escDispatch held inter byte.toNat fun resets => (leaving resets).reset t held
  | osc params =>
    exact closed.oscDispatch env held params (link params rfl) fun recovers => (leaving recovers).recover t held
  | resize width height => exact keeps_some (resize width height rfl)

end Dispatch

end Closure

end Uniterm.Model.Terminal
