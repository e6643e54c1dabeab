import Uniterm.Model.Terminal.Dispatch
import Uniterm.Soundness.Grid.Fitted

/-! # Sound terminal states

The cursor is on the screen, the margins and tab stops fit it, and the shown and the stashed grid
are tidy grids of its size. A one-column terminal can be left with its cursor to the right of the
screen, and a stashed grid can be recut to another size; `slack` says what is admitted.
-/

namespace Uniterm.Model.Terminal

open Machine Grid

/-- What a sound state may lack: a cursor on a screen of one column, a stashed grid of the screen's size. -/
structure Slack where
  column : Prop
  stash : Prop

structure Sound (slack : Slack) (t : Terminal) : Prop where
  wide : 0 < t.width
  narrow : t.width < 65536
  tall : 0 < t.height
  short : t.height < 65536
  column : t.cx < t.width ∨ slack.column ∧ t.width = 1 ∧ t.cx ≤ 2
  row : t.cy < t.height
  margins : t.scrollTop ≤ t.scrollBottom
  bottom : t.scrollBottom < t.height
  tabs : t.tabs.length = t.width
  screen : Fitted t.width t.height t.grid
  stash : slack.stash ∨ ∀ g ∈ t.altBackup, Fitted t.width t.height g

/-- Under origin mode the cursor is inside the margins. -/
def Homed (t : Terminal) : Prop :=
  t.originMode = true → t.scrollTop ≤ t.cy ∧ t.cy ≤ t.scrollBottom

/-- What an action leaves: a sound state, with the cursor inside the margins if it was. -/
structure Kept (slack : Slack) (t t' : Terminal) : Prop where
  sound : Sound slack t'
  homed : t.Homed → t'.Homed

section Basics

variable {slack : Slack} {t t' : Terminal}

theorem Sound.kept (sound : Sound slack t) : Kept slack t t := ⟨sound, id⟩

theorem Kept.trans {t'' : Terminal} (first : Kept slack t t') (second : Kept slack t' t'') :
    Kept slack t t'' := ⟨second.sound, fun homed => second.homed (first.homed homed)⟩

/-- The part of the state that soundness is about. -/
def layout (t : Terminal) :=
  (t.grid, t.width, t.height, t.cx, t.cy, t.originMode, t.scrollTop, t.scrollBottom, t.tabs, t.altBackup)

/-- An action that leaves the layout alone keeps everything. -/
theorem Sound.of_layout (sound : Sound slack t) (same : t'.layout = t.layout) : Kept slack t t' := by
  simp only [layout, Prod.mk.injEq] at same
  obtain ⟨grid, width, height, cx, cy, origin, top, bottom, tabs, stash⟩ := same
  obtain ⟨wide, narrow, tall, short, column, row, margins, below, stops, screen, stashed⟩ := sound
  refine ⟨?_, ?_⟩
  · constructor <;> simp only [grid, width, height, cx, cy, top, bottom, tabs, stash] <;> assumption
  · unfold Homed
    rw [cy, origin, top, bottom]
    exact id

theorem plain_blankCell (t : Terminal) : Plain t.blankCell := ⟨rfl, rfl⟩

theorem Sound.withGrid (sound : Sound slack t) {g : Grid} (fitted : Fitted t.width t.height g) :
    Kept slack t { t with grid := g } := ⟨{ sound with screen := fitted }, id⟩

/-- Moving the cursor to a column of the screen. -/
theorem Sound.withColumn (sound : Sound slack t) {cx : ℕ} (column : cx < t.width) (pending : Bool) :
    Kept slack t { t with cx, wrapPending := pending } := ⟨{ sound with column := .inl column }, id⟩

/-- Moving the cursor to the left. -/
theorem Sound.withColumnLe (sound : Sound slack t) {cx : ℕ} (left : cx ≤ t.cx) :
    Kept slack t { t with cx, wrapPending := false } :=
  ⟨{ sound with column := sound.column.imp left.trans_lt fun ⟨loose, one, bound⟩ =>
    ⟨loose, one, left.trans bound⟩ }, id⟩

theorem Sound.withPending (sound : Sound slack t) (pending : Bool) :
    Kept slack t { t with wrapPending := pending } := sound.of_layout rfl

theorem Sound.internPen (sound : Sound slack t) : Kept slack t t.internPen :=
  ⟨{ sound with screen := sound.screen.internUnderlineColor t.underlineColor }, id⟩

theorem Sound.setRowWrapped (sound : Sound slack t) (y : ℕ) (wrapped : Bool) :
    Kept slack t { t with grid := t.grid.setRowWrapped y wrapped } :=
  sound.withGrid (sound.screen.setRowWrapped y wrapped)

end Basics

section Scrolling

variable {slack : Slack} {t : Terminal}

theorem Sound.scrollRegionUp (sound : Sound slack t) : Kept slack t t.scrollRegionUp :=
  sound.withGrid (sound.screen.scrollRegionUpInner t.plain_blankCell ..)

theorem Sound.scrollRegionDown (sound : Sound slack t) : Kept slack t t.scrollRegionDown :=
  sound.withGrid (sound.screen.scrollRegionDown t.plain_blankCell ..)

theorem Sound.linefeed (sound : Sound slack t) : Settles (fun build => t.linefeed build) fun t' =>
    Kept slack t t' ∧ t'.cx = t.cx ∧ t'.width = t.width := by
  have row := sound.row
  have short := sound.short
  unfold Terminal.linefeed
  split
  · exact settles_some ⟨sound.scrollRegionUp, rfl, rfl⟩
  · next above =>
    refine (settles_add16 (by omega)).bind fun below sum => settles_some ?_
    subst sum
    split
    · next inside =>
      refine ⟨⟨{ sound with row := inside }, fun homed origin => ?_⟩, rfl, rfl⟩
      have := homed origin
      dsimp only
      omega
    · exact ⟨sound.kept, rfl, rfl⟩

theorem Sound.reverseIndex (sound : Sound slack t) : Kept slack t t.reverseIndex := by
  have row := sound.row
  unfold Terminal.reverseIndex
  split
  · exact sound.scrollRegionDown
  split
  · next below top =>
    refine ⟨{ sound with row := by dsimp only; omega }, fun homed origin => ?_⟩
    have := homed origin
    dsimp only
    omega
  · exact sound.kept

theorem Sound.iterate {f : Terminal → Terminal} (step : ∀ {t}, Sound slack t → Kept slack t (f t))
    (sound : Sound slack t) (n : ℕ) : Kept slack t (f^[n] t) := by
  induction n generalizing t with
  | zero => exact sound.kept
  | succ n ih => exact (step sound).trans (ih (step sound).sound)

private theorem fitted_iterate {w h : ℕ} {f : Grid → Grid} (step : ∀ {g}, Fitted w h g → Fitted w h (f g))
    {g : Grid} (fitted : Fitted w h g) (n : ℕ) : Fitted w h (f^[n] g) := by
  induction n generalizing g with
  | zero => exact fitted
  | succ n ih => exact ih (step fitted)

theorem Sound.insertLines (sound : Sound slack t) (n : ℕ) : Kept slack t (t.insertLines n) := by
  unfold Terminal.insertLines
  dsimp only
  split
  · exact sound.withPending false
  · refine (sound.withPending false).trans ((sound.withPending false).sound.withGrid ?_)
    exact fitted_iterate (fun fitted => fitted.scrollRegionDown t.plain_blankCell ..) sound.screen n

theorem Sound.deleteLines (sound : Sound slack t) (n : ℕ) : Kept slack t (t.deleteLines n) := by
  unfold Terminal.deleteLines
  dsimp only
  split
  · exact sound.withPending false
  · refine (sound.withPending false).trans ((sound.withPending false).sound.withGrid ?_)
    exact fitted_iterate (fun fitted => fitted.scrollRegionUpInner t.plain_blankCell ..) sound.screen n

end Scrolling

section Erasing

variable {slack : Slack} {t : Terminal}

theorem Sound.eraseCells (sound : Sound slack t) (y first stop : ℕ) :
    Settles (fun build => t.grid.eraseCells build y first stop t.blankCell)
      (Fitted t.width t.height) :=
  sound.screen.eraseCells_settles t.plain_blankCell sound.narrow y first stop

/-- Replacing the grid and dropping the deferred wrap. -/
theorem Sound.withGridDone (sound : Sound slack t) {g : Grid} (fitted : Fitted t.width t.height g) :
    Kept slack t { t with grid := g, wrapPending := false } :=
  (sound.withGrid fitted).trans ((sound.withGrid fitted).sound.withPending false)

theorem Sound.insertChars (sound : Sound slack t) (n : ℕ) : Kept slack t (t.insertChars n) :=
  sound.withGridDone (sound.screen.insertCells t.plain_blankCell ..)

theorem Sound.deleteChars_keeps (sound : Sound slack t) (n : ℕ) :
    Keeps (fun build => t.deleteChars build n) (Kept slack t) :=
  (sound.screen.deleteCells_keeps t.plain_blankCell t.cy t.cx n).bind fun _ fitted _ _ returned =>
    Option.some.inj returned ▸ sound.withGridDone (fitted.setRowWrapped t.cy false)

theorem deleteChars_release (t : Terminal) (n : ℕ) : ∃ t', t.deleteChars .release n = some t' := by
  obtain ⟨g, deleted⟩ := deleteCells_release t.grid t.cy t.cx n t.blankCell
  exact ⟨_, by rw [Terminal.deleteChars, deleted]; rfl⟩

theorem Sound.deleteChars (sound : Sound slack t) {n : ℕ}
    (fits : t.width - 1 + min n (t.width - t.cx) < 65536) :
    Settles (fun build => t.deleteChars build n) (Kept slack t) :=
  (sound.screen.deleteCells_settles t.plain_blankCell fits).bind fun _ fitted =>
    settles_some (sound.withGridDone (fitted.setRowWrapped t.cy false))

theorem Sound.eraseChars (sound : Sound slack t) (n : ℕ) :
    Settles (fun build => t.eraseChars build n) (Kept slack t) :=
  (sound.eraseCells ..).bind fun _ fitted =>
    settles_some (sound.withGridDone (fitted.setRowWrapped t.cy false))

theorem Sound.lineRange (sound : Sound slack t) (mode : ℕ) :
    Settles (fun build => t.lineRange build mode) fun _ => True := by
  have narrow := sound.narrow
  have column := sound.column
  unfold Terminal.lineRange
  split
  · exact settles_some trivial
  · exact (settles_add16 (by omega)).bind fun _ _ => settles_some trivial
  · exact settles_some trivial
  · exact settles_some trivial

theorem Sound.eraseInLine (sound : Sound slack t) (mode : ℕ) :
    Settles (fun build => t.eraseInLine build mode) (Kept slack t) := by
  refine (sound.lineRange mode).bind fun range _ => ?_
  match range with
  | none => exact settles_some sound.kept
  | some (first, stop) =>
    refine (sound.eraseCells ..).bind fun grid fitted => settles_some (sound.withGridDone ?_)
    split
    · exact fitted.setRowWrapped t.cy false
    · exact fitted

theorem Sound.eraseRows (sound : Sound slack t) (rows : List ℕ) :
    Settles (fun build => t.eraseRows build rows) (Kept slack t) := by
  refine (settles_foldlM (Fitted t.width t.height) _ rows (fun g y _ fitted => ?_) sound.screen).bind
    fun grid fitted => settles_some (sound.withGrid fitted)
  exact fitted.eraseCells_settles t.plain_blankCell sound.narrow y 0 t.width

theorem Sound.eraseInDisplay (sound : Sound slack t) (mode : ℕ) :
    Settles (fun build => t.eraseInDisplay build mode) (Kept slack t) := by
  unfold Terminal.eraseInDisplay
  split
  · refine (sound.eraseInLine 0).bind fun t' kept => ?_
    have row := kept.sound.row
    have short := kept.sound.short
    refine (settles_add16 (by omega)).bind fun below _ => ?_
    exact (kept.sound.eraseRows _).mono fun _ rest => kept.trans rest
  · refine (sound.eraseRows _).bind fun t' kept => ?_
    exact (kept.sound.eraseInLine 1).mono fun _ rest => kept.trans rest
  · refine (sound.eraseRows _).bind fun t' kept => settles_some ?_
    exact kept.trans (kept.sound.withPending false)
  · exact settles_some (sound.withGrid sound.screen.clearScrollback)
  · exact settles_some sound.kept

end Erasing

section Graphics

variable {slack : Slack} {t : Terminal}

theorem layout_ite {p : Prop} [Decidable p] {a b : Terminal} (left : a.layout = t.layout)
    (right : b.layout = t.layout) : (if p then a else b).layout = t.layout := by
  split
  · exact left
  · exact right

private theorem applyCode_layout (t : Terminal) (code : ℕ) (style : Option ℕ) :
    (t.applyCode code style).layout = t.layout := by
  unfold applyCode
  repeat refine layout_ite rfl ?_
  -- SGR 4 looks at its subparameter first.
  refine layout_ite ?_ ?_
  · split <;> rfl
  · repeat refine layout_ite rfl ?_
    rfl

theorem Sound.applyColor (sound : Sound slack t) (code : ℕ) (color : Option Color) :
    Kept slack t (t.applyColor code color) := by
  unfold Terminal.applyColor
  split
  · exact sound.kept
  · next c =>
    split
    · exact sound.of_layout rfl
    split
    · exact sound.of_layout rfl
    · have painted : Kept slack t { t with underlineColor := c } := sound.of_layout rfl
      exact painted.trans painted.sound.internPen

theorem Sound.sgrLoop (sound : Sound slack t) (fuel : ℕ) (groups : List (List ℕ)) :
    Kept slack t (Terminal.sgrLoop fuel groups t) := by
  induction fuel generalizing groups t with
  | zero => exact sound.kept
  | succ fuel ih =>
    cases groups with
    | nil => exact sound.kept
    | cons group rest =>
      rw [Terminal.sgrLoop]
      dsimp only
      split
      · have colored := sound.applyColor (group.headD 0) (parseExtendedColor (group :: rest)).1
        exact colored.trans (ih colored.sound _)
      · have applied := sound.of_layout (applyCode_layout t (group.headD 0) group[1]?)
        exact applied.trans (ih applied.sound rest)

theorem Sound.applySgr (sound : Sound slack t) (groups : List (List ℕ)) :
    Kept slack t (t.applySgr groups) := by
  unfold Terminal.applySgr
  split
  · exact sound.of_layout rfl
  · exact sound.sgrLoop ..

end Graphics

end Uniterm.Model.Terminal
