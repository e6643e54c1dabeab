import Uniterm.Soundness.Terminal.Sound

/-! # Printing

A printed character either extends the grapheme before the cursor or starts one of its own. The
extension path places the cursor behind a widened glyph without looking at the width of the screen:
on a screen of one column it leaves it, and the next character is looked up beside the screen.
-/

namespace Uniterm.Model.Terminal

open Machine Grid

/-- The character as the current character set draws it. -/
def drawn (t : Terminal) (input : Char) : Char :=
  if t.decLineDrawing then decLineDrawingChar input else input

/-- The character turns the glyph before the cursor into a wide one, on a screen of one column that
wraps. -/
def WidensInOneColumn (u : Unicode) (t : Terminal) (input : Char) : Prop :=
  t.width = 1 ∧ t.autowrap = true ∧ ∃ pos ∈ t.previous, ∃ lead ∈ t.leadAt pos.1 pos.2,
    t.grid.graphemeExtends u lead.2 (t.drawn input) = true ∧
      u.glyphWidth (t.grid.cellTextOwned lead.2 ++ [t.drawn input]) = 2

section Fresh

variable {slack : Slack} {u : Unicode} {t : Terminal}

private theorem glyphFor_width (u : Unicode) (t : Terminal) (c : Char) :
    (t.glyphFor u c).2 = 1 ∨ (t.glyphFor u c).2 = 2 ∧ t.width ≠ 1 := by
  unfold glyphFor
  have bound : min ((u.charWidth c).getD 0) 2 ≤ 2 := Nat.min_le_right ..
  dsimp only
  generalize min ((u.charWidth c).getD 0) 2 = width at bound ⊢
  by_cases zero : width = 0
  · simp [zero]
  · simp only [zero, ↓reduceIte]
    split
    · exact .inl rfl
    · dsimp only
      omega

theorem Sound.wrapLine (sound : Sound slack t) : Settles (fun build => t.wrapLine build) fun t' =>
    Kept slack t t' ∧ t'.cx = 0 ∧ t'.width = t.width := by
  have flagged := sound.setRowWrapped t.cy true
  have moved : Kept slack t { t with grid := t.grid.setRowWrapped t.cy true, cx := 0 } :=
    flagged.trans (flagged.sound.withColumn flagged.sound.wide t.wrapPending)
  exact moved.sound.linefeed.mono fun t' fed => ⟨moved.trans fed.1, fed.2.1, fed.2.2⟩

theorem Sound.wrapDeferred (sound : Sound slack t) :
    Settles (fun build => t.wrapDeferred build) fun t' => Kept slack t t' ∧ t'.width = t.width := by
  unfold Terminal.wrapDeferred
  split
  · split
    · refine sound.wrapLine.bind fun t' wrapped => settles_some ?_
      exact ⟨wrapped.1.trans (wrapped.1.sound.withPending false), wrapped.2.2⟩
    · exact settles_some ⟨sound.withPending false, rfl⟩
  · exact settles_some ⟨sound.kept, rfl⟩

/-- A glyph that is still wide has room for both of its columns. -/
theorem Sound.wrapWide (sound : Sound slack t) (text : Text) {width : ℕ}
    (glyph : width = 1 ∨ width = 2 ∧ t.width ≠ 1) :
    Settles (fun build => t.wrapWide build text width) fun (t', _, width') =>
      Kept slack t t' ∧ (width' = 1 ∨ width' = 2 ∧ t'.cx + 2 ≤ t'.width) := by
  have column := sound.column
  have narrow := sound.narrow
  have wide := sound.wide
  unfold Terminal.wrapWide
  split
  · next two =>
    refine (settles_add16 (by omega)).bind fun following sum => ?_
    subst sum
    split
    · split
      · refine sound.wrapLine.bind fun t' wrapped => settles_some ?_
        have start := wrapped.2.1
        have same := wrapped.2.2
        exact ⟨wrapped.1, .inr ⟨two, by omega⟩⟩
      · exact settles_some ⟨sound.kept, .inl rfl⟩
    · exact settles_some ⟨sound.kept, .inr ⟨two, by omega⟩⟩
  · next one => exact settles_some ⟨sound.kept, .inl (by omega)⟩

theorem Sound.writeAt (sound : Sound slack t) (c : Char) (text : Text) {width : ℕ}
    (glyph : width = 1 ∨ width = 2 ∧ t.cx + 2 ≤ t.width) :
    Settles (fun build => t.writeAt build c text width) (Kept slack t) := by
  have column := sound.column
  have narrow := sound.narrow
  have wide := sound.wide
  unfold Terminal.writeAt
  dsimp only
  have inserted : Fitted t.width t.height
      (if t.insertMode = true then t.grid.insertCells t.cy t.cx width t.blankCell else t.grid) := by
    split
    · exact sound.screen.insertCells t.plain_blankCell ..
    · exact sound.screen
  generalize (if t.insertMode = true then t.grid.insertCells t.cy t.cx width t.blankCell else t.grid) =
    grid at inserted ⊢
  have written := sound.withGrid (inserted.setGrapheme t.cx t.cy text {
    ch := c, fg := t.fg, bg := t.bg, attrs := t.attrs
    underlineColor := t.underlineColorHandle, hyperlink := t.hyperlink } width)
  refine (settles_add16 (by omega)).bind fun stop sum => ?_
  subst sum
  split
  · refine (settles_sub16 (by omega)).bind fun right edge => settles_some ?_
    subst edge
    exact written.trans (written.sound.withColumn (by dsimp only; omega) t.autowrap)
  · next inside =>
    exact settles_some (written.trans (written.sound.withColumn (by dsimp only; omega) t.wrapPending))

theorem Sound.printFresh (sound : Sound slack t) (input c : Char) :
    Settles (fun build => t.printFresh u build input c) (Kept slack t) := by
  have glyph := glyphFor_width u t c
  unfold Terminal.printFresh
  generalize t.glyphFor u c = drawn at glyph ⊢
  obtain ⟨text, width⟩ := drawn
  dsimp only at glyph ⊢
  refine sound.wrapDeferred.bind fun t₁ deferred => ?_
  rw [← deferred.2] at glyph
  refine (deferred.1.sound.wrapWide text glyph).bind fun (t₂, text', width') wrapped => ?_
  refine (wrapped.1.sound.writeAt c text' wrapped.2).bind fun t₃ written => settles_some ?_
  exact ((deferred.1.trans wrapped.1).trans written).trans (written.sound.of_layout rfl)

end Fresh

section Extend

variable {slack : Slack} {u : Unicode} {t : Terminal}

/-- Extending a glyph of the screen, unless it leaves a screen of one column. -/
theorem Sound.extendAt (sound : Sound slack t) {x : ℕ} (y : ℕ) (inside : x < t.width) (old : Cell)
    (c : Char) (room : slack.column ∨ ¬(t.width = 1 ∧ t.autowrap = true ∧
      u.glyphWidth (t.grid.cellTextOwned old ++ [c]) = 2)) :
    Settles (fun build => t.extendAt u build x y old c) (Kept slack t) := by
  have wide := sound.wide
  have cleared := sound.withGrid (sound.screen.clearGlyphAt t.plain_blankCell x y)
  unfold Terminal.extendAt
  dsimp only
  split
  · next edge =>
    split
    · next wraps =>
      have flagged := cleared.trans (cleared.sound.setRowWrapped y true)
      have start := flagged.trans (flagged.sound.withColumn flagged.sound.wide t.wrapPending)
      refine start.sound.linefeed.bind fun t' fed => settles_some ?_
      obtain ⟨fed, _, same⟩ := fed
      have moved := start.trans fed
      have written := moved.trans (moved.sound.withGridDone (moved.sound.screen.setGrapheme 0 t'.cy
        (t.grid.cellTextOwned old ++ [c]) old 2))
      replace same : t'.width = t.width := same
      split
      · next two => exact written.trans (written.sound.withColumn (by dsimp only at two ⊢; omega) true)
      · next other =>
        have column : 2 < t'.width ∨ slack.column ∧ t'.width = 1 ∧ 2 ≤ 2 := by
          rcases Nat.lt_or_ge 2 t'.width with less | narrow
          · exact .inl less
          · have one : t.width = 1 := by omega
            exact .inr ⟨room.resolve_right fun bad => bad ⟨one, wraps, edge.1⟩, same.trans one, le_rfl⟩
        exact written.trans ⟨{ written.sound with column }, id⟩
    · have shown := cleared.sound.screen.setGrapheme x y [replacement] old 1
      exact settles_some (cleared.trans (cleared.sound.withGrid shown))
  · have appended := sound.withGrid (sound.screen.appendToGrapheme u x y c)
    generalize t.grid.appendToGrapheme u x y c = outcome at appended ⊢
    obtain ⟨grid, joined⟩ := outcome
    dsimp only at appended ⊢
    split
    · split
      · refine (settles_sub16 (by omega)).bind fun right edge => settles_some ?_
        subst edge
        exact appended.trans (appended.sound.withColumn (by dsimp only; omega) t.autowrap)
      · next inside =>
        split
        · exact settles_some appended
        · exact settles_some
            (appended.trans (appended.sound.withColumn (by dsimp only at inside ⊢; omega) t.wrapPending))
    · exact settles_some appended

/-- A lead cell that is found is on the screen. -/
theorem Sound.leadAt_inside (sound : Sound slack t) {x y x' : ℕ} {old : Cell}
    (found : t.leadAt x y = some (x', old)) : x' < t.width := by
  have cell {x : ℕ} {c : Cell} (read : t.grid.get? x y = some c) : x < t.width := by
    obtain ⟨line, row, column⟩ := Option.bind_eq_some_iff.mp read
    rw [← sound.screen.width, ← sound.screen.tidy.full line (List.mem_of_getElem? row)]
    exact (List.getElem?_eq_some_iff.mp column).1
  obtain ⟨c, here, rest⟩ := Option.bind_eq_some_iff.mp found
  split at rest
  · obtain ⟨lead, before, result⟩ := Option.bind_eq_some_iff.mp rest
    cases result
    exact cell before
  · cases rest
    exact cell here

/-- The lead cell of a position on the screen is found. -/
theorem Sound.leadAt_some (sound : Sound slack t) {x y : ℕ} (column : x < t.width)
    (row : y < t.height) : ∃ lead, t.leadAt x y = some lead := by
  have read {x : ℕ} (column : x < t.width) : ∃ c, t.grid.get? x y = some c := by
    obtain ⟨line, found, cell⟩ := sound.screen.tidy.toShaped.get_eq (y := y)
      (sound.screen.width.symm ▸ column) (sound.screen.height.symm ▸ row)
    exact ⟨_, by rw [get?, found, Option.bind_some, cell]⟩
  obtain ⟨c, here⟩ := read column
  obtain ⟨lead, before⟩ := read (Nat.lt_of_le_of_lt (Nat.sub_le x 1) column)
  unfold leadAt
  simp only [here, before, Option.bind_eq_bind, Option.bind_some]
  split
  · exact ⟨_, rfl⟩
  · exact ⟨_, rfl⟩

/-- A character starts a glyph, extends one, or is looked up beside the screen. -/
theorem print_cases (u : Unicode) (t : Terminal) (input : Char) :
    (fun build => print u build t input) =
        (fun build => t.printFresh u build input (t.drawn input)) ∨
      ∃ pos ∈ t.previous,
        t.leadAt pos.1 pos.2 = none ∧ (fun build => print u build t input) = (fun _ => none) ∨
        ∃ lead ∈ t.leadAt pos.1 pos.2,
          t.grid.graphemeExtends u lead.2 (t.drawn input) = true ∧
          (fun build => print u build t input) =
            fun build => t.extendAt u build lead.1 pos.2 lead.2 (t.drawn input) := by
  unfold Terminal.print
  cases t.previous with
  | none => exact .inl rfl
  | some pos =>
    obtain ⟨x, y⟩ := pos
    cases found : t.leadAt x y with
    | none => exact .inr ⟨(x, y), rfl, .inl ⟨found, by simp [found]⟩⟩
    | some lead =>
      obtain ⟨x', old⟩ := lead
      simp only [found, Option.bind_eq_bind, Option.bind_some]
      by_cases joins : t.grid.graphemeExtends u old (t.drawn input) = true
      · refine .inr ⟨(x, y), rfl, .inr ⟨(x', old), found, joins, funext fun build => if_pos joins⟩⟩
      · exact .inl (funext fun build => if_neg joins)

theorem Sound.print_agrees (sound : Sound slack t) (input : Char)
    (room : slack.column ∨ ¬t.WidensInOneColumn u input) :
    Agrees (fun build => print u build t input) (Kept slack t) := by
  rcases print_cases u t input with fresh | ⟨pos, position, ⟨_, lost⟩ | ⟨lead, found, joins, extended⟩⟩
  · rw [fresh]
    exact (sound.printFresh ..).agrees
  · rw [lost]
    exact agrees_none
  · rw [extended]
    refine (sound.extendAt pos.2 (sound.leadAt_inside found) lead.2 _ (room.imp_right ?_)).agrees
    rintro clear ⟨one, wraps, two⟩
    exact clear ⟨one, wraps, pos, position, lead, found, joins, two⟩

/-- With the cursor on the screen a character is always printed. -/
theorem Sound.print (sound : Sound slack t) (firm : ¬slack.column) (input : Char)
    (room : ¬t.WidensInOneColumn u input) : Settles (fun build => print u build t input) (Kept slack t) := by
  have column : t.cx < t.width := sound.column.resolve_right fun loose => firm loose.1
  rcases print_cases u t input with fresh | ⟨pos, position, ⟨lost, _⟩ | ⟨lead, found, joins, extended⟩⟩
  · rw [fresh]
    exact sound.printFresh ..
  · have inside : pos.1 < t.width ∧ pos.2 = t.cy := by
      unfold previous at position
      split at position
      · cases position
        exact ⟨column, rfl⟩
      · split at position
        · cases position
          exact ⟨by dsimp only; omega, rfl⟩
        · cases position
    obtain ⟨lead, found⟩ := sound.leadAt_some inside.1 (inside.2 ▸ sound.row)
    rw [found] at lost
    cases lost
  · rw [extended]
    refine sound.extendAt pos.2 (sound.leadAt_inside found) lead.2 _ (.inr ?_)
    rintro ⟨one, wraps, two⟩
    exact room ⟨one, wraps, pos, position, lead, found, joins, two⟩

end Extend

end Uniterm.Model.Terminal
