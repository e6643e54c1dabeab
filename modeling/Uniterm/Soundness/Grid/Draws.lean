import Uniterm.Soundness.Grid.Frames
import Uniterm.Soundness.Grid.Tidy

/-! # What an action draws

Every action that edits cells is a sequence of a few operations of the grid, with blanks of one column and glyphs
as wide as the tables say. What these operations keep, the actions keep.
-/

namespace Uniterm.Model

open Machine

/-- The tables give a space more than one column. -/
def Unicode.WideSpace (u : Unicode) : Prop := 2 ≤ (u.charWidth ' ').getD 0 ∨ 2 ≤ u.glyphWidth [' ']

namespace Grid

/-- A glyph that is a space is one column wide, unless the tables say otherwise. -/
def Measured (u : Unicode) (text : Text) (width : ℕ) : Prop :=
  text.length ≤ 1 → text.headD ' ' = ' ' → width ≤ 1 ∨ u.WideSpace

/-- One operation that an action calls on the grid that is shown. -/
inductive Draw (u : Unicode) : Grid → Grid → Prop
  | rewrites {g g' : Grid} {y : ℕ} {blank : Cell} (plain : Plain blank) (rewrites : Rewrites y blank g g') : Draw u g g'
  | setRowWrapped (g : Grid) (y : ℕ) (wrapped : Bool) : Draw u g (g.setRowWrapped y wrapped)
  | setGrapheme (g : Grid) (x y : ℕ) (text : Text) (cell : Cell) (width : ℕ) (glyph : Measured u text width) :
      Draw u g (g.setGrapheme x y text cell width)
  | scrollRegionUpInner (g : Grid) (top bottom : ℕ) {blank : Cell} (plain : Plain blank) (preserve : Bool) :
      Draw u g (g.scrollRegionUpInner top bottom blank preserve)
  | scrollRegionDown (g : Grid) (top bottom : ℕ) {blank : Cell} (plain : Plain blank) :
      Draw u g (g.scrollRegionDown top bottom blank)
  | clearScrollback (g : Grid) : Draw u g g.clearScrollback

abbrev Draws (u : Unicode) : Grid → Grid → Prop := Relation.ReflTransGen (Draw u)

variable {u : Unicode} {g g' : Grid}

theorem Draw.frames (draw : Draw u g g') : Frames g g' := by
  cases draw with
  | rewrites _ rewrites => exact rewrites.frames
  | setRowWrapped y wrapped => exact setRowWrapped_frames ..
  | setGrapheme x y text cell width => exact setGrapheme_frames ..
  | scrollRegionUpInner top bottom _ preserve => exact scrollRegionUpInner_frames ..
  | scrollRegionDown top bottom => exact scrollRegionDown_frames ..
  | clearScrollback => exact clearScrollback_frames g

theorem Draws.frames (draws : Draws u g g') : Frames g g' := by
  induction draws with
  | refl => exact .refl g
  | tail _ draw ih => exact ih.trans draw.frames

theorem clearGlyphAt_draws (g : Grid) (x y : ℕ) {blank : Cell} (plain : Plain blank) :
    Draws u g (g.clearGlyphAt x y blank) := .single (.rewrites plain (clearGlyphAt_rewrites g x y blank))

theorem insertCells_draws (g : Grid) (y first count : ℕ) {blank : Cell} (plain : Plain blank) :
    Draws u g (g.insertCells y first count blank) := .single (.rewrites plain (insertCells_rewrites g y first count blank))

theorem setRowWrapped_draws (g : Grid) (y : ℕ) (wrapped : Bool) : Draws u g (g.setRowWrapped y wrapped) :=
  .single (.setRowWrapped g y wrapped)

theorem setGrapheme_draws (g : Grid) (x y : ℕ) {text : Text} (cell : Cell) {width : ℕ} (glyph : Measured u text width) :
    Draws u g (g.setGrapheme x y text cell width) := .single (.setGrapheme g x y text cell width glyph)

theorem scrollRegionUpInner_draws (g : Grid) (top bottom : ℕ) {blank : Cell} (plain : Plain blank) (preserve : Bool) :
    Draws u g (g.scrollRegionUpInner top bottom blank preserve) := .single (.scrollRegionUpInner g top bottom plain preserve)

theorem scrollRegionDown_draws (g : Grid) (top bottom : ℕ) {blank : Cell} (plain : Plain blank) :
    Draws u g (g.scrollRegionDown top bottom blank) := .single (.scrollRegionDown g top bottom plain)

/-- A text that ends with a character is one glyph of the width that the tables give it. -/
theorem measured_append (u : Unicode) (text : Text) (c : Char) : Measured u (text ++ [c]) (u.glyphWidth (text ++ [c])) := by
  intro short space
  rw [List.length_append, List.length_singleton] at short
  obtain rfl := List.eq_nil_of_length_eq_zero (by omega : text.length = 0)
  obtain rfl : c = ' ' := space
  rw [List.nil_append]
  rcases Nat.lt_or_ge (u.glyphWidth [' ']) 2 with narrow | wide
  · exact .inl (by omega)
  · exact .inr (.inr wide)

theorem appendToGrapheme_draws (u : Unicode) (g : Grid) (x y : ℕ) (ch : Char) :
    Draws u g (g.appendToGrapheme u x y ch).1 := by
  unfold appendToGrapheme
  dsimp only
  generalize (if (g.get x y).isContinuation = true ∧ x > 0 then x - 1 else x) = leadX
  split
  · exact .refl
  split
  · exact setGrapheme_draws g leadX y _ (measured_append u _ ch)
  · exact .refl

end Grid

end Uniterm.Model
