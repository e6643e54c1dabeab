import Uniterm.Soundness.Grid.Shape

/-! # What editing leaves alone

No editing operation interns a colour or a link, and none gives a history to a grid that may not have one.
-/

namespace Uniterm.Model.Grid

/-- The arenas of colours and links are the same, and a grid without history stays without one. -/
structure Frames (g g' : Grid) : Prop where
  colors : g'.underlineColors = g.underlineColors
  links : g'.hyperlinks = g.hyperlinks
  limit : g'.scrollbackLimit = g.scrollbackLimit
  history : g.scrollbackLimit = 0 → g.scrollback = [] → g'.scrollback = []

variable {g g' g'' : Grid} {build : Build}

theorem Frames.refl (g : Grid) : Frames g g := ⟨rfl, rfl, rfl, fun _ none => none⟩

theorem Frames.trans (first : Frames g g') (second : Frames g' g'') : Frames g g'' where
  colors := second.colors.trans first.colors
  links := second.links.trans first.links
  limit := second.limit.trans first.limit
  history bounded none := second.history (first.limit.trans bounded) (first.history bounded none)

section Cells

private theorem set_frames (g : Grid) (x y : ℕ) (cell : Cell) : Frames g (g.set x y cell) := by
  rw [set_frame]
  exact ⟨rfl, rfl, rfl, fun _ none => none⟩

theorem Rewrites.frames {y : ℕ} {blank : Cell} (rewrites : Rewrites y blank g g') : Frames g g' :=
  rewrites.keeps (Frames g) (fun _ x before => before.trans (set_frames _ x y blank))
    (fun _ x _ before => before.trans (set_frames _ x y _)) (.refl g)

theorem setRowWrapped_frames (g : Grid) (y : ℕ) (wrapped : Bool) : Frames g (g.setRowWrapped y wrapped) :=
  ⟨rfl, rfl, rfl, fun _ none => none⟩

private theorem intern_frames (g : Grid) (text : Text) : Frames g (g.intern text).1 := by
  unfold intern
  split
  · exact .refl g
  · dsimp only
    split
    · exact ⟨rfl, rfl, rfl, fun _ none => by simp [compactClusters, none]⟩
    · exact ⟨rfl, rfl, rfl, fun _ none => none⟩

private theorem textHandle_frames (g : Grid) (text : Text) : Frames g (g.textHandle text).1 := by
  unfold textHandle
  split
  · exact intern_frames g text
  · exact .refl g

private theorem writeGlyph_frames (g : Grid) (x y : ℕ) (lead : Cell) : Frames g (g.writeGlyph x y lead) := by
  unfold writeGlyph
  dsimp only
  split
  · exact (set_frames ..).trans (set_frames ..)
  · exact set_frames ..

theorem setGrapheme_frames (g : Grid) (x y : ℕ) (text : Text) (cell : Cell) (width : ℕ) :
    Frames g (g.setGrapheme x y text cell width) := by
  unfold setGrapheme
  dsimp only
  split
  · exact .refl g
  split
  · exact .refl g
  · have cleared := (clearColumns_rewrites g x y (max 1 (min width 2)) { fg := cell.fg, bg := cell.bg }).frames
    exact (cleared.trans (textHandle_frames _ text)).trans (writeGlyph_frames ..)

end Cells

section Lines

private theorem markRowsDamaged_frames (g : Grid) (top bottom : ℕ) : Frames g (g.markRowsDamaged top bottom) := by
  rw [markRowsDamaged_frame]
  exact ⟨rfl, rfl, rfl, fun _ none => none⟩

theorem clearScrollback_frames (g : Grid) : Frames g g.clearScrollback := ⟨rfl, rfl, rfl, fun _ _ => rfl⟩

private theorem pushScrollback_frames (g : Grid) (departing : Line) : Frames g (g.pushScrollback departing) := by
  unfold pushScrollback
  split
  · exact .refl g
  next bound => exact ⟨rfl, rfl, rfl, fun bounded => absurd bounded bound⟩

private theorem scrollUp_frames (g : Grid) (blank : Cell) : Frames g (g.scrollUp blank) := by
  unfold scrollUp
  split
  · exact .refl g
  next departing rest _ =>
    refine Frames.trans ?_ (markRowsDamaged_frames ..)
    have pushed := pushScrollback_frames { g with nextLineId := g.nextLineId + 1, lines := rest }
      departing.trimDefaultTail
    exact ⟨pushed.colors, pushed.links, pushed.limit, pushed.history⟩

theorem scrollRegionUpInner_frames (g : Grid) (top bottom : ℕ) (blank : Cell) (preserveHistory : Bool) :
    Frames g (g.scrollRegionUpInner top bottom blank preserveHistory) := by
  unfold scrollRegionUpInner
  split
  · exact .refl g
  split
  · exact scrollUp_frames g blank
  · refine Frames.trans ?_ (markRowsDamaged_frames ..)
    have removed : Frames g { g with lines := g.lines.eraseIdx top } := ⟨rfl, rfl, rfl, fun _ none => none⟩
    have pushed : Frames g (if preserveHistory then
        ((g.lines[top]?).map ({ g with lines := g.lines.eraseIdx top } : Grid).pushScrollback).getD
          { g with lines := g.lines.eraseIdx top }
        else { g with lines := g.lines.eraseIdx top }) := by
      split
      · cases g.lines[top]? with
        | none => exact removed
        | some departing => exact removed.trans (pushScrollback_frames _ departing)
      · exact removed
    exact ⟨pushed.colors, pushed.links, pushed.limit, pushed.history⟩

theorem scrollRegionDown_frames (g : Grid) (top bottom : ℕ) (blank : Cell) :
    Frames g (g.scrollRegionDown top bottom blank) := by
  unfold scrollRegionDown
  split
  · exact .refl g
  · refine Frames.trans ?_ (markRowsDamaged_frames ..)
    exact ⟨rfl, rfl, rfl, fun _ none => none⟩

/-- A resize interns nothing either. -/
theorem resizeReflow_arenas (u : Unicode) (g : Grid) (width height : ℕ) (blank : Cell) (cursor : ℕ × ℕ)
    (pending : Bool) :
    (g.resizeReflow u width height blank cursor pending).1.underlineColors = g.underlineColors ∧
      (g.resizeReflow u width height blank cursor pending).1.hyperlinks = g.hyperlinks := by
  have pushed (rows : List Line) (g : Grid) : Frames g
      (rows.foldl (fun (g : Grid) line => g.pushScrollback line.trimDefaultTail) g) := by
    induction rows generalizing g with
    | nil => exact .refl g
    | cons row rows ih => exact (pushScrollback_frames g _).trans (ih _)
  unfold resizeReflow
  dsimp only
  split
  · exact ⟨rfl, rfl⟩
  split
  · unfold growHeight
    rw [markAllDamaged_frame]
    exact ⟨rfl, rfl⟩
  split
  · unfold shrinkHeight
    rw [markAllDamaged_frame]
    have shrunk := pushed (g.lines.take (g.height - max height 1))
      { g with lines := g.lines.drop (g.height - max height 1) }
    exact ⟨shrunk.colors, shrunk.links⟩
  · unfold reflowWidth install
    dsimp only
    rw [markAllDamaged_frame]
    exact ⟨rfl, rfl⟩

end Lines

section Interning

theorem getElem?_of_idxOf? {α : Type} [BEq α] [LawfulBEq α] {entries : List α} {entry : α} {i : ℕ}
    (found : entries.idxOf? entry = some i) : entries[i]? = some entry := by
  obtain ⟨bound, same, -⟩ := List.idxOf?_eq_some_iff.mp found
  exact List.getElem?_eq_some_iff.mpr ⟨bound, same⟩

/-- Interning finds the colour, gives up, or adds it at the end, in the arena as it is or compacted. -/
theorem internUnderlineColor_cases (g : Grid) (color : Color) :
    ∃ roomy, (roomy = g ∨ roomy = g.compactUnderlineColors) ∧
      ((∃ handle, roomy.underlineColors[handle]? = some color ∧
          g.internUnderlineColor color = (roomy, handle)) ∨
        g.internUnderlineColor color = (roomy, 0) ∨
        g.internUnderlineColor color =
          ({ roomy with underlineColors := roomy.underlineColors ++ [color] },
            roomy.underlineColors.length)) := by
  unfold internUnderlineColor
  split
  · exact ⟨g, .inl rfl, .inr (.inl rfl)⟩
  split
  next handle found => exact ⟨g, .inl rfl, .inl ⟨handle, getElem?_of_idxOf? found, rfl⟩⟩
  · have roomy_cases : (if g.underlineColors.length = 256 then g.compactUnderlineColors else g) = g ∨
        (if g.underlineColors.length = 256 then g.compactUnderlineColors else g) = g.compactUnderlineColors := by
      split
      · exact .inr rfl
      · exact .inl rfl
    dsimp only
    generalize (if g.underlineColors.length = 256 then g.compactUnderlineColors else g) = roomy at roomy_cases
    refine ⟨roomy, roomy_cases, ?_⟩
    split
    next handle found => exact .inl ⟨handle, getElem?_of_idxOf? found, rfl⟩
    · split
      · exact .inr (.inl rfl)
      · exact .inr (.inr rfl)

/-- The handle given to a colour resolves to it, unless the arena is full. -/
theorem internUnderlineColor_resolves (g : Grid) (color : Color) :
    (g.internUnderlineColor color).2 = 0 ∨
      (g.internUnderlineColor color).1.underlineColors[(g.internUnderlineColor color).2]? = some color := by
  obtain ⟨roomy, -, ⟨handle, found, done⟩ | done | done⟩ := g.internUnderlineColor_cases color
  · rw [done]
    exact .inr found
  · rw [done]
    exact .inl rfl
  · rw [done]
    exact .inr List.getElem?_concat_length

/-- Interning a colour leaves the links, and gives no history. -/
theorem internUnderlineColor_rest (g : Grid) (color : Color) :
    (g.internUnderlineColor color).1.hyperlinks = g.hyperlinks ∧
      (g.internUnderlineColor color).1.scrollbackLimit = g.scrollbackLimit ∧
        (g.scrollback = [] → (g.internUnderlineColor color).1.scrollback = []) := by
  obtain ⟨roomy, same | same, ⟨handle, -, done⟩ | done | done⟩ := g.internUnderlineColor_cases color
  all_goals
    rw [done, same]
    exact ⟨rfl, rfl, fun none => by simp [compactUnderlineColors, none]⟩

/-- Interning a link leaves the colours and the history. -/
theorem internHyperlink_rest (g : Grid) (uri : Text) :
    (g.internHyperlink uri).1.underlineColors = g.underlineColors ∧
      (g.internHyperlink uri).1.scrollbackLimit = g.scrollbackLimit ∧
        (g.internHyperlink uri).1.scrollback = g.scrollback := by
  unfold internHyperlink
  split
  · exact ⟨rfl, rfl, rfl⟩
  split
  · exact ⟨rfl, rfl, rfl⟩
  · dsimp only
    split <;> exact ⟨rfl, rfl, rfl⟩

/-- The handle given to a link resolves to it. -/
theorem internHyperlink_resolves (g : Grid) (uri : Text) :
    (g.internHyperlink uri).2 = 0 ∨
      (g.internHyperlink uri).1.hyperlinks[(g.internHyperlink uri).2]? = some uri := by
  unfold internHyperlink
  split
  · exact .inl rfl
  split
  next handle value found =>
    refine .inr ?_
    have matched : value = uri := by simpa using List.find?_some found
    rw [← matched]
    exact Std.ExtTreeMap.mem_toList_iff_getElem?_eq_some.mp (List.mem_of_find?_eq_some found)
  · exact .inr Std.ExtTreeMap.getElem?_insert_self

end Interning

end Uniterm.Model.Grid
