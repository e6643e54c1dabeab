import Uniterm.Soundness.Grid.Frames
import Uniterm.Soundness.Grid.Resolve

/-! # Renumbering the underline colours

A full arena of colours is rebuilt from the retained cells. Every cell gets a new handle, and resolves to the
colour that it had.
-/

namespace Uniterm.Model.Grid

open ToMathlib

/-- A line as a client sees it: its resolved cells, whether it continues, and its id. -/
def shownLine (g : Grid) (line : Line) : List Resolved × Bool × ℕ :=
  (line.cells.map g.resolve, line.wrapped, line.id)

/-- Two grids show the same screen and the same history. -/
structure ShowsSame (g g' : Grid) : Prop where
  lines : g'.lines.map g'.shownLine = g.lines.map g.shownLine
  scrollback : g'.scrollback.map g'.shownLine = g.scrollback.map g.shownLine

theorem ShowsSame.refl (g : Grid) : ShowsSame g g := ⟨rfl, rfl⟩

theorem ShowsSame.trans {g g' g'' : Grid} (first : ShowsSame g g') (second : ShowsSame g' g'') : ShowsSame g g'' :=
  ⟨second.lines.trans first.lines, second.scrollback.trans first.scrollback⟩

/-- Damage is not part of the picture. -/
theorem markAllDamaged_shows (g : Grid) : ShowsSame g g.markAllDamaged := by
  rw [markAllDamaged_frame]
  exact ⟨rfl, rfl⟩

/-- A cell kept everything but its handle, which names the same colour in the new arena. -/
structure Recoloured (old new : List Color) (c c' : Cell) : Prop where
  same : c' = { c with underlineColor := c'.underlineColor }
  color : (new[c'.underlineColor]?).getD .default = (old[c.underlineColor]?).getD .default
  valid : c'.underlineColor < new.length

theorem Recoloured.append {old new : List Color} {c c' : Cell} (recoloured : Recoloured old new c c')
    (more : List Color) : Recoloured old (new ++ more) c c' where
  same := recoloured.same
  color := by rw [List.getElem?_append_left recoloured.valid, recoloured.color]
  valid := by
    rw [List.length_append]
    exact Nat.lt_add_right _ recoloured.valid

/-- One step of the compaction appends at most one colour and renumbers its cell. -/
theorem compactUnderlineCell_recoloured {old colors : List Color} (first : (old[0]?).getD .default = .default)
    (fresh : colors[0]? = some .default) (c : Cell) :
    (∃ more, (compactUnderlineCell old colors c).1 = colors ++ more) ∧
      Recoloured old (compactUnderlineCell old colors c).1 c (compactUnderlineCell old colors c).2 := by
  have nonempty : 0 < colors.length := (List.getElem?_eq_some_iff.mp fresh).1
  unfold compactUnderlineCell
  split
  next unset =>
    refine ⟨⟨[], (List.append_nil _).symm⟩, rfl, ?_, unset.trans_lt nonempty⟩
    rw [unset, fresh, first, Option.getD_some]
  split
  next lost =>
    refine ⟨⟨[], (List.append_nil _).symm⟩, rfl, ?_, nonempty⟩
    rw [lost, fresh, Option.getD_some, Option.getD_none]
  next color held =>
    split
    next i found =>
      obtain ⟨bound, same, -⟩ := List.findIdx?_eq_some_iff_getElem.mp found
      have stored : colors[i + 1]? = some color := by
        rw [← List.getElem?_tail, List.getElem?_eq_getElem bound, beq_iff_eq.mp same]
      refine ⟨⟨[], (List.append_nil _).symm⟩, rfl, ?_, (List.getElem?_eq_some_iff.mp stored).1⟩
      rw [stored, held]
    · refine ⟨⟨[color], rfl⟩, rfl, ?_, by simp⟩
      rw [List.getElem?_concat_length, held]

/-- What rewriting one cell establishes and keeps, rewriting every cell of every line establishes. -/
theorem rewriteCells_forall₂ {σ : Type} {f : σ → Cell → σ × Cell} (inv : σ → Prop) (rel : σ → Cell → Cell → Prop)
    (keeps : ∀ s c, inv s → inv (f s c).1) (establishes : ∀ s c, inv s → rel (f s c).1 c (f s c).2)
    (stable : ∀ s c a b, inv s → rel s a b → rel (f s c).1 a b) {s : σ} (start : inv s) (lines : List Line) :
    inv (rewriteCells f s lines).1 ∧
      List.Forall₂ (fun l l' => List.Forall₂ (rel (rewriteCells f s lines).1) l.cells l'.cells ∧
        l'.wrapped = l.wrapped ∧ l'.id = l.id) lines (rewriteCells f s lines).2 := by
  have row {s : σ} (held : inv s) (cells : List Cell) := mapAccum_forall₂ inv rel keeps establishes stable cells held
  obtain ⟨final, all, -⟩ := mapAccum_forall₂
    (f := fun s (line : Line) =>
      ((mapAccum f s line.cells).1, ({ line with cells := (mapAccum f s line.cells).2 } : Line)))
    inv (fun s l l' => List.Forall₂ (rel s) l.cells l'.cells ∧ l'.wrapped = l.wrapped ∧ l'.id = l.id)
    (fun s line held => (row held line.cells).1)
    (fun s line held => ⟨(row held line.cells).2.1, rfl, rfl⟩)
    (fun s line l l' held related =>
      ⟨related.1.imp fun a b => (row held line.cells).2.2 a b, related.2⟩)
    lines start
  exact ⟨final, all⟩

/-- The lines of two grids agree up to the handles of their colours. -/
def Renumbered (g g' : Grid) : Prop :=
  List.Forall₂ (fun l l' => List.Forall₂ (Recoloured g.underlineColors g'.underlineColors) l.cells l'.cells ∧
    l'.wrapped = l.wrapped ∧ l'.id = l.id) (g.scrollback ++ g.lines) (g'.scrollback ++ g'.lines)

/-- Compaction renumbers the picture, when handle zero stands for the default colour. -/
theorem compactUnderlineColors_renumbered {g : Grid} (first : (g.underlineColors[0]?).getD .default = .default) :
    g.compactUnderlineColors.underlineColors[0]? = some .default ∧ Renumbered g g.compactUnderlineColors := by
  have all := rewriteCells_forall₂ (f := compactUnderlineCell g.underlineColors)
    (fun colors => colors[0]? = some .default) (Recoloured g.underlineColors)
    (fun colors c fresh => by
      obtain ⟨more, grown⟩ := (compactUnderlineCell_recoloured first fresh c).1
      rw [grown, List.getElem?_append_left (List.getElem?_eq_some_iff.mp fresh).1, fresh])
    (fun colors c fresh => (compactUnderlineCell_recoloured first fresh c).2)
    (fun colors c a b fresh related => by
      obtain ⟨more, grown⟩ := (compactUnderlineCell_recoloured first fresh c).1
      rw [grown]
      exact related.append more)
    (s := [.default]) rfl (g.scrollback ++ g.lines)
  unfold Renumbered compactUnderlineColors
  dsimp only
  rw [List.take_append_drop]
  exact all

/-- A colour appended to the new arena changes no handle. -/
theorem Renumbered.append {g g' : Grid} (renumbered : Renumbered g g') (more : List Color) :
    Renumbered g { g' with underlineColors := g'.underlineColors ++ more } :=
  renumbered.imp fun _ _ line => ⟨line.1.imp fun _ _ cell => cell.append more, line.2⟩

theorem Renumbered.shows {g g' : Grid} (renumbered : Renumbered g g')
    (history : g'.scrollback.length = g.scrollback.length) (clusters : g'.clusters = g.clusters)
    (links : g'.hyperlinks = g.hyperlinks) : ShowsSame g g' := by
  have line (l l' : Line) (related : List.Forall₂ (Recoloured g.underlineColors g'.underlineColors) l.cells l'.cells ∧
      l'.wrapped = l.wrapped ∧ l'.id = l.id) : g.shownLine l = g'.shownLine l' := by
    have cells := map_eq_of_forall₂ _ (f := g.resolve) (g := g'.resolve) (fun c c' cell => ?_) related.1
    · rw [shownLine, shownLine, cells, related.2.1, related.2.2]
    · rw [cell.same]
      simp only [resolve, cellTextOwned, underlineColor, hyperlink, clusters, links, cell.color]
      rfl
  have all := map_eq_of_forall₂ _ line renumbered
  rw [List.map_append, List.map_append] at all
  obtain ⟨scrollback, lines⟩ := List.append_inj all (by rw [List.length_map, List.length_map, history])
  exact ⟨lines.symm, scrollback.symm⟩

/-- The arena holds the colour already, or has to be compacted to take it. -/
def Steady (g : Grid) (color : Color) : Prop :=
  color = .default ∨ color ∈ g.underlineColors ∨ g.underlineColors.length = 256

theorem internUnderlineColor_steady (g : Grid) (color : Color) :
    (g.internUnderlineColor color).1.Steady color := by
  unfold internUnderlineColor
  split
  next unset => exact .inl unset
  split
  next handle found => exact .inr (.inl (List.mem_of_getElem? (getElem?_of_idxOf? found)))
  · dsimp only
    generalize (if g.underlineColors.length = 256 then g.compactUnderlineColors else g) = roomy
    split
    next handle found => exact .inr (.inl (List.mem_of_getElem? (getElem?_of_idxOf? found)))
    split
    next full => exact .inr (.inr full)
    · exact .inr (.inl (List.mem_append_right _ (List.mem_singleton.mpr rfl)))

/-- Interning a steady colour shows the same picture, and keeps the default colour first. -/
theorem Steady.shows {g : Grid} {color : Color} (steady : g.Steady color)
    (first : g.underlineColors[0]? = some .default) : ShowsSame g (g.internUnderlineColor color).1 := by
  unfold internUnderlineColor
  split
  · exact .refl g
  next named =>
  split
  · exact .refl g
  next missing =>
    have full : g.underlineColors.length = 256 := by
      obtain unset | held | full := steady
      · exact absurd unset named
      · exact absurd held (List.idxOf?_eq_none_iff.mp missing)
      · exact full
    have renumbered := (compactUnderlineColors_renumbered (g := g) (by rw [first]; rfl)).2
    have history : g.compactUnderlineColors.scrollback.length = g.scrollback.length := by
      unfold compactUnderlineColors rewriteCells
      dsimp only
      rw [List.length_take, length_mapAccum, List.length_append]
      omega
    rw [if_pos full]
    dsimp only
    split
    · exact renumbered.shows history rfl rfl
    split
    · exact renumbered.shows history rfl rfl
    · exact (renumbered.append [color]).shows history rfl rfl

theorem internUnderlineColor_first {g : Grid} (first : g.underlineColors[0]? = some .default) (color : Color) :
    (g.internUnderlineColor color).1.underlineColors[0]? = some .default := by
  obtain ⟨roomy, same, stored⟩ := g.internUnderlineColor_cases color
  have before : roomy.underlineColors[0]? = some .default := by
    obtain rfl | rfl := same
    · exact first
    · exact (compactUnderlineColors_renumbered (by rw [first]; rfl)).1
  obtain ⟨handle, -, done⟩ | done | done := stored
  · rw [done]
    exact before
  · rw [done]
    exact before
  · rw [done, List.getElem?_append_left (List.getElem?_eq_some_iff.mp before).1]
    exact before

end Uniterm.Model.Grid
