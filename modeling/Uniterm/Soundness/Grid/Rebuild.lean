import Mathlib.Data.List.Perm.Subperm
import Uniterm.Machine.Run
import Uniterm.Soundness.Grid.Reference

/-! # Rebuilding a grid from stored rows

The reference reflow interns the texts and colours of the stored rows into fresh arenas. A colour
arena with room for the whole palette never has to be compacted. Compacting the grapheme arena
renumbers the rows placed so far but not the row under construction, so the rebuilt rows show what
was stored as long as no compaction comes while that row already names a grapheme.
-/

namespace Uniterm.Model.Grid

open ToMathlib Machine

/-- A row of glyphs, each wide one followed by its continuation, in colours of a palette. -/
inductive Blocks (palette : List Color) : List StoredCell → Prop
  | nil : Blocks palette []
  | narrow {c : StoredCell} {rest : List StoredCell} (width : c.width = 1)
      (leads : c.continuation = false) (text : c.text ≠ []) (color : c.underlineColor ∈ palette)
      (later : Blocks palette rest) : Blocks palette (c :: rest)
  | wide {c : StoredCell} {rest : List StoredCell} (width : c.width = 2)
      (leads : c.continuation = false) (text : c.text ≠ []) (color : c.underlineColor ∈ palette)
      (later : Blocks palette rest) :
      Blocks palette (c :: { c with text := [], width := 0, continuation := true } :: rest)

section Colors

variable {g : Grid} {palette : List Color}

/-- The colours interned so far are distinct and come from a palette that fits the arena. -/
structure InPalette (palette : List Color) (g : Grid) : Prop where
  room : palette.length ≤ 256
  first : g.DefaultFirst
  distinct : g.underlineColors.Nodup
  subset : g.underlineColors ⊆ palette

theorem underlineColor_append {h : ℕ} (inside : h < g.underlineColors.length) (more : List Color) :
    Grid.underlineColor { g with underlineColors := g.underlineColors ++ more } h =
      g.underlineColor h := by
  unfold Grid.underlineColor
  rw [List.getElem?_append_left inside]

/-- Interning a colour of the palette at most appends it. -/
theorem InPalette.intern (colors : InPalette palette g) {color : Color} (known : color ∈ palette) :
    ∃ more, (g.internUnderlineColor color).1 =
        { g with underlineColors := g.underlineColors ++ more } ∧
      InPalette palette (g.internUnderlineColor color).1 ∧
      (g.internUnderlineColor color).1.underlineColors[(g.internUnderlineColor color).2]? =
        some color := by
  have same : g = { g with underlineColors := g.underlineColors ++ [] } := by rw [List.append_nil]
  unfold internUnderlineColor
  split
  · next default =>
    subst default
    exact ⟨[], same, colors, colors.first⟩
  split
  · next handle found =>
    refine ⟨[], same, colors, ?_⟩
    obtain ⟨bound, equal, _⟩ := List.findIdx?_eq_some_iff_getElem.mp found
    rw [List.getElem?_eq_getElem bound, beq_iff_eq.mp equal]
  · next absent =>
    have fresh : color ∉ g.underlineColors := List.idxOf?_eq_none_iff.mp absent
    have distinct : (g.underlineColors ++ [color]).Nodup := by
      rw [List.nodup_append]
      refine ⟨colors.distinct, by simp, fun c member d last => ?_⟩
      rw [List.mem_singleton.mp last]
      rintro rfl
      exact fresh member
    have subset : g.underlineColors ++ [color] ⊆ palette := by
      intro c member
      rcases List.mem_append.mp member with old | last
      · exact colors.subset old
      · rw [List.mem_singleton.mp last]
        exact known
    have bound := (List.subperm_of_subset distinct subset).length_le
    rw [List.length_append, List.length_singleton] at bound
    have room := colors.room
    have free : ¬g.underlineColors.length = 256 := by omega
    dsimp only
    rw [if_neg free, absent]
    dsimp only
    rw [if_neg free]
    refine ⟨[color], rfl, ⟨room, ?_, distinct, subset⟩, ?_⟩
    · have first := colors.first
      unfold DefaultFirst at first ⊢
      rw [List.getElem?_append_left (List.getElem?_eq_some_iff.mp first).1, first]
    · rw [List.getElem?_append_right le_rfl, Nat.sub_self, List.getElem?_cons_zero]

end Colors

section Rows

variable {g : Grid} {palette : List Color} {size : ℕ × ℕ × ℕ × ℕ} {rows : List StoredLine}

/-- The retained lines, with their handles resolved. -/
def shownLines (g : Grid) (lines : List Line) : List StoredLine :=
  lines.map fun line => { cells := line.cells.map g.storeCell, wrapped := line.wrapped }

/-- A cell whose handles the arenas hold. -/
structure Held (g : Grid) (c : Cell) : Prop where
  cluster : c.cluster < g.clusters.length
  underline : c.underlineColor < g.underlineColors.length

/-- The size of a grid, and of its history and screen. -/
def extents (g : Grid) : ℕ × ℕ × ℕ × ℕ := (g.width, g.height, g.scrollback.length, g.lines.length)

/-- The lines rebuilt so far show the stored rows. -/
structure Rebuilt (palette : List Color) (size : ℕ × ℕ × ℕ × ℕ) (g : Grid) (rows : List StoredLine) :
    Prop where
  colors : InPalette palette g
  size : g.extents = size
  empty : g.clusters[0]? = some []
  held : ∀ line ∈ g.scrollback ++ g.lines, ∀ c ∈ line.cells, Held g c
  shows : g.shownLines (g.scrollback ++ g.lines) = rows

/-- The arenas changed, and the given cells did not notice. -/
structure Carries (g g' : Grid) (cells : List Cell) : Prop where
  width : g'.width = g.width
  held : ∀ c ∈ cells, Held g c → Held g' c
  shows : ∀ c ∈ cells, Held g c → g'.storeCell c = g.storeCell c

private theorem storeCell_of_resolve {g g' : Grid} {c c' : Cell} (same : g'.resolve c' = g.resolve c) :
    g'.storeCell c' = g.storeCell c := by
  have shown (g : Grid) (c : Cell) : g.storeCell c =
      { text := (g.resolve c).text, fg := (g.resolve c).fg, bg := (g.resolve c).bg
        attrs := (g.resolve c).attrs, underlineColor := (g.resolve c).underline
        width := (g.resolve c).width, continuation := (g.resolve c).width == 0 } := rfl
  rw [shown, shown, same]

/-- Interning a colour carries every cell. -/
theorem Rebuilt.internColor (rebuilt : Rebuilt palette size g rows) {color : Color}
    (known : color ∈ palette) (cells : List Cell) :
    Rebuilt palette size (g.internUnderlineColor color).1 rows ∧
      Carries g (g.internUnderlineColor color).1 cells ∧
      (g.internUnderlineColor color).1.underlineColors[(g.internUnderlineColor color).2]? =
        some color ∧
      (g.internUnderlineColor color).1.clusters = g.clusters ∧
      (g.internUnderlineColor color).1.clusterGcAt = g.clusterGcAt := by
  obtain ⟨more, grown, colors, found⟩ := rebuilt.colors.intern known
  generalize g.internUnderlineColor color = result at grown colors found ⊢
  obtain ⟨g', handle⟩ := result
  dsimp only at grown colors found ⊢
  subst grown
  have held (c : Cell) (before : Held g c) :
      Held { g with underlineColors := g.underlineColors ++ more } c :=
    ⟨before.cluster, by rw [List.length_append]; exact Nat.lt_add_right _ before.underline⟩
  have shows (c : Cell) (before : Held g c) :
      Grid.storeCell { g with underlineColors := g.underlineColors ++ more } c = g.storeCell c := by
    unfold storeCell
    rw [underlineColor_append before.underline]
    rfl
  refine ⟨⟨colors, rebuilt.size, rebuilt.empty,
    fun line member c inside => held c (rebuilt.held line member c inside), ?_⟩, ⟨rfl, fun c _ => held c, fun c _ => shows c⟩, found, rfl, rfl⟩
  rw [← rebuilt.shows]
  refine List.map_congr_left fun line member => ?_
  congr 1
  exact List.map_congr_left fun c inside => shows c (rebuilt.held line member c inside)

/-- Interning the text would compact the grapheme arena. -/
def InternCompacts (g : Grid) (text : Text) : Prop :=
  g.recentCluster text = none ∧ g.clusters.length ≥ g.clusterGcAt

/-- The three ways to intern: a recent text, a free entry, or a compacted arena. -/
theorem intern_cases (g : Grid) (text : Text) :
    (∃ handle, g.intern text = (g, handle)) ∨
    g.intern text = ({ g with clusters := g.clusters ++ [text] }, g.clusters.length) ∨
    g.InternCompacts text ∧ g.intern text =
      ({ g.compactClusters with clusters := g.compactClusters.clusters ++ [text] },
        g.compactClusters.clusters.length) := by
  unfold Grid.intern
  cases found : g.recentCluster text with
  | some handle => exact .inl ⟨handle, rfl⟩
  | none =>
    dsimp only
    split
    · next full => exact .inr (.inr ⟨⟨found, full⟩, rfl⟩)
    · exact .inr (.inl rfl)

/-- A compacted arena starts with the empty text. -/
theorem compactClusters_empty (g : Grid) : g.compactClusters.clusters[0]? = some [] := by
  have cell (clusters : List Text) (c : Cell) (first : clusters[0]? = some []) :
      (compactClusterCell g.clusters clusters c).1[0]? = some [] := by
    have grown (text : Text) : (clusters ++ [text])[0]? = some [] := by
      rw [List.getElem?_append_left (List.getElem?_eq_some_iff.mp first).1, first]
    unfold compactClusterCell
    split
    · exact first
    split
    · exact first
    split
    · exact first
    · exact grown _
  refine mapAccum_state (fun s : List Text => s[0]? = some []) (fun s line first => ?_) _ rfl
  exact mapAccum_state (fun s : List Text => s[0]? = some []) cell line.cells first

theorem SameView.shownLines {g' : Grid} (same : SameView g g') :
    g'.shownLines (g'.scrollback ++ g'.lines) = g.shownLines (g.scrollback ++ g.lines) := by
  have all := List.rel_append same.scrollback same.lines
  refine (map_eq_of_forall₂ _ (fun line line' carried => ?_) all).symm
  have cells : line.cells.map g.storeCell = line'.cells.map g'.storeCell :=
    map_eq_of_forall₂ (Carried g.clusters g'.clusters)
      (fun c c' cell => (storeCell_of_resolve (same.resolve_eq cell)).symm) carried.cells
  rw [cells, carried.wrapped]

/-- Interning a grapheme carries the rebuilt lines, and all cells unless it compacts the arena. -/
theorem Rebuilt.intern (rebuilt : Rebuilt palette size g rows) {text : Text} (some : text ≠ [])
    {cells : List Cell} (guarded : g.InternCompacts text → ∀ c ∈ cells, c.cluster = 0) :
    Rebuilt palette size (g.intern text).1 rows ∧ Carries g (g.intern text).1 cells ∧
      (g.intern text).1.clusters[(g.intern text).2]? = Option.some text ∧ (g.intern text).2 ≠ 0 ∧
      (g.intern text).1.underlineColors = g.underlineColors := by
  have arena : 0 < g.clusters.length := (List.getElem?_eq_some_iff.mp rebuilt.empty).1
  have valid : g.ClustersValid :=
    ⟨arena, fun line member c inside => (rebuilt.held line member c inside).cluster⟩
  obtain ⟨same, valid', found⟩ := valid.intern text
  have colors : (g.intern text).1.underlineColors = g.underlineColors := by rw [same.rest]
  have width : (g.intern text).1.width = g.width := by rw [same.rest]
  have kept (c : Cell) (cluster : clusterText (g.intern text).1.clusters c = clusterText g.clusters c) :
      (g.intern text).1.storeCell c = g.storeCell c := by
    unfold storeCell Grid.underlineColor
    rw [cellTextOwned_eq, cellTextOwned_eq, cluster, colors]
  have first : (g.intern text).1.clusters[0]? = Option.some [] ∧
      ∀ c ∈ cells, c.cluster < g.clusters.length → c.cluster < (g.intern text).1.clusters.length ∧
        clusterText (g.intern text).1.clusters c = clusterText g.clusters c := by
    rcases intern_cases g text with ⟨handle, interned⟩ | interned | ⟨compacts, interned⟩
    · rw [interned]
      exact ⟨rebuilt.empty, fun c _ held => ⟨held, rfl⟩⟩
    · rw [interned]
      refine ⟨?_, fun c _ held => ⟨?_, clusterText_append _ _ held⟩⟩
      · rw [List.getElem?_append_left arena, rebuilt.empty]
      · rw [List.length_append]
        exact Nat.lt_add_right _ held
    · rw [interned]
      have start := compactClusters_empty g
      have nonempty := (List.getElem?_eq_some_iff.mp start).1
      refine ⟨?_, fun c member _ => ?_⟩
      · rw [List.getElem?_append_left nonempty, start]
      · have zero := guarded compacts c member
        refine ⟨?_, by simp [clusterText, zero]⟩
        rw [zero, List.length_append]
        exact Nat.lt_add_right _ nonempty
  have size' : (g.intern text).1.extents = g.extents := by
    unfold Grid.extents
    rw [← same.scrollback.length_eq, ← same.lines.length_eq, same.rest]
  refine ⟨⟨?_, size'.trans rebuilt.size, first.1,
    fun line member c inside => ⟨valid'.cells line member c inside, ?_⟩, ?_⟩,
    ⟨width, fun c member held => ?_, fun c member held => ?_⟩, found, fun zero => ?_, colors⟩
  · exact ⟨rebuilt.colors.room, by unfold DefaultFirst; rw [colors]; exact rebuilt.colors.first,
      colors ▸ rebuilt.colors.distinct, colors ▸ rebuilt.colors.subset⟩
  · have all := List.rel_append same.scrollback same.lines
    obtain ⟨old, before, carried⟩ := exists_of_mem_right all member
    obtain ⟨c', held, cell⟩ := exists_of_mem_right carried.cells inside
    rw [colors, cell.underlineColor]
    exact (rebuilt.held old before c' held).underline
  · rw [same.shownLines, rebuilt.shows]
  · exact ⟨(first.2 c member held.cluster).1, colors ▸ held.underline⟩
  · exact kept c (first.2 c member held.cluster).2
  · rw [zero, first.1] at found
    exact some (Option.some.inj found).symm

end Rows

section Place

variable {g : Grid} {palette : List Color} {size : ℕ × ℕ × ℕ × ℕ} {rows : List StoredLine}

/-- Placing a stored cell does not compact the arena under graphemes that the row already names. -/
def KeepsNames (state : Grid × Line) (entry : StoredCell × ℕ) : Prop :=
  entry.1.continuation = false → 1 < entry.1.text.length → state.1.InternCompacts entry.1.text →
    ∀ c ∈ state.2.cells, c.cluster = 0

/-- A line under construction: the cells placed so far, then default ones. -/
structure Placing (palette : List Color) (size : ℕ × ℕ × ℕ × ℕ) (rows : List StoredLine) (g : Grid)
    (line : Line)
    (stored : List StoredCell) (free : ℕ) : Prop where
  rebuilt : Rebuilt palette size g rows
  width : g.width = stored.length + free
  placed : ∃ done, line.cells = done ++ List.replicate free ({} : Cell) ∧
    (∀ c ∈ done, Held g c) ∧ done.map g.storeCell = stored

/-- The cells of a row with a glyph and its continuation written over it. -/
def putGlyph (width : ℕ) (cells : List Cell) (x : ℕ) (cell : Cell) : List Cell :=
  if cell.width = 2 ∧ x + 1 < width then (cells.set x cell).set (x + 1) cell.continuation
  else cells.set x cell

theorem Carries.trans {g' g'' : Grid} {cells : List Cell} (first : Carries g g' cells)
    (second : Carries g' g'' cells) : Carries g g'' cells where
  width := second.width.trans first.width
  held c member held := second.held c member (first.held c member held)
  shows c member held := (second.shows c member (first.held c member held)).trans (first.shows c member held)

/-- The cell of a stored glyph, given the handles of its colour and its text. -/
def savedCell (saved : StoredCell) (underlineColor cluster : ℕ) : Cell where
  ch := saved.text.head?.getD ' '
  fg := saved.fg
  bg := saved.bg
  attrs := saved.attrs
  width := max saved.width 1
  underlineColor
  cluster

theorem storeCell_savedCell {saved : StoredCell} (leads : saved.continuation = false)
    (positive : 0 < saved.width) {underlineColor cluster : ℕ}
    (color : g.underlineColors[underlineColor]? = some saved.underlineColor)
    (text : if cluster = 0 then [saved.text.head?.getD ' '] = saved.text
      else g.clusters[cluster]? = some saved.text) :
    g.storeCell (savedCell saved underlineColor cluster) = saved := by
  have width : max saved.width 1 = saved.width := by omega
  have visible : (saved.width == 0) = false := beq_false_of_ne (by omega)
  obtain ⟨content, fg, bg, attrs, underline, w, follows⟩ := saved
  dsimp only at leads width visible color text
  subst leads
  by_cases none : cluster = 0
  · rw [if_pos none] at text
    simp [storeCell, savedCell, cellTextOwned, Cell.isContinuation, width, visible, none,
      Grid.underlineColor, color, text]
  · rw [if_neg none] at text
    simp [storeCell, savedCell, cellTextOwned, Cell.isContinuation, width, visible, none,
      Grid.underlineColor, color, text]

theorem placeStored_lead {saved : StoredCell} (leads : saved.continuation = false)
    (some : saved.text ≠ []) {g₁ g₂ : Grid} {underlineColor cluster : ℕ}
    (colored : g.internUnderlineColor saved.underlineColor = (g₁, underlineColor))
    (named : (if saved.text.length > 1 then g₁.intern saved.text else (g₁, 0)) = (g₂, cluster))
    (width₁ : g₁.width = g.width) (width₂ : g₂.width = g.width) (line : Line) {x : ℕ}
    (inside : x < g.width) : placeStored (g, line) (saved, x) = (g₂,
      { line with cells := putGlyph g.width line.cells x (savedCell saved underlineColor cluster) }) := by
  have shown : ¬(x ≥ g₁.width ∨ saved.text.isEmpty = true) := by
    rw [width₁, List.isEmpty_iff]
    exact fun either => either.elim (by omega) some
  unfold placeStored setStoredOnLine
  simp only [leads, Bool.false_eq_true, ↓reduceIte, colored, shown, named, width₂]
  rfl

/-- Placing a stored glyph puts a cell that shows it. -/
theorem Rebuilt.place (rebuilt : Rebuilt palette size g rows) {saved : StoredCell} (cells : List Cell)
    (leads : saved.continuation = false) (positive : 0 < saved.width) (some : saved.text ≠ [])
    (color : saved.underlineColor ∈ palette)
    (guarded : 1 < saved.text.length → g.InternCompacts saved.text → ∀ c ∈ cells, c.cluster = 0) :
    ∃ g' cell, (∀ line x, x < g.width → placeStored (g, line) (saved, x) =
        (g', { line with cells := putGlyph g.width line.cells x cell })) ∧
      Rebuilt palette size g' rows ∧ Carries g g' cells ∧ Held g' cell ∧ g'.storeCell cell = saved ∧
      cell.width = saved.width := by
  obtain ⟨colored, carries, found, clusters, gcAt⟩ := rebuilt.internColor color cells
  have width : max saved.width 1 = saved.width := by omega
  generalize internedColor : g.internUnderlineColor saved.underlineColor = interned
    at colored carries found clusters gcAt
  obtain ⟨g₁, handle⟩ := interned
  dsimp only at colored carries found clusters gcAt
  have handleIn := (List.getElem?_eq_some_iff.mp found).1
  by_cases long : 1 < saved.text.length
  · have guarded₁ : g₁.InternCompacts saved.text → ∀ c ∈ cells, c.cluster = 0 := by
      intro compacts
      refine guarded long ?_
      rwa [InternCompacts, recentCluster, clusters, gcAt] at compacts
    obtain ⟨named, carries₂, text, used, colors⟩ := colored.intern some guarded₁
    refine ⟨(g₁.intern saved.text).1, savedCell saved handle (g₁.intern saved.text).2,
      fun line x inside => placeStored_lead leads some internedColor ?_ carries.width
        (carries₂.width.trans carries.width) line inside, named, carries.trans carries₂, ⟨?_, ?_⟩, ?_, width⟩
    · rw [if_pos long]
    · exact (List.getElem?_eq_some_iff.mp text).1
    · rw [colors]
      exact handleIn
    · refine storeCell_savedCell leads positive (colors ▸ found) ?_
      rw [if_neg used]
      exact text
  · refine ⟨g₁, savedCell saved handle 0, fun line x inside => placeStored_lead leads some internedColor
      ?_ carries.width carries.width line inside, colored, carries,
      ⟨(List.getElem?_eq_some_iff.mp colored.empty).1, handleIn⟩, ?_, width⟩
    · rw [if_neg long]
    · refine storeCell_savedCell leads positive found ?_
      rw [if_pos rfl]
      cases text : saved.text with
      | nil => exact absurd text some
      | cons ch rest =>
        rw [text, List.length_cons] at long
        rw [List.eq_nil_of_length_eq_zero (by omega : rest.length = 0)]
        rfl

/-- One placed block, whatever its width. -/
theorem Placing.block {line : Line} {stored block : List StoredCell} {saved : StoredCell} {free : ℕ}
    (placing : Placing palette size rows g line stored (saved.width + free))
    (leads : saved.continuation = false) (narrow : saved.width = 1 ∧ block = [saved] ∨
      saved.width = 2 ∧ block = [saved, { saved with text := [], width := 0, continuation := true }])
    (some : saved.text ≠ []) (color : saved.underlineColor ∈ palette)
    (guarded : KeepsNames (g, line) (saved, stored.length)) :
    Placing palette size rows (placeStored (g, line) (saved, stored.length)).1
        (placeStored (g, line) (saved, stored.length)).2 (stored ++ block) free ∧
      (placeStored (g, line) (saved, stored.length)).2.wrapped = line.wrapped := by
  obtain ⟨done, cells, held, shown⟩ := placing.placed
  have length : done.length = stored.length := by rw [← shown, List.length_map]
  have width := placing.width
  obtain ⟨g', cell, put, rebuilt, carries, cellHeld, shows, cellWidth⟩ :=
    placing.rebuilt.place line.cells leads (by omega) some color (guarded leads)
  have kept : ∀ c ∈ done, Held g' c ∧ g'.storeCell c = g.storeCell c := by
    intro c member
    have inside : c ∈ line.cells := by
      rw [cells]
      exact List.mem_append_left _ member
    exact ⟨carries.held c inside (held c member), carries.shows c inside (held c member)⟩
  have before : done.map g'.storeCell = stored := by
    rw [← shown]
    exact List.map_congr_left fun c member => (kept c member).2
  rw [put line stored.length (by omega)]
  refine ⟨⟨rebuilt, ?_, ?_⟩, rfl⟩
  · rcases narrow with ⟨one, rfl⟩ | ⟨two, rfl⟩
    · rw [carries.width, List.length_append, List.length_singleton]
      omega
    · rw [carries.width, List.length_append, List.length_cons, List.length_singleton]
      omega
  · rcases narrow with ⟨one, rfl⟩ | ⟨two, rfl⟩
    · refine ⟨done ++ [cell], ?_, fun c member => ?_, ?_⟩
      · rw [putGlyph, if_neg (by omega), cells, ← length, one, Nat.add_comm 1 free,
          List.replicate_succ, List.set_append_right _ _ le_rfl, Nat.sub_self, List.set_cons_zero,
          List.append_assoc, List.singleton_append]
      · rcases List.mem_append.mp member with old | last
        · exact (kept c old).1
        · rw [List.mem_singleton.mp last]
          exact cellHeld
      · rw [List.map_append, before, List.map_singleton, shows]
    · refine ⟨done ++ [cell, cell.continuation], ?_, fun c member => ?_, ?_⟩
      · rw [putGlyph, if_pos ⟨cellWidth.trans two, by omega⟩, cells, ← length, two, Nat.add_comm 2 free,
          List.replicate_succ, List.replicate_succ, List.set_append_right _ _ le_rfl, Nat.sub_self,
          List.set_cons_zero, List.set_append_right _ _ (Nat.le_add_right _ 1), Nat.add_sub_cancel_left,
          List.set_cons_succ, List.set_cons_zero, List.append_assoc]
        rfl
      · rcases List.mem_append.mp member with old | last
        · exact (kept c old).1
        · simp only [List.mem_cons, List.not_mem_nil, or_false] at last
          rcases last with rfl | rfl
          · exact cellHeld
          · exact ⟨Nat.zero_lt_of_lt cellHeld.cluster, cellHeld.underline⟩
      · rw [List.map_append, before, List.map_cons, List.map_singleton, storeCell_continuation, shows]

/-- Placing a row of blocks shows the row. -/
theorem Placing.row {cells : List StoredCell} (blocks : Blocks palette cells) {line : Line}
    {stored : List StoredCell} (placing : Placing palette size rows g line stored cells.length)
    (guarded : Guards KeepsNames (fun s e => some (placeStored s e)) (g, line)
      (cells.zipIdx stored.length)) :
    let state := (cells.zipIdx stored.length).foldl placeStored (g, line)
    Placing palette size rows state.1 state.2 (stored ++ cells) 0 ∧ state.2.wrapped = line.wrapped := by
  induction blocks generalizing g line stored with
  | nil => exact ⟨by simpa using placing, rfl⟩
  | @narrow c rest width leads text color later ih =>
    rw [List.zipIdx_cons] at guarded ⊢
    have here : Placing palette size rows g line stored (c.width + rest.length) := by
      rw [width, Nat.add_comm]
      exact placing
    obtain ⟨placed, wrapped⟩ := here.block leads (.inl ⟨width, rfl⟩) text color guarded.1
    have next : (stored ++ [c]).length = stored.length + 1 := by simp
    have done := ih placed (by rw [next]; exact guarded.2 _ rfl)
    rw [next, List.append_assoc, List.singleton_append] at done
    exact ⟨done.1, done.2.trans wrapped⟩
  | @wide c rest width leads text color later ih =>
    rw [List.zipIdx_cons, List.zipIdx_cons] at guarded ⊢
    have here : Placing palette size rows g line stored (c.width + rest.length) := by
      rw [width, Nat.add_comm]
      exact placing
    obtain ⟨placed, wrapped⟩ := here.block leads (.inr ⟨width, rfl⟩) text color guarded.1
    have next : (stored ++ [c, { c with text := [], width := 0, continuation := true }]).length =
        stored.length + 1 + 1 := by simp
    have later := (guarded.2 _ rfl).2 _ rfl
    have done := ih placed (by rw [next]; exact later)
    rw [next, List.append_assoc] at done
    exact ⟨done.1, done.2.trans wrapped⟩

/-- The state in which a stored line starts to be placed. -/
def lineStart (g : Grid) (stored : StoredLine) : Grid × Line :=
  (g.allocLineId.1, { Line.blank g.width {} g.nextLineId with wrapped := stored.wrapped })

/-- No compaction comes while the line already names a grapheme. -/
def LineKeepsNames (g : Grid) (stored : StoredLine) : Prop :=
  Guards KeepsNames (fun s e => some (placeStored s e)) (lineStart g stored) stored.cells.zipIdx

theorem Rebuilt.lineFromStored (rebuilt : Rebuilt palette size g rows) {stored : StoredLine}
    (blocks : Blocks palette stored.cells) (full : stored.cells.length = g.width)
    (guarded : LineKeepsNames g stored) :
    let state := g.lineFromStored stored
    Rebuilt palette size state.1 rows ∧ (∀ c ∈ state.2.cells, Held state.1 c) ∧
      state.2.cells.map state.1.storeCell = stored.cells ∧ state.2.wrapped = stored.wrapped := by
  have start : Placing palette size rows (lineStart g stored).1 (lineStart g stored).2 []
      stored.cells.length := by
    have colors := rebuilt.colors
    refine ⟨⟨⟨colors.room, colors.first, colors.distinct, colors.subset⟩, rebuilt.size, rebuilt.empty,
      fun line member c inside => ?_, rebuilt.shows⟩, ?_, [], ?_, by simp, rfl⟩
    · have held := rebuilt.held line member c inside
      exact ⟨held.cluster, held.underline⟩
    · rw [full, List.length_nil, Nat.zero_add]
      rfl
    · rw [full]
      rfl
  have whole : g.lineFromStored stored = stored.cells.zipIdx.foldl placeStored (lineStart g stored) := by
    unfold Grid.lineFromStored
    rw [allocLineId]
    dsimp only
    rw [List.take_of_length_le full.le]
    rfl
  rw [whole]
  generalize final : stored.cells.zipIdx.foldl placeStored (lineStart g stored) = state
  have rowed : Placing palette size rows state.1 state.2 stored.cells 0 ∧
      state.2.wrapped = stored.wrapped := by
    rw [← final]
    exact start.row blocks guarded
  obtain ⟨placing, wrapped⟩ := rowed
  obtain ⟨done, cells, held, shown⟩ := placing.placed
  rw [List.replicate_zero, List.append_nil] at cells
  refine ⟨placing.rebuilt, ?_, ?_, wrapped⟩
  · rw [cells]
    exact held
  · rw [cells]
    exact shown

end Place

section Lines

variable {g : Grid} {palette : List Color} {rows : List StoredLine} {width height start : ℕ}

/-- A stored row that a grid of a given width can hold. -/
structure Fillable (palette : List Color) (width : ℕ) (stored : StoredLine) : Prop where
  blocks : Blocks palette stored.cells
  full : stored.cells.length = width

/-- One more row, in the history or on the screen. -/
theorem Rebuilt.rebuildLine {k : ℕ}
    (rebuilt : Rebuilt palette (width, height, min k start, k - start) g rows) {stored : StoredLine}
    (fillable : Fillable palette width stored) (guarded : LineKeepsNames g stored) :
    Rebuilt palette (width, height, min (k + 1) start, k + 1 - start)
      (rebuildLine start g (stored, k)) (rows ++ [stored]) := by
  have wide : g.width = width := congrArg Prod.fst rebuilt.size
  obtain ⟨placed, held, shown, wrapped⟩ :=
    rebuilt.lineFromStored fillable.blocks (fillable.full.trans wide.symm) guarded
  unfold Grid.rebuildLine
  dsimp only
  generalize g.lineFromStored stored = state at placed held shown wrapped ⊢
  obtain ⟨g', line⟩ := state
  dsimp only at placed held shown wrapped ⊢
  have size := placed.size
  simp only [extents, Prod.mk.injEq] at size
  obtain ⟨width', height', history, screen⟩ := size
  have last : g'.shownLines [line] = [stored] := by
    rw [Grid.shownLines, List.map_singleton, shown, wrapped]
  have colors := placed.colors
  split
  · next early =>
    have none : g'.lines = [] := List.eq_nil_of_length_eq_zero (by omega)
    refine ⟨⟨colors.room, colors.first, colors.distinct, colors.subset⟩, ?_, placed.empty,
      fun other member c inside => ?_, ?_⟩
    · simp only [extents, List.length_append, List.length_singleton, Prod.mk.injEq]
      omega
    · rw [none, List.append_nil] at member
      have before : Held g' c := by
        rcases List.mem_append.mp member with old | fresh
        · exact placed.held other (List.mem_append_left _ old) c inside
        · rw [List.mem_singleton.mp fresh] at inside
          exact held c inside
      exact ⟨before.cluster, before.underline⟩
    · have shows := placed.shows
      rw [none, List.append_nil] at shows ⊢
      rw [← shows, ← last]
      exact List.map_append
  · next late =>
    refine ⟨⟨colors.room, colors.first, colors.distinct, colors.subset⟩, ?_, placed.empty,
      fun other member c inside => ?_, ?_⟩
    · simp only [extents, List.length_append, List.length_singleton, Prod.mk.injEq]
      omega
    · rw [← List.append_assoc] at member
      have before : Held g' c := by
        rcases List.mem_append.mp member with old | fresh
        · exact placed.held other old c inside
        · rw [List.mem_singleton.mp fresh] at inside
          exact held c inside
      exact ⟨before.cluster, before.underline⟩
    · rw [← placed.shows, ← last, ← List.append_assoc]
      exact List.map_append

/-- No compaction comes while a line under construction already names a grapheme. -/
def LinesKeepNames (start : ℕ) (g : Grid) (stored : List (StoredLine × ℕ)) : Prop :=
  Guards (fun g entry => LineKeepsNames g entry.1) (fun g entry => some (rebuildLine start g entry)) g
    stored

theorem Rebuilt.rebuildLines {k : ℕ}
    (rebuilt : Rebuilt palette (width, height, min k start, k - start) g rows)
    {more : List StoredLine} (fillable : ∀ stored ∈ more, Fillable palette width stored)
    (guarded : LinesKeepNames start g (more.zipIdx k)) :
    Rebuilt palette (width, height, min (k + more.length) start, k + more.length - start)
      ((more.zipIdx k).foldl (Grid.rebuildLine start) g) (rows ++ more) := by
  induction more generalizing g rows k with
  | nil => simpa using rebuilt
  | cons stored rest ih =>
    have here := rebuilt.rebuildLine (fillable stored (List.mem_cons_self ..)) guarded.1
    have done := ih here (fun other member => fillable other (.tail _ member)) (guarded.2 _ rfl)
    rw [List.append_assoc, List.singleton_append] at done
    have total : k + (stored :: rest).length = k + 1 + rest.length := by
      rw [List.length_cons]
      omega
    rw [total]
    exact done

/-- The empty grid that rows are rebuilt into. -/
def rebuildStart (width height limit : ℕ) : Grid :=
  { (new width height).setScrollbackLimit limit with scrollback := [], lines := [] }

private theorem rebuilt_start (start : ℕ) (room : palette.length ≤ 256) (default : Color.default ∈ palette)
    (limit : ℕ) :
    Rebuilt palette (width, height, min 0 start, 0 - start) (rebuildStart width height limit) [] := by
  refine ⟨⟨room, rfl, List.pairwise_singleton _ _, ?_⟩, ?_, rfl, by simp [rebuildStart], rfl⟩
  · intro color member
    rw [List.mem_singleton.mp member]
    exact default
  · simp only [extents, rebuildStart, Nat.zero_min, Nat.zero_sub]
    rfl

/-- A grid rebuilt from stored rows shows them. -/
theorem rebuild_shows (room : palette.length ≤ 256) (default : Color.default ∈ palette) (limit : ℕ)
    (blank : Cell) {rows : List StoredLine} (fillable : ∀ stored ∈ rows, Fillable palette width stored)
    (total : rows.length = start + height)
    (guarded : LinesKeepNames start (rebuildStart width height limit) rows.zipIdx) :
    let g := rebuild width height limit blank rows start
    g.shownLines (g.scrollback ++ g.lines) = rows ∧ g.width = width ∧ g.height = height ∧
      g.scrollback.length = start ∧ g.lines.length = height := by
  have rebuilt := (rebuilt_start start room default limit).rebuildLines fillable guarded
  rw [Nat.zero_add, total, List.nil_append] at rebuilt
  generalize folded : (rows.zipIdx 0).foldl (Grid.rebuildLine start) (rebuildStart width height limit) = g
    at rebuilt
  have size := rebuilt.size
  simp only [extents, Prod.mk.injEq] at size
  obtain ⟨wide, tall, history, screen⟩ := size
  have none : blankLines width blank g.nextLineId (height - g.lines.length) = [] :=
    List.eq_nil_of_length_eq_zero (by rw [length_blankLines]; omega)
  have whole : rebuild width height limit blank rows start = { g with
      nextLineId := (rebuild width height limit blank rows start).nextLineId
      damage := (rebuild width height limit blank rows start).damage
      anyDamage := (rebuild width height limit blank rows start).anyDamage
      pendingScrollUp := (rebuild width height limit blank rows start).pendingScrollUp } := by
    unfold rebuild
    rw [← rebuildStart, folded]
    dsimp only
    rw [none, markAllDamaged_frame]
    rfl
  rw [whole]
  exact ⟨rebuilt.shows, wide, tall, by dsimp only; omega, by dsimp only; omega⟩

end Lines

end Uniterm.Model.Grid
