import Uniterm.Soundness.Grid.Tidy

/-! # Tidy grids under resizes

Recutting logical lines restores the blocks of every row, provided that the 16-bit column sums of
the recut stay in range: `Fits` says that they do.
-/

namespace Uniterm.Model.Grid

open ToMathlib

section Kept

variable {g g' : Grid} {w h : ℕ}

theorem Fitted.of_lines (fitted : Fitted w h g) (lines : g'.lines = g.lines)
    (width : g'.width = g.width) (height : g'.height = g.height)
    (damage : g'.damage.length = g.damage.length) (clusters : g'.clusters = g.clusters)
    (bounded : g'.scrollback.length ≤ g'.scrollbackLimit)
    (colors : g'.underlineColors[0]? = some .default)
    (history : g'.scrollback ⊆ g.scrollback) : Fitted w h g' := by
  refine fitted.congr width height damage clusters bounded colors (fun line member => ?_) ?_
  · exact fitted.tidy.cells line (List.mem_append_left _ (history member))
  · rw [lines]
    exact List.forall₂_same.mpr fun _ _ => List.forall₂_same.mpr fun _ _ => ⟨rfl, rfl⟩

theorem Fitted.setRowWrapped (fitted : Fitted w h g) (y : ℕ) (wrapped : Bool) :
    Fitted w h (g.setRowWrapped y wrapped) := by
  refine fitted.congr rfl rfl rfl rfl fitted.history fitted.colors (fun line member => ?_) ?_
  · exact fitted.tidy.cells line (List.mem_append_left _ member)
  · have same (line : Line) : List.Forall₂
        (fun c c' : Cell => c'.width = c.width ∧ c'.cluster = c.cluster) line.cells line.cells :=
      List.forall₂_same.mpr fun _ _ => ⟨rfl, rfl⟩
    exact forall₂_modify same same g.lines y

theorem Fitted.clearScrollback (fitted : Fitted w h g) : Fitted w h g.clearScrollback :=
  fitted.of_lines rfl rfl rfl rfl rfl (Nat.zero_le _) fitted.colors (by simp [Grid.clearScrollback])

theorem Fitted.setScrollbackLimit (fitted : Fitted w h g) (limit : ℕ) :
    Fitted w h (g.setScrollbackLimit limit) :=
  fitted.of_lines rfl rfl rfl rfl rfl (length_keepNewest ..) fitted.colors (List.drop_subset ..)

theorem Fitted.markAllDamaged (fitted : Fitted w h g) : Fitted w h g.markAllDamaged :=
  fitted.of_lines (by rw [markAllDamaged_frame]) (by rw [markAllDamaged_frame])
    (by rw [markAllDamaged_frame]) (markAllDamaged_length g) (by rw [markAllDamaged_frame])
    (by rw [markAllDamaged_frame]; exact fitted.history)
    (by rw [markAllDamaged_frame]; exact fitted.colors)
    (by rw [markAllDamaged_frame]; exact List.Subset.refl _)

theorem Fitted.internHyperlink (fitted : Fitted w h g) (uri : Text) :
    Fitted w h (g.internHyperlink uri).1 := by
  unfold Grid.internHyperlink
  split
  · exact fitted
  split
  · exact fitted
  · dsimp only
    split
    · exact fitted.of_lines rfl rfl rfl rfl rfl fitted.history fitted.colors (List.Subset.refl _)
    · exact fitted.of_lines rfl rfl rfl rfl rfl fitted.history fitted.colors (List.Subset.refl _)

/-- Renumbering underline colours leaves widths and grapheme handles alone, and the default first. -/
private theorem rewriteUnderline_same (old colors : List Color) (lines : List Line)
    (first : colors[0]? = some .default) :
    (rewriteCells (compactUnderlineCell old) colors lines).1[0]? = some .default ∧
      List.Forall₂ (fun (line line' : Line) => List.Forall₂
          (fun c c' : Cell => c'.width = c.width ∧ c'.cluster = c.cluster) line.cells line'.cells)
        lines (rewriteCells (compactUnderlineCell old) colors lines).2 := by
  have cell (colors : List Color) (c : Cell) (first : colors[0]? = some .default) :
      (compactUnderlineCell old colors c).1[0]? = some .default ∧
        (compactUnderlineCell old colors c).2.width = c.width ∧
        (compactUnderlineCell old colors c).2.cluster = c.cluster := by
    unfold compactUnderlineCell
    split
    · exact ⟨first, rfl, rfl⟩
    split
    · exact ⟨first, rfl, rfl⟩
    split
    · exact ⟨first, rfl, rfl⟩
    · refine ⟨?_, rfl, rfl⟩
      rw [List.getElem?_append_left (List.getElem?_eq_some_iff.mp first).1]
      exact first
  have row (colors : List Color) (cells : List Cell) (first : colors[0]? = some .default) :=
    mapAccum_forall₂ (fun s : List Color => s[0]? = some .default)
      (fun _ (c c' : Cell) => c'.width = c.width ∧ c'.cluster = c.cluster)
      (fun colors c first => (cell colors c first).1) (fun colors c first => (cell colors c first).2)
      (fun _ _ _ _ _ same => same) (s := colors) cells first
  obtain ⟨last, all, _⟩ := mapAccum_forall₂ (fun s : List Color => s[0]? = some .default)
    (fun _ (line line' : Line) => List.Forall₂
      (fun c c' : Cell => c'.width = c.width ∧ c'.cluster = c.cluster) line.cells line'.cells)
    (f := fun colors (line : Line) =>
      ((mapAccum (compactUnderlineCell old) colors line.cells).1,
        ({ line with cells := (mapAccum (compactUnderlineCell old) colors line.cells).2 } : Line)))
    (fun colors line first => (row colors line.cells first).1)
    (fun colors line first => (row colors line.cells first).2.1)
    (fun _ _ _ _ _ same => same) (s := colors) lines first
  exact ⟨last, all⟩

theorem Fitted.compactUnderlineColors (fitted : Fitted w h g) :
    Fitted w h g.compactUnderlineColors := by
  obtain ⟨first, same⟩ :=
    rewriteUnderline_same g.underlineColors [.default] (g.scrollback ++ g.lines) rfl
  have history := List.forall₂_take g.scrollback.length same
  have screen := List.forall₂_drop g.scrollback.length same
  rw [List.take_left] at history
  rw [List.drop_left] at screen
  refine fitted.congr rfl rfl rfl rfl ?_ first (fun line member c inside => ?_) screen
  · exact history.length_eq ▸ fitted.history
  · obtain ⟨old, before, cells⟩ := exists_of_mem_right history member
    obtain ⟨c', held, kept⟩ := exists_of_mem_right cells inside
    rw [kept.2]
    exact fitted.tidy.cells old (List.mem_append_left _ before) c' held

theorem Fitted.internUnderlineColor (fitted : Fitted w h g) (color : Color) :
    Fitted w h (g.internUnderlineColor color).1 := by
  unfold Grid.internUnderlineColor
  split
  · exact fitted
  split
  · exact fitted
  dsimp only
  have compacted : Fitted w h
      (if g.underlineColors.length = 256 then g.compactUnderlineColors else g) := by
    split
    · exact fitted.compactUnderlineColors
    · exact fitted
  generalize (if g.underlineColors.length = 256 then g.compactUnderlineColors else g) = g at compacted ⊢
  split
  · exact compacted
  split
  · exact compacted
  · refine compacted.of_lines rfl rfl rfl rfl rfl compacted.history ?_ (List.Subset.refl _)
    rw [List.getElem?_append_left (List.getElem?_eq_some_iff.mp compacted.colors).1]
    exact compacted.colors

theorem fitted_new (wide : 0 < w) (tall : 0 < h) : Fitted w h (new w h) := by
  have line (l : Line) (member : l ∈ (new w h).lines) : l.cells = List.replicate w {} := by
    obtain ⟨y, _, rfl⟩ := List.mem_map.mp member
    rfl
  refine ⟨⟨⟨⟨⟨wide, tall, ?_, fun l member => ?_, ?_⟩, Nat.one_pos, fun l member c inside => ?_⟩,
    fun l member => ?_⟩, fun l member => ?_⟩, rfl, rfl, Nat.zero_le _, rfl⟩
  · simp [new]
  · rw [line l member, List.length_replicate]
    exact le_rfl
  · simp [new]
  · rw [line l (by simpa [new] using member)] at inside
    rw [List.eq_of_mem_replicate inside]
    exact Nat.one_pos
  · rw [line l member, List.length_replicate]
    rfl
  · rw [line l member, List.map_replicate]
    exact paired_ones w

end Kept

section Recut

/-- Recutting glyphs of these widths never adds up to a column beyond 16 bits. -/
def recutFits (width : ℕ) : ℕ → List ℕ → Prop
  | _, [] => True
  | x, glyph :: rest =>
    x + glyph < 65536 ∧
      recutFits width (if x > 0 ∧ x + glyph > width then glyph else x + glyph) rest

/-- The grid can be recut at a width without a column sum leaving 16 bits. -/
def Fits (u : Unicode) (g : Grid) (width : ℕ) : Prop :=
  ∀ leads ∈ g.logicalLines, recutFits width 0 (leads.map fun lead => min (g.glyphWidth u lead) width)

/-- At every width up to two below the last there is room for one more glyph. -/
theorem recutFits_of_le {width : ℕ} (bound : width ≤ 65533) {x : ℕ} (column : x ≤ width)
    {glyphs : List ℕ} (narrow : ∀ glyph ∈ glyphs, glyph ≤ min 2 width) :
    recutFits width x glyphs := by
  induction glyphs generalizing x with
  | nil => trivial
  | cons glyph rest ih =>
    have here := narrow glyph (List.mem_cons_self ..)
    refine ⟨by omega, ih ?_ fun other member => narrow other (.tail _ member)⟩
    split <;> omega

variable (u : Unicode) (g : Grid) {width : ℕ}

theorem glyphWidth_bounds (lead : Cell) : 1 ≤ g.glyphWidth u lead ∧ g.glyphWidth u lead ≤ 2 := by
  have text (t : Text) : 1 ≤ u.glyphWidth t ∧ u.glyphWidth t ≤ 2 := by
    unfold Unicode.glyphWidth
    omega
  unfold glyphWidth
  split
  · split
    · omega
    · exact text _
  · exact text _

theorem fits_of_le (bound : width ≤ 65533) : g.Fits u width := by
  intro leads _
  refine recutFits_of_le bound (Nat.zero_le _) fun glyph member => ?_
  obtain ⟨lead, _, rfl⟩ := List.mem_map.mp member
  have := glyphWidth_bounds u g lead
  omega

/-- A row of blocks that is not too long. -/
def RowFits (width : ℕ) (cells : List Cell) : Prop :=
  cells.length ≤ width ∧ Paired (cells.map Cell.width)

/-- The row under construction and the rows finished so far. -/
structure EmissionFits (width : ℕ) (e : Emission) : Prop where
  column : e.row.length = e.x
  row : RowFits width e.row
  physical : ∀ line ∈ e.physical, RowFits width line.cells

theorem RowFits.resizeCells {cells : List Cell} (fits : RowFits width cells) :
    (Grid.resizeCells width cells).length = width ∧
      Paired ((Grid.resizeCells width cells).map Cell.width) := by
  unfold Grid.resizeCells
  rw [List.take_of_length_le fits.1, List.map_append, List.map_replicate]
  refine ⟨?_, fits.2.append_ones _⟩
  have := fits.1
  rw [List.length_append, List.length_replicate]
  omega

theorem EmissionFits.wrapRow {e : Emission} (fits : EmissionFits width e) :
    EmissionFits width (e.wrapRow width) := by
  refine ⟨rfl, ⟨Nat.zero_le _, paired_nil⟩, fun line member => ?_⟩
  rcases List.mem_append.mp member with old | fresh
  · exact fits.physical line old
  · rw [List.mem_singleton.mp fresh]
    exact ⟨fits.row.resizeCells.1.le, fits.row.resizeCells.2⟩

theorem EmissionFits.append {e : Emission} (fits : EmissionFits width e) (lead : Cell)
    {glyph : ℕ} (narrow : glyph = 1 ∨ glyph = 2) (room : e.x + glyph ≤ width) :
    EmissionFits width { e with
      row := e.row ++ { lead with width := glyph } :: if glyph = 2 then [lead.continuation] else []
      x := e.x + glyph } := by
  have column := fits.column
  rcases narrow with rfl | rfl
  · refine ⟨?_, ⟨?_, ?_⟩, fits.physical⟩
    · simp [column]
    · simp [column, room]
    · simpa using fits.row.2.append_one
  · refine ⟨?_, ⟨?_, ?_⟩, fits.physical⟩
    · simp [column]
    · simp [column, room]
    · simpa [Cell.continuation] using fits.row.2.append_two

theorem EmissionFits.emitLead {e : Emission} (fits : EmissionFits width e) (wide : 0 < width)
    (lead : Cell) (sum : e.x + min (g.glyphWidth u lead) width < 65536) :
    EmissionFits width (Grid.emitLead u g width e lead) ∧
      (Grid.emitLead u g width e lead).x =
        if e.x > 0 ∧ e.x + min (g.glyphWidth u lead) width > width then
          min (g.glyphWidth u lead) width
        else e.x + min (g.glyphWidth u lead) width := by
  have bounds := glyphWidth_bounds u g lead
  have narrow : min (g.glyphWidth u lead) width = 1 ∨ min (g.glyphWidth u lead) width = 2 := by omega
  have room : min (g.glyphWidth u lead) width ≤ width := Nat.min_le_right ..
  have column := fits.row.1
  rw [fits.column] at column
  unfold Grid.emitLead
  dsimp only
  generalize min (g.glyphWidth u lead) width = glyph at *
  rw [Nat.mod_eq_of_lt sum]
  by_cases wraps : e.x > 0 ∧ e.x + glyph > width
  · simp only [wraps.1, wraps.2, and_self, ↓reduceIte]
    have start : (e.wrapRow width).x = 0 := rfl
    have placed := fits.wrapRow.append lead narrow (by rw [start]; omega)
    rw [start, Nat.zero_add] at placed
    rw [start, Nat.zero_add, Nat.mod_eq_of_lt (by omega)]
    exact ⟨placed, rfl⟩
  · rw [if_neg wraps, if_neg wraps, Nat.mod_eq_of_lt sum]
    exact ⟨fits.append lead narrow (by omega), rfl⟩

theorem EmissionFits.emit {leads : List Cell} {e : Emission} (fits : EmissionFits width e)
    (wide : 0 < width)
    (sums : recutFits width e.x (leads.map fun lead => min (g.glyphWidth u lead) width)) :
    EmissionFits width (leads.foldl (Grid.emitLead u g width) e) := by
  induction leads generalizing e with
  | nil => exact fits
  | cons lead rest ih =>
    obtain ⟨here, later⟩ := sums
    obtain ⟨emitted, column⟩ := fits.emitLead u g wide lead here
    rw [List.foldl_cons]
    refine ih emitted ?_
    rw [column]
    exact later

theorem trimCells_append (cells : List Cell) :
    ∃ n, cells = Line.trimCells cells ++ List.replicate n ({} : Cell) := by
  have blank : ∀ c ∈ cells.rtakeWhile (· == ({} : Cell)), c = {} := by
    intro c member
    simpa using List.mem_rtakeWhile_imp (p := (· == ({} : Cell))) member
  refine ⟨(cells.rtakeWhile (· == ({} : Cell))).length, ?_⟩
  rw [← List.eq_replicate_of_mem blank]
  exact (List.rdropWhile_append_rtakeWhile ..).symm

theorem RowFits.trimCells {cells : List Cell} (fits : RowFits width cells) :
    RowFits width (Line.trimCells cells) := by
  obtain ⟨n, whole⟩ := trimCells_append cells
  obtain ⟨length, paired⟩ := fits
  rw [whole, List.length_append] at length
  rw [whole, List.map_append, List.map_replicate] at paired
  exact ⟨by omega, paired.of_append_ones⟩

theorem emitLogicalLine_fits {leads : List Cell} {physical : List Line} (wide : 0 < width)
    (sums : recutFits width 0 (leads.map fun lead => min (g.glyphWidth u lead) width))
    (nextLineId : ℕ) (given : ∀ line ∈ physical, RowFits width line.cells) :
    EmissionFits width (leads.foldl (Grid.emitLead u g width) { physical, nextLineId }) ∧
      ∀ line ∈ (emitLogicalLine u g width leads physical nextLineId).1,
        RowFits width line.cells := by
  have start : EmissionFits width { physical, nextLineId } :=
    ⟨rfl, ⟨Nat.zero_le _, paired_nil⟩, given⟩
  have emitted := start.emit u g wide sums
  refine ⟨emitted, fun line inside => ?_⟩
  rcases List.mem_append.mp inside with old | last
  · exact emitted.physical line old
  · rw [List.mem_singleton.mp last]
    exact emitted.row.trimCells

/-- Every row of a reflow whose column sums stay in range is a row of blocks that fits. -/
theorem reflowLines_fits (fits : g.Fits u width) (wide : 0 < width) (cursor : ℕ × ℕ) :
    ∀ line ∈ (reflowLines u g width cursor).physical, RowFits width line.cells := by
  have rows : (reflowLines u g width cursor).physical =
      (emitAll u g width g.logicalLines ([], g.nextLineId)).1 :=
    congrArg Prod.fst (reflowLines_rows u g width cursor)
  rw [rows]
  refine emitAll_rows u (Q := fun line => RowFits width line.cells)
    (fun leads member physical nextLineId given => ?_) _ (by simp)
  exact (emitLogicalLine_fits u g wide (fits leads member) nextLineId given).2

end Recut

section Resize

variable (u : Unicode) {g : Grid} {w h : ℕ} {blank : Cell}

theorem Fitted.reflowWidth (fitted : Fitted w h g) (plain : Plain blank) {width height : ℕ}
    (wide : 0 < width) (tall : 0 < height) (fits : g.Fits u width) (cursor : ℕ × ℕ) (pending : Bool) :
    Fitted width height (g.reflowWidth u width height blank cursor pending).1 := by
  have tidy := fitted.tidy
  have valid : blank.cluster < g.clusters.length := by rw [plain.cluster]; exact tidy.arena
  have wf := tidy.toWellFormed.reflowWidth u wide tall valid cursor pending
  have rows := reflowLines_fits u g fits wide cursor
  have members := mem_reflowViewport u g width height blank cursor pending
  rw [reflowWidth_grid] at wf ⊢
  generalize reflowViewport u g width height blank cursor pending = v at wf members ⊢
  have line (l : Line) (member : l ∈ (g.install width height v).lines) :
      l.cells.length = width ∧ Paired (l.cells.map Cell.width) := by
    rw [install_lines] at member
    obtain ⟨old, before, rfl⟩ := List.mem_map.mp member
    have fits : RowFits width old.cells := by
      rcases members old (List.mem_of_mem_drop before) with emitted | ⟨id, rfl⟩
      · exact rows old emitted
      · refine ⟨by rw [Line.blank, List.length_replicate], ?_⟩
        rw [rowWidths_blank width plain]
        exact paired_ones width
    split
    · exact fits.resizeCells
    · have := fits.1
      exact ⟨by omega, fits.2⟩
  have size : (g.install width height v).width = width ∧ (g.install width height v).height = height := by
    rw [install_frame]
    exact ⟨rfl, rfl⟩
  refine ⟨⟨⟨wf, fun l member => ?_⟩, fun l member => (line l member).2⟩, size.1, size.2, ?_, ?_⟩
  · rw [size.1]
    exact (line l member).1
  · rw [install_scrollback, install_frame, List.length_take, List.length_drop]
    change min _ _ ≤ g.scrollbackLimit
    omega
  · rw [install_frame]
    exact fitted.colors

/-- A resize leaves a tidy grid of the requested size. -/
theorem Fitted.resizeReflow (fitted : Fitted w h g) (plain : Plain blank) {width height : ℕ}
    (wide : 0 < width) (tall : 0 < height) (fits : width = g.width ∨ g.Fits u width)
    (cursor : ℕ × ℕ) (pending : Bool) :
    Fitted width height (g.resizeReflow u width height blank cursor pending).1 := by
  have tidy := fitted.tidy
  unfold Grid.resizeReflow
  dsimp only
  rw [Nat.max_eq_left wide, Nat.max_eq_left tall]
  split
  · next same => exact ⟨tidy, same.1.symm, same.2.symm, fitted.history, fitted.colors⟩
  split
  · next grows =>
    have relines := tidy.toShaped.growHeight_relines grows.1 blank
    refine ⟨relines.tidy tidy plain, relines.width.trans grows.2.symm, ?_, ?_, ?_⟩
    · rw [growHeight, markAllDamaged_frame]
    · rw [growHeight, markAllDamaged_frame]
      exact fitted.history
    · rw [relines.kept.2]
      exact fitted.colors
  split
  · next shrinks =>
    have relines := tidy.toShaped.shrinkHeight_relines tall shrinks.1 blank
    refine ⟨relines.tidy tidy plain, relines.width.trans shrinks.2.symm, ?_, ?_, ?_⟩
    · rw [shrinkHeight, markAllDamaged_frame]
    · rw [shrinkHeight_scrollback fitted.history, relines.kept.1]
      exact length_keepNewest ..
    · rw [relines.kept.2]
      exact fitted.colors
  · next other =>
    rcases fits with same | fits
    · omega
    · exact fitted.reflowWidth u plain wide tall fits cursor pending

/-- The cursor that a change of size returns is on the new screen. -/
theorem resizeReflow_cursor (g : Grid) (blank : Cell) {width height : ℕ} (wide : 0 < width)
    (tall : 0 < height) (changes : ¬(width = g.width ∧ height = g.height)) (cursor : ℕ × ℕ)
    (row : cursor.2 < g.height) (pending : Bool) :
    (g.resizeReflow u width height blank cursor pending).2.1 < width ∧
      (g.resizeReflow u width height blank cursor pending).2.2.1 < height := by
  unfold Grid.resizeReflow
  dsimp only
  rw [Nat.max_eq_left wide, Nat.max_eq_left tall, if_neg changes]
  split
  · dsimp only
    omega
  split
  · dsimp only
    omega
  · unfold Grid.reflowWidth
    dsimp only
    omega

end Resize

end Uniterm.Model.Grid
