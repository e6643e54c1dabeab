import Uniterm.Model.Grid.Stored
import Uniterm.Soundness.Grid.Content
import Uniterm.ToMathlib.DropRight

/-! # Stored lines and live lines

A stored line is what a client can tell about a live one. Storing commutes with reading the glyph
leads of a row and with cutting them into rows of another width, so the reference reflow shows the
stored form of the rows that the streaming one builds.
-/

namespace Uniterm.Model.Grid

open ToMathlib

/-- A cell whose handles are the ones that the grid gives out. -/
structure Named (g : Grid) (c : Cell) : Prop where
  cluster : c.cluster ≠ 0 → ∃ text, g.clusters[c.cluster]? = some text ∧ 1 < text.length
  underline : c.underlineColor ≠ 0 →
    ∃ color, g.underlineColors[c.underlineColor]? = some color ∧ color ≠ .default
  hyperlink : c.hyperlink = 0

/-- The grids that both reflows are made for: rows of blocks no longer than the grid is wide,
wrapped rows full, no hyperlinks, and arenas as the grid fills them. -/
structure Storable (g : Grid) : Prop where
  wide : 0 < g.width
  tall : 0 < g.height
  lines : g.lines.length = g.height
  short : ∀ line ∈ g.scrollback ++ g.lines, line.cells.length ≤ g.width
  paired : ∀ line ∈ g.scrollback ++ g.lines, Paired (line.cells.map Cell.width)
  soft : ∀ line ∈ g.scrollback ++ g.lines, line.wrapped = true → line.cells.length = g.width
  named : ∀ line ∈ g.scrollback ++ g.lines, ∀ c ∈ line.cells, Named g c
  colors : g.DefaultFirst
  palette : g.underlineColors.length ≤ 256

section Cells

variable {g : Grid}

theorem named_default (g : Grid) : Named g {} := ⟨fun used => absurd rfl used, fun used => absurd rfl used, rfl⟩

theorem storeCell_default (first : g.DefaultFirst) : g.storeCell {} = defaultSaved := by
  have color : g.underlineColor 0 = .default := by rw [underlineColor, first]; rfl
  simp [storeCell, defaultSaved, cellTextOwned, Cell.isContinuation, color]

/-- The two notions of a blank agree. -/
theorem storedBlank_storeCell {c : Cell} (named : Named g c) :
    storedCellIsDefaultBlank (g.storeCell c) = g.isDefaultBlank c := by
  unfold storedCellIsDefaultBlank isDefaultBlank storeCell cellTextOwned
  rw [named.hyperlink]
  cases follows : c.isContinuation with
  | true => simp
  | false =>
    by_cases used : c.cluster = 0
    · simp [used]
    · obtain ⟨text, held, long⟩ := named.cluster used
      have other : (text == [' ']) = false := by
        refine beq_false_of_ne ?_
        rintro rfl
        exact absurd long (by decide)
      simp [used, held, other]

/-- A blank of one column is the default cell. -/
theorem eq_default_of_blank {c : Cell} (named : Named g c) (blank : g.isDefaultBlank c = true)
    (one : c.width = 1) : c = {} := by
  simp only [isDefaultBlank, Bool.and_eq_true, beq_iff_eq, Bool.not_eq_eq_eq_not, Bool.not_true] at blank
  obtain ⟨⟨⟨⟨⟨⟨⟨ch, cluster⟩, _⟩, fg⟩, bg⟩, attrs⟩, link⟩, color⟩ := blank
  have underline : c.underlineColor = 0 := by
    by_contra used
    obtain ⟨held, found, other⟩ := named.underline used
    rw [underlineColor, found] at color
    exact other color
  cases c
  simp_all

end Cells

section Rows

variable {g : Grid} {width : ℕ}

/-- What a row of cells shows over a number of columns. -/
def showCells (g : Grid) (width : ℕ) (cells : List Cell) : List StoredCell :=
  (cells ++ List.replicate (width - cells.length) ({} : Cell)).map g.storeCell

def showLine (g : Grid) (width : ℕ) (line : Line) : StoredLine where
  cells := g.showCells width line.cells
  wrapped := line.wrapped

theorem length_showCells {cells : List Cell} (short : cells.length ≤ width) :
    (g.showCells width cells).length = width := by
  rw [showCells, List.length_map, List.length_append, List.length_replicate]
  omega

/-- Trailing default cells do not show. -/
theorem showCells_pad {cells : List Cell} {n : ℕ} (short : cells.length + n ≤ width) :
    g.showCells width (cells ++ List.replicate n ({} : Cell)) = g.showCells width cells := by
  unfold showCells
  rw [List.append_assoc, List.replicate_append_replicate, List.length_append, List.length_replicate]
  congr 3
  omega

theorem showCells_resize {cells : List Cell} (short : cells.length ≤ width) :
    g.showCells width (resizeCells width cells) = g.showCells width cells := by
  rw [resizeCells, List.take_of_length_le short]
  exact showCells_pad (by omega)

theorem showCells_trim {cells : List Cell} (short : cells.length ≤ width) :
    g.showCells width (Line.trimCells cells) = g.showCells width cells := by
  obtain ⟨n, whole⟩ := trimCells_append cells
  have total := congrArg List.length whole
  rw [List.length_append, List.length_replicate] at total
  conv_rhs => rw [whole]
  exact (showCells_pad (by omega)).symm

/-- The next cell of a row shows at the first free column. -/
theorem showCells_concat {cells : List Cell} (room : cells.length < width) (c : Cell) :
    g.showCells width (cells ++ [c]) = (g.showCells width cells).set cells.length (g.storeCell c) := by
  have pad : List.replicate (width - cells.length) ({} : Cell) =
      {} :: List.replicate (width - (cells.length + 1)) {} := by
    rw [← List.replicate_succ]
    congr 1
    omega
  unfold showCells
  rw [pad, List.length_append, List.length_singleton, List.map_append, List.map_append, List.map_append,
    List.set_append_right _ _ (by rw [List.length_map]), List.length_map, Nat.sub_self, List.append_assoc]
  rfl

/-- A line of the grid, read column by column. -/
theorem lineCell_shows {i : ℕ} {line : Line} (read : g.line i = some line)
    (short : line.cells.length ≤ g.width) :
    (List.range g.width).map (fun x => g.storeCell (g.lineCell i x)) = g.showCells g.width line.cells ∧
      g.lineWrapped i = line.wrapped := by
  refine ⟨?_, by rw [lineWrapped, read, Option.any_some]⟩
  unfold lineCell
  simp only [read, Option.bind_some]
  exact range_map_getD g.storeCell line.cells {} short

/-- The stored form of a line. -/
def savedLine (g : Grid) (line : Line) : StoredLine where
  cells := if line.wrapped then g.showCells g.width line.cells else
    (g.showCells g.width line.cells).rdropWhile storedCellIsDefaultBlank
  wrapped := line.wrapped

theorem storeLine_line {i : ℕ} {line : Line} (read : g.line i = some line)
    (short : line.cells.length ≤ g.width) : g.storeLine i = g.savedLine line := by
  obtain ⟨cells, wrapped⟩ := lineCell_shows read short
  rw [storeLine, cells, wrapped, savedLine]

/-- The stored row gives the stored leads of the live row. -/
theorem storedLeads_line {line : Line} (first : g.DefaultFirst) (named : ∀ c ∈ line.cells, Named g c)
    (soft : line.wrapped = true → line.cells.length = g.width) :
    storedLeads (g.savedLine line) = (g.lineLeads line).map g.storeCell := by
  have filtered (cells : List Cell) : (cells.map g.storeCell).filter (fun c => !c.continuation) =
      (cells.filter fun c => !c.isContinuation).map g.storeCell := List.filter_map ..
  unfold storedLeads savedLine lineLeads
  cases wrapped : line.wrapped with
  | true =>
    have none : g.width - line.cells.length = 0 := by rw [soft wrapped, Nat.sub_self]
    simp only [↓reduceIte, showCells, none, List.replicate_zero, List.append_nil, filtered]
  | false =>
    simp only [Bool.false_eq_true, ↓reduceIte]
    rw [rdropWhile_filter_rdropWhile, showCells, filtered, rdropWhile_map, List.filter_append]
    have padding : ∀ c ∈ (List.replicate (g.width - line.cells.length) ({} : Cell)).filter
        (fun c => !c.isContinuation), (storedCellIsDefaultBlank ∘ g.storeCell) c = true := by
      intro c member
      rw [List.eq_of_mem_replicate (List.mem_of_mem_filter member), Function.comp_apply,
        storeCell_default first]
      rfl
    rw [rdropWhile_append_all _ padding]
    congr 1
    refine rdropWhile_congr fun c member => ?_
    exact storedBlank_storeCell (named c (List.mem_of_mem_filter member))

end Rows

section Emit

variable (u : Unicode) {g : Grid} {width : ℕ}

/-- A named glyph lead. -/
structure Lead (g : Grid) (c : Cell) : Prop extends Named g c where
  leads : c.isContinuation = false

theorem Lead.glyphWidth {lead : Cell} (given : Lead g lead) :
    u.glyphWidth (g.storeCell lead).text = g.glyphWidth u lead := by
  unfold storeCell cellTextOwned Grid.glyphWidth
  rw [given.leads]
  by_cases used : lead.cluster = 0
  · simp [used]
  · obtain ⟨text, held, _⟩ := given.cluster used
    simp [used, held]

theorem Lead.storeCell_width {lead : Cell} (given : Lead g lead) {n : ℕ} (positive : 0 < n) :
    g.storeCell { lead with width := n } =
      { g.storeCell lead with width := n, continuation := false } := by
  have placed : ({ lead with width := n } : Cell).isContinuation = false := by
    simp only [Cell.isContinuation, beq_eq_false_iff_ne]
    omega
  simp only [storeCell, cellTextOwned, placed, given.leads]

theorem storeCell_continuation (g : Grid) (lead : Cell) : g.storeCell lead.continuation =
    { g.storeCell lead with text := [], width := 0, continuation := true } := rfl

/-- The stored rows under construction show the live ones. -/
structure Emits (g : Grid) (width : ℕ) (e : Emission) (stored : StoredEmission) : Prop where
  fits : EmissionFits width e
  row : stored.row = g.showCells width e.row
  x : stored.x = e.x
  physical : stored.physical = e.physical.map (g.showLine width)

theorem Emits.wrapRow {e : Emission} {stored : StoredEmission} (emits : Emits g width e stored)
    (first : g.DefaultFirst) : Emits g width (e.wrapRow width) (stored.wrapRow width) where
  fits := emits.fits.wrapRow
  row := by
    rw [Emission.wrapRow, showCells, List.nil_append, List.length_nil, Nat.sub_zero, List.map_replicate,
      storeCell_default first]
    rfl
  x := rfl
  physical := by
    rw [StoredEmission.wrapRow, emits.physical, emits.row, Emission.wrapRow, List.map_append,
      List.map_singleton, showLine, showCells_resize emits.fits.row.1]

/-- Placing a glyph that fits. -/
theorem Emits.append {e : Emission} {stored : StoredEmission} (emits : Emits g width e stored)
    {lead : Cell} (given : Lead g lead) {glyph : ℕ} (narrow : glyph = 1 ∨ glyph = 2)
    (room : e.x + glyph ≤ width) (small : e.x + glyph < 65536) :
    ∃ stored', stored.place (g.storeCell lead) glyph = some stored' ∧
      Emits g width { e with
        row := e.row ++ { lead with width := glyph } :: if glyph = 2 then [lead.continuation] else []
        x := e.x + glyph } stored' := by
  have column := emits.fits.column
  have length := length_showCells (g := g) emits.fits.row.1
  have placed := given.storeCell_width (n := glyph) (by omega)
  have fits := emits.fits.append lead narrow room
  have inside : e.row.length < width := by omega
  unfold StoredEmission.place
  rw [← column] at fits small
  rw [emits.row, emits.x, ← column, Nat.mod_eq_of_lt small, setStored,
    if_pos (by rw [length]; exact inside), ← placed, ← showCells_concat inside, Option.bind_eq_bind,
    Option.bind_some]
  rcases narrow with rfl | rfl
  · rw [if_neg (by decide)]
    exact ⟨_, rfl, fits, rfl, rfl, emits.physical⟩
  · have next : (e.row ++ [{ lead with width := 2 }]).length = e.row.length + 1 := by simp
    have full : (e.row ++ [({ lead with width := 2 } : Cell)]).length < width := by omega
    rw [if_pos rfl, setStored, if_pos (by rw [length_showCells (by omega)]; omega),
      ← storeCell_continuation, ← next, ← showCells_concat full, List.append_assoc]
    exact ⟨_, rfl, fits, rfl, rfl, emits.physical⟩

theorem Emits.emitLead {e : Emission} {stored : StoredEmission} (emits : Emits g width e stored)
    (first : g.DefaultFirst) (wide : 0 < width) {lead : Cell} (given : Lead g lead)
    (sum : e.x + min (g.glyphWidth u lead) width < 65536) :
    ∃ stored', stored.emitGlyph u width (g.storeCell lead) = some stored' ∧
      Emits g width (Grid.emitLead u g width e lead) stored' := by
  have bounds := glyphWidth_bounds u g lead
  have narrow : min (g.glyphWidth u lead) width = 1 ∨ min (g.glyphWidth u lead) width = 2 := by omega
  have room : min (g.glyphWidth u lead) width ≤ width := Nat.min_le_right ..
  unfold StoredEmission.emitGlyph Grid.emitLead
  dsimp only
  rw [given.glyphWidth, emits.x]
  generalize min (g.glyphWidth u lead) width = glyph at *
  rw [Nat.mod_eq_of_lt sum]
  by_cases wraps : e.x > 0 ∧ e.x + glyph > width
  · rw [if_pos wraps, if_pos wraps]
    have start : (e.wrapRow width).x = 0 := rfl
    have placed := (emits.wrapRow first).append given narrow (by rw [start]; omega) (by rw [start]; omega)
    rwa [Nat.mod_eq_of_lt (by rw [start]; omega)]
  · rw [if_neg wraps, if_neg wraps, Nat.mod_eq_of_lt sum]
    have column := emits.fits.row.1
    rw [emits.fits.column] at column
    exact emits.append given narrow (by omega) sum

theorem Emits.emit {leads : List Cell} {e : Emission} {stored : StoredEmission}
    (emits : Emits g width e stored) (first : g.DefaultFirst) (wide : 0 < width)
    (given : ∀ c ∈ leads, Lead g c)
    (sums : recutFits width e.x (leads.map fun lead => min (g.glyphWidth u lead) width)) :
    ∃ stored', (leads.map g.storeCell).foldlM (StoredEmission.emitGlyph u width) stored =
        some stored' ∧ Emits g width (leads.foldl (Grid.emitLead u g width) e) stored' := by
  induction leads generalizing e stored with
  | nil => exact ⟨stored, rfl, emits⟩
  | cons lead rest ih =>
    obtain ⟨here, later⟩ := sums
    have column := (emits.fits.emitLead u g wide lead here).2
    obtain ⟨next, placed, emitted⟩ := emits.emitLead u first wide (given lead (List.mem_cons_self ..)) here
    obtain ⟨last, ran, done⟩ := ih emitted (fun c member => given c (.tail _ member)) (column ▸ later)
    refine ⟨last, ?_, done⟩
    rw [List.map_cons, List.foldlM_cons, placed]
    exact ran

/-- Cutting the stored leads shows the rows cut from the live ones. -/
theorem recutLine_shows {leads : List Cell} {physical : List Line} (first : g.DefaultFirst)
    (wide : 0 < width) (given : ∀ c ∈ leads, Lead g c)
    (sums : recutFits width 0 (leads.map fun lead => min (g.glyphWidth u lead) width))
    (nextLineId : ℕ) (rows : ∀ line ∈ physical, RowFits width line.cells) :
    recutLine u width (physical.map (g.showLine width)) (leads.map g.storeCell) =
      some ((emitLogicalLine u g width leads physical nextLineId).1.map (g.showLine width)) := by
  have blank : List.replicate width defaultSaved = g.showCells width [] := by
    rw [showCells, List.nil_append, List.length_nil, Nat.sub_zero, List.map_replicate,
      storeCell_default first]
  have start : Emits g width { physical, nextLineId }
      { row := List.replicate width defaultSaved, physical := physical.map (g.showLine width) } :=
    ⟨⟨rfl, ⟨Nat.zero_le _, paired_nil⟩, rows⟩, blank, rfl, rfl⟩
  obtain ⟨stored, ran, emits⟩ := start.emit u first wide given sums
  unfold recutLine emitLogicalLine
  rw [ran, Option.bind_eq_bind, Option.bind_some, emits.row, emits.physical, List.map_append,
    List.map_singleton, showLine, showCells_trim emits.fits.row.1]

end Emit

end Uniterm.Model.Grid
