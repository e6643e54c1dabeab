import Mathlib.Algebra.Group.Action.Defs
import Mathlib.Algebra.Order.BigOperators.Group.List
import Mathlib.Algebra.Order.Ring.Nat
import Uniterm.Soundness.Grid.Arena

/-! # The streaming reflow shows what the reference shows

The rows that the streaming reflow chooses, shown column by column, are the stored rows that the
reference rebuilds its grid from.
-/

namespace Uniterm.Model.Grid

open ToMathlib Machine

section Blocks

variable (u : Unicode) {g : Grid} {width : ℕ}

theorem Blocks.append {palette : List Color} {first second : List StoredCell}
    (left : Blocks palette first) (right : Blocks palette second) : Blocks palette (first ++ second) := by
  induction left with
  | nil => exact right
  | narrow width leads text color _ ih => exact .narrow width leads text color ih
  | wide width leads text color _ ih => exact .wide width leads text color ih

private theorem underlineColor_mem (first : g.DefaultFirst) (h : ℕ) : g.underlineColor h ∈ g.underlineColors := by
  unfold Grid.underlineColor
  cases read : g.underlineColors[h]? with
  | none => exact List.mem_of_getElem? first
  | some color => exact List.mem_of_getElem? read

theorem Lead.text {lead : Cell} (given : Lead g lead) : (g.storeCell lead).text ≠ [] := by
  unfold storeCell cellTextOwned
  rw [given.leads]
  by_cases used : lead.cluster = 0
  · simp [used]
  · obtain ⟨text, held, long⟩ := given.cluster used
    have some : text ≠ [] := by
      rintro rfl
      exact absurd long (by decide)
    simp [used, held, some]

private theorem blocks_blank (first : g.DefaultFirst) {blank : Cell} (space : Space blank) (n : ℕ) :
    Blocks g.underlineColors (List.replicate n (g.storeCell blank)) := by
  have text : (g.storeCell blank).text = [' '] := by
    simp [storeCell, cellTextOwned, Cell.isContinuation, space.ch, space.width, space.cluster]
  have leads : (g.storeCell blank).continuation = false := by
    simp [storeCell, Cell.isContinuation, space.width]
  induction n with
  | zero => exact .nil
  | succ n ih =>
    refine .narrow space.width leads ?_ (underlineColor_mem first _) ih
    rw [text]
    simp

/-- A lead with its width, and its continuation, is a block. -/
theorem Lead.blocks {lead : Cell} (given : Lead g lead) (first : g.DefaultFirst) {n : ℕ}
    (narrow : n = 1 ∨ n = 2) : Blocks g.underlineColors
      (({ lead with width := n } :: if n = 2 then [lead.continuation] else []).map g.storeCell) := by
  have color := underlineColor_mem first lead.underlineColor
  have placed := given.storeCell_width (n := n) (by omega)
  rw [List.map_cons, placed]
  rcases narrow with rfl | rfl
  · exact .narrow rfl rfl given.text color .nil
  · exact .wide rfl rfl given.text color .nil

/-- The row under construction and the rows finished so far consist of blocks. -/
structure EmissionBlocks (g : Grid) (width : ℕ) (e : Emission) : Prop where
  row : Blocks g.underlineColors (e.row.map g.storeCell)
  physical : ∀ line ∈ e.physical, Blocks g.underlineColors (g.showCells width line.cells)

private theorem blocks_showCells (first : g.DefaultFirst) {cells : List Cell}
    (blocks : Blocks g.underlineColors (cells.map g.storeCell)) :
    Blocks g.underlineColors (g.showCells width cells) := by
  rw [showCells, List.map_append, List.map_replicate]
  exact blocks.append (blocks_blank first ⟨rfl, rfl, rfl⟩ _)

theorem EmissionBlocks.emitLead {e : Emission} (blocks : EmissionBlocks g width e)
    (first : g.DefaultFirst) (wide : 0 < width) (row : e.row.length ≤ width) {lead : Cell}
    (given : Lead g lead) : EmissionBlocks g width (Grid.emitLead u g width e lead) := by
  have bounds := glyphWidth_bounds u g lead
  have narrow : min (g.glyphWidth u lead) width = 1 ∨ min (g.glyphWidth u lead) width = 2 := by omega
  have wrapped : EmissionBlocks g width (e.wrapRow width) := by
    refine ⟨.nil, fun line member => ?_⟩
    rcases List.mem_append.mp member with old | fresh
    · exact blocks.physical line old
    · rw [List.mem_singleton.mp fresh, showCells_resize row]
      exact blocks_showCells first blocks.row
  have placed (e : Emission) (blocks : EmissionBlocks g width e) (x : ℕ) : EmissionBlocks g width { e with
      row := e.row ++ { lead with width := min (g.glyphWidth u lead) width } ::
        if min (g.glyphWidth u lead) width = 2 then [lead.continuation] else []
      x } := by
    refine ⟨?_, blocks.physical⟩
    rw [List.map_append]
    exact blocks.row.append (given.blocks first narrow)
  unfold Grid.emitLead
  dsimp only
  split
  · exact placed _ wrapped _
  · exact placed _ blocks _

theorem EmissionBlocks.emit {leads : List Cell} {e : Emission} (blocks : EmissionBlocks g width e)
    (fits : EmissionFits width e) (first : g.DefaultFirst) (wide : 0 < width)
    (given : ∀ c ∈ leads, Lead g c)
    (sums : recutFits width e.x (leads.map fun lead => min (g.glyphWidth u lead) width)) :
    EmissionBlocks g width (leads.foldl (Grid.emitLead u g width) e) := by
  induction leads generalizing e with
  | nil => exact blocks
  | cons lead rest ih =>
    obtain ⟨here, later⟩ := sums
    obtain ⟨emitted, column⟩ := fits.emitLead u g wide lead here
    rw [List.foldl_cons]
    exact ih (blocks.emitLead u first wide fits.row.1 (given lead (List.mem_cons_self ..))) emitted
      (fun c member => given c (.tail _ member)) (column ▸ later)

/-- Every row of a reflow fits and shows as a row of blocks. -/
theorem Storable.reflowLines_blocks (storable : g.Storable) (wide : 0 < width) (fits : g.Fits u width)
    (cursor : ℕ × ℕ) : ∀ line ∈ (reflowLines u g width cursor).physical,
      RowFits width line.cells ∧ Blocks g.underlineColors (g.showCells width line.cells) := by
  have first := storable.colors
  have rows : (reflowLines u g width cursor).physical =
      (emitAll u g width g.logicalLines ([], g.nextLineId)).1 :=
    congrArg Prod.fst (reflowLines_rows u g width cursor)
  have leads := logicalLines_all (g := g) fun line member => (storable.joinable member).leads
  rw [rows]
  refine emitAll_rows u (fun line member physical nextLineId given => ?_) _ (by simp)
  have start : EmissionFits width { physical, nextLineId } :=
    ⟨rfl, ⟨Nat.zero_le _, paired_nil⟩, fun line member => (given line member).1⟩
  have startBlocks : EmissionBlocks g width { physical, nextLineId } :=
    ⟨.nil, fun line member => (given line member).2⟩
  have emitted := start.emit u g wide (fits line member)
  have blocks := startBlocks.emit u start first wide (leads line member) (fits line member)
  intro line inside
  rcases List.mem_append.mp inside with old | last
  · exact ⟨emitted.physical line old, blocks.physical line old⟩
  · rw [List.mem_singleton.mp last]
    refine ⟨emitted.row.trimCells, ?_⟩
    rw [showCells_trim emitted.row.1]
    exact blocks_showCells first blocks.row

theorem Storable.viewport_fillable (storable : g.Storable) (wide : 0 < width) (fits : g.Fits u width)
    {blank : Cell} (styled : Space blank) (height : ℕ) (cursor : ℕ × ℕ) (pending : Bool) :
    ∀ line ∈ (reflowViewport u g width height blank cursor pending).physical,
      line.cells.length ≤ width ∧ Fillable g.underlineColors width (g.showLine width line) := by
  intro line member
  rcases mem_reflowViewport u g width height blank cursor pending line member with emitted | ⟨id, rfl⟩
  · obtain ⟨row, blocks⟩ := storable.reflowLines_blocks u wide fits cursor line emitted
    exact ⟨row.1, blocks, length_showCells row.1⟩
  · refine ⟨List.length_replicate.le, ?_⟩
    rw [showLine_blank]
    exact ⟨blocks_blank storable.colors styled width, List.length_replicate⟩

end Blocks

section View

variable (u : Unicode) {g : Grid}

/-- Everything a reader can observe about the lines of a grid. -/
def view (g : Grid) : List StoredLine :=
  (List.range g.totalLines).map fun i =>
    { cells := (List.range g.width).map fun x => g.storeCell (g.lineCell i x)
      wrapped := g.lineWrapped i }

private theorem view_eq (lines : g.lines.length = g.height)
    (short : ∀ line ∈ g.scrollback ++ g.lines, line.cells.length ≤ g.width) :
    g.view = (g.scrollback ++ g.lines).map (g.showLine g.width) := by
  have total : g.totalLines = (g.scrollback ++ g.lines).length := by
    rw [totalLines, List.length_append, lines]
  refine List.ext_getElem (by simp [view, total]) fun i left right => ?_
  rw [List.length_map] at right
  have read : g.line i = some (g.scrollback ++ g.lines)[i] := by
    rw [line_eq, List.getElem?_eq_getElem right]
  obtain ⟨cells, wrapped⟩ := lineCell_shows read (short _ (List.getElem_mem right))
  simp only [view, List.getElem_map, List.getElem_range, cells, wrapped, showLine]

/-- What the reference rebuilds never compacts the grapheme arena under a line that already names a
grapheme. -/
structure NamesKept (g : Grid) (width height : ℕ) (blank : Cell) (cursor : ℕ × ℕ) (pending : Bool) :
    Prop where
  keeps : ∀ v, referenceRows u g width height blank cursor pending = some v →
    LinesKeepNames (v.screenStart - (v.screenStart - g.scrollbackLimit))
      (rebuildStart width height g.scrollbackLimit)
      (v.physical.drop (v.screenStart - g.scrollbackLimit)).zipIdx

/-- The installed rows show the rows that the viewport keeps. -/
theorem install_view {width height : ℕ} {v : Viewport}
    (length : v.physical.length = v.screenStart + height)
    (short : ∀ line ∈ v.physical, line.cells.length ≤ width) :
    let installed := g.install width height v
    installed.view = (v.physical.drop (v.screenStart - g.scrollbackLimit)).map (g.showLine width) ∧
      installed.scrollback.length = v.screenStart - (v.screenStart - g.scrollbackLimit) ∧
      installed.retainedCellCount ≤
        (v.physical.drop (v.screenStart - g.scrollbackLimit)).length * width := by
  have later : v.physical.drop v.screenStart =
      (v.physical.drop (v.screenStart - g.scrollbackLimit)).drop
        (v.screenStart - (v.screenStart - g.scrollbackLimit)) := by
    rw [List.drop_drop]
    congr 1
    omega
  have padded (line : Line) (member : line ∈ v.physical) :
      let line' := if line.cells.length < width then
        { line with cells := resizeCells width line.cells } else line
      line'.cells.length ≤ width ∧ g.showLine width line' = g.showLine width line := by
    dsimp only
    split
    · next few =>
      refine ⟨?_, ?_⟩
      · simp only [resizeCells, List.length_append, List.length_take, List.length_replicate]
        omega
      · rw [showLine, showLine, showCells_resize few.le]
    · exact ⟨short line member, rfl⟩
  have size : (g.install width height v).width = width ∧ (g.install width height v).height = height := by
    rw [install_frame]
    exact ⟨rfl, rfl⟩
  have same : (g.install width height v).showLine width = g.showLine width := by
    rw [install_frame]
    rfl
  have rows : ∀ line ∈ (g.install width height v).scrollback ++ (g.install width height v).lines,
      line.cells.length ≤ width := by
    intro line member
    rw [install_scrollback, install_lines] at member
    rcases List.mem_append.mp member with history | screen
    · exact short line (List.mem_of_mem_drop (List.mem_of_mem_take history))
    · obtain ⟨old, before, rfl⟩ := List.mem_map.mp screen
      exact (padded old (List.mem_of_mem_drop before)).1
  have count : (g.install width height v).scrollback.length =
      v.screenStart - (v.screenStart - g.scrollbackLimit) := by
    rw [install_scrollback, List.length_take, List.length_drop]
    omega
  have screen : (g.install width height v).lines.length = height := by
    rw [install_lines, List.length_map, List.length_drop]
    omega
  refine ⟨?_, count, ?_⟩
  · rw [view_eq (screen.trans size.2.symm) (by rw [size.1]; exact rows), size.1, same, install_scrollback,
      install_lines, List.map_append, List.map_map]
    have kept : (v.physical.drop v.screenStart).map (g.showLine width ∘ fun line =>
        if line.cells.length < width then { line with cells := resizeCells width line.cells } else line) =
        (v.physical.drop v.screenStart).map (g.showLine width) :=
      List.map_congr_left fun line member => (padded line (List.mem_of_mem_drop member)).2
    rw [kept, later, ← List.map_append, List.take_append_drop]
  · have total : ((g.install width height v).scrollback ++ (g.install width height v).lines).length =
        (v.physical.drop (v.screenStart - g.scrollbackLimit)).length := by
      rw [List.length_append, count, screen, List.length_drop]
      omega
    rw [retainedCellCount, ← total]
    refine (List.sum_le_card_nsmul _ width fun n member => ?_).trans (by rw [List.length_map, smul_eq_mul])
    obtain ⟨line, inside, rfl⟩ := List.mem_map.mp member
    exact rows line inside

/-- A grid that shows full stored rows holds exactly as many cells. -/
theorem shown_view {width : ℕ} {rows : List StoredLine} (size : g.width = width)
    (lines : g.lines.length = g.height) (full : ∀ stored ∈ rows, stored.cells.length = width)
    (shows : g.shownLines (g.scrollback ++ g.lines) = rows) :
    g.view = rows ∧ g.retainedCellCount = rows.length * width := by
  have row (line : Line) (member : line ∈ g.scrollback ++ g.lines) : line.cells.length = width := by
    have stored : ({ cells := line.cells.map g.storeCell, wrapped := line.wrapped } : StoredLine) ∈ rows :=
      shows ▸ List.mem_map_of_mem member
    simpa using full _ stored
  have count := congrArg List.length shows
  rw [shownLines, List.length_map] at count
  refine ⟨?_, ?_⟩
  · rw [view_eq lines fun line member => (row line member).trans size.symm |>.le, ← shows]
    refine List.map_congr_left fun line member => ?_
    rw [showLine, showCells, row line member, size, Nat.sub_self, List.replicate_zero, List.append_nil]
  · rw [retainedCellCount, List.sum_eq_card_nsmul _ width fun n member => ?_, List.length_map, count,
      smul_eq_mul]
    obtain ⟨line, inside, rfl⟩ := List.mem_map.mp member
    exact row line inside

/-- At another width, the streaming reflow and the reference return the same cursor and show the
same lines, provided that no column sum leaves 16 bits and that rebuilding never compacts the
grapheme arena under a line that already names a grapheme; the streaming one retains no more
cells. -/
theorem resizeReflow_reference (storable : g.Storable) (space : u.glyphWidth [' '] = 1)
    {width height : ℕ} (changes : max width 1 ≠ g.width) (fits : g.Fits u (max width 1)) {blank : Cell}
    (styled : Space blank) (cursor : ℕ × ℕ) (pending : Bool)
    (names : NamesKept u g (max width 1) (max height 1) blank cursor pending) :
    let streamed := g.resizeReflow u width height blank cursor pending
    ∃ reference, resizeReflowReference u g width height blank cursor pending =
        some (reference, streamed.2) ∧
      streamed.1.scrollback.length = reference.scrollback.length ∧
      streamed.1.view = reference.view ∧
      streamed.1.retainedCellCount ≤ reference.retainedCellCount := by
  have wide : 0 < max width 1 := by omega
  have chosen := storable.referenceRows u (max height 1) space wide fits styled cursor pending
  have fillable := storable.viewport_fillable u wide fits styled (max height 1) cursor pending
  have length := reflowViewport_length u g (max width 1) (max height 1) blank cursor pending
  have names := names.keeps _ chosen
  have offset := (storable.agreed u wide fits cursor).cursorOffset
  have streams : g.resizeReflow u width height blank cursor pending =
      g.reflowWidth u (max width 1) (max height 1) blank cursor pending := by
    simp only [Grid.resizeReflow, changes, false_and, and_false, ↓reduceIte]
  have cursors := reflowWidth_cursor u g (max width 1) (max height 1) blank cursor pending
  dsimp only at cursors ⊢
  rw [streams, cursors, reflowWidth_grid]
  unfold resizeReflowReference
  dsimp only
  rw [if_neg (fun same => changes same.1), if_neg (fun same => changes same.2), chosen, offset]
  generalize reflowViewport u g (max width 1) (max height 1) blank cursor pending = v
    at fillable length names
  generalize max width 1 = width at *
  generalize max height 1 = height at *
  obtain ⟨view, history, cells⟩ := install_view (g := g) length fun line member => (fillable line member).1
  have kept : ∀ stored ∈ (v.physical.drop (v.screenStart - g.scrollbackLimit)).map (g.showLine width),
      Fillable g.underlineColors width stored := by
    intro stored member
    obtain ⟨line, inside, rfl⟩ := List.mem_map.mp member
    exact (fillable line (List.mem_of_mem_drop inside)).2
  have total : ((v.physical.drop (v.screenStart - g.scrollbackLimit)).map (g.showLine width)).length =
      v.screenStart - (v.screenStart - g.scrollbackLimit) + height := by
    rw [List.length_map, List.length_drop]
    omega
  rw [Viewport.shown, ← List.map_drop] at names
  obtain ⟨shows, size, tall, history', lines⟩ := rebuild_shows storable.palette
    (List.mem_of_getElem? storable.colors) g.scrollbackLimit blank kept total names
  obtain ⟨view', cells'⟩ := shown_view size (lines.trans tall.symm) (fun stored member =>
    (kept stored member).full) shows
  refine ⟨_, ?_, history.trans history'.symm, view.trans view'.symm, ?_⟩
  · rw [Option.bind_eq_bind, Option.bind_some, Viewport.shown, ← List.map_drop]
  · refine cells.trans ?_
    rw [List.length_map] at cells'
    exact cells'.ge

end View

section Count

variable (u : Unicode) {g : Grid} {width : ℕ}

/-- A text of several codepoints is content. -/
theorem clusterCount_showCells (width : ℕ) (cells : List Cell) : clusterCount (g.showCells width cells) =
    (g.ink cells).countP fun glyph => 1 < glyph.text.length := by
  have blank : clusterCount ((List.replicate (width - cells.length) ({} : Cell)).map g.storeCell) = 0 := by
    refine List.countP_eq_zero.mpr fun c member => ?_
    rw [List.map_replicate] at member
    rw [List.eq_of_mem_replicate member]
    simp [storeCell, cellTextOwned, Cell.isContinuation]
  rw [showCells, List.map_append, clusterCount, List.countP_append, ← clusterCount, ← clusterCount, blank,
    Nat.add_zero, clusterCount, List.countP_map, ink, List.countP_map, List.countP_filter]
  refine List.countP_congr fun c _ => ?_
  simp only [Function.comp_apply, decide_eq_true_eq, Bool.and_eq_true]
  refine ⟨fun long => ⟨long, ?_⟩, fun both => both.1⟩
  simp only [storeCell, cellTextOwned] at long
  unfold inked isDefaultBlank
  cases follows : c.isContinuation with
  | true => simp [follows] at long
  | false =>
    by_cases used : c.cluster = 0
    · simp [follows, used] at long
    · simp [used]

private theorem rowsClusterCount_showLine (lines : List Line) :
    rowsClusterCount (lines.map (g.showLine width)) =
      (g.linesInk lines).countP fun glyph => 1 < glyph.text.length := by
  induction lines with
  | nil => rfl
  | cons line rest ih =>
    rw [linesInk_cons, List.countP_append, ← ih, ← clusterCount_showCells width]
    rfl

/-- Fewer than 4096 cells with a text of several codepoints never fill the arena. -/
theorem namesKept_of_few (storable : g.Storable) (space : u.glyphWidth [' '] = 1) {height : ℕ}
    (wide : 0 < width) (fits : g.Fits u width) {blank : Cell} (styled : Space blank) (cursor : ℕ × ℕ)
    (pending : Bool) (few : (g.content.countP fun glyph => 1 < glyph.text.length) < 4096) :
    NamesKept u g width height blank cursor pending := by
  refine ⟨fun v chosen => ?_⟩
  rw [storable.referenceRows u height space wide fits styled cursor pending] at chosen
  cases chosen
  have framed : Framed g width blank (reflowLines u g width cursor).physical
      (reflowViewport u g width height blank cursor pending).physical :=
    reflowViewport_framed u cursor pending
  have keeps := framed.keeps (reflowLines_content u storable.colors wide fits cursor)
    ((reflowViewport u g width height blank cursor pending).screenStart - g.scrollbackLimit)
  generalize reflowViewport u g width height blank cursor pending = v at keeps ⊢
  obtain ⟨above, old, below, now, blanks, suffix, _⟩ := keeps
  have plain (glyphs : List Glyph) (all : ∀ glyph ∈ glyphs, glyph = g.glyph blank) :
      (glyphs.countP fun glyph => 1 < glyph.text.length) = 0 := by
    refine List.countP_eq_zero.mpr fun glyph member => ?_
    rw [all glyph member]
    simp [Grid.glyph, cellTextOwned, Cell.isContinuation, styled.width, styled.cluster]
  have count : rowsClusterCount ((v.physical.drop (v.screenStart - g.scrollbackLimit)).map
      (g.showLine width)) < 4096 := by
    rw [rowsClusterCount_showLine, now, List.countP_append, List.countP_append,
      plain above fun glyph member => blanks.glyphs glyph (List.mem_append_left _ member),
      plain below fun glyph member => blanks.glyphs glyph (List.mem_append_right _ member)]
    have := suffix.sublist.countP_le (p := fun glyph : Glyph => 1 < glyph.text.length)
    omega
  have roomy : Roomy (rebuildStart width height g.scrollbackLimit)
      (rowsClusterCount ((v.physical.drop (v.screenStart - g.scrollbackLimit)).map (g.showLine width)) + 0) :=
    ⟨rfl, by change 1 + _ ≤ 4096; omega⟩
  rw [Viewport.shown, ← List.map_drop]
  exact roomy.rows

end Count
section Letters

/-- A row of accented letters. -/
def accentRow (n : ℕ) : List Cell :=
  (List.range n).map fun i => { ch := Char.ofNat (256 + i % 66), cluster := 1 + i % 66 }

/-- A screen of one such row, in an arena that holds each grapheme once. -/
def accentGrid (n : ℕ) : Grid where
  width := n
  height := 1
  lines := [{ cells := accentRow n, id := 1 }]
  damage := [.clean]
  clusters := accents 66
  nextLineId := 2

private theorem accentGrid_cluster (n i : ℕ) : (accentGrid n).clusters[1 + i % 66]? = some (accented i) := by
  have bound : i % 66 < 66 := Nat.mod_lt _ (by decide)
  change (accents 66)[1 + i % 66]? = _
  rw [Nat.add_comm, accents, List.getElem?_cons_succ, List.getElem?_map, List.getElem?_range bound,
    Option.map_some, accented, accented, Nat.mod_mod]

private theorem accentGrid_storable {n : ℕ} (wide : 0 < n) : (accentGrid n).Storable := by
  have row (line : Line) (member : line ∈ (accentGrid n).scrollback ++ (accentGrid n).lines) :
      line = { cells := accentRow n, id := 1 } := List.mem_singleton.mp member
  refine ⟨wide, Nat.one_pos, rfl, fun line member => ?_, fun line member => ?_, fun line member soft => ?_,
    fun line member c inside => ?_, rfl, by simp [accentGrid]⟩
  · rw [row line member, accentRow, List.length_map, List.length_range]
    exact le_rfl
  · have ones : (accentRow n).map Cell.width = List.replicate n 1 := by
      rw [List.eq_replicate_iff, accentRow, List.map_map]
      exact ⟨by simp, fun w held => by obtain ⟨i, _, rfl⟩ := List.mem_map.mp held; rfl⟩
    rw [row line member, ones]
    exact paired_ones n
  · rw [row line member] at soft
    cases soft
  · rw [row line member] at inside
    obtain ⟨i, _, rfl⟩ := List.mem_map.mp inside
    exact ⟨fun _ => ⟨accented i, accentGrid_cluster n i, by simp [accented]⟩, fun used => absurd rfl used, rfl⟩

/-- Width tables for letters of one column and a combining accent. -/
def accentTables : Unicode where
  charWidth := fun c => some (if c = '\u0301' then 0 else 1)
  strWidth := fun text => (text.filter (· ≠ '\u0301')).length
  graphemes := fun text => (text.filter (· ≠ '\u0301')).length

/-- One-column leads that fit the row stay in it. -/
theorem foldl_emitLead_narrow (u : Unicode) (g : Grid) {width : ℕ} (small : width < 65536)
    (leads : List Cell) (narrow : ∀ c ∈ leads, g.glyphWidth u c = 1 ∧ c.width = 1) (e : Emission)
    (room : e.x + leads.length ≤ width) : leads.foldl (emitLead u g width) e =
      { e with row := e.row ++ leads, x := e.x + leads.length } := by
  induction leads generalizing e with
  | nil => rw [List.append_nil]; rfl
  | cons lead rest ih =>
    obtain ⟨glyph, one⟩ := narrow lead (List.mem_cons_self ..)
    rw [List.length_cons] at room
    have placed : emitLead u g width e lead = { e with row := e.row ++ [lead], x := e.x + 1 } := by
      have min : min 1 width = 1 := by omega
      have same : { lead with width := 1 } = lead := by rw [← one]
      unfold emitLead
      dsimp only
      rw [glyph, min, Nat.mod_eq_of_lt (by omega), if_neg (by omega), Nat.mod_eq_of_lt (by omega), same,
        if_neg (by decide)]
    rw [List.foldl_cons, placed, ih (fun c member => narrow c (.tail _ member)) _ (by dsimp only; omega)]
    simp [List.append_assoc, Nat.add_comm, Nat.add_left_comm]

private theorem accentGrid_glyph (n i : ℕ) : (accentGrid n).glyphWidth accentTables
    { ch := Char.ofNat (256 + i % 66), cluster := 1 + i % 66 } = 1 := by
  have other : Char.ofNat (256 + i % 66) ≠ '\u0301' := by
    intro same
    have codes := congrArg Char.toNat same
    rw [toNat_ofNat (by omega)] at codes
    have : ('\u0301').toNat = 769 := rfl
    omega
  unfold Grid.glyphWidth
  rw [if_pos (by simp), accentGrid_cluster]
  simp [Unicode.glyphWidth, accentTables, accented, other]

/-- No cell of the row is a blank or a default cell. -/
theorem accentRow_rdropWhile {n : ℕ} {p : Cell → Bool}
    (keeps : ∀ i, p { ch := Char.ofNat (256 + i % 66), cluster := 1 + i % 66 } = false) :
    (accentRow n).rdropWhile p = accentRow n := by
  refine List.rdropWhile_eq_self_iff.mpr fun some => ?_
  obtain ⟨i, _, last⟩ := List.mem_map.mp (List.getLast_mem some)
  rw [← last, keeps]
  exact Bool.false_ne_true

/-- Recut for one more column, the letters stay on one row. -/
theorem accentGrid_rows {n : ℕ} (small : n + 1 < 65536) (cursor : ℕ × ℕ) :
    (reflowLines accentTables (accentGrid n) (n + 1) cursor).physical =
      [{ cells := accentRow n, id := 2 }] := by
  have leads : (accentRow n).filter (fun c => !c.isContinuation) = accentRow n := by
    rw [List.filter_eq_self]
    intro c member
    obtain ⟨i, _, rfl⟩ := List.mem_map.mp member
    rfl
  have logical : (accentGrid n).logicalLines = [accentRow n] := by
    have line : (accentGrid n).lineLeads { cells := accentRow n, id := 1 } = accentRow n := by
      rw [lineLeads, leads]
      exact accentRow_rdropWhile fun i => by simp [isDefaultBlank]
    have closed : (accentGrid n).closeLines ((accentGrid n).scrollback ++ (accentGrid n).lines) [] =
        ([accentRow n], []) := by
      change closeLines (accentGrid n) [{ cells := accentRow n, id := 1 }] [] = _
      rw [closeLines, if_neg (by simp), line]
      rfl
    rw [logicalLines, closed]
    rfl
  have rows : (reflowLines accentTables (accentGrid n) (n + 1) cursor).physical = _ :=
    congrArg Prod.fst (reflowLines_rows accentTables (accentGrid n) (n + 1) cursor)
  have emitted := foldl_emitLead_narrow accentTables (accentGrid n) small (accentRow n)
    (fun c member => by obtain ⟨i, _, rfl⟩ := List.mem_map.mp member; exact ⟨accentGrid_glyph n i, rfl⟩)
    { physical := [], nextLineId := 2 } (by simp [accentRow])
  rw [rows, logical]
  change (emitLogicalLine accentTables (accentGrid n) (n + 1) (accentRow n) [] 2).1 = _
  rw [emitLogicalLine, emitted, List.nil_append, List.nil_append]
  have trimmed : Line.trimCells (accentRow n) = accentRow n :=
    accentRow_rdropWhile fun i => by simp
  rw [trimmed]

private theorem accentGrid_shows (n id : ℕ) :
    (accentGrid n).showLine (n + 1) { cells := accentRow n, id } = accentStored n := by
  have shown : (accentRow n).map (accentGrid n).storeCell =
      (List.range n).map fun i => ({ text := accented i } : StoredCell) := by
    rw [accentRow, List.map_map]
    refine List.map_congr_left fun i _ => ?_
    have text := accentGrid_cluster n i
    simp [storeCell, cellTextOwned, Cell.isContinuation, text]
    rfl
  have room : n + 1 - (accentRow n).length = 1 := by
    rw [accentRow, List.length_map, List.length_range]
    omega
  have colors : (accentGrid n).DefaultFirst := rfl
  rw [showLine, showCells, room, List.map_append, shown, List.replicate_one, List.map_singleton,
    storeCell_default colors]
  rfl

private theorem accentGrid_viewport {n : ℕ} (small : n + 1 < 65536) :
    (reflowViewport accentTables (accentGrid n) (n + 1) 1 {} (0, 0) false).physical =
        [{ cells := accentRow n, id := 2 }] ∧
      (reflowViewport accentTables (accentGrid n) (n + 1) 1 {} (0, 0) false).screenStart = 0 := by
  have rows := accentGrid_rows small (0, 0)
  unfold reflowViewport
  dsimp only
  rw [if_neg (by exact Nat.lt_irrefl 1), shrinkViewport, rows]
  exact ⟨rfl, rfl⟩

theorem resizeReflow_reference_letters : ∃ reference,
    resizeReflowReference accentTables (accentGrid 2) 1 3 { bg := .idx 4 } (2, 0) true =
        some (reference,
          ((accentGrid 2).resizeReflow accentTables 1 3 { bg := .idx 4 } (2, 0) true).2) ∧
      ((accentGrid 2).resizeReflow accentTables 1 3 { bg := .idx 4 } (2, 0) true).1.view =
        reference.view := by
  have storable : (accentGrid 2).Storable := accentGrid_storable (by decide)
  have styled : Space { bg := .idx 4 } := ⟨rfl, rfl, rfl⟩
  have fits : (accentGrid 2).Fits accentTables (max 1 1) := fits_of_le _ _ (by decide)
  have few : ((accentGrid 2).content.countP fun glyph => 1 < glyph.text.length) < 4096 := by
    decide
  have names : NamesKept accentTables (accentGrid 2) (max 1 1) (max 3 1) { bg := .idx 4 } (2, 0) true :=
    namesKept_of_few accentTables storable (by decide) (by decide) fits styled (2, 0) true few
  obtain ⟨reference, returns, _, shows, _⟩ := resizeReflow_reference accentTables storable (by decide)
    (by decide) fits styled (2, 0) true names
  exact ⟨reference, returns, shows⟩

/-- A text of two codepoints shows only if the arena holds it. -/
theorem cellTextOwned_mem {g : Grid} {c : Cell} {text : Text} (shown : g.cellTextOwned c = text)
    (long : text.length = 2) : text ∈ g.clusters := by
  unfold cellTextOwned at shown
  split at shown
  · subst shown
    cases long
  split at shown
  · cases read : g.clusters[c.cluster]? with
    | none =>
      rw [read] at shown
      subst shown
      cases long
    | some held =>
      rw [read, Option.getD_some] at shown
      exact shown ▸ List.mem_of_getElem? read
  · subst shown
    cases long

/-- A row of 4096 accented letters, sixty-six different ones: the reference compacts its arena under
the row it is placing and loses their texts. -/
theorem resizeReflow_dangles :
    (accentGrid 4096).Storable ∧ (accentGrid 4096).clusters.length = 67 ∧
      ∃ reference, resizeReflowReference accentTables (accentGrid 4096) 4097 1 {} (0, 0) false =
          some (reference,
            ((accentGrid 4096).resizeReflow accentTables 4097 1 {} (0, 0) false).2) ∧
        ((accentGrid 4096).resizeReflow accentTables 4097 1 {} (0, 0) false).1.view ≠
          reference.view := by
  obtain ⟨n, full⟩ : ∃ n, n + 1 = 4096 := ⟨4095, rfl⟩
  rw [show (4097 : ℕ) = n + 2 by omega, ← full]
  have storable : (accentGrid (n + 1)).Storable := accentGrid_storable (Nat.succ_pos n)
  have wide : 0 < n + 2 := Nat.succ_pos _
  have fits : (accentGrid (n + 1)).Fits accentTables (n + 2) := fits_of_le _ _ (by omega)
  have chosen := storable.referenceRows accentTables 1 (by decide) wide fits
    (⟨rfl, rfl, rfl⟩ : Space {}) (0, 0) false
  have offset := (storable.agreed accentTables wide fits (0, 0)).cursorOffset
  obtain ⟨physical, screen⟩ := accentGrid_viewport (n := n + 1) (by omega)
  have cursors := reflowWidth_cursor accentTables (accentGrid (n + 1)) (n + 2) 1 {} (0, 0) false
  have streams : (accentGrid (n + 1)).resizeReflow accentTables (n + 2) 1 {} (0, 0) false =
      (accentGrid (n + 1)).reflowWidth accentTables (n + 2) 1 {} (0, 0) false := by
    have changes : ¬max (n + 2) 1 = (accentGrid (n + 1)).width := by
      change ¬max (n + 2) 1 = n + 1
      omega
    simp only [Grid.resizeReflow, changes, false_and, and_false, ↓reduceIte]
    rw [Nat.max_eq_left wide, Nat.max_self]
  have changes : ¬n + 2 = (accentGrid (n + 1)).width := by
    change ¬n + 2 = n + 1
    omega
  refine ⟨storable, rfl, ?_⟩
  rw [streams, cursors, reflowWidth_grid]
  unfold resizeReflowReference
  dsimp only
  rw [Nat.max_eq_left wide, Nat.max_self, if_neg (fun same => changes same.1),
    if_neg (fun same => changes same.2), chosen, offset]
  generalize reflowViewport accentTables (accentGrid (n + 1)) (n + 2) 1 {} (0, 0) false = v
    at physical screen
  refine ⟨_, rfl, ?_⟩
  have length : v.physical.length = v.screenStart + 1 := by
    rw [physical, screen]
    rfl
  have short : ∀ line ∈ v.physical, line.cells.length ≤ n + 2 := by
    rw [physical]
    simp [accentRow]
  have view := (install_view (g := accentGrid (n + 1)) length short).1
  rw [view, Viewport.shown, physical, screen, Nat.zero_sub, List.drop_zero, List.drop_zero,
    List.map_singleton, accentGrid_shows]
  intro same
  have letter : ({ text := accented 5 } : StoredCell) ∈ (accentStored (n + 1)).cells :=
    List.mem_append_left _ (List.mem_map.mpr ⟨5, List.mem_range.mpr (by omega), rfl⟩)
  have line : accentStored (n + 1) ∈ [accentStored (n + 1)] := List.mem_singleton_self _
  rw [same] at line
  obtain ⟨i, _, row⟩ := List.mem_map.mp line
  rw [← row] at letter
  obtain ⟨x, _, cell⟩ := List.mem_map.mp letter
  have held := cellTextOwned_mem (congrArg StoredCell.text cell) rfl
  change accented 5 ∈ (rebuild (n + 2) 1 (accentGrid (n + 1)).scrollbackLimit {} [accentStored (n + 1)]
    0).clusters at held
  rw [accents_rebuilt full] at held
  rcases List.mem_cons.mp held with none | last
  · cases none
  · have := accented_inj (List.mem_singleton.mp last)
    omega

end Letters

end Uniterm.Model.Grid
