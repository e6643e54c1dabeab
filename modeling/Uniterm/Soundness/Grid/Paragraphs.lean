import Uniterm.Soundness.Grid.Content

/-! # The logical lines of a reflowed grid

A reflow reads the leads of every logical line and cuts them again. Read back, the new rows join to the same
leads, except that a column left empty by a wide glyph has become a blank of the text. `recut` says which leads
a cut leaves behind.
-/

namespace Uniterm.Model.Grid

open ToMathlib

section Rows

variable {g : Grid}

/-- The lead cells among the cells of a row. -/
def leadCells (cells : List Cell) : List Cell := cells.filter fun c => !c.isContinuation

@[simp] theorem leadCells_append (first second : List Cell) :
    leadCells (first ++ second) = leadCells first ++ leadCells second := List.filter_append ..

@[simp] theorem leadCells_defaults (n : ℕ) :
    leadCells (List.replicate n ({} : Cell)) = List.replicate n ({} : Cell) :=
  List.filter_eq_self.mpr fun c member => by rw [List.eq_of_mem_replicate member]; rfl

/-- The lead cells of a row, read over the full width. -/
def rowLeads (width : ℕ) (line : Line) : List Cell :=
  leadCells (line.cells ++ List.replicate (width - line.cells.length) ({} : Cell))

/-- The lead cells of each logical line: soft-wrapped rows are joined up to a hard newline. A line left open by
the last row counts when it has a lead. -/
def paragraphs (width : ℕ) : List Line → List Cell → List (List Cell)
  | [], leads => if leads.isEmpty then [] else [leads]
  | line :: rest, leads =>
    if line.wrapped then paragraphs width rest (leads ++ rowLeads width line)
    else (leads ++ rowLeads width line) :: paragraphs width rest []

/-- The text of a logical line, without trailing blanks in default style. -/
def lineText (g : Grid) (leads : List Cell) : Text :=
  (leads.rdropWhile g.isDefaultBlank).flatMap g.cellTextOwned

/-- The texts of all logical lines, from the oldest history line on. -/
def texts (g : Grid) : List Text := (paragraphs g.width (g.scrollback ++ g.lines) []).map g.lineText

/-- One list of leads is another without some of its trailing blanks. -/
def Trails (g : Grid) (short long : List Cell) : Prop :=
  ∃ tail, long = short ++ tail ∧ ∀ c ∈ tail, g.isDefaultBlank c = true

theorem Trails.refl (g : Grid) (leads : List Cell) : g.Trails leads leads := ⟨[], by simp⟩

theorem Trails.append {a b : List Cell} (trails : g.Trails a b) (leads : List Cell) :
    g.Trails (leads ++ a) (leads ++ b) := by
  obtain ⟨tail, rfl, blank⟩ := trails
  exact ⟨tail, (List.append_assoc ..).symm, blank⟩

theorem Trails.trimmed {short long : List Cell} (trails : g.Trails short long) :
    short.rdropWhile g.isDefaultBlank = long.rdropWhile g.isDefaultBlank := by
  obtain ⟨tail, rfl, blank⟩ := trails
  induction tail using List.reverseRecOn with
  | nil => rw [List.append_nil]
  | append_singleton tail c ih =>
    rw [← List.append_assoc, List.rdropWhile_concat_pos _ _ _ (blank c (by simp))]
    exact ih fun c member => blank c (List.mem_append_left _ member)

theorem Trails.text {short long : List Cell} (trails : g.Trails short long) : g.lineText short = g.lineText long :=
  congrArg (List.flatMap g.cellTextOwned) trails.trimmed

private theorem isDefaultBlank_default (first : g.DefaultFirst) : g.isDefaultBlank {} = true := by
  have inked := inked_default first
  simpa [inked, Grid.inked, Cell.isContinuation] using inked

/-- A soft-wrapped row gives its leads; a row before a hard newline drops its trailing blanks. -/
theorem lineLeads_wrapped {line : Line} (wrapped : line.wrapped = true) : g.lineLeads line = rowLeads g.width line := by
  unfold lineLeads rowLeads
  rw [if_pos wrapped, leadCells_append, leadCells_defaults]
  rfl

private theorem lineLeads_trails (first : g.DefaultFirst) (line : Line) :
    g.Trails (g.lineLeads line) (rowLeads g.width line) := by
  cases wrapped : line.wrapped with
  | true =>
    rw [lineLeads_wrapped wrapped]
    exact .refl ..
  | false =>
    unfold lineLeads rowLeads
    rw [if_neg (by simp [wrapped]), leadCells_append, leadCells_defaults, leadCells]
    generalize line.cells.filter _ = leads
    refine ⟨leads.rtakeWhile g.isDefaultBlank ++ List.replicate (g.width - line.cells.length) ({} : Cell), ?_,
      fun c member => ?_⟩
    · rw [← List.append_assoc, List.rdropWhile_append_rtakeWhile]
    · rcases List.mem_append.mp member with blank | padded
      · exact List.mem_rtakeWhile_imp blank
      · rw [List.eq_of_mem_replicate padded]
        exact isDefaultBlank_default first

/-- The code's logical lines are the paragraphs, up to trailing blanks. -/
theorem closeLines_paragraphs (first : g.DefaultFirst) (rows : List Line) (leads : List Cell) :
    ∃ whole, List.Forall₂ g.Trails (g.closeLines rows leads).1 whole ∧
      paragraphs g.width rows leads =
        whole ++ if (g.closeLines rows leads).2.isEmpty then [] else [(g.closeLines rows leads).2] := by
  induction rows generalizing leads with
  | nil => exact ⟨[], .nil, rfl⟩
  | cons line rest ih =>
    rw [closeLines, paragraphs]
    split
    next wrapped =>
      rw [lineLeads_wrapped wrapped]
      exact ih _
    · obtain ⟨whole, related, joined⟩ := ih []
      exact ⟨_ :: whole, .cons ((lineLeads_trails first line).append leads) related, by rw [joined]; rfl⟩

end Rows

section Recut

variable (u : Unicode) {g : Grid} {width : ℕ}

/-- The leads that a cut leaves in its rows: each with its new width, and a blank for every column that a wide
glyph leaves empty at the right margin. -/
def recut (u : Unicode) (g : Grid) (width : ℕ) : ℕ → List Cell → List Cell
  | _, [] => []
  | x, lead :: rest =>
    let glyph := min (g.glyphWidth u lead) width
    if x > 0 ∧ x + glyph > width then
      List.replicate (width - x) {} ++ { lead with width := glyph } :: recut u g width glyph rest
    else { lead with width := glyph } :: recut u g width (x + glyph) rest

/-- Placing a lead with its continuation adds one lead. -/
theorem leadCells_placed (lead : Cell) {n : ℕ} (positive : 0 < n) :
    leadCells ({ lead with width := n } :: if n = 2 then [lead.continuation] else []) = [{ lead with width := n }] := by
  have placed : ({ lead with width := n } : Cell).isContinuation = false := by
    simpa [Cell.isContinuation] using positive.ne'
  have tail : leadCells (if n = 2 then [lead.continuation] else []) = [] := by
    split
    · rfl
    · rfl
  rw [leadCells, List.filter_cons_of_pos (by simp [placed])]
  exact congrArg (_ :: ·) tail

/-- A glyph that fits joins the row. -/
theorem emitLead_joins {e : Emission} {lead : Cell} (wide : 0 < width)
    (sum : e.x + min (g.glyphWidth u lead) width < 65536)
    (fits : ¬(e.x > 0 ∧ e.x + min (g.glyphWidth u lead) width > width)) :
    (emitLead u g width e lead).physical = e.physical ∧
      leadCells (emitLead u g width e lead).row =
        leadCells e.row ++ [{ lead with width := min (g.glyphWidth u lead) width }] := by
  have bounds := glyphWidth_bounds u g lead
  unfold emitLead
  dsimp only
  rw [Nat.mod_eq_of_lt sum, if_neg fits, leadCells_append, leadCells_placed lead (by omega)]
  exact ⟨rfl, rfl⟩

/-- A glyph that does not fit finishes the row, filled up with blanks, and starts the next one. -/
theorem emitLead_wraps {e : Emission} (fits : EmissionFits width e) {lead : Cell} (wide : 0 < width)
    (sum : e.x + min (g.glyphWidth u lead) width < 65536)
    (wraps : e.x > 0 ∧ e.x + min (g.glyphWidth u lead) width > width) :
    ∃ row : Line, (emitLead u g width e lead).physical = e.physical ++ [row] ∧ row.wrapped = true ∧
      row.cells.length = width ∧ leadCells row.cells = leadCells e.row ++ List.replicate (width - e.x) ({} : Cell) ∧
      leadCells (emitLead u g width e lead).row = [{ lead with width := min (g.glyphWidth u lead) width }] := by
  have bounds := glyphWidth_bounds u g lead
  unfold emitLead
  dsimp only
  rw [Nat.mod_eq_of_lt sum, if_pos wraps, leadCells_append, leadCells_placed lead (by omega)]
  refine ⟨_, rfl, rfl, fits.row.resizeCells.1, ?_, rfl⟩
  unfold resizeCells
  rw [List.take_of_length_le fits.row.1, leadCells_append, leadCells_defaults, fits.column]

/-- Cutting leads finishes full soft-wrapped rows, and all rows together hold the recut leads. -/
theorem emit_recut {leads : List Cell} {e : Emission} (fits : EmissionFits width e) (wide : 0 < width)
    (sums : recutFits width e.x (leads.map fun lead => min (g.glyphWidth u lead) width)) :
    ∃ rows : List Line, (leads.foldl (emitLead u g width) e).physical = e.physical ++ rows ∧
      (∀ row ∈ rows, row.wrapped = true ∧ row.cells.length = width) ∧
      (rows.flatMap fun row => leadCells row.cells) ++ leadCells (leads.foldl (emitLead u g width) e).row =
        leadCells e.row ++ recut u g width e.x leads := by
  induction leads generalizing e with
  | nil => exact ⟨[], by simp [recut]⟩
  | cons lead rest ih =>
    obtain ⟨here, later⟩ := sums
    obtain ⟨emitted, column⟩ := fits.emitLead u g wide lead here
    obtain ⟨rows, physical, full, joined⟩ := ih emitted (column ▸ later)
    rw [List.foldl_cons, recut]
    rw [column] at joined
    by_cases wraps : e.x > 0 ∧ e.x + min (g.glyphWidth u lead) width > width
    · obtain ⟨row, finished, wrapped, length, held, started⟩ := emitLead_wraps u fits wide here wraps
      refine ⟨row :: rows, ?_, fun other member => ?_, ?_⟩
      · rw [physical, finished, List.append_assoc, List.singleton_append]
      · rcases List.mem_cons.mp member with rfl | later
        · exact ⟨wrapped, length⟩
        · exact full other later
      · rw [if_pos wraps, started] at joined
        rw [if_pos wraps, List.flatMap_cons, List.append_assoc, joined, held]
        simp
    · obtain ⟨same, held⟩ := emitLead_joins u wide here wraps
      refine ⟨rows, by rw [physical, same], full, ?_⟩
      rw [if_neg wraps, held] at joined
      rw [if_neg wraps, joined]
      simp

end Recut

section Emitted

variable (u : Unicode) {g g' : Grid} {width : ℕ}

theorem isDefaultBlank_congr (colors : g'.underlineColors = g.underlineColors) :
    g'.isDefaultBlank = g.isDefaultBlank := by
  funext c
  simp only [isDefaultBlank, underlineColor, colors]

private theorem closeLines_wrapped {rows : List Line}
    (full : ∀ row ∈ rows, row.wrapped = true ∧ row.cells.length = g.width)
    (rest : List Line) (leads : List Cell) : g.closeLines (rows ++ rest) leads =
      g.closeLines rest (leads ++ rows.flatMap fun row => leadCells row.cells) := by
  induction rows generalizing leads with
  | nil => simp
  | cons row rows ih =>
    have head := full row (List.mem_cons_self ..)
    have given : g.lineLeads row = leadCells row.cells := by
      rw [lineLeads_wrapped head.1, rowLeads, head.2, Nat.sub_self, List.replicate_zero, List.append_nil]
    rw [List.cons_append, closeLines, if_pos head.1, given, ih fun other member => full other (.tail _ member),
      List.flatMap_cons, List.append_assoc]

/-- An emitted logical line reads back as one: its recut leads without some trailing blanks. -/
theorem emitLogicalLine_reads (first : g.DefaultFirst) (size : g'.width = width)
    (colors : g'.underlineColors = g.underlineColors) {leads : List Cell} {physical : List Line} (wide : 0 < width)
    (sums : recutFits width 0 (leads.map fun lead => min (g.glyphWidth u lead) width))
    (nextLineId : ℕ) (given : ∀ line ∈ physical, RowFits width line.cells) :
    ∃ rows read, (emitLogicalLine u g width leads physical nextLineId).1 = physical ++ rows ∧
      g.Trails read (recut u g width 0 leads) ∧
      ∀ rest, g'.closeLines (rows ++ rest) [] = (read :: (g'.closeLines rest []).1, (g'.closeLines rest []).2) := by
  have start : EmissionFits width { physical, nextLineId } := ⟨rfl, ⟨Nat.zero_le _, paired_nil⟩, given⟩
  obtain ⟨rows, finished, full, joined⟩ := emit_recut u start wide sums
  rw [emitLogicalLine]
  dsimp only at joined ⊢
  generalize leads.foldl (emitLead u g width) { physical, nextLineId } = e at finished joined ⊢
  set last : Line := { cells := Line.trimCells e.row, wrapped := false, id := e.nextLineId } with cut
  have blank := isDefaultBlank_congr colors
  refine ⟨rows ++ [last], rows.flatMap (fun row => leadCells row.cells) ++ g'.lineLeads last, ?_, ?_, fun rest => ?_⟩
  · rw [finished, List.append_assoc]
  · obtain ⟨n, whole⟩ := trimCells_append e.row
    have dropped : g.Trails (g'.lineLeads last) (leadCells e.row) := by
      refine ⟨(leadCells last.cells).rtakeWhile g.isDefaultBlank ++ List.replicate n ({} : Cell), ?_, fun c member => ?_⟩
      · have hard : g'.lineLeads last = (leadCells last.cells).rdropWhile g.isDefaultBlank := by rw [← blank]; rfl
        rw [hard, ← List.append_assoc, List.rdropWhile_append_rtakeWhile]
        conv_lhs => rw [whole, leadCells_append, leadCells_defaults]
      · rcases List.mem_append.mp member with trailing | padded
        · exact List.mem_rtakeWhile_imp trailing
        · rw [List.eq_of_mem_replicate padded]
          exact isDefaultBlank_default first
    have trails := dropped.append (rows.flatMap fun row => leadCells row.cells)
    rwa [joined] at trails
  · rw [List.append_assoc, closeLines_wrapped fun row member => size ▸ full row member]
    rfl

/-- Emitted logical lines read back one by one. -/
theorem emitAll_reads (first : g.DefaultFirst) (size : g'.width = width)
    (colors : g'.underlineColors = g.underlineColors) {logical : List (List Cell)} (wide : 0 < width)
    (sums : ∀ leads ∈ logical, recutFits width 0 (leads.map fun lead => min (g.glyphWidth u lead) width))
    (start : List Line × ℕ) (given : ∀ line ∈ start.1, RowFits width line.cells) :
    ∃ rows reads, (emitAll u g width logical start).1 = start.1 ++ rows ∧ g'.closeLines rows [] = (reads, []) ∧
      List.Forall₂ (fun leads read => g.Trails read (recut u g width 0 leads)) logical reads := by
  induction logical generalizing start with
  | nil => exact ⟨[], [], (List.append_nil _).symm, rfl, .nil⟩
  | cons leads rest ih =>
    have here := sums leads (List.mem_cons_self ..)
    obtain ⟨rows, read, emitted, trails, closes⟩ :=
      emitLogicalLine_reads u first size colors wide here start.2 given
    obtain ⟨rows', reads, later, closed, related⟩ := ih (fun other member => sums other (.tail _ member))
      ((emitLogicalLine u g width leads start.1 start.2).1, (emitLogicalLine u g width leads start.1 start.2).2.1)
      (emitLogicalLine_fits u g wide here start.2 given).2
    refine ⟨rows ++ rows', read :: reads, ?_, ?_, .cons trails related⟩
    · rw [← List.append_assoc, ← emitted]
      exact later
    · rw [closes, closed]

end Emitted

section Installed

variable (u : Unicode) {g : Grid} {width height : ℕ} {blank : Cell}

private theorem closeLines_hard {rows : List Line} (hard : ∀ row ∈ rows, row.wrapped = false) (rest : List Line) :
    g.closeLines (rows ++ rest) [] =
      (rows.map g.lineLeads ++ (g.closeLines rest []).1, (g.closeLines rest []).2) := by
  induction rows with
  | nil => rfl
  | cons row rows ih =>
    rw [List.cons_append, closeLines, if_neg (by simp [hard row (List.mem_cons_self ..)]), List.nil_append,
      ih fun other member => hard other (.tail _ member)]
    rfl

private theorem closeLines_congr {rows rows' : List Line} (leads : List Cell)
    (same : List.Forall₂ (fun l l' : Line => l'.wrapped = l.wrapped ∧ g.lineLeads l' = g.lineLeads l) rows rows') :
    g.closeLines rows' leads = g.closeLines rows leads := by
  induction same generalizing leads with
  | nil => rfl
  | cons head _ ih => rw [closeLines, closeLines, head.1, head.2, ih, ih]

/-- A row gives the same leads when it is filled up with default cells. -/
theorem lineLeads_padded (first : g.DefaultFirst) (line : Line) (short : line.cells.length ≤ g.width) :
    g.lineLeads { line with cells := resizeCells g.width line.cells } = g.lineLeads line := by
  obtain ⟨cells, wrapped, id⟩ := line
  have padded : resizeCells g.width cells = cells ++ List.replicate (g.width - cells.length) ({} : Cell) := by
    rw [resizeCells, List.take_of_length_le short]
  cases wrapped with
  | true =>
    have full : g.width - (resizeCells g.width cells).length = 0 := by
      rw [padded, List.length_append, List.length_replicate]
      omega
    rw [lineLeads_wrapped rfl, lineLeads_wrapped rfl, rowLeads, rowLeads, full, List.replicate_zero, List.append_nil,
      padded]
  | false =>
    have hard (cells : List Cell) : g.lineLeads { cells, wrapped := false, id } =
        (leadCells cells).rdropWhile g.isDefaultBlank := rfl
    have trails : g.Trails (leadCells cells)
        (leadCells cells ++ List.replicate (g.width - cells.length) ({} : Cell)) :=
      ⟨_, rfl, fun c member => by rw [List.eq_of_mem_replicate member]; exact isDefaultBlank_default first⟩
    dsimp only
    rw [hard, hard, padded, leadCells_append, leadCells_defaults]
    exact trails.trimmed.symm

/-- The rows installed without an eviction read like the rows of the viewport. -/
theorem install_reads (first : g.DefaultFirst) {v : Viewport} (kept : v.screenStart ≤ g.scrollbackLimit) :
    (g.install width height v).closeLines
        ((g.install width height v).scrollback ++ (g.install width height v).lines) [] =
      (g.install width height v).closeLines v.physical [] := by
  have size : (g.install width height v).width = width := by rw [install_frame]
  have first' : (g.install width height v).DefaultFirst := by rw [install_frame]; exact first
  rw [install_lines, install_scrollback, Nat.sub_eq_zero_of_le kept, List.drop_zero, Nat.sub_zero]
  generalize g.install width height v = g' at size first' ⊢
  have same : List.Forall₂ (fun l l' : Line => l'.wrapped = l.wrapped ∧ g'.lineLeads l' = g'.lineLeads l)
      (v.physical.take v.screenStart ++ v.physical.drop v.screenStart)
      (v.physical.take v.screenStart ++ (v.physical.drop v.screenStart).map fun line =>
        if line.cells.length < width then { line with cells := resizeCells width line.cells } else line) := by
    refine List.rel_append (List.forall₂_same.mpr fun _ _ => ⟨rfl, rfl⟩) ?_
    refine List.forall₂_map_right_iff.mpr (List.forall₂_same.mpr fun line _ => ?_)
    split
    next short =>
      subst size
      exact ⟨rfl, lineLeads_padded first' line short.le⟩
    · exact ⟨rfl, rfl⟩
  rw [closeLines_congr [] same, List.take_append_drop]

theorem logicalLines_ne_nil (g : Grid) : g.logicalLines ≠ [] := by
  unfold logicalLines
  generalize g.closeLines (g.scrollback ++ g.lines) [] = lines
  dsimp only
  by_cases empty : (if lines.2.isEmpty = true then lines.1 else lines.1 ++ [lines.2]).isEmpty = true
  · rw [if_pos empty]
    exact List.cons_ne_nil _ _
  · rw [if_neg empty]
    simpa using empty

/-- When every logical line is closed, the code's logical lines are these, and so are the texts. -/
theorem logicalLines_closed (first : g.DefaultFirst) {closed : List (List Cell)}
    (closes : g.closeLines (g.scrollback ++ g.lines) [] = (closed, [])) (some : closed ≠ []) :
    g.logicalLines = closed ∧ g.texts = closed.map g.lineText := by
  constructor
  · unfold logicalLines
    rw [closes]
    simp [some]
  · obtain ⟨whole, related, joined⟩ := closeLines_paragraphs first (g.scrollback ++ g.lines) []
    rw [closes] at related joined
    rw [texts, joined]
    have same := map_eq_of_forall₂ g.Trails (f := g.lineText) (g := g.lineText) (fun _ _ trails => trails.text) related
    simp [same]

/-- A recut grid reads back as the padding rows and the recut logical lines, when nothing is evicted. -/
theorem reflowWidth_reads (first : g.DefaultFirst) (wide : 0 < width) (fits : g.Fits u width)
    (level : ¬height > g.height) {cursor : ℕ × ℕ} {pending : Bool}
    (kept : (reflowViewport u g width height blank cursor pending).screenStart ≤ g.scrollbackLimit) :
    ∃ pads reads, (g.reflowWidth u width height blank cursor pending).1.closeLines
        ((g.reflowWidth u width height blank cursor pending).1.scrollback ++
          (g.reflowWidth u width height blank cursor pending).1.lines) [] = (pads ++ reads, []) ∧
      (∀ pad ∈ pads, ∃ n ≤ width, pad = List.replicate n blank) ∧
      List.Forall₂ (fun leads read => g.Trails read (recut u g width 0 leads)) g.logicalLines reads := by
  rw [reflowWidth_grid, install_reads first kept]
  have size : (g.install width height (reflowViewport u g width height blank cursor pending)).width = width := by
    rw [install_frame]
  have colors : (g.install width height (reflowViewport u g width height blank cursor pending)).underlineColors =
      g.underlineColors := by rw [install_frame]
  generalize g.install width height (reflowViewport u g width height blank cursor pending) = g' at size colors ⊢
  have rows : (reflowLines u g width cursor).physical = (emitAll u g width g.logicalLines ([], g.nextLineId)).1 :=
    congrArg Prod.fst (reflowLines_rows u g width cursor)
  obtain ⟨physical, reads, emitted, closes, related⟩ :=
    emitAll_reads u first size colors wide fits ([], g.nextLineId) (by simp)
  have viewport : ∃ added : List Line, (∀ line ∈ added, ∃ id, line = Line.blank width blank id) ∧
      (reflowViewport u g width height blank cursor pending).physical = added ++ physical := by
    unfold reflowViewport
    dsimp only
    rw [if_neg level, rows, emitted, List.nil_append]
    exact ⟨_, fun line member => mem_blankLines (List.mem_reverse.mp member), rfl⟩
  obtain ⟨added, blanks, viewport⟩ := viewport
  refine ⟨added.map g'.lineLeads, reads, ?_, fun pad member => ?_, related⟩
  · rw [viewport, closeLines_hard (fun row member => by obtain ⟨id, rfl⟩ := blanks row member; rfl), closes]
  · obtain ⟨line, inside, rfl⟩ := List.mem_map.mp member
    obtain ⟨id, rfl⟩ := blanks line inside
    have leads : g'.lineLeads (Line.blank width blank id) <+: leadCells (List.replicate width blank) :=
      List.rdropWhile_prefix ..
    have part := leads.sublist.trans List.filter_sublist
    refine ⟨_, ?_, List.eq_replicate_of_mem fun c held => ?_⟩
    · exact part.length_le.trans_eq List.length_replicate
    · exact List.eq_of_mem_replicate (part.subset held)

end Installed

end Uniterm.Model.Grid
