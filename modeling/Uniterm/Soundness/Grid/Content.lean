import Uniterm.Soundness.Grid.Fitted

/-! # What a resize keeps

The content of a grid is the sequence of glyphs that are not terminal-default blanks, from the
oldest history line to the last visible one. A resize cuts, pads and trims rows, moves them between
screen and history and adds blank ones; the content changes only by what the history limit evicts.
-/

namespace Uniterm.Model.Grid

open ToMathlib

/-- A glyph as a reader sees it, with its handles resolved. -/
structure Glyph where
  text : Text
  fg : Color
  bg : Color
  attrs : Attrs
  underline : Color
  hyperlink : Option Text
deriving DecidableEq

section Ink

variable (g : Grid)

def glyph (c : Cell) : Glyph where
  text := g.cellTextOwned c
  fg := c.fg
  bg := c.bg
  attrs := c.attrs
  underline := g.underlineColor c.underlineColor
  hyperlink := g.hyperlink c.hyperlink

/-- A glyph lead that is not a blank in terminal-default style. -/
def inked (c : Cell) : Bool := !c.isContinuation && !g.isDefaultBlank c

/-- The glyphs of a row that count as content. -/
def ink (cells : List Cell) : List Glyph := (cells.filter g.inked).map g.glyph

def linesInk (lines : List Line) : List Glyph := lines.flatMap fun line => g.ink line.cells

/-- The content of a grid, history first. -/
def content : List Glyph := g.linesInk (g.scrollback ++ g.lines)

@[simp] theorem ink_nil : g.ink [] = [] := rfl

@[simp] theorem ink_append (first second : List Cell) :
    g.ink (first ++ second) = g.ink first ++ g.ink second := by
  simp only [ink, List.filter_append, List.map_append]

private theorem ink_cons (c : Cell) (rest : List Cell) : g.ink (c :: rest) = g.ink [c] ++ g.ink rest :=
  g.ink_append [c] rest

@[simp] theorem linesInk_nil : g.linesInk [] = [] := rfl

@[simp] theorem linesInk_append (first second : List Line) :
    g.linesInk (first ++ second) = g.linesInk first ++ g.linesInk second := List.flatMap_append

@[simp] theorem linesInk_cons (line : Line) (rest : List Line) :
    g.linesInk (line :: rest) = g.ink line.cells ++ g.linesInk rest := List.flatMap_cons ..

private theorem ink_of_blank {cells : List Cell} (blank : ∀ c ∈ cells, g.inked c = false) :
    g.ink cells = [] := by
  rw [ink, List.filter_eq_nil_iff.mpr (fun c member => by simp [blank c member]), List.map_nil]

private theorem linesInk_of_blank {lines : List Line} (blank : ∀ line ∈ lines, g.ink line.cells = []) :
    g.linesInk lines = [] := List.flatMap_eq_nil_iff.mpr blank

private theorem linesInk_map {f : Line → Line} {lines : List Line}
    (same : ∀ line ∈ lines, g.ink (f line).cells = g.ink line.cells) :
    g.linesInk (lines.map f) = g.linesInk lines := by
  rw [linesInk, List.flatMap_map]
  exact List.flatMap_congr same

private theorem linesInk_drop_suffix (n : ℕ) (lines : List Line) :
    g.linesInk (lines.drop n) <:+ g.linesInk lines :=
  ⟨g.linesInk (lines.take n), by rw [← linesInk_append, List.take_append_drop]⟩

end Ink

/-- A colour arena that starts with the terminal default. -/
def DefaultFirst (g : Grid) : Prop := g.underlineColors[0]? = some .default

section Rows

variable {g : Grid} (first : g.DefaultFirst)

include first

theorem inked_default : g.inked ({} : Cell) = false := by
  have color : g.underlineColor 0 = .default := by rw [underlineColor, first]; rfl
  simp [inked, isDefaultBlank, Cell.isContinuation, color]

private theorem ink_defaults (n : ℕ) : g.ink (List.replicate n ({} : Cell)) = [] :=
  g.ink_of_blank fun c member => by rw [List.eq_of_mem_replicate member, inked_default first]

private theorem ink_trimCells (cells : List Cell) : g.ink (Line.trimCells cells) = g.ink cells := by
  obtain ⟨n, whole⟩ := trimCells_append cells
  conv_rhs => rw [whole, ink_append, ink_defaults first, List.append_nil]

private theorem ink_trimDefaultTail (line : Line) : g.ink line.trimDefaultTail.cells = g.ink line.cells := by
  unfold Line.trimDefaultTail
  split
  · rfl
  · exact ink_trimCells first line.cells

private theorem ink_resizeCells {width : ℕ} {cells : List Cell} (short : cells.length ≤ width) :
    g.ink (resizeCells width cells) = g.ink cells := by
  rw [resizeCells, List.take_of_length_le short, ink_append, ink_defaults first, List.append_nil]

/-- The leads a row gives to its logical line carry its content. -/
theorem ink_lineLeads (line : Line) : g.ink (g.lineLeads line) = g.ink line.cells := by
  have leads : g.ink (line.cells.filter fun c => !c.isContinuation) = g.ink line.cells := by
    rw [ink, ink, List.filter_filter]
    congr 2
    funext c
    cases lead : c.isContinuation <;> simp [inked, lead]
  rw [← leads, lineLeads]
  generalize line.cells.filter _ = cells
  split
  · rw [ink_append, ink_defaults first, List.append_nil]
  · have blank : g.ink (cells.rtakeWhile g.isDefaultBlank) = [] :=
      g.ink_of_blank fun c member => by simp [inked, List.mem_rtakeWhile_imp member]
    have whole : g.ink (cells.rdropWhile g.isDefaultBlank ++ cells.rtakeWhile g.isDefaultBlank) =
        g.ink cells := congrArg g.ink List.rdropWhile_append_rtakeWhile
    rw [← whole, ink_append, blank, List.append_nil]

omit first in
theorem lineLeads_leads (line : Line) : ∀ c ∈ g.lineLeads line, c.isContinuation = false := by
  intro c member
  unfold lineLeads at member
  split at member
  · rcases List.mem_append.mp member with old | padded
    · simpa using List.of_mem_filter old
    · rw [List.eq_of_mem_replicate padded]
      rfl
  · simpa using List.of_mem_filter ((List.rdropWhile_prefix ..).subset member)

end Rows

section Emit

variable (u : Unicode) {g : Grid} (first : g.DefaultFirst) {width : ℕ}

/-- Placing a lead with its new width, and its continuation if it has one. -/
theorem ink_placed {lead : Cell} (leads : lead.isContinuation = false) {n : ℕ} (positive : 0 < n) :
    g.ink ({ lead with width := n } :: if n = 2 then [lead.continuation] else []) = g.ink [lead] := by
  have tail : g.ink (if n = 2 then [lead.continuation] else []) = [] := by
    refine g.ink_of_blank fun c member => ?_
    split at member
    · rw [List.mem_singleton.mp member]
      rfl
    · contradiction
  have placed : ({ lead with width := n } : Cell).isContinuation = false := by
    simp only [Cell.isContinuation, beq_eq_false_iff_ne]
    omega
  have inked : g.inked { lead with width := n } = g.inked lead := by
    simp only [Grid.inked, isDefaultBlank, placed, leads]
  have glyph : g.glyph { lead with width := n } = g.glyph lead := by
    simp only [Grid.glyph, cellTextOwned, placed, leads]
  rw [ink_cons, tail, List.append_nil, ink, ink, List.filter_singleton, List.filter_singleton, inked]
  cases g.inked lead with
  | true => exact congrArg (fun glyph => [glyph]) glyph
  | false => rfl

/-- The content of the rows finished so far and of the row under construction. -/
def Emission.content (g : Grid) (e : Emission) : List Glyph := g.linesInk e.physical ++ g.ink e.row

include first

private theorem emitLead_content {e : Emission} (row : e.row.length ≤ width) (wide : 0 < width) {lead : Cell}
    (leads : lead.isContinuation = false) :
    (emitLead u g width e lead).content g = e.content g ++ g.ink [lead] := by
  have bounds := glyphWidth_bounds u g lead
  have wrapped : (e.wrapRow width).content g = e.content g := by
    simp [Emission.content, Emission.wrapRow, ink_resizeCells first row]
  have placed (e : Emission) (x : ℕ) : Emission.content g { e with
      row := e.row ++ { lead with width := min (g.glyphWidth u lead) width } ::
        if min (g.glyphWidth u lead) width = 2 then [lead.continuation] else []
      x } = e.content g ++ g.ink [lead] := by
    rw [Emission.content, ink_append, ink_placed leads (by omega), ← List.append_assoc]
    rfl
  unfold emitLead
  dsimp only
  split
  · rw [placed, wrapped]
  · rw [placed]

private theorem emit_content {leads : List Cell} {e : Emission} (fits : EmissionFits width e)
    (wide : 0 < width)
    (sums : recutFits width e.x (leads.map fun lead => min (g.glyphWidth u lead) width))
    (all : ∀ c ∈ leads, c.isContinuation = false) :
    (leads.foldl (emitLead u g width) e).content g = e.content g ++ g.ink leads := by
  induction leads generalizing e with
  | nil => simp
  | cons lead rest ih =>
    obtain ⟨here, later⟩ := sums
    obtain ⟨emitted, column⟩ := fits.emitLead u g wide lead here
    rw [List.foldl_cons, ih emitted (column ▸ later) (fun c member => all c (.tail _ member)),
      emitLead_content u first fits.row.1 wide (all lead (List.mem_cons_self ..)), g.ink_cons lead rest,
      List.append_assoc]

/-- Emitting a logical line appends its content. -/
theorem emitLogicalLine_content {leads : List Cell} {physical : List Line} (wide : 0 < width)
    (sums : recutFits width 0 (leads.map fun lead => min (g.glyphWidth u lead) width))
    (nextLineId : ℕ) (given : ∀ line ∈ physical, RowFits width line.cells)
    (all : ∀ c ∈ leads, c.isContinuation = false) :
    g.linesInk (emitLogicalLine u g width leads physical nextLineId).1 =
      g.linesInk physical ++ g.ink leads := by
  have start : EmissionFits width { physical, nextLineId } :=
    ⟨rfl, ⟨Nat.zero_le _, paired_nil⟩, given⟩
  have emitted := emit_content u first start wide sums all
  simp only [Emission.content, ink_nil, List.append_nil] at emitted
  rw [emitLogicalLine, linesInk_append, linesInk_cons, linesInk_nil, List.append_nil,
    ink_trimCells first, emitted]

private theorem emitAll_content {logical : List (List Cell)} (wide : 0 < width)
    (sums : ∀ leads ∈ logical,
      recutFits width 0 (leads.map fun lead => min (g.glyphWidth u lead) width))
    (all : ∀ leads ∈ logical, ∀ c ∈ leads, c.isContinuation = false) (start : List Line × ℕ)
    (given : ∀ line ∈ start.1, RowFits width line.cells) :
    g.linesInk (emitAll u g width logical start).1 =
      g.linesInk start.1 ++ logical.flatMap g.ink := by
  induction logical generalizing start with
  | nil => simp [emitAll]
  | cons leads rest ih =>
    have here := sums leads (List.mem_cons_self ..)
    have emitted := emitLogicalLine_content u first wide here start.2 given
      (all leads (List.mem_cons_self ..))
    have later := ih (fun other member => sums other (.tail _ member))
      (fun other member => all other (.tail _ member))
      ((emitLogicalLine u g width leads start.1 start.2).1,
        (emitLogicalLine u g width leads start.1 start.2).2.1)
      (emitLogicalLine_fits u g wide here start.2 given).2
    rw [List.flatMap_cons, ← List.append_assoc, ← emitted]
    exact later

private theorem closeLines_content (lines : List Line) (leads : List Cell) :
    (g.closeLines lines leads).1.flatMap g.ink ++ g.ink (g.closeLines lines leads).2 =
      g.ink leads ++ g.linesInk lines := by
  induction lines generalizing leads with
  | nil => simp [closeLines]
  | cons line rest ih =>
    rw [closeLines]
    split
    · rw [ih, ink_append, ink_lineLeads first, linesInk_cons, List.append_assoc]
    · rw [List.flatMap_cons, List.append_assoc, ih, ink_append, ink_lineLeads first, linesInk_cons,
        ink_nil, List.nil_append, List.append_assoc]

private theorem logicalLines_content : g.logicalLines.flatMap g.ink = g.content := by
  have closed := closeLines_content first (g.scrollback ++ g.lines) []
  rw [ink_nil, List.nil_append] at closed
  rw [content, ← closed]
  unfold logicalLines
  generalize g.closeLines (g.scrollback ++ g.lines) [] = lines
  dsimp only
  by_cases left : lines.2 = []
  · rw [left]
    by_cases none : lines.1 = [] <;> simp [none]
  · simp [left]

/-- The recut rows carry the content of the grid. -/
theorem reflowLines_content (wide : 0 < width) (fits : g.Fits u width) (cursor : ℕ × ℕ) :
    g.linesInk (reflowLines u g width cursor).physical = g.content := by
  have rows : (reflowLines u g width cursor).physical =
      (emitAll u g width g.logicalLines ([], g.nextLineId)).1 :=
    congrArg Prod.fst (reflowLines_rows u g width cursor)
  have leads := logicalLines_all (g := g) fun line _ => lineLeads_leads line
  rw [rows, emitAll_content u first wide fits leads _ (by simp), logicalLines_content first]
  rfl

end Emit

section Viewport

variable {g : Grid} {blank : Cell} {width height : ℕ}

/-- Blank rows show nothing but their blank cell, and nothing at all for a default one. -/
structure BlankInk (g : Grid) (blank : Cell) (added : List Glyph) : Prop where
  glyphs : ∀ glyph ∈ added, glyph = g.glyph blank
  none : g.isDefaultBlank blank = true → added = []

theorem BlankInk.nil : BlankInk g blank [] := ⟨by simp, fun _ => rfl⟩

private theorem blankInk_lines {lines : List Line} (added : ∀ line ∈ lines, ∃ id, line = Line.blank width blank id) :
    BlankInk g blank (g.linesInk lines) := by
  refine ⟨fun glyph member => ?_, fun plain => g.linesInk_of_blank fun line member => ?_⟩
  · obtain ⟨line, inside, shown⟩ := List.mem_flatMap.mp member
    obtain ⟨c, held, rfl⟩ := List.mem_map.mp shown
    obtain ⟨id, rfl⟩ := added line inside
    rw [mem_blank (List.mem_of_mem_filter held)]
  · obtain ⟨id, rfl⟩ := added line member
    refine g.ink_of_blank fun c held => ?_
    rw [mem_blank held, inked, plain, Bool.not_true, Bool.and_false]

/-- The rows with content stand between blank rows. -/
def Framed (g : Grid) (width : ℕ) (blank : Cell) (physical rows : List Line) : Prop :=
  ∃ above kept below, rows = above ++ kept ++ below ∧
    (∀ line ∈ above ++ below, ∃ id, line = Line.blank width blank id) ∧
    g.linesInk kept = g.linesInk physical

/-- Rows from the end of the content on are empty. -/
theorem linesInk_take (physical : List Line) {n : ℕ} (enough : contentEnd physical ≤ n) :
    g.linesInk (physical.take n) = g.linesInk physical := by
  have whole : physical.rdropWhile (fun line => !line.wrapped && line.cells.isEmpty) ++
      physical.rtakeWhile (fun line => !line.wrapped && line.cells.isEmpty) = physical :=
    List.rdropWhile_append_rtakeWhile
  have empty : ∀ line ∈ physical.drop n, g.ink line.cells = [] := by
    intro line member
    rw [← whole, List.drop_append, List.drop_eq_nil_of_le enough, List.nil_append] at member
    have trailing := List.mem_rtakeWhile_imp (List.mem_of_mem_drop member)
    rw [Bool.and_eq_true, List.isEmpty_iff] at trailing
    rw [trailing.2, ink_nil]
  conv_rhs => rw [← List.take_append_drop n physical]
  rw [linesInk_append, g.linesInk_of_blank empty, List.append_nil]

private theorem growViewport_framed (physical : List Line) (nextLineId cursorGlobal start : ℕ) :
    Framed g width blank physical
      (growViewport width height blank physical nextLineId cursorGlobal start).physical := by
  unfold growViewport
  dsimp only
  split
  · refine ⟨[], _, _, rfl, fun line member => mem_blankLines member, linesInk_take physical ?_⟩
    omega
  · exact ⟨[], _, _, rfl, fun line member => mem_blankLines member, rfl⟩

private theorem shrinkViewport_framed (physical : List Line) (nextLineId cursorGlobal : ℕ) :
    Framed g width blank physical
      (shrinkViewport width height blank physical nextLineId cursorGlobal).physical := by
  refine ⟨_, _, [], (List.append_nil _).symm, fun line member => ?_, rfl⟩
  rw [List.append_nil] at member
  exact mem_blankLines (List.mem_reverse.mp member)

theorem reflowViewport_framed (u : Unicode) (cursor : ℕ × ℕ) (pending : Bool) :
    Framed g width blank (reflowLines u g width cursor).physical
      (reflowViewport u g width height blank cursor pending).physical := by
  unfold reflowViewport
  dsimp only
  split
  · exact growViewport_framed ..
  · exact shrinkViewport_framed ..

/-- The installed rows are those of the viewport that the history limit leaves. -/
theorem install_content (first : g.DefaultFirst) (v : Viewport) :
    (g.install width height v).content =
      g.linesInk (v.physical.drop (v.screenStart - g.scrollbackLimit)) := by
  have same (lines : List Line) : (g.install width height v).linesInk lines = g.linesInk lines := by
    rw [install_frame]
    rfl
  have screen : g.linesInk (g.install width height v).lines =
      g.linesInk (v.physical.drop v.screenStart) := by
    rw [install_lines]
    refine g.linesInk_map fun line _ => ?_
    split
    · next short => exact ink_resizeCells first short.le
    · rfl
  rw [content, same, linesInk_append, screen, install_scrollback, ← linesInk_append]
  have later : v.physical.drop v.screenStart =
      (v.physical.drop (v.screenStart - g.scrollbackLimit)).drop
        (v.screenStart - (v.screenStart - g.scrollbackLimit)) := by
    rw [List.drop_drop]
    congr 1
    omega
  rw [later, List.take_append_drop]

/-- Content that survives: what is left of the old, between blank rows. -/
structure Keeps (g : Grid) (blank : Cell) (evicted : ℕ) (now : List Glyph) : Prop where
  kept : ∃ above old below, now = above ++ old ++ below ∧ BlankInk g blank (above ++ below) ∧
    old <:+ g.content ∧ (evicted = 0 → old = g.content)

theorem Framed.keeps {physical rows : List Line} (framed : Framed g width blank physical rows)
    (same : g.linesInk physical = g.content) (evicted : ℕ) :
    Keeps g blank evicted (g.linesInk (rows.drop evicted)) := by
  obtain ⟨above, kept, below, rfl, blanks, content⟩ := framed
  rw [List.drop_append, List.drop_append, linesInk_append, linesInk_append]
  refine ⟨_, _, _, rfl, ?_, ?_, fun none => ?_⟩
  · rw [← linesInk_append]
    refine blankInk_lines fun line member => blanks line ?_
    rcases List.mem_append.mp member with early | late
    · exact List.mem_append_left _ (List.mem_of_mem_drop early)
    · exact List.mem_append_right _ (List.mem_of_mem_drop late)
  · rw [← same, ← content]
    exact g.linesInk_drop_suffix ..
  · rw [none, Nat.zero_sub, List.drop_zero, content, same]

end Viewport

section Resize

variable (u : Unicode) {g : Grid} {blank : Cell} {width height : ℕ}

/-- What a resize relies on: full visible rows, one for each line of the screen, a history inside its
limit and a colour arena that starts with the default. -/
structure Retained (g : Grid) : Prop where
  wide : 0 < g.width
  tall : 0 < g.height
  lines : g.lines.length = g.height
  full : ∀ line ∈ g.lines, line.cells.length = g.width
  history : g.scrollback.length ≤ g.scrollbackLimit
  colors : g.DefaultFirst

/-- The oldest rows that a resize drops because the history limit has no room for them. -/
def rowsEvicted (g : Grid) (width height : ℕ) (blank : Cell) (cursor : ℕ × ℕ) (pending : Bool) : ℕ :=
  if width = g.width then g.scrollback.length + (g.height - height) - g.scrollbackLimit
  else (reflowViewport u g width height blank cursor pending).screenStart - g.scrollbackLimit

private theorem growHeight_content (g : Grid) (height : ℕ) (blank : Cell) (evicted : ℕ) :
    Keeps g blank evicted (g.growHeight height blank).content := by
  have rows : (g.growHeight height blank).content = g.content ++
      g.linesInk (blankLines g.width blank g.nextLineId (height - g.lines.length)) := by
    rw [growHeight, markAllDamaged_frame, content, content, ← linesInk_append, List.append_assoc]
    rfl
  rw [rows]
  exact ⟨[], g.content, _, rfl, blankInk_lines fun line member => mem_blankLines member,
    List.suffix_refl _, fun _ => rfl⟩

theorem Retained.shrinkHeight_content (retained : g.Retained) (height : ℕ) :
    Keeps g blank (g.scrollback.length + (g.height - height) - g.scrollbackLimit)
      (g.shrinkHeight height).content := by
  have same : (g.shrinkHeight height).content =
      g.linesInk ((g.shrinkHeight height).scrollback ++ g.lines.drop (g.height - height)) := by
    obtain ⟨history, folded, _⟩ := foldl_pushScrollback (g.lines.take (g.height - height))
      { g with lines := g.lines.drop (g.height - height) }
    rw [shrinkHeight, folded, markAllDamaged_frame]
    rfl
  have length : (g.scrollback ++
      (g.lines.take (g.height - height)).map Line.trimDefaultTail).length =
        g.scrollback.length + (g.height - height) := by
    rw [List.length_append, List.length_map, List.length_take, retained.lines]
    omega
  have moved : g.linesInk (g.scrollback ++
      (g.lines.take (g.height - height)).map Line.trimDefaultTail ++
        g.lines.drop (g.height - height)) = g.content := by
    rw [linesInk_append, linesInk_append,
      g.linesInk_map fun line _ => ink_trimDefaultTail retained.colors line, List.append_assoc,
      ← linesInk_append, List.take_append_drop, ← linesInk_append]
    rfl
  rw [same, shrinkHeight_scrollback retained.history, keepNewest, length,
    ← List.drop_append_of_le_length (by omega)]
  have framed : Framed g g.width blank (g.scrollback ++ g.lines) _ :=
    ⟨[], _, [], (List.append_nil _).symm, by simp, moved⟩
  exact framed.keeps rfl _

theorem Retained.reflowWidth_content (retained : g.Retained) (wide : 0 < width)
    (fits : g.Fits u width) (cursor : ℕ × ℕ) (pending : Bool) :
    Keeps g blank
      ((reflowViewport u g width height blank cursor pending).screenStart - g.scrollbackLimit)
      (g.reflowWidth u width height blank cursor pending).1.content := by
  rw [reflowWidth_grid, install_content retained.colors]
  exact (reflowViewport_framed u cursor pending).keeps
    (reflowLines_content u retained.colors wide fits cursor) _

/-- The rows and the damage of a grid after it changed its size. -/
structure Resized (width height limit : ℕ) (g : Grid) : Prop where
  lines : g.lines.length = height
  full : ∀ line ∈ g.lines, line.cells.length = width
  history : g.scrollback.length ≤ limit

/-- One damage record for each row, and every row to be painted again. -/
structure Repainted (height : ℕ) (g : Grid) : Prop where
  damage : g.damage.length = height
  dirty : ∀ row ∈ g.damage, row.dirty = true

private theorem repainted_markAllDamaged (wide : 0 < g.width) (tall : 0 < height) (same : g.height = height)
    (damage : g.damage = List.replicate height .clean) : Repainted height g.markAllDamaged := by
  rw [markAllDamaged, if_neg (by omega)]
  refine ⟨?_, fun row member => ?_⟩
  · rw [List.length_map, damage, List.length_replicate]
  · obtain ⟨old, _, rfl⟩ := List.mem_map.mp member
    rfl

theorem Retained.resized (retained : g.Retained) : Resized g.width g.height g.scrollbackLimit g :=
  ⟨retained.lines, retained.full, retained.history⟩

theorem Retained.growHeight_resized (retained : g.Retained) (grows : g.height < height) (blank : Cell) :
    Resized g.width height g.scrollbackLimit (g.growHeight height blank) := by
  have total := retained.lines
  rw [growHeight, markAllDamaged_frame]
  refine ⟨?_, fun line member => ?_, retained.history⟩
  · rw [List.length_append, length_blankLines]
    omega
  · rcases List.mem_append.mp member with old | added
    · exact retained.full line old
    · obtain ⟨id, rfl⟩ := mem_blankLines added
      exact List.length_replicate

theorem Retained.shrinkHeight_resized (retained : g.Retained) (shrinks : height < g.height) :
    Resized g.width height g.scrollbackLimit (g.shrinkHeight height) := by
  have total := retained.lines
  have lines : (g.shrinkHeight height).lines = g.lines.drop (g.height - height) := by
    obtain ⟨history, folded, _⟩ := foldl_pushScrollback (g.lines.take (g.height - height))
      { g with lines := g.lines.drop (g.height - height) }
    rw [shrinkHeight, folded, markAllDamaged_frame]
  refine ⟨?_, fun line member => ?_, ?_⟩
  · rw [lines, List.length_drop]
    omega
  · rw [lines] at member
    exact retained.full line (List.mem_of_mem_drop member)
  · rw [shrinkHeight_scrollback retained.history]
    exact length_keepNewest ..

private theorem reflowWidth_resized (g : Grid) (wide : 0 < width)
    (fits : g.Fits u width) (cursor : ℕ × ℕ) (pending : Bool) :
    Resized width height g.scrollbackLimit (g.reflowWidth u width height blank cursor pending).1 := by
  have rows := reflowLines_fits u g fits wide cursor
  have members := mem_reflowViewport u g width height blank cursor pending
  have length := reflowViewport_length u g width height blank cursor pending
  rw [reflowWidth_grid]
  generalize reflowViewport u g width height blank cursor pending = v at members length ⊢
  refine ⟨?_, fun line member => ?_, ?_⟩
  · rw [install_lines, List.length_map, List.length_drop]
    omega
  · rw [install_lines] at member
    obtain ⟨old, before, rfl⟩ := List.mem_map.mp member
    have short : old.cells.length ≤ width := by
      rcases members old (List.mem_of_mem_drop before) with emitted | ⟨id, rfl⟩
      · exact (rows old emitted).1
      · rw [Line.blank, List.length_replicate]
    split
    · simp only [resizeCells, List.length_append, List.length_take, List.length_replicate]
      omega
    · omega
  · rw [install_scrollback, List.length_take, List.length_drop]
    omega

theorem Retained.resizeReflow_keeps (retained : g.Retained) (wide : 0 < width) (tall : 0 < height)
    (fits : width = g.width ∨ g.Fits u width) (blank : Cell) (cursor : ℕ × ℕ) (pending : Bool) :
    Keeps g blank (rowsEvicted u g width height blank cursor pending)
        (g.resizeReflow u width height blank cursor pending).1.content ∧
      Resized width height g.scrollbackLimit
        (g.resizeReflow u width height blank cursor pending).1 := by
  unfold Grid.resizeReflow rowsEvicted
  dsimp only
  rw [Nat.max_eq_left wide, Nat.max_eq_left tall]
  by_cases same : width = g.width
  · subst same
    simp only [true_and, and_true, ↓reduceIte]
    rcases Nat.lt_trichotomy height g.height with shrinks | rfl | grows
    · rw [if_neg shrinks.ne, if_neg shrinks.le.not_gt, if_pos shrinks]
      exact ⟨retained.shrinkHeight_content height, retained.shrinkHeight_resized shrinks⟩
    · rw [if_pos rfl]
      exact ⟨⟨[], g.content, [], by simp, .nil, List.suffix_refl _, fun _ => rfl⟩, retained.resized⟩
    · rw [if_neg grows.ne', if_pos grows]
      exact ⟨growHeight_content .., retained.growHeight_resized grows blank⟩
  · have fits := fits.resolve_left same
    simp only [same, false_and, and_false, ↓reduceIte]
    exact ⟨retained.reflowWidth_content u wide fits cursor pending,
      reflowWidth_resized u g wide fits cursor pending⟩

private theorem resizeReflow_repainted (g : Grid) (wide : 0 < width) (tall : 0 < height) (blank : Cell)
    (changes : ¬(width = g.width ∧ height = g.height)) (cursor : ℕ × ℕ) (pending : Bool) :
    Repainted height (g.resizeReflow u width height blank cursor pending).1 := by
  unfold Grid.resizeReflow
  dsimp only
  rw [Nat.max_eq_left wide, Nat.max_eq_left tall, if_neg changes]
  split
  · next grows => exact repainted_markAllDamaged (grows.2 ▸ wide) tall rfl rfl
  split
  · next shrinks =>
    unfold shrinkHeight
    obtain ⟨history, folded, _⟩ := foldl_pushScrollback (g.lines.take (g.height - height))
      { g with lines := g.lines.drop (g.height - height) }
    dsimp only
    rw [folded]
    exact repainted_markAllDamaged (shrinks.2 ▸ wide) tall rfl rfl
  · rw [reflowWidth_grid]
    exact repainted_markAllDamaged wide tall rfl rfl

/-- A resize of a grid with full rows, recut inside 16 bits, loses no content but the rows that the
history limit evicts, and adds none but the blank rows it is given. The grid has the requested size
afterwards; after a change of size every row is damaged and the cursor is on the screen. -/
theorem resizeReflow_content (retained : g.Retained) (width height : ℕ)
    (fits : max width 1 = g.width ∨ g.Fits u (max width 1)) (blank : Cell) (cursor : ℕ × ℕ)
    (pending : Bool) :
    let result := g.resizeReflow u width height blank cursor pending
    (∃ above kept below, result.1.content = above ++ kept ++ below ∧
      kept <:+ g.content ∧
      (rowsEvicted u g (max width 1) (max height 1) blank cursor pending = 0 → kept = g.content) ∧
      (∀ glyph ∈ above ++ below, glyph = g.glyph blank) ∧
      (g.isDefaultBlank blank = true → above ++ below = [])) ∧
    result.1.lines.length = max height 1 ∧
    (∀ line ∈ result.1.lines, line.cells.length = max width 1) ∧
    result.1.scrollback.length ≤ g.scrollbackLimit ∧
    (¬(max width 1 = g.width ∧ max height 1 = g.height) →
      result.1.damage.length = max height 1 ∧ (∀ row ∈ result.1.damage, row.dirty = true) ∧
      (cursor.2 < g.height → result.2.1 < max width 1 ∧ result.2.2.1 < max height 1)) := by
  have wide : 0 < max width 1 := by omega
  have tall : 0 < max height 1 := by omega
  have clamped : g.resizeReflow u (max width 1) (max height 1) blank cursor pending =
      g.resizeReflow u width height blank cursor pending := by
    simp only [Grid.resizeReflow, Nat.max_assoc, Nat.max_self]
  obtain ⟨⟨above, kept, below, now, blanks, old, whole⟩, size⟩ :=
    retained.resizeReflow_keeps u wide tall fits blank cursor pending
  have repainted := resizeReflow_repainted u g wide tall blank
  have inside := resizeReflow_cursor u g blank wide tall
  rw [clamped] at now size
  refine ⟨⟨above, kept, below, now, old, whole, blanks.glyphs, blanks.none⟩, size.lines, size.full,
    size.history, fun changes => ?_⟩
  have painted := repainted changes cursor pending
  rw [clamped] at painted
  refine ⟨painted.damage, painted.dirty, fun row => ?_⟩
  have cursors := inside changes cursor row pending
  rwa [clamped] at cursors

/-- Width tables for text of one column a character. -/
def narrowTables : Unicode where
  charWidth := fun _ => some 1
  strWidth := List.length
  graphemes := List.length

/-- A screen of one row that shows three letters. -/
def threeLetters : Grid where
  width := 4
  height := 1
  lines := [{ cells := [{ ch := 'a' }, { ch := 'b' }, { ch := 'c' }, {}], id := 1 }]
  damage := [.clean]
  nextLineId := 2

theorem resizeReflow_content_letters :
    (threeLetters.resizeReflow narrowTables 2 1 {} (3, 0) false).1.content = threeLetters.content ∧
      (threeLetters.resizeReflow narrowTables 2 1 {} (3, 0) false).1.scrollback.length ≤ 10000 := by
  have retained : threeLetters.Retained := ⟨by decide, by decide, rfl, by decide, by decide, rfl⟩
  obtain ⟨⟨above, kept, below, now, _, whole, _, blanks⟩, _, _, history, _⟩ :=
    resizeReflow_content narrowTables retained 2 1
      (.inr (fits_of_le _ _ (by decide))) {} (3, 0) false
  obtain ⟨rfl, rfl⟩ := List.append_eq_nil_iff.mp (blanks (by decide))
  refine ⟨?_, history⟩
  rw [now, whole (by decide), List.nil_append, List.append_nil]

/-- A resize to the same size neither damages the grid nor moves the cursor, a size of zero means
one, and a styled blank fills the added rows. -/
theorem resizeReflow_deviates :
    (¬∀ row ∈ ((new 2 1).resizeReflow narrowTables 2 1 {} (2, 0) true).1.damage, row.dirty = true) ∧
      ¬((new 2 1).resizeReflow narrowTables 2 1 {} (2, 0) true).2.1 < 2 ∧
      ((new 2 1).resizeReflow narrowTables 0 0 {} (0, 0) false).1.lines.length ≠ 0 ∧
      ¬((new 1 1).resizeReflow narrowTables 1 2 { bg := .idx 4 } (0, 0) false).1.content <:+
        (new 1 1).content := by
  refine ⟨by decide, by decide, by decide, ?_⟩
  have old : (new 1 1).content = [] := by decide
  rw [old, List.suffix_nil]
  decide

end Resize

end Uniterm.Model.Grid
