import Uniterm.Soundness.Grid.Content
import Uniterm.Soundness.Grid.Cursor

/-! # The cursor stays on its glyph

With one-column glyphs a logical offset is a row and a column, so the mapped cursor points at the cell that it
was on, unless the target is 65535 columns wide and the cursor is beyond that many columns of its logical line.
-/

namespace Uniterm.Model.Grid

variable {u : Unicode} {g g' : Grid} {width height : ℕ} {blank : Cell} {cursor : ℕ × ℕ} {pending : Bool}

section Landing

/-- The returned cursor is on the cell, or pending after it. -/
def StaysOn (g' : Grid) (returned : ℕ × ℕ × Bool) (pending : Bool) (cell : Cell) : Prop :=
  match pending with
  | false => returned.2.2 = false ∧ g'.get? returned.1 returned.2.1 = some cell
  | true =>
    if returned.2.2 then returned.1 = g'.width - 1 ∧ g'.get? returned.1 returned.2.1 = some cell
    else 0 < returned.1 ∧ g'.get? (returned.1 - 1) returned.2.1 = some cell

/-- The mapped column is that of the glyph, or the one after it. -/
theorem mapCursor_follows (wide : 0 < width) (size : g'.width = width) {p y : ℕ} (cell : Cell) (pending : Bool) :
    let mapped := mapCursor width (p + pending.toNat) pending
    StaysOn g' (min mapped.2.1 (width - 1), y, mapped.2.2) pending cell ↔ g'.get? (p % width) y = some cell := by
  have column := Nat.mod_lt p wide
  cases pending with
  | false =>
    have plain : mapCursor width p false = (p / width, p % width, false) := if_neg (by simp)
    rw [Bool.toNat_false, Nat.add_zero, plain]
    dsimp only [StaysOn]
    rw [Nat.min_eq_left (by omega)]
    simp
  | true =>
    rw [Bool.toNat_true]
    have offset := Nat.mod_add_mod p width 1
    by_cases edge : p % width + 1 = width
    · have boundary : (p + 1) % width = 0 := by rw [← offset, edge, Nat.mod_self]
      have mapped : mapCursor width (p + 1) true = ((p + 1) / width - 1, width - 1, true) :=
        if_pos ⟨rfl, boundary, Nat.succ_ne_zero p⟩
      rw [mapped]
      dsimp only [StaysOn]
      have last : p % width = width - 1 := by omega
      rw [if_pos rfl, Nat.min_self, size, last]
      simp
    · have inner : (p + 1) % width = p % width + 1 := by rw [← offset, Nat.mod_eq_of_lt (by omega)]
      have mapped : mapCursor width (p + 1) true = ((p + 1) / width, p % width + 1, false) := by
        rw [mapCursor, if_neg (by rw [inner]; omega), inner]
      rw [mapped]
      dsimp only [StaysOn]
      rw [if_neg (by decide), Nat.min_eq_left (by omega), Nat.add_sub_cancel]
      simp

/-- The mapped row is that of the glyph. -/
theorem mapCursor_row (wide : 0 < width) (p : ℕ) (pending : Bool) :
    (mapCursor width (p + pending.toNat) pending).1 = p / width := by
  have column := Nat.mod_lt p wide
  cases pending with
  | false => exact congrArg Prod.fst (if_neg (by simp) : mapCursor width p false = (p / width, p % width, false))
  | true =>
    rw [Bool.toNat_true]
    have offset := Nat.mod_add_mod p width 1
    have quotient : (p + 1) / width = p / width + if width ∣ p + 1 then 1 else 0 := Nat.succ_div
    by_cases edge : p % width + 1 = width
    · have boundary : (p + 1) % width = 0 := by rw [← offset, edge, Nat.mod_self]
      rw [mapCursor, if_pos ⟨rfl, boundary, Nat.succ_ne_zero p⟩]
      rw [if_pos (Nat.dvd_of_mod_eq_zero boundary)] at quotient
      exact (congrArg (· - 1) quotient).trans (Nat.add_sub_cancel ..)
    · have inner : (p + 1) % width = p % width + 1 := by rw [← offset, Nat.mod_eq_of_lt (by omega)]
      rw [mapCursor, if_neg (by rw [inner]; omega)]
      rw [if_neg fun divides => by rw [Nat.mod_eq_zero_of_dvd divides] at inner; omega] at quotient
      exact quotient

end Landing

section Viewports

/-- The row of the cursor among the recut rows. -/
def cursorRow (u : Unicode) (g : Grid) (width : ℕ) (cursor : ℕ × ℕ) (pending : Bool) : ℕ :=
  (reflowLines u g width cursor).anchors.cursorSpan.1 +
    min (mapCursor width (reflowLines u g width cursor).cursorOffset pending).1
      ((reflowLines u g width cursor).anchors.cursorSpan.2 - 1)

private theorem growViewport_row {physical : List Line} {nextLineId row start : ℕ} {line : Line}
    (found : physical[row]? = some line) :
    let v := growViewport width height blank physical nextLineId row start
    v.physical[v.cursorGlobal]? = some line ∧ v.cursorGlobal < v.screenStart + height := by
  have inside := (List.getElem?_eq_some_iff.mp found).1
  unfold growViewport
  dsimp only
  split
  · dsimp only
    refine ⟨?_, by omega⟩
    rw [List.getElem?_append_left (by rw [List.length_take]; omega), List.getElem?_take_of_lt (by omega), found]
  · dsimp only
    exact ⟨by rw [List.getElem?_append_left inside, found], by omega⟩

private theorem shrinkViewport_row {physical : List Line} {nextLineId row : ℕ} {line : Line}
    (found : physical[row]? = some line) :
    let v := shrinkViewport width height blank physical nextLineId row
    v.physical[v.cursorGlobal]? = some line ∧ v.cursorGlobal < v.screenStart + height := by
  have inside := (List.getElem?_eq_some_iff.mp found).1
  unfold shrinkViewport
  dsimp only
  have added : ((blankLines width blank nextLineId (height - physical.length)).reverse).length =
      height - physical.length := by rw [List.length_reverse, length_blankLines]
  refine ⟨?_, ?_⟩
  · rw [List.getElem?_append_right (by omega), added, Nat.add_sub_cancel, found]
  · rw [List.length_append, added]
    omega

/-- Neither viewport loses the cursor's row, and neither ends above it. -/
theorem reflowViewport_row (height : ℕ) (blank : Cell) {line : Line}
    (found : (reflowLines u g width cursor).physical[cursorRow u g width cursor pending]? = some line) :
    let v := reflowViewport u g width height blank cursor pending
    v.physical[v.cursorGlobal]? = some line ∧ v.cursorGlobal < v.screenStart + height := by
  unfold reflowViewport
  dsimp only
  split
  · exact growViewport_row found
  · exact shrinkViewport_row found

/-- A row of the viewport is on the screen, padded, when it is not above it. -/
theorem install_get {v : Viewport} {row x : ℕ} {line : Line} (found : v.physical[row]? = some line)
    (shown : v.screenStart ≤ row) :
    (g.install width height v).get? x (row - v.screenStart) = (paddedCells width line)[x]? := by
  have visible : (v.physical.drop v.screenStart)[row - v.screenStart]? = some line := by
    rw [List.getElem?_drop, Nat.add_sub_cancel' shown, found]
  rw [get?, install_lines, List.getElem?_map, visible]
  unfold paddedCells
  dsimp only [Option.map_some, Option.bind_some]
  split
  · rfl
  · rfl

end Viewports

section Glyphs

/-- The leads of the rows above a screen row in its logical line. -/
def leadsBefore (g : Grid) (y : ℕ) : List Cell := (g.closeLines (g.scrollback ++ g.lines.take y) []).2

/-- The leads of the logical line that a screen row belongs to. -/
def cursorLine (g : Grid) (y : ℕ) : List Cell := g.leadsBefore y ++ g.lineFrom (g.lines.drop y)

private theorem narrow_default (space : u.glyphWidth [' '] = 1) : Narrow u g {} := ⟨rfl, space⟩

theorem Narrow.leads {c : Cell} (narrow : Narrow u g c) : c.isContinuation = false := by
  rw [Cell.isContinuation, narrow.width]
  rfl

private theorem lineLeads_narrow (space : u.glyphWidth [' '] = 1) {line : Line}
    (narrow : ∀ c ∈ line.cells, Narrow u g c) :
    ∀ c ∈ g.lineLeads line, Narrow u g c := by
  intro c member
  unfold lineLeads at member
  split at member
  · rcases List.mem_append.mp member with old | padded
    · exact narrow c (List.mem_of_mem_filter old)
    · rw [List.eq_of_mem_replicate padded]
      exact narrow_default space
  · exact narrow c (List.mem_of_mem_filter ((List.rdropWhile_prefix ..).subset member))

/-- A row of narrow glyphs gives its cells in order. -/
theorem lineLeads_cell {line : Line} (narrow : ∀ c ∈ line.cells, Narrow u g c) {q : ℕ} {cell : Cell}
    (held : line.cells[q]? = some cell) (retained : q < (g.lineLeads line).length) :
    (g.lineLeads line)[q]? = some cell := by
  have leads : line.cells.filter (fun c => !c.isContinuation) = line.cells :=
    List.filter_eq_self.mpr fun c member => by rw [(narrow c member).leads]; rfl
  unfold lineLeads at retained ⊢
  rw [leads] at retained ⊢
  split
  · rw [List.getElem?_append_left (List.getElem?_eq_some_iff.mp held).1, held]
  next hard =>
    rw [if_neg hard] at retained
    obtain ⟨rest, whole⟩ : line.cells.rdropWhile g.isDefaultBlank <+: line.cells := List.rdropWhile_prefix ..
    rw [← held]
    conv_rhs => rw [← whole]
    exact (List.getElem?_append_left retained).symm

private theorem cursorLine_narrow (space : u.glyphWidth [' '] = 1) (narrow : AllCells (Narrow u g) g) (y : ℕ) :
    ∀ c ∈ g.cursorLine y, Narrow u g c := by
  have rows (line : Line) (member : line ∈ g.scrollback ++ g.lines) :=
    lineLeads_narrow space (narrow line member)
  have before : ∀ c ∈ g.leadsBefore y, Narrow u g c := (closeLines_all g
    (fun line member => rows line (by
      rcases List.mem_append.mp member with history | screen
      · exact List.mem_append_left _ history
      · exact List.mem_append_right _ (List.mem_of_mem_take screen))) [] (by simp)).2
  have after (lines : List Line) (all : ∀ line ∈ lines, ∀ c ∈ g.lineLeads line, Narrow u g c) :
      ∀ c ∈ g.lineFrom lines, Narrow u g c := by
    induction lines with
    | nil => simp [lineFrom]
    | cons line rest ih =>
      intro c member
      have head := all line (List.mem_cons_self ..)
      rw [lineFrom] at member
      split at member
      · rcases List.mem_append.mp member with here | later
        · exact head c here
        · exact ih (fun other inside => all other (.tail _ inside)) c later
      · exact head c member
  intro c member
  rcases List.mem_append.mp member with early | late
  · exact before c early
  · exact after _ (fun line inside => rows line (List.mem_append_right _ (List.mem_of_mem_drop inside))) c late

/-- The glyph at a column of a screen row is the one at its offset in the logical line. -/
theorem cursorLine_cell (narrow : AllCells (Narrow u g) g) {y q : ℕ} {row : Line} {cell : Cell}
    (shown : g.lines[y]? = some row) (held : row.cells[q]? = some cell) (retained : q < (g.lineLeads row).length) :
    (g.cursorLine y)[(g.leadsBefore y).length + q]? = some cell := by
  have inside := (List.getElem?_eq_some_iff.mp shown)
  have member : row ∈ g.scrollback ++ g.lines := List.mem_append_right _ (List.mem_of_getElem? shown)
  have lead := lineLeads_cell (narrow row member) held retained
  have rest : g.lines.drop y = row :: g.lines.drop (y + 1) := by
    rw [List.drop_eq_getElem_cons inside.1, inside.2]
  rw [cursorLine, List.getElem?_append_right (by omega), Nat.add_sub_cancel_left, rest, lineFrom]
  split
  · rw [List.getElem?_append_left retained, lead]
  · exact lead

/-- The streaming pass opens the cursor's logical line with the leads above its row. -/
theorem reflowLines_cursorLine (space : u.glyphWidth [' '] = 1) (narrow : AllCells (Narrow u g) g) (width : ℕ)
    {y q : ℕ} {row : Line} {cell : Cell} (shown : g.lines[y]? = some row) (held : row.cells[q]? = some cell)
    (retained : q < (g.lineLeads row).length) (pending : Bool) :
    ∃ physical nextLineId, Spanned (spanOf u g width (g.cursorLine y) physical nextLineId)
      ((g.leadsBefore y).length + q + pending.toNat)
      (emitLogicalLine u g width (g.cursorLine y) physical nextLineId).1
      (reflowLines u g width (q + pending.toNat, y)) := by
  have cellAt := cursorLine_cell narrow shown held retained
  have all := cursorLine_narrow space narrow y
  have inside := (List.getElem?_eq_some_iff.mp cellAt).1
  obtain ⟨screen, here⟩ := List.getElem?_eq_some_iff.mp shown
  have rest : g.lines.drop y = row :: g.lines.drop (y + 1) := by
    rw [List.drop_eq_getElem_cons screen, here]
  have rows : g.scrollback ++ g.lines = (g.scrollback ++ g.lines.take y) ++ row :: g.lines.drop (y + 1) := by
    rw [List.append_assoc, ← rest, List.take_append_drop]
  have line : (g.closeLines (g.scrollback ++ g.lines.take y) []).2 ++ g.lineFrom (row :: g.lines.drop (y + 1)) =
      g.cursorLine y := by rw [cursorLine, leadsBefore, rest]
  have met : (g.scrollback ++ g.lines.take y).length = g.scrollback.length + y := by
    rw [List.length_append, List.length_take]
    omega
  obtain ⟨physical, nextLineId, spanned⟩ := reflowLines_cursor u g width rows (q + pending.toNat, y) met
    (by rw [line]; exact List.ne_nil_of_length_pos (by omega))
  rw [line] at spanned
  have counted : ((g.closeLines (g.scrollback ++ g.lines.take y) []).2.map fun cell => max cell.width 1).sum =
      (g.leadsBefore y).length := by
    have ones : ∀ c ∈ g.leadsBefore y, max c.width 1 = 1 := fun c member => by
      rw [(all c (List.mem_append_left _ member)).width, Nat.max_self]
    change ((g.leadsBefore y).map fun cell => max cell.width 1).sum = _
    rw [List.map_congr_left ones, List.map_const', List.sum_replicate_nat, Nat.mul_one]
  rw [counted, ← Nat.add_assoc] at spanned
  exact ⟨physical, nextLineId, spanned⟩

/-- The cursor's recut row holds the glyph at the offset's remainder; at the last width it holds the start of the
logical line. -/
theorem cursorRow_cell (space : u.glyphWidth [' '] = 1) (narrow : AllCells (Narrow u g) g) (wide : 0 < width)
    (bound : width < 65536) {y q : ℕ} {row : Line} {cell : Cell} (shown : g.lines[y]? = some row)
    (held : row.cells[q]? = some cell) (retained : q < (g.lineLeads row).length) (pending : Bool) :
    let p := (g.leadsBefore y).length + q
    ∃ line, (reflowLines u g width (q + pending.toNat, y)).physical[
        cursorRow u g width (q + pending.toNat, y) pending]? = some line ∧
      (paddedCells width line)[p % width]? = (g.cursorLine y)[if width < 65535 then p else p % 65535]? := by
  have all := cursorLine_narrow space narrow y
  have inside := (List.getElem?_eq_some_iff.mp (cursorLine_cell narrow shown held retained)).1
  obtain ⟨physical, nextLineId, spanned⟩ :=
    reflowLines_cursorLine space narrow width shown held retained pending
  dsimp only
  generalize (g.leadsBefore y).length + q = p at *
  rw [cursorRow, spanned.span, spanned.offset, mapCursor_row wide, spanOf]
  obtain ⟨more, grown⟩ := spanned.rows
  rcases Nat.lt_or_ge width 65535 with small | widest
  · obtain ⟨rows, emitted, cells⟩ := emitLogicalLine_narrow wide small all physical nextLineId
    obtain ⟨found, at', same⟩ := cells p inside
    have index := (List.getElem?_eq_some_iff.mp at').1
    refine ⟨found, ?_, by rw [if_pos small, same]⟩
    rw [← grown, emitted, List.length_append, Nat.add_sub_cancel_left, Nat.min_eq_left (Nat.le_sub_one_of_lt index),
      List.append_assoc, List.getElem?_append_right (Nat.le_add_right ..), Nat.add_sub_cancel_left,
      List.getElem?_append_left index, at']
  · obtain rfl : width = 65535 := by omega
    obtain ⟨found, emitted, cells⟩ := emitLogicalLine_widest all physical nextLineId
    refine ⟨found, ?_, ?_⟩
    · rw [← grown, emitted, List.length_append, Nat.add_sub_cancel_left, List.length_singleton, Nat.sub_self,
        Nat.min_zero, Nat.add_zero, List.append_assoc, List.getElem?_append_right le_rfl, Nat.sub_self]
      rfl
    · rw [if_neg (Nat.lt_irrefl _)]
      exact cells _ ((Nat.mod_le p 65535).trans_lt inside) (Nat.mod_lt p (by decide))

/-- The returned cursor is on the glyph below 65535 columns, and at that width when the cell as far into the
logical line as its offset's remainder is the same. -/
theorem reflowWidth_follows (space : u.glyphWidth [' '] = 1) (narrow : AllCells (Narrow u g) g) (wide : 0 < width)
    (bound : width < 65536) (tall : 0 < height) {y q : ℕ} {row : Line} {cell : Cell} (shown : g.lines[y]? = some row)
    (held : row.cells[q]? = some cell) (retained : q < (g.lineLeads row).length) (blank : Cell) (pending : Bool)
    (below : (reflowViewport u g width height blank (q + pending.toNat, y) pending).screenStart ≤
      (reflowViewport u g width height blank (q + pending.toNat, y) pending).cursorGlobal) :
    let p := (g.leadsBefore y).length + q
    let reflowed := g.reflowWidth u width height blank (q + pending.toNat, y) pending
    StaysOn reflowed.1 reflowed.2 pending cell ↔
      width < 65535 ∨ (g.cursorLine y)[p % 65535]? = (g.cursorLine y)[p]? := by
  dsimp only
  have cellAt := cursorLine_cell narrow shown held retained
  obtain ⟨line, placed, same⟩ := cursorRow_cell space narrow wide bound shown held retained pending
  obtain ⟨onRow, inside⟩ := reflowViewport_row height blank placed
  obtain ⟨physical, nextLineId, spanned⟩ := reflowLines_cursorLine space narrow width shown held retained pending
  rw [reflowWidth_cursor, reflowWidth_grid]
  generalize reflowViewport u g width height blank (q + pending.toNat, y) pending = v at onRow inside below ⊢
  have screen : min (v.cursorGlobal - (v.screenStart - g.scrollbackLimit) -
      (v.screenStart - (v.screenStart - g.scrollbackLimit))) (height - 1) = v.cursorGlobal - v.screenStart := by omega
  have size : (g.install width height v).width = width := by rw [install_frame]
  have follows := mapCursor_follows wide size (p := (g.leadsBefore y).length + q)
    (y := v.cursorGlobal - v.screenStart) cell pending
  dsimp only at follows
  rw [install_get onRow below, same] at follows
  rw [screen, spanned.offset, follows, cellAt]
  split
  next small => simp [small, cellAt]
  next widest => simp [widest]

/-- With one-column glyphs the cursor stays on its cell, or pending after it, through every change of width whose
viewport keeps its row; at 65535 columns the logical line must read the same a multiple of that width earlier. -/
theorem resizeReflow_follows (space : u.glyphWidth [' '] = 1) (narrow : AllCells (Narrow u g) g)
    (changes : max width 1 ≠ g.width) (bound : width < 65536) {y q : ℕ} {row : Line} {cell : Cell}
    (shown : g.lines[y]? = some row) (held : row.cells[q]? = some cell) (retained : q < (g.lineLeads row).length) (height : ℕ) (blank : Cell)
    (pending : Bool) (below : (reflowViewport u g (max width 1) (max height 1) blank (q + pending.toNat, y) pending).screenStart ≤
      (reflowViewport u g (max width 1) (max height 1) blank (q + pending.toNat, y) pending).cursorGlobal) :
    let p := (g.leadsBefore y).length + q
    let resized := g.resizeReflow u width height blank (q + pending.toNat, y) pending
    StaysOn resized.1 resized.2 pending cell ↔
      width < 65535 ∨ (g.cursorLine y)[p % 65535]? = (g.cursorLine y)[p]? := by
  dsimp only
  have last : max width 1 < 65535 ↔ width < 65535 := by omega
  have follows := reflowWidth_follows space narrow (by omega) (by omega) (by omega) shown held retained blank pending below
  rw [last] at follows
  rw [resizeReflow_reflowWidth u changes]
  exact follows

theorem resizeReflow_follows_letters :
    StaysOn (threeLetters.resizeReflow narrowTables 2 1 {} (2, 0) false).1
      (threeLetters.resizeReflow narrowTables 2 1 {} (2, 0) false).2 false { ch := 'c' } := by
  have narrow : AllCells (Narrow narrowTables threeLetters) threeLetters := by
    intro line member c inside
    simp only [threeLetters, List.nil_append, List.mem_singleton] at member
    subst member
    simp only [List.mem_cons, List.not_mem_nil, or_false] at inside
    rcases inside with rfl | rfl | rfl | rfl <;> exact ⟨rfl, rfl⟩
  exact (resizeReflow_follows (q := 2) (y := 0) rfl narrow (by decide) (by decide) rfl rfl (by decide) 1 {} false
    (by decide)).mpr (.inl (by decide))

/-- Two rows of one logical line. -/
def twoRows (width : ℕ) (above below : List Cell) : Grid where
  width
  height := 2
  lines := [{ cells := above, wrapped := true, id := 1 }, { cells := below, id := 2 }]
  damage := [.clean, .clean]
  nextLineId := 3

section TwoRows

variable {above below : List Cell}

private theorem twoRows_narrow (narrow : ∀ c ∈ above ++ below, Narrow u (twoRows width above below) c) :
    AllCells (Narrow u (twoRows width above below)) (twoRows width above below) := by
  intro line member c inside
  simp only [twoRows, List.nil_append, List.mem_cons, List.not_mem_nil, or_false] at member
  rcases member with rfl | rfl
  · exact narrow c (List.mem_append_left _ inside)
  · exact narrow c (List.mem_append_right _ inside)

/-- The lines read as the row above, when it is full, and the one below, when it ends in a glyph. -/
theorem twoRows_line (leads : ∀ c ∈ above ++ below, c.isContinuation = false) (full : above.length = width)
    {last : Cell} (ends : below.getLast? = some last) (glyph : (twoRows width above below).isDefaultBlank last = false) :
    (twoRows width above below).leadsBefore 1 = above ∧
      (twoRows width above below).lineLeads { cells := below, id := 2 } = below ∧
      (twoRows width above below).logicalLines = [(twoRows width above below).cursorLine 1] := by
  have kept (cells : List Cell) (leads : ∀ c ∈ cells, c.isContinuation = false) :
      cells.filter (fun c => !c.isContinuation) = cells :=
    List.filter_eq_self.mpr fun c member => by rw [leads c member]; rfl
  have first := kept above fun c member => leads c (List.mem_append_left _ member)
  have second := kept below fun c member => leads c (List.mem_append_right _ member)
  refine ⟨?_, ?_, rfl⟩
  · have row : (twoRows width above below).leadsBefore 1 =
        (twoRows width above below).lineLeads { cells := above, wrapped := true, id := 1 } := rfl
    rw [row, lineLeads, if_pos rfl, first, full, show (twoRows width above below).width = width from rfl, Nat.sub_self,
      List.replicate_zero, List.append_nil]
  · rw [lineLeads, if_neg (by simp), second]
    obtain ⟨rest, rfl⟩ : ∃ rest, below = rest ++ [last] := by
      obtain ⟨some, same⟩ := List.getLast?_eq_some_iff.mp ends
      exact ⟨_, same⟩
    exact List.rdropWhile_concat_neg _ _ _ (by simp [glyph])

end TwoRows

/-- At 65535 columns eighty thousand letters are never cut, and the last one is past the end of its row. -/
theorem twoRows_lost {a b : List Cell} (letters : ∀ c ∈ a ++ b, c = { ch := 'a' } ∨ c = { ch := 'b' })
    (above : a.length = 40000) (size : b.length = 40000) (early : a[14464]? = some { ch := 'a' })
    (ends : b.getLast? = some { ch := 'b' }) (held : b[39999]? = some { ch := 'b' }) :
    AllCells (Narrow narrowTables (twoRows 40000 a b)) (twoRows 40000 a b) ∧
      (twoRows 40000 a b).get? 39999 1 = some { ch := 'b' } ∧
      (reflowViewport narrowTables (twoRows 40000 a b) 65535 2 {} (39999, 1) false).screenStart ≤
        (reflowViewport narrowTables (twoRows 40000 a b) 65535 2 {} (39999, 1) false).cursorGlobal ∧
      ¬StaysOn ((twoRows 40000 a b).resizeReflow narrowTables 65535 2 {} (39999, 1) false).1
        ((twoRows 40000 a b).resizeReflow narrowTables 65535 2 {} (39999, 1) false).2 false { ch := 'b' } := by
  have narrow : AllCells (Narrow narrowTables (twoRows 40000 a b)) (twoRows 40000 a b) :=
    twoRows_narrow fun c member => by rcases letters c member with rfl | rfl <;> exact ⟨rfl, rfl⟩
  obtain ⟨before, leads, logical⟩ := twoRows_line
    (fun c member => by rcases letters c member with rfl | rfl <;> rfl) above ends rfl
  have retained : 39999 < ((twoRows 40000 a b).lineLeads { cells := b, id := 2 }).length := by
    rw [leads, size]
    decide
  have one : (reflowLines narrowTables (twoRows 40000 a b) 65535 (39999, 1)).physical.length = 1 := by
    obtain ⟨line, emitted, -⟩ :=
      emitLogicalLine_widest (cursorLine_narrow (u := narrowTables) rfl narrow 1) [] (twoRows 40000 a b).nextLineId
    have rows := congrArg Prod.fst (reflowLines_rows narrowTables (twoRows 40000 a b) 65535 (39999, 1))
    rw [logical, emitAll, List.foldl_cons, List.foldl_nil] at rows
    dsimp only at rows
    rw [rows, emitted, List.nil_append, List.length_singleton]
  have visible : (reflowViewport narrowTables (twoRows 40000 a b) 65535 2 {} (39999, 1) false).screenStart ≤
      (reflowViewport narrowTables (twoRows 40000 a b) 65535 2 {} (39999, 1) false).cursorGlobal := by
    have equal : ¬2 > (twoRows 40000 a b).height := Nat.lt_irrefl 2
    rw [reflowViewport, if_neg equal, shrinkViewport]
    dsimp only
    rw [List.length_append, List.length_reverse, length_blankLines, one]
    exact Nat.zero_le _
  refine ⟨narrow, held, visible, fun follows => ?_⟩
  have exact := reflowWidth_follows (y := 1) (q := 39999) rfl narrow (by decide : 0 < 65535) (by decide)
    (by decide : 0 < 2) rfl held retained {} false
  rw [Bool.toNat_false, Nat.add_zero] at exact
  rw [resizeReflow_reflowWidth _ (by change max 65535 1 ≠ 40000; decide)] at follows
  rcases (exact visible).mp follows with small | same
  · exact absurd small (by decide)
  · rw [cursorLine_cell narrow rfl held retained, before, above, cursorLine, before,
      List.getElem?_append_left (by rw [above]; decide), show (40000 + 39999) % 65535 = 14464 by decide, early] at same
    exact absurd same (by decide)

/-- Forty thousand letters, and as many with another letter at their end. -/
def longLine : Grid :=
  twoRows 40000 (List.replicate 40000 { ch := 'a' }) (List.replicate 39999 { ch := 'a' } ++ [{ ch := 'b' }])

/-- At 65535 columns the line is never cut, and its last letter is past the end of its row. -/
theorem not_follows_longLine : AllCells (Narrow narrowTables longLine) longLine ∧
    longLine.get? 39999 1 = some { ch := 'b' } ∧
    (reflowViewport narrowTables longLine 65535 2 {} (39999, 1) false).screenStart ≤
      (reflowViewport narrowTables longLine 65535 2 {} (39999, 1) false).cursorGlobal ∧
    ¬StaysOn (longLine.resizeReflow narrowTables 65535 2 {} (39999, 1) false).1
      (longLine.resizeReflow narrowTables 65535 2 {} (39999, 1) false).2 false { ch := 'b' } := by
  have letters : ∀ c ∈ List.replicate 40000 ({ ch := 'a' } : Cell) ++
      (List.replicate 39999 ({ ch := 'a' } : Cell) ++ [{ ch := 'b' }]), c = { ch := 'a' } ∨ c = { ch := 'b' } := by
    intro c member
    rcases List.mem_append.mp member with first | second
    · exact .inl (List.eq_of_mem_replicate first)
    rcases List.mem_append.mp second with letters | last
    · exact .inl (List.eq_of_mem_replicate letters)
    · exact .inr (List.mem_singleton.mp last)
  have above : (List.replicate 40000 ({ ch := 'a' } : Cell)).length = 40000 := List.length_replicate
  have size : (List.replicate 39999 ({ ch := 'a' } : Cell) ++ [({ ch := 'b' } : Cell)]).length = 40000 := by
    rw [List.length_append, List.length_replicate, List.length_singleton]
  have held : (List.replicate 39999 ({ ch := 'a' } : Cell) ++ [{ ch := 'b' }])[39999]? = some { ch := 'b' } := by
    rw [List.getElem?_append_right (by rw [List.length_replicate]), List.length_replicate, Nat.sub_self,
      List.getElem?_cons_zero]
  have early : (List.replicate 40000 ({ ch := 'a' } : Cell))[14464]? = some { ch := 'a' } := by
    rw [List.getElem?_replicate, if_pos (by decide)]
  have ends : (List.replicate 39999 ({ ch := 'a' } : Cell) ++ [({ ch := 'b' } : Cell)]).getLast? = some { ch := 'b' } :=
    List.getLast?_concat
  exact twoRows_lost letters above size early ends held

end Glyphs

end Uniterm.Model.Grid
