import Mathlib.Algebra.Order.BigOperators.Group.List
import Mathlib.Algebra.Order.Ring.Nat
import Uniterm.Model.Server.CopyMode
import Uniterm.ToMathlib.Paired

/-! # Copied and highlighted text

Rendering and copying scan the rows of a selection separately. Where wide glyphs are paired with their continuations
both see the same glyphs. They differ in what becomes of blanks at the end of a row: copying drops them from every row
that is selected up to its right edge, also from one that continues in the next row.
-/

namespace Uniterm.Model.Server

open ToMathlib Workspace CopyMode

variable {g : Grid} {s : CopyState} {rect : Rect}

section Glyphs

/-- Inside the width of the grid, wide glyphs and continuations come in pairs. -/
def WidePaired (g : Grid) : Prop :=
  ∀ line ∈ g.scrollback ++ g.lines, Paired ((line.cells.take g.width).map Cell.width)

private theorem mem_of_line {i : ℕ} {line : Line} (read : g.line i = some line) : line ∈ g.scrollback ++ g.lines := by
  unfold Grid.line at read
  split at read
  · exact List.mem_append_left _ (List.mem_of_getElem? read)
  · exact List.mem_append_right _ (List.mem_of_getElem? read)

/-- The width of a cell inside a paired line. -/
theorem lineCell_paired (paired : WidePaired g) {i x : ℕ} (inside : x < g.width) :
    ((g.lineCell i x).width = 2 → x + 1 < g.width ∧ (g.lineCell i (x + 1)).isContinuation) ∧
      ((g.lineCell i x).isContinuation → 0 < x ∧ (g.lineCell i (x - 1)).width = 2) ∧ (g.lineCell i x).width ≤ 2 := by
  unfold Grid.lineCell
  cases read : g.line i with
  | none => simp [Cell.isContinuation]
  | some line =>
    have row := paired line (mem_of_line read)
    have width {y : ℕ} (column : y < g.width) :
        ((line.cells.take g.width).map Cell.width)[y]? = line.cells[y]?.map Cell.width := by
      rw [List.getElem?_map, List.getElem?_take_of_lt column]
    simp only [Option.bind_some]
    cases cell : line.cells[x]? with
    | none => simp [Cell.isContinuation]
    | some c =>
      have own : ((line.cells.take g.width).map Cell.width)[x]? = some c.width := by rw [width inside, cell]; rfl
      simp only [Option.getD_some]
      refine ⟨fun two => ?_, fun continues => ?_, row.narrow _ (List.mem_of_getElem? own)⟩
      · rw [two] at own
        have next := (row.next x).mp own
        have bound := (List.getElem?_eq_some_iff.mp next).1
        rw [List.length_map, List.length_take] at bound
        have column : x + 1 < g.width := by omega
        rw [width column, Option.map_eq_some_iff] at next
        obtain ⟨follower, found, zero⟩ := next
        rw [found, Option.getD_some, Cell.isContinuation, zero]
        exact ⟨column, rfl⟩
      · rw [Cell.isContinuation, beq_iff_eq] at continues
        rw [continues] at own
        obtain ⟨positive, lead⟩ := row.positive own
        refine ⟨positive, ?_⟩
        rw [width (by omega), Option.map_eq_some_iff] at lead
        obtain ⟨leader, found, two⟩ := lead
        rw [found, Option.getD_some, two]

/-- The columns of a range that begin a glyph. -/
def leads (g : Grid) (i first stop : ℕ) : List ℕ :=
  (List.range' first (stop - first)).filter fun x => !(g.lineCell i x).isContinuation

private theorem leads_of_le {i first stop : ℕ} (none : stop ≤ first) : leads g i first stop = [] := by
  rw [leads, Nat.sub_eq_zero_of_le none, List.range'_zero, List.filter_nil]

private theorem leads_cons {i first stop : ℕ} (some : first < stop) : leads g i first stop =
    (if (g.lineCell i first).isContinuation then [] else [first]) ++ leads g i (first + 1) stop := by
  rw [leads, show stop - first = stop - (first + 1) + 1 by omega, List.range'_succ, List.filter_cons, leads]
  cases (g.lineCell i first).isContinuation <;> rfl

/-- A walk over a paired line meets every glyph. -/
theorem glyphsFrom_eq (paired : WidePaired g) {i stop : ℕ} (inside : stop ≤ g.width) (fuel x : ℕ)
    (enough : stop ≤ x + fuel) : glyphsFrom g i stop fuel x = (leads g i x stop).map fun x => (x, g.lineCell i x) := by
  induction fuel generalizing x with
  | zero => rw [leads_of_le (by omega)]; rfl
  | succ fuel ih =>
    unfold glyphsFrom
    split
    next before =>
      obtain ⟨wide, -, narrow⟩ := lineCell_paired paired (i := i) (by omega : x < g.width)
      rw [leads_cons before]
      dsimp only
      by_cases continues : (g.lineCell i x).isContinuation
      · rw [if_pos continues, if_pos continues, Cell.displayWidth, if_pos continues, ih _ (by omega)]
        rfl
      · rw [if_neg continues, if_neg continues, Cell.displayWidth, if_neg continues, List.singleton_append, List.map_cons]
        congr 1
        rw [ih _ (by omega)]
        congr 1
        by_cases two : (g.lineCell i x).width = 2
        · rw [two]
          by_cases last : x + 1 < stop
          · rw [leads_cons last, if_pos (wide two).2]
            rfl
          · rw [leads_of_le (by omega), leads_of_le (by omega)]
        · rw [show max (max (g.lineCell i x).width 1) 1 = 1 by omega]
    next behind => rw [leads_of_le (by omega)]; rfl

private theorem glyphs_eq (paired : WidePaired g) {i first stop : ℕ} (inside : stop ≤ g.width) :
    glyphs g i first stop = (leads g i first stop).map fun x => (x, g.lineCell i x) :=
  glyphsFrom_eq paired inside stop first (Nat.le_add_left ..)

/-- The texts of the glyphs that begin at some columns. -/
def columnsText (g : Grid) (i : ℕ) (columns : List ℕ) : Text := columns.flatMap fun x => g.cellTextOwned (g.lineCell i x)

/-- A glyph begins at this column and has a column in the range. -/
def touches (g : Grid) (i first stop x : ℕ) : Bool :=
  !(g.lineCell i x).isContinuation &&
    (first ≤ x && x < stop || (g.lineCell i x).width == 2 && (first ≤ x + 1 && x + 1 < stop))

private theorem range'_split {a b c : ℕ} (left : a ≤ b) (right : b ≤ c) :
    List.range' a (c - a) = List.range' a (b - a) ++ List.range' b (c - b) := by
  have joined := List.range'_append_1 (s := a) (m := b - a) (n := c - b)
  rw [Nat.add_sub_cancel' left] at joined
  rw [joined]
  congr 1
  omega

/-- A range of a line copies the glyphs that have a column in the range. -/
theorem lineTextRange_eq (paired : WidePaired g) {i first stop : ℕ} (inside : first < stop) (fits : stop ≤ g.width) :
    lineTextRange g i first stop = columnsText g i ((List.range g.width).filter (touches g i first stop)) := by
  have begins : firstColumn g i first = if 0 < first ∧ (g.lineCell i first).isContinuation then first - 1 else first := by
    unfold firstColumn
    rw [min_eq_left (by omega)]
  have lead (x : ℕ) (column : x < g.width) := lineCell_paired paired (i := i) column
  have cut : first = firstColumn g i first ∧ (0 < first → ¬ (g.lineCell i first).isContinuation) ∨
      first = firstColumn g i first + 1 ∧ (g.lineCell i (firstColumn g i first)).width = 2 := by
    rw [begins]
    split
    next continues =>
      exact .inr ⟨by omega, ((lead first (by omega)).2.1 continues.2).2⟩
    next whole => exact .inl ⟨rfl, fun positive continues => whole ⟨positive, continues⟩⟩
  generalize start : firstColumn g i first = c at cut
  have before : (List.range' 0 (c - 0)).filter (touches g i first stop) = [] := by
    refine List.filter_eq_nil_iff.mpr fun x member => ?_
    have bound := (List.mem_range'_1.mp member).2
    have wide := (lead x (by omega)).1
    simp only [touches, Bool.and_eq_true, Bool.or_eq_true, decide_eq_true_eq, beq_iff_eq, not_and, not_or]
    refine fun _ => ⟨fun _ => by omega, fun two reaches _ => ?_⟩
    obtain ⟨rfl, begins⟩ | ⟨same, -⟩ := cut
    · obtain rfl : first = x + 1 := by omega
      exact begins (Nat.succ_pos x) (wide two).2
    · omega
  have middle : (List.range' c (stop - c)).filter (touches g i first stop) = leads g i c stop := by
    refine List.filter_congr fun x member => ?_
    have bound := List.mem_range'_1.mp member
    unfold touches
    cases (g.lineCell i x).isContinuation with
    | true => rfl
    | false =>
      simp only [Bool.not_false, Bool.true_and, Bool.or_eq_true, Bool.and_eq_true, decide_eq_true_eq, beq_iff_eq]
      by_cases later : first ≤ x
      · exact .inl ⟨later, by omega⟩
      · obtain ⟨same, -⟩ | ⟨same, two⟩ := cut
        · omega
        · obtain rfl : x = c := by omega
          exact .inr ⟨two, by omega, by omega⟩
  have behind : (List.range' stop (g.width - stop)).filter (touches g i first stop) = [] := by
    refine List.filter_eq_nil_iff.mpr fun x member => ?_
    have bound := (List.mem_range'_1.mp member).1
    simp only [touches, Bool.and_eq_true, Bool.or_eq_true, decide_eq_true_eq, beq_iff_eq, not_and, not_or]
    exact fun _ => ⟨fun _ => by omega, fun _ _ => by omega⟩
  have columns : List.range g.width =
      List.range' 0 (c - 0) ++ (List.range' c (stop - c) ++ List.range' stop (g.width - stop)) := by
    rw [List.range_eq_range', ← range'_split (by omega) fits, ← range'_split (Nat.zero_le c) (by omega), Nat.sub_zero]
  rw [lineTextRange, start, min_eq_left fits, glyphs_eq paired fits, glyphsText, List.flatMap_map, columnsText, columns,
    List.filter_append, List.filter_append, before, middle, behind, List.nil_append, List.append_nil]

end Glyphs

section Selected

/-- Copy-mode over grids of the pane's size with paired glyphs. -/
structure Shown (g : Grid) (s : CopyState) (rect : Rect) : Prop where
  columns : s.width = rect.w
  narrow : rect.w < 65536
  live : g.width = rect.w ∧ WidePaired g
  frozen : ∀ frozen ∈ s.frozen, frozen.rows.width = rect.w ∧ WidePaired frozen.rows

/-- A cell inside the viewport. -/
def InView (s : CopyState) (rect : Rect) (cell : ℕ × ℕ) : Prop :=
  s.top ≤ cell.1 ∧ cell.1 < s.top + rect.h ∧ cell.2 < rect.w

/-- The text of the glyphs that are drawn as selected in a row of the viewport. -/
def highlighted (g : Grid) (s : CopyState) (rect : Rect) (row : ℕ) : Text :=
  ((s.drawnRow g rect row).filter (·.selected)).flatMap fun glyph =>
    (s.source g (s.top + row)).1.cellTextOwned glyph.cell

/-- The line soft-wraps into the next selected line. -/
def joins (g : Grid) (s : CopyState) (last : ℕ × ℕ) (line : ℕ) : Bool :=
  line < last.1 && (s.source g line).1.lineWrapped (s.source g line).2

/-- A highlighted row as it should be copied: blanks are dropped at the right edge of the viewport, unless the line goes
on in the next selected one, and a line break ends a line that does not go on. -/
def copiedRow (g : Grid) (s : CopyState) (rect : Rect) (first last : ℕ × ℕ) (row : ℕ) : Text :=
  let line := s.top + row
  let text := highlighted g s rect row
  (if s.isSelected line (rect.w - 1) && !joins g s last line then text.trimEnd else text) ++
    if first.1 ≤ line ∧ line < last.1 ∧ ¬ joins g s last line then ['\n'] else []

variable {first last : ℕ × ℕ}

private theorem position_le_iff {w a b x y : ℕ} (x_inside : x < w) (y_inside : y < w) :
    a * w + x ≤ b * w + y ↔ a < b ∨ a = b ∧ x ≤ y := by
  rcases Nat.lt_trichotomy a b with less | rfl | more
  · have := Nat.mul_le_mul_right w less
    rw [Nat.succ_mul] at this
    omega
  · omega
  · have := Nat.mul_le_mul_right w more
    rw [Nat.succ_mul] at this
    omega

/-- The ends of a selection are the anchor and the cursor, in reading order. -/
theorem selection_ends (selected : s.selection = some (first, last)) :
    s.position first ≤ s.position last ∧ ∃ anchor, s.anchor = some anchor ∧
      (first = anchor ∧ last = (s.cursorLine, s.cx) ∨ first = (s.cursorLine, s.cx) ∧ last = anchor) := by
  unfold CopyState.selection at selected
  cases anchor : s.anchor with
  | none =>
    rw [anchor] at selected
    cases selected
  | some a =>
    rw [anchor] at selected
    simp only [Option.bind_eq_bind, Option.bind_some, Option.some.injEq] at selected
    split at selected
    next order =>
      obtain ⟨rfl, rfl⟩ := Prod.mk.inj selected
      exact ⟨order, a, rfl, .inl ⟨rfl, rfl⟩⟩
    next order =>
      obtain ⟨rfl, rfl⟩ := Prod.mk.inj selected
      exact ⟨by omega, a, rfl, .inr ⟨rfl, rfl⟩⟩

/-- A selection whose ends are inside the viewport. -/
structure Spans (s : CopyState) (rect : Rect) (first last : ℕ × ℕ) : Prop where
  selected : s.selection = some (first, last)
  first : InView s rect first
  last : InView s rect last

theorem Spans.ordered (spans : Spans s rect first last) (shown : Shown g s rect) :
    first.1 < last.1 ∨ first.1 = last.1 ∧ first.2 ≤ last.2 := by
  have order := (selection_ends spans.selected).1
  unfold CopyState.position at order
  rw [shown.columns] at order
  exact (position_le_iff spans.first.2.2 spans.last.2.2).mp order

theorem Spans.isSelected_iff (spans : Spans s rect first last) (shown : Shown g s rect) {line x : ℕ} (column : x < rect.w) :
    s.isSelected line x = true ↔
      (first.1 < line ∨ first.1 = line ∧ first.2 ≤ x) ∧ (line < last.1 ∨ line = last.1 ∧ x ≤ last.2) := by
  unfold CopyState.isSelected CopyState.position
  rw [spans.selected]
  simp only [shown.columns, Bool.and_eq_true, decide_eq_true_eq]
  rw [position_le_iff spans.first.2.2 column, position_le_iff column spans.last.2.2]

/-- The grid that a line is read from is one of the pane's. -/
theorem Shown.source (shown : Shown g s rect) (line : ℕ) :
    (s.source g line).1.width = rect.w ∧ WidePaired (s.source g line).1 := by
  unfold CopyState.source
  cases held : s.frozen with
  | none => exact shown.live
  | some frozen =>
    dsimp only
    split
    · exact shown.frozen frozen held
    · exact shown.live

private theorem highlighted_eq (shown : Shown g s rect) (row : ℕ) : highlighted g s rect row =
    columnsText (s.source g (s.top + row)).1 (s.source g (s.top + row)).2 ((List.range rect.w).filter fun x =>
      !((s.source g (s.top + row)).1.lineCell (s.source g (s.top + row)).2 x).isContinuation &&
        (s.isSelected (s.top + row) x || (((s.source g (s.top + row)).1.lineCell (s.source g (s.top + row)).2 x).width == 2 &&
          s.isSelected (s.top + row) (x + 1)))) := by
  obtain ⟨width, paired⟩ := shown.source (s.top + row)
  unfold highlighted CopyState.drawnRow
  dsimp only
  generalize s.source g (s.top + row) = source at width paired ⊢
  rw [glyphs_eq paired width.ge, List.map_map, List.filter_map, List.flatMap_map, leads, List.filter_filter,
    Nat.sub_zero, ← List.range_eq_range', columnsText]
  congr 1
  refine List.filter_congr fun x _ => ?_
  exact Bool.and_comm ..

/-- A line outside the selection has no highlight. -/
theorem highlighted_outside (spans : Spans s rect first last) (shown : Shown g s rect) {row : ℕ}
    (outside : s.top + row < first.1 ∨ last.1 < s.top + row) : highlighted g s rect row = [] := by
  rw [highlighted_eq shown, columnsText]
  obtain ⟨width, paired⟩ := shown.source (s.top + row)
  refine List.flatMap_eq_nil_iff.mpr fun x member => ?_
  obtain ⟨inside, held⟩ := List.mem_filter.mp member
  have unselected {x : ℕ} (column : x < rect.w) : s.isSelected (s.top + row) x = false := by
    rw [Bool.eq_false_iff, ne_eq, spans.isSelected_iff shown column]
    omega
  have column := List.mem_range.mp inside
  rw [unselected column, Bool.false_or, Bool.and_eq_true, Bool.and_eq_true, beq_iff_eq] at held
  have next := ((lineCell_paired paired (width ▸ column)).1 held.2.1).1
  rw [width] at next
  rw [unselected next] at held
  exact absurd held.2.2 (by decide)

/-- A line inside the selection is highlighted where it is copied. -/
theorem highlighted_inside (spans : Spans s rect first last) (shown : Shown g s rect) {row : ℕ}
    (inside : first.1 ≤ s.top + row ∧ s.top + row ≤ last.1) :
    let columns := s.selectedColumns first last (s.top + row)
    highlighted g s rect row =
      lineTextRange (s.source g (s.top + row)).1 (s.source g (s.top + row)).2 columns.1 columns.2 ∧
        (columns.2 = rect.w ↔ s.isSelected (s.top + row) (rect.w - 1) = true) := by
  obtain ⟨width, paired⟩ := shown.source (s.top + row)
  have ordered := spans.ordered shown
  have first_inside := spans.first.2.2
  have last_inside := spans.last.2.2
  have narrow := shown.narrow
  have stop : min (saturatingAdd16 last.2 1) rect.w = last.2 + 1 := by
    unfold saturatingAdd16
    omega
  dsimp only [CopyState.selectedColumns]
  rw [shown.columns, stop]
  have bounds {x : ℕ} (column : x < rect.w) : s.isSelected (s.top + row) x = true ↔
      (if s.top + row = first.1 then first.2 else 0) ≤ x ∧
        x < (if s.top + row = last.1 then last.2 + 1 else rect.w) := by
    rw [spans.isSelected_iff shown column]
    split <;> split <;> omega
  refine ⟨?_, ?_⟩
  · rw [highlighted_eq shown, lineTextRange_eq paired (by split <;> split <;> omega) (by split <;> omega), width]
    congr 1
    refine List.filter_congr fun x member => ?_
    have column := List.mem_range.mp member
    have wide := (lineCell_paired paired (i := (s.source g (s.top + row)).2) (width ▸ column)).1
    unfold touches
    congr 1
    rw [Bool.eq_iff_iff]
    simp only [Bool.or_eq_true, Bool.and_eq_true, decide_eq_true_eq, beq_iff_eq]
    rw [bounds column]
    refine or_congr_right (and_congr_right fun two => ?_)
    rw [bounds (width ▸ (wide two).1)]
  · rw [bounds (by omega)]
    split <;> split <;> omega

end Selected

section Copying

/-- The text that a selection should copy. -/
def copied (g : Grid) (s : CopyState) (rect : Rect) (first last : ℕ × ℕ) : Text :=
  (List.range rect.h).flatMap (copiedRow g s rect first last)

/-- No blanks end a selected line that soft-wraps into the next selected one. -/
def NoJoinBlanks (g : Grid) (s : CopyState) (rect : Rect) (first last : ℕ × ℕ) : Prop :=
  ∀ row < rect.h, first.1 ≤ s.top + row → joins g s last (s.top + row) = true →
    (highlighted g s rect row).trimEnd = highlighted g s rect row

variable {first last : ℕ × ℕ}

private theorem length_trimEnd_le (text : Text) :
    text.trimEnd.length ≤ text.length := (List.rdropWhile_prefix ..).length_le

private theorem copiedRow_outside (spans : Spans s rect first last) (shown : Shown g s rect) {row : ℕ}
    (outside : s.top + row < first.1 ∨ last.1 < s.top + row) : copiedRow g s rect first last row = [] := by
  have nothing := highlighted_outside spans shown outside
  have unbroken : ¬ (first.1 ≤ s.top + row ∧ s.top + row < last.1 ∧ ¬ joins g s last (s.top + row)) := by omega
  unfold copiedRow
  dsimp only
  rw [nothing, if_neg unbroken, List.append_nil]
  split <;> rfl

/-- A selected line is copied as it should be, unless it goes on in the next one and ends with blanks. -/
theorem copiedRow_inside (spans : Spans s rect first last) (shown : Shown g s rect) {row : ℕ}
    (inside : first.1 ≤ s.top + row ∧ s.top + row ≤ last.1) :
    (s.selectedLine g first last (s.top + row)).length ≤ (copiedRow g s rect first last row).length ∧
      (s.selectedLine g first last (s.top + row) = copiedRow g s rect first last row ↔
        (joins g s last (s.top + row) = true → (highlighted g s rect row).trimEnd = highlighted g s rect row)) := by
  obtain ⟨text, edge⟩ := highlighted_inside spans shown inside
  have line : s.selectedLine g first last (s.top + row) =
      (if s.isSelected (s.top + row) (rect.w - 1) = true then (highlighted g s rect row).trimEnd
        else highlighted g s rect row) ++
      if first.1 ≤ s.top + row ∧ s.top + row < last.1 ∧ ¬ joins g s last (s.top + row) then ['\n'] else [] := by
    unfold CopyState.selectedLine joins
    dsimp only
    rw [shown.columns, ← text]
    congr 1
    · simp only [edge]
    · have before : s.top + row ≠ last.1 ↔ s.top + row < last.1 := by omega
      simp only [before, inside.1, true_and, Bool.and_eq_true, decide_eq_true_eq, not_and]
      congr 1
      exact propext (and_congr_right fun less => ⟨fun open_ _ => open_, fun open_ => open_ less⟩)
  unfold copiedRow
  rw [line]
  dsimp only
  have shorter := length_trimEnd_le (highlighted g s rect row)
  by_cases goes_on : joins g s last (s.top + row) = true
  · have full : s.isSelected (s.top + row) (rect.w - 1) = true := by
      rw [← edge]
      unfold joins at goes_on
      rw [Bool.and_eq_true, decide_eq_true_eq] at goes_on
      dsimp only [CopyState.selectedColumns]
      rw [if_neg (by omega), shown.columns]
    simp only [goes_on, full, ↓reduceIte, Bool.not_true, Bool.and_false, Bool.false_eq_true, not_true_eq_false, and_false,
      List.append_nil, forall_const]
    exact ⟨shorter, trivial⟩
  · rw [Bool.not_eq_true] at goes_on
    simp only [goes_on, Bool.not_false, Bool.and_true, Bool.false_eq_true, false_implies]
    exact ⟨le_rfl, trivial⟩

/-- Texts that are never longer than others make up the same text only if each is the same. -/
theorem flatMap_eq_iff {α β : Type*} {f h : α → List β} {xs : List α} (shorter : ∀ x ∈ xs, (f x).length ≤ (h x).length) :
    xs.flatMap f = xs.flatMap h ↔ ∀ x ∈ xs, f x = h x := by
  refine ⟨fun same => ?_, fun each => List.flatMap_congr each⟩
  induction xs with
  | nil => exact fun x member => nomatch member
  | cons x rest ih =>
    rw [List.flatMap_cons, List.flatMap_cons] at same
    have later (y : α) (member : y ∈ rest) := shorter y (.tail _ member)
    have total := congrArg List.length same
    rw [List.length_append, List.length_append] at total
    have rest_shorter : (rest.flatMap f).length ≤ (rest.flatMap h).length := by
      rw [List.length_flatMap, List.length_flatMap]
      exact List.sum_le_sum later
    have here := shorter x (List.mem_cons_self ..)
    obtain ⟨first, others⟩ := List.append_inj same (by omega)
    intro y member
    obtain rfl | after := List.mem_cons.mp member
    · exact first
    · exact ih later others y after

/-- What is copied is what is highlighted, up to the blanks at the end of soft-wrapped lines. -/
theorem yank_copied_iff (shown : Shown g s rect) (spans : Spans s rect first last) :
    s.yank g = copied g s rect first last ↔ NoJoinBlanks g s rect first last := by
  have ordered := spans.ordered shown
  obtain ⟨first_low, first_high, -⟩ := spans.first
  obtain ⟨last_low, last_high, -⟩ := spans.last
  have rows : List.range rect.h = List.range' 0 (first.1 - s.top - 0) ++
      (List.range' (first.1 - s.top) (last.1 + 1 - s.top - (first.1 - s.top)) ++
        List.range' (last.1 + 1 - s.top) (rect.h - (last.1 + 1 - s.top))) := by
    rw [← range'_split (by omega) (by omega), ← range'_split (by omega) (by omega), Nat.sub_zero, List.range_eq_range']
  have above : (List.range' 0 (first.1 - s.top - 0)).flatMap (copiedRow g s rect first last) = [] := by
    refine List.flatMap_eq_nil_iff.mpr fun row member => copiedRow_outside spans shown (.inl ?_)
    have := (List.mem_range'_1.mp member).2
    omega
  have below : (List.range' (last.1 + 1 - s.top) (rect.h - (last.1 + 1 - s.top))).flatMap
      (copiedRow g s rect first last) = [] := by
    refine List.flatMap_eq_nil_iff.mpr fun row member => copiedRow_outside spans shown (.inr ?_)
    have := (List.mem_range'_1.mp member).1
    omega
  have lines : List.range' first.1 (last.1 + 1 - first.1) =
      (List.range' (first.1 - s.top) (last.1 + 1 - s.top - (first.1 - s.top))).map (s.top + ·) := by
    rw [List.map_add_range']
    congr 1 <;> omega
  have text : s.yank g = (List.range' (first.1 - s.top) (last.1 + 1 - s.top - (first.1 - s.top))).flatMap fun row =>
      s.selectedLine g first last (s.top + row) := by
    rw [CopyState.yank, CopyState.selectedText, spans.selected]
    dsimp only
    rw [lines, List.flatMap_map]
  have inside {row : ℕ}
      (member : row ∈ List.range' (first.1 - s.top) (last.1 + 1 - s.top - (first.1 - s.top))) :
      first.1 ≤ s.top + row ∧ s.top + row ≤ last.1 := by
    have := List.mem_range'_1.mp member
    omega
  rw [text, copied, rows, List.flatMap_append, List.flatMap_append, above, below, List.nil_append, List.append_nil,
    flatMap_eq_iff fun row member => (copiedRow_inside spans shown (inside member)).1]
  unfold NoJoinBlanks
  refine ⟨fun each row bound later goes_on => ?_, fun blanks row member => ?_⟩
  · have before : s.top + row < last.1 := by
      unfold joins at goes_on
      rw [Bool.and_eq_true, decide_eq_true_eq] at goes_on
      exact goes_on.1
    have member : row ∈ List.range' (first.1 - s.top) (last.1 + 1 - s.top - (first.1 - s.top)) :=
      List.mem_range'_1.mpr (by omega)
    exact (copiedRow_inside spans shown (inside member)).2.mp (each row member) goes_on
  · have bound := List.mem_range'_1.mp member
    exact (copiedRow_inside spans shown (inside member)).2.mpr (blanks row (by omega) (by omega))

/-- A letter and two more cells in a row of three that soft-wraps, and a letter in the next one. -/
def wrappedGrid (c : Char) : Grid :=
  (((Grid.new 3 2).set 0 0 { ch := 'a' }).set 1 0 { ch := c }).set 2 0 { ch := c } |>.set 0 1 { ch := 'b' }
    |>.setRowWrapped 0 true

/-- Both rows selected, up to the second letter. -/
def wrappedCopy (c : Char) : CopyState :=
  { CopyState.new (wrappedGrid c) ⟨0, 0, 3, 2⟩ with top := 0, cy := 1, anchor := some (0, 0) }

private theorem wrappedCopy_shown (c : Char) (rows : (wrappedGrid c).lines.map (fun line => line.cells.map Cell.width) =
    [List.replicate 3 1, List.replicate 3 1]) (history : (wrappedGrid c).scrollback = [])
    (width : (wrappedGrid c).width = 3) : Shown (wrappedGrid c) (wrappedCopy c) ⟨0, 0, 3, 2⟩ := by
  refine ⟨rfl, by decide, ⟨width, fun line member => ?_⟩, fun frozen held => nomatch held⟩
  rw [history, List.nil_append] at member
  have ones := List.mem_map_of_mem (f := fun line : Line => line.cells.map Cell.width) member
  rw [rows] at ones
  simp only [List.mem_cons, List.not_mem_nil, or_false, or_self] at ones
  rw [width, List.map_take, ones]
  exact paired_ones 3

private theorem wrappedCopy_spans (c : Char) : Spans (wrappedCopy c) ⟨0, 0, 3, 2⟩ (0, 0) (1, 0) :=
  ⟨rfl, ⟨Nat.le_refl 0, Nat.succ_pos 1, Nat.succ_pos 2⟩, ⟨Nat.zero_le 1, Nat.le_refl 2, Nat.succ_pos 2⟩⟩

/-- A soft-wrapped row of letters is copied as it is highlighted. -/
theorem yank_copied_letters : (wrappedCopy 'x').yank (wrappedGrid 'x') =
    copied (wrappedGrid 'x') (wrappedCopy 'x') ⟨0, 0, 3, 2⟩ (0, 0) (1, 0) :=
  (yank_copied_iff (wrappedCopy_shown 'x' (by decide +kernel) (by decide +kernel) (by decide +kernel))
    (wrappedCopy_spans 'x')).mpr (by unfold NoJoinBlanks; decide +kernel)

/-- The blanks at the end of a soft-wrapped row are lost. -/
theorem yank_loses_blanks : ¬ ∀ (g : Grid) (s : CopyState) (rect : Rect) (first last : ℕ × ℕ), Shown g s rect →
    Spans s rect first last → s.yank g = copied g s rect first last := by
  intro claimed
  have same := claimed (wrappedGrid ' ') (wrappedCopy ' ') ⟨0, 0, 3, 2⟩ (0, 0) (1, 0)
    (wrappedCopy_shown ' ' (by decide +kernel) (by decide +kernel) (by decide +kernel)) (wrappedCopy_spans ' ')
  have yanked : (wrappedCopy ' ').yank (wrappedGrid ' ') = ['a', 'b'] := by decide +kernel
  have wanted : copied (wrappedGrid ' ') (wrappedCopy ' ') ⟨0, 0, 3, 2⟩ (0, 0) (1, 0) = ['a', ' ', ' ', 'b'] := by
    decide +kernel
  rw [yanked, wanted] at same
  exact absurd same (by decide)

end Copying

end Uniterm.Model.Server
