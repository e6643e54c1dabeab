import Uniterm.Soundness.Terminal.Safety

/-! # Pairing of wide glyphs

Every editing operation restores the pairing of lead and continuation cells, by clearing the other
half of a glyph, by repairing the row or by recutting the logical line. The recut decides with a
16-bit sum whether a glyph still fits: in the two widest terminals the sum can wrap around, and the
row is then cut between the two halves of a glyph.
-/

namespace Uniterm.Model.Terminal

open Machine Grid ToMathlib

section Pairing

/-- In every visible row a wide lead is followed by its continuation, and every continuation follows
a wide lead. -/
def PairedRows (width : ℕ) (g : Grid) : Prop :=
  ∀ line ∈ g.lines, Paired ((line.cells.take width).map Cell.width)

private theorem pairedRows_of_fitted {w h : ℕ} {g : Grid} (fitted : Fitted w h g) : PairedRows w g := by
  intro line member
  rw [List.take_of_length_le (by rw [fitted.tidy.full line member, fitted.width])]
  exact fitted.tidy.paired line member

/-- Every state that a run reaches has its wide glyphs paired on both screens, as long as no resize
recuts a line past 16 bits. -/
theorem run_pairedRows (env : Env) {start t : Terminal} (initial : Initial start)
    {actions : List Action}
    (guarded : Guards (fun t a => t.FitsWord env a) (step env .release) start actions)
    (ran : exec (step env .release) start actions = some t) :
    PairedRows t.width t.grid ∧ ∀ g ∈ t.altBackup, PairedRows t.width g := by
  have sound : Sound ⟨True, False⟩ t := exec_preserves
    (fun t a t' sound word stepped => (sound.step a (.inl trivial) word fun _ => id).keeps _ t' stepped)
    (initial.sound ⟨True, False⟩).1 guarded ran
  exact ⟨pairedRows_of_fitted sound.screen, fun g member => pairedRows_of_fitted (sound.stash.resolve_left id g member)⟩

/-- Tables with one wide character. -/
def wideEnv : Env where
  unicode := {
    charWidth := fun c => some (if c = '界' then 2 else 1)
    strWidth := fun text => if text = ['界'] then 2 else text.length
    graphemes := List.length }
  parseOsc777 := fun _ => none

theorem run_pairedRows_wide : ∃ t,
    exec (step wideEnv .release) (new 3 1) [.print '界', .print '界', .csi [] [] '@', .resize 2 2] =
      some t ∧ PairedRows t.width t.grid ∧ ∀ g ∈ t.altBackup, PairedRows t.width g := by
  have runs : (exec (step wideEnv .release) (new 3 1)
      [.print '界', .print '界', .csi [] [] '@', .resize 2 2]).isSome = true := by decide
  obtain ⟨t, ran⟩ := Option.isSome_iff_exists.mp runs
  refine ⟨t, ran, run_pairedRows wideEnv ⟨3, 1, rfl⟩ (guards_of_forall _ _ fun a member t => ?_) ran⟩
  simp only [List.mem_cons, List.not_mem_nil, or_false] at member
  rcases member with rfl | rfl | rfl | rfl
  · trivial
  · trivial
  · trivial
  · exact .inr ⟨fits_of_le _ _ (by decide), fun g _ => fits_of_le _ _ (by decide)⟩

end Pairing

section Overflow

/-- The lead cell of the wide character in the default style. -/
def wideLead : Cell := { ch := '界', width := 2 }

/-- A blank row that continues into a row that starts with the wide character. -/
def partedLines (w : ℕ) : List Line :=
  [{ cells := List.replicate w {}, wrapped := true, id := 1 },
   { cells := wideLead :: wideLead.continuation :: List.replicate (w - 2) {}, id := 2 }]

private theorem set_get {g : Grid} {x y : ℕ} {cell : Cell} (same : g.get x y = cell) : g.set x y cell = g := by
  simp [Grid.set, same]

private theorem clearGlyphAt_get {g : Grid} {x y : ℕ} {blank : Cell} (plain : Plain blank)
    (same : g.get x y = blank) : g.clearGlyphAt x y blank = g := by
  unfold clearGlyphAt
  split
  · rfl
  · simp [same, Cell.isContinuation, plain.width, set_get]

/-- Writing the wide character over a blank second row is two assignments. -/
theorem setGrapheme_wide {g : Grid} {w : ℕ} (wide : 3 ≤ w) (width : g.width = w) (height : g.height = 2)
    (blank : ∀ x < w, g.get x 1 = {}) : g.setGrapheme 0 1 ['界'] { ch := '界' } 2 =
      (g.set 0 1 wideLead).set 1 1 wideLead.continuation := by
  have cleared : g.clearColumns 0 1 2 {} = g := by
    unfold clearColumns
    rw [clearGlyphAt_get ⟨rfl, rfl⟩ (blank 0 (by omega)), if_pos rfl,
      clearGlyphAt_get ⟨rfl, rfl⟩ (blank 1 (by omega))]
  unfold setGrapheme
  dsimp only
  rw [if_neg (by omega), if_neg (by omega)]
  change (((g.clearColumns 0 1 2 {}).textHandle ['界']).1).writeGlyph 0 1 _ = _
  rw [cleared]
  rfl

/-- The grid of a fresh terminal after the wide character wrapped into the second row. -/
theorem setGrapheme_parted {w : ℕ} (wide : 3 ≤ w) {g : Grid}
    (same : g = ((Grid.new w 2).setRowWrapped 0 true).setGrapheme 0 1 ['界'] { ch := '界' } 2) :
    g.lines = partedLines w ∧ g.scrollback = [] ∧ g.underlineColors = [.default] := by
  have blank (x : ℕ) (inside : x < w) : ((Grid.new w 2).setRowWrapped 0 true).get x 1 = {} := by
    simp [Grid.get, get?, setRowWrapped, Grid.new, Line.blank, List.range_succ, inside]
  subst same
  rw [setGrapheme_wide wide rfl rfl blank]
  refine ⟨?_, by rw [set_frame, set_frame]; rfl, by rw [set_frame, set_frame]; rfl⟩
  have width : ((Grid.new w 2).setRowWrapped 0 true).width = w := rfl
  have height : ((Grid.new w 2).setRowWrapped 0 true).height = 2 := rfl
  rw [set_lines, set_lines, set_width, set_height, width, height, if_pos (by omega),
    if_pos (by omega)]
  obtain ⟨n, rfl⟩ : ∃ n, w = n + 2 := ⟨w - 2, by omega⟩
  rfl

/-- The wide character printed in the last column of the upper row wraps to the lower one. -/
theorem print_wide_edge {t : Terminal} (wide : 3 ≤ t.width) (narrow : t.width < 65536)
    (column : t.cx = t.width - 1) (row : t.cy = 0) (last : t.scrollBottom = 1) (height : t.height = 2)
    (blank : t.grid.get? (t.width - 2) 0 = some {})
    (modes : (t.wrapPending, t.autowrap, t.insertMode, t.decLineDrawing) = (false, true, false, false))
    (pen : (t.fg, t.bg, t.attrs, t.underlineColorHandle, t.hyperlink) =
      (.default, .default, Attrs.none, 0, 0)) :
    ∃ t', print wideEnv.unicode .release t '界' = some t' ∧ t'.width = t.width ∧
      t'.height = t.height ∧ t'.altBackup = t.altBackup ∧ t'.underlineColor = t.underlineColor ∧
      t'.grid = (t.grid.setRowWrapped 0 true).setGrapheme 0 1 ['界'] { ch := '界' } 2 := by
  refine ⟨{ t with
      grid := (t.grid.setRowWrapped 0 true).setGrapheme 0 1 ['界'] { ch := '界' } 2
      cx := 2, cy := 1, wrapPending := false, lastChar := some '界' }, ?_, rfl, rfl, rfl, rfl, rfl⟩
  simp only [Prod.mk.injEq] at modes pen
  obtain ⟨pending, wraps, inserts, drawing⟩ := modes
  obtain ⟨fg, bg, attrs, underline, link⟩ := pen
  have position : t.previous = some (t.width - 2, 0) := by
    unfold previous
    rw [pending, if_neg (by simp), if_pos (by omega), column, row]
    rfl
  have lead : t.leadAt (t.width - 2) 0 = some (t.width - 2, {}) := by
    unfold leadAt
    rw [blank]
    rfl
  have glyph : t.glyphFor wideEnv.unicode '界' = (['界'], 2) := by
    have other : t.width ≠ 1 := by omega
    simp [glyphFor, wideEnv, other]
  have wrapped : t.wrapWide .release ['界'] 2 = some ({ t with
      grid := t.grid.setRowWrapped 0 true, cx := 0, cy := 1 }, ['界'], 2) := by
    have edge : add16 .release (t.width - 1) 1 = some t.width := by
      rw [add16_of_lt _ (by omega)]
      congr 1
      omega
    have below : add16 .release 0 1 = some 1 := rfl
    simp [wrapWide, wrapLine, Terminal.linefeed, column, row, last, height, wraps, edge, below]
  have stop : add16 .release 0 2 = some 2 := rfl
  have fits : ¬ 2 ≥ t.width := by omega
  have apart : wideEnv.unicode.graphemes [' ', '界'] ≠ 1 := by decide
  simp [print, position, lead, drawing, graphemeExtends, cellTextOwned, Cell.isContinuation,
    printFresh, glyph, wrapDeferred, pending, wrapped, writeAt, inserts, fg, bg, attrs, underline, link,
    stop, fits, apart]

/-- Blank cells are emitted into the row as long as they fit. -/
theorem emit_blanks {u : Unicode} (space : u.glyphWidth [' '] = 1) (g : Grid) {width : ℕ}
    (narrow : width < 65536) (n : ℕ) (e : Emission) (room : e.x + n ≤ width) :
    (List.replicate n ({} : Cell)).foldl (emitLead u g width) e =
      { e with row := e.row ++ List.replicate n {}, x := e.x + n } := by
  induction n generalizing e with
  | zero => simp
  | succ n ih =>
    have glyph : min (g.glyphWidth u ({} : Cell)) width = 1 := by
      have natural : g.glyphWidth u ({} : Cell) = 1 := space
      omega
    have step : emitLead u g width e ({} : Cell) = { e with row := e.row ++ [{}], x := e.x + 1 } := by
      unfold emitLead
      rw [glyph]
      dsimp only
      rw [Nat.mod_eq_of_lt (by omega), if_neg (by omega), Nat.mod_eq_of_lt (by omega)]
      rfl
    rw [List.replicate_succ, List.foldl_cons, step, ih _ (by dsimp only; omega)]
    simp only [List.append_assoc, List.singleton_append, Emission.mk.injEq, and_true, true_and]
    omega

/-- A wide glyph after all but one of the columns of the widest grid is cut in half: the sum of
its columns wraps around to zero. -/
theorem emitLogicalLine_overflow (g : Grid) {n : ℕ} (edge : n + 2 = 65536) (nextLineId : ℕ) :
    (emitLogicalLine wideEnv.unicode g (n + 1) (List.replicate n ({} : Cell) ++ [wideLead]) []
        nextLineId).1 =
      [{ cells := List.replicate n {} ++ [wideLead, wideLead.continuation], id := nextLineId }] := by
  have blanks := emit_blanks (u := wideEnv.unicode) (by rfl) g (by omega : n + 1 < 65536) n
    { physical := [], nextLineId } (by dsimp only; omega)
  have glyph : min (g.glyphWidth wideEnv.unicode wideLead) (n + 1) = 2 := by
    have natural : g.glyphWidth wideEnv.unicode wideLead = 2 := by rfl
    omega
  have row : Line.trimCells (List.replicate n ({} : Cell) ++ [wideLead, wideLead.continuation]) =
      List.replicate n ({} : Cell) ++ [wideLead, wideLead.continuation] := by
    unfold Line.trimCells
    rw [← List.singleton_append, ← List.append_assoc, List.rdropWhile_concat_neg]
    decide
  have last : emitLead wideEnv.unicode g (n + 1)
      { row := List.replicate n ({} : Cell), x := n, physical := [], nextLineId } wideLead =
      { row := List.replicate n ({} : Cell) ++ [wideLead, wideLead.continuation]
        x := 0, physical := [], nextLineId } := by
    unfold emitLead
    rw [glyph]
    dsimp only
    rw [edge, if_neg (by omega)]
    dsimp only
    rw [edge]
    rfl
  unfold emitLogicalLine
  dsimp only at blanks ⊢
  rw [List.nil_append, Nat.zero_add] at blanks
  rw [List.foldl_append, blanks, List.foldl_cons, List.foldl_nil, last]
  dsimp only
  rw [row, List.nil_append]

/-- The two rows are one logical line. -/
theorem logicalLines_parted {g : Grid} {n : ℕ} (width : g.width = n) (history : g.scrollback = [])
    (lines : g.lines = partedLines n) (colors : g.underlineColors = [.default]) :
    g.logicalLines = [List.replicate n ({} : Cell) ++ [wideLead]] := by
  have upper : g.lineLeads { cells := List.replicate n {}, wrapped := true, id := 1 } =
      List.replicate n ({} : Cell) := by
    simp [lineLeads, width, Cell.isContinuation]
  have blank : g.isDefaultBlank ({} : Cell) = true := by
    simp [isDefaultBlank, Cell.isContinuation, Grid.underlineColor, colors]
  have lower : g.lineLeads
      { cells := wideLead :: wideLead.continuation :: List.replicate (n - 2) {}, id := 2 } =
        [wideLead] := by
    have kept : (List.replicate (n - 2) ({} : Cell)).filter (fun cell => !cell.isContinuation) =
        List.replicate (n - 2) ({} : Cell) := by
      simp [Cell.isContinuation]
    unfold lineLeads
    dsimp only
    rw [List.filter_cons_of_pos (by decide), List.filter_cons_of_neg (by decide), kept,
      if_neg (by decide)]
    induction n - 2 with
    | zero => exact List.rdropWhile_singleton ..
    | succ k ih =>
      rw [List.replicate_succ', ← List.cons_append, List.rdropWhile_concat_pos _ _ _ blank]
      exact ih
  unfold logicalLines
  rw [history, lines, List.nil_append, partedLines, closeLines, if_pos rfl, closeLines,
    if_neg (by simp), closeLines, upper, lower]
  simp

/-- The reflow of the two rows to 65535 columns leaves one row that is too long. -/
theorem resizeReflow_overflow {g : Grid} {n : ℕ} (edge : n + 2 = 65536) (width : g.width = n)
    (height : g.height = 2) (history : g.scrollback = []) (lines : g.lines = partedLines n)
    (colors : g.underlineColors = [.default]) (blank : Cell) (cursor : ℕ × ℕ) (pending : Bool) :
    ∃ line ∈ (g.resizeReflow wideEnv.unicode (n + 1) 2 blank cursor pending).1.lines,
      line.cells = List.replicate n ({} : Cell) ++ [wideLead, wideLead.continuation] := by
  have rows : (reflowLines wideEnv.unicode g (n + 1) cursor).physical = [{
      cells := List.replicate n ({} : Cell) ++ [wideLead, wideLead.continuation]
      id := g.nextLineId }] := by
    have emitted := congrArg Prod.fst (reflowLines_rows wideEnv.unicode g (n + 1) cursor)
    rw [logicalLines_parted width history lines colors] at emitted
    exact emitted.trans (emitLogicalLine_overflow g edge g.nextLineId)
  have path : (g.resizeReflow wideEnv.unicode (n + 1) 2 blank cursor pending).1 =
      (g.reflowWidth wideEnv.unicode (n + 1) 2 blank cursor pending).1 := by
    unfold Grid.resizeReflow
    dsimp only
    rw [width, height, if_neg (by omega), if_neg (by omega), if_neg (by omega),
      Nat.max_eq_left (by omega : 1 ≤ n + 1), Nat.max_eq_left (by omega : 1 ≤ 2)]
  have viewport : (reflowViewport wideEnv.unicode g (n + 1) 2 blank cursor pending).screenStart = 0 ∧
      ({ cells := List.replicate n ({} : Cell) ++ [wideLead, wideLead.continuation]
         id := g.nextLineId } : Line) ∈
        (reflowViewport wideEnv.unicode g (n + 1) 2 blank cursor pending).physical := by
    unfold reflowViewport
    dsimp only
    rw [if_neg (by omega), rows]
    unfold shrinkViewport
    dsimp only
    refine ⟨?_, List.mem_append_right _ (List.mem_singleton.mpr rfl)⟩
    rw [List.length_append, List.length_reverse, length_blankLines]
    rfl
  rw [path, reflowWidth_grid, install_lines, viewport.1, List.drop_zero]
  refine ⟨_, List.mem_map_of_mem viewport.2, ?_⟩
  rw [if_neg]
  simp

/-- CUF by more columns than there are stops at the right margin. -/
theorem forward_new {n : ℕ} (wide : 3 ≤ n) (narrow : n < 65536) :
    step wideEnv .release (new n 2) (.csi [[65535]] [] 'C') = some { new n 2 with cx := n - 1 } := by
  have size : max n 1 = n := by omega
  have target : min (saturatingAdd16 0 65535) (n - 1) = n - 1 := by
    unfold saturatingAdd16
    omega
  change ((sub16 .release (max n 1) 1).bind fun right =>
    some { new n 2 with cx := min (saturatingAdd16 0 65535) right, wrapPending := false }) = _
  rw [size, sub16_of_le _ (by omega), Option.bind_some, target]
  rfl

/-- A resize of a terminal that shows its primary screen in the default style. -/
theorem resize_grid (u : Unicode) {t : Terminal} (stash : t.altBackup = none)
    (pen : t.underlineColor = .default) {w h : ℕ} (wide : 0 < w) (tall : 0 < h)
    (changes : ¬(w = t.width ∧ h = t.height)) :
    (t.resize u w h).width = w ∧ (t.resize u w h).grid =
      (t.grid.resizeReflow u w h t.blankCell (t.cx + t.wrapPending.toNat, t.cy) t.wrapPending).1 := by
  unfold Terminal.resize
  dsimp only
  rw [Nat.max_eq_left wide, Nat.max_eq_left tall, if_neg changes]
  refine ⟨rfl, ?_⟩
  unfold resizeStash Terminal.internPen
  dsimp only
  rw [stash, pen]
  rfl

/-- The row that is too long ends with half a glyph. -/
theorem not_paired_cut {n : ℕ} : ¬Paired (((List.replicate n ({} : Cell) ++
    [wideLead, wideLead.continuation]).take (n + 1)).map Cell.width) := by
  intro paired
  have widths : ((List.replicate n ({} : Cell) ++
      [wideLead, wideLead.continuation]).take (n + 1)).map Cell.width = List.replicate n 1 ++ [2] := by
    rw [List.take_append, List.length_replicate, List.take_of_length_le (by simp),
      Nat.add_sub_cancel_left, List.map_append, List.map_replicate]
    rfl
  rw [widths] at paired
  have last := (paired.next n).mp (by simp)
  simp at last

/-- The two rows after the wide character was printed. -/
theorem printed_parted {n : ℕ} (wide : 3 ≤ n) (narrow : n < 65536) : ∃ t,
    exec (step wideEnv .release) (new n 2) [.csi [[65535]] [] 'C', .print '界'] = some t ∧
    t.width = n ∧ t.height = 2 ∧ t.altBackup = none ∧ t.underlineColor = .default ∧
    t.grid = ((Grid.new n 2).setRowWrapped 0 true).setGrapheme 0 1 ['界'] { ch := '界' } 2 := by
  have size : max n 1 = n := by omega
  have screen : (new n 2).grid = Grid.new n 2 := by rw [new, size]; rfl
  have blank : (Grid.new n 2).get? (n - 2) 0 = some {} := by
    have inside : n - 2 < n := by omega
    simp [get?, Grid.new, Line.blank, List.range_succ, inside]
  have width : (new n 2).width = n := size
  obtain ⟨t, printed, width', height, stash, pen, grid⟩ := print_wide_edge
    (t := { new n 2 with cx := n - 1 }) (by dsimp only; omega) (by dsimp only; omega)
    (by dsimp only; omega) rfl rfl rfl (by dsimp only; rw [screen, width]; exact blank) rfl rfl
  refine ⟨t, ?_, width'.trans width, height, stash, pen, ?_⟩
  · rw [exec, forward_new wide narrow, Option.bind_some, exec]
    change ((print wideEnv.unicode .release { new n 2 with cx := n - 1 } '界').bind _) = _
    rw [printed]
    rfl
  · rw [grid]
    dsimp only
    rw [screen]

private theorem exec_overflow {n : ℕ} (edge : n + 2 = 65536) : ∃ t,
    exec (step wideEnv .release) (new n 2)
      [.csi [[65535]] [] 'C', .print '界', .resize 65535 2] = some t ∧
    ¬PairedRows t.width t.grid := by
  obtain ⟨t, ran, width, height, stash, pen, grid⟩ :=
    printed_parted (n := n) (by omega) (by omega)
  have fitted : Fitted n 2 t.grid := by
    rw [grid]
    exact ((fitted_new (by omega) (by omega)).setRowWrapped 0 true).setGrapheme ..
  obtain ⟨width', grid'⟩ := resize_grid wideEnv.unicode stash pen (w := n + 1) (h := 2) (by omega)
    (by omega) (by omega)
  obtain ⟨lines, history, colors⟩ := setGrapheme_parted (by omega) grid
  obtain ⟨line, member, cells⟩ := resizeReflow_overflow edge fitted.width fitted.height history lines
    colors t.blankCell (t.cx + t.wrapPending.toNat, t.cy) t.wrapPending
  refine ⟨t.resize wideEnv.unicode (n + 1) 2, ?_, fun paired => ?_⟩
  · have split : [Action.csi [[65535]] [] 'C', .print '界', .resize 65535 2] =
        [.csi [[65535]] [] 'C', .print '界'] ++ [.resize 65535 2] := rfl
    have columns : n + 1 = 65535 := by omega
    rw [split, exec_append, ran, Option.bind_some, columns]
    rfl
  · rw [width', grid'] at paired
    have cut := paired line member
    rw [cells] at cut
    exact not_paired_cut cut

/-- Terminal::new(65534, 2), the cursor at the right margin, a wide character and a resize to 65535
columns: the lead of the wide character ends in the last column without its continuation. -/
theorem not_pairedRows_of_overflow : ∃ t,
    exec (step wideEnv .release) (new 65534 2)
      [.csi [[65535]] [] 'C', .print '界', .resize 65535 2] = some t ∧
    ¬PairedRows t.width t.grid := exec_overflow rfl

end Overflow

end Uniterm.Model.Terminal
