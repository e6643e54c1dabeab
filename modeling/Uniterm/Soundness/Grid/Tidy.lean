import Uniterm.Machine.Outcome
import Uniterm.Soundness.Grid.Emission
import Uniterm.ToMathlib.Paired

/-! # Tidy grids

In a tidy grid every visible row has exactly as many cells as the grid is wide, and its cells form
blocks of one and two columns. Editing operations work on one row and may cut a block; what they
leave behind is described by the widths of that row alone.
-/

namespace Uniterm.Model.Grid

open ToMathlib Machine

/-- The cell widths of a visible row. -/
def rowWidths (g : Grid) (y : ℕ) : List ℕ :=
  ((g.lines[y]?).map fun line => line.cells.map Cell.width).getD []

/-- Every visible row has exactly as many cells as the grid is wide. -/
structure Full (g : Grid) : Prop extends WellFormed g where
  full : ∀ line ∈ g.lines, line.cells.length = g.width

/-- The cells of every visible row form blocks of one and two columns. -/
structure Tidy (g : Grid) : Prop extends Full g where
  paired : ∀ line ∈ g.lines, Paired (line.cells.map Cell.width)

/-- A tidy grid of a given size, with a history inside its limit and a colour arena that starts with
the default. -/
structure Fitted (width height : ℕ) (g : Grid) : Prop where
  tidy : g.Tidy
  width : g.width = width
  height : g.height = height
  history : g.scrollback.length ≤ g.scrollbackLimit
  colors : g.underlineColors[0]? = some .default

/-- A cell that fills one column and names no arena text. -/
structure Plain (c : Cell) : Prop where
  width : c.width = 1
  cluster : c.cluster = 0

section Rows

variable {g : Grid} {y : ℕ}

theorem Full.line (full : g.Full) (row : y < g.height) :
    ∃ line ∈ g.lines, g.lines[y]? = some line ∧ g.rowWidths y = line.cells.map Cell.width := by
  have bound : y < g.lines.length := by rw [full.lines]; exact row
  exact ⟨g.lines[y], List.getElem_mem bound, List.getElem?_eq_getElem bound, by simp [rowWidths, bound]⟩

theorem Full.length_rowWidths (full : g.Full) (row : y < g.height) :
    (g.rowWidths y).length = g.width := by
  obtain ⟨line, member, _, widths⟩ := full.line row
  rw [widths, List.length_map, full.full line member]

theorem Tidy.paired_rowWidths (tidy : g.Tidy) (row : y < g.height) : Paired (g.rowWidths y) := by
  obtain ⟨line, member, _, widths⟩ := tidy.toFull.line row
  rw [widths]
  exact tidy.paired line member

theorem Full.get_width (full : g.Full) {x : ℕ} (column : x < g.width) (row : y < g.height) :
    (g.rowWidths y)[x]? = some (g.get x y).width := by
  obtain ⟨line, read, found⟩ := full.toShaped.get_eq column row
  simp [rowWidths, read, found]

/-- An assignment changes one width of one row. -/
theorem Full.rowWidths_set (full : g.Full) (row : y < g.height) (x : ℕ) (cell : Cell) (i : ℕ) :
    (g.set x y cell).rowWidths i =
      if i = y then (g.rowWidths y).set x cell.width else g.rowWidths i := by
  have length := full.length_rowWidths row
  unfold rowWidths at length ⊢
  rw [set_line]
  by_cases same : i = y
  · subst same
    rw [if_pos rfl]
    by_cases inside : x < g.width
    · rw [if_pos ⟨inside, row, rfl⟩]
      cases g.lines[i]? <;> simp [List.map_set]
    · rw [if_neg (by tauto), List.set_eq_of_length_le (by omega)]
  · rw [if_neg same, if_neg (by tauto)]

theorem Full.set (full : g.Full) (x : ℕ) (cell : Cell) (known : cell.cluster < g.clusters.length) :
    (g.set x y cell).Full := by
  refine ⟨⟨full.toShaped.set x y cell, full.toClustersValid.set x y known⟩, fun line member => ?_⟩
  rw [set_width]
  obtain ⟨i, read⟩ := List.getElem?_of_mem member
  rw [set_line] at read
  split at read
  · obtain ⟨old, found, rfl⟩ := Option.map_eq_some_iff.mp read
    rw [List.length_set]
    exact full.full old (List.mem_of_getElem? found)
  · exact full.full line (List.mem_of_getElem? read)

/-- Renumbering handles keeps the widths. -/
theorem SameView.rowWidths {g' : Grid} (same : SameView g g') (i : ℕ) :
    g'.rowWidths i = g.rowWidths i := by
  unfold Grid.rowWidths
  rcases getElem?_of_forall₂ same.lines i with ⟨none, none'⟩ | ⟨line, line', read, read', carried⟩
  · rw [none, none']
  · rw [read, read', Option.map_some, Option.map_some, Option.getD_some, Option.getD_some]
    have widths := List.forall₂_map_left_iff.mpr (List.forall₂_map_right_iff.mpr
      (carried.cells.imp fun c c' cell => (cell.width.symm : c.width = c'.width)))
    exact (List.forall₂_eq_eq_eq ▸ widths : _ = _).symm

end Rows

section Edits

variable {g g' : Grid} {y : ℕ}

/-- What an edit of one row leaves as it was. -/
structure RowEdited (y : ℕ) (g g' : Grid) : Prop where
  full : g'.Full
  width : g'.width = g.width
  height : g'.height = g.height
  others : ∀ i, i ≠ y → g'.rowWidths i = g.rowWidths i
  history : g'.scrollback.length = g.scrollback.length
  rest : g'.scrollbackLimit = g.scrollbackLimit ∧ g'.underlineColors = g.underlineColors

theorem RowEdited.refl (full : g.Full) : RowEdited y g g :=
  ⟨full, rfl, rfl, fun _ _ => rfl, rfl, rfl, rfl⟩

theorem RowEdited.trans {h : Grid} (first : RowEdited y g g') (second : RowEdited y g' h) :
    RowEdited y g h where
  full := second.full
  width := second.width.trans first.width
  height := second.height.trans first.height
  others i other := (second.others i other).trans (first.others i other)
  history := second.history.trans first.history
  rest := ⟨second.rest.1.trans first.rest.1, second.rest.2.trans first.rest.2⟩

theorem Full.set_rowEdited (full : g.Full) (x : ℕ) {cell : Cell}
    (known : cell.cluster < g.clusters.length) : RowEdited y g (g.set x y cell) := by
  refine ⟨full.set x cell known, set_width .., set_height .., fun i other => ?_, by rw [set_scrollback],
    by rw [set_frame], by rw [set_frame]⟩
  unfold rowWidths
  rw [set_line, if_neg (by tauto)]

theorem Full.intern_rowEdited (full : g.Full) (text : Text) : RowEdited y g (g.intern text).1 := by
  obtain ⟨same, valid, _⟩ := full.toClustersValid.intern text
  have width : (g.intern text).1.width = g.width := by rw [same.rest]
  refine ⟨⟨⟨same.shaped full.toShaped, valid⟩, fun line member => ?_⟩, width, by rw [same.rest],
    fun i _ => same.rowWidths i, same.scrollback.length_eq.symm, by rw [same.rest], by rw [same.rest]⟩
  obtain ⟨old, before, carried⟩ := exists_of_mem_right same.lines member
  rw [width, ← carried.cells.length_eq]
  exact full.full old before

theorem Edits.rowEdited (edits : Edits y g g') (full : g.Full) : RowEdited y g g' := by
  refine edits.keeps (RowEdited y g) (fun h x cell edited known => ?_) (fun h x source edited => ?_)
    (fun h text edited => ?_) (.refl full)
  · exact edited.trans (edited.full.set_rowEdited x known)
  · exact edited.trans (edited.full.set_rowEdited x (edited.full.toClustersValid.get source y))
  · exact edited.trans (edited.full.intern_rowEdited text)

/-- A tidy grid stays tidy when the edited row is left in blocks. -/
theorem RowEdited.tidy (edited : RowEdited y g g') (tidy : g.Tidy)
    (paired : y < g.height → Paired (g'.rowWidths y)) : g'.Tidy := by
  refine ⟨edited.full, fun line member => ?_⟩
  obtain ⟨i, read⟩ := List.getElem?_of_mem member
  have widths : g'.rowWidths i = line.cells.map Cell.width := by simp [rowWidths, read]
  have row : i < g.height := by
    rw [← edited.height, ← edited.full.lines]
    exact (List.getElem?_eq_some_iff.mp read).1
  rw [← widths]
  rcases eq_or_ne i y with rfl | other
  · exact paired row
  · rw [edited.others i other]
    exact tidy.paired_rowWidths row

theorem RowEdited.fitted {w h : ℕ} (edited : RowEdited y g g') (fitted : Fitted w h g)
    (paired : y < g.height → Paired (g'.rowWidths y)) : Fitted w h g' :=
  ⟨edited.tidy fitted.tidy paired, edited.width.trans fitted.width,
    edited.height.trans fitted.height, by rw [edited.history, edited.rest.1]; exact fitted.history,
    by rw [edited.rest.2]; exact fitted.colors⟩

end Edits

section Clear

variable {g : Grid} {w h x y : ℕ} {blank : Cell}

theorem Full.clearGlyphAt_rowEdited (full : g.Full) (plain : Plain blank) (x y : ℕ) :
    RowEdited y g (g.clearGlyphAt x y blank) :=
  ((clearGlyphAt_rewrites g x y blank).edits (by rw [plain.cluster]; exact full.arena)).rowEdited full

/-- Clearing a glyph clears its block. -/
theorem Full.clearGlyphAt_rowWidths (full : g.Full) (plain : Plain blank) (row : y < g.height)
    (paired : Paired (g.rowWidths y)) :
    (g.clearGlyphAt x y blank).rowWidths y = clearBlock (g.rowWidths y) x := by
  have known : blank.cluster < g.clusters.length := by rw [plain.cluster]; exact full.arena
  have length := full.length_rowWidths row
  have assigned (x x' : ℕ) : ((g.set x y blank).set x' y blank).rowWidths y =
      ((g.rowWidths y).set x 1).set x' 1 := by
    rw [Full.rowWidths_set (full.set x blank known) (by rwa [set_height]), if_pos rfl,
      full.rowWidths_set row, if_pos rfl, plain.width]
  unfold clearGlyphAt clearBlock
  rcases Nat.lt_or_ge x g.width with inside | beyond
  swap
  · have none : (g.rowWidths y)[x]? = none := List.getElem?_eq_none (by omega)
    rw [if_pos (.inl beyond), none, if_neg (by simp), if_neg (by simp)]
  have here := full.get_width inside row
  rw [if_neg (by omega)]
  simp only [here, Option.some.injEq, Cell.isContinuation, beq_iff_eq, set_width]
  by_cases zero : (g.get x y).width = 0
  · have positive := (paired.positive (zero ▸ here)).1
    rw [if_pos ⟨zero, positive⟩, if_pos zero, assigned]
  rw [if_neg (by tauto), if_neg zero]
  by_cases two : (g.get x y).width = 2
  · have next := (paired.next x).mp (two ▸ here)
    have bound := (List.getElem?_eq_some_iff.mp next).1
    rw [if_pos ⟨two, by omega⟩, if_pos two, assigned]
  · have one : (g.get x y).width = 1 := by
      have := paired.narrow _ (List.mem_of_getElem? here)
      omega
    rw [if_neg (by tauto), if_neg two, full.rowWidths_set row, if_pos rfl, plain.width]
    exact set_one (one ▸ here)

theorem Fitted.clearGlyphAt (fitted : Fitted w h g) (plain : Plain blank) (x y : ℕ) :
    Fitted w h (g.clearGlyphAt x y blank) := by
  refine (fitted.tidy.toFull.clearGlyphAt_rowEdited plain x y).fitted fitted fun row => ?_
  have paired := fitted.tidy.paired_rowWidths row
  rw [fitted.tidy.toFull.clearGlyphAt_rowWidths plain row paired]
  exact paired.clearBlock x

/-- On a tidy grid the erase loop ends, whatever the build does on overflow. -/
theorem Fitted.eraseLoop_settles (fitted : Fitted w h g) (plain : Plain blank) (row : y < h)
    (narrow : w < 65536) {stop : ℕ} (bound : stop ≤ w) (fuel : ℕ) (enough : stop - x < fuel) :
    Settles (fun build => eraseLoop build y stop blank fuel x g) (Fitted w h) := by
  induction fuel generalizing x g with
  | zero => omega
  | succ fuel ih =>
    simp only [eraseLoop]
    rcases Nat.lt_or_ge x stop with more | done
    swap
    · simp only [Nat.not_lt.mpr done, ↓reduceIte]
      exact settles_some fitted
    simp only [more, ↓reduceIte]
    obtain ⟨tidy, rfl, rfl, bounded, colors⟩ := fitted
    have here := tidy.toFull.get_width (by omega : x < g.width) row
    have length := tidy.toFull.length_rowWidths row
    have paired := tidy.paired_rowWidths row
    have advance : x + max (g.get x y).displayWidth 1 ≤ g.width := by
      unfold Cell.displayWidth Cell.isContinuation
      rcases Nat.lt_or_ge (g.get x y).width 2 with less | wide
      · split <;> omega
      · have two : (g.get x y).width = 2 :=
          le_antisymm (paired.narrow _ (List.mem_of_getElem? here)) wide
        have next := (List.getElem?_eq_some_iff.mp ((paired.next x).mp (two ▸ here))).1
        rw [two, if_neg (by simp)]
        omega
    refine (settles_add16 (by omega)).bind fun following sum => ?_
    subst sum
    exact ih (Fitted.clearGlyphAt ⟨tidy, rfl, rfl, bounded, colors⟩ plain x y) (by omega)

theorem Fitted.eraseCells_settles (fitted : Fitted w h g) (plain : Plain blank) (narrow : w < 65536)
    (y first stop : ℕ) :
    Settles (fun build => g.eraseCells build y first stop blank) (Fitted w h) := by
  unfold eraseCells
  rcases Nat.lt_or_ge y g.height with row | beyond
  · simp only [ge_iff_le, Nat.not_le.mpr row, ↓reduceIte]
    have bound : min stop g.width ≤ w := fitted.width ▸ Nat.min_le_right ..
    exact fitted.eraseLoop_settles plain (fitted.height ▸ row) narrow bound _ (by omega)
  · simp only [ge_iff_le, beyond, ↓reduceIte]
    exact settles_some fitted

end Clear

section Shift

variable {g g' : Grid} {w h y : ℕ} {blank : Cell}

/-- One round of the repair is one repair step on the widths. -/
theorem Full.repairWideRow_rowWidths (full : g.Full) (plain : Plain blank) (row : y < g.height) :
    (g.repairWideRow y blank).rowWidths y = (List.range g.width).foldl repairStep (g.rowWidths y) := by
  unfold repairWideRow
  have inside : ∀ x ∈ List.range g.width, x < g.width := fun x member => List.mem_range.mp member
  generalize List.range g.width = xs at inside ⊢
  induction xs generalizing g with
  | nil => rfl
  | cons x xs ih =>
    have known : blank.cluster < g.clusters.length := by rw [plain.cluster]; exact full.arena
    have here := full.get_width (inside x (List.mem_cons_self ..)) row
    have length := full.length_rowWidths row
    rw [List.foldl_cons, List.foldl_cons]
    have cleared : (g.set x y blank).rowWidths y = (g.rowWidths y).set x 1 := by
      rw [full.rowWidths_set row, if_pos rfl, plain.width]
    have step (g' : Grid) (edited : RowEdited y g g')
        (widths : g'.rowWidths y = repairStep (g.rowWidths y) x) := by
      have rest := ih edited.full (edited.height ▸ row) (fun x member => by
        rw [edited.width]
        exact inside x (.tail _ member))
      rwa [widths] at rest
    refine step _ ?_ ?_
    · dsimp only
      split
      · split
        · exact .refl full
        · exact full.set_rowEdited x known
      split
      · split
        · exact .refl full
        · exact full.set_rowEdited x known
      · exact .refl full
    · unfold repairStep
      simp only [here, Option.some.injEq, Cell.isContinuation, beq_iff_eq]
      have left : (x > 0 ∧ (g.get (x - 1) y).width = 2) ↔
          (0 < x ∧ (g.rowWidths y)[x - 1]? = some 2) := by
        rw [full.get_width (by have := inside x (List.mem_cons_self ..); omega) row, Option.some.injEq]
      have right : (x + 1 < g.width ∧ (g.get (x + 1) y).width = 0) ↔
          (g.rowWidths y)[x + 1]? = some 0 := by
        rcases Nat.lt_or_ge (x + 1) g.width with less | beyond
        · rw [full.get_width less row, Option.some.injEq, and_iff_right less]
        · rw [List.getElem?_eq_none (by omega)]
          simp [Nat.not_lt.mpr beyond]
      simp only [left, right]
      split
      · split
        · rfl
        · exact cleared
      split
      · split
        · rfl
        · exact cleared
      · rfl

/-- Repairing a row of narrow cells leaves blocks, whatever cut them. -/
theorem Full.repairWideRow_paired (full : g.Full) (plain : Plain blank) (row : y < g.height)
    (narrow : ∀ width ∈ g.rowWidths y, width ≤ 2) :
    Paired ((g.repairWideRow y blank).rowWidths y) := by
  rw [full.repairWideRow_rowWidths plain row, ← full.length_rowWidths row]
  exact paired_repair narrow

/-- Shifting cells within a row leaves them narrow. -/
theorem Rewrites.narrow (rewrites : Rewrites y blank g g') (full : g.Full) (plain : Plain blank)
    (row : y < g.height) (narrow : ∀ width ∈ g.rowWidths y, width ≤ 2) :
    RowEdited y g g' ∧ ∀ width ∈ g'.rowWidths y, width ≤ 2 := by
  have assign (k : Grid) (x : ℕ) (cell : Cell) (bound : cell.width ≤ 2)
      (known : cell.cluster < k.clusters.length)
      (held : RowEdited y g k ∧ ∀ width ∈ k.rowWidths y, width ≤ 2) :
      RowEdited y g (k.set x y cell) ∧ ∀ width ∈ (k.set x y cell).rowWidths y, width ≤ 2 := by
    refine ⟨held.1.trans (held.1.full.set_rowEdited x known), fun width member => ?_⟩
    rw [held.1.full.rowWidths_set (held.1.height ▸ row), if_pos rfl] at member
    rcases List.mem_or_eq_of_mem_set member with old | rfl
    · exact held.2 width old
    · exact bound
  refine rewrites.keeps (fun k => RowEdited y g k ∧ ∀ width ∈ k.rowWidths y, width ≤ 2)
    (fun k x held => ?_) (fun k x source held => ?_) ⟨.refl full, narrow⟩
  · exact assign k x blank (by rw [plain.width]; omega)
      (by rw [plain.cluster]; exact held.1.full.arena) held
  · refine assign k x _ ?_ (held.1.full.toClustersValid.get source y) held
    have row' : y < k.height := held.1.height ▸ row
    rcases Nat.lt_or_ge source k.width with inside | beyond
    · exact held.2 _ (List.mem_of_getElem? (held.1.full.get_width inside row'))
    · obtain ⟨line, member, read, _⟩ := held.1.full.line row'
      have none : line.cells[source]? = none :=
        List.getElem?_eq_none (by rw [held.1.full.full line member]; exact beyond)
      simp [get, get?, read, none]

/-- A row shifted in some way and then repaired is in blocks again. -/
theorem Fitted.shifted (fitted : Fitted w h g) (plain : Plain blank) (row : y < g.height)
    (rewrites : Rewrites y blank g g') : Fitted w h (g'.repairWideRow y blank) := by
  have full := fitted.tidy.toFull
  obtain ⟨edited, narrow⟩ := rewrites.narrow full plain row (fitted.tidy.paired_rowWidths row).narrow
  have known : blank.cluster < g'.clusters.length := by rw [plain.cluster]; exact edited.full.arena
  have repaired := ((repairWideRow_rewrites g' y blank).edits known).rowEdited edited.full
  refine (edited.trans repaired).fitted fitted fun row => ?_
  exact edited.full.repairWideRow_paired plain (edited.height ▸ row) narrow

theorem Fitted.insertCells (fitted : Fitted w h g) (plain : Plain blank) (y first count : ℕ) :
    Fitted w h (g.insertCells y first count blank) := by
  rcases insertCells_shifts g y first count blank with same | ⟨row, shifted, moved, inserted⟩
  · rwa [same]
  · rw [inserted]
    exact fitted.shifted plain row moved

theorem Fitted.deleteCells_keeps (fitted : Fitted w h g) (plain : Plain blank) (y first count : ℕ) :
    Keeps (fun build => g.deleteCells build y first count blank) (Fitted w h) := by
  intro build g' deleted
  rcases deleteCells_shifts deleted with rfl | ⟨row, shifted, moved, rfl⟩
  · exact fitted
  · exact fitted.shifted plain row moved

/-- A release build always finishes a deletion. -/
theorem deleteCells_release (g : Grid) (y first count : ℕ) (blank : Cell) :
    ∃ g', g.deleteCells .release y first count blank = some g' := by
  have shifted (count : ℕ) (xs : List ℕ) (g : Grid) : ∃ g', xs.foldlM (fun (g : Grid) x => do
      let source ← add16 .release x count
      some (g.set x y (if source < g.width then g.get source y else blank))) g = some g' := by
    induction xs generalizing g with
    | nil => exact ⟨g, rfl⟩
    | cons x xs ih =>
      obtain ⟨source, sum⟩ := add16_release x count
      simp only [List.foldlM_cons, sum]
      exact ih _
  unfold deleteCells
  split
  · exact ⟨g, rfl⟩
  · obtain ⟨g', moved⟩ := shifted (min count (g.width - first)) (List.range' first (g.width - first)) g
    exact ⟨g'.repairWideRow y blank, by simp only [moved]; rfl⟩

/-- When the last source column stays in range, builds agree on a deletion. -/
theorem Fitted.deleteCells_settles (fitted : Fitted w h g) (plain : Plain blank) {y first count : ℕ}
    (fits : w - 1 + min count (w - first) < 65536) :
    Settles (fun build => g.deleteCells build y first count blank) (Fitted w h) := by
  have settled : Settles (fun build => g.deleteCells build y first count blank) fun _ => True := by
    unfold deleteCells
    split
    · exact settles_some trivial
    · refine (settles_foldlM (fun _ => True) _ _ (fun _ x member _ => ?_) trivial).bind fun _ _ =>
        settles_some trivial
      have column := List.mem_range'_1.mp member
      refine (settles_add16 ?_).bind fun _ _ => settles_some trivial
      rw [fitted.width] at column ⊢
      omega
  obtain ⟨g', result, _⟩ := settled
  exact ⟨g', result, fitted.deleteCells_keeps plain y first count .release g' (result _)⟩

end Shift

section Write

variable {g : Grid} {w h x y : ℕ}

private theorem textHandle_rowWidths (full : g.Full) (text : Text) :
    (g.textHandle text).1.rowWidths y = g.rowWidths y := by
  unfold textHandle
  split
  · exact (full.toClustersValid.intern text).1.rowWidths y
  · rfl

/-- The columns a glyph is written to are blocks of their own once cleared. -/
theorem Full.clearColumns_rowWidths (full : g.Full) {blank : Cell} (plain : Plain blank)
    (row : y < g.height) (paired : Paired (g.rowWidths y)) (glyph : ℕ)
    (room : x + glyph ≤ g.width) (positive : 0 < glyph) :
    Paired ((g.clearColumns x y glyph blank).rowWidths y) ∧
      ((g.clearColumns x y glyph blank).rowWidths y)[x]? = some 1 ∧
      (glyph = 2 → ((g.clearColumns x y glyph blank).rowWidths y)[x + 1]? = some 1) := by
  have length := full.length_rowWidths row
  have first := full.clearGlyphAt_rowWidths (x := x) plain row paired
  have edited := full.clearGlyphAt_rowEdited plain x y
  have cleared := paired.clearBlock x
  have here := paired.clearBlock_self (x := x) (by omega)
  unfold clearColumns
  dsimp only
  split
  · next two =>
    rw [edited.full.clearGlyphAt_rowWidths plain (edited.height ▸ row) (first ▸ cleared), first]
    refine ⟨cleared.clearBlock _, clearBlock_one here _, fun _ => ?_⟩
    exact cleared.clearBlock_self (by rw [length_clearBlock]; omega)
  · next one =>
    rw [first]
    exact ⟨cleared, here, fun two => absurd two one⟩

theorem Fitted.setGrapheme (fitted : Fitted w h g) (x y : ℕ) (text : Text) (cell : Cell) (width : ℕ) :
    Fitted w h (g.setGrapheme x y text cell width) := by
  have full := fitted.tidy.toFull
  have edited := (full.toClustersValid.setGrapheme_edits x y text cell width).rowEdited full
  refine edited.fitted fitted fun row => ?_
  have paired := fitted.tidy.paired_rowWidths row
  unfold Grid.setGrapheme
  dsimp only
  split
  · exact paired
  split
  · exact paired
  have plain : Plain { fg := cell.fg, bg := cell.bg } := ⟨rfl, rfl⟩
  have bound : max 1 (min width 2) = 1 ∨ max 1 (min width 2) = 2 := by omega
  generalize max 1 (min width 2) = glyph at *
  obtain ⟨blocks, here, next⟩ := full.clearColumns_rowWidths (x := x) plain row paired glyph
    (by omega) (by omega)
  have cleared : RowEdited y g (g.clearColumns x y glyph { fg := cell.fg, bg := cell.bg }) :=
    ((clearColumns_rewrites ..).edits full.arena).rowEdited full
  obtain ⟨handled, known⟩ := textHandle_edits cleared.full.toClustersValid y text
  have named := handled.rowEdited cleared.full
  rw [← textHandle_rowWidths cleared.full text] at blocks here next
  have row' := named.height.trans cleared.height ▸ row
  generalize (g.clearColumns x y glyph { fg := cell.fg, bg := cell.bg }).textHandle text = handle at *
  have written := named.full.rowWidths_set row' x
    { cell with ch := text.headD ' ', width := glyph, cluster := handle.2 } y
  rw [if_pos rfl] at written
  unfold writeGlyph
  dsimp only at known ⊢
  split
  · next two =>
    have full' := named.full.set (y := y) x
      { cell with ch := text.headD ' ', width := glyph, cluster := handle.2 } known
    rw [full'.rowWidths_set (by rwa [set_height]), if_pos rfl, written, two]
    exact blocks.write_two here (next two)
  · next one =>
    have narrow : glyph = 1 := by omega
    rw [written, narrow]
    have same : (handle.1.rowWidths y).set x 1 = handle.1.rowWidths y := set_one here
    rw [same]
    exact blocks

theorem Fitted.appendToGrapheme (u : Unicode) (fitted : Fitted w h g) (x y : ℕ) (ch : Char) :
    Fitted w h (g.appendToGrapheme u x y ch).1 := by
  unfold Grid.appendToGrapheme
  dsimp only
  generalize (if (g.get x y).isContinuation = true ∧ x > 0 then x - 1 else x) = leadX
  split
  · exact fitted
  split
  · exact fitted.setGrapheme ..
  · exact fitted

end Write

section Lines

variable {g g' : Grid} {w h : ℕ} {blank : Cell}

theorem rowWidths_blank (width : ℕ) (plain : Plain blank) (id : ℕ) :
    (Line.blank width blank id).cells.map Cell.width = List.replicate width 1 := by
  rw [Line.blank, List.map_replicate, plain.width]

/-- Moving lines and adding blank ones keeps a grid tidy. -/
theorem Relines.tidy (relines : Relines blank g g') (tidy : g.Tidy) (plain : Plain blank) :
    g'.Tidy := by
  have wf := relines.wellFormed tidy.toWellFormed (by rw [plain.cluster]; exact tidy.arena)
  refine ⟨⟨wf, fun line member => ?_⟩, fun line member => ?_⟩
  · rw [relines.width]
    rcases relines.visible line member with old | ⟨id, rfl⟩
    · exact tidy.full line old
    · rw [Line.blank, List.length_replicate]
  · rcases relines.visible line member with old | ⟨id, rfl⟩
    · exact tidy.paired line old
    · rw [rowWidths_blank g.width plain]
      exact paired_ones g.width

private theorem scrollUp_height (g : Grid) (blank : Cell) : (g.scrollUp blank).height = g.height := by
  cases lines : g.lines with
  | nil => rw [scrollUp, lines]
  | cons departing rest => rw [scrollUp_eq blank lines, markRowsDamaged_frame]

private theorem regionScrolled_height (g : Grid) (history : List Line) (out into : ℕ) (blank : Cell)
    (top bottom : ℕ) :
    (g.regionScrolled history out into blank top bottom).height = g.height := by
  rw [regionScrolled, markRowsDamaged_frame]

theorem Fitted.relines (fitted : Fitted w h g) (plain : Plain blank) (relines : Relines blank g g')
    (height : g'.height = g.height) (bounded : g'.scrollback.length ≤ g.scrollbackLimit) :
    Fitted w h g' :=
  ⟨relines.tidy fitted.tidy plain, relines.width.trans fitted.width, height.trans fitted.height,
    by rw [relines.kept.1]; exact bounded, by rw [relines.kept.2]; exact fitted.colors⟩

theorem Fitted.scrollRegionUpInner (fitted : Fitted w h g) (plain : Plain blank) (top bottom : ℕ)
    (preserve : Bool) : Fitted w h (g.scrollRegionUpInner top bottom blank preserve) := by
  have shaped := fitted.tidy.toShaped
  rcases scrollRegionUpInner_cases g top bottom blank preserve with
    ⟨_, same⟩ | ⟨_, _, _, whole⟩ | ⟨ordered, inside, history, kept, bounded, region⟩
  · rwa [same]
  · rw [whole]
    exact fitted.relines plain (shaped.scrollUp_relines blank) (scrollUp_height g blank)
      (scrollUp_bounded fitted.history blank)
  · rw [region]
    refine fitted.relines plain (shaped.regionScrolled_relines kept (by omega) inside blank top bottom)
      (regionScrolled_height ..) ?_
    rw [regionScrolled, markRowsDamaged_frame]
    exact bounded fitted.history

theorem Fitted.scrollRegionDown (fitted : Fitted w h g) (plain : Plain blank) (top bottom : ℕ) :
    Fitted w h (g.scrollRegionDown top bottom blank) := by
  rcases scrollRegionDown_cases g top bottom blank with ⟨_, same⟩ | ⟨ordered, inside, region⟩
  · rwa [same]
  · rw [region]
    refine fitted.relines plain
      (fitted.tidy.toShaped.regionScrolled_relines (fun _ member => .inl member) inside (by omega)
        blank top bottom)
      (regionScrolled_height ..) ?_
    rw [regionScrolled, markRowsDamaged_frame]
    exact fitted.history

/-- The visible rows and the size decide whether a grid is tidy, with the handles of the history. -/
theorem Fitted.congr (fitted : Fitted w h g) (width : g'.width = g.width)
    (height : g'.height = g.height) (damage : g'.damage.length = g.damage.length)
    (clusters : g'.clusters = g.clusters)
    (bounded : g'.scrollback.length ≤ g'.scrollbackLimit)
    (colors : g'.underlineColors[0]? = some .default)
    (history : ∀ line ∈ g'.scrollback, ∀ c ∈ line.cells, c.cluster < g.clusters.length)
    (lines : List.Forall₂ (fun (line line' : Line) => List.Forall₂
      (fun c c' : Cell => c'.width = c.width ∧ c'.cluster = c.cluster) line.cells line'.cells)
      g.lines g'.lines) : Fitted w h g' := by
  have tidy := fitted.tidy
  have row (line : Line) (member : line ∈ g'.lines) : ∃ old ∈ g.lines,
      line.cells.map Cell.width = old.cells.map Cell.width ∧
      ∀ c ∈ line.cells, c.cluster < g.clusters.length := by
    obtain ⟨old, before, cells⟩ := exists_of_mem_right lines member
    refine ⟨old, before, ?_, fun c inside => ?_⟩
    · have widths := List.forall₂_map_left_iff.mpr (List.forall₂_map_right_iff.mpr
        (cells.imp fun c c' same => (same.1.symm : c.width = c'.width)))
      exact (List.forall₂_eq_eq_eq ▸ widths : _ = _).symm
    · obtain ⟨c', held, same⟩ := exists_of_mem_right cells inside
      rw [same.2]
      exact tidy.cells old (List.mem_append_right _ before) c' held
  have length (line : Line) (member : line ∈ g'.lines) : line.cells.length = g'.width := by
    obtain ⟨old, before, widths, _⟩ := row line member
    have same := congrArg List.length widths
    rw [List.length_map, List.length_map] at same
    rw [same, width, tidy.full old before]
  refine ⟨⟨⟨⟨⟨width ▸ tidy.wide, height ▸ tidy.tall, ?_, fun line member => (length line member).ge, ?_⟩,
    clusters ▸ tidy.arena, fun line member c inside => ?_⟩, length⟩, fun line member => ?_⟩,
    width.trans fitted.width, height.trans fitted.height, bounded, colors⟩
  · rw [← lines.length_eq, tidy.lines, height]
  · rw [damage, tidy.damage, height]
  · rw [clusters]
    rcases List.mem_append.mp member with old | screen
    · exact history line old c inside
    · obtain ⟨_, _, _, known⟩ := row line screen
      exact known c inside
  · obtain ⟨old, before, widths, _⟩ := row line member
    rw [widths]
    exact tidy.paired old before

end Lines

end Uniterm.Model.Grid
