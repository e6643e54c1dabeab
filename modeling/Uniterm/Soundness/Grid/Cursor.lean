import Uniterm.Soundness.Grid.Narrow

/-! # The cursor through a reflow

The streaming pass notes the cursor's offset in its logical line when it meets the cursor's row, and the rows of
that logical line when it emits them. The mapped row and column point into these rows, wherever the viewport
begins.
-/

namespace Uniterm.Model.Grid

variable (u : Unicode) (g : Grid) (width : ℕ)

/-- The leads from a row on to the end of its logical line. -/
def lineFrom : List Line → List Cell
  | [] => []
  | line :: rest => if line.wrapped then g.lineLeads line ++ lineFrom rest else g.lineLeads line

section Pass

variable {cursorX cursorLine screenLine : ℕ}

/-- The emitted rows only grow. -/
theorem emitLogicalLine_extends (leads : List Cell) (physical : List Line) (nextLineId : ℕ) :
    physical <+: (emitLogicalLine u g width leads physical nextLineId).1 := by
  have folded (e : Emission) : e.physical <+: (leads.foldl (emitLead u g width) e).physical := by
    induction leads generalizing e with
    | nil => exact List.prefix_refl _
    | cons lead rest ih =>
      refine List.IsPrefix.trans ?_ (ih (emitLead u g width e lead))
      unfold emitLead
      dsimp only
      split
      · exact List.prefix_append ..
      · exact List.prefix_refl _
  exact (folded { physical, nextLineId }).trans (List.prefix_append ..)

/-- The cursor's logical line was emitted: its span stands, and later lines are emitted below it. -/
structure Spanned (span : ℕ × ℕ) (offset : ℕ) (rows : List Line) (r : Reflow) : Prop where
  done : r.anchors.cursorLogical < r.anchors.logicalIndex
  span : r.anchors.cursorSpan = span
  offset : r.cursorOffset = offset
  rows : rows <+: r.physical

theorem Spanned.finishLine {span : ℕ × ℕ} {offset : ℕ} {rows : List Line} {r : Reflow}
    (spanned : Spanned span offset rows r) : Spanned span offset rows (r.finishLine u g width) where
  done := Nat.lt_succ_of_lt spanned.done
  span := (if_neg spanned.done.ne').trans spanned.span
  offset := spanned.offset
  rows := spanned.rows.trans (emitLogicalLine_extends u g width ..)

theorem Spanned.join {span : ℕ × ℕ} {offset : ℕ} {rows : List Line} {r : Reflow}
    (spanned : Spanned span offset rows r) (line : Line) : Spanned span offset rows (r.join u g width line) := by
  have joined (leads : List Cell) (currentWidth : ℕ) :
      Spanned span offset rows { r with leads := leads, currentWidth := currentWidth } :=
    ⟨spanned.done, spanned.span, spanned.offset, spanned.rows⟩
  unfold Reflow.join
  dsimp only
  split
  · exact joined _ _
  · exact (joined _ _).finishLine u g width

/-- Another row than the cursor's may only move the anchor of the viewport. -/
theorem note_other (cursorX screenLine : ℕ) {index : ℕ} (other : index ≠ cursorLine) (r : Reflow) :
    ∃ screen offset, r.note cursorX cursorLine screenLine index =
      { r with anchors := { r.anchors with screenLogical := screen }, screenOffset := offset } := by
  unfold Reflow.note
  dsimp only
  rw [if_neg other]
  split
  · exact ⟨_, _, rfl⟩
  · exact ⟨_, _, rfl⟩

theorem Spanned.fold {span : ℕ × ℕ} {offset : ℕ} {rows : List Line} {r : Reflow}
    (spanned : Spanned span offset rows r) (lines : List Line) {k : ℕ} (below : cursorLine < k) :
    Spanned span offset rows ((lines.zipIdx k).foldl (reflowLine u g width cursorX cursorLine screenLine) r) := by
  induction lines generalizing k r with
  | nil => exact spanned
  | cons line rest ih =>
    rw [List.zipIdx_cons, List.foldl_cons]
    refine ih ?_ (Nat.lt_succ_of_lt below)
    obtain ⟨screen, screenOffset, noted⟩ := note_other cursorX screenLine below.ne' r
    unfold reflowLine
    rw [noted]
    have moved : Spanned span offset rows
        { r with anchors := { r.anchors with screenLogical := screen }, screenOffset := screenOffset } :=
      ⟨spanned.done, spanned.span, spanned.offset, spanned.rows⟩
    exact moved.join u g width line

/-- The cursor's logical line is still open: its leads so far are collected. -/
structure Opened (leads : List Cell) (offset : ℕ) (physical : List Line) (nextLineId : ℕ) (r : Reflow) : Prop where
  current : r.anchors.cursorLogical = r.anchors.logicalIndex
  offset : r.cursorOffset = offset
  leads : r.leads = leads
  physical : r.physical = physical
  nextLineId : r.nextLineId = nextLineId

/-- The rows that a logical line gets. -/
def spanOf (u : Unicode) (g : Grid) (width : ℕ) (leads : List Cell) (physical : List Line) (nextLineId : ℕ) : ℕ × ℕ :=
  (physical.length, (emitLogicalLine u g width leads physical nextLineId).1.length - physical.length)

variable {leads : List Cell} {offset nextLineId : ℕ} {physical : List Line} {r : Reflow}

/-- Finishing the cursor's logical line records its span. -/
theorem Opened.finishLine (opened : Opened leads offset physical nextLineId r) :
    Spanned (spanOf u g width leads physical nextLineId) offset
      (emitLogicalLine u g width leads physical nextLineId).1 (r.finishLine u g width) := by
  obtain ⟨current, rfl, rfl, rfl, rfl⟩ := opened
  exact ⟨Nat.lt_succ_of_le current.le, if_pos current.symm, rfl, List.prefix_refl _⟩

/-- Joining a row extends the open logical line, and a hard newline records its span. -/
theorem Opened.join (opened : Opened leads offset physical nextLineId r) (line : Line) :
    if line.wrapped then Opened (leads ++ g.lineLeads line) offset physical nextLineId (r.join u g width line)
    else Spanned (spanOf u g width (leads ++ g.lineLeads line) physical nextLineId) offset
      (emitLogicalLine u g width (leads ++ g.lineLeads line) physical nextLineId).1 (r.join u g width line) := by
  have joined (currentWidth : ℕ) : Opened (leads ++ g.lineLeads line) offset physical nextLineId
      { r with leads := r.leads ++ g.lineLeads line, currentWidth := currentWidth } :=
    ⟨opened.current, opened.offset, by rw [opened.leads], opened.physical, opened.nextLineId⟩
  unfold Reflow.join
  dsimp only
  split
  · exact joined _
  · exact (joined _).finishLine u g width

/-- The rows from the cursor's on complete its logical line, or leave it open at the end of the grid. -/
theorem Opened.fold (opened : Opened leads offset physical nextLineId r) (lines : List Line) {k : ℕ}
    (below : cursorLine < k) :
    let r' := (lines.zipIdx k).foldl (reflowLine u g width cursorX cursorLine screenLine) r
    Opened (leads ++ g.lineFrom lines) offset physical nextLineId r' ∨
      Spanned (spanOf u g width (leads ++ g.lineFrom lines) physical nextLineId) offset
        (emitLogicalLine u g width (leads ++ g.lineFrom lines) physical nextLineId).1 r' := by
  induction lines generalizing k r leads with
  | nil =>
    rw [lineFrom, List.append_nil]
    exact .inl opened
  | cons line rest ih =>
    rw [List.zipIdx_cons, List.foldl_cons, lineFrom]
    obtain ⟨screen, screenOffset, noted⟩ := note_other cursorX screenLine below.ne' r
    have moved : Opened leads offset physical nextLineId
        { r with anchors := { r.anchors with screenLogical := screen }, screenOffset := screenOffset } :=
      ⟨opened.current, opened.offset, opened.leads, opened.physical, opened.nextLineId⟩
    have joined := moved.join u g width line
    rw [← noted] at joined
    split at joined
    next wrapped =>
      rw [if_pos wrapped, ← List.append_assoc]
      exact ih joined (Nat.lt_succ_of_lt below)
    next hard =>
      rw [if_neg hard]
      exact .inr (joined.fold u g width rest (Nat.lt_succ_of_lt below))

theorem Opened.through (cursorX screenLine : ℕ) (opened : Opened leads offset physical nextLineId r) (row : Line) (after : List Line) {k : ℕ}
    (below : cursorLine < k) :
    let r' := (after.zipIdx k).foldl (reflowLine u g width cursorX cursorLine screenLine) (r.join u g width row)
    Opened (leads ++ g.lineFrom (row :: after)) offset physical nextLineId r' ∨
      Spanned (spanOf u g width (leads ++ g.lineFrom (row :: after)) physical nextLineId) offset
        (emitLogicalLine u g width (leads ++ g.lineFrom (row :: after)) physical nextLineId).1 r' := by
  have joined := opened.join u g width row
  rw [lineFrom]
  split at joined
  next wrapped =>
    rw [if_pos wrapped, ← List.append_assoc]
    exact joined.fold u g width after below
  next hard =>
    rw [if_neg hard]
    exact .inr (joined.fold u g width after below)

/-- The columns of the leads collected so far. -/
theorem foldl_currentWidth (cursorX cursorLine screenLine : ℕ) (lines : List Line) (k : ℕ) (r : Reflow)
    (counted : r.currentWidth = (r.leads.map fun cell => max cell.width 1).sum) :
    let r' := (lines.zipIdx k).foldl (reflowLine u g width cursorX cursorLine screenLine) r
    r'.currentWidth = (r'.leads.map fun cell => max cell.width 1).sum := by
  induction lines generalizing k r with
  | nil => exact counted
  | cons line rest ih =>
    rw [List.zipIdx_cons, List.foldl_cons]
    refine ih (k + 1) _ ?_
    have noted := r.note_rows cursorX cursorLine screenLine k
    have width : (r.note cursorX cursorLine screenLine k).currentWidth = r.currentWidth := by
      unfold Reflow.note
      dsimp only
      split <;> split <;> rfl
    unfold reflowLine Reflow.join
    dsimp only
    split
    · dsimp only
      rw [width, noted.1, counted, List.map_append, List.sum_append]
    · rfl

/-- The streaming pass finds the cursor's offset and the span of its logical line, when the line has a lead. -/
theorem reflowLines_cursor {before after : List Line} {row : Line}
    (rows : g.scrollback ++ g.lines = before ++ row :: after) (cursor : ℕ × ℕ)
    (met : before.length = g.scrollback.length + cursor.2)
    (some : (g.closeLines before []).2 ++ g.lineFrom (row :: after) ≠ []) :
    ∃ physical nextLineId, Spanned
      (spanOf u g width ((g.closeLines before []).2 ++ g.lineFrom (row :: after)) physical nextLineId)
      (((g.closeLines before []).2.map fun cell => max cell.width 1).sum + cursor.1)
      (emitLogicalLine u g width ((g.closeLines before []).2 ++ g.lineFrom (row :: after)) physical nextLineId).1
      (reflowLines u g width cursor) := by
  unfold reflowLines
  dsimp only
  rw [rows, ← met, List.zipIdx_append, List.foldl_append, List.zipIdx_cons, List.foldl_cons, Nat.zero_add]
  have early := foldl_reflowLine_rows u g width cursor.1 before.length g.scrollback.length before 0
    { nextLineId := g.nextLineId }
  have columns := foldl_currentWidth u g width cursor.1 before.length g.scrollback.length before 0
    { nextLineId := g.nextLineId } rfl
  dsimp only at early columns
  generalize (before.zipIdx 0).foldl (reflowLine u g width cursor.1 before.length g.scrollback.length)
    { nextLineId := g.nextLineId } = r at early columns ⊢
  have opened : Opened (g.closeLines before []).2
      (((g.closeLines before []).2.map fun cell => max cell.width 1).sum + cursor.1) r.physical r.nextLineId
      (r.note cursor.1 before.length g.scrollback.length before.length) := by
    have noted := r.note_rows cursor.1 before.length g.scrollback.length before.length
    refine ⟨?_, ?_, noted.1.trans early.1, noted.2.1, noted.2.2.1⟩
    · unfold Reflow.note
      dsimp only
      split <;> simp
    · unfold Reflow.note
      dsimp only
      rw [← early.1, ← columns]
      split <;> simp
  refine ⟨r.physical, r.nextLineId, ?_⟩
  have rest := opened.through u g width cursor.1 g.scrollback.length row after (Nat.lt_succ_self before.length)
  dsimp only at rest
  unfold reflowLine at rest ⊢
  dsimp only at rest ⊢
  generalize (after.zipIdx (before.length + 1)).foldl _ _ = r' at rest ⊢
  rcases rest with opened | spanned
  · have left : ¬r'.leads.isEmpty = true := by rwa [opened.leads, List.isEmpty_iff]
    have finished := opened.finishLine u g width
    rw [if_neg left, if_neg (Nat.ne_zero_of_lt finished.done)]
    exact finished
  · split
    · rw [if_neg (Nat.ne_zero_of_lt spanned.done)]
      exact spanned
    · have finished := spanned.finishLine u g width
      rw [if_neg (Nat.ne_zero_of_lt finished.done)]
      exact finished

end Pass

end Uniterm.Model.Grid
