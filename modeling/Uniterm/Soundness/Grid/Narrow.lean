import Uniterm.Soundness.Grid.Fitted

/-! # Cutting glyphs of one column

A logical line of one-column glyphs is cut into full rows and a rest, so the glyph at an offset lands at the
quotient and the remainder by the width. At 65535 columns the sum that decides about a new row wraps around
before it exceeds the width, and the line stays on one row.
-/

namespace Uniterm.Model.Grid

/-- A glyph of one column that is stored in one column. -/
structure Narrow (u : Unicode) (g : Grid) (c : Cell) : Prop where
  width : c.width = 1
  glyph : g.glyphWidth u c = 1

variable {u : Unicode} {g : Grid} {width : ℕ}

theorem Narrow.placed {lead : Cell} (narrow : Narrow u g lead) (wide : 0 < width) :
    min (g.glyphWidth u lead) width = 1 ∧ ({ lead with width := 1 } : Cell) = lead := by
  have glyph := narrow.glyph
  exact ⟨by omega, by rw [← narrow.width]⟩

/-- A narrow glyph joins the row, or starts the next one when the row is full. -/
theorem emitLead_narrow (wide : 0 < width) (small : width < 65535) {e : Emission} (room : e.x ≤ width) {lead : Cell}
    (narrow : Narrow u g lead) : emitLead u g width e lead =
      if e.x = width then { e.wrapRow width with row := [lead], x := 1 }
      else { e with row := e.row ++ [lead], x := e.x + 1 } := by
  obtain ⟨one, same⟩ := narrow.placed wide
  unfold emitLead
  dsimp only
  rw [one, Nat.mod_eq_of_lt (by omega : e.x + 1 < 65536), same, if_neg (show ¬(1 : ℕ) = 2 by decide)]
  by_cases full : e.x = width
  · rw [if_pos (show e.x > 0 ∧ e.x + 1 > width by omega), if_pos full]
    rfl
  · rw [if_neg (show ¬(e.x > 0 ∧ e.x + 1 > width) by omega), if_neg full, Nat.mod_eq_of_lt (by omega)]

/-- At the last width every narrow glyph joins the row. -/
theorem emitLead_widest {e : Emission} {lead : Cell} (narrow : Narrow u g lead) :
    (emitLead u g 65535 e lead).physical = e.physical ∧ (emitLead u g 65535 e lead).row = e.row ++ [lead] := by
  obtain ⟨one, same⟩ := narrow.placed (by decide : 0 < 65535)
  have stays : ¬(e.x > 0 ∧ (e.x + 1) % 65536 > 65535) := by omega
  unfold emitLead
  dsimp only
  rw [one, same, if_neg (show ¬(1 : ℕ) = 2 by decide), if_neg stays]
  exact ⟨rfl, rfl⟩

private theorem emit_widest {leads : List Cell} (narrow : ∀ c ∈ leads, Narrow u g c) {e : Emission} :
    (leads.foldl (emitLead u g 65535) e).physical = e.physical ∧
      (leads.foldl (emitLead u g 65535) e).row = e.row ++ leads := by
  induction leads generalizing e with
  | nil => exact ⟨rfl, (List.append_nil _).symm⟩
  | cons lead rest ih =>
    obtain ⟨physical, row⟩ := emitLead_widest (e := e) (narrow lead (List.mem_cons_self ..))
    obtain ⟨physical', row'⟩ := ih (fun c member => narrow c (.tail _ member)) (e := emitLead u g 65535 e lead)
    rw [List.foldl_cons, physical', row', physical, row, List.append_assoc, List.singleton_append]
    exact ⟨rfl, rfl⟩

/-- Cutting narrow leads fills rows one after the other. -/
theorem emit_narrow (wide : 0 < width) (small : width < 65535) {leads : List Cell}
    (narrow : ∀ c ∈ leads, Narrow u g c) {e : Emission} (column : e.row.length = e.x) (room : e.x ≤ width) :
    ∃ rows : List Line, (leads.foldl (emitLead u g width) e).physical = e.physical ++ rows ∧
      (∀ row ∈ rows, row.cells.length = width) ∧
      rows.flatMap Line.cells ++ (leads.foldl (emitLead u g width) e).row = e.row ++ leads ∧
      (leads.foldl (emitLead u g width) e).row.length ≤ width := by
  induction leads generalizing e with
  | nil => exact ⟨[], by simp, by simp, by simp, column ▸ room⟩
  | cons lead rest ih =>
    have rest_narrow : ∀ c ∈ rest, Narrow u g c := fun c member => narrow c (.tail _ member)
    rw [List.foldl_cons, emitLead_narrow wide small room (narrow lead (List.mem_cons_self ..))]
    by_cases full : e.x = width
    · rw [if_pos full]
      have cells : resizeCells width e.row = e.row := by
        rw [resizeCells, List.take_of_length_le (by omega), column, full, Nat.sub_self, List.replicate_zero,
          List.append_nil]
      obtain ⟨rows, physical, lengths, joined, short⟩ :=
        ih rest_narrow (e := { e.wrapRow width with row := [lead], x := 1 }) rfl (by dsimp only; omega)
      refine ⟨{ cells := e.row, wrapped := true, id := e.nextLineId } :: rows, ?_, fun row member => ?_, ?_, short⟩
      · rw [physical, Emission.wrapRow, cells, List.append_assoc, List.singleton_append]
      · rcases List.mem_cons.mp member with rfl | later
        · exact column.trans full
        · exact lengths row later
      · rw [List.flatMap_cons, List.append_assoc, joined, List.singleton_append]
    · rw [if_neg full]
      obtain ⟨rows, physical, lengths, joined, short⟩ :=
        ih rest_narrow (e := { e with row := e.row ++ [lead], x := e.x + 1 })
          (by rw [List.length_append, column]; rfl) (by dsimp only; omega)
      refine ⟨rows, physical, lengths, ?_, short⟩
      rw [joined, List.append_assoc, List.singleton_append]

/-- Rows of one length hold the cell at an offset at the quotient and the remainder. -/
theorem getElem?_rows {rows : List Line} (lengths : ∀ row ∈ rows, row.cells.length = width) {i j : ℕ}
    (inside : i < rows.length) (column : j < width) :
    (rows.flatMap Line.cells)[i * width + j]? = rows[i]?.bind fun row => row.cells[j]? := by
  induction rows generalizing i with
  | nil => simp at inside
  | cons row rows ih =>
    have length := lengths row (List.mem_cons_self ..)
    rw [List.flatMap_cons]
    cases i with
    | zero => rw [Nat.zero_mul, Nat.zero_add, List.getElem?_append_left (by omega)]; rfl
    | succ i =>
      rw [List.getElem?_append_right (by rw [length, Nat.succ_mul]; omega), List.getElem?_cons_succ,
        ← ih (fun other member => lengths other (.tail _ member)) (by simpa using inside)]
      congr 1
      rw [length, Nat.succ_mul]
      omega

private theorem length_rows {rows : List Line} (lengths : ∀ row ∈ rows, row.cells.length = width) :
    (rows.flatMap Line.cells).length = rows.length * width := by
  induction rows with
  | nil => rw [List.flatMap_nil, List.length_nil, List.length_nil, Nat.zero_mul]
  | cons row rows ih =>
    rw [List.flatMap_cons, List.length_append, lengths row (List.mem_cons_self ..),
      ih fun other member => lengths other (.tail _ member), List.length_cons, Nat.succ_mul, Nat.add_comm]

/-- The cells of a row on the screen. -/
def paddedCells (width : ℕ) (line : Line) : List Cell :=
  if line.cells.length < width then resizeCells width line.cells else line.cells

/-- Trimming a row and padding it again changes no cell. -/
theorem paddedCells_trimmed {row : List Cell} {j : ℕ} (inside : j < row.length) (column : j < width) (id : ℕ)
    (wrapped : Bool) : (paddedCells width { cells := Line.trimCells row, wrapped, id })[j]? = row[j]? := by
  obtain ⟨n, whole⟩ := trimCells_append row
  have length := congrArg List.length whole
  rw [List.length_append, List.length_replicate] at length
  generalize Line.trimCells row = trimmed at whole length
  unfold paddedCells
  dsimp only
  by_cases held : j < trimmed.length
  · have same : row[j]? = trimmed[j]? := by rw [whole, List.getElem?_append_left held]
    rw [same]
    split
    · rw [resizeCells, List.take_of_length_le (by omega), List.getElem?_append_left held]
    · rfl
  · have blank : row[j]? = some {} := by
      rw [whole, List.getElem?_append_right (by omega), List.getElem?_replicate, if_pos (by omega)]
    rw [blank, if_pos (by omega), resizeCells, List.take_of_length_le (by omega),
      List.getElem?_append_right (by omega), List.getElem?_replicate, if_pos (by omega)]

/-- Where a glyph of a logical line lands among the rows of that line. -/
theorem emitLogicalLine_narrow (wide : 0 < width) (small : width < 65535) {leads : List Cell}
    (narrow : ∀ c ∈ leads, Narrow u g c) (physical : List Line) (nextLineId : ℕ) :
    ∃ rows, (emitLogicalLine u g width leads physical nextLineId).1 = physical ++ rows ∧
      ∀ p < leads.length, ∃ line, rows[p / width]? = some line ∧ (paddedCells width line)[p % width]? = leads[p]? := by
  obtain ⟨rows, finished, lengths, joined, short⟩ :=
    emit_narrow wide small narrow (e := { physical, nextLineId }) rfl (Nat.zero_le _)
  rw [emitLogicalLine]
  dsimp only at joined ⊢
  generalize leads.foldl (emitLead u g width) { physical, nextLineId } = e at finished joined short ⊢
  rw [List.nil_append] at joined
  refine ⟨rows ++ [{ cells := Line.trimCells e.row, wrapped := false, id := e.nextLineId }], ?_, fun p inside => ?_⟩
  · rw [finished, List.append_assoc]
  · have total : rows.length * width + e.row.length = leads.length := by
      rw [← joined, List.length_append, length_rows lengths]
    have column : p % width < width := Nat.mod_lt p wide
    have offset : p / width * width + p % width = p := Nat.div_add_mod' p width
    have bound : p / width ≤ rows.length := by
      refine Nat.le_of_lt_succ ((Nat.div_lt_iff_lt_mul wide).mpr ?_)
      rw [Nat.succ_mul]
      omega
    rcases Nat.lt_or_eq_of_le bound with full | rest
    · have cell := getElem?_rows lengths full column
      rw [offset] at cell
      have inside' : p < (rows.flatMap Line.cells).length := by
        have := Nat.mul_le_mul_right width (Nat.succ_le_of_lt full)
        rw [Nat.succ_mul] at this
        rw [length_rows lengths]
        omega
      have length := lengths _ (List.getElem_mem full)
      refine ⟨rows[p / width], ?_, ?_⟩
      · rw [List.getElem?_append_left full, List.getElem?_eq_getElem full]
      · rw [← joined, List.getElem?_append_left inside', cell, List.getElem?_eq_getElem full, Option.bind_some,
          paddedCells, if_neg (by omega)]
    · have inside' : p % width < e.row.length := by
        rw [rest] at offset
        omega
      refine ⟨_, by rw [rest, List.getElem?_concat_length], ?_⟩
      rw [paddedCells_trimmed inside' column, ← joined,
        List.getElem?_append_right (by rw [length_rows lengths, ← rest]; omega), length_rows lengths]
      congr 1
      rw [← rest]
      omega

/-- At the last width the whole line is one row. -/
theorem emitLogicalLine_widest {leads : List Cell} (narrow : ∀ c ∈ leads, Narrow u g c) (physical : List Line)
    (nextLineId : ℕ) : ∃ line, (emitLogicalLine u g 65535 leads physical nextLineId).1 = physical ++ [line] ∧
      ∀ j < leads.length, j < 65535 → (paddedCells 65535 line)[j]? = leads[j]? := by
  obtain ⟨finished, row⟩ := emit_widest narrow (e := { physical, nextLineId })
  rw [emitLogicalLine]
  dsimp only at row ⊢
  generalize leads.foldl (emitLead u g 65535) { physical, nextLineId } = e at finished row ⊢
  rw [List.nil_append] at row
  refine ⟨_, by rw [finished], fun j inside column => ?_⟩
  rw [paddedCells_trimmed (by rw [row]; exact inside) column, row]

end Uniterm.Model.Grid
