import Uniterm.Soundness.Grid.Shape

/-! # Recutting logical lines

The streaming reflow moves cells and never invents any: every cell of the result is a cell of the
old rows with another width, the continuation of one, a default cell or the given blank. The chosen
viewport always has as many rows as the grid is high.
-/

namespace Uniterm.Model.Grid

/-- A cell property that recutting respects. -/
structure Recuts (P : Cell → Prop) : Prop where
  default : P {}
  width : ∀ c w, P c → P { c with width := w }
  continuation : ∀ c, P c → P c.continuation

section AllCells

variable {P : Cell → Prop} (u : Unicode) (g : Grid) (width : ℕ)

/-- All cells of a list of lines. -/
def LinesAll (P : Cell → Prop) (lines : List Line) : Prop := ∀ line ∈ lines, ∀ c ∈ line.cells, P c

theorem LinesAll.append {first second : List Line} (left : LinesAll P first)
    (right : LinesAll P second) : LinesAll P (first ++ second) := by
  intro line member
  rcases List.mem_append.mp member with early | late
  · exact left line early
  · exact right line late

theorem LinesAll.single {line : Line} (all : ∀ c ∈ line.cells, P c) : LinesAll P [line] := by
  intro other member
  rw [List.mem_singleton.mp member]
  exact all

private theorem mem_resizeCells {cells : List Cell} {c : Cell}
    (member : c ∈ resizeCells width cells) : c ∈ cells ∨ c = {} := by
  rcases List.mem_append.mp member with taken | padded
  · exact .inl (List.mem_of_mem_take taken)
  · exact .inr (List.eq_of_mem_replicate padded)

private theorem resizeCells_all (recuts : Recuts P) {cells : List Cell} (all : ∀ c ∈ cells, P c) :
    ∀ c ∈ resizeCells width cells, P c := by
  intro c member
  rcases mem_resizeCells width member with old | rfl
  · exact all c old
  · exact recuts.default

private def EmissionAll (P : Cell → Prop) (e : Emission) : Prop :=
  LinesAll P e.physical ∧ ∀ c ∈ e.row, P c

private theorem emitLead_all (recuts : Recuts P) {e : Emission} (all : EmissionAll P e) {lead : Cell}
    (given : P lead) : EmissionAll P (emitLead u g width e lead) := by
  have wrapped : EmissionAll P (e.wrapRow width) := by
    refine ⟨all.1.append (.single (resizeCells_all width recuts all.2)), ?_⟩
    simp [Emission.wrapRow]
  have placed (e : Emission) (all : EmissionAll P e) (glyph : ℕ) (x : ℕ) : EmissionAll P { e with
      row := e.row ++ { lead with width := glyph } :: if glyph = 2 then [lead.continuation] else []
      x } := by
    refine ⟨all.1, fun c member => ?_⟩
    simp only [List.mem_append, List.mem_cons] at member
    rcases member with old | rfl | tail
    · exact all.2 c old
    · exact recuts.width lead glyph given
    · split at tail
      · rw [List.mem_singleton.mp tail]
        exact recuts.continuation lead given
      · contradiction
  unfold emitLead
  dsimp only
  split
  · exact placed _ wrapped _ _
  · exact placed _ all _ _

private theorem emitLogicalLine_all (recuts : Recuts P) {leads : List Cell} {physical : List Line}
    (nextLineId : ℕ) (given : ∀ c ∈ leads, P c) (all : LinesAll P physical) :
    LinesAll P (emitLogicalLine u g width leads physical nextLineId).1 := by
  have folded : EmissionAll P (leads.foldl (emitLead u g width) { physical, nextLineId }) := by
    have start : EmissionAll P { physical, nextLineId } := ⟨all, by simp⟩
    generalize ({ physical, nextLineId } : Emission) = e at start
    induction leads generalizing e with
    | nil => exact start
    | cons lead rest ih =>
      rw [List.foldl_cons]
      exact ih (fun c member => given c (.tail _ member)) _
        (emitLead_all u g width recuts start (given lead (List.mem_cons_self ..)))
  exact folded.1.append (.single fun c member => folded.2 c (mem_trimCells member))

private theorem lineLeads_all (recuts : Recuts P) {line : Line} (all : ∀ c ∈ line.cells, P c) :
    ∀ c ∈ g.lineLeads line, P c := by
  intro c member
  unfold lineLeads at member
  split at member
  · rcases List.mem_append.mp member with old | padded
    · exact all c (List.mem_of_mem_filter old)
    · rw [List.eq_of_mem_replicate padded]
      exact recuts.default
  · exact all c (List.mem_of_mem_filter ((List.rdropWhile_prefix ..).subset member))

end AllCells

section Logical

variable (u : Unicode) (g : Grid) (width : ℕ)

/-- The logical lines that a list of rows closes, and the leads left open at its end. -/
def closeLines : List Line → List Cell → List (List Cell) × List Cell
  | [], leads => ([], leads)
  | line :: rest, leads =>
    if line.wrapped then closeLines rest (leads ++ g.lineLeads line)
    else ((leads ++ g.lineLeads line) :: (closeLines rest []).1, (closeLines rest []).2)

/-- The logical lines of the grid, from the oldest history line on; there is always one. -/
def logicalLines : List (List Cell) :=
  let (closed, left) := g.closeLines (g.scrollback ++ g.lines) []
  let lines := if left.isEmpty then closed else closed ++ [left]
  if lines.isEmpty then [[]] else lines

/-- Emit logical lines one after the other. -/
def emitAll (logical : List (List Cell)) (start : List Line × ℕ) : List Line × ℕ :=
  logical.foldl (fun rows leads =>
    let emitted := emitLogicalLine u g width leads rows.1 rows.2
    (emitted.1, emitted.2.1)) start

theorem Reflow.note_rows (cursorX cursorLine screenLine index : ℕ) (r : Reflow) :
    (r.note cursorX cursorLine screenLine index).leads = r.leads ∧
      (r.note cursorX cursorLine screenLine index).physical = r.physical ∧
      (r.note cursorX cursorLine screenLine index).nextLineId = r.nextLineId ∧
      (r.note cursorX cursorLine screenLine index).anchors.logicalIndex = r.anchors.logicalIndex := by
  unfold Reflow.note
  dsimp only
  split <;> split <;> exact ⟨rfl, rfl, rfl, rfl⟩

private theorem reflowLine_rows (cursorX cursorLine screenLine : ℕ) (r : Reflow) (entry : Line × ℕ) :
    let r' := reflowLine u g width cursorX cursorLine screenLine r entry
    if entry.1.wrapped then
      r'.leads = r.leads ++ g.lineLeads entry.1 ∧
        (r'.physical, r'.nextLineId) = (r.physical, r.nextLineId) ∧
        r'.anchors.logicalIndex = r.anchors.logicalIndex
    else r'.leads = [] ∧ (r'.physical, r'.nextLineId) =
          emitAll u g width [r.leads ++ g.lineLeads entry.1] (r.physical, r.nextLineId) ∧
        r'.anchors.logicalIndex = r.anchors.logicalIndex + 1 := by
  obtain ⟨leads, physical, next, index⟩ := r.note_rows cursorX cursorLine screenLine entry.2
  unfold reflowLine Reflow.join
  generalize r.note cursorX cursorLine screenLine entry.2 = noted at leads physical next index ⊢
  rw [← leads, ← physical, ← next, ← index]
  by_cases soft : entry.1.wrapped = true
  · simp only [soft, ↓reduceIte, and_self]
  · simp only [soft, Bool.false_eq_true, ↓reduceIte]
    exact ⟨rfl, rfl, rfl⟩

/-- The streaming pass emits the logical lines in order. -/
theorem foldl_reflowLine_rows (cursorX cursorLine screenLine : ℕ) (lines : List Line)
    (k : ℕ) (r : Reflow) :
    let r' := (lines.zipIdx k).foldl (reflowLine u g width cursorX cursorLine screenLine) r
    r'.leads = (g.closeLines lines r.leads).2 ∧
      (r'.physical, r'.nextLineId) =
        emitAll u g width (g.closeLines lines r.leads).1 (r.physical, r.nextLineId) ∧
      r'.anchors.logicalIndex = r.anchors.logicalIndex + (g.closeLines lines r.leads).1.length := by
  induction lines generalizing k r with
  | nil => exact ⟨rfl, rfl, rfl⟩
  | cons line rest ih =>
    rw [List.zipIdx_cons, List.foldl_cons]
    obtain ⟨leads, rows, index⟩ := ih (k + 1)
      (reflowLine u g width cursorX cursorLine screenLine r (line, k))
    have step := reflowLine_rows u g width cursorX cursorLine screenLine r (line, k)
    dsimp only at leads rows index step ⊢
    rw [leads, rows, index]
    by_cases soft : line.wrapped = true
    · rw [if_pos soft] at step
      rw [step.1, step.2.1, step.2.2, closeLines, if_pos soft]
      exact ⟨rfl, rfl, rfl⟩
    · rw [if_neg soft] at step
      rw [step.1, step.2.1, step.2.2, closeLines, if_neg soft]
      refine ⟨rfl, rfl, ?_⟩
      rw [List.length_cons]
      omega

theorem reflowLines_rows (cursor : ℕ × ℕ) :
    ((reflowLines u g width cursor).physical, (reflowLines u g width cursor).nextLineId) =
      emitAll u g width g.logicalLines ([], g.nextLineId) := by
  have pass := foldl_reflowLine_rows u g width cursor.1 (g.scrollback.length + cursor.2)
    g.scrollback.length (g.scrollback ++ g.lines) 0 { nextLineId := g.nextLineId }
  unfold reflowLines logicalLines
  dsimp only at pass ⊢
  generalize ((g.scrollback ++ g.lines).zipIdx 0).foldl _ _ = r at pass ⊢
  generalize g.closeLines (g.scrollback ++ g.lines) [] = lines at pass ⊢
  obtain ⟨leads, rows, index⟩ := pass
  rw [Nat.zero_add] at index
  have finish (r : Reflow) : ((r.finishLine u g width).physical, (r.finishLine u g width).nextLineId) =
      emitAll u g width [r.leads] (r.physical, r.nextLineId) := rfl
  by_cases closed : lines.2 = []
  · rw [leads, closed]
    simp only [List.isEmpty_nil, ↓reduceIte, index, List.length_eq_zero_iff, List.isEmpty_iff]
    by_cases empty : lines.1 = []
    · rw [if_pos empty, if_pos empty, finish, leads, closed, rows, empty]
      rfl
    · rw [if_neg empty, if_neg empty, rows]
  · have left : ¬ r.leads.isEmpty = true := by rwa [leads, List.isEmpty_iff]
    have later : ¬ (r.finishLine u g width).anchors.logicalIndex = 0 := Nat.succ_ne_zero _
    rw [leads] at left
    rw [leads, if_neg left, if_neg later, if_neg left, if_neg (by simp), finish, leads, rows]
    exact (List.foldl_append ..).symm

end Logical

section Cells

variable {P : Cell → Prop} (u : Unicode) {g : Grid}

theorem closeLines_all (g : Grid) {lines : List Line}
    (all : ∀ line ∈ lines, ∀ c ∈ g.lineLeads line, P c) (leads : List Cell)
    (given : ∀ c ∈ leads, P c) :
    (∀ line ∈ (g.closeLines lines leads).1, ∀ c ∈ line, P c) ∧
      ∀ c ∈ (g.closeLines lines leads).2, P c := by
  induction lines generalizing leads with
  | nil => exact ⟨by simp [closeLines], given⟩
  | cons line rest ih =>
    have joined : ∀ c ∈ leads ++ g.lineLeads line, P c := by
      intro c member
      rcases List.mem_append.mp member with old | fresh
      · exact given c old
      · exact all line (List.mem_cons_self ..) c fresh
    have later : ∀ line ∈ rest, ∀ c ∈ g.lineLeads line, P c := fun line member =>
      all line (.tail _ member)
    rw [closeLines]
    split
    · exact ih later _ joined
    · obtain ⟨closed, left⟩ := ih later [] (by simp)
      refine ⟨fun other member => ?_, left⟩
      rcases List.mem_cons.mp member with rfl | tail
      · exact joined
      · exact closed other tail

private theorem mem_logicalLines {line : List Cell} (member : line ∈ g.logicalLines) :
    line = [] ∨ line ∈ (g.closeLines (g.scrollback ++ g.lines) []).1 ∨
      line = (g.closeLines (g.scrollback ++ g.lines) []).2 := by
  unfold logicalLines at member
  generalize g.closeLines (g.scrollback ++ g.lines) [] = lines at member ⊢
  dsimp only at member
  by_cases closed : lines.2.isEmpty = true
  · rw [if_pos closed] at member
    split at member
    · exact .inl (List.mem_singleton.mp member)
    · exact .inr (.inl member)
  · rw [if_neg closed, if_neg (by simp)] at member
    rcases List.mem_append.mp member with early | late
    · exact .inr (.inl early)
    · exact .inr (.inr (List.mem_singleton.mp late))

theorem closed_mem_logicalLines {line : List Cell}
    (closed : line ∈ (g.closeLines (g.scrollback ++ g.lines) []).1) : line ∈ g.logicalLines := by
  have some : (g.closeLines (g.scrollback ++ g.lines) []).1 ≠ [] := List.ne_nil_of_mem closed
  unfold logicalLines
  generalize g.closeLines (g.scrollback ++ g.lines) [] = lines at closed some ⊢
  dsimp only
  by_cases left : lines.2.isEmpty = true
  · rw [if_pos left, if_neg (by simpa using some)]
    exact closed
  · rw [if_neg left, if_neg (by simp)]
    exact List.mem_append_left _ closed

theorem left_mem_logicalLines (left : (g.closeLines (g.scrollback ++ g.lines) []).2 ≠ []) :
    (g.closeLines (g.scrollback ++ g.lines) []).2 ∈ g.logicalLines := by
  unfold logicalLines
  generalize g.closeLines (g.scrollback ++ g.lines) [] = lines at left ⊢
  dsimp only
  have remains : ¬lines.2.isEmpty = true := by rwa [List.isEmpty_iff]
  rw [if_neg remains, if_neg (by simp)]
  exact List.mem_append_right _ (List.mem_singleton_self _)

/-- A property of every row's leads is a property of every logical line's. -/
theorem logicalLines_all (all : ∀ line ∈ g.scrollback ++ g.lines, ∀ c ∈ g.lineLeads line, P c) :
    ∀ line ∈ g.logicalLines, ∀ c ∈ line, P c := by
  obtain ⟨closed, left⟩ := closeLines_all g all [] (by simp)
  intro line member
  rcases mem_logicalLines member with rfl | early | rfl
  · simp
  · exact closed line early
  · exact left

/-- A property of rows that every emitted logical line has, all emitted rows have. -/
theorem emitAll_rows {Q : Line → Prop} {width : ℕ} {logical : List (List Cell)}
    (emits : ∀ leads ∈ logical, ∀ physical nextLineId, (∀ line ∈ physical, Q line) →
      ∀ line ∈ (emitLogicalLine u g width leads physical nextLineId).1, Q line)
    (start : List Line × ℕ) (given : ∀ line ∈ start.1, Q line) :
    ∀ line ∈ (emitAll u g width logical start).1, Q line := by
  induction logical generalizing start with
  | nil => exact given
  | cons leads rest ih =>
    refine ih (fun other member => emits other (.tail _ member)) _ ?_
    exact emits leads (List.mem_cons_self ..) start.1 start.2 given

private theorem reflowLines_all (recuts : Recuts P) (all : AllCells P g) (width : ℕ) (cursor : ℕ × ℕ) :
    LinesAll P (reflowLines u g width cursor).physical := by
  have rows : (reflowLines u g width cursor).physical =
      (emitAll u g width g.logicalLines ([], g.nextLineId)).1 :=
    congrArg Prod.fst (reflowLines_rows u g width cursor)
  rw [rows]
  refine emitAll_rows u (fun leads member physical nextLineId given => ?_) _ (by simp)
  refine emitLogicalLine_all u g width recuts nextLineId (logicalLines_all ?_ leads member) given
  exact fun line retained => lineLeads_all g recuts (all line retained)

end Cells

section Viewport

variable {P : Cell → Prop} {physical : List Line} {blank : Cell}

private theorem growViewport_length (width height : ℕ) (blank : Cell) (physical : List Line)
    (nextLineId cursorGlobal start : ℕ) :
    (growViewport width height blank physical nextLineId cursorGlobal start).physical.length =
      (growViewport width height blank physical nextLineId cursorGlobal start).screenStart + height := by
  unfold growViewport
  dsimp only
  rw [List.length_append, length_blankLines]
  split
  · simp only [List.length_take]
    omega
  · dsimp only
    omega

private theorem shrinkViewport_length (width height : ℕ) (blank : Cell) (physical : List Line)
    (nextLineId cursorGlobal : ℕ) :
    (shrinkViewport width height blank physical nextLineId cursorGlobal).physical.length =
      (shrinkViewport width height blank physical nextLineId cursorGlobal).screenStart + height := by
  unfold shrinkViewport
  dsimp only
  rw [List.length_append, List.length_reverse, length_blankLines]
  omega

/-- The rows of a viewport are emitted rows and blank ones. -/
theorem mem_growViewport {width height nextLineId cursorGlobal start : ℕ} {line : Line}
    (member : line ∈
      (growViewport width height blank physical nextLineId cursorGlobal start).physical) :
    line ∈ physical ∨ ∃ id, line = Line.blank width blank id := by
  unfold growViewport at member
  dsimp only at member
  rcases List.mem_append.mp member with old | fresh
  · split at old
    · exact .inl (List.mem_of_mem_take old)
    · exact .inl old
  · exact .inr (mem_blankLines fresh)

private theorem mem_shrinkViewport {width height nextLineId cursorGlobal : ℕ} {line : Line}
    (member : line ∈ (shrinkViewport width height blank physical nextLineId cursorGlobal).physical) :
    line ∈ physical ∨ ∃ id, line = Line.blank width blank id := by
  unfold shrinkViewport at member
  rcases List.mem_append.mp member with fresh | old
  · exact .inr (mem_blankLines (List.mem_reverse.mp fresh))
  · exact .inl old

/-- The viewport a width reflow chooses. -/
def reflowViewport (u : Unicode) (g : Grid) (width height : ℕ) (blank : Cell) (cursor : ℕ × ℕ)
    (pending : Bool) : Viewport :=
  let r := reflowLines u g width cursor
  let cursorGlobal := r.anchors.cursorSpan.1 +
    min (mapCursor width r.cursorOffset pending).1 (r.anchors.cursorSpan.2 - 1)
  let start := r.anchors.screenSpan.1 + min (r.screenOffset / width) (r.anchors.screenSpan.2 - 1)
  if height > g.height then growViewport width height blank r.physical r.nextLineId cursorGlobal start
  else shrinkViewport width height blank r.physical r.nextLineId cursorGlobal

/-- A change of width recuts the rows. -/
theorem resizeReflow_reflowWidth (u : Unicode) {g : Grid} {width : ℕ} (changes : max width 1 ≠ g.width) {height : ℕ}
    {blank : Cell} {cursor : ℕ × ℕ} {pending : Bool} : g.resizeReflow u width height blank cursor pending =
      g.reflowWidth u (max width 1) (max height 1) blank cursor pending := by
  unfold Grid.resizeReflow
  dsimp only
  rw [if_neg (by simp [changes]), if_neg (by simp [changes]), if_neg (by simp [changes])]

theorem reflowWidth_grid (u : Unicode) (g : Grid) (width height : ℕ) (blank : Cell) (cursor : ℕ × ℕ)
    (pending : Bool) : (g.reflowWidth u width height blank cursor pending).1 =
      g.install width height (reflowViewport u g width height blank cursor pending) := rfl

theorem reflowWidth_cursor (u : Unicode) (g : Grid) (width height : ℕ) (blank : Cell) (cursor : ℕ × ℕ)
    (pending : Bool) :
    let v := reflowViewport u g width height blank cursor pending
    let mapped := mapCursor width (reflowLines u g width cursor).cursorOffset pending
    (g.reflowWidth u width height blank cursor pending).2 =
      (min mapped.2.1 (width - 1),
        min (v.cursorGlobal - (v.screenStart - g.scrollbackLimit) -
          (v.screenStart - (v.screenStart - g.scrollbackLimit))) (height - 1), mapped.2.2) := rfl

theorem reflowViewport_length (u : Unicode) (g : Grid) (width height : ℕ) (blank : Cell)
    (cursor : ℕ × ℕ) (pending : Bool) :
    (reflowViewport u g width height blank cursor pending).physical.length =
      (reflowViewport u g width height blank cursor pending).screenStart + height := by
  unfold reflowViewport
  dsimp only
  split
  · exact growViewport_length ..
  · exact shrinkViewport_length ..

theorem mem_reflowViewport (u : Unicode) (g : Grid) (width height : ℕ) (blank : Cell)
    (cursor : ℕ × ℕ) (pending : Bool) (line : Line)
    (member : line ∈ (reflowViewport u g width height blank cursor pending).physical) :
    line ∈ (reflowLines u g width cursor).physical ∨ ∃ id, line = Line.blank width blank id := by
  unfold reflowViewport at member
  dsimp only at member
  split at member
  · exact mem_growViewport member
  · exact mem_shrinkViewport member

/-- The visible rows are the last rows of the viewport, padded. -/
theorem install_lines (g : Grid) (width height : ℕ) (v : Viewport) :
    (g.install width height v).lines = (v.physical.drop v.screenStart).map fun line =>
      if line.cells.length < width then { line with cells := resizeCells width line.cells } else line := by
  unfold install
  rw [markAllDamaged_frame]
  dsimp only
  rw [List.drop_drop]
  congr 2
  omega

theorem install_scrollback (g : Grid) (width height : ℕ) (v : Viewport) :
    (g.install width height v).scrollback =
      (v.physical.drop (v.screenStart - g.scrollbackLimit)).take
        (v.screenStart - (v.screenStart - g.scrollbackLimit)) := by
  unfold install
  rw [markAllDamaged_frame]

/-- Installing a viewport resizes the grid and nothing else but its lines and damage. -/
theorem install_frame (g : Grid) (width height : ℕ) (v : Viewport) :
    g.install width height v = { g with
      width, height
      lines := (g.install width height v).lines
      scrollback := (g.install width height v).scrollback
      damage := (g.install width height v).damage
      anyDamage := (g.install width height v).anyDamage
      pendingScrollUp := (g.install width height v).pendingScrollUp
      nextLineId := v.nextLineId } := by
  unfold install
  rw [markAllDamaged_frame]

private theorem install_damage_length (g : Grid) (width height : ℕ) (v : Viewport) :
    (g.install width height v).damage.length = height := by
  unfold install
  rw [markAllDamaged_length]
  exact List.length_replicate

end Viewport

theorem WellFormed.reflowWidth (u : Unicode) {g : Grid} (wf : g.WellFormed) {width height : ℕ}
    (wide : 0 < width) (tall : 0 < height) {blank : Cell} (valid : blank.cluster < g.clusters.length)
    (cursor : ℕ × ℕ) (pending : Bool) :
    (g.reflowWidth u width height blank cursor pending).1.WellFormed := by
  rw [reflowWidth_grid]
  have recuts : Recuts fun c => c.cluster < g.clusters.length :=
    ⟨wf.arena, fun _ _ held => held, fun _ _ => wf.arena⟩
  have all := reflowLines_all u recuts wf.cells width cursor
  have length := reflowViewport_length u g width height blank cursor pending
  have members := mem_reflowViewport u g width height blank cursor pending
  generalize reflowViewport u g width height blank cursor pending = v at length members ⊢
  have cells : LinesAll (fun c => c.cluster < g.clusters.length) v.physical := by
    intro line member c inside
    rcases members line member with emitted | ⟨id, rfl⟩
    · exact all line emitted c inside
    · rw [mem_blank inside]
      exact valid
  refine ⟨⟨?_, ?_, ?_, fun line member => ?_, ?_⟩, ?_, fun line member c inside => ?_⟩
  · rw [install_frame]
    exact wide
  · rw [install_frame]
    exact tall
  · rw [install_lines, List.length_map, List.length_drop, install_frame]
    dsimp only
    omega
  · rw [install_lines] at member
    obtain ⟨old, _, rfl⟩ := List.mem_map.mp member
    rw [install_frame]
    dsimp only
    split
    · simp only [resizeCells, List.length_append, List.length_take, List.length_replicate]
      omega
    · omega
  · rw [install_damage_length, install_frame]
  · rw [install_frame]
    exact wf.arena
  · rw [install_frame]
    change c.cluster < g.clusters.length
    rcases List.mem_append.mp member with history | screen
    · rw [install_scrollback] at history
      exact cells line (List.mem_of_mem_drop (List.mem_of_mem_take history)) c inside
    · rw [install_lines] at screen
      obtain ⟨old, before, rfl⟩ := List.mem_map.mp screen
      have held := cells old (List.mem_of_mem_drop before)
      split at inside
      · exact resizeCells_all width recuts held c inside
      · exact held c inside

/-- A resize leaves a well-formed grid whose size is the requested one. -/
theorem WellFormed.resizeReflow (u : Unicode) {g : Grid} (wf : g.WellFormed) (width height : ℕ)
    {blank : Cell} (valid : blank.cluster < g.clusters.length) (cursor : ℕ × ℕ) (pending : Bool) :
    (g.resizeReflow u width height blank cursor pending).1.WellFormed := by
  unfold Grid.resizeReflow
  dsimp only
  split
  · exact wf
  split
  · next grows => exact (wf.toShaped.growHeight_relines grows.1 blank).wellFormed wf valid
  split
  · next shrinks =>
    exact (wf.toShaped.shrinkHeight_relines (by omega) shrinks.1 blank).wellFormed wf valid
  · exact wf.reflowWidth u (by omega) (by omega) valid cursor pending

end Uniterm.Model.Grid
