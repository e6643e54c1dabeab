import Uniterm.Soundness.Grid.Storing

/-! # The reference reflow follows the streaming one

The reference joins stored rows into logical lines, cuts them all and then looks up where the cursor
and the viewport top went; the streaming reflow cuts each line as it is closed and notes the two
spans on the way. `Follows` relates the two passes row by row.
-/

namespace Uniterm.Model.Grid

open ToMathlib

section Join

variable (u : Unicode) {g : Grid} {width : ℕ}

theorem line_eq (g : Grid) (i : ℕ) : g.line i = (g.scrollback ++ g.lines)[i]? := by
  rw [line, List.getElem?_append]

theorem Storable.storeLines (storable : g.Storable) :
    (List.range g.totalLines).map g.storeLine = (g.scrollback ++ g.lines).map g.savedLine := by
  have total : g.totalLines = (g.scrollback ++ g.lines).length := by
    rw [totalLines, List.length_append, storable.lines]
  refine List.ext_getElem (by simp [total]) fun i left right => ?_
  rw [List.length_map] at right
  rw [List.getElem_map, List.getElem_map, List.getElem_range]
  refine storeLine_line ?_ (storable.short _ (List.getElem_mem right))
  rw [line_eq, List.getElem?_eq_getElem right]

/-- What the passes need to know about a row. -/
structure Joinable (g : Grid) (line : Line) : Prop where
  named : ∀ c ∈ line.cells, Named g c
  soft : line.wrapped = true → line.cells.length = g.width ∧ g.lineLeads line ≠ []

theorem Storable.joinable (storable : g.Storable) {line : Line}
    (member : line ∈ g.scrollback ++ g.lines) : Joinable g line := by
  refine ⟨storable.named line member, fun wrapped => ⟨storable.soft line member wrapped, ?_⟩⟩
  have wide := storable.wide
  have full := storable.soft line member wrapped
  have head := (storable.paired line member).head
  cases cells : line.cells with
  | nil =>
    rw [cells, List.length_nil] at full
    omega
  | cons c rest =>
    have leads : c.isContinuation = false := by
      rw [cells] at head
      simpa [Cell.isContinuation] using head
    simp [lineLeads, wrapped, cells, leads]

theorem Joinable.leads {line : Line} (joinable : Joinable g line) : ∀ c ∈ g.lineLeads line, Lead g c := by
  intro c member
  refine ⟨?_, lineLeads_leads line c member⟩
  unfold lineLeads at member
  split at member
  · rcases List.mem_append.mp member with old | padded
    · exact joinable.named c (List.mem_of_mem_filter old)
    · rw [List.eq_of_mem_replicate padded]
      exact named_default g
  · exact joinable.named c (List.mem_of_mem_filter ((List.rdropWhile_prefix ..).subset member))

/-- The joined rows and the streamed ones, with the spans of the lines cut so far. -/
structure Follows (u : Unicode) (g : Grid) (width : ℕ) (r : Reflow) (j : Joined)
    (spans : List (ℕ × ℕ)) : Prop where
  current : j.current = r.leads.map g.storeCell
  leads : ∀ c ∈ r.leads, Lead g c
  currentWidth : j.currentWidth = r.currentWidth
  rows : ∀ line ∈ r.physical, RowFits width line.cells
  recut : recutLines u width j.logical = some (r.physical.map (g.showLine width), spans)
  index : j.logical.length = r.anchors.logicalIndex
  count : spans.length = r.anchors.logicalIndex
  cursorOffset : j.cursorOffset = r.cursorOffset
  cursorLogical : j.cursorLogical = r.anchors.cursorLogical
  cursorSpan : r.anchors.cursorLogical < spans.length →
    spans[r.anchors.cursorLogical]? = some r.anchors.cursorSpan
  screenOffset : j.screenOffset = r.screenOffset
  screenLogical : j.screenLogical = r.anchors.screenLogical
  screenSpan : r.anchors.screenLogical < spans.length →
    spans[r.anchors.screenLogical]? = some r.anchors.screenSpan
  before : r.anchors.cursorLogical ≤ r.anchors.logicalIndex ∧
    r.anchors.screenLogical ≤ r.anchors.logicalIndex

/-- The lines of the cursor and of the viewport top are cut, or still being joined. -/
def Reflow.Anchored (r : Reflow) : Prop :=
  r.leads = [] → r.anchors.cursorLogical < r.anchors.logicalIndex ∧
    r.anchors.screenLogical < r.anchors.logicalIndex

variable {r : Reflow} {j : Joined} {spans : List (ℕ × ℕ)}

theorem Follows.note (follows : Follows u g width r j spans) (cursorX cursorLine screenLine i : ℕ) :
    Follows u g width (r.note cursorX cursorLine screenLine i)
      (j.note cursorX cursorLine screenLine i) spans := by
  have cursor : Follows u g width
      (if i = cursorLine then
        { r with
          anchors := { r.anchors with cursorLogical := r.anchors.logicalIndex }
          cursorOffset := r.currentWidth + cursorX } else r)
      (if i = cursorLine then
        { j with cursorLogical := j.logical.length, cursorOffset := j.currentWidth + cursorX }
      else j) spans := by
    split
    · exact { follows with
        cursorOffset := by rw [follows.currentWidth]
        cursorLogical := follows.index
        cursorSpan := fun inside => absurd inside (by rw [follows.count]; exact Nat.lt_irrefl _)
        before := ⟨le_rfl, follows.before.2⟩ }
    · exact follows
  unfold Reflow.note Joined.note
  dsimp only
  generalize (if i = cursorLine then _ else r) = r at cursor ⊢
  generalize (if i = cursorLine then _ else j) = j at cursor ⊢
  split
  · exact { cursor with
      screenOffset := cursor.currentWidth
      screenLogical := cursor.index
      screenSpan := fun inside => absurd inside (by rw [cursor.count]; exact Nat.lt_irrefl _)
      before := ⟨cursor.before.1, le_rfl⟩ }
  · exact cursor

/-- Both passes close a logical line. -/
theorem Follows.finishLine (follows : Follows u g width r j spans) (first : g.DefaultFirst)
    (wide : 0 < width)
    (sums : recutFits width 0 (r.leads.map fun lead => min (g.glyphWidth u lead) width)) :
    ∃ spans', Follows u g width (r.finishLine u g width)
      { j with logical := j.logical ++ [j.current], current := [], currentWidth := 0 } spans' := by
  have cut := recutLine_shows u first wide follows.leads sums r.nextLineId follows.rows
  have fits := (emitLogicalLine_fits u g wide sums r.nextLineId follows.rows).2
  generalize emitted : emitLogicalLine u g width r.leads r.physical r.nextLineId = rows at cut fits
  have span : rows.2.2 = (r.physical.length, rows.1.length - r.physical.length) := by
    rw [← emitted]
    rfl
  have finished : r.finishLine u g width =
      { r with
        physical := rows.1, nextLineId := rows.2.1, anchors := r.anchors.record rows.2.2
        leads := [], currentWidth := 0 } := by
    rw [Reflow.finishLine, emitted]
  have recut : recutLines u width (j.logical ++ [j.current]) =
      some (rows.1.map (g.showLine width), spans ++ [rows.2.2]) := by
    have before := follows.recut
    unfold recutLines at before ⊢
    rw [List.foldlM_append, before, Option.bind_eq_bind, Option.bind_some, List.foldlM_cons,
      follows.current, cut, span]
    simp
  have count : (spans ++ [rows.2.2]).length = r.anchors.logicalIndex + 1 := by
    rw [List.length_append, List.length_singleton, follows.count]
  have looked (logical : ℕ) (old : ℕ × ℕ) (le : logical ≤ r.anchors.logicalIndex)
      (held : logical < spans.length → spans[logical]? = some old) :
      (spans ++ [rows.2.2])[logical]? =
        some (if r.anchors.logicalIndex = logical then rows.2.2 else old) := by
    rcases Nat.lt_or_eq_of_le le with lt | rfl
    · rw [if_neg (by omega), List.getElem?_append_left (by rw [follows.count]; exact lt)]
      exact held (by rw [follows.count]; exact lt)
    · rw [if_pos rfl, List.getElem?_append_right (by rw [follows.count]), follows.count, Nat.sub_self,
        List.getElem?_cons_zero]
  rw [finished]
  exact ⟨spans ++ [rows.2.2], {
    current := rfl
    leads := by simp
    currentWidth := rfl
    rows := fits
    recut
    index := by rw [List.length_append, List.length_singleton, follows.index]; rfl
    count
    cursorOffset := follows.cursorOffset
    cursorLogical := follows.cursorLogical
    cursorSpan := fun _ => looked _ _ follows.before.1 follows.cursorSpan
    screenOffset := follows.screenOffset
    screenLogical := follows.screenLogical
    screenSpan := fun _ => looked _ _ follows.before.2 follows.screenSpan
    before := ⟨Nat.le_succ_of_le follows.before.1, Nat.le_succ_of_le follows.before.2⟩ }⟩

theorem Follows.join (follows : Follows u g width r j spans) (first : g.DefaultFirst)
    (wide : 0 < width) {line : Line} (joinable : Joinable g line)
    (sums : line.wrapped = false → recutFits width 0
      ((r.leads ++ g.lineLeads line).map fun lead => min (g.glyphWidth u lead) width)) :
    ∃ spans', Follows u g width (r.join u g width line) (j.join (g.savedLine line)) spans' ∧
      (r.join u g width line).Anchored := by
  have leads := storedLeads_line first joinable.named fun wrapped => (joinable.soft wrapped).1
  have joined : Follows u g width
      { r with
        leads := r.leads ++ g.lineLeads line
        currentWidth := r.currentWidth + ((g.lineLeads line).map fun cell => max cell.width 1).sum }
      { j with
        currentWidth := j.currentWidth +
          ((storedLeads (g.savedLine line)).map fun cell => max cell.width 1).sum
        current := j.current ++ storedLeads (g.savedLine line) } spans := { follows with
    current := by rw [leads, follows.current, List.map_append]
    leads := fun c member => (List.mem_append.mp member).elim (follows.leads c) (joinable.leads c)
    currentWidth := by
      rw [leads, follows.currentWidth, List.map_map]
      rfl }
  unfold Reflow.join Joined.join
  have same : (g.savedLine line).wrapped = line.wrapped := rfl
  rw [same]
  cases wrapped : line.wrapped with
  | true =>
    refine ⟨spans, joined, fun none => ?_⟩
    exact absurd (List.append_eq_nil_iff.mp none).2 (joinable.soft wrapped).2
  | false =>
    obtain ⟨spans', finished⟩ := joined.finishLine u first wide (sums wrapped)
    refine ⟨spans', finished, fun _ => ?_⟩
    exact ⟨Nat.lt_succ_of_le follows.before.1, Nat.lt_succ_of_le follows.before.2⟩

theorem Follows.foldl (first : g.DefaultFirst) (wide : 0 < width) (cursorX cursorLine screenLine : ℕ)
    {lines : List Line} (all : ∀ line ∈ lines, Joinable g line) (k : ℕ)
    (follows : Follows u g width r j spans)
    (sums : ∀ leads ∈ (g.closeLines lines r.leads).1,
      recutFits width 0 (leads.map fun lead => min (g.glyphWidth u lead) width)) :
    let r' := (lines.zipIdx k).foldl (reflowLine u g width cursorX cursorLine screenLine) r
    let j' := ((lines.map g.savedLine).zipIdx k).foldl (joinLine cursorX cursorLine screenLine) j
    ∃ spans', Follows u g width r' j' spans' ∧ (lines ≠ [] ∨ r.Anchored → r'.Anchored) := by
  induction lines generalizing k r j spans with
  | nil => exact ⟨spans, follows, fun some => some.resolve_left fun none => none rfl⟩
  | cons line rest ih =>
    have noted := follows.note u cursorX cursorLine screenLine k
    have leads := (r.note_rows cursorX cursorLine screenLine k).1
    rw [closeLines, ← leads] at sums
    have here : line.wrapped = false → recutFits width 0
        (((r.note cursorX cursorLine screenLine k).leads ++ g.lineLeads line).map fun lead =>
          min (g.glyphWidth u lead) width) := by
      intro hard
      rw [if_neg (by simp [hard])] at sums
      exact sums _ (List.mem_cons_self ..)
    obtain ⟨spans', joined, anchored⟩ := noted.join u first wide (all line (List.mem_cons_self ..)) here
    have later : ∀ leads ∈ (g.closeLines rest
        (reflowLine u g width cursorX cursorLine screenLine r (line, k)).leads).1,
        recutFits width 0 (leads.map fun lead => min (g.glyphWidth u lead) width) := by
      unfold reflowLine Reflow.join
      cases wrapped : line.wrapped with
      | true => simpa [wrapped] using sums
      | false =>
        rw [if_neg (by simp [wrapped])] at sums
        exact fun leads member => sums leads (.tail _ member)
    obtain ⟨last, done, settled⟩ := ih (fun other member => all other (.tail _ member)) (k + 1) joined later
    exact ⟨last, done, fun _ => settled (.inr anchored)⟩

/-- After the whole pass the two reflows agree on the rows, the offsets and the spans. -/
structure Agreed (u : Unicode) (g : Grid) (width : ℕ) (r : Reflow) (j : Joined) : Prop where
  spans : ∃ spans, recutLines u width j.logical = some (r.physical.map (g.showLine width), spans) ∧
    j.cursorLogical < spans.length ∧ spans[j.cursorLogical]? = some r.anchors.cursorSpan ∧
    j.screenLogical < spans.length ∧ spans[j.screenLogical]? = some r.anchors.screenSpan
  cursorOffset : j.cursorOffset = r.cursorOffset
  screenOffset : j.screenOffset = r.screenOffset

theorem Follows.agreed (follows : Follows u g width r j spans)
    (cut : r.anchors.cursorLogical < r.anchors.logicalIndex ∧
      r.anchors.screenLogical < r.anchors.logicalIndex) : Agreed u g width r j := by
  have cursor : r.anchors.cursorLogical < spans.length := by rw [follows.count]; exact cut.1
  have screen : r.anchors.screenLogical < spans.length := by rw [follows.count]; exact cut.2
  refine ⟨⟨spans, follows.recut, ?_⟩, follows.cursorOffset, follows.screenOffset⟩
  rw [follows.cursorLogical, follows.screenLogical]
  exact ⟨cursor, follows.cursorSpan cursor, screen, follows.screenSpan screen⟩

theorem Storable.agreed (storable : g.Storable) (wide : 0 < width) (fits : g.Fits u width)
    (cursor : ℕ × ℕ) : Agreed u g width (reflowLines u g width cursor) (joinLines g cursor) := by
  have first := storable.colors
  have start : Follows u g width { nextLineId := g.nextLineId } {} [] := {
    current := rfl
    leads := by simp
    currentWidth := rfl
    rows := by simp
    recut := rfl
    index := rfl
    count := rfl
    cursorOffset := rfl
    cursorLogical := rfl
    cursorSpan := by simp
    screenOffset := rfl
    screenLogical := rfl
    screenSpan := by simp
    before := ⟨le_rfl, le_rfl⟩ }
  have some : g.scrollback ++ g.lines ≠ [] := by
    intro none
    have lines := storable.lines
    rw [(List.append_eq_nil_iff.mp none).2, List.length_nil] at lines
    exact absurd lines storable.tall.ne
  obtain ⟨spans, follows, anchored⟩ := Follows.foldl u first wide cursor.1
    (g.scrollback.length + cursor.2) g.scrollback.length (fun line => storable.joinable) 0 start
    fun leads closed => fits leads (closed_mem_logicalLines closed)
  have left := (foldl_reflowLine_rows u g width cursor.1 (g.scrollback.length + cursor.2)
    g.scrollback.length (g.scrollback ++ g.lines) 0 { nextLineId := g.nextLineId }).1
  unfold reflowLines joinLines
  rw [storable.storeLines]
  dsimp only at follows anchored left ⊢
  generalize ((g.scrollback ++ g.lines).zipIdx 0).foldl _ _ = r at follows anchored left ⊢
  generalize (((g.scrollback ++ g.lines).map g.savedLine).zipIdx 0).foldl _ _ = j at follows ⊢
  have anchored := anchored (.inl some)
  have same : j.current.isEmpty = r.leads.isEmpty := by rw [follows.current, List.isEmpty_map]
  by_cases done : r.leads = []
  · have empty : r.leads.isEmpty = true := by rw [done, List.isEmpty_nil]
    obtain ⟨cursorCut, screenCut⟩ := anchored done
    have cut : ¬j.logical.isEmpty = true := by
      rw [List.isEmpty_iff]
      intro none
      have index := follows.index
      rw [none, List.length_nil] at index
      omega
    rw [if_pos empty, if_pos (same.trans empty), if_neg (by omega), if_neg cut]
    exact follows.agreed u ⟨cursorCut, screenCut⟩
  · have remains : ¬r.leads.isEmpty = true := by rwa [List.isEmpty_iff]
    have sums := fits r.leads (by rw [left] at done ⊢; exact left_mem_logicalLines done)
    obtain ⟨spans', finished⟩ := follows.finishLine u first wide sums
    have agreed := finished.agreed u
      ⟨Nat.lt_succ_of_le follows.before.1, Nat.lt_succ_of_le follows.before.2⟩
    have closed : ¬(r.finishLine u g width).anchors.logicalIndex = 0 := Nat.succ_ne_zero _
    have current : ¬j.current.isEmpty = true := by rwa [same]
    rw [if_neg remains, if_neg current, if_neg closed, if_neg (by simp)]
    exact ⟨agreed.spans, agreed.cursorOffset, agreed.screenOffset⟩

end Join

section Settled

variable (u : Unicode) {g : Grid} {width : ℕ}

/-- A named cell that is the default one if it looks like it. -/
structure Settled (g : Grid) (c : Cell) : Prop extends Named g c where
  blank : g.isDefaultBlank c = true → c = {}

private theorem settled_default (g : Grid) : Settled g {} := ⟨named_default g, fun _ => rfl⟩

private theorem settled_continuation {lead : Cell} (named : Named g lead) : Settled g lead.continuation :=
  ⟨⟨fun used => absurd rfl used, named.underline, named.hyperlink⟩,
    fun blank => by simp [isDefaultBlank, Cell.isContinuation, Cell.continuation] at blank⟩

private theorem settled_lead {lead : Cell} (named : Named g lead) (space : u.glyphWidth [' '] = 1)
    (wide : 0 < width) : Settled g { lead with width := min (g.glyphWidth u lead) width } := by
  have kept : Named g { lead with width := min (g.glyphWidth u lead) width } :=
    ⟨named.cluster, named.underline, named.hyperlink⟩
  refine ⟨kept, fun blank => eq_default_of_blank kept blank ?_⟩
  simp only [isDefaultBlank, Bool.and_eq_true, beq_iff_eq] at blank
  obtain ⟨⟨⟨⟨⟨⟨⟨ch, cluster⟩, _⟩, _⟩, _⟩, _⟩, _⟩, _⟩ := blank
  have one : g.glyphWidth u lead = 1 := by
    rw [glyphWidth, if_neg (not_not_intro cluster), ch, space]
  dsimp only
  omega

/-- A row of settled cells, without a default tail unless it is soft-wrapped. -/
structure Ended (g : Grid) (line : Line) : Prop where
  settled : ∀ c ∈ line.cells, Settled g c
  ended : line.wrapped = false → Line.trimCells line.cells = line.cells

structure EmissionEnds (g : Grid) (e : Emission) : Prop where
  row : ∀ c ∈ e.row, Settled g c
  physical : ∀ line ∈ e.physical, Ended g line

theorem EmissionEnds.wrapRow {e : Emission} (ends : EmissionEnds g e) :
    EmissionEnds g (e.wrapRow width) := by
  refine ⟨by simp [Emission.wrapRow], fun line member => ?_⟩
  rcases List.mem_append.mp member with old | fresh
  · exact ends.physical line old
  · rw [List.mem_singleton.mp fresh]
    refine ⟨fun c inside => ?_, fun hard => by cases hard⟩
    rcases List.mem_append.mp inside with taken | padded
    · exact ends.row c (List.mem_of_mem_take taken)
    · rw [List.eq_of_mem_replicate padded]
      exact settled_default g

theorem EmissionEnds.emitLead {e : Emission} (ends : EmissionEnds g e) (space : u.glyphWidth [' '] = 1)
    (wide : 0 < width) {lead : Cell} (named : Named g lead) :
    EmissionEnds g (Grid.emitLead u g width e lead) := by
  have placed (e : Emission) (ends : EmissionEnds g e) (x : ℕ) : EmissionEnds g { e with
      row := e.row ++ { lead with width := min (g.glyphWidth u lead) width } ::
        if min (g.glyphWidth u lead) width = 2 then [lead.continuation] else []
      x } := by
    refine ⟨fun c member => ?_, ends.physical⟩
    simp only [List.mem_append, List.mem_cons] at member
    rcases member with old | rfl | tail
    · exact ends.row c old
    · exact settled_lead u named space wide
    · split at tail
      · rw [List.mem_singleton.mp tail]
        exact settled_continuation named
      · contradiction
  unfold Grid.emitLead
  dsimp only
  split
  · exact placed _ ends.wrapRow _
  · exact placed _ ends _

private theorem emitLogicalLine_ends {leads : List Cell} {physical : List Line}
    (space : u.glyphWidth [' '] = 1) (wide : 0 < width) (named : ∀ c ∈ leads, Named g c)
    (nextLineId : ℕ) (given : ∀ line ∈ physical, Ended g line) :
    ∀ line ∈ (emitLogicalLine u g width leads physical nextLineId).1, Ended g line := by
  have folded : EmissionEnds g (leads.foldl (emitLead u g width) { physical, nextLineId }) := by
    have start : EmissionEnds g { physical, nextLineId } := ⟨by simp, given⟩
    generalize ({ physical, nextLineId } : Emission) = e at start
    induction leads generalizing e with
    | nil => exact start
    | cons lead rest ih =>
      rw [List.foldl_cons]
      exact ih (fun c member => named c (.tail _ member)) _
        (start.emitLead u space wide (named lead (List.mem_cons_self ..)))
  intro line member
  rcases List.mem_append.mp member with old | last
  · exact folded.physical line old
  · rw [List.mem_singleton.mp last]
    exact ⟨fun c inside => folded.row c (mem_trimCells inside), fun _ => List.rdropWhile_idempotent ..⟩

theorem Storable.reflowLines_ends (storable : g.Storable) (space : u.glyphWidth [' '] = 1)
    (wide : 0 < width) (cursor : ℕ × ℕ) :
    ∀ line ∈ (reflowLines u g width cursor).physical, Ended g line := by
  have rows : (reflowLines u g width cursor).physical =
      (emitAll u g width g.logicalLines ([], g.nextLineId)).1 :=
    congrArg Prod.fst (reflowLines_rows u g width cursor)
  have leads := logicalLines_all (g := g) fun line member c inside =>
    ((storable.joinable member).leads c inside).toNamed
  rw [rows]
  refine emitAll_rows u (fun line member physical nextLineId given => ?_) _ (by simp)
  exact emitLogicalLine_ends u space wide (leads line member) nextLineId given

/-- A hard row is empty exactly when all it shows is blank. -/
theorem Ended.isEmpty {line : Line} (ended : Ended g line) (first : g.DefaultFirst)
    (hard : line.wrapped = false) :
    (g.showCells width line.cells).all storedCellIsDefaultBlank = line.cells.isEmpty := by
  cases cells : line.cells.isEmpty with
  | true =>
    rw [List.isEmpty_iff.mp cells, showCells, List.nil_append, List.map_replicate,
      storeCell_default first, List.all_eq_true]
    intro c member
    rw [List.eq_of_mem_replicate member]
    rfl
  | false =>
    have some : line.cells ≠ [] := by
      intro none
      rw [none] at cells
      cases cells
    have last := List.getLast_mem some
    have other := List.rdropWhile_eq_self_iff.mp (ended.ended hard) some
    rw [List.all_eq_false]
    refine ⟨g.storeCell (line.cells.getLast some), List.mem_map_of_mem (List.mem_append_left _ last), ?_⟩
    rw [storedBlank_storeCell (ended.settled _ last).toNamed]
    intro blank
    exact other (beq_iff_eq.mpr ((ended.settled _ last).blank blank))

private theorem storedContentEnd_shows (first : g.DefaultFirst) {physical : List Line}
    (ends : ∀ line ∈ physical, Ended g line) :
    storedContentEnd (physical.map (g.showLine width)) = contentEnd physical := by
  rw [storedContentEnd, rdropWhile_map, List.length_map, contentEnd]
  congr 1
  refine rdropWhile_congr fun line member => ?_
  change (!line.wrapped && (g.showCells width line.cells).all storedCellIsDefaultBlank) = _
  cases wrapped : line.wrapped with
  | true => rfl
  | false => rw [(ends line member).isEmpty first wrapped]

end Settled

section Viewport

variable (u : Unicode) {g : Grid} {width height : ℕ} {blank : Cell}

/-- A styled single space. -/
structure Space (blank : Cell) : Prop where
  ch : blank.ch = ' '
  width : blank.width = 1
  cluster : blank.cluster = 0

/-- A viewport as it shows. -/
def Viewport.shown (g : Grid) (width : ℕ) (v : Viewport) : StoredViewport where
  physical := v.physical.map (g.showLine width)
  cursorGlobal := v.cursorGlobal
  screenStart := v.screenStart

theorem showLine_blank (g : Grid) (width : ℕ) (blank : Cell) (id : ℕ) :
    g.showLine width (Line.blank width blank id) = storedBlankLine width (g.storeCell blank) := by
  simp [showLine, showCells, Line.blank, storedBlankLine]

private theorem blankLines_shows (g : Grid) (width : ℕ) (blank : Cell) (firstId count : ℕ) :
    (blankLines width blank firstId count).map (g.showLine width) =
      List.replicate count (storedBlankLine width (g.storeCell blank)) := by
  rw [blankLines, List.map_map, List.eq_replicate_iff]
  refine ⟨by simp, fun line member => ?_⟩
  obtain ⟨i, _, rfl⟩ := List.mem_map.mp member
  exact showLine_blank ..

private theorem growStored_shows (first : g.DefaultFirst) {physical : List Line}
    (ends : ∀ line ∈ physical, Ended g line) (nextLineId cursorGlobal start : ℕ) :
    growStored width height (g.storeCell blank) (physical.map (g.showLine width)) cursorGlobal start =
      (growViewport width height blank physical nextLineId cursorGlobal start).shown g width := by
  unfold growStored growViewport Viewport.shown
  rw [storedContentEnd_shows first ends]
  simp only [List.length_map]
  split
  · simp only [List.length_take, List.length_map, List.map_append, List.map_take, blankLines_shows]
  · simp only [List.length_map, List.map_append, blankLines_shows]

private theorem shrinkStored_shows (physical : List Line) (nextLineId cursorGlobal : ℕ) :
    shrinkStored width height (g.storeCell blank) (physical.map (g.showLine width)) cursorGlobal =
      (shrinkViewport width height blank physical nextLineId cursorGlobal).shown g width := by
  simp [shrinkStored, shrinkViewport, Viewport.shown, blankLines_shows, length_blankLines]

/-- The reference chooses the rows that the streaming reflow chooses. -/
theorem Storable.referenceRows (storable : g.Storable) (height : ℕ) (space : u.glyphWidth [' '] = 1)
    (wide : 0 < width) (fits : g.Fits u width) (styled : Space blank) (cursor : ℕ × ℕ)
    (pending : Bool) :
    Grid.referenceRows u g width height blank cursor pending =
      some ((reflowViewport u g width height blank cursor pending).shown g width) := by
  have first := storable.colors
  have ends := storable.reflowLines_ends u space wide cursor
  obtain ⟨⟨spans, recut, cursorCut, cursorSpan, screenCut, screenSpan⟩, cursorOffset, screenOffset⟩ :=
    storable.agreed u wide fits cursor
  have saved : (
      { text := [' '], fg := blank.fg, bg := blank.bg, attrs := blank.attrs
        underlineColor := g.underlineColor blank.underlineColor } : StoredCell) =
      g.storeCell blank := by
    simp [storeCell, cellTextOwned, Cell.isContinuation, styled.ch, styled.width, styled.cluster]
  have count (n : ℕ) : max n 1 - 1 = n - 1 := by omega
  unfold Grid.referenceRows reflowViewport
  rw [saved]
  simp only [recut, Option.bind_eq_bind, Option.bind_some, Nat.min_eq_left (Nat.le_sub_one_of_lt cursorCut),
    Nat.min_eq_left (Nat.le_sub_one_of_lt screenCut), cursorSpan, screenSpan, cursorOffset, screenOffset,
    count]
  split
  · exact congrArg some (growStored_shows first ends _ _ _)
  · exact congrArg some (shrinkStored_shows _ _ _)

end Viewport

end Uniterm.Model.Grid
