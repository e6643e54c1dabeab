import Uniterm.Soundness.Server.CopyHistory

/-! # A frozen selection

With a freeze the selected rows are read from a copy, by their offset from its start. A selection is constant as long
as compensation keeps the offsets of its ends: the anchor always keeps its own, the cursor only while the top of the
viewport does not run against the start of the history.
-/

namespace Uniterm.Model.Server

open Grid

variable {g g' : Grid} {s s' : CopyState} {frozen frozen' : FrozenScreen}

section Reading

/-- The selection of a freeze, by the offsets of its ends. -/
structure Selects (s : CopyState) (rows : Grid) (anchor cursor : ℕ × ℕ) (width : ℕ) : Prop where
  frozen : ∃ start, s.frozen = some { start, rows } ∧ s.anchor = some (start + anchor.1, anchor.2) ∧
    s.cursorLine = start + cursor.1
  column : s.cx = cursor.2
  width : s.width = width

/-- What one frozen row adds to the selected text, by offsets. -/
def frozenLine (rows : Grid) (width : ℕ) (first last : ℕ × ℕ) (offset : ℕ) : Text :=
  let start := if offset = first.1 then first.2 else 0
  let stop := if offset = last.1 then min (saturatingAdd16 last.2 1) width else width
  let selected := CopyMode.lineTextRange rows offset start stop
  (if stop = width then selected.trimEnd else selected) ++
    if offset ≠ last.1 ∧ ¬ rows.lineWrapped offset then ['\n'] else []

def frozenText (rows : Grid) (width : ℕ) (anchor cursor : ℕ × ℕ) : Text :=
  let ends := if anchor.1 * width + anchor.2 ≤ cursor.1 * width + cursor.2 then (anchor, cursor) else (cursor, anchor)
  (List.range' ends.1.1 (ends.2.1 + 1 - ends.1.1)).flatMap (frozenLine rows width ends.1 ends.2)

variable {rows : Grid} {anchor cursor : ℕ × ℕ} {width start : ℕ}

private theorem selectedLine_frozen (held : s.frozen = some { start, rows }) (columns : s.width = width)
    (first last : ℕ × ℕ)
    (offset : ℕ) : s.selectedLine g (start + first.1, first.2) (start + last.1, last.2) (start + offset) =
      frozenLine rows width first last offset := by
  have source : s.source g (start + offset) = (rows, offset) := by
    rw [CopyState.source, held]
    exact (if_pos (Nat.le_add_right ..)).trans (by rw [Nat.add_sub_cancel_left])
  unfold CopyState.selectedLine CopyState.selectedColumns frozenLine
  rw [source, columns]
  simp only [Nat.add_left_cancel_iff, ne_eq]

/-- The text of a frozen selection is a function of the copy and the offsets. -/
theorem Selects.yank (selects : Selects s rows anchor cursor width) (g : Grid) :
    s.yank g = frozenText rows width anchor cursor := by
  obtain ⟨start, held, anchored, at_cursor⟩ := selects.frozen
  have lines (first last : ℕ × ℕ) : (List.range' (start + first.1) (start + last.1 + 1 - (start + first.1))).flatMap
      (s.selectedLine g (start + first.1, first.2) (start + last.1, last.2)) =
        (List.range' first.1 (last.1 + 1 - first.1)).flatMap (frozenLine rows width first last) := by
    rw [show start + last.1 + 1 - (start + first.1) = last.1 + 1 - first.1 by omega, ← List.map_add_range',
      List.flatMap_map]
    exact List.flatMap_congr fun offset _ => selectedLine_frozen held selects.width first last offset
  have order : (start + anchor.1) * width + anchor.2 ≤ (start + cursor.1) * width + cursor.2 ↔
      anchor.1 * width + anchor.2 ≤ cursor.1 * width + cursor.2 := by
    rw [Nat.add_mul, Nat.add_mul]
    omega
  unfold CopyState.yank CopyState.selectedText CopyState.selection frozenText
  rw [anchored]
  simp only [Option.bind_eq_bind, Option.bind_some, CopyState.position, at_cursor, selects.column, selects.width, order]
  split
  · exact lines anchor cursor
  · exact lines cursor anchor

end Reading

section Watching

/-- What may happen on a live pane while a selection is held. -/
inductive LiveStep where
  | set (x y : ℕ) (cell : Cell)
  | setGrapheme (x y : ℕ) (text : Text) (cell : Cell) (width : ℕ)
  | scrollUp (blank : Cell)
  | sync

/-- The live grid, copy-mode over it, and the number of history lines lost since the two were in step. -/
structure Watched where
  grid : Grid
  copy : CopyState
  lost : ℕ := 0

/-- The number of lines that the history loses when the whole screen scrolls. -/
def loses (g : Grid) : ℕ :=
  if 0 < g.height ∧ 0 < g.scrollbackLimit ∧ g.scrollback.length = g.scrollbackLimit then 1 else 0

def Watched.step (w : Watched) : LiveStep → Watched
  | .set x y cell => { w with grid := w.grid.set x y cell }
  | .setGrapheme x y text cell width => { w with grid := w.grid.setGrapheme x y text cell width }
  | .scrollUp blank => { w with grid := w.grid.scrollUp blank, lost := w.lost + loses w.grid }
  | .sync => { w with copy := w.copy.syncHistory w.grid, lost := 0 }

def Watched.run (w : Watched) (steps : List LiveStep) : Watched := steps.foldl Watched.step w

/-- A condition on the states that the synchronizations of a run meet. -/
def AtSyncs (P : Watched → Prop) : Watched → List LiveStep → Prop
  | _, [] => True
  | w, .sync :: rest => P w ∧ AtSyncs P (w.step .sync) rest
  | w, step :: rest => AtSyncs P (w.step step) rest

/-- How far the id of the oldest line is ahead of what it was. -/
def idGap : Option ℕ → Option ℕ → ℕ
  | some old, some new => new - old
  | _, _ => 0

/-- The viewport lies inside what it can address, and it begins inside the freeze or has room above it. -/
structure HasRoom (w : Watched) : Prop where
  cursor : w.copy.cy < w.copy.height
  top : w.copy.top ≤ w.copy.maxTop w.grid
  room : ∀ frozen ∈ w.copy.frozen,
    frozen.start ≤ w.copy.top ∨ idGap w.copy.firstLineId w.grid.firstLineId ≤ w.copy.top

/-- The ids of the oldest lines tell how many lines above the freeze were lost. -/
def Exact (w : Watched) : Prop :=
  ∀ frozen ∈ w.copy.frozen, frozen.start - idGap w.copy.firstLineId w.grid.firstLineId = frozen.start - w.lost

variable {rows : Grid} {anchor cursor : ℕ × ℕ} {width : ℕ} {w : Watched}

private theorem syncHistory_frozen {start : ℕ} (held : s.frozen = some { start, rows }) :
    (s.syncHistory g).frozen = some { start := start - idGap s.firstLineId g.firstLineId, rows } := by
  rw [syncHistory_eq]
  change s.frozen.map _ = _
  rw [held]
  rfl

private theorem syncHistory_columns : (s.syncHistory g).cx = s.cx ∧ (s.syncHistory g).width = s.width := by
  rw [syncHistory_eq]
  exact ⟨rfl, rfl⟩

/-- Compensation keeps the offsets of a selection. -/
theorem Selects.sync (selects : Selects w.copy rows anchor cursor width) (roomy : HasRoom w) :
    Selects (w.copy.syncHistory w.grid) rows anchor cursor width := by
  obtain ⟨start, held, anchored, at_cursor⟩ := selects.frozen
  have room := roomy.room _ held
  have inside := roomy.cursor
  have top := roomy.top
  have below := syncHistory_frozen (g := w.grid) held
  generalize gap : idGap w.copy.firstLineId w.grid.firstLineId = e at room below
  have shift (line : ℕ) : w.copy.shift e line = if line ≥ start then some (start - e + (line - start))
      else if e ≤ line then some (line - e) else none := by
    rw [CopyState.shift, held]
  rw [CopyState.maxTop, CopyState.totalLines, held] at top
  rw [CopyState.cursorLine] at at_cursor
  obtain ⟨column, columns⟩ := syncHistory_columns (s := w.copy) (g := w.grid)
  refine ⟨⟨start - e, below, ?_, ?_⟩, column.trans selects.column, columns.trans selects.width⟩
  · rw [syncHistory_eq]
    change (w.copy.evict _).anchor = _
    rw [CopyState.evict, show w.copy.evicted w.grid = e from gap]
    dsimp only
    rw [anchored, Option.bind_some, shift, if_pos (Nat.le_add_right ..), Nat.add_sub_cancel_left]
    rfl
  · have moved : (w.copy.syncHistory w.grid).top = min ((w.copy.shift e w.copy.top).getD 0)
        (start - e + rows.height - w.copy.height) := by
      rw [syncHistory_eq, show w.copy.evicted w.grid = e from gap]
      change min _ ((w.copy.evict e).maxTop w.grid) = _
      rw [CopyState.maxTop, CopyState.totalLines, CopyState.evict, held]
      rfl
    have row : (w.copy.syncHistory w.grid).cy = w.copy.cy := by
      rw [syncHistory_eq]
      exact min_eq_left (by omega)
    rw [CopyState.cursorLine, moved, row, shift]
    dsimp only at top room
    split
    · rw [Option.getD_some]
      omega
    next above =>
      rw [if_pos (room.resolve_left above), Option.getD_some]
      omega

theorem Selects.run (selects : Selects w.copy rows anchor cursor width) {steps : List LiveStep}
    (roomy : AtSyncs HasRoom w steps) : Selects (w.run steps).copy rows anchor cursor width := by
  induction steps generalizing w with
  | nil => exact selects
  | cons step rest ih =>
    cases step with
    | sync => exact ih (selects.sync roomy.1) roomy.2
    | set x y cell => exact ih (w := w.step (.set x y cell)) selects roomy
    | setGrapheme x y text cell width => exact ih (w := w.step (.setGrapheme x y text cell width)) selects roomy
    | scrollUp blank => exact ih (w := w.step (.scrollUp blank)) selects roomy

/-- A selection inside a freeze, from the start of the freeze on. -/
theorem selects_of_frozen {frozen : FrozenScreen} {a x : ℕ} (held : s.frozen = some frozen)
    (anchored : s.anchor = some (a, x)) (anchor_inside : frozen.start ≤ a) (cursor_inside : frozen.start ≤ s.cursorLine) :
    Selects s frozen.rows (a - frozen.start, x) (s.cursorLine - frozen.start, s.cx) s.width where
  frozen := by
    refine ⟨frozen.start, held, ?_, ?_⟩
    · rw [anchored, Nat.add_sub_cancel' anchor_inside]
    · rw [Nat.add_sub_cancel' cursor_inside]
  column := rfl
  width := rfl

end Watching

section Totals

/-- Of a history some of the oldest lines were lost for good, and others were added. -/
structure Aged (before : List ℕ) (lost : ℕ) (g : Grid) : Prop where
  history : ∃ added, lost ≤ (before ++ added).length ∧ g.scrollback.map Line.id = (before ++ added).drop lost
  gone : ∀ id ∈ before.take lost, id ∉ g.lineIds ∧ id < g.nextLineId

variable {before : List ℕ} {lost : ℕ}

private theorem aged_start (g : Grid) : Aged (g.scrollback.map Line.id) 0 g where
  history := ⟨[], Nat.zero_le _, (List.append_nil _).symm⟩
  gone id member := by
    rw [List.take_zero] at member
    nomatch member

theorem Aged.same (aged : Aged before lost g) (same : SameIds g g') : Aged before lost g' where
  history := by
    rw [same.history]
    exact aged.history
  gone id member := by
    rw [lineIds, same.history, same.screen, same.next]
    exact aged.gone id member

/-- A grid without rows does not scroll. -/
private theorem scrollUp_flat (rowed : Rowed g) (flat : ¬0 < g.height) (blank : Cell) :
    loses g = 0 ∧ g.scrollUp blank = g := by
  have empty : g.lines = [] := List.eq_nil_of_length_eq_zero (by rw [rowed.lines_length]; omega)
  refine ⟨if_neg fun some => flat some.1, ?_⟩
  rw [Grid.scrollUp, empty]

/-- A scroll of the whole screen loses the oldest line of a full history. -/
theorem Aged.scrollUp (aged : Aged before lost g) (identified : Identified g) (rowed : Rowed g) (blank : Cell) :
    Aged before (lost + loses g) (g.scrollUp blank) := by
  obtain ⟨added, bound, history⟩ := aged.history
  have absent (id : ℕ) (member : id ∈ before.take lost) :
      id ∉ (g.scrollUp blank).lineIds ∧ id < (g.scrollUp blank).nextLineId :=
    (Output.scrollUp blank).gone rowed (aged.gone id member).1 (aged.gone id member).2
  by_cases tall : 0 < g.height
  · obtain ⟨effect, line, top, pushed⟩ := scrollUp_effect rowed tall blank
    have grown {more : List Line} (same : (g.scrollUp blank).scrollback = g.scrollback ++ more) (none : loses g = 0) :
        Aged before (lost + loses g) (g.scrollUp blank) := by
      refine ⟨⟨added ++ more.map Line.id, ?_, ?_⟩, by rwa [none]⟩
      · rw [none, ← List.append_assoc, List.length_append]
        omega
      · rw [none, same, List.map_append, history, ← List.append_assoc, Nat.add_zero, List.drop_append_of_le_length bound]
    obtain ⟨same, none⟩ | ⟨same, room⟩ | ⟨full, oldest, rest, older, newer⟩ :=
      pushScrollback_cases identified.bounded line
    · rw [← pushed, ← List.append_nil g.scrollback] at same
      exact grown same (if_neg (by omega))
    · rw [← pushed] at same
      exact grown same (if_neg (by omega))
    · rw [← pushed] at newer
      have length := congrArg List.length older
      rw [List.length_cons] at length
      have one : loses g = 1 := if_pos ⟨tall, by omega, full⟩
      rw [older, List.map_cons] at history
      have inside : lost < (before ++ added).length := by
        have := congrArg List.length history
        rw [List.length_cons, List.length_drop] at this
        omega
      have shorter : (before ++ added).drop (lost + 1) = rest.map Line.id := by
        rw [← List.drop_drop, ← history]
        rfl
      have here : (before ++ added)[lost] = oldest.id := by
        have := List.drop_eq_getElem_cons inside
        rw [← history, List.cons.injEq] at this
        exact this.1.symm
      rw [one]
      refine ⟨⟨added ++ [line.id], ?_, ?_⟩, fun id member => ?_⟩
      · rw [← List.append_assoc, List.length_append]
        omega
      · rw [newer, List.map_append, ← shorter, ← List.append_assoc, List.drop_append_of_le_length inside]
        rfl
      · by_cases early : id ∈ before.take lost
        · exact absent id early
        · have last : id = oldest.id := by
            rw [List.take_add_one, List.mem_append] at member
            obtain old | new := member
            · exact absurd old early
            · rw [Option.mem_toList] at new
              rw [← here]
              have found : (before ++ added)[lost]? = some id := by
                rw [List.getElem?_append_left (List.getElem?_eq_some_iff.mp new).1, new]
              rw [List.getElem?_eq_getElem inside] at found
              exact (Option.some.inj found).symm
          rw [last]
          refine ⟨evicted_gone identified effect older top newer, Nat.lt_of_lt_of_le (identified.below _ ?_) effect.next⟩
          rw [lineIds, older]
          exact List.mem_cons_self ..
  · obtain ⟨none, same⟩ := scrollUp_flat rowed tall blank
    rwa [none, same]

/-- The lines of the history before that are still there. -/
theorem Aged.retained (aged : Aged before lost g) (count : ℕ) (known : count ≤ before.length) :
    ((before.take count).filter (· ∈ g.scrollback.map Line.id)).length = count - lost := by
  obtain ⟨added, -, history⟩ := aged.history
  have cut : before.take count = (before.take count).take lost ++ (before.take count).drop lost :=
    (List.take_append_drop ..).symm
  rw [cut, List.filter_append, List.length_append]
  have gone : ((before.take count).take lost).filter (· ∈ g.scrollback.map Line.id) = [] := by
    refine List.filter_eq_nil_iff.mpr fun id member => ?_
    rw [List.take_take, Nat.min_comm] at member
    have early : id ∈ before.take lost := (List.take_subset_take_left _ (by omega)) member
    rw [decide_eq_true_iff]
    exact fun found => (aged.gone id early).1 (List.mem_append_left _ found)
  have kept : ((before.take count).drop lost).filter (· ∈ g.scrollback.map Line.id) = (before.take count).drop lost := by
    refine List.filter_eq_self.mpr fun id member => ?_
    rw [decide_eq_true_iff, history]
    have later : id ∈ before.drop lost := by
      rw [List.drop_take] at member
      exact List.mem_of_mem_take member
    rw [List.drop_append]
    exact List.mem_append_left _ later
  rw [gone, kept, List.length_nil, List.length_drop, List.length_take]
  omega

/-- The start of the freeze after some steps, while the ids tell the losses. -/
theorem Aged.run {u : Unicode} {w : Watched} {total : ℕ} {frozen : FrozenScreen} (reached : Reached u w.grid)
    (aged : Aged before total w.grid) (held : w.copy.frozen = some frozen) {start : ℕ}
    (counted : frozen.start - w.lost = start - total) {steps : List LiveStep} (exact : AtSyncs Exact w steps) :
    ∃ total frozen', Aged before total (w.run steps).grid ∧ (w.run steps).copy.frozen = some frozen' ∧
      frozen'.start - (w.run steps).lost = start - total ∧ frozen'.rows = frozen.rows := by
  induction steps generalizing w total frozen with
  | nil => exact ⟨total, frozen, aged, held, counted, rfl⟩
  | cons step rest ih =>
    have identified := reached.identified
    have rowed := reached.presentable.toRowed
    cases step with
    | sync =>
      obtain ⟨start', rows⟩ := frozen
      have moved := syncHistory_frozen (g := w.grid) held
      have gap := exact.1 _ held
      rw [counted] at gap
      obtain ⟨total', frozen', aged', held', counted', same⟩ := ih (w := w.step .sync) reached aged moved gap exact.2
      exact ⟨total', frozen', aged', held', counted', same⟩
    | set x y cell =>
      exact ih (w := w.step (.set x y cell)) (reached.step (Output.run_step u _ (.set x y cell)))
        (aged.same (set_sameIds ..)) held counted exact
    | setGrapheme x y text cell width =>
      exact ih (w := w.step (.setGrapheme x y text cell width))
        (reached.step (.op .release (.setGrapheme x y text cell width) trivial rfl))
        (aged.same (setGrapheme_sameIds ..)) held counted exact
    | scrollUp blank =>
      exact ih (w := w.step (.scrollUp blank)) (reached.step (Output.run_step u _ (.scrollUp blank)))
        (aged.scrollUp identified rowed blank) held (by dsimp only [Watched.step]; omega) exact

/-- The lines of a history that another grid still holds. -/
def stillHeld (history : List Line) (g : Grid) : List Line :=
  history.filter fun line => line.id ∈ g.scrollback.map Line.id

private theorem length_stillHeld (history : List Line) (g : Grid) : (stillHeld history g).length =
    ((history.map Line.id).filter (· ∈ g.scrollback.map Line.id)).length := by
  rw [stillHeld, List.filter_map, List.length_map]
  rfl

/-- Right after a synchronization the lines that can be addressed are the retained ones above the freeze and the
frozen rows, while the ids tell what was lost. -/
theorem totalLines_exact {u : Unicode} {w : Watched} (reached : Reached u w.grid) (fresh : w.lost = 0)
    {frozen : FrozenScreen} (held : w.copy.frozen = some frozen) (history : frozen.start ≤ w.grid.scrollback.length)
    {steps : List LiveStep} (exact : AtSyncs Exact w (steps ++ [.sync])) :
    (w.run (steps ++ [.sync])).copy.totalLines (w.run (steps ++ [.sync])).grid =
      (stillHeld (w.grid.scrollback.take frozen.start) (w.run (steps ++ [.sync])).grid).length + frozen.rows.height := by
  obtain ⟨total, frozen', aged, held', counted, same⟩ := Aged.run reached (aged_start w.grid) held
    (by rw [fresh] : frozen.start - w.lost = frozen.start - 0) exact
  have settled : (w.run (steps ++ [.sync])).lost = 0 := by
    rw [Watched.run, List.foldl_append]
    rfl
  rw [settled] at counted
  rw [CopyState.totalLines, held', length_stillHeld, List.map_take,
    aged.retained frozen.start (by rwa [List.length_map]), ← same]
  dsimp only
  omega

/-- A frozen selection is constant while the viewport has room above it, and the lines that can be addressed are the
retained ones above the freeze and the frozen rows while the ids tell what was lost. -/
theorem frozen_constant {u : Unicode} {w : Watched} (reached : Reached u w.grid) (fresh : w.lost = 0)
    {frozen : FrozenScreen} (held : w.copy.frozen = some frozen) (history : frozen.start ≤ w.grid.scrollback.length)
    {a x : ℕ} (anchored : w.copy.anchor = some (a, x)) (anchor_inside : frozen.start ≤ a)
    (cursor_inside : frozen.start ≤ w.copy.cursorLine) (steps : List LiveStep) :
    (AtSyncs HasRoom w steps → (w.run steps).copy.yank (w.run steps).grid = w.copy.yank w.grid) ∧
      (AtSyncs Exact w (steps ++ [.sync]) →
        (w.run (steps ++ [.sync])).copy.totalLines (w.run (steps ++ [.sync])).grid =
          (stillHeld (w.grid.scrollback.take frozen.start) (w.run (steps ++ [.sync])).grid).length +
            frozen.rows.height) := by
  refine ⟨fun roomy => ?_, totalLines_exact reached fresh held history⟩
  have selects := selects_of_frozen held anchored anchor_inside cursor_inside
  rw [(selects.run roomy).yank, selects.yank]

end Totals

section Steadiness

/-- Every scroll of a run finds the oldest lines of a full history with consecutive ids. -/
def SteadySteps : Watched → List LiveStep → Prop
  | _, [] => True
  | w, .scrollUp blank :: rest =>
    (Output.scrollUp blank).Steady w.grid ∧ SteadySteps (w.step (.scrollUp blank)) rest
  | w, step :: rest => SteadySteps (w.step step) rest

/-- The id of the oldest line went ahead as far as lines above the freeze were lost. -/
structure Counts (w : Watched) (frozen : FrozenScreen) : Prop where
  inside : frozen.start ≤ w.grid.scrollback.length
  ids : ∃ old ahead, w.copy.firstLineId = some old ∧ (w.grid.scrollback.map Line.id).head? = some (old + ahead) ∧
    frozen.start - ahead = frozen.start - w.lost

/-- The lost lines of a history above the freeze are counted. -/
def Counted (w : Watched) : Prop := ∀ frozen ∈ w.copy.frozen, 0 < frozen.start → Counts w frozen

variable {w : Watched} {frozen : FrozenScreen}

private theorem firstLineId_of_head {id : ℕ} (head : (g.scrollback.map Line.id).head? = some id) :
    g.firstLineId = some id := by
  rw [← head, List.head?_map]
  refine firstLineId_of_history fun empty => ?_
  rw [empty] at head
  nomatch head

theorem Counted.exact (counted : Counted w) : Exact w := by
  intro frozen held
  obtain top | below := Nat.eq_zero_or_pos frozen.start
  · rw [top, Nat.zero_sub, Nat.zero_sub]
  · obtain ⟨-, old, ahead, before, now, same⟩ := counted frozen held below
    rw [before, firstLineId_of_head now, idGap, Nat.add_sub_cancel_left]
    exact same

/-- With a copy in step the count begins anew. -/
theorem counted_start (first : w.copy.firstLineId = w.grid.firstLineId) (fresh : w.lost = 0)
    (inside : ∀ frozen ∈ w.copy.frozen, frozen.start ≤ w.grid.scrollback.length) : Counted w := by
  intro frozen held below
  obtain ⟨oldest, rest, history⟩ := List.exists_cons_of_length_pos (below.trans_le (inside frozen held))
  have now : (w.grid.scrollback.map Line.id).head? = some (oldest.id + 0) := by rw [history]; rfl
  exact ⟨inside frozen held, oldest.id, 0, first.trans (firstLineId_of_head now), now, by rw [fresh]⟩

theorem Counted.same (counted : Counted w) (same : SameIds w.grid g') : Counted { w with grid := g' } := by
  intro frozen held below
  obtain ⟨inside, ids⟩ := counted frozen held below
  exact ⟨by rwa [same.history_length], by rwa [same.history]⟩

/-- A scroll adds to the history, or the id of the oldest line goes ahead with the line lost. -/
theorem Counted.scrollUp (counted : Counted w) (identified : Identified w.grid) (rowed : Rowed w.grid) {blank : Cell}
    (steady : (Output.scrollUp blank).Steady w.grid) : Counted (w.step (.scrollUp blank)) := by
  by_cases tall : 0 < w.grid.height
  · intro frozen held below
    obtain ⟨inside, old, ahead, before, now, same⟩ := counted frozen held below
    obtain ⟨-, line, top, pushed⟩ := scrollUp_effect rowed tall blank
    have history : (w.step (.scrollUp blank)).grid.scrollback = (w.grid.pushScrollback line).scrollback := pushed
    obtain ⟨-, none⟩ | ⟨grown, room⟩ | ⟨full, oldest, rest, older, newer⟩ :=
      pushScrollback_cases identified.bounded line
    · have := identified.bounded
      omega
    · have none : loses w.grid = 0 := if_neg (by omega)
      refine ⟨?_, old, ahead, before, ?_, ?_⟩
      · rw [history, grown, List.length_append]
        omega
      · rw [history, grown, List.map_append, List.head?_append, now]
        rfl
      · rwa [Watched.step, none]
    · have length := congrArg List.length older
      rw [List.length_cons] at length
      have one : loses w.grid = 1 := if_pos ⟨tall, by omega, full⟩
      obtain ⟨next, second, later⟩ := steady tall full oldest (by rw [older]; rfl)
      have here : oldest.id = old + ahead := by
        rw [older] at now
        exact Option.some.inj now
      have there : (rest ++ [line]).head?.map Line.id = some next := by
        rw [← second, ← firstLineId_of_eviction older top (pushed.trans newer), ← newer, ← pushed]
        exact (firstLineId_of_history (by rw [pushed, newer]; simp)).symm
      refine ⟨?_, old, next - old, before, ?_, ?_⟩
      · rw [history, newer, List.length_append, List.length_singleton]
        omega
      · rw [history, newer, List.head?_map, there]
        exact congrArg some (by omega)
      · rw [Watched.step, one]
        dsimp only
        omega
  · obtain ⟨none, same⟩ := scrollUp_flat rowed tall blank
    rwa [Watched.step, none, same]

theorem Counted.sync (counted : Counted w) : Counted (w.step .sync) := by
  refine counted_start (by rw [Watched.step, syncHistory_eq]) rfl fun frozen' held' => ?_
  cases held : w.copy.frozen with
  | none =>
    rw [Watched.step, syncHistory_eq] at held'
    change frozen' ∈ w.copy.frozen.map _ at held'
    rw [held] at held'
    nomatch held'
  | some frozen =>
    obtain rfl := Option.some.inj ((syncHistory_frozen (g := w.grid) held).symm.trans held')
    obtain top | below := Nat.eq_zero_or_pos frozen.start
    · rw [top, Nat.zero_sub]
      exact Nat.zero_le _
    · exact (Nat.sub_le ..).trans (counted frozen held below).inside

/-- While every eviction finds consecutive ids, the ids tell what was lost. -/
theorem exact_of_steady {u : Unicode} (reached : Reached u w.grid) (counted : Counted w) {steps : List LiveStep}
    (steady : SteadySteps w steps) : AtSyncs Exact w steps := by
  induction steps generalizing w with
  | nil => trivial
  | cons step rest ih =>
    cases step with
    | sync => exact ⟨counted.exact, ih (w := w.step .sync) reached counted.sync steady⟩
    | set x y cell =>
      exact ih (w := w.step (.set x y cell)) (reached.step (Output.run_step u _ (.set x y cell)))
        (counted.same (set_sameIds ..)) steady
    | setGrapheme x y text cell width =>
      exact ih (w := w.step (.setGrapheme x y text cell width))
        (reached.step (.op .release (.setGrapheme x y text cell width) trivial rfl))
        (counted.same (setGrapheme_sameIds ..)) steady
    | scrollUp blank =>
      exact ih (w := w.step (.scrollUp blank)) (reached.step (Output.run_step u _ (.scrollUp blank)))
        (counted.scrollUp reached.identified reached.presentable.toRowed steady.1) steady.2

/-- The lines that can be addressed, where every eviction finds consecutive ids. -/
theorem totalLines_steady {u : Unicode} (reached : Reached u w.grid) (first : w.copy.firstLineId = w.grid.firstLineId)
    (fresh : w.lost = 0) (held : w.copy.frozen = some frozen) (history : frozen.start ≤ w.grid.scrollback.length)
    {steps : List LiveStep} (steady : SteadySteps w (steps ++ [.sync])) :
    (w.run (steps ++ [.sync])).copy.totalLines (w.run (steps ++ [.sync])).grid =
      (stillHeld (w.grid.scrollback.take frozen.start) (w.run (steps ++ [.sync])).grid).length + frozen.rows.height := by
  refine totalLines_exact reached fresh held history (exact_of_steady reached (counted_start first fresh ?_) steady)
  intro other same
  obtain rfl := Option.some.inj (held.symm.trans same)
  exact history

end Steadiness

section Witnesses

/-- A screen of three rows over a full history of two lines. -/
def pagedGrid : Grid :=
  ((((Grid.new 1 3).setScrollbackLimit 2).scrollUp {}).scrollUp {}).set 0 0 { ch := 'a' } |>.set 0 1 { ch := 'b' }

private theorem pagedGrid_reached (u : Unicode) : Reached u pagedGrid := by
  have start : Reached u ((Grid.new 1 3).setScrollbackLimit 2) := (Reached.new 1 3).step (.setScrollbackLimit ..)
  have scrolled := (start.step (Output.run_step u _ (.scrollUp {}))).step (Output.run_step u _ (.scrollUp {}))
  exact (scrolled.step (Output.run_step u _ (.set 0 0 { ch := 'a' }))).step
    (Output.run_step u _ (.set 0 1 { ch := 'b' }))

/-- A selection that begins at the first screen row, frozen there, and the viewport scrolled up. -/
def pagedCopy (lines : ℤ) : Option CopyState := do
  let s ← ((CopyState.new pagedGrid ⟨0, 0, 1, 3⟩).setFreezeOnSelect true).mouseAnchor pagedGrid ⟨0, 0, 1, 3⟩ 0 0
  some ((s.mouseDrag ⟨0, 0, 1, 3⟩ 0 2).scroll pagedGrid lines).1

/-- What is known of copy-mode there. -/
theorem pagedCopy_made (lines : ℤ) (top maxTop : ℕ) (some : (pagedCopy lines).isSome)
    (known : (pagedCopy lines).map (fun s => ([s.top, s.cy, s.height, s.maxTop pagedGrid], s.anchor, s.firstLineId,
      s.frozen.map fun frozen => (frozen.start, frozen.rows.height))) =
        .some ([top, 2, 3, maxTop], .some (2, 0), .some 1, .some (2, 3))) :
    ∃ s frozen, pagedCopy lines = .some s ∧ s.frozen = .some frozen ∧ frozen.start = 2 ∧ frozen.rows.height = 3 ∧
      s.top = top ∧ s.cy = 2 ∧ s.height = 3 ∧ s.anchor = .some (2, 0) ∧ s.firstLineId = .some 1 ∧
        s.maxTop pagedGrid = maxTop := by
  obtain ⟨s, made⟩ := Option.isSome_iff_exists.mp some
  rw [made, Option.map_some, Option.some.injEq] at known
  simp only [Prod.mk.injEq, List.cons.injEq, and_true] at known
  obtain ⟨⟨top, cy, height, maxTop⟩, anchor, first, frozen⟩ := known
  obtain ⟨frozen, held, sizes⟩ := Option.map_eq_some_iff.mp frozen
  rw [Prod.mk.injEq] at sizes
  exact ⟨s, frozen, made, held, sizes.1, sizes.2, top, cy, height, anchor, first, maxTop⟩

/-- One line scrolled up, one line of history lost. -/
theorem frozen_constant_paged : ∃ s frozen, pagedCopy (-1) = some s ∧ s.frozen = some frozen ∧
    let w := Watched.run ⟨pagedGrid, s, 0⟩ [.scrollUp {}, .sync]
    w.copy.yank w.grid = s.yank pagedGrid ∧ w.copy.totalLines w.grid =
      (stillHeld (pagedGrid.scrollback.take frozen.start) w.grid).length + frozen.rows.height := by
  obtain ⟨s, frozen, made, held, start, rows, top, cy, height, anchor, first, maxTop⟩ :=
    pagedCopy_made (-1) 1 2 (by decide +kernel) (by decide +kernel)
  have history : pagedGrid.scrollback.length = 2 := by decide +kernel
  have next : (pagedGrid.scrollUp {}).firstLineId = some 2 := by decide +kernel
  have loses_one : loses pagedGrid = 1 := by decide +kernel
  have constant := frozen_constant (pagedGrid_reached plainUnicode) (w := ⟨pagedGrid, s, 0⟩) rfl held
    (by dsimp only; omega) anchor (by omega) (by dsimp only [CopyState.cursorLine]; omega)
  have same : s.maxTop (pagedGrid.scrollUp {}) = s.maxTop pagedGrid := by
    rw [CopyState.maxTop, CopyState.maxTop, CopyState.totalLines, CopyState.totalLines, held]
  refine ⟨s, frozen, made, held, (constant [.scrollUp {}, .sync]).1 ⟨⟨?_, ?_, fun frozen' held' => .inr ?_⟩, trivial⟩,
    (constant [.scrollUp {}]).2 ⟨fun frozen' held' => ?_, trivial⟩⟩
  · change s.cy < s.height
    omega
  · change s.top ≤ s.maxTop (pagedGrid.scrollUp {})
    omega
  · change idGap s.firstLineId (pagedGrid.scrollUp {}).firstLineId ≤ s.top
    rw [first, next, top]
    decide
  · change frozen'.start - idGap s.firstLineId (pagedGrid.scrollUp {}).firstLineId = frozen'.start - (0 + loses pagedGrid)
    rw [first, next, loses_one]
    rfl

/-- The viewport begins at the oldest line, which is lost: the cursor's row goes up by one and the anchor's stays. -/
theorem not_frozen_constant_of_top : ¬ ∀ (u : Unicode) (w : Watched) (frozen : FrozenScreen) (a x : ℕ)
    (steps : List LiveStep), Reached u w.grid → w.copy.frozen = some frozen →
      w.copy.firstLineId = w.grid.firstLineId → frozen.start ≤ w.grid.scrollback.length →
        w.copy.cy < w.copy.height → w.copy.top ≤ w.copy.maxTop w.grid → w.copy.anchor = some (a, x) →
          frozen.start ≤ a ∧ a < frozen.start + frozen.rows.height →
            frozen.start ≤ w.copy.cursorLine ∧ w.copy.cursorLine < frozen.start + frozen.rows.height →
              (w.run steps).copy.yank (w.run steps).grid = w.copy.yank w.grid := by
  intro claimed
  obtain ⟨s, frozen, made, held, start, rows, top, cy, height, anchor, first, maxTop⟩ :=
    pagedCopy_made (-2) 0 2 (by decide +kernel) (by decide +kernel)
  have history : pagedGrid.scrollback.length = 2 := by decide +kernel
  have oldest : pagedGrid.firstLineId = some 1 := by decide +kernel
  have line : s.cursorLine = 2 := by rw [CopyState.cursorLine, top, cy]
  have same := claimed plainUnicode ⟨pagedGrid, s, 0⟩ frozen 2 0 [.scrollUp {}, .sync] (pagedGrid_reached _) held
    (first.trans oldest.symm) (by dsimp only; omega) (by dsimp only; omega) (by dsimp only; omega) anchor (by omega)
    (by dsimp only; omega)
  have selected : (pagedCopy (-2)).map (fun s => (s.yank pagedGrid,
      (s.syncHistory (pagedGrid.scrollUp {})).yank (pagedGrid.scrollUp {}))) = some (['a'], ['a', '\n', 'b']) := by
    decide +kernel
  rw [made, Option.map_some, Option.some.injEq, Prod.mk.injEq] at selected
  have differ : (s.syncHistory (pagedGrid.scrollUp {})).yank (pagedGrid.scrollUp {}) = s.yank pagedGrid := same
  rw [selected.1, selected.2] at differ
  exact absurd differ (by decide)

end Witnesses

end Uniterm.Model.Server
