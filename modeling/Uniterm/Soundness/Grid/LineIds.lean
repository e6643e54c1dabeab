import Mathlib.Data.List.Perm.Basic
import Mathlib.Data.List.Perm.Subperm
import Uniterm.Soundness.Grid.Reached

/-! # The ids of the retained lines

A line gets its id when it is made and keeps it while it is retained. Every id is given once: whatever is done to a
grid, the ids of its lines are distinct and below the id that comes next.
-/

namespace Uniterm.Model.Grid

open ToMathlib Machine

/-- The ids of history and screen, from the oldest line on. -/
def lineIds (g : Grid) : List ℕ := g.scrollback.map Line.id ++ g.lines.map Line.id

/-- The lines are told apart by their ids, and the history keeps to its limit. -/
structure Identified (g : Grid) : Prop where
  distinct : g.lineIds.Nodup
  below : ∀ id ∈ g.lineIds, id < g.nextLineId
  bounded : g.scrollback.length ≤ g.scrollbackLimit

/-- The same lines by their ids, whatever is in their cells. -/
structure SameIds (g g' : Grid) : Prop where
  history : g'.scrollback.map Line.id = g.scrollback.map Line.id
  screen : g'.lines.map Line.id = g.lines.map Line.id
  next : g'.nextLineId = g.nextLineId
  limit : g'.scrollbackLimit = g.scrollbackLimit

variable {g g' g'' : Grid}

theorem SameIds.refl (g : Grid) : SameIds g g := ⟨rfl, rfl, rfl, rfl⟩

theorem SameIds.trans (first : SameIds g g') (second : SameIds g' g'') : SameIds g g'' :=
  ⟨second.history.trans first.history, second.screen.trans first.screen, second.next.trans first.next,
    second.limit.trans first.limit⟩

theorem SameIds.history_length (same : SameIds g g') : g'.scrollback.length = g.scrollback.length := by
  simpa only [List.length_map] using congrArg List.length same.history

theorem SameIds.identified (same : SameIds g g') (identified : Identified g) : Identified g' where
  distinct := by
    rw [lineIds, same.history, same.screen]
    exact identified.distinct
  below id member := by
    rw [lineIds, same.history, same.screen] at member
    rw [same.next]
    exact identified.below id member
  bounded := by
    rw [same.history_length, same.limit]
    exact identified.bounded

/-- Some of the lines are kept, in any order, and some new ones take the ids that come next. -/
theorem Identified.renew (identified : Identified g) (count : ℕ) (next : g'.nextLineId = g.nextLineId + count)
    (ids : g'.lineIds.Subperm (g.lineIds ++ List.range' g.nextLineId count))
    (bounded : g'.scrollback.length ≤ g'.scrollbackLimit) : Identified g' := by
  have fresh : (g.lineIds ++ List.range' g.nextLineId count).Nodup := by
    refine List.nodup_append.mpr ⟨identified.distinct, List.nodup_range', fun id old other new same => ?_⟩
    have early := identified.below id old
    have late := (List.mem_range'_1.mp new).1
    omega
  refine ⟨?_, fun id member => ?_, bounded⟩
  · obtain ⟨kept, reordered, sublist⟩ := ids
    exact reordered.nodup_iff.mp (fresh.sublist sublist)
  · rw [next]
    obtain old | new := List.mem_append.mp (ids.subset member)
    · have := identified.below id old
      omega
    · have := (List.mem_range'_1.mp new).2
      omega

section Cells

private theorem ids_modify {f : Line → Line} (same : ∀ line, (f line).id = line.id) (lines : List Line) (y : ℕ) :
    (lines.modify y f).map Line.id = lines.map Line.id := by
  refine List.ext_getElem? fun i => ?_
  rw [List.getElem?_map, List.getElem?_map, List.getElem?_modify]
  cases lines[i]? with
  | none => rfl
  | some line =>
    split
    · exact congrArg some (same line)
    · rfl

theorem set_sameIds (g : Grid) (x y : ℕ) (cell : Cell) : SameIds g (g.set x y cell) := by
  unfold Grid.set
  split
  · exact .refl g
  split
  · exact .refl g
  · exact ⟨rfl, ids_modify (f := fun line => { line with cells := line.cells.set x cell }) (fun _ => rfl) _ y, rfl, rfl⟩

private theorem rewrites_sameIds {y : ℕ} {blank : Cell} (rewrites : Rewrites y blank g g') : SameIds g g' :=
  rewrites.keeps (SameIds g) (fun _ x held => held.trans (set_sameIds _ x y blank))
    (fun _ x _ held => held.trans (set_sameIds _ x y _)) (.refl g)

private theorem rewriteCells_ids {σ : Type} (f : σ → Cell → σ × Cell) (s : σ) (lines : List Line) :
    (rewriteCells f s lines).2.map Line.id = lines.map Line.id := by
  unfold rewriteCells
  induction lines generalizing s with
  | nil => rfl
  | cons line lines ih =>
    rw [mapAccum, List.map_cons, List.map_cons, ih]

/-- Renumbering the handles of all cells keeps the lines. -/
theorem rewritten_sameIds {σ : Type} (f : σ → Cell → σ × Cell) (s : σ) (next : g'.nextLineId = g.nextLineId)
    (limit : g'.scrollbackLimit = g.scrollbackLimit)
    (history : g'.scrollback = (rewriteCells f s (g.scrollback ++ g.lines)).2.take g.scrollback.length)
    (screen : g'.lines = (rewriteCells f s (g.scrollback ++ g.lines)).2.drop g.scrollback.length) : SameIds g g' where
  history := by
    rw [history, List.map_take, rewriteCells_ids, List.map_append, ← List.length_map Line.id, List.take_left]
  screen := by
    rw [screen, List.map_drop, rewriteCells_ids, List.map_append, ← List.length_map Line.id, List.drop_left]
  next := next
  limit := limit

private theorem intern_sameIds (g : Grid) (text : Text) : SameIds g (g.intern text).1 := by
  rcases intern_cases g text with ⟨handle, interned⟩ | interned | ⟨-, interned⟩
  · rw [interned]
    exact .refl g
  · rw [interned]
    exact ⟨rfl, rfl, rfl, rfl⟩
  · rw [interned]
    exact rewritten_sameIds (compactClusterCell g.clusters) [[]] rfl rfl rfl rfl

private theorem internUnderlineColor_sameIds (g : Grid) (color : Color) :
    SameIds g (g.internUnderlineColor color).1 := by
  have compacted : SameIds g g.compactUnderlineColors :=
    rewritten_sameIds (compactUnderlineCell g.underlineColors) [.default] rfl rfl rfl rfl
  obtain ⟨roomy, same | same, ⟨handle, -, done⟩ | done | done⟩ := g.internUnderlineColor_cases color
  · rw [done, same]
    exact .refl g
  · rw [done, same]
    exact .refl g
  · rw [done, same]
    exact ⟨rfl, rfl, rfl, rfl⟩
  · rw [done, same]
    exact compacted
  · rw [done, same]
    exact compacted
  · rw [done, same]
    exact compacted.trans ⟨rfl, rfl, rfl, rfl⟩

private theorem internHyperlink_sameIds (g : Grid) (uri : Text) : SameIds g (g.internHyperlink uri).1 := by
  unfold internHyperlink
  split
  · exact .refl g
  split
  · exact .refl g
  · dsimp only
    split <;> exact ⟨rfl, rfl, rfl, rfl⟩

theorem setGrapheme_sameIds (g : Grid) (x y : ℕ) (text : Text) (cell : Cell) (width : ℕ) :
    SameIds g (g.setGrapheme x y text cell width) := by
  have written (g : Grid) (lead : Cell) : SameIds g (g.writeGlyph x y lead) := by
    unfold writeGlyph
    dsimp only
    split
    · exact (set_sameIds ..).trans (set_sameIds ..)
    · exact set_sameIds ..
  unfold Grid.setGrapheme
  dsimp only
  split
  · exact .refl g
  split
  · exact .refl g
  have cleared := rewrites_sameIds
    (clearColumns_rewrites g x y (max 1 (min width 2)) { fg := cell.fg, bg := cell.bg })
  refine (cleared.trans ?_).trans (written _ _)
  unfold textHandle
  split
  · exact intern_sameIds ..
  · exact .refl _

private theorem appendToGrapheme_sameIds (u : Unicode) (g : Grid) (x y : ℕ) (ch : Char) :
    SameIds g (g.appendToGrapheme u x y ch).1 := by
  unfold Grid.appendToGrapheme
  dsimp only
  generalize (if (g.get x y).isContinuation = true ∧ x > 0 then x - 1 else x) = leadX
  split
  · exact .refl g
  split
  · exact setGrapheme_sameIds ..
  · exact .refl g

private theorem markRowsDamaged_sameIds (g : Grid) (top bottom : ℕ) : SameIds g (g.markRowsDamaged top bottom) := by
  rw [markRowsDamaged_frame]
  exact ⟨rfl, rfl, rfl, rfl⟩

private theorem markAllDamaged_sameIds (g : Grid) : SameIds g g.markAllDamaged := by
  rw [markAllDamaged_frame]
  exact ⟨rfl, rfl, rfl, rfl⟩

end Cells

section Scrolls

@[simp] theorem blank_id (width : ℕ) (cell : Cell) (id : ℕ) : (Line.blank width cell id).id = id := rfl

@[simp] theorem trimDefaultTail_id (line : Line) : line.trimDefaultTail.id = line.id := by
  unfold Line.trimDefaultTail
  split <;> rfl

private theorem keepNewest_sublist (limit : ℕ) (history : List Line) : (keepNewest limit history).Sublist history :=
  List.drop_sublist ..

theorem pushScrollback_sublist (g : Grid) (line : Line) :
    ((g.pushScrollback line).scrollback).Sublist (g.scrollback ++ [line]) := by
  unfold pushScrollback
  split
  · exact List.sublist_append_left ..
  · exact keepNewest_sublist ..

theorem Identified.scrollUp (identified : Identified g) (blank : Cell) : Identified (g.scrollUp blank) := by
  cases lines : g.lines with
  | nil =>
    rw [Grid.scrollUp, lines]
    exact identified
  | cons departing rest =>
    rw [scrollUp_eq blank lines]
    refine (markRowsDamaged_sameIds ..).identified (identified.renew 1 rfl (List.Sublist.subperm ?_) ?_)
    · simp only [lineIds, lines, List.map_append, List.map_cons, List.map_nil, List.range'_one]
      have pushed := (g.pushScrollback_sublist departing.trimDefaultTail).map Line.id
      rw [List.map_append, List.map_cons, List.map_nil, trimDefaultTail_id] at pushed
      simpa only [List.append_assoc, List.cons_append, List.nil_append, blank_id] using
        pushed.append (List.Sublist.refl (rest.map Line.id ++ [g.nextLineId]))
    · exact length_pushScrollback identified.bounded

/-- The history after a region scroll. -/
def regionHistory (g : Grid) (top : ℕ) (preserveHistory : Bool) : List Line :=
  if preserveHistory then (g.lines[top]?.map fun line => (g.pushScrollback line).scrollback).getD g.scrollback
  else g.scrollback

/-- A region scroll that is not a scroll of the whole screen. -/
theorem scrollRegionUpInner_region {top bottom : ℕ} {preserve : Bool} (ordered : top ≤ bottom)
    (inside : bottom < g.height) (region : ¬ (preserve ∧ top = 0 ∧ bottom = g.height - 1)) (blank : Cell) :
    g.scrollRegionUpInner top bottom blank preserve =
      g.regionScrolled (g.regionHistory top preserve) top bottom blank top bottom := by
  unfold scrollRegionUpInner regionHistory
  rw [if_neg (by omega), if_neg region]
  cases preserve with
  | false => rfl
  | true =>
    cases g.lines[top]? with
    | none => rfl
    | some departing =>
      unfold pushScrollback regionScrolled allocLineId
      simp only [↓reduceIte, Option.map_some, Option.getD_some]
      split <;> rfl

/-- The lines of a grid after a region scroll, as far as one of them went into the history. -/
theorem Identified.regionScrolled (identified : Identified g) {history : List Line} {out into : ℕ} (blank : Cell)
    (leaves : out < g.lines.length) (enters : into < g.lines.length)
    (kept : history.Sublist g.scrollback ∨ history.Sublist (g.scrollback ++ [g.lines[out]]))
    (bounded : history.length ≤ g.scrollbackLimit) (top bottom : ℕ) :
    Identified (g.regionScrolled history out into blank top bottom) := by
  refine (markRowsDamaged_sameIds ..).identified (identified.renew 1 rfl ?_ bounded)
  have history_kept : history.Sublist (g.scrollback ++ [g.lines[out]]) :=
    kept.elim (fun old => old.trans (List.sublist_append_left ..)) id
  have erased : (g.lines.eraseIdx out).length = g.lines.length - 1 := List.length_eraseIdx_of_lt leaves
  have screen : ((g.lines.eraseIdx out).insertIdx into (Line.blank g.width blank g.nextLineId)).Perm
      (Line.blank g.width blank g.nextLineId :: g.lines.eraseIdx out) := List.perm_insertIdx _ _ (by omega)
  have whole : (g.scrollback ++ [g.lines[out]] ++ Line.blank g.width blank g.nextLineId :: g.lines.eraseIdx out).Perm
      (g.scrollback ++ g.lines ++ [Line.blank g.width blank g.nextLineId]) := by
    rw [List.append_assoc, List.append_assoc, List.singleton_append]
    refine List.Perm.append_left _ (.trans (.swap ..) (.trans (.cons _ (List.getElem_cons_eraseIdx_perm leaves)) ?_))
    exact (List.perm_append_singleton ..).symm
  obtain ⟨lines, reordered, sublist⟩ := (history_kept.subperm.append screen.subperm).trans whole.subperm
  refine ⟨lines.map Line.id, ?_, ?_⟩
  · simpa only [lineIds, List.map_append] using reordered.map Line.id
  · simpa only [lineIds, List.map_append, List.map_cons, List.map_nil, List.range'_one, blank_id] using
      sublist.map Line.id

private theorem regionHistory_kept (g : Grid) {top : ℕ} (inside : top < g.lines.length) (preserve : Bool) :
    (g.regionHistory top preserve).Sublist (g.scrollback ++ [g.lines[top]]) := by
  unfold regionHistory
  rw [List.getElem?_eq_getElem inside, Option.map_some, Option.getD_some]
  split
  · exact g.pushScrollback_sublist _
  · exact List.sublist_append_left ..

private theorem regionHistory_bounded (bounded : g.scrollback.length ≤ g.scrollbackLimit) (top : ℕ) (preserve : Bool) :
    (g.regionHistory top preserve).length ≤ g.scrollbackLimit := by
  unfold regionHistory
  cases g.lines[top]? with
  | none => simpa using bounded
  | some line =>
    rw [Option.map_some, Option.getD_some]
    split
    · exact length_pushScrollback bounded
    · exact bounded

theorem Identified.scrollRegionUpInner (identified : Identified g) (rowed : Rowed g) (top bottom : ℕ) (blank : Cell)
    (preserve : Bool) : Identified (g.scrollRegionUpInner top bottom blank preserve) := by
  have total := rowed.lines_length
  by_cases inside : top ≤ bottom ∧ bottom < g.height
  · by_cases whole : preserve ∧ top = 0 ∧ bottom = g.height - 1
    · unfold Grid.scrollRegionUpInner
      rw [if_neg (by omega), if_pos whole]
      exact identified.scrollUp blank
    · rw [scrollRegionUpInner_region inside.1 inside.2 whole]
      exact identified.regionScrolled blank (by omega) (by omega) (.inr (g.regionHistory_kept (by omega) preserve))
        (regionHistory_bounded identified.bounded top preserve) top bottom
  · unfold Grid.scrollRegionUpInner
    rw [if_pos (by omega)]
    exact identified

theorem Identified.scrollRegionDown (identified : Identified g) (rowed : Rowed g) (top bottom : ℕ) (blank : Cell) :
    Identified (g.scrollRegionDown top bottom blank) := by
  have total := rowed.lines_length
  obtain ⟨-, same⟩ | ⟨ordered, inside, same⟩ := g.scrollRegionDown_cases top bottom blank
  · rw [same]
    exact identified
  · rw [same]
    exact identified.regionScrolled blank (by omega) (by omega) (.inl (.refl _)) identified.bounded top bottom

end Scrolls

section Resizing

private theorem ids_blankLines (width firstId count : ℕ) (blank : Cell) :
    (blankLines width blank firstId count).map Line.id = List.range' firstId count := by
  rw [blankLines, List.map_map, List.range'_eq_map_range]
  rfl

theorem Identified.growHeight (identified : Identified g) (height : ℕ) (blank : Cell) :
    Identified (g.growHeight height blank) := by
  unfold Grid.growHeight
  refine (markAllDamaged_sameIds _).identified
    (identified.renew (height - g.lines.length) rfl (List.Perm.subperm ?_) identified.bounded)
  simp only [lineIds, List.map_append, ids_blankLines, List.append_assoc]
  exact .refl _

theorem Identified.shrinkHeight (identified : Identified g) (height : ℕ) : Identified (g.shrinkHeight height) := by
  unfold Grid.shrinkHeight
  obtain ⟨history, folded, -, newest⟩ := foldl_pushScrollback (g.lines.take (g.height - height))
    { g with lines := g.lines.drop (g.height - height) }
  have kept := newest identified.bounded
  dsimp only at kept ⊢
  rw [folded]
  refine (markAllDamaged_sameIds _).identified (identified.renew 0 rfl (List.Sublist.subperm ?_) ?_)
  · have trimmed := (keepNewest_sublist g.scrollbackLimit (g.scrollback ++
      (g.lines.take (g.height - height)).map Line.trimDefaultTail)).map Line.id
    have ids : Line.id ∘ Line.trimDefaultTail = Line.id := funext trimDefaultTail_id
    rw [← kept, List.map_append, List.map_map, ids] at trimmed
    have screen := congrArg (List.map Line.id) (List.take_append_drop (g.height - height) g.lines)
    rw [List.map_append] at screen
    rw [lineIds, lineIds, List.range'_zero, List.append_nil, ← screen, ← List.append_assoc]
    exact trimmed.append (.refl _)
  · dsimp only
    rw [kept, keepNewest, List.length_drop]
    omega

/-- Rows with consecutive ids, and the id that comes next. -/
def Consecutive (firstId : ℕ) (rows : List Line) (nextLineId : ℕ) : Prop :=
  ∃ count, rows.map Line.id = List.range' firstId count ∧ nextLineId = firstId + count

variable {firstId nextLineId : ℕ} {rows : List Line}

theorem Consecutive.add (consecutive : Consecutive firstId rows nextLineId) {line : Line} (id : line.id = nextLineId) :
    Consecutive firstId (rows ++ [line]) (nextLineId + 1) := by
  obtain ⟨count, ids, rfl⟩ := consecutive
  refine ⟨count + 1, ?_, rfl⟩
  rw [List.map_append, ids, List.map_cons, List.map_nil, id, List.range'_concat, Nat.one_mul]

private theorem emitLead_consecutive (u : Unicode) (g : Grid) (width : ℕ) {e : Emission}
    (consecutive : Consecutive firstId e.physical e.nextLineId) (lead : Cell) :
    Consecutive firstId (emitLead u g width e lead).physical (emitLead u g width e lead).nextLineId := by
  unfold emitLead
  dsimp only
  split
  · exact consecutive.add rfl
  · exact consecutive

private theorem emitLogicalLine_consecutive (u : Unicode) (g : Grid) (width : ℕ) (leads : List Cell)
    (consecutive : Consecutive firstId rows nextLineId) :
    Consecutive firstId (emitLogicalLine u g width leads rows nextLineId).1
      (emitLogicalLine u g width leads rows nextLineId).2.1 := by
  have folded (e : Emission) (held : Consecutive firstId e.physical e.nextLineId) :
      Consecutive firstId (leads.foldl (emitLead u g width) e).physical
        (leads.foldl (emitLead u g width) e).nextLineId := by
    induction leads generalizing e with
    | nil => exact held
    | cons lead rest ih => exact ih _ (emitLead_consecutive u g width held lead)
  exact (folded { physical := rows, nextLineId } consecutive).add rfl

private theorem emitAll_consecutive (u : Unicode) (g : Grid) (width : ℕ) (logical : List (List Cell))
    (consecutive : Consecutive firstId rows nextLineId) :
    Consecutive firstId (emitAll u g width logical (rows, nextLineId)).1
      (emitAll u g width logical (rows, nextLineId)).2 := by
  induction logical generalizing rows nextLineId with
  | nil => exact consecutive
  | cons leads rest ih => exact ih (emitLogicalLine_consecutive u g width leads consecutive)

private theorem growViewport_rows (width height : ℕ) (blank : Cell) (physical : List Line)
    (nextLineId cursorGlobal start : ℕ) :
    let v := growViewport width height blank physical nextLineId cursorGlobal start
    ∃ kept missing, List.Sublist kept physical ∧ v.physical = kept ++ blankLines width blank nextLineId missing ∧
      v.nextLineId = nextLineId + missing := by
  unfold growViewport
  dsimp only
  split
  · exact ⟨_, _, List.take_sublist .., rfl, rfl⟩
  · exact ⟨_, _, .refl _, rfl, rfl⟩

/-- A viewport has the recut rows that it keeps, and blank ones with later ids. -/
theorem reflowViewport_ids (u : Unicode) (g : Grid) (width height : ℕ) (blank : Cell) (cursor : ℕ × ℕ)
    (pending : Bool) :
    let v := reflowViewport u g width height blank cursor pending
    ∃ count, v.nextLineId = g.nextLineId + count ∧
      (v.physical.map Line.id).Subperm (List.range' g.nextLineId count) := by
  have recut : Consecutive g.nextLineId (reflowLines u g width cursor).physical
      (reflowLines u g width cursor).nextLineId := by
    have rows := reflowLines_rows u g width cursor
    rw [Prod.mk.injEq] at rows
    rw [rows.1, rows.2]
    exact emitAll_consecutive u g width g.logicalLines ⟨0, rfl, rfl⟩
  obtain ⟨count, ids, next⟩ := recut
  have extended (missing : ℕ) : List.range' g.nextLineId (count + missing) =
      List.range' g.nextLineId count ++ List.range' (g.nextLineId + count) missing := by
    rw [← List.range'_append, Nat.one_mul]
  unfold reflowViewport
  dsimp only
  split
  · obtain ⟨kept, missing, sublist, rows, following⟩ := growViewport_rows width height blank
      (reflowLines u g width cursor).physical (reflowLines u g width cursor).nextLineId
      ((reflowLines u g width cursor).anchors.cursorSpan.1 +
        min (mapCursor width (reflowLines u g width cursor).cursorOffset pending).1
          ((reflowLines u g width cursor).anchors.cursorSpan.2 - 1))
      ((reflowLines u g width cursor).anchors.screenSpan.1 +
        min ((reflowLines u g width cursor).screenOffset / width)
          ((reflowLines u g width cursor).anchors.screenSpan.2 - 1))
    refine ⟨count + missing, by rw [following, next, Nat.add_assoc], List.Sublist.subperm ?_⟩
    rw [rows, extended, List.map_append, ids_blankLines, next]
    exact List.Sublist.append (ids ▸ sublist.map Line.id) (.refl _)
  · unfold shrinkViewport
    dsimp only
    rw [next]
    refine ⟨count + (height - (reflowLines u g width cursor).physical.length), by rw [Nat.add_assoc], ?_⟩
    rw [extended, List.map_append, List.map_reverse, ids_blankLines, ids]
    exact (List.Perm.trans (.append_right _ (List.reverse_perm _)) List.perm_append_comm).subperm

theorem Identified.install (identified : Identified g) (width height : ℕ) {v : Viewport} {count : ℕ}
    (next : v.nextLineId = g.nextLineId + count)
    (ids : (v.physical.map Line.id).Subperm (List.range' g.nextLineId count)) :
    Identified (g.install width height v) := by
  refine identified.renew count (by rw [install_frame]; exact next) ?_ ?_
  · have padded : Line.id ∘ (fun line : Line =>
        if line.cells.length < width then { line with cells := resizeCells width line.cells } else line) = Line.id :=
      funext fun line => by
        rw [Function.comp_apply]
        split <;> rfl
    have screen : v.physical.drop v.screenStart = (v.physical.drop (v.screenStart - g.scrollbackLimit)).drop
        (v.screenStart - (v.screenStart - g.scrollbackLimit)) := by
      rw [List.drop_drop]
      congr 1
      omega
    rw [lineIds, install_lines, install_scrollback, List.map_map, padded, screen, ← List.map_append,
      List.take_append_drop]
    exact (((List.drop_sublist ..).map Line.id).subperm.trans ids).trans (List.sublist_append_right ..).subperm
  · rw [install_frame]
    dsimp only
    rw [install_scrollback, List.length_take]
    omega

theorem Identified.resizeReflow (u : Unicode) (identified : Identified g) (width height : ℕ) (blank : Cell)
    (cursor : ℕ × ℕ) (pending : Bool) : Identified (g.resizeReflow u width height blank cursor pending).1 := by
  unfold Grid.resizeReflow
  dsimp only
  split
  · exact identified
  split
  · exact identified.growHeight ..
  split
  · exact identified.shrinkHeight _
  · rw [reflowWidth_grid]
    obtain ⟨count, next, ids⟩ := reflowViewport_ids u g (max width 1) (max height 1) blank cursor pending
    exact identified.install _ _ next ids

end Resizing

section Loading

private theorem setStoredOnLine_sameIds (g : Grid) (line : Line) (x : ℕ) (saved : StoredCell) (cell : Cell) :
    SameIds g (g.setStoredOnLine line x saved cell).1 ∧ (g.setStoredOnLine line x saved cell).2.id = line.id := by
  unfold setStoredOnLine
  split
  · exact ⟨.refl g, rfl⟩
  · dsimp only
    split
    · exact ⟨intern_sameIds .., rfl⟩
    · exact ⟨.refl g, rfl⟩

private theorem placeStored_sameIds (state : Grid × Line) (entry : StoredCell × ℕ) :
    SameIds state.1 (placeStored state entry).1 ∧ (placeStored state entry).2.id = state.2.id := by
  unfold placeStored
  dsimp only
  split
  · exact ⟨.refl _, rfl⟩
  · obtain ⟨same, id⟩ := setStoredOnLine_sameIds (state.1.internUnderlineColor entry.1.underlineColor).1 state.2 entry.2
      entry.1 { ch := entry.1.text.head?.getD ' ', fg := entry.1.fg, bg := entry.1.bg, attrs := entry.1.attrs
                underlineColor := (state.1.internUnderlineColor entry.1.underlineColor).2, width := max entry.1.width 1 }
    exact ⟨(internUnderlineColor_sameIds ..).trans same, id⟩

private theorem lineFromStored_ids (g : Grid) (stored : StoredLine) :
    SameIds g.allocLineId.1 (g.lineFromStored stored).1 ∧ (g.lineFromStored stored).2.id = g.nextLineId := by
  have placed (entries : List (StoredCell × ℕ)) (state : Grid × Line) :
      SameIds state.1 (entries.foldl placeStored state).1 ∧ (entries.foldl placeStored state).2.id = state.2.id := by
    induction entries generalizing state with
    | nil => exact ⟨.refl _, rfl⟩
    | cons entry rest ih =>
      obtain ⟨same, id⟩ := placeStored_sameIds state entry
      obtain ⟨same', id'⟩ := ih (placeStored state entry)
      exact ⟨same.trans same', id'.trans id⟩
  exact placed (stored.cells.take g.width).zipIdx
    (g.allocLineId.1, { Line.blank g.width {} g.nextLineId with wrapped := stored.wrapped })

/-- A loaded line comes at the end of the history and has the next id. -/
theorem loadLine_ids (g : Grid) (stored : StoredLine) :
    (g.loadLine stored).scrollback.map Line.id = g.scrollback.map Line.id ++ [g.nextLineId] ∧
      (g.loadLine stored).lines.map Line.id = g.lines.map Line.id ∧
        (g.loadLine stored).nextLineId = g.nextLineId + 1 ∧
          (g.loadLine stored).scrollbackLimit = g.scrollbackLimit := by
  obtain ⟨same, id⟩ := g.lineFromStored_ids stored
  refine ⟨?_, same.screen, same.next, same.limit⟩
  rw [loadLine, List.map_append, List.map_cons, List.map_nil, trimDefaultTail_id, id, same.history]
  rfl

private theorem foldl_loadLine_ids (stored : List StoredLine) (g : Grid) :
    (stored.foldl loadLine g).scrollback.map Line.id =
        g.scrollback.map Line.id ++ List.range' g.nextLineId stored.length ∧
      (stored.foldl loadLine g).lines.map Line.id = g.lines.map Line.id ∧
        (stored.foldl loadLine g).nextLineId = g.nextLineId + stored.length ∧
          (stored.foldl loadLine g).scrollbackLimit = g.scrollbackLimit := by
  induction stored generalizing g with
  | nil => exact ⟨(List.append_nil _).symm, rfl, rfl, rfl⟩
  | cons line rest ih =>
    obtain ⟨history, screen, next, limit⟩ := g.loadLine_ids line
    obtain ⟨history', screen', next', limit'⟩ := ih (g.loadLine line)
    refine ⟨?_, screen'.trans screen, ?_, limit'.trans limit⟩
    · rw [List.foldl_cons, history', history, next, List.append_assoc, List.singleton_append, List.length_cons,
        List.range'_succ]
    · rw [List.foldl_cons, next', next, List.length_cons]
      omega

theorem Identified.loadScrollback (identified : Identified g) (stored : List StoredLine) :
    Identified (g.loadScrollback stored) := by
  obtain ⟨history, screen, next, limit⟩ := foldl_loadLine_ids stored { g with scrollback := [] }
  rw [List.map_nil, List.nil_append] at history
  refine identified.renew stored.length next ?_ ?_
  · rw [lineIds, Grid.loadScrollback]
    dsimp only
    rw [screen, keepNewest, List.map_drop, history]
    have kept := (List.drop_sublist ((stored.foldl loadLine { g with scrollback := [] }).scrollback.length -
      (stored.foldl loadLine { g with scrollback := [] }).scrollbackLimit) (List.range' g.nextLineId stored.length)).append
        (List.sublist_append_right (g.scrollback.map Line.id) (g.lines.map Line.id))
    exact kept.subperm.trans List.perm_append_comm.subperm
  · exact length_keepNewest ..

end Loading

section Freezing

private theorem freezeCell_sameIds (source frozen : Grid) (cell : Cell) :
    SameIds frozen (freezeCell source frozen cell).1 := by
  have clustered : SameIds frozen (freezeCluster source frozen cell cell).1 := by
    unfold freezeCluster
    split
    · split
      · exact intern_sameIds ..
      · exact .refl frozen
    · exact .refl frozen
  have coloured (frozen : Grid) (copy : Cell) : SameIds frozen (freezeColor source frozen cell copy).1 := by
    unfold freezeColor
    split
    · exact internUnderlineColor_sameIds ..
    · exact .refl frozen
  have linked (frozen : Grid) (copy : Cell) : SameIds frozen (freezeLink source frozen cell copy).1 := by
    unfold freezeLink
    split
    · split
      · exact internHyperlink_sameIds ..
      · exact .refl frozen
    · exact .refl frozen
  exact (clustered.trans (coloured _ _)).trans (linked _ _)

private theorem setRowWrapped_sameIds (g : Grid) (y : ℕ) (wrapped : Bool) : SameIds g (g.setRowWrapped y wrapped) :=
  ⟨rfl, ids_modify (f := fun line => { line with wrapped }) (fun _ => rfl) _ y, rfl, rfl⟩

private theorem assign_sameIds {x y : ℕ} {cell : Cell} (done : g.assign x y cell = some g') : SameIds g g' := by
  unfold Grid.assign at done
  split at done
  · obtain rfl := Option.some.inj done
    exact ⟨rfl, ids_modify (f := fun line => { line with cells := line.cells.set x cell }) (fun _ => rfl) _ y, rfl, rfl⟩
  · contradiction

private theorem freezeScreen_sameIds {frozen : Grid} (done : g.freezeScreen = some frozen) :
    SameIds ((Grid.new g.width g.height).setScrollbackLimit 0) frozen := by
  refine foldlM_preserves (fun before entry after held row => ?_) (.refl _) done
  unfold freezeRow at row
  split at row
  · refine foldlM_preserves (fun f cell f' held assigned => ?_) (held.trans (setRowWrapped_sameIds ..)) row
    exact (held.trans (freezeCell_sameIds g f cell.1)).trans (assign_sameIds assigned)
  · contradiction

end Freezing

section Runs

theorem Identified.cut (identified : Identified g) (next : g'.nextLineId = g.nextLineId) (screen : g'.lines = g.lines)
    (history : g'.scrollback.Sublist g.scrollback) (bounded : g'.scrollback.length ≤ g'.scrollbackLimit) :
    Identified g' := by
  refine identified.renew 0 next ?_ bounded
  rw [List.range'_zero, List.append_nil, lineIds, screen]
  exact ((history.map Line.id).append (.refl _)).subperm

private theorem new_identified (width height : ℕ) : Identified (Grid.new width height) := by
  have ids : (Grid.new width height).lineIds = List.range' 1 height := by
    rw [lineIds, Grid.new, List.map_nil, List.nil_append, List.map_map, List.range'_eq_map_range]
    exact List.map_congr_left fun y _ => Nat.add_comm y 1
  refine ⟨ids ▸ List.nodup_range', fun id member => ?_, Nat.zero_le _⟩
  rw [ids, List.mem_range'_1] at member
  have next : (Grid.new width height).nextLineId = height + 1 := rfl
  omega

theorem Identified.setScrollbackLimit (identified : Identified g) (limit : ℕ) :
    Identified (g.setScrollbackLimit limit) :=
   identified.cut rfl rfl (keepNewest_sublist ..) (length_keepNewest ..)

theorem Identified.apply {u : Unicode} {build : Build} (identified : Identified g) (rowed : Rowed g) {op : Op}
    (done : g.apply u build op = some g') : Identified g' := by
  have held {next : Grid} (held : Identified next) (done : some next = some g') : Identified g' :=
    Option.some.inj done ▸ held
  have same {next : Grid} (same : SameIds g next) (done : some next = some g') : Identified g' :=
    held (same.identified identified) done
  cases op with
  | set x y cell => exact same (set_sameIds g x y cell) done
  | clearGlyphAt x y blank => exact same (rewrites_sameIds (clearGlyphAt_rewrites ..)) done
  | eraseCells y first stop blank => exact (rewrites_sameIds (eraseCells_rewrites done)).identified identified
  | deleteCells y first count blank => exact (rewrites_sameIds (deleteCells_rewrites done)).identified identified
  | insertCells y first count blank => exact same (rewrites_sameIds (insertCells_rewrites ..)) done
  | setGrapheme x y text cell width => exact same (setGrapheme_sameIds ..) done
  | appendToGrapheme x y ch => exact same (appendToGrapheme_sameIds ..) done
  | scrollUp blank => exact held (identified.scrollUp blank) done
  | scrollRegionUp top bottom blank => exact held (identified.scrollRegionUpInner rowed ..) done
  | scrollRegionUpDiscarding top bottom blank => exact held (identified.scrollRegionUpInner rowed ..) done
  | scrollRegionDown top bottom blank => exact held (identified.scrollRegionDown rowed ..) done
  | markAllDamaged => exact same (markAllDamaged_sameIds g) done
  | resizeReflow width height blank cursor pending =>
    exact held (identified.resizeReflow u width height blank cursor pending) done

theorem Identified.step {u : Unicode} (identified : Identified g) (rowed : Rowed g) (step : Step u g g') :
    Identified g' := by
  cases step with
  | op build op _ done => exact identified.apply rowed done
  | setScrollbackLimit limit => exact identified.setScrollbackLimit limit
  | clearScrollback => exact identified.cut rfl rfl (List.nil_sublist _) (Nat.zero_le _)
  | setRowWrapped y wrapped => exact (setRowWrapped_sameIds ..).identified identified
  | internHyperlink uri => exact (internHyperlink_sameIds ..).identified identified
  | internUnderlineColor color => exact (internUnderlineColor_sameIds ..).identified identified
  | loadScrollback lines => exact identified.loadScrollback lines
  | clearDamage => exact identified.cut rfl rfl (.refl _) identified.bounded

/-- No two retained lines of a grid share an id. -/
theorem Reached.identified {u : Unicode} (reached : Reached u g) : Identified g := by
  induction reached with
  | new width height => exact new_identified ..
  | step before step ih => exact ih.step before.presentable.toRowed step
  | freezeScreen _ done _ => exact (freezeScreen_sameIds done).identified ((new_identified ..).setScrollbackLimit 0)

end Runs

end Uniterm.Model.Grid
