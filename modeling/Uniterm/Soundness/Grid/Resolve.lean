import Uniterm.Model.Grid.Reflow

/-! # What a cell resolves to

Cells name their text, underline colour and hyperlink by handle. A client only ever sees the
resolved values, and interning a grapheme may renumber every handle of the grid. `Resolved` is the
client's view of a cell, and `SameView` says that two grids show the same view line by line.
-/

namespace Uniterm.Model.Grid

open ToMathlib

/-- What a client can tell about a cell. -/
structure Resolved where
  text : Text
  width : ℕ
  fg : Color
  bg : Color
  attrs : Attrs
  underline : Color
  hyperlink : Option Text
deriving DecidableEq

def resolve (g : Grid) (c : Cell) : Resolved where
  text := g.cellTextOwned c
  width := c.width
  fg := c.fg
  bg := c.bg
  attrs := c.attrs
  underline := g.underlineColor c.underlineColor
  hyperlink := g.hyperlink c.hyperlink

/-- The text of a cell in a given arena. -/
def clusterText (clusters : List Text) (c : Cell) : Text :=
  if c.isContinuation then []
  else if c.cluster ≠ 0 then (clusters[c.cluster]?).getD [replacement]
  else [c.ch]

theorem cellTextOwned_eq (g : Grid) (c : Cell) : g.cellTextOwned c = clusterText g.clusters c := rfl

/-- A cell was carried from one arena to another: same text, same fields apart from the handle and
the codepoint behind it, and a handle that the new arena holds. -/
structure Carried (old new : List Text) (c c' : Cell) : Prop where
  text : clusterText new c' = clusterText old c
  width : c'.width = c.width
  fg : c'.fg = c.fg
  bg : c'.bg = c.bg
  attrs : c'.attrs = c.attrs
  underlineColor : c'.underlineColor = c.underlineColor
  hyperlink : c'.hyperlink = c.hyperlink
  valid : c'.cluster < new.length

/-- A longer arena resolves the handles of a shorter one unchanged. -/
theorem clusterText_append (clusters more : List Text) {c : Cell}
    (valid : c.cluster < clusters.length) :
    clusterText (clusters ++ more) c = clusterText clusters c := by
  simp only [clusterText, List.getElem?_append_left valid]

theorem Carried.append {old new : List Text} {c c' : Cell} (carried : Carried old new c c')
    (more : List Text) : Carried old (new ++ more) c c' where
  text := by rw [clusterText_append new more carried.valid, carried.text]
  width := carried.width
  fg := carried.fg
  bg := carried.bg
  attrs := carried.attrs
  underlineColor := carried.underlineColor
  hyperlink := carried.hyperlink
  valid := by
    rw [List.length_append]
    exact Nat.lt_add_right _ carried.valid

private theorem carried_handle {old clusters : List Text} {c : Cell} {text : Text} {handle : ℕ}
    (held : old[c.cluster]? = some text) (used : c.cluster ≠ 0) (positive : handle ≠ 0)
    (stored : clusters[handle]? = some text) :
    Carried old clusters c { c with cluster := handle } where
  text := by simp [clusterText, Cell.isContinuation, held, used, positive, stored]
  width := rfl
  fg := rfl
  bg := rfl
  attrs := rfl
  underlineColor := rfl
  hyperlink := rfl
  valid := (List.getElem?_eq_some_iff.mp stored).1

/-- One step of the compaction appends at most one text and carries its cell. -/
private theorem compactClusterCell_carried (old : List Text) {clusters : List Text} (c : Cell)
    (nonempty : 0 < clusters.length) :
    (∃ more, (compactClusterCell old clusters c).1 = clusters ++ more) ∧
      Carried old (compactClusterCell old clusters c).1 c (compactClusterCell old clusters c).2 := by
  unfold compactClusterCell
  by_cases used : c.cluster = 0
  · rw [if_pos used]
    refine ⟨⟨[], (List.append_nil _).symm⟩, ?_, rfl, rfl, rfl, rfl, rfl, rfl, used.trans_lt nonempty⟩
    simp [clusterText, used]
  rw [if_neg used]
  cases held : old[c.cluster]? with
  | none =>
    refine ⟨⟨[], (List.append_nil _).symm⟩, ?_, rfl, rfl, rfl, rfl, rfl, rfl, nonempty⟩
    simp [clusterText, Cell.isContinuation, used, held]
  | some text =>
    cases found : clusters.tail.idxOf? text with
    | none =>
      simp only [found]
      refine ⟨⟨[text], rfl⟩, carried_handle held used nonempty.ne' ?_⟩
      rw [List.getElem?_append_right le_rfl, Nat.sub_self, List.getElem?_cons_zero]
    | some i =>
      simp only [found]
      refine ⟨⟨[], (List.append_nil _).symm⟩, carried_handle held used (Nat.succ_ne_zero i) ?_⟩
      obtain ⟨bound, same, _⟩ := List.findIdx?_eq_some_iff_getElem.mp found
      rw [← List.getElem?_tail, List.getElem?_eq_getElem bound, beq_iff_eq.mp same]

/-- A physical line was carried from one arena to another. -/
structure LineCarried (old new : List Text) (l l' : Line) : Prop where
  cells : List.Forall₂ (Carried old new) l.cells l'.cells
  wrapped : l'.wrapped = l.wrapped
  id : l'.id = l.id

theorem LineCarried.append {old new : List Text} {l l' : Line}
    (carried : LineCarried old new l l') (more : List Text) : LineCarried old (new ++ more) l l' :=
  ⟨carried.cells.imp fun _ _ cell => cell.append more, carried.wrapped, carried.id⟩

private theorem compactCells_carried (old : List Text) {clusters : List Text} (cells : List Cell)
    (nonempty : 0 < clusters.length) :
    (∃ more, (mapAccum (compactClusterCell old) clusters cells).1 = clusters ++ more) ∧
      List.Forall₂ (Carried old (mapAccum (compactClusterCell old) clusters cells).1) cells
        (mapAccum (compactClusterCell old) clusters cells).2 := by
  have grown (s : List Text) (extended : ∃ more, s = clusters ++ more) : 0 < s.length := by
    obtain ⟨more, rfl⟩ := extended
    rw [List.length_append]
    omega
  obtain ⟨final, all, _⟩ := mapAccum_forall₂ (fun s => ∃ more, s = clusters ++ more)
    (fun s => Carried old s)
    (fun s c extended => by
      obtain ⟨more, step⟩ := (compactClusterCell_carried old c (grown s extended)).1
      obtain ⟨before, rfl⟩ := extended
      exact ⟨before ++ more, by rw [step, List.append_assoc]⟩)
    (fun s c extended => (compactClusterCell_carried old c (grown s extended)).2)
    (fun s c _ _ extended carried => by
      obtain ⟨more, step⟩ := (compactClusterCell_carried old c (grown s extended)).1
      rw [step]
      exact carried.append more)
    cells ⟨[], (List.append_nil clusters).symm⟩
  exact ⟨final, all⟩

/-- Compaction carries every retained line into the new arena. -/
private theorem rewriteClusters_carried (old : List Text) (lines : List Line) :
    0 < (rewriteCells (compactClusterCell old) [[]] lines).1.length ∧
      List.Forall₂ (LineCarried old (rewriteCells (compactClusterCell old) [[]] lines).1) lines
        (rewriteCells (compactClusterCell old) [[]] lines).2 := by
  obtain ⟨final, all, _⟩ := mapAccum_forall₂
    (f := fun clusters (line : Line) =>
      ((mapAccum (compactClusterCell old) clusters line.cells).1,
        ({ line with cells := (mapAccum (compactClusterCell old) clusters line.cells).2 } : Line)))
    (fun s => 0 < s.length) (fun s => LineCarried old s)
    (fun s line nonempty => by
      obtain ⟨⟨more, step⟩, _⟩ := compactCells_carried old line.cells nonempty
      rw [step, List.length_append]
      omega)
    (fun s line nonempty => ⟨(compactCells_carried old line.cells nonempty).2, rfl, rfl⟩)
    (fun s line _ _ nonempty carried => by
      obtain ⟨⟨more, step⟩, _⟩ := compactCells_carried old line.cells nonempty
      rw [step]
      exact carried.append more)
    (s := [[]]) lines Nat.one_pos
  exact ⟨final, all⟩

/-- Two grids show the same picture, apart from how their cells name their texts. -/
structure SameView (g g' : Grid) : Prop where
  lines : List.Forall₂ (LineCarried g.clusters g'.clusters) g.lines g'.lines
  scrollback : List.Forall₂ (LineCarried g.clusters g'.clusters) g.scrollback g'.scrollback
  rest : g' = { g with
    lines := g'.lines, scrollback := g'.scrollback, clusters := g'.clusters,
    clusterGcAt := g'.clusterGcAt }

private theorem compactClusters_sameView (g : Grid) : SameView g g.compactClusters := by
  have all := (rewriteClusters_carried g.clusters (g.scrollback ++ g.lines)).2
  refine ⟨?_, ?_, rfl⟩
  · have dropped := List.forall₂_drop g.scrollback.length all
    rwa [List.drop_left] at dropped
  · have taken := List.forall₂_take g.scrollback.length all
    rwa [List.take_left] at taken

/-- Every handle of the retained lines is held by the grid's arena. -/
structure ClustersValid (g : Grid) : Prop where
  arena : 0 < g.clusters.length
  cells : ∀ line ∈ g.scrollback ++ g.lines, ∀ c ∈ line.cells, c.cluster < g.clusters.length

section SameView

variable {g g' : Grid}

private theorem lineCarried_self {clusters : List Text} {line : Line}
    (valid : ∀ c ∈ line.cells, c.cluster < clusters.length) :
    LineCarried clusters clusters line line :=
  ⟨List.forall₂_same.mpr fun c member => ⟨rfl, rfl, rfl, rfl, rfl, rfl, rfl, valid c member⟩, rfl, rfl⟩

theorem ClustersValid.sameView (valid : g.ClustersValid) : SameView g g where
  lines := List.forall₂_same.mpr fun line member =>
    lineCarried_self (valid.cells line (List.mem_append_right _ member))
  scrollback := List.forall₂_same.mpr fun line member =>
    lineCarried_self (valid.cells line (List.mem_append_left _ member))
  rest := rfl

/-- A text appended to the arena leaves the picture as it is. -/
theorem SameView.append (same : SameView g g') (text : Text) :
    SameView g { g' with clusters := g'.clusters ++ [text] } where
  lines := same.lines.imp fun _ _ carried => carried.append [text]
  scrollback := same.scrollback.imp fun _ _ carried => carried.append [text]
  rest := by
    have rest := same.rest
    rw [rest]

theorem SameView.clustersValid (same : SameView g g') (arena : 0 < g'.clusters.length) :
    g'.ClustersValid := by
  refine ⟨arena, fun line member c inside => ?_⟩
  have carried : ∃ old, LineCarried g.clusters g'.clusters old line := by
    rcases List.mem_append.mp member with history | screen
    · obtain ⟨old, _, carried⟩ := exists_of_mem_right same.scrollback history
      exact ⟨old, carried⟩
    · obtain ⟨old, _, carried⟩ := exists_of_mem_right same.lines screen
      exact ⟨old, carried⟩
  obtain ⟨old, carried⟩ := carried
  obtain ⟨_, _, cell⟩ := exists_of_mem_right carried.cells inside
  exact cell.valid

theorem SameView.resolve_eq (same : SameView g g') {c c' : Cell}
    (carried : Carried g.clusters g'.clusters c c') : g'.resolve c' = g.resolve c := by
  have colors : g'.underlineColors = g.underlineColors := by rw [same.rest]
  have links : g'.hyperlinks = g.hyperlinks := by rw [same.rest]
  simp only [resolve, cellTextOwned_eq, underlineColor, hyperlink, carried.text, carried.width,
    carried.fg, carried.bg, carried.attrs, carried.underlineColor, carried.hyperlink, colors, links]

/-- The same position shows the same resolved cell. -/
theorem SameView.resolve_get (same : SameView g g') (x y : ℕ) :
    g'.resolve (g'.get x y) = g.resolve (g.get x y) := by
  have colors : g'.underlineColors = g.underlineColors := by rw [same.rest]
  rcases getElem?_of_forall₂ same.lines y with ⟨none, none'⟩ | ⟨line, line', read, read', carried⟩
  · simp [get, get?, none, none', resolve, cellTextOwned, Cell.isContinuation, underlineColor,
      hyperlink, colors]
  · rcases getElem?_of_forall₂ carried.cells x with ⟨none, none'⟩ | ⟨c, c', found, found', cell⟩
    · simp [get, get?, read, read', none, none', resolve, cellTextOwned, Cell.isContinuation,
        underlineColor, hyperlink, colors]
    · simp only [get, get?, read, read', found, found', Option.bind_some, Option.getD_some]
      exact same.resolve_eq cell

end SameView

/-- Interning a grapheme changes no visible or retained text, and the handle it returns names the
text in the new arena. -/
theorem ClustersValid.intern {g : Grid} (valid : g.ClustersValid) (text : Text) :
    SameView g (g.intern text).1 ∧ (g.intern text).1.ClustersValid ∧
      (g.intern text).1.clusters[(g.intern text).2]? = some text := by
  unfold Grid.intern
  cases found : g.recentCluster text with
  | some handle =>
    refine ⟨valid.sameView, valid, ?_⟩
    obtain ⟨entry, search, rfl⟩ := Option.map_eq_some_iff.mp found
    have member := List.mem_of_mem_take (List.mem_of_find?_eq_some search)
    have same := List.find?_some search
    rw [List.mem_reverse, List.mem_zipIdx_iff_getElem?] at member
    rw [member, beq_iff_eq.mp same]
  | none =>
    have compacted : SameView g (if g.clusters.length ≥ g.clusterGcAt then g.compactClusters else g) := by
      split
      · exact compactClusters_sameView g
      · exact valid.sameView
    have appended := compacted.append text
    refine ⟨appended, appended.clustersValid ?_, ?_⟩
    · simp
    · simp

end Uniterm.Model.Grid
