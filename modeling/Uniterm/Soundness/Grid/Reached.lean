import Uniterm.Machine.Run
import Uniterm.Model.Grid.Copies
import Uniterm.Soundness.Grid.Damage
import Uniterm.Soundness.Grid.Palette
import Uniterm.Soundness.Grid.Rebuild

/-! # The grids of a run

Whatever is done to a grid, cells come from anywhere but arena entries only from the three interning operations.
The arenas therefore hold texts, targets and colours of a known kind, and every visible row spans the grid. A
cell may still name an entry that its arena does not hold.
-/

namespace Uniterm.Model.Grid

open ToMathlib Machine

/-- A hyperlink target that is interned. -/
def Target (uri : Text) : Prop := ¬ (uri.isEmpty ∨ uri.len > 8192 ∨ uri.any isControl = true)

/-- What the entries of the arenas are. -/
structure Arenas (g : Grid) : Prop where
  first : g.DefaultFirst
  palette : g.underlineColors.length ≤ 256
  links : ∀ (handle : ℕ) uri, g.hyperlinks[handle]? = some uri → Target uri
  texts : ∀ text ∈ g.clusters.tail, text ≠ []

/-- The lengths of the visible rows. -/
def rowLengths (g : Grid) : List ℕ := g.lines.map fun line => line.cells.length

/-- One row for each line of the screen, no row shorter than it is wide. -/
structure Rowed (g : Grid) : Prop where
  count : g.rowLengths.length = g.height
  rows : ∀ n ∈ g.rowLengths, g.width ≤ n
  narrow : g.width < 65536
  short : g.height < 65536

/-- The arenas and the rows of a grid are in order. -/
structure Presentable (g : Grid) : Prop extends Arenas g, Rowed g

variable {g g' : Grid}

theorem Arenas.congr (arenas : Arenas g) (colors : g'.underlineColors = g.underlineColors)
    (links : g'.hyperlinks = g.hyperlinks) (texts : g'.clusters = g.clusters) : Arenas g' where
  first := by unfold DefaultFirst; rw [colors]; exact arenas.first
  palette := colors ▸ arenas.palette
  links := links ▸ arenas.links
  texts := texts ▸ arenas.texts

theorem Rowed.congr (rowed : Rowed g) (width : g'.width = g.width) (height : g'.height = g.height)
    (lengths : g'.rowLengths = g.rowLengths) : Rowed g' where
  count := by rw [lengths, height]; exact rowed.count
  rows n member := by rw [width]; exact rowed.rows n (lengths ▸ member)
  narrow := width ▸ rowed.narrow
  short := height ▸ rowed.short

private theorem rowLengths_modify {f : Line → Line} (same : ∀ line, (f line).cells.length = line.cells.length)
    (lines : List Line) (y : ℕ) :
    (lines.modify y f).map (fun line => line.cells.length) = lines.map fun line => line.cells.length := by
  refine List.ext_getElem? fun i => ?_
  rw [List.getElem?_map, List.getElem?_map, List.getElem?_modify]
  cases lines[i]? with
  | none => rfl
  | some line =>
    split
    · exact congrArg some (same line)
    · rfl

section Interning

/-- Renumbering handles keeps the lengths of the rows. -/
theorem rewriteCells_lengths {σ : Type} (f : σ → Cell → σ × Cell) (s : σ) (lines : List Line) :
    (rewriteCells f s lines).2.map (fun line => line.cells.length) = lines.map fun line => line.cells.length := by
  unfold rewriteCells
  induction lines generalizing s with
  | nil => rfl
  | cons line lines ih =>
    rw [mapAccum, List.map_cons, List.map_cons, ih]
    congr 1
    exact length_mapAccum ..

private theorem rewritten_lengths {σ : Type} (f : σ → Cell → σ × Cell) (s : σ) (history lines : List Line) :
    ((rewriteCells f s (history ++ lines)).2.drop history.length).map (fun line => line.cells.length) =
      lines.map fun line => line.cells.length := by
  rw [List.map_drop, rewriteCells_lengths, List.map_append, ← List.length_map (fun line : Line => line.cells.length),
    List.drop_left]

private theorem rewriteCells_state {σ : Type} {f : σ → Cell → σ × Cell} (inv : σ → Prop)
    (keeps : ∀ s c, inv s → inv (f s c).1) {s : σ} (start : inv s) (lines : List Line) :
    inv (rewriteCells f s lines).1 :=
  mapAccum_state inv (fun _ line held => mapAccum_state inv keeps line.cells held) lines start

private theorem mem_tail_append {α : Type} {entries : List α} {entry other : α}
    (member : other ∈ (entries ++ [entry]).tail) : other ∈ entries.tail ∨ other = entry := by
  cases entries with
  | nil => nomatch member
  | cons head rest =>
    rw [List.cons_append, List.tail_cons, List.mem_append, List.mem_singleton] at member
    exact member

/-- The texts of a compacted arena were texts of the arena. -/
theorem compactClusters_texts (texts : ∀ text ∈ g.clusters.tail, text ≠ []) :
    ∀ text ∈ g.compactClusters.clusters.tail, text ≠ [] := by
  refine rewriteCells_state (fun clusters : List Text => ∀ text ∈ clusters.tail, text ≠ [])
    (fun clusters c held => ?_) (by simp) (g.scrollback ++ g.lines)
  unfold compactClusterCell
  split
  · exact held
  next used =>
  split
  · exact held
  next text found =>
  split
  · exact held
  · intro other member
    obtain old | rfl := mem_tail_append member
    · exact held other old
    · obtain ⟨i, index⟩ := Nat.exists_eq_succ_of_ne_zero used
      rw [index, ← List.getElem?_tail] at found
      exact texts other (List.mem_of_getElem? found)

theorem Presentable.intern (presentable : Presentable g) {text : Text} (some : text ≠ []) :
    Presentable (g.intern text).1 := by
  have appended {clusters : List Text} (held : ∀ other ∈ clusters.tail, other ≠ []) :
      ∀ other ∈ (clusters ++ [text]).tail, other ≠ [] := by
    intro other member
    obtain old | rfl := mem_tail_append member
    · exact held other old
    · exact some
  rcases intern_cases g text with ⟨handle, interned⟩ | interned | ⟨-, interned⟩
  · rw [interned]
    exact presentable
  · rw [interned]
    exact ⟨{ presentable.toArenas with texts := appended presentable.texts }, presentable.toRowed.congr rfl rfl rfl⟩
  · rw [interned]
    refine ⟨{ presentable.toArenas with texts := appended (compactClusters_texts presentable.texts) }, ?_⟩
    exact presentable.toRowed.congr rfl rfl (rewritten_lengths ..)

/-- The colours of a compacted arena were colours of the arena, and each comes once. -/
theorem compactUnderlineColors_palette : g.compactUnderlineColors.underlineColors.length ≤ max 1 g.underlineColors.length := by
  have kept := rewriteCells_state (f := compactUnderlineCell g.underlineColors)
    (fun colors : List Color => colors ≠ [] ∧ colors.tail.Nodup ∧ colors.tail ⊆ g.underlineColors.tail)
    (fun colors c held => ?_) (s := [.default]) (by simp) (g.scrollback ++ g.lines)
  · have bound := (List.subperm_of_subset kept.2.1 kept.2.2).length_le
    rw [List.length_tail, List.length_tail] at bound
    change (rewriteCells (compactUnderlineCell g.underlineColors) [.default] (g.scrollback ++ g.lines)).1.length ≤ _
    omega
  · obtain ⟨some, distinct, subset⟩ := held
    unfold compactUnderlineCell
    split
    · exact ⟨some, distinct, subset⟩
    next used =>
    split
    · exact ⟨some, distinct, subset⟩
    next color found =>
    split
    · exact ⟨some, distinct, subset⟩
    next absent =>
      obtain ⟨i, index⟩ := Nat.exists_eq_succ_of_ne_zero used
      rw [index, ← List.getElem?_tail] at found
      have fresh : color ∉ colors.tail := List.idxOf?_eq_none_iff.mp absent
      refine ⟨by simp, ?_, ?_⟩
      · rw [List.tail_append_of_ne_nil some, List.nodup_append]
        refine ⟨distinct, by simp, fun c member d last => ?_⟩
        rw [List.mem_singleton.mp last]
        rintro rfl
        exact fresh member
      · rw [List.tail_append_of_ne_nil some]
        exact List.append_subset.mpr ⟨subset, by simpa using List.mem_of_getElem? found⟩

theorem Presentable.internUnderlineColor (presentable : Presentable g) (color : Color) :
    Presentable (g.internUnderlineColor color).1 := by
  have compacted : Presentable g.compactUnderlineColors := by
    refine ⟨{ presentable.toArenas with first := ?_, palette := ?_ }, ?_⟩
    · exact (compactUnderlineColors_renumbered (by rw [show g.underlineColors[0]? = _ from presentable.first]; rfl)).1
    · have bound := compactUnderlineColors_palette (g := g)
      have palette := presentable.palette
      omega
    · exact presentable.toRowed.congr rfl rfl (rewritten_lengths ..)
  unfold Grid.internUnderlineColor
  split
  · exact presentable
  split
  · exact presentable
  have roomy : Presentable (if g.underlineColors.length = 256 then g.compactUnderlineColors else g) := by
    split
    · exact compacted
    · exact presentable
  dsimp only
  generalize (if g.underlineColors.length = 256 then g.compactUnderlineColors else g) = g at roomy ⊢
  split
  · exact roomy
  split
  · exact roomy
  next room =>
    refine ⟨{ roomy.toArenas with first := ?_, palette := ?_ }, roomy.toRowed.congr rfl rfl rfl⟩
    · have first := roomy.first
      unfold DefaultFirst at first ⊢
      rw [List.getElem?_append_left (List.getElem?_eq_some_iff.mp first).1, first]
    · have palette := roomy.palette
      rw [List.length_append, List.length_singleton]
      omega

theorem Presentable.internHyperlink (presentable : Presentable g) (uri : Text) :
    Presentable (g.internHyperlink uri).1 := by
  unfold Grid.internHyperlink
  split
  · exact presentable
  next target =>
  split
  · exact presentable
  have roomy : Presentable (if g.hyperlinks.size ≥ g.hyperlinkGcAt then g.compactHyperlinks else g) := by
    split
    · refine ⟨{ presentable.toArenas with links := fun handle uri found => ?_ }, presentable.toRowed.congr rfl rfl rfl⟩
      rw [compactHyperlinks, Std.ExtTreeMap.getElem?_filter'] at found
      exact presentable.links handle uri (Option.filter_eq_some_iff.mp found).1
    · exact presentable
  dsimp only
  generalize (if g.hyperlinks.size ≥ g.hyperlinkGcAt then g.compactHyperlinks else g) = g at roomy ⊢
  refine ⟨{ roomy.toArenas with links := fun handle other found => ?_ }, roomy.toRowed.congr rfl rfl rfl⟩
  dsimp only at found
  rw [Std.ExtTreeMap.getElem?_insert] at found
  split at found
  · rw [← Option.some.inj found]
    exact target
  · exact roomy.links handle other found

end Interning

section Cells

theorem Presentable.set (presentable : Presentable g) (x y : ℕ) (cell : Cell) : Presentable (g.set x y cell) := by
  have lengths : (g.set x y cell).rowLengths = g.rowLengths := by
    unfold rowLengths
    rw [set_lines]
    split
    · exact rowLengths_modify (fun line => List.length_set ..) g.lines y
    · rfl
  exact ⟨presentable.toArenas.congr (by rw [set_frame]) (by rw [set_frame]) (by rw [set_frame]),
    presentable.toRowed.congr (set_width ..) (set_height ..) lengths⟩

theorem Presentable.rewrites (presentable : Presentable g) {y : ℕ} {blank : Cell} (rewrites : Rewrites y blank g g') :
    Presentable g' :=
  rewrites.keeps Presentable (fun _ x held => held.set x y blank) (fun _ x _ held => held.set x y _) presentable

theorem Presentable.setGrapheme (presentable : Presentable g) (x y : ℕ) (text : Text) (cell : Cell) (width : ℕ) :
    Presentable (g.setGrapheme x y text cell width) := by
  have written {g : Grid} (held : Presentable g) (lead : Cell) : Presentable (g.writeGlyph x y lead) := by
    unfold writeGlyph
    dsimp only
    split
    · exact (held.set ..).set ..
    · exact held.set ..
  unfold Grid.setGrapheme
  dsimp only
  split
  · exact presentable
  split
  · exact presentable
  have cleared := presentable.rewrites (clearColumns_rewrites g x y (max 1 (min width 2)) { fg := cell.fg, bg := cell.bg })
  refine written ?_ _
  unfold textHandle
  split
  next long => exact cleared.intern (List.ne_nil_of_length_pos (by omega))
  · exact cleared

theorem Presentable.appendToGrapheme (u : Unicode) (presentable : Presentable g) (x y : ℕ) (ch : Char) :
    Presentable (g.appendToGrapheme u x y ch).1 := by
  unfold Grid.appendToGrapheme
  dsimp only
  generalize (if (g.get x y).isContinuation = true ∧ x > 0 then x - 1 else x) = leadX
  split
  · exact presentable
  split
  · exact presentable.setGrapheme ..
  · exact presentable

end Cells

section Lines

/-- Fields that neither the arenas nor the visible rows depend on may change freely. -/
theorem Presentable.congr (presentable : Presentable g) (width : g'.width = g.width) (height : g'.height = g.height)
    (lines : g'.lines = g.lines) (colors : g'.underlineColors = g.underlineColors)
    (links : g'.hyperlinks = g.hyperlinks) (texts : g'.clusters = g.clusters) : Presentable g' :=
  ⟨presentable.toArenas.congr colors links texts, presentable.toRowed.congr width height (by rw [rowLengths, lines]; rfl)⟩

theorem Presentable.markRowsDamaged (presentable : Presentable g) (top bottom : ℕ) :
    Presentable (g.markRowsDamaged top bottom) := by
  rw [markRowsDamaged_frame]
  exact presentable.congr rfl rfl rfl rfl rfl rfl

theorem Presentable.markAllDamaged (presentable : Presentable g) : Presentable g.markAllDamaged := by
  rw [markAllDamaged_frame]
  exact presentable.congr rfl rfl rfl rfl rfl rfl

/-- As many rows as before, each of them an old one or as long as the grid is wide. -/
theorem Rowed.relined (rowed : Rowed g) (lines : List Line) (count : lines.length = g.lines.length)
    (rows : ∀ line ∈ lines, line ∈ g.lines ∨ line.cells.length = g.width) : Rowed { g with lines } where
  count := by
    have before := rowed.count
    rw [rowLengths, List.length_map] at before ⊢
    exact count.trans before
  rows n member := by
    obtain ⟨line, inside, rfl⟩ := List.mem_map.mp member
    obtain old | full := rows line inside
    · exact rowed.rows _ (List.mem_map_of_mem old)
    · exact full.ge
  narrow := rowed.narrow
  short := rowed.short

theorem length_blank (width id : ℕ) (blank : Cell) : (Line.blank width blank id).cells.length = width :=
  List.length_replicate ..

theorem Presentable.scrollUp (presentable : Presentable g) (blank : Cell) : Presentable (g.scrollUp blank) := by
  cases lines : g.lines with
  | nil =>
    unfold Grid.scrollUp
    rw [lines]
    exact presentable
  | cons departing rest =>
    rw [scrollUp_eq blank lines]
    have scrolled := presentable.toRowed.relined (rest ++ [Line.blank g.width blank g.nextLineId])
      (by rw [lines, List.length_append, List.length_singleton, List.length_cons]) fun line member => by
        rcases List.mem_append.mp member with old | fresh
        · exact .inl (by rw [lines]; exact .tail _ old)
        · exact .inr (by rw [List.mem_singleton.mp fresh]; exact length_blank ..)
    refine Presentable.markRowsDamaged ⟨?_, ?_⟩ _ _
    · exact presentable.toArenas.congr rfl rfl rfl
    · exact scrolled.congr rfl rfl rfl

theorem Presentable.regionScrolled (presentable : Presentable g) (history : List Line) {out into : ℕ} (blank : Cell)
    (leaves : out < g.height) (enters : into < g.height) (top bottom : ℕ) :
    Presentable (g.regionScrolled history out into blank top bottom) := by
  have total : g.lines.length = g.height := by
    have count := presentable.count
    rwa [rowLengths, List.length_map] at count
  have erased : (g.lines.eraseIdx out).length = g.lines.length - 1 := List.length_eraseIdx_of_lt (by omega)
  have scrolled := presentable.toRowed.relined
    ((g.lines.eraseIdx out).insertIdx into (Line.blank g.width blank g.nextLineId))
    (by rw [List.length_insertIdx_of_le_length (by omega), erased]; omega) fun line member => by
      rcases List.eq_or_mem_of_mem_insertIdx member with rfl | old
      · exact .inr (length_blank ..)
      · exact .inl (List.mem_of_mem_eraseIdx old)
  refine Presentable.markRowsDamaged ⟨?_, ?_⟩ _ _
  · exact presentable.toArenas.congr rfl rfl rfl
  · exact scrolled.congr rfl rfl rfl

theorem Presentable.scrollRegionUpInner (presentable : Presentable g) (top bottom : ℕ) (blank : Cell)
    (preserve : Bool) : Presentable (g.scrollRegionUpInner top bottom blank preserve) := by
  obtain ⟨-, same⟩ | ⟨-, -, -, same⟩ | ⟨ordered, inside, history, -, -, same⟩ :=
    g.scrollRegionUpInner_cases top bottom blank preserve
  · rw [same]
    exact presentable
  · rw [same]
    exact presentable.scrollUp blank
  · rw [same]
    exact presentable.regionScrolled history blank (by omega) inside top bottom

theorem Presentable.scrollRegionDown (presentable : Presentable g) (top bottom : ℕ) (blank : Cell) :
    Presentable (g.scrollRegionDown top bottom blank) := by
  obtain ⟨-, same⟩ | ⟨ordered, inside, same⟩ := g.scrollRegionDown_cases top bottom blank
  · rw [same]
    exact presentable
  · rw [same]
    exact presentable.regionScrolled _ blank inside (by omega) top bottom

end Lines

section Resizing

theorem Rowed.of_rows {width height : ℕ} (narrow : width < 65536) (short : height < 65536)
    (sized : g.width = width ∧ g.height = height) (count : g.lines.length = height)
    (rows : ∀ line ∈ g.lines, width ≤ line.cells.length) : Rowed g where
  count := by rw [rowLengths, List.length_map, sized.2, count]
  rows n member := by
    obtain ⟨line, inside, rfl⟩ := List.mem_map.mp member
    rw [sized.1]
    exact rows line inside
  narrow := sized.1 ▸ narrow
  short := sized.2 ▸ short

theorem Rowed.lines_length (rowed : Rowed g) : g.lines.length = g.height := by
  have count := rowed.count
  rwa [rowLengths, List.length_map] at count

theorem Rowed.row (rowed : Rowed g) {line : Line} (member : line ∈ g.lines) : g.width ≤ line.cells.length :=
  rowed.rows _ (List.mem_map_of_mem member)

private theorem length_resizeCells (width : ℕ) (cells : List Cell) : (resizeCells width cells).length = width := by
  rw [resizeCells, List.length_append, List.length_take, List.length_replicate]
  omega

private theorem install_rowed {width height : ℕ} (narrow : width < 65536) (short : height < 65536) {v : Viewport}
    (cut : v.physical.length = v.screenStart + height) : Rowed (g.install width height v) := by
  refine .of_rows narrow short (by rw [install_frame]; exact ⟨rfl, rfl⟩) ?_ fun line member => ?_
  · rw [install_lines, List.length_map, List.length_drop]
    omega
  · rw [install_lines] at member
    obtain ⟨old, -, rfl⟩ := List.mem_map.mp member
    split
    · exact (length_resizeCells ..).ge
    next long => exact Nat.le_of_not_lt long

theorem Presentable.growHeight (presentable : Presentable g) {height : ℕ} (short : height < 65536)
    (grows : g.height < height) (blank : Cell) : Presentable (g.growHeight height blank) := by
  have total := presentable.lines_length
  unfold Grid.growHeight
  refine Presentable.markAllDamaged ⟨presentable.toArenas.congr rfl rfl rfl, ?_⟩
  refine .of_rows presentable.narrow short ⟨rfl, rfl⟩ ?_ fun line member => ?_
  · dsimp only
    rw [List.length_append, length_blankLines]
    omega
  · rcases List.mem_append.mp member with old | fresh
    · exact presentable.row old
    · obtain ⟨id, rfl⟩ := mem_blankLines fresh
      exact (length_blank ..).ge

theorem Presentable.shrinkHeight (presentable : Presentable g) {height : ℕ} (short : height < 65536)
    (shrinks : height < g.height) : Presentable (g.shrinkHeight height) := by
  have total := presentable.lines_length
  unfold Grid.shrinkHeight
  obtain ⟨history, folded, -, -⟩ := foldl_pushScrollback (g.lines.take (g.height - height))
    { g with lines := g.lines.drop (g.height - height) }
  dsimp only
  rw [folded]
  refine Presentable.markAllDamaged ⟨presentable.toArenas.congr rfl rfl rfl, ?_⟩
  refine .of_rows presentable.narrow short ⟨rfl, rfl⟩ ?_ fun line member => ?_
  · dsimp only
    rw [List.length_drop]
    omega
  · exact presentable.row (List.mem_of_mem_drop member)

theorem Presentable.resizeReflow (u : Unicode) (presentable : Presentable g) {width height : ℕ} (narrow : width < 65536)
    (short : height < 65536) (blank : Cell) (cursor : ℕ × ℕ) (pending : Bool) :
    Presentable (g.resizeReflow u width height blank cursor pending).1 := by
  unfold Grid.resizeReflow
  dsimp only
  split
  · exact presentable
  split
  next grows => exact presentable.growHeight (by omega) grows.1 blank
  split
  next shrinks => exact presentable.shrinkHeight (by omega) shrinks.1
  · rw [reflowWidth_grid]
    refine ⟨?_, install_rowed (by omega) (by omega) (reflowViewport_length ..)⟩
    rw [install_frame]
    exact presentable.toArenas.congr rfl rfl rfl

end Resizing

section Loading

/-- A line rebuilt from stored cells leaves the screen alone and may intern. -/
theorem Presentable.placeStored (presentable : Presentable g) (line : Line) (entry : StoredCell × ℕ) :
    Presentable (Grid.placeStored (g, line) entry).1 := by
  unfold Grid.placeStored
  dsimp only
  split
  · exact presentable
  · have coloured := presentable.internUnderlineColor entry.1.underlineColor
    unfold setStoredOnLine
    split
    · exact coloured
    · dsimp only
      split
      next long => exact coloured.intern (List.ne_nil_of_length_pos (by omega))
      · exact coloured

theorem Presentable.lineFromStored (presentable : Presentable g) (stored : StoredLine) :
    Presentable (g.lineFromStored stored).1 := by
  have placed (entries : List (StoredCell × ℕ)) : ∀ state : Grid × Line, Presentable state.1 →
      Presentable (entries.foldl Grid.placeStored state).1 := by
    induction entries with
    | nil => exact fun _ held => held
    | cons entry rest ih => exact fun state held => ih _ (held.placeStored state.2 entry)
  exact placed _ (_, _) (presentable.congr rfl rfl rfl rfl rfl rfl)

theorem Presentable.loadScrollback (presentable : Presentable g) (lines : List StoredLine) :
    Presentable (g.loadScrollback lines) := by
  have loaded {g : Grid} (held : Presentable g) : Presentable (lines.foldl loadLine g) := by
    induction lines generalizing g with
    | nil => exact held
    | cons stored rest ih => exact ih ((held.lineFromStored stored).congr rfl rfl rfl rfl rfl rfl)
  exact (loaded (g := { g with scrollback := [] }) (presentable.congr rfl rfl rfl rfl rfl rfl)).congr
    rfl rfl rfl rfl rfl rfl

end Loading

section Freezing

variable {source : Grid}

theorem Presentable.setRowWrapped (presentable : Presentable g) (y : ℕ) (wrapped : Bool) :
    Presentable (g.setRowWrapped y wrapped) :=
  ⟨presentable.toArenas.congr rfl rfl rfl, presentable.toRowed.congr rfl rfl
    (rowLengths_modify (f := fun line => { line with wrapped }) (fun _ => rfl) _ y)⟩

theorem Presentable.freezeCell (presentable : Presentable g) (texts : ∀ text ∈ source.clusters.tail, text ≠ [])
    (cell : Cell) : Presentable (freezeCell source g cell).1 := by
  have clustered : Presentable (freezeCluster source g cell cell).1 := by
    unfold freezeCluster
    split
    next used =>
      split
      next text found =>
        obtain ⟨i, index⟩ := Nat.exists_eq_succ_of_ne_zero used
        rw [index, ← List.getElem?_tail] at found
        exact presentable.intern (texts text (List.mem_of_getElem? found))
      · exact presentable
    · exact presentable
  have coloured {g : Grid} (held : Presentable g) (copy : Cell) : Presentable (freezeColor source g cell copy).1 := by
    unfold freezeColor
    split
    · exact held.internUnderlineColor _
    · exact held
  have linked {g : Grid} (held : Presentable g) (copy : Cell) : Presentable (freezeLink source g cell copy).1 := by
    unfold freezeLink
    split
    · split
      · exact held.internHyperlink _
      · exact held
    · exact held
  exact linked (coloured clustered _) _

theorem Presentable.assign (presentable : Presentable g) {x y : ℕ} {cell : Cell}
    (done : g.assign x y cell = some g') : Presentable g' := by
  unfold Grid.assign at done
  split at done
  · obtain rfl := Option.some.inj done
    exact ⟨presentable.toArenas.congr rfl rfl rfl, presentable.toRowed.congr rfl rfl
      (rowLengths_modify (f := fun line => { line with cells := line.cells.set x cell })
        (fun _ => List.length_set ..) _ y)⟩
  · contradiction

end Freezing

section Runs

/-- Sizes are 16 bits wide. -/
def Sized : Op → Prop
  | .resizeReflow width height _ _ _ => width < 65536 ∧ height < 65536
  | _ => True

/-- What is done to a grid, whatever cells it is given. -/
inductive Step (u : Unicode) : Grid → Grid → Prop
  | op {g g' : Grid} (build : Build) (op : Op) (sized : Sized op) (done : g.apply u build op = some g') : Step u g g'
  | setScrollbackLimit (g : Grid) (limit : ℕ) : Step u g (g.setScrollbackLimit limit)
  | clearScrollback (g : Grid) : Step u g g.clearScrollback
  | setRowWrapped (g : Grid) (y : ℕ) (wrapped : Bool) : Step u g (g.setRowWrapped y wrapped)
  | internHyperlink (g : Grid) (uri : Text) : Step u g (g.internHyperlink uri).1
  | internUnderlineColor (g : Grid) (color : Color) : Step u g (g.internUnderlineColor color).1
  | loadScrollback (g : Grid) (lines : List StoredLine) : Step u g (g.loadScrollback lines)
  | clearDamage (g : Grid) : Step u g g.clearDamage

/-- The grids there are: new ones, what becomes of them, and frozen copies. -/
inductive Reached (u : Unicode) : Grid → Prop
  | new (width height : UInt16) : Reached u (Grid.new width.toNat height.toNat)
  | step {g g' : Grid} (reached : Reached u g) (step : Step u g g') : Reached u g'
  | freezeScreen {g frozen : Grid} (reached : Reached u g) (done : g.freezeScreen = some frozen) : Reached u frozen

private theorem new_presentable {width height : ℕ} (narrow : width < 65536) (short : height < 65536) :
    Presentable (Grid.new width height) := by
  refine ⟨⟨rfl, by simp [Grid.new], by simp [Grid.new], by simp [Grid.new]⟩, ?_⟩
  refine .of_rows narrow short ⟨rfl, rfl⟩ (by simp [Grid.new]) fun line member => ?_
  obtain ⟨y, -, rfl⟩ := List.mem_map.mp member
  exact (length_blank ..).ge

theorem Presentable.apply {u : Unicode} {build : Build} (presentable : Presentable g) {op : Op} (sized : Sized op)
    (done : g.apply u build op = some g') : Presentable g' := by
  have held {next : Grid} (held : Presentable next) (done : some next = some g') : Presentable g' :=
    Option.some.inj done ▸ held
  cases op with
  | set x y cell => exact held (presentable.set x y cell) done
  | clearGlyphAt x y blank => exact held (presentable.rewrites (clearGlyphAt_rewrites ..)) done
  | eraseCells y first stop blank => exact presentable.rewrites (eraseCells_rewrites done)
  | deleteCells y first count blank => exact presentable.rewrites (deleteCells_rewrites done)
  | insertCells y first count blank => exact held (presentable.rewrites (insertCells_rewrites ..)) done
  | setGrapheme x y text cell width => exact held (presentable.setGrapheme ..) done
  | appendToGrapheme x y ch => exact held (presentable.appendToGrapheme ..) done
  | scrollUp blank => exact held (presentable.scrollUp blank) done
  | scrollRegionUp top bottom blank => exact held (presentable.scrollRegionUpInner ..) done
  | scrollRegionUpDiscarding top bottom blank => exact held (presentable.scrollRegionUpInner ..) done
  | scrollRegionDown top bottom blank => exact held (presentable.scrollRegionDown ..) done
  | markAllDamaged => exact held presentable.markAllDamaged done
  | resizeReflow width height blank cursor pending =>
    exact held (presentable.resizeReflow u sized.1 sized.2 blank cursor pending) done

theorem Presentable.step {u : Unicode} (presentable : Presentable g) (step : Step u g g') : Presentable g' := by
  cases step with
  | op build op sized done => exact presentable.apply sized done
  | setScrollbackLimit limit => exact presentable.congr rfl rfl rfl rfl rfl rfl
  | clearScrollback => exact presentable.congr rfl rfl rfl rfl rfl rfl
  | setRowWrapped y wrapped => exact presentable.setRowWrapped y wrapped
  | internHyperlink uri => exact presentable.internHyperlink uri
  | internUnderlineColor color => exact presentable.internUnderlineColor color
  | loadScrollback lines => exact presentable.loadScrollback lines
  | clearDamage => exact presentable.congr rfl rfl rfl rfl rfl rfl

theorem Presentable.freezeScreen (presentable : Presentable g) {frozen : Grid}
    (done : g.freezeScreen = some frozen) : Presentable frozen := by
  have empty : Presentable ((Grid.new g.width g.height).setScrollbackLimit 0) :=
    (new_presentable presentable.narrow presentable.short).congr rfl rfl rfl rfl rfl rfl
  refine foldlM_preserves (fun before entry after held row => ?_) empty done
  unfold freezeRow at row
  split at row
  · refine foldlM_preserves (fun f cell f' held assigned => ?_) (held.setRowWrapped entry.2 entry.1.wrapped) row
    exact (held.freezeCell presentable.texts cell.1).assign assigned
  · contradiction

theorem Reached.presentable {u : Unicode} (reached : Reached u g) : Presentable g := by
  induction reached with
  | new width height => exact new_presentable width.toNat_lt height.toNat_lt
  | step _ step ih => exact ih.step step
  | freezeScreen _ done ih => exact ih.freezeScreen done

end Runs

end Uniterm.Model.Grid
