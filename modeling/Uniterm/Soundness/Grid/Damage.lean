import Uniterm.Machine.Run
import Uniterm.Soundness.Grid.Emission

/-! # Damage completeness

A client keeps the picture of the last `clearDamage`. It shifts that picture up by the pending
scrolls and repaints the damaged ranges. `Tracks` says that this shows the grid: an undamaged cell
still resolves to what the cell `pendingScrollUp` rows below it resolved to at the last clear.
Whole-grid scrolls and edits keep it. A region scroll drops the pending count, so it keeps it only
when there was nothing pending or when the rows outside the region are repainted anyway.
-/

namespace Uniterm.Model.Grid

/-- Whether the damage of a row covers a column. -/
def covers (g : Grid) (x y : ℕ) : Bool :=
  (g.rowDamage y).any fun range => decide (range.1 ≤ x ∧ x ≤ range.2)

/-- Undamaged cells are as they were in the client's picture, shifted by the pending scrolls. -/
def Tracks (picture : ℕ → ℕ → Resolved) (g : Grid) : Prop :=
  ∀ x y, x < g.width → y < g.height → g.covers x y = false →
    y + g.pendingScrollUp < g.height ∧ g.resolve (g.get x y) = picture x (y + g.pendingScrollUp)

section Covers

variable {g : Grid} {x y : ℕ}

private theorem covers_eq (g : Grid) (x y : ℕ) : g.covers x y =
    g.damage[y]?.any fun row => row.dirty && decide (row.lo ≤ x ∧ x ≤ row.hi) := by
  unfold covers rowDamage
  cases g.damage[y]? with
  | none => rfl
  | some row => cases dirty : row.dirty <;> simp [dirty]

/-- Marking a cell covers it and uncovers nothing. -/
theorem markDamage_covers (g : Grid) (x y : ℕ) (bound : y < g.damage.length) (x' y' : ℕ) :
    (x' = x ∧ y' = y ∨ g.covers x' y' = true) → (g.markDamage x y).covers x' y' = true := by
  rw [covers_eq, covers_eq, markDamage]
  dsimp only
  rw [List.getElem?_modify]
  by_cases row : y = y'
  · subst row
    rw [List.getElem?_eq_getElem bound]
    cases dirty : g.damage[y].dirty with
    | false =>
      simp [dirty]
      omega
    | true =>
      simp [dirty]
      omega
  · simp [row, Ne.symm row]

/-- A cell left undamaged by an assignment was undamaged and is unchanged. -/
theorem Shaped.set_undamaged (shaped : g.Shaped) (cell : Cell) {x' y' : ℕ}
    (clean : (g.set x y cell).covers x' y' = false) :
    g.covers x' y' = false ∧ (g.set x y cell).get x' y' = g.get x' y' := by
  by_cases inside : x < g.width ∧ y < g.height
  swap
  · have idle : g.set x y cell = g := by rw [Grid.set, if_pos (by omega)]
    rw [idle] at clean ⊢
    exact ⟨clean, rfl⟩
  by_cases same : g.get x y = cell
  · have idle : g.set x y cell = g := by rw [Grid.set, if_neg (by omega), if_pos same]
    rw [idle] at clean ⊢
    exact ⟨clean, rfl⟩
  have uncovered : ¬(x' = x ∧ y' = y ∨ g.covers x' y' = true) := by
    intro covered
    rw [Grid.set, if_neg (by omega), if_neg same] at clean
    have marked := markDamage_covers _ x y (by rw [shaped.damage]; exact inside.2) x' y' covered
    exact Bool.false_ne_true (clean.symm.trans marked)
  rw [not_or, Bool.not_eq_true] at uncovered
  exact ⟨uncovered.2, by rw [shaped.get_set inside.1 inside.2, if_neg uncovered.1]⟩

end Covers

section Tracks

variable {g : Grid} {picture : ℕ → ℕ → Resolved}

/-- An assignment either leaves its cell as it was or damages it. -/
theorem Tracks.set (tracks : g.Tracks picture) (shaped : g.Shaped) (x y : ℕ) (cell : Cell) :
    (g.set x y cell).Tracks picture := by
  intro x' y' column row clean
  obtain ⟨before, same⟩ := shaped.set_undamaged cell clean
  rw [set_width] at column
  rw [set_height] at row ⊢
  rw [set_pendingScrollUp, set_resolve, same]
  exact tracks x' y' column row before

/-- Renumbering handles is invisible. -/
theorem Tracks.sameView {g' : Grid} (tracks : g.Tracks picture) (same : SameView g g') :
    g'.Tracks picture := by
  intro x y column row clean
  rw [same.resolve_get]
  have width : g'.width = g.width := by rw [same.rest]
  have height : g'.height = g.height := by rw [same.rest]
  have pending : g'.pendingScrollUp = g.pendingScrollUp := by rw [same.rest]
  have covers : g'.covers x y = g.covers x y := by rw [same.rest]; rfl
  rw [width] at column
  rw [height] at row ⊢
  rw [pending]
  exact tracks x y column row (covers ▸ clean)

theorem Tracks.edits {g' : Grid} {y : ℕ} (tracks : g.Tracks picture) (wf : g.WellFormed)
    (edits : Edits y g g') : g'.Tracks picture := by
  have both : g'.WellFormed ∧ g'.Tracks picture := by
    refine edits.keeps (fun g => g.WellFormed ∧ g.Tracks picture) (fun g x cell held known => ?_)
      (fun g x source held => ?_) (fun g text held => ?_) ⟨wf, tracks⟩
    · exact ⟨held.1.edits (.single (.set x cell known)), held.2.set held.1.toShaped x y cell⟩
    · exact ⟨held.1.edits (y := y) (.single (.copy x source)), held.2.set held.1.toShaped x y _⟩
    · exact ⟨held.1.edits (y := y) (.single (.intern text)),
        held.2.sameView (held.1.toClustersValid.intern text).1⟩
  exact both.2

/-- Once every row is fully damaged, there is nothing left to track. -/
theorem tracks_of_covered (covered : ∀ x y, x < g.width → y < g.height → g.covers x y = true) :
    g.Tracks picture := by
  intro x y column row clean
  rw [covered x y column row] at clean
  contradiction

private theorem covers_fullRow {row : RowDamage} {x y : ℕ} (read : g.damage[y]? = some row)
    (full : row = g.fullRow) (column : x < g.width) : g.covers x y = true := by
  rw [covers_eq, read, full]
  simp [fullRow]
  omega

private theorem markAllDamaged_covers (wide : 0 < g.width) (damage : g.damage.length = g.height) {x y : ℕ}
    (column : x < g.width) (row : y < g.height) : g.markAllDamaged.covers x y = true := by
  have bound : y < g.damage.length := by omega
  rw [markAllDamaged, if_neg (by omega)]
  refine covers_fullRow ?_ rfl column
  simp [bound, fullRow]

private theorem markRowsDamaged_covers {top bottom x y : ℕ} (column : x < g.width)
    (row : y < g.damage.length) : (g.markRowsDamaged top bottom).covers x y =
      if top ≤ y ∧ y ≤ bottom then true else g.covers x y := by
  rw [covers_eq, covers_eq, markRowsDamaged_damage (by omega), List.getElem?_mapIdx,
    List.getElem?_eq_getElem row]
  split
  · simp [fullRow]
    omega
  · rfl

/-- Everything a whole-grid scroll does to the picture. -/
structure ScrolledUp (g g' : Grid) : Prop where
  width : g'.width = g.width
  height : g'.height = g.height
  resolve : ∀ c, g'.resolve c = g.resolve c
  pending : g'.pendingScrollUp = min (g.pendingScrollUp + 1) g.height
  get : ∀ x y, y + 1 < g.height → g'.get x y = g.get x (y + 1)
  covers : ∀ x y, x < g.width → y < g.height →
    g'.covers x y = if y + 1 < g.height then g.covers x (y + 1) else true

theorem Shaped.scrolledUp (shaped : g.Shaped) (blank : Cell) : ScrolledUp g (g.scrollUp blank) := by
  have total := shaped.lines
  have records := shaped.damage
  have tall := shaped.tall
  obtain ⟨departing, rest, lines⟩ := List.exists_cons_of_length_pos (total ▸ tall)
  obtain ⟨first, rows, damage⟩ := List.exists_cons_of_length_pos (records ▸ tall)
  rw [lines, List.length_cons] at total
  rw [damage, List.length_cons] at records
  rw [scrollUp_eq blank lines, damage]
  refine ⟨?_, ?_, fun c => ?_, ?_, fun x y inner => ?_, fun x y column row => ?_⟩
  · rw [markRowsDamaged_frame]
  · rw [markRowsDamaged_frame]
  · rw [markRowsDamaged_frame]
    rfl
  · rw [markRowsDamaged_frame]
  · rw [markRowsDamaged_frame, Grid.get, Grid.get, get?, get?, lines, List.getElem?_cons_succ,
      List.getElem?_append_left (by omega)]
  · rw [markRowsDamaged_covers (by exact column) (by simp; omega)]
    by_cases inner : y + 1 < g.height
    · rw [if_neg (by omega), if_pos inner, covers_eq, covers_eq, damage, List.getElem?_cons_succ,
        List.getElem?_append_left (by omega)]
    · rw [if_pos (by omega), if_neg inner]

/-- The damage rotates with the rows, and the exposed row is damaged. -/
theorem Tracks.scrolledUp {g' : Grid} (tracks : g.Tracks picture) (scrolled : ScrolledUp g g') :
    g'.Tracks picture := by
  intro x y column row clean
  rw [scrolled.width] at column
  rw [scrolled.height] at row
  rw [scrolled.covers x y column row] at clean
  split at clean
  · next inner =>
    obtain ⟨inside, same⟩ := tracks x (y + 1) column inner clean
    have pending : g'.pendingScrollUp = g.pendingScrollUp + 1 := by rw [scrolled.pending]; omega
    rw [scrolled.height, scrolled.resolve, scrolled.get x y inner, same, pending]
    exact ⟨by omega, by rw [Nat.add_assoc, Nat.add_comm 1]⟩
  · contradiction

/-- Nothing is pending, or the rows outside the region are repainted anyway. -/
def RegionTracked (g : Grid) (top bottom : ℕ) : Prop :=
  top ≤ bottom → bottom < g.height → g.pendingScrollUp = 0 ∨
    ∀ x y, x < g.width → y < g.height → y < top ∨ bottom < y → g.covers x y = true

/-- Everything a region scroll does to the picture. -/
structure ScrolledRegion (g g' : Grid) (top bottom : ℕ) : Prop where
  width : g'.width = g.width
  height : g'.height = g.height
  resolve : ∀ c, g'.resolve c = g.resolve c
  pending : g'.pendingScrollUp = 0
  get : ∀ x y, y < top ∨ bottom < y → g'.get x y = g.get x y
  covers : ∀ x y, x < g.width → y < g.height →
    g'.covers x y = if top ≤ y ∧ y ≤ bottom then true else g.covers x y

theorem Shaped.scrolledRegion (shaped : g.Shaped) (history : List Line) {out into top bottom : ℕ}
    (blank : Cell) (leaves : top ≤ out ∧ out ≤ bottom) (enters : top ≤ into ∧ into ≤ bottom) :
    ScrolledRegion g (g.regionScrolled history out into blank top bottom) top bottom := by
  have total := shaped.lines
  unfold regionScrolled
  refine ⟨?_, ?_, fun c => ?_, ?_, fun x y apart => ?_, fun x y column row => ?_⟩
  · rw [markRowsDamaged_frame]
  · rw [markRowsDamaged_frame]
  · rw [markRowsDamaged_frame]
    rfl
  · rw [markRowsDamaged_frame]
  · rw [markRowsDamaged_frame, Grid.get, Grid.get, get?, get?]
    dsimp only
    rcases apart with above | below
    · rw [List.getElem?_insertIdx_of_lt (by omega), List.getElem?_eraseIdx_of_lt (by omega)]
    · rw [List.getElem?_insertIdx_of_gt (by omega), List.getElem?_eraseIdx_of_ge (by omega),
        Nat.sub_add_cancel (by omega)]
  · rw [markRowsDamaged_covers (by exact column) (by rw [shaped.damage]; exact row)]
    rfl

/-- Rows outside the region are untouched, rows inside are damaged, and nothing stays pending. -/
theorem Tracks.scrolledRegion {g' : Grid} {top bottom : ℕ} (tracks : g.Tracks picture)
    (scrolled : ScrolledRegion g g' top bottom) (ordered : top ≤ bottom) (inside : bottom < g.height)
    (tracked : g.RegionTracked top bottom) : g'.Tracks picture := by
  intro x y column row clean
  rw [scrolled.width] at column
  rw [scrolled.height] at row
  rw [scrolled.covers x y column row] at clean
  split at clean
  · contradiction
  next apart =>
  have outer : y < top ∨ bottom < y := by omega
  rcases tracked ordered inside with none | repainted
  · rw [scrolled.height, scrolled.resolve, scrolled.get x y outer, scrolled.pending, ← none]
    exact tracks x y column row clean
  · rw [repainted x y column row outer] at clean
    contradiction

end Tracks

section Operations

/-- The mutating operations of a grid. -/
inductive Op where
  | set (x y : ℕ) (cell : Cell)
  | clearGlyphAt (x y : ℕ) (blank : Cell)
  | eraseCells (y first stop : ℕ) (blank : Cell)
  | deleteCells (y first count : ℕ) (blank : Cell)
  | insertCells (y first count : ℕ) (blank : Cell)
  | setGrapheme (x y : ℕ) (text : Text) (cell : Cell) (width : ℕ)
  | appendToGrapheme (x y : ℕ) (ch : Char)
  | scrollUp (blank : Cell)
  | scrollRegionUp (top bottom : ℕ) (blank : Cell)
  | scrollRegionUpDiscarding (top bottom : ℕ) (blank : Cell)
  | scrollRegionDown (top bottom : ℕ) (blank : Cell)
  | markAllDamaged
  | resizeReflow (width height : ℕ) (blank : Cell) (cursor : ℕ × ℕ) (pending : Bool)

def apply (u : Unicode) (build : Build) (g : Grid) : Op → Option Grid
  | .set x y cell => some (g.set x y cell)
  | .clearGlyphAt x y blank => some (g.clearGlyphAt x y blank)
  | .eraseCells y first stop blank => g.eraseCells build y first stop blank
  | .deleteCells y first count blank => g.deleteCells build y first count blank
  | .insertCells y first count blank => some (g.insertCells y first count blank)
  | .setGrapheme x y text cell width => some (g.setGrapheme x y text cell width)
  | .appendToGrapheme x y ch => some (g.appendToGrapheme u x y ch).1
  | .scrollUp blank => some (g.scrollUp blank)
  | .scrollRegionUp top bottom blank => some (g.scrollRegionUp top bottom blank)
  | .scrollRegionUpDiscarding top bottom blank => some (g.scrollRegionUpDiscarding top bottom blank)
  | .scrollRegionDown top bottom blank => some (g.scrollRegionDown top bottom blank)
  | .markAllDamaged => some g.markAllDamaged
  | .resizeReflow width height blank cursor pending =>
    some (g.resizeReflow u width height blank cursor pending).1

/-- Handles never cross grids: the cells given to an operation carry handles of this grid. -/
def Known (g : Grid) : Op → Prop
  | .set _ _ cell => cell.cluster < g.clusters.length
  | .clearGlyphAt _ _ blank | .eraseCells _ _ _ blank | .deleteCells _ _ _ blank
  | .insertCells _ _ _ blank | .scrollUp blank | .scrollRegionUp _ _ blank
  | .scrollRegionUpDiscarding _ _ blank | .scrollRegionDown _ _ blank
  | .resizeReflow _ _ blank _ _ => blank.cluster < g.clusters.length
  | .setGrapheme .. | .appendToGrapheme .. | .markAllDamaged => True

/-- Region scrolls find nothing pending outside the rows that are repainted anyway. -/
def Tracked (g : Grid) (op : Op) : Prop :=
  g.Known op ∧ match op with
    | .scrollRegionUp top bottom _ | .scrollRegionUpDiscarding top bottom _
    | .scrollRegionDown top bottom _ => g.RegionTracked top bottom
    | _ => True

/-- What a client needs between two renders. -/
def Renderable (picture : ℕ → ℕ → Resolved) (g : Grid) : Prop := g.WellFormed ∧ g.Tracks picture

variable {g g' : Grid} {picture : ℕ → ℕ → Resolved}

theorem Renderable.edits {y : ℕ} (held : g.Renderable picture) (edits : Edits y g g') :
    g'.Renderable picture := ⟨held.1.edits edits, held.2.edits held.1 edits⟩

theorem Renderable.scrollUp (held : g.Renderable picture) {blank : Cell}
    (valid : blank.cluster < g.clusters.length) : (g.scrollUp blank).Renderable picture :=
  ⟨(held.1.toShaped.scrollUp_relines blank).wellFormed held.1 valid,
    held.2.scrolledUp (held.1.toShaped.scrolledUp blank)⟩

theorem Renderable.regionScrolled (held : g.Renderable picture) {history : List Line}
    (kept : ∀ line ∈ history, line ∈ g.scrollback ∨ line ∈ g.lines) {blank : Cell}
    (valid : blank.cluster < g.clusters.length) {out into top bottom : ℕ}
    (leaves : top ≤ out ∧ out ≤ bottom) (enters : top ≤ into ∧ into ≤ bottom)
    (inside : bottom < g.height) (tracked : g.RegionTracked top bottom) :
    (g.regionScrolled history out into blank top bottom).Renderable picture := by
  refine ⟨?_, ?_⟩
  · exact (held.1.toShaped.regionScrolled_relines kept (by omega) (by omega) blank top bottom).wellFormed
      held.1 valid
  · exact held.2.scrolledRegion (held.1.toShaped.scrolledRegion history blank leaves enters)
      (by omega) inside tracked

theorem Renderable.scrollRegionUpInner (held : g.Renderable picture) {blank : Cell}
    (valid : blank.cluster < g.clusters.length) {top bottom : ℕ} (preserve : Bool)
    (tracked : g.RegionTracked top bottom) :
    (g.scrollRegionUpInner top bottom blank preserve).Renderable picture := by
  obtain ⟨_, same⟩ | ⟨_, _, _, same⟩ | ⟨ordered, inside, history, kept, _, same⟩ :=
    g.scrollRegionUpInner_cases top bottom blank preserve
  · rwa [same]
  · rw [same]
    exact held.scrollUp valid
  · rw [same]
    exact held.regionScrolled kept valid ⟨le_rfl, ordered⟩ ⟨ordered, le_rfl⟩ inside tracked

private theorem markAllDamaged_tracks (wide : 0 < g.width) (damage : g.damage.length = g.height) :
    g.markAllDamaged.Tracks picture := by
  refine tracks_of_covered fun x y column row => ?_
  rw [markAllDamaged_frame] at column row
  exact markAllDamaged_covers wide damage column row

/-- A resize that changes anything repaints everything. -/
theorem Tracks.resizeReflow (u : Unicode) (tracks : g.Tracks picture) (wide : 0 < g.width)
    (width height : ℕ) (blank : Cell) (cursor : ℕ × ℕ) (pending : Bool) :
    (g.resizeReflow u width height blank cursor pending).1.Tracks picture := by
  unfold Grid.resizeReflow
  dsimp only
  split
  · exact tracks
  split
  · exact markAllDamaged_tracks wide List.length_replicate
  split
  · obtain ⟨history, folded, _⟩ := foldl_pushScrollback (g.lines.take (g.height - max height 1))
      { g with lines := g.lines.drop (g.height - max height 1) }
    unfold shrinkHeight
    dsimp only
    rw [folded]
    exact markAllDamaged_tracks wide List.length_replicate
  · exact markAllDamaged_tracks (show 0 < max width 1 by omega) List.length_replicate

theorem WellFormed.markAllDamaged (wf : g.WellFormed) : g.markAllDamaged.WellFormed where
  wide := by rw [markAllDamaged_frame]; exact wf.wide
  tall := by rw [markAllDamaged_frame]; exact wf.tall
  lines := by rw [markAllDamaged_frame]; exact wf.lines
  rows := by rw [markAllDamaged_frame]; exact wf.rows
  damage := by rw [markAllDamaged_length, markAllDamaged_frame]; exact wf.damage
  arena := by rw [markAllDamaged_frame]; exact wf.arena
  cells := by rw [markAllDamaged_frame]; exact wf.cells

theorem WellFormed.clearDamage (wf : g.WellFormed) : g.clearDamage.WellFormed where
  wide := wf.wide
  tall := wf.tall
  lines := wf.lines
  rows := wf.rows
  damage := by
    rw [Grid.clearDamage]
    dsimp only
    split
    · rw [List.length_map]
      exact wf.damage
    · exact wf.damage
  arena := wf.arena
  cells := wf.cells

/-- One tracked operation keeps the client able to show the grid. -/
theorem Renderable.apply (u : Unicode) (build : Build) (held : g.Renderable picture) {op : Op}
    (tracked : g.Tracked op) (applied : g.apply u build op = some g') : g'.Renderable picture := by
  obtain ⟨wf, tracks⟩ := held
  cases op with
  | set x y cell =>
    obtain rfl := Option.some.inj applied
    exact Renderable.edits ⟨wf, tracks⟩ (.single (.set x cell tracked.1))
  | clearGlyphAt x y blank =>
    obtain rfl := Option.some.inj applied
    exact Renderable.edits ⟨wf, tracks⟩ ((clearGlyphAt_rewrites ..).edits tracked.1)
  | eraseCells y first stop blank =>
    exact Renderable.edits ⟨wf, tracks⟩ ((eraseCells_rewrites applied).edits tracked.1)
  | deleteCells y first count blank =>
    exact Renderable.edits ⟨wf, tracks⟩ ((deleteCells_rewrites applied).edits tracked.1)
  | insertCells y first count blank =>
    obtain rfl := Option.some.inj applied
    exact Renderable.edits ⟨wf, tracks⟩ ((insertCells_rewrites ..).edits tracked.1)
  | setGrapheme x y text cell width =>
    obtain rfl := Option.some.inj applied
    exact Renderable.edits ⟨wf, tracks⟩ (wf.toClustersValid.setGrapheme_edits ..)
  | appendToGrapheme x y ch =>
    obtain rfl := Option.some.inj applied
    exact Renderable.edits ⟨wf, tracks⟩ (wf.toClustersValid.appendToGrapheme_edits ..)
  | scrollUp blank =>
    obtain rfl := Option.some.inj applied
    exact Renderable.scrollUp ⟨wf, tracks⟩ tracked.1
  | scrollRegionUp top bottom blank =>
    obtain rfl := Option.some.inj applied
    exact Renderable.scrollRegionUpInner ⟨wf, tracks⟩ tracked.1 _ tracked.2
  | scrollRegionUpDiscarding top bottom blank =>
    obtain rfl := Option.some.inj applied
    exact Renderable.scrollRegionUpInner ⟨wf, tracks⟩ tracked.1 _ tracked.2
  | scrollRegionDown top bottom blank =>
    obtain rfl := Option.some.inj applied
    obtain ⟨_, same⟩ | ⟨ordered, inside, same⟩ := g.scrollRegionDown_cases top bottom blank
    · rw [same]
      exact ⟨wf, tracks⟩
    · rw [same]
      exact Renderable.regionScrolled ⟨wf, tracks⟩ (fun _ member => .inl member) tracked.1
        ⟨ordered, le_rfl⟩ ⟨le_rfl, ordered⟩ inside tracked.2
  | markAllDamaged =>
    obtain rfl := Option.some.inj applied
    exact ⟨wf.markAllDamaged, markAllDamaged_tracks wf.wide wf.damage⟩
  | resizeReflow width height blank cursor pending =>
    obtain rfl := Option.some.inj applied
    exact ⟨wf.resizeReflow u width height tracked.1 cursor pending,
      tracks.resizeReflow u wf.wide width height blank cursor pending⟩

/-- Shifting the picture of `g` up by the pending scrolls and repainting the damage shows `g'`. -/
def DamageComplete (g g' : Grid) : Prop := g'.Tracks fun x y => g.resolve (g.get x y)

/-- After any run of tracked operations from a cleared grid, the damage is complete. -/
theorem damageComplete_of_tracked (u : Unicode) (build : Build) (g g' : Grid) (wf : g.WellFormed)
    (ops : List Op) (tracked : Machine.Guards Tracked (Grid.apply u build) g.clearDamage ops)
    (ran : Machine.exec (Grid.apply u build) g.clearDamage ops = some g') : DamageComplete g g' := by
  have start : g.clearDamage.Renderable fun x y => g.resolve (g.get x y) := by
    refine ⟨wf.clearDamage, fun x y _ row _ => ⟨row, rfl⟩⟩
  exact (Machine.exec_preserves (fun _ _ _ held guard applied => held.apply u build guard applied)
    start tracked ran).2

end Operations

private theorem new_wellFormed {width height : ℕ} (wide : 0 < width) (tall : 0 < height) :
    (new width height).WellFormed where
  wide := wide
  tall := tall
  lines := by simp [new]
  rows line member := by
    obtain ⟨y, _, rfl⟩ := List.mem_map.mp member
    simp [new, Line.blank]
  damage := by simp [new]
  arena := Nat.one_pos
  cells line member c inside := by
    obtain ⟨y, _, rfl⟩ := List.mem_map.mp member
    rw [mem_blank inside]
    exact Nat.one_pos

/-- Every character one column wide and a grapheme of its own. -/
def plainUnicode : Unicode := ⟨fun _ => some 1, List.length, List.length⟩

/-- One column of four different rows. -/
def fourRows : Grid :=
  ((((new 1 4).set 0 0 { ch := 'a' }).set 0 1 { ch := 'b' }).set 0 2 { ch := 'c' }).set 0 3 { ch := 'd' }

private theorem fourRows_wellFormed : fourRows.WellFormed := by
  have blank : (new 1 4).WellFormed := new_wellFormed Nat.one_pos (by decide)
  have first := blank.edits (.single (.set (y := 0) 0 { ch := 'a' } (by decide)))
  have second := first.edits (.single (.set (y := 1) 0 { ch := 'b' } (by decide)))
  have third := second.edits (.single (.set (y := 2) 0 { ch := 'c' } (by decide)))
  exact third.edits (.single (.set (y := 3) 0 { ch := 'd' } (by decide)))

/-- A whole-grid scroll after a region scroll is tracked. -/
theorem damageComplete_of_tracked_regionFirst : ∃ g',
    Machine.exec (Grid.apply plainUnicode .release) fourRows.clearDamage
      [.scrollRegionUp 0 1 {}, .scrollUp {}] = some g' ∧ DamageComplete fourRows g' := by
  refine ⟨_, rfl, damageComplete_of_tracked plainUnicode .release fourRows _ fourRows_wellFormed
    [.scrollRegionUp 0 1 {}, .scrollUp {}] ?_ rfl⟩
  refine ⟨⟨Nat.one_pos, fun _ _ => .inl rfl⟩, fun g applied => ⟨⟨?_, trivial⟩, fun _ _ => trivial⟩⟩
  obtain rfl := Option.some.inj applied
  exact Nat.one_pos

/-- A region scroll after a whole-grid scroll forgets that the rows below it have moved. -/
theorem not_damageComplete_of_known : ¬ ∀ (g g' : Grid) (ops : List Op), g.WellFormed →
    Machine.Guards Known (Grid.apply plainUnicode .release) g.clearDamage ops →
    Machine.exec (Grid.apply plainUnicode .release) g.clearDamage ops = some g' →
    DamageComplete g g' := by
  intro complete
  have shown := complete fourRows _ [.scrollUp {}, .scrollRegionUp 0 1 {}] fourRows_wellFormed
    ⟨Nat.one_pos, fun g applied => ⟨by obtain rfl := Option.some.inj applied; exact Nat.one_pos,
      fun _ _ => trivial⟩⟩ rfl 0 2 (by decide) (by decide) (by decide)
  revert shown
  decide

end Uniterm.Model.Grid
