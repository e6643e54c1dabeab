import Mathlib.Logic.Relation
import Uniterm.Soundness.Grid.Resolve

/-! # Edits of the visible cells

Every editing operation is a sequence of `set` calls on one row, with at most one grapheme interned
in between. `Rewrite` and `Edit` name the single steps, so an invariant of the grid is proved for
`set` and `intern` and holds after every operation.
-/

namespace Uniterm.Model.Grid

open Relation

section Set

variable (g : Grid) (x y : ℕ) (cell : Cell)

/-- Assigning a cell its own value changes nothing, so the early return needs no case. -/
theorem set_lines : (g.set x y cell).lines =
    if x < g.width ∧ y < g.height then
      g.lines.modify y fun line => { line with cells := line.cells.set x cell }
    else g.lines := by
  unfold set
  by_cases inside : x < g.width ∧ y < g.height
  swap
  · rw [if_neg inside, if_pos (by omega)]
  rw [if_pos inside, if_neg (by omega)]
  split
  · next same =>
    refine List.ext_getElem? fun i => ?_
    rw [List.getElem?_modify]
    by_cases row : y = i
    · subst row
      simp only [↓reduceIte]
      cases read : g.lines[y]? with
      | none => rfl
      | some line =>
        by_cases bound : x < line.cells.length
        · have value : line.cells[x] = cell := by simpa [get, get?, read, bound] using same
          simp [← value]
        · simp [List.set_eq_of_length_le (Nat.le_of_not_lt bound)]
    · simp [row]
  · rfl

/-- A cell assignment touches nothing beside the visible lines and their damage. -/
theorem set_frame : g.set x y cell = { g with
    lines := (g.set x y cell).lines, damage := (g.set x y cell).damage,
    anyDamage := (g.set x y cell).anyDamage } := by
  unfold set
  split
  · rfl
  · split <;> rfl

@[simp] theorem set_width : (g.set x y cell).width = g.width := by rw [set_frame]
@[simp] theorem set_height : (g.set x y cell).height = g.height := by rw [set_frame]
@[simp] theorem set_clusters : (g.set x y cell).clusters = g.clusters := by rw [set_frame]
@[simp] theorem set_scrollback : (g.set x y cell).scrollback = g.scrollback := by rw [set_frame]
@[simp] theorem set_pendingScrollUp :
    (g.set x y cell).pendingScrollUp = g.pendingScrollUp := by rw [set_frame]

theorem set_line (i : ℕ) : (g.set x y cell).lines[i]? =
    if x < g.width ∧ y < g.height ∧ i = y then
      g.lines[i]?.map fun line => { line with cells := line.cells.set x cell }
    else g.lines[i]? := by
  rw [set_lines]
  by_cases inside : x < g.width ∧ y < g.height
  · rw [if_pos inside, List.getElem?_modify]
    by_cases row : y = i
    · subst row
      simp [inside]
    · simp [row, Ne.symm row]
  · rw [if_neg inside, if_neg (by tauto)]

theorem set_resolve (c : Cell) : (g.set x y cell).resolve c = g.resolve c := by rw [set_frame]; rfl

end Set

/-- One assignment on a row: a blank, or a cell moved within the row. -/
inductive Rewrite (y : ℕ) (blank : Cell) (g : Grid) : Grid → Prop
  | clear (x : ℕ) : Rewrite y blank g (g.set x y blank)
  | copy (x source : ℕ) : Rewrite y blank g (g.set x y (g.get source y))

abbrev Rewrites (y : ℕ) (blank : Cell) : Grid → Grid → Prop := ReflTransGen (Rewrite y blank)

/-- One step of an edit: a cell that the arena can resolve, a moved cell, or an interned text. -/
inductive Edit (y : ℕ) (g : Grid) : Grid → Prop
  | set (x : ℕ) (cell : Cell) (valid : cell.cluster < g.clusters.length) : Edit y g (g.set x y cell)
  | copy (x source : ℕ) : Edit y g (g.set x y (g.get source y))
  | intern (text : Text) : Edit y g (g.intern text).1

abbrev Edits (y : ℕ) : Grid → Grid → Prop := ReflTransGen (Edit y)

section Rewrites

variable {y : ℕ} {blank : Cell} {g g' : Grid}

/-- What every assignment keeps, every rewrite of a row keeps. -/
theorem Rewrites.keeps (inv : Grid → Prop)
    (clear : ∀ g x, inv g → inv (g.set x y blank))
    (copy : ∀ g x source, inv g → inv (g.set x y (g.get source y)))
    (rewrites : Rewrites y blank g g') (held : inv g) : inv g' := by
  induction rewrites with
  | refl => exact held
  | tail _ step ih =>
    cases step with
    | clear x => exact clear _ x ih
    | copy x source => exact copy _ x source ih

theorem Rewrites.clusters (rewrites : Rewrites y blank g g') : g'.clusters = g.clusters :=
  rewrites.keeps (fun h => h.clusters = g.clusters) (fun _ _ same => by simpa using same)
    (fun _ _ _ same => by simpa using same) rfl

/-- With a blank that the arena can resolve, a rewrite is an edit. -/
theorem Rewrites.edits (rewrites : Rewrites y blank g g') (valid : blank.cluster < g.clusters.length) :
    Edits y g g' := by
  induction rewrites with
  | refl => exact .refl
  | tail before step ih =>
    cases step with
    | clear x => exact ih.tail (.set x blank (by rwa [Rewrites.clusters before]))
    | copy x source => exact ih.tail (.copy x source)

theorem clearGlyphAt_rewrites (g : Grid) (x y : ℕ) (blank : Cell) :
    Rewrites y blank g (g.clearGlyphAt x y blank) := by
  unfold clearGlyphAt
  dsimp only
  split
  · exact .refl
  split
  · exact (ReflTransGen.single (.clear (x - 1))).tail (.clear x)
  split
  · exact (ReflTransGen.single (.clear x)).tail (.clear (x + 1))
  · exact .single (.clear x)

private theorem eraseLoop_rewrites {build : Build} {stop fuel x : ℕ}
    (erased : eraseLoop build y stop blank fuel x g = some g') : Rewrites y blank g g' := by
  induction fuel generalizing x g with
  | zero => simp [eraseLoop] at erased
  | succ fuel ih =>
    rw [eraseLoop] at erased
    split at erased
    · obtain ⟨following, _, rest⟩ := Option.bind_eq_some_iff.mp erased
      exact (clearGlyphAt_rewrites g x y blank).trans (ih rest)
    · obtain rfl := Option.some.inj erased
      exact .refl

theorem eraseCells_rewrites {build : Build} {first stop : ℕ}
    (erased : g.eraseCells build y first stop blank = some g') : Rewrites y blank g g' := by
  unfold eraseCells at erased
  split at erased
  · obtain rfl := Option.some.inj erased
    exact .refl
  · exact eraseLoop_rewrites erased

/-- A fold of steps that each rewrite the row rewrites it. -/
private theorem foldl_rewrites (step : Grid → ℕ → Grid)
    (rewrites : ∀ g x, Rewrites y blank g (step g x)) (xs : List ℕ) (g : Grid) :
    Rewrites y blank g (xs.foldl step g) := by
  induction xs generalizing g with
  | nil => exact .refl
  | cons x xs ih => exact (rewrites g x).trans (ih (step g x))

theorem repairWideRow_rewrites (g : Grid) (y : ℕ) (blank : Cell) :
    Rewrites y blank g (g.repairWideRow y blank) := by
  refine foldl_rewrites _ (fun g x => ?_) _ g
  dsimp only
  split
  · split
    · exact .refl
    · exact .single (.clear x)
  split
  · split
    · exact .refl
    · exact .single (.clear x)
  · exact .refl

/-- A deletion shifts cells within the row and repairs it. -/
theorem deleteCells_shifts {build : Build} {first count : ℕ}
    (deleted : g.deleteCells build y first count blank = some g') :
    g' = g ∨ y < g.height ∧ ∃ shifted, Rewrites y blank g shifted ∧
      g' = shifted.repairWideRow y blank := by
  unfold deleteCells at deleted
  by_cases nothing : y ≥ g.height ∨ first ≥ g.width ∨ count = 0
  · rw [if_pos nothing] at deleted
    exact .inl (Option.some.inj deleted).symm
  rw [if_neg nothing] at deleted
  obtain ⟨shifted, moved, repaired⟩ := Option.bind_eq_some_iff.mp deleted
  refine .inr ⟨by omega, shifted, ?_, (Option.some.inj repaired).symm⟩
  clear deleted repaired nothing
  generalize List.range' first (g.width - first) = xs at moved
  generalize min count (g.width - first) = count at moved
  induction xs generalizing g with
  | nil =>
    obtain rfl := Option.some.inj moved
    exact .refl
  | cons x xs ih =>
    rw [List.foldlM_cons] at moved
    obtain ⟨next, step, rest⟩ := Option.bind_eq_some_iff.mp moved
    obtain ⟨source, _, assigned⟩ := Option.bind_eq_some_iff.mp step
    obtain rfl := Option.some.inj assigned
    refine ReflTransGen.trans ?_ (ih rest)
    split
    · exact .single (.copy x source)
    · exact .single (.clear x)

theorem deleteCells_rewrites {build : Build} {first count : ℕ}
    (deleted : g.deleteCells build y first count blank = some g') : Rewrites y blank g g' := by
  rcases deleteCells_shifts deleted with rfl | ⟨_, shifted, moved, rfl⟩
  · exact .refl
  · exact moved.trans (repairWideRow_rewrites shifted y blank)

/-- An insertion shifts cells within the row and repairs it. -/
theorem insertCells_shifts (g : Grid) (y first count : ℕ) (blank : Cell) :
    g.insertCells y first count blank = g ∨ y < g.height ∧ ∃ shifted, Rewrites y blank g shifted ∧
      g.insertCells y first count blank = shifted.repairWideRow y blank := by
  unfold insertCells
  split
  · exact .inl rfl
  · refine .inr ⟨by omega, _, foldl_rewrites _ (fun g x => ?_) _ g, rfl⟩
    split
    · exact .single (.copy x _)
    · exact .single (.clear x)

theorem insertCells_rewrites (g : Grid) (y first count : ℕ) (blank : Cell) :
    Rewrites y blank g (g.insertCells y first count blank) := by
  rcases insertCells_shifts g y first count blank with same | ⟨_, shifted, moved, inserted⟩
  · rw [same]
  · rw [inserted]
    exact moved.trans (repairWideRow_rewrites shifted y blank)

theorem clearColumns_rewrites (g : Grid) (x y width : ℕ) (blank : Cell) :
    Rewrites y blank g (g.clearColumns x y width blank) := by
  unfold clearColumns
  dsimp only
  split
  · exact (clearGlyphAt_rewrites ..).trans (clearGlyphAt_rewrites ..)
  · exact clearGlyphAt_rewrites ..

end Rewrites

section Edits

variable {g g' : Grid} {y : ℕ}

/-- What assignments and interning keep, every edit keeps. -/
theorem Edits.keeps (inv : Grid → Prop)
    (set : ∀ g x cell, inv g → cell.cluster < g.clusters.length → inv (g.set x y cell))
    (copy : ∀ g x source, inv g → inv (g.set x y (g.get source y)))
    (intern : ∀ g text, inv g → inv (g.intern text).1)
    (edits : Edits y g g') (held : inv g) : inv g' := by
  induction edits with
  | refl => exact held
  | tail _ step ih =>
    cases step with
    | set x cell valid => exact set _ x cell ih valid
    | copy x source => exact copy _ x source ih
    | intern text => exact intern _ text ih

/-- The handle given to a text is one that the arena holds. -/
theorem textHandle_edits (valid : g.ClustersValid) (y : ℕ) (text : Text) :
    Edits y g (g.textHandle text).1 ∧
      (g.textHandle text).2 < (g.textHandle text).1.clusters.length := by
  unfold textHandle
  split
  · exact ⟨.single (.intern text), (List.getElem?_eq_some_iff.mp (valid.intern text).2.2).1⟩
  · exact ⟨.refl, valid.arena⟩

private theorem writeGlyph_edits (x y : ℕ) (lead : Cell) (valid : lead.cluster < g.clusters.length) :
    Edits y g (g.writeGlyph x y lead) := by
  unfold writeGlyph
  dsimp only
  split
  · refine (ReflTransGen.single (.set x lead valid)).tail (.set (x + 1) _ ?_)
    rw [set_clusters]
    exact Nat.zero_lt_of_lt valid
  · exact .single (.set x lead valid)

end Edits

/-- Assigning a cell that the arena can resolve keeps every retained cell resolvable. -/
theorem ClustersValid.set {g : Grid} (valid : g.ClustersValid) (x y : ℕ) {cell : Cell}
    (known : cell.cluster < g.clusters.length) : (g.set x y cell).ClustersValid := by
  refine ⟨by rw [set_clusters]; exact valid.arena, fun line member c inside => ?_⟩
  rw [set_clusters]
  rcases List.mem_append.mp member with history | screen
  · rw [set_scrollback] at history
    exact valid.cells line (List.mem_append_left _ history) c inside
  · obtain ⟨i, read⟩ := List.getElem?_of_mem screen
    rw [set_line] at read
    split at read
    · obtain ⟨old, found, rfl⟩ := Option.map_eq_some_iff.mp read
      rcases List.mem_or_eq_of_mem_set inside with before | rfl
      · exact valid.cells old (List.mem_append_right _ (List.mem_of_getElem? found)) c before
      · exact known
    · exact valid.cells line (List.mem_append_right _ (List.mem_of_getElem? read)) c inside

theorem ClustersValid.get {g : Grid} (valid : g.ClustersValid) (x y : ℕ) :
    (g.get x y).cluster < g.clusters.length := by
  unfold Grid.get get?
  cases read : g.lines[y]? with
  | none => exact valid.arena
  | some line =>
    rw [Option.bind_some]
    cases found : line.cells[x]? with
    | none => exact valid.arena
    | some c =>
      exact valid.cells line (List.mem_append_right _ (List.mem_of_getElem? read)) c
        (List.mem_of_getElem? found)

theorem ClustersValid.edits {g g' : Grid} {y : ℕ} (valid : g.ClustersValid) (edits : Edits y g g') :
    g'.ClustersValid :=
  edits.keeps ClustersValid (fun _ x _ valid known => valid.set x y known)
    (fun _ x source valid => valid.set x y (valid.get source y))
    (fun _ text valid => (valid.intern text).2.1) valid

/-- A grapheme is written in three steps: clear its columns, intern its text, assign its cells. -/
theorem ClustersValid.setGrapheme_edits {g : Grid} (valid : g.ClustersValid) (x y : ℕ) (text : Text)
    (cell : Cell) (width : ℕ) : Edits y g (g.setGrapheme x y text cell width) := by
  unfold setGrapheme
  dsimp only
  split
  · exact .refl
  split
  · exact .refl
  have cleared : Edits y g (g.clearColumns x y (max 1 (min width 2)) { fg := cell.fg, bg := cell.bg }) :=
    (clearColumns_rewrites ..).edits valid.arena
  obtain ⟨named, known⟩ := textHandle_edits (valid.edits cleared) y text
  exact (cleared.trans named).trans (writeGlyph_edits x y _ known)

theorem ClustersValid.appendToGrapheme_edits (u : Unicode) {g : Grid} (valid : g.ClustersValid)
    (x y : ℕ) (ch : Char) : Edits y g (g.appendToGrapheme u x y ch).1 := by
  unfold appendToGrapheme
  dsimp only
  generalize (if (g.get x y).isContinuation = true ∧ x > 0 then x - 1 else x) = leadX
  split
  · exact .refl
  split
  · exact valid.setGrapheme_edits ..
  · exact .refl

end Uniterm.Model.Grid
