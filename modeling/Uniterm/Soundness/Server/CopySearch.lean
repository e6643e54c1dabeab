import Uniterm.Model.Server.CopyMode
import Uniterm.Soundness.Grid.Freezing
import Uniterm.Soundness.Server.CopyHistory
import Uniterm.ToMathlib.Cyclic

/-! # Bounds and search of copy-mode

The cursor stays inside its viewport, and synchronization brings the viewport back inside the buffer. From there a
search goes once around the buffer and stops at the first line that contains the query.
-/

namespace Uniterm.Model.Server

open Grid ToMathlib Workspace CopyMode

section Texts

private theorem len_append (first second : Text) : (first ++ second).len = first.len + second.len := by
  rw [Text.len, Text.len, Text.len, List.map_append, List.sum_append]

private theorem len_pos {text : Text} (some : text ≠ []) : 0 < text.len := by
  cases text with
  | nil => exact absurd rfl some
  | cons c rest => exact Nat.add_pos_left c.utf8Size_pos _

/-- A text begins with some characters and goes on with a query, and does not contain the query any earlier. -/
structure FirstMatch (query text before : Text) : Prop where
  here : ∃ after, text = before ++ query ++ after
  first : ∀ earlier after, text = earlier ++ query ++ after → before.length ≤ earlier.length

private theorem find_eq_some {query text : Text} {b : ℕ} (found : Text.find query text = some b) :
    ∃ before, FirstMatch query text before ∧ b = before.len := by
  induction text generalizing b with
  | nil =>
    rw [Text.find, Option.ite_none_right_eq_some, List.isEmpty_iff, Option.some.injEq] at found
    obtain ⟨rfl, rfl⟩ := found
    exact ⟨[], ⟨⟨[], rfl⟩, fun _ _ _ => Nat.zero_le _⟩, rfl⟩
  | cons c rest ih =>
    rw [Text.find] at found
    split at found
    next starts =>
      obtain ⟨after, same⟩ := List.isPrefixOf_iff_prefix.mp starts
      obtain rfl := Option.some.inj found
      exact ⟨[], ⟨⟨after, same.symm⟩, fun _ _ _ => Nat.zero_le _⟩, rfl⟩
    next other =>
      obtain ⟨b', later, rfl⟩ := Option.map_eq_some_iff.mp found
      obtain ⟨before, ⟨⟨after, same⟩, first⟩, rfl⟩ := ih later
      refine ⟨c :: before, ⟨⟨after, congrArg (c :: ·) same⟩, fun earlier after' same' => ?_⟩, rfl⟩
      cases earlier with
      | nil => exact absurd (List.isPrefixOf_iff_prefix.mpr ⟨after', same'.symm⟩) other
      | cons d earlier =>
        rw [List.cons_append, List.cons_append, List.cons.injEq] at same'
        exact Nat.succ_le_succ (first earlier after' same'.2)

private theorem find_eq_none {query text : Text} : Text.find query text = none ↔ ¬ query <:+: text := by
  induction text with
  | nil =>
    rw [Text.find, List.infix_nil, ite_eq_right_iff, List.isEmpty_iff]
    simp
  | cons c rest ih =>
    rw [Text.find, List.infix_cons_iff, not_or, ← ih, ← List.isPrefixOf_iff_prefix]
    split
    next starts => simp [starts]
    next other => simp [other]

variable {g : Grid}

/-- The glyph that holds a byte of the text of some glyphs. -/
theorem columnOf_eq_some {glyphs : List (ℕ × Cell)} (texts : ∀ glyph ∈ glyphs, g.cellTextOwned glyph.2 ≠ []) {bytes b : ℕ}
    (low : bytes ≤ b) (high : b < bytes + (glyphsText g glyphs).len) :
    ∃ left x cell right, glyphs = left ++ (x, cell) :: right ∧ columnOf g b bytes glyphs = some x ∧
      bytes + (glyphsText g left).len ≤ b ∧ b < bytes + (glyphsText g left).len + (g.cellTextOwned cell).len := by
  induction glyphs generalizing bytes with
  | nil => exact absurd low (Nat.not_le_of_lt high)
  | cons glyph rest ih =>
    obtain ⟨x, cell⟩ := glyph
    have some := len_pos (texts _ (List.mem_cons_self ..))
    dsimp only at some
    rw [glyphsText, List.flatMap_cons, len_append, ← glyphsText] at high
    rw [columnOf]
    split
    next here =>
      have zero : (glyphsText g []).len = 0 := rfl
      exact ⟨[], x, cell, rest, rfl, rfl, by omega, by omega⟩
    next further =>
      obtain ⟨left, x', cell', right, same, found, low', high'⟩ :=
        ih (fun glyph member => texts glyph (List.mem_cons_of_mem _ member)) (by omega)
          (by dsimp only at high; omega : b < bytes + (g.cellTextOwned cell).len + (glyphsText g rest).len)
      refine ⟨(x, cell) :: left, x', cell', right, congrArg _ same, found, ?_⟩
      rw [glyphsText, List.flatMap_cons, len_append, ← glyphsText]
      dsimp only
      omega

private theorem mem_glyphsFrom {i stop fuel x : ℕ} {glyph : ℕ × Cell} (member : glyph ∈ glyphsFrom g i stop fuel x) :
    glyph.1 < stop ∧ ¬ glyph.2.isContinuation := by
  induction fuel generalizing x with
  | zero => nomatch member
  | succ fuel ih =>
    unfold glyphsFrom at member
    split at member
    next before =>
      dsimp only at member
      split at member
      · exact ih member
      next lead =>
        obtain rfl | later := List.mem_cons.mp member
        · exact ⟨before, lead⟩
        · exact ih later
    · nomatch member

private theorem cellTextOwned_ne_nil (arenas : Arenas g) {cell : Cell} (lead : ¬ cell.isContinuation) :
    g.cellTextOwned cell ≠ [] := by
  unfold Grid.cellTextOwned
  rw [if_neg lead]
  split
  next cluster =>
    cases read : g.clusters[cell.cluster]? with
    | none => exact List.cons_ne_nil _ _
    | some text =>
      refine arenas.texts text (List.mem_of_getElem? (i := cell.cluster - 1) ?_)
      rw [List.getElem?_tail, Nat.sub_add_cancel (Nat.one_le_iff_ne_zero.mpr cluster), read]
  · exact List.cons_ne_nil _ _

end Texts

section Bounds

/-- A grid of the size of a pane. -/
structure Fills (u : Unicode) (rect : Rect) (g : Grid) : Prop where
  reached : Reached u g
  width : g.width = rect.w
  height : g.height = rect.h

/-- Copy-mode with its cursor inside the viewport of a pane, and frozen rows of the pane's size. -/
structure Kept (u : Unicode) (rect : Rect) (s : CopyState) : Prop where
  width : s.width = max rect.w 1
  height : s.height = max rect.h 1
  column : s.cx < s.width
  row : s.cy < s.height
  frozen : ∀ frozen, s.frozen = some frozen → Fills u rect frozen.rows

variable {u : Unicode} {rect : Rect} {g : Grid} {s s' : CopyState}

theorem Kept.of (kept : Kept u rect s) (width : s'.width = s.width) (height : s'.height = s.height)
    (frozen : ∀ frozen, s'.frozen = some frozen → Fills u rect frozen.rows) (column : s'.cx < s.width)
    (row : s'.cy < s.height) : Kept u rect s' where
  width := width.trans kept.width
  height := height.trans kept.height
  column := width ▸ column
  row := height ▸ row
  frozen := frozen

private theorem new_kept (g : Grid) (rect : Rect) : Kept u rect (CopyState.new g rect) where
  width := rfl
  height := rfl
  column := Nat.lt_of_lt_of_le Nat.zero_lt_one (Nat.le_max_right ..)
  row := Nat.sub_lt (Nat.lt_of_lt_of_le Nat.zero_lt_one (Nat.le_max_right ..)) Nat.zero_lt_one
  frozen _ held := nomatch held

theorem Kept.source (kept : Kept u rect s) (fills : Fills u rect g) (line : ℕ) : Fills u rect (s.source g line).1 := by
  unfold CopyState.source
  cases held : s.frozen with
  | none => exact fills
  | some frozen =>
    dsimp only
    split
    · exact kept.frozen frozen held
    · exact fills

/-- The viewport is no taller than what it addresses, unless there is nothing to address. -/
theorem Kept.height_le (kept : Kept u rect s) (fills : Fills u rect g) : s.height ≤ max (s.totalLines g) 1 := by
  rw [kept.height, CopyState.totalLines]
  cases held : s.frozen with
  | none =>
    dsimp only
    rw [Grid.totalLines, fills.height]
    omega
  | some frozen =>
    have := (kept.frozen frozen held).height
    dsimp only
    omega

section Motions

theorem Kept.up (kept : Kept u rect s) : Kept u rect s.up := by
  have row := kept.row
  unfold CopyState.up
  split
  · exact kept.of rfl rfl kept.frozen kept.column (by dsimp only; omega)
  split
  · exact kept.of rfl rfl kept.frozen kept.column row
  · exact kept

theorem Kept.down (kept : Kept u rect s) : Kept u rect (s.down g) := by
  have row := kept.row
  unfold CopyState.down
  split
  · exact kept
  split
  · exact kept.of rfl rfl kept.frozen kept.column (by dsimp only; omega)
  split
  · exact kept.of rfl rfl kept.frozen kept.column row
  · exact kept

/-- The cursor goes to another column of its row. -/
theorem Kept.across (kept : Kept u rect s) {x : ℕ} (inside : x < s.width) : Kept u rect { s with cx := x } :=
  kept.of rfl rfl kept.frozen inside kept.row

theorem Kept.right (kept : Kept u rect s) : Kept u rect s.right := by
  unfold CopyState.right
  split
  next inside => exact kept.across inside
  · exact kept

private theorem forward_lt (p : ℕ → Bool) (fuel : ℕ) {x : ℕ} (inside : x < s.width) : s.forward p fuel x < s.width := by
  induction fuel generalizing x with
  | zero => exact inside
  | succ fuel ih =>
    unfold CopyState.forward
    split
    next further => exact ih further.1
    · exact inside

private theorem backward_le (p : ℕ → Bool) (x : ℕ) : CopyState.backward p x ≤ x := by
  induction x with
  | zero => exact le_rfl
  | succ x ih =>
    unfold CopyState.backward
    split
    · exact ih.trans (Nat.le_succ x)
    · exact le_rfl

theorem Kept.nextBigWord (kept : Kept u rect s) : Kept u rect (s.nextBigWord g) :=
  kept.across (forward_lt _ _ (forward_lt _ _ kept.column))

theorem Kept.previousBigWord (kept : Kept u rect s) : Kept u rect (s.previousBigWord g) :=
  kept.across (Nat.lt_of_le_of_lt ((backward_le ..).trans ((backward_le ..).trans (Nat.sub_le ..))) kept.column)

theorem Kept.endBigWord (kept : Kept u rect s) : Kept u rect (s.endBigWord g) :=
  kept.across (forward_lt _ _ (forward_lt _ _ kept.column))

theorem Kept.page (kept : Kept u rect s) (up : Bool) : Kept u rect (s.page g up) := by
  cases up <;> exact kept.of rfl rfl kept.frozen kept.column kept.row

theorem Kept.cellIn (kept : Kept u rect s) (sx sy : ℕ) :
    (s.cellIn rect sx sy).1 < s.width ∧ (s.cellIn rect sx sy).2 < s.height := by
  have column := kept.column
  have row := kept.row
  unfold CopyState.cellIn
  exact ⟨by dsimp only; omega, by dsimp only; omega⟩

theorem Kept.mouseDrag (kept : Kept u rect s) (sx sy : ℕ) : Kept u rect (s.mouseDrag rect sx sy) :=
  kept.of rfl rfl kept.frozen (kept.cellIn sx sy).1 (kept.cellIn sx sy).2

theorem Kept.syncHistory (kept : Kept u rect s) (g : Grid) : Kept u rect (s.syncHistory g) := by
  have row := kept.row
  rw [syncHistory_eq]
  refine kept.of rfl rfl (fun frozen held => ?_) kept.column (by dsimp only; omega)
  obtain ⟨before, held', rfl⟩ := Option.map_eq_some_iff.mp held
  obtain ⟨reached, width, height⟩ := kept.frozen before held'
  exact ⟨reached, width, height⟩

/-- After synchronization the cursor is on a line, unless there is none. -/
theorem Kept.settled (kept : Kept u rect s) (fills : Fills u rect g) :
    (s.syncHistory g).top ≤ (s.syncHistory g).maxTop g ∧
      ((s.syncHistory g).cursorLine < (s.syncHistory g).totalLines g ∨ (s.syncHistory g).totalLines g = 0) := by
  have tall := (kept.syncHistory g).height_le fills
  have row := (kept.syncHistory g).row
  have top : (s.syncHistory g).top ≤ (s.syncHistory g).maxTop g := Nat.min_le_right ..
  refine ⟨top, ?_⟩
  unfold CopyState.maxTop at top
  unfold CopyState.cursorLine
  omega

theorem Kept.land (kept : Kept u rect s) (fills : Fills u rect g) {line : ℕ} (inside : line < s.totalLines g) (byte : ℕ) :
    Kept u rect (s.land g line byte) := by
  have column := kept.column
  have row := kept.row
  have tall := kept.height_le fills
  refine kept.of rfl rfl kept.frozen ?_ ?_
  · exact Nat.lt_of_le_of_lt (Nat.min_le_right ..) (by omega)
  · refine Nat.lt_of_le_of_lt (Nat.mod_le ..) ?_
    rw [CopyState.maxTop]
    omega

/-- Without a match a search leaves everything, otherwise it lands on a line that matches. -/
theorem Kept.runSearch (kept : Kept u rect s) (fills : Fills u rect g) (forward : Bool) :
    Kept u rect (s.runSearch g forward) := by
  unfold CopyState.runSearch
  split
  · exact kept
  dsimp only
  cases found : (List.range' 1 (s.totalLines g)).findSome? fun step =>
      (Text.find s.query (s.addressed g (s.visited g forward step))).map (s.land g (s.visited g forward step)) with
  | none => exact kept
  | some landed =>
    obtain ⟨step, low, high, hit, -⟩ := findSome?_range'_eq_some found
    obtain ⟨byte, -, rfl⟩ := Option.map_eq_some_iff.mp hit
    refine kept.land fills ?_ byte
    unfold CopyState.visited
    split <;> exact Nat.mod_lt _ (by omega)

end Motions

section Freezing

/-- The screen of a grid can be frozen at the pane's size. -/
theorem Fills.capture (fills : Fills u rect g) : ∃ frozen, FrozenScreen.capture g = some frozen ∧
    Fills u rect frozen.rows := by
  obtain ⟨rows, done, pictures⟩ := fills.reached.presentable.freezes
  refine ⟨⟨g.scrollback.length, rows⟩, ?_, .freezeScreen fills.reached done, pictures.width.trans fills.width,
    pictures.height.trans fills.height⟩
  rw [FrozenScreen.capture, done]
  rfl

theorem Kept.freezeIfConfigured (kept : Kept u rect s) (fills : Fills u rect g) : ∃ frozen,
    s.freezeIfConfigured g = some { s with frozen } ∧ Kept u rect { s with frozen } := by
  unfold CopyState.freezeIfConfigured
  split
  · obtain ⟨frozen, captured, copied⟩ := fills.capture
    refine ⟨some frozen, by rw [captured]; rfl, kept.of rfl rfl (fun other held => ?_) kept.column kept.row⟩
    exact Option.some.inj held ▸ copied
  · exact ⟨s.frozen, rfl, kept⟩

theorem Kept.mouseAnchor (kept : Kept u rect s) (fills : Fills u rect g) (sx sy : ℕ) :
    ∃ s', s.mouseAnchor g rect sx sy = some s' ∧ Kept u rect s' := by
  obtain ⟨frozen, done, frozen_kept⟩ := kept.freezeIfConfigured fills
  unfold CopyState.mouseAnchor
  rw [done]
  obtain ⟨column, row⟩ := frozen_kept.cellIn sx sy
  exact ⟨_, rfl, frozen_kept.of rfl rfl frozen_kept.frozen column row⟩

theorem Kept.toggleSelection (kept : Kept u rect s) (fills : Fills u rect g) :
    ∃ s', s.toggleSelection g = some s' ∧ Kept u rect s' := by
  unfold CopyState.toggleSelection
  split
  · exact ⟨_, rfl, kept.of rfl rfl (fun _ held => nomatch held) kept.column kept.row⟩
  · obtain ⟨frozen, done, frozen_kept⟩ := kept.freezeIfConfigured fills
    rw [done]
    exact ⟨_, rfl, frozen_kept.of rfl rfl frozen_kept.frozen frozen_kept.column frozen_kept.row⟩

end Freezing

section Handling

theorem Kept.typeSearch (kept : Kept u rect s) (fills : Fills u rect g) (b : UInt8) :
    Kept u rect (s.typeSearch g b) := by
  unfold CopyState.typeSearch
  split
  · have searched := kept.runSearch fills true
    exact searched.of rfl rfl searched.frozen searched.column searched.row
  split_ifs <;> exact kept.of rfl rfl kept.frozen kept.column kept.row

theorem Kept.cursorKey (kept : Kept u rect s) (sequence : Bytes) : Kept u rect (s.cursorKey g sequence) := by
  unfold CopyState.cursorKey
  split_ifs
  · exact kept.up
  · exact kept.down
  · exact kept.right
  · exact kept.across (Nat.lt_of_le_of_lt (Nat.sub_le ..) kept.column)
  · exact kept.page true
  · exact kept.page false
  · exact kept

theorem Kept.command (kept : Kept u rect s) (fills : Fills u rect g) (b : UInt8) :
    ∃ s', s.command g b = some s' ∧ Kept u rect s' := by
  have row := kept.row
  unfold CopyState.command
  split
  · exact ⟨_, rfl, kept.up⟩
  · exact ⟨_, rfl, kept.down⟩
  · exact ⟨_, rfl, kept.across (Nat.lt_of_le_of_lt (Nat.sub_le ..) kept.column)⟩
  · exact ⟨_, rfl, kept.right⟩
  iterate 2 exact ⟨_, rfl, kept.nextBigWord⟩
  iterate 2 exact ⟨_, rfl, kept.previousBigWord⟩
  iterate 2 exact ⟨_, rfl, kept.endBigWord⟩
  · exact ⟨_, rfl, kept.page true⟩
  · exact ⟨_, rfl, kept.page false⟩
  · exact ⟨_, rfl, kept.of rfl rfl kept.frozen kept.column (Nat.zero_lt_of_lt row)⟩
  · exact ⟨_, rfl, kept.of rfl rfl kept.frozen kept.column (by dsimp only; omega)⟩
  iterate 2 exact kept.toggleSelection fills
  · exact ⟨_, rfl, kept.of rfl rfl kept.frozen kept.column row⟩
  · exact ⟨_, rfl, kept.runSearch fills true⟩
  · exact ⟨_, rfl, kept.runSearch fills false⟩
  · exact ⟨_, rfl, kept⟩

/-- A batch never aborts and leaves the cursor inside, whatever its bytes are. -/
theorem Kept.handleFrom (kept : Kept u rect s) (fills : Fills u rect g) (fuel : ℕ) (buf : Bytes) (changed : Bool) :
    ∃ s' action, CopyState.handleFrom g fuel buf s changed = some (s', action) ∧ Kept u rect s' := by
  induction fuel generalizing buf s changed with
  | zero => cases buf <;> exact ⟨s, _, rfl, kept⟩
  | succ fuel ih =>
    cases buf with
    | nil => exact ⟨s, _, rfl, kept⟩
    | cons b rest =>
      unfold CopyState.handleFrom
      split
      · exact ih (kept.typeSearch fills b) rest true
      split
      · split
        · cases length : CopyState.csiSequenceLen rest.tail with
          | none => exact ⟨s, _, rfl, kept⟩
          | some length =>
            dsimp only
            split
            · exact ⟨s, _, rfl, kept⟩
            · exact ih (kept.cursorKey _) _ true
        · exact ⟨s, _, rfl, kept⟩
      split
      · exact ⟨s, _, rfl, kept⟩
      split
      · exact ⟨s, _, rfl, kept⟩
      · obtain ⟨next, done, next_kept⟩ := kept.command fills b
        rw [done]
        exact ih next_kept rest true

theorem Kept.handle (kept : Kept u rect s) (fills : Fills u rect g) (buf : Bytes) :
    ∃ s' action, s.handle g buf = some (s', action) ∧ Kept u rect s' :=
  (kept.syncHistory g).handleFrom fills buf.length buf false

end Handling

/-- Copy-mode on a grid of the size of its pane: entered, and then used while the program goes on writing. The states
between the keys of a batch are included. -/
inductive Copying (u : Unicode) (rect : Rect) : Grid → CopyState → Prop
  | new {g : Grid} (fills : Fills u rect g) : Copying u rect g (CopyState.new g rect)
  | output {g g' : Grid} {s : CopyState} (copying : Copying u rect g s) (fills : Fills u rect g') : Copying u rect g' s
  | syncHistory {g : Grid} {s : CopyState} (copying : Copying u rect g s) : Copying u rect g (s.syncHistory g)
  | handle {g : Grid} {s s' : CopyState} (copying : Copying u rect g s) (buf : Bytes) (action : CopyAction)
      (done : s.handle g buf = some (s', action)) : Copying u rect g s'
  | typeSearch {g : Grid} {s : CopyState} (copying : Copying u rect g s) (b : UInt8) :
      Copying u rect g (s.typeSearch g b)
  | cursorKey {g : Grid} {s : CopyState} (copying : Copying u rect g s) (sequence : Bytes) :
      Copying u rect g (s.cursorKey g sequence)
  | command {g : Grid} {s s' : CopyState} (copying : Copying u rect g s) (b : UInt8) (done : s.command g b = some s') :
      Copying u rect g s'
  | mouseAnchor {g : Grid} {s s' : CopyState} (copying : Copying u rect g s) (sx sy : ℕ)
      (done : s.mouseAnchor g rect sx sy = some s') : Copying u rect g s'
  | mouseDrag {g : Grid} {s : CopyState} (copying : Copying u rect g s) (sx sy : ℕ) :
      Copying u rect g (s.mouseDrag rect sx sy)
  | scroll {g : Grid} {s : CopyState} (copying : Copying u rect g s) (lines : ℤ) :
      Copying u rect g (s.scroll g lines).1
  | finishMouseSelection {g : Grid} {s : CopyState} (copying : Copying u rect g s) :
      Copying u rect g s.finishMouseSelection
  | setFreezeOnSelect {g : Grid} {s : CopyState} (copying : Copying u rect g s) (on : Bool) :
      Copying u rect g (s.setFreezeOnSelect on)

theorem Copying.kept (copying : Copying u rect g s) : Fills u rect g ∧ Kept u rect s := by
  have same {α : Type} {made : Option α} {a b : α} (first : made = some a) (second : made = some b) : a = b :=
    Option.some.inj (first.symm.trans second)
  induction copying with
  | new fills => exact ⟨fills, new_kept ..⟩
  | output _ fills ih => exact ⟨fills, ih.2⟩
  | syncHistory _ ih => exact ⟨ih.1, ih.2.syncHistory _⟩
  | handle _ buf action done ih =>
    obtain ⟨next, action', done', kept⟩ := ih.2.handle ih.1 buf
    obtain ⟨rfl, -⟩ := Prod.mk.inj (same done' done)
    exact ⟨ih.1, kept⟩
  | typeSearch _ b ih => exact ⟨ih.1, ih.2.typeSearch ih.1 b⟩
  | cursorKey _ sequence ih => exact ⟨ih.1, ih.2.cursorKey sequence⟩
  | command _ b done ih =>
    obtain ⟨next, done', kept⟩ := ih.2.command ih.1 b
    exact ⟨ih.1, same done' done ▸ kept⟩
  | mouseAnchor _ sx sy done ih =>
    obtain ⟨next, done', kept⟩ := ih.2.mouseAnchor ih.1 sx sy
    exact ⟨ih.1, same done' done ▸ kept⟩
  | mouseDrag _ sx sy ih => exact ⟨ih.1, ih.2.mouseDrag sx sy⟩
  | scroll _ lines ih => exact ⟨ih.1, ih.2.of rfl rfl ih.2.frozen ih.2.column ih.2.row⟩
  | finishMouseSelection _ ih => exact ⟨ih.1, ih.2.of rfl rfl ih.2.frozen ih.2.column ih.2.row⟩
  | setFreezeOnSelect _ on ih => exact ⟨ih.1, ih.2.of rfl rfl ih.2.frozen ih.2.column ih.2.row⟩

end Bounds

section Searching

/-- A line can be addressed and its text contains the query. -/
def Matches (s : CopyState) (g : Grid) (m : ℕ) : Prop := m < s.totalLines g ∧ s.query <:+: s.addressed g m

/-- A line matches, and none does that is passed on the way to it from the cursor. -/
def Nearest (s : CopyState) (g : Grid) (forward : Bool) (m : ℕ) : Prop :=
  Matches s g m ∧ ∃ k, 1 ≤ k ∧ k ≤ s.totalLines g ∧ Away forward (s.totalLines g) s.cursorLine k m ∧
    ∀ j passed, 1 ≤ j → j < k → Away forward (s.totalLines g) s.cursorLine j passed → ¬ Matches s g passed

/-- The cursor is on the glyph with the first byte of a line's first match, and the line is in the viewport. -/
structure Lands (s : CopyState) (g : Grid) (m : ℕ) (s' : CopyState) : Prop where
  line : s'.cursorLine = m
  shown : s'.top ≤ m ∧ m < s'.top + s'.height
  glyph : ∃ before left cell right, FirstMatch s.query (s.addressed g m) before ∧
    glyphs (s.source g m).1 (s.source g m).2 0 (min s.width (s.source g m).1.width) = left ++ (s'.cx, cell) :: right ∧
      (glyphsText (s.source g m).1 left).len ≤ before.len ∧
        before.len < (glyphsText (s.source g m).1 left).len + ((s.source g m).1.cellTextOwned cell).len
  rest : s' = { s with top := s'.top, cx := s'.cx, cy := s'.cy }

variable {u : Unicode} {rect : Rect} {g : Grid} {s : CopyState}

private theorem visited_eq {forward : Bool} {k m : ℕ} (inside : m < s.totalLines g) (round : k ≤ s.totalLines g) :
    s.visited g forward k = m ↔ Away forward (s.totalLines g) s.cursorLine k m :=
  (away_iff inside round).symm

/-- A match lies in the glyphs of its line. -/
theorem match_inside {query text before all : Text} (some : query ≠ []) (first : FirstMatch query text before)
    (trimmed : text <+: all) : before.len < all.len := by
  obtain ⟨after, here⟩ := first.here
  obtain ⟨blanks, whole⟩ := trimmed
  have positive := len_pos some
  rw [← whole, here, len_append, len_append, len_append]
  omega

theorem Kept.lands (kept : Kept u rect s) (fills : Fills u rect g) (some : s.query ≠ []) {m b : ℕ}
    (inside : m < s.totalLines g) (found : Text.find s.query (s.addressed g m) = .some b) :
    Lands s g m (s.land g m b) := by
  obtain ⟨before, first, rfl⟩ := find_eq_some found
  obtain ⟨reached, width, -⟩ := kept.source fills m
  have arenas := reached.presentable.toArenas
  generalize read : s.source g m = place at reached width arenas
  obtain ⟨source, index⟩ := place
  dsimp only at reached width arenas
  have text : s.addressed g m =
      (glyphsText source (glyphs source index 0 (min s.width source.width))).trimEnd := by
    rw [CopyState.addressed, read]
    dsimp only
    rw [CopyMode.lineText, lineTextRange, firstColumn, Nat.zero_min, if_neg (fun cut => Nat.lt_irrefl 0 cut.1)]
  have covered : before.len < (glyphsText source (glyphs source index 0 (min s.width source.width))).len :=
    match_inside some first (by rw [text]; exact List.rdropWhile_prefix ..)
  have texts : ∀ glyph ∈ glyphs source index 0 (min s.width source.width), source.cellTextOwned glyph.2 ≠ [] :=
    fun glyph member => cellTextOwned_ne_nil arenas (mem_glyphsFrom member).2
  obtain ⟨left, x, cell, right, split, column, low, high⟩ :=
    columnOf_eq_some texts (Nat.zero_le _) (by rw [Nat.zero_add]; exact covered)
  have member : (x, cell) ∈ glyphs source index 0 (min s.width source.width) := by
    rw [split]
    exact List.mem_append_right _ (List.mem_cons_self ..)
  have bound : x < min s.width source.width := (mem_glyphsFrom member).1
  have landed : s.land g m before.len =
      { s with top := min m (s.maxTop g), cy := (m - min m (s.maxTop g)) % 65536, cx := x } := by
    rw [CopyState.land, read]
    dsimp only
    rw [searchColumn, column, Option.getD_some, min_eq_left (by omega : x ≤ s.width - 1)]
  have tall := kept.height_le fills
  have row := kept.row
  have short : s.height < 65536 := by
    have := fills.reached.presentable.short
    rw [kept.height, ← fills.height]
    omega
  have near : (m - min m (s.maxTop g)) % 65536 = m - min m (s.maxTop g) := by
    refine Nat.mod_eq_of_lt ?_
    rw [CopyState.maxTop]
    omega
  rw [near] at landed
  refine ⟨?_, ?_, ⟨before, left, cell, right, first, ?_⟩, ?_⟩
  · rw [landed, CopyState.cursorLine]
    exact Nat.add_sub_cancel' (Nat.min_le_left ..)
  · rw [landed]
    dsimp only
    rw [CopyState.maxTop]
    omega
  · rw [landed, read]
    rw [Nat.zero_add] at low high
    exact ⟨split, low, high⟩
  · rw [landed]

/-- A search stays where it is when no line matches, and lands on the nearest match otherwise. -/
theorem Kept.searches (kept : Kept u rect s) (fills : Fills u rect g) (some : s.query ≠ []) (forward : Bool) :
    ((∀ m, ¬ Matches s g m) → s.runSearch g forward = s) ∧
      ((∃ m, Matches s g m) → ∃ m, Nearest s g forward m ∧ Lands s g m (s.runSearch g forward)) := by
  have visited_lt {k : ℕ} (low : 1 ≤ k) (high : k ≤ s.totalLines g) : s.visited g forward k < s.totalLines g := by
    unfold CopyState.visited
    split <;> exact Nat.mod_lt _ (by omega)
  have missed {k : ℕ} (none : (Text.find s.query (s.addressed g (s.visited g forward k))).map
      (s.land g (s.visited g forward k)) = .none) : ¬ Matches s g (s.visited g forward k) :=
    fun hit => find_eq_none.mp (Option.map_eq_none_iff.mp none) hit.2
  rw [CopyState.runSearch, if_neg (by rwa [List.isEmpty_iff])]
  dsimp only
  cases scanned : (List.range' 1 (s.totalLines g)).findSome? fun step =>
      (Text.find s.query (s.addressed g (s.visited g forward step))).map (s.land g (s.visited g forward step)) with
  | none =>
    refine ⟨fun _ => rfl, fun ⟨m, hit⟩ => ?_⟩
    obtain ⟨k, low, high, away⟩ := exists_away forward s.cursorLine hit.1
    have here := (visited_eq hit.1 high).mpr away
    have none := List.findSome?_eq_none_iff.mp scanned k (List.mem_range'_1.mpr (by omega))
    exact absurd (here ▸ hit) (missed none)
  | some landed =>
    obtain ⟨k, low, high, hit, early⟩ := findSome?_range'_eq_some scanned
    obtain ⟨b, found, rfl⟩ := Option.map_eq_some_iff.mp hit
    have inside := visited_lt low high
    have here : Matches s g (s.visited g forward k) := by
      refine ⟨inside, ?_⟩
      by_contra absent
      rw [find_eq_none.mpr absent] at found
      nomatch found
    refine ⟨fun none => absurd here (none _), fun _ => ⟨s.visited g forward k, ⟨here, k, low, high, ?_, ?_⟩, ?_⟩⟩
    · exact (visited_eq inside high).mp rfl
    · intro j passed low' before away hit
      have there := (visited_eq hit.1 (by omega)).mpr away
      exact missed (early j low' before) (there ▸ hit)
    · exact kept.lands fills some inside found

/-- The cursor of copy-mode stays inside the viewport, synchronization puts it on a line unless there is none, and
a search finds the nearest match. -/
theorem copying_bounded (copying : Copying u rect g s) : s.cx < s.width ∧ s.cy < s.height ∧
    (s.syncHistory g).top ≤ (s.syncHistory g).maxTop g ∧
      ((s.syncHistory g).totalLines g ≠ 0 → (s.syncHistory g).cursorLine < (s.syncHistory g).totalLines g) ∧
        (s.query ≠ [] → ∀ forward, ((∀ m, ¬ Matches s g m) → s.runSearch g forward = s) ∧
          ((∃ m, Matches s g m) → ∃ m, Nearest s g forward m ∧ Lands s g m (s.runSearch g forward))) := by
  obtain ⟨fills, kept⟩ := copying.kept
  obtain ⟨top, line⟩ := kept.settled fills
  exact ⟨kept.column, kept.row, top, fun some => line.resolve_right some, kept.searches fills⟩

/-- One row of text, and a search that was typed for its second letter. -/
def lettered : Grid := ((Grid.new 3 1).set 0 0 { ch := 'a' }).set 1 0 { ch := 'b' }

def sought : CopyState :=
  { CopyState.new lettered ⟨0, 0, 3, 1⟩ with query := ['b'], typingSearch := true }

theorem copying_bounded_sought : sought.cx < sought.width ∧ sought.cy < sought.height ∧
    (sought.syncHistory lettered).top ≤ (sought.syncHistory lettered).maxTop lettered ∧
      (sought.syncHistory lettered).cursorLine < (sought.syncHistory lettered).totalLines lettered ∧
        ∃ m, Nearest sought lettered true m ∧ Lands sought lettered m (sought.runSearch lettered true) := by
  have reached : Reached plainUnicode lettered :=
    ((Reached.new 3 1).step (Output.run_step _ _ (.set 0 0 { ch := 'a' }))).step
      (Output.run_step _ _ (.set 1 0 { ch := 'b' }))
  have entered : Copying plainUnicode ⟨0, 0, 3, 1⟩ lettered (CopyState.new lettered ⟨0, 0, 3, 1⟩) :=
    .new ⟨reached, rfl, rfl⟩
  have typed : (CopyState.new lettered ⟨0, 0, 3, 1⟩).handle lettered (ascii "/b") = some (sought, .redraw) := rfl
  obtain ⟨column, row, top, line, search⟩ := copying_bounded (entered.handle (ascii "/b") .redraw typed)
  exact ⟨column, row, top, line (by decide +kernel),
    (search (by decide) true).2 ⟨0, by decide +kernel, ['a'], [], by decide +kernel⟩⟩

/-- A pane of no rows has no line for the cursor. -/
theorem not_copying_bounded_of_empty : ¬ ∀ (u : Unicode) rect g s, Copying u rect g s →
    (s.syncHistory g).cursorLine < (s.syncHistory g).totalLines g := by
  intro claimed
  have line := claimed plainUnicode ⟨0, 0, 1, 0⟩ (Grid.new 1 0) _ (.new ⟨.new 1 0, rfl, rfl⟩)
  exact absurd line (by decide +kernel)

end Searching

end Uniterm.Model.Server
