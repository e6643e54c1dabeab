import Mathlib.Data.List.InsertIdx
import Uniterm.Soundness.Grid.Edits

/-! # The shape of a grid

Visible rows and damage records come one for each row, and no row is shorter than the grid is wide.
Scrolls and resizes only move lines, add blank ones or recut logical lines, so a property of all
retained cells is kept when the blank cell has it and recutting respects it.
-/

namespace Uniterm.Model.Grid

/-- One line and one damage record for each row, no row shorter than the grid is wide. -/
structure Shaped (g : Grid) : Prop where
  wide : 0 < g.width
  tall : 0 < g.height
  lines : g.lines.length = g.height
  rows : ∀ line ∈ g.lines, g.width ≤ line.cells.length
  damage : g.damage.length = g.height

/-- The grids of the source: shaped, with every grapheme handle resolvable. -/
structure WellFormed (g : Grid) : Prop extends Shaped g, ClustersValid g

/-- A property of every retained cell, history included. -/
def AllCells (P : Cell → Prop) (g : Grid) : Prop :=
  ∀ line ∈ g.scrollback ++ g.lines, ∀ c ∈ line.cells, P c

section Set

variable {g : Grid}

theorem Shaped.get_eq (shaped : g.Shaped) {x y : ℕ} (column : x < g.width) (row : y < g.height) :
    ∃ line, g.lines[y]? = some line ∧ line.cells[x]? = some (g.get x y) := by
  have bound : y < g.lines.length := by rw [shaped.lines]; exact row
  refine ⟨g.lines[y], List.getElem?_eq_getElem bound, ?_⟩
  have long := shaped.rows g.lines[y] (List.getElem_mem bound)
  have inside : x < g.lines[y].cells.length := by omega
  simp [get, get?, bound, inside]

private theorem set_damage_length (g : Grid) (x y : ℕ) (cell : Cell) :
    (g.set x y cell).damage.length = g.damage.length := by
  unfold set
  split
  · rfl
  split
  · rfl
  · exact List.length_modify ..

theorem Shaped.set (shaped : g.Shaped) (x y : ℕ) (cell : Cell) : (g.set x y cell).Shaped where
  wide := by rw [set_width]; exact shaped.wide
  tall := by rw [set_height]; exact shaped.tall
  lines := by
    rw [set_lines, set_height]
    split
    · rw [List.length_modify, shaped.lines]
    · exact shaped.lines
  rows line member := by
    rw [set_width]
    obtain ⟨i, read⟩ := List.getElem?_of_mem member
    rw [set_line] at read
    split at read
    · obtain ⟨old, found, rfl⟩ := Option.map_eq_some_iff.mp read
      rw [List.length_set]
      exact shaped.rows old (List.mem_of_getElem? found)
    · exact shaped.rows line (List.mem_of_getElem? read)
  damage := by rw [set_height, set_damage_length, shaped.damage]

/-- An assignment changes the cell it names and no other. -/
theorem Shaped.get_set (shaped : g.Shaped) {x y : ℕ} (column : x < g.width) (row : y < g.height)
    (cell : Cell) (x' y' : ℕ) :
    (g.set x y cell).get x' y' = if x' = x ∧ y' = y then cell else g.get x' y' := by
  obtain ⟨line, read, found⟩ := shaped.get_eq column row
  unfold Grid.get get?
  rw [set_line]
  by_cases same : y' = y
  · subst same
    rw [if_pos ⟨column, row, rfl⟩, read, Option.map_some, Option.bind_some, Option.bind_some,
      List.getElem?_set]
    by_cases here : x = x'
    · subst here
      simp [(List.getElem?_eq_some_iff.mp found).1]
    · simp [here, Ne.symm here]
  · simp [same]

/-- Renumbering handles keeps the shape. -/
theorem SameView.shaped {g' : Grid} (same : SameView g g') (shaped : g.Shaped) : g'.Shaped := by
  have width : g'.width = g.width := by rw [same.rest]
  have height : g'.height = g.height := by rw [same.rest]
  have damage : g'.damage = g.damage := by rw [same.rest]
  refine ⟨width ▸ shaped.wide, height ▸ shaped.tall, ?_, fun line member => ?_, ?_⟩
  · rw [height, ← same.lines.length_eq, shaped.lines]
  · obtain ⟨old, before, carried⟩ := ToMathlib.exists_of_mem_right same.lines member
    rw [width, ← carried.cells.length_eq]
    exact shaped.rows old before
  · rw [height, damage, shaped.damage]

theorem WellFormed.edits {g' : Grid} {y : ℕ} (wf : g.WellFormed) (edits : Edits y g g') :
    g'.WellFormed := by
  refine edits.keeps WellFormed (fun g x cell wf known => ?_) (fun g x source wf => ?_)
    (fun g text wf => ?_) wf
  · exact ⟨wf.toShaped.set x y cell, wf.toClustersValid.set x y known⟩
  · exact ⟨wf.toShaped.set x y _, wf.toClustersValid.set x y (wf.toClustersValid.get source y)⟩
  · obtain ⟨same, valid, _⟩ := wf.toClustersValid.intern text
    exact ⟨same.shaped wf.toShaped, valid⟩

end Set

section Lines

variable {g : Grid} {P : Cell → Prop}

theorem mem_trimCells {cells : List Cell} {c : Cell} (member : c ∈ Line.trimCells cells) :
    c ∈ cells := (List.rdropWhile_prefix ..).subset member

private theorem mem_trimDefaultTail {line : Line} {c : Cell} (member : c ∈ line.trimDefaultTail.cells) :
    c ∈ line.cells := by
  unfold Line.trimDefaultTail at member
  split at member
  · exact member
  · exact mem_trimCells member

theorem mem_blank {width id : ℕ} {blank c : Cell} (member : c ∈ (Line.blank width blank id).cells) :
    c = blank := List.eq_of_mem_replicate member

private theorem pushScrollback_frame (g : Grid) (line : Line) :
    g.pushScrollback line = { g with scrollback := (g.pushScrollback line).scrollback } := by
  unfold pushScrollback
  split <;> rfl

private theorem mem_pushScrollback {line added : Line} (member : line ∈ (g.pushScrollback added).scrollback) :
    line ∈ g.scrollback ∨ line = added := by
  unfold pushScrollback at member
  split at member
  · exact .inl member
  · have kept := List.mem_of_mem_drop member
    rwa [List.mem_append, List.mem_singleton] at kept

theorem length_keepNewest (limit : ℕ) (history : List Line) :
    (keepNewest limit history).length ≤ limit := by
  rw [keepNewest, List.length_drop]
  omega

theorem length_pushScrollback {line : Line} (bounded : g.scrollback.length ≤ g.scrollbackLimit) :
    (g.pushScrollback line).scrollback.length ≤ g.scrollbackLimit := by
  unfold pushScrollback
  split
  · exact bounded
  · exact length_keepNewest ..

theorem markRowsDamaged_frame (g : Grid) (top bottom : ℕ) : g.markRowsDamaged top bottom =
    { g with damage := (g.markRowsDamaged top bottom).damage,
             anyDamage := (g.markRowsDamaged top bottom).anyDamage } := by
  unfold markRowsDamaged
  split <;> rfl

theorem markRowsDamaged_damage (wide : 0 < g.width) (top bottom : ℕ) :
    (g.markRowsDamaged top bottom).damage =
      g.damage.mapIdx fun y row => if top ≤ y ∧ y ≤ bottom then g.fullRow else row := by
  rw [markRowsDamaged, if_neg wide.ne']

theorem markAllDamaged_frame (g : Grid) : g.markAllDamaged =
    { g with damage := g.markAllDamaged.damage, anyDamage := g.markAllDamaged.anyDamage,
             pendingScrollUp := g.markAllDamaged.pendingScrollUp } := by
  unfold markAllDamaged
  split <;> rfl

/-- The lines of a grid after a scroll or a change of height: old lines and blank ones. -/
structure Relines (blank : Cell) (g g' : Grid) : Prop where
  width : g'.width = g.width
  clusters : g'.clusters = g.clusters
  tall : 0 < g'.height
  lines : g'.lines.length = g'.height
  damage : g'.damage.length = g'.height
  visible : ∀ line ∈ g'.lines, line ∈ g.lines ∨ ∃ id, line = Line.blank g.width blank id
  history : ∀ line ∈ g'.scrollback,
    line ∈ g.scrollback ∨ ∃ old ∈ g.lines, line = old ∨ line = old.trimDefaultTail
  kept : g'.scrollbackLimit = g.scrollbackLimit ∧ g'.underlineColors = g.underlineColors

theorem Relines.wellFormed {g' : Grid} {blank : Cell} (relines : Relines blank g g')
    (wf : g.WellFormed) (valid : blank.cluster < g.clusters.length) : g'.WellFormed where
  wide := relines.width ▸ wf.wide
  tall := relines.tall
  lines := relines.lines
  rows line member := by
    rw [relines.width]
    rcases relines.visible line member with old | ⟨id, rfl⟩
    · exact wf.rows line old
    · rw [Line.blank, List.length_replicate]
  damage := relines.damage
  arena := relines.clusters ▸ wf.arena
  cells line member c inside := by
    rw [relines.clusters]
    have kept (old : Line) (before : old ∈ g.lines) (c : Cell) (inside : c ∈ old.cells) :=
      wf.cells old (List.mem_append_right _ before) c inside
    rcases List.mem_append.mp member with history | screen
    · rcases relines.history line history with old | ⟨old, before, rfl | rfl⟩
      · exact wf.cells line (List.mem_append_left _ old) c inside
      · exact kept line before c inside
      · exact kept old before c (mem_trimDefaultTail inside)
    · rcases relines.visible line screen with old | ⟨id, rfl⟩
      · exact kept line old c inside
      · rw [mem_blank inside]
        exact valid

/-- The scroll as one record update. -/
theorem scrollUp_eq (blank : Cell) {departing : Line} {rest : List Line}
    (lines : g.lines = departing :: rest) : g.scrollUp blank =
      markRowsDamaged { g with
        nextLineId := g.nextLineId + 1
        scrollback := (g.pushScrollback departing.trimDefaultTail).scrollback
        lines := rest ++ [Line.blank g.width blank g.nextLineId]
        damage := match g.damage with
          | [] => []
          | _ :: rows => rows ++ [RowDamage.clean]
        pendingScrollUp := min (g.pendingScrollUp + 1) g.height }
        (g.height - 1) (g.height - 1) := by
  unfold scrollUp pushScrollback
  simp only [lines]
  split <;> rfl

private theorem markRowsDamaged_length (g : Grid) (top bottom : ℕ) :
    (g.markRowsDamaged top bottom).damage.length = g.damage.length := by
  unfold markRowsDamaged
  split
  · rfl
  · exact List.length_mapIdx ..

theorem Shaped.scrollUp_relines (shaped : g.Shaped) (blank : Cell) :
    Relines blank g (g.scrollUp blank) := by
  cases lines : g.lines with
  | nil =>
    have := shaped.lines
    have := shaped.tall
    simp [lines] at *
    omega
  | cons departing rest =>
    have total := shaped.lines
    rw [lines, List.length_cons] at total
    rw [scrollUp_eq blank lines]
    refine ⟨?_, ?_, ?_, ?_, ?_, fun line member => ?_, fun line member => ?_, ?_⟩
    · rw [markRowsDamaged_frame]
    · rw [markRowsDamaged_frame]
    · rw [markRowsDamaged_frame]
      exact shaped.tall
    · rw [markRowsDamaged_frame, List.length_append, List.length_singleton]
      exact total
    · rw [markRowsDamaged_length, markRowsDamaged_frame]
      have records := shaped.damage
      cases damage : g.damage with
      | nil => rwa [damage] at records
      | cons row rows => simpa [damage] using records
    · rw [markRowsDamaged_frame, List.mem_append, List.mem_singleton] at member
      rcases member with old | rfl
      · exact .inl (lines ▸ .tail _ old)
      · exact .inr ⟨_, rfl⟩
    · rw [markRowsDamaged_frame] at member
      rcases mem_pushScrollback member with old | rfl
      · exact .inl old
      · exact .inr ⟨departing, lines ▸ List.mem_cons_self .., .inr rfl⟩
    · rw [markRowsDamaged_frame]
      exact ⟨rfl, rfl⟩

/-- A region scroll that takes effect: one line leaves the region, a blank one enters it, and
nothing stays pending. -/
def regionScrolled (g : Grid) (history : List Line) (out into : ℕ) (blank : Cell) (top bottom : ℕ) :
    Grid :=
  markRowsDamaged { g with
    scrollback := history
    lines := (g.lines.eraseIdx out).insertIdx into (Line.blank g.width blank g.nextLineId)
    nextLineId := g.nextLineId + 1
    pendingScrollUp := 0 } top bottom

theorem scrollRegionUpInner_cases (g : Grid) (top bottom : ℕ) (blank : Cell) (preserve : Bool) :
    (¬(top ≤ bottom ∧ bottom < g.height) ∧ g.scrollRegionUpInner top bottom blank preserve = g) ∨
    (top = 0 ∧ bottom = g.height - 1 ∧ 0 < g.height ∧
      g.scrollRegionUpInner top bottom blank preserve = g.scrollUp blank) ∨
    (top ≤ bottom ∧ bottom < g.height ∧ ∃ history,
      (∀ line ∈ history, line ∈ g.scrollback ∨ line ∈ g.lines) ∧
      (g.scrollback.length ≤ g.scrollbackLimit → history.length ≤ g.scrollbackLimit) ∧
      g.scrollRegionUpInner top bottom blank preserve =
        g.regionScrolled history top bottom blank top bottom) := by
  unfold scrollRegionUpInner
  split
  · exact .inl ⟨by omega, rfl⟩
  split
  · next whole => exact .inr (.inl ⟨whole.2.1, whole.2.2, by omega, rfl⟩)
  · refine .inr (.inr ⟨by omega, by omega, ?_⟩)
    cases preserve with
    | false => exact ⟨g.scrollback, fun line member => .inl member, id, rfl⟩
    | true =>
      cases read : g.lines[top]? with
      | none => exact ⟨g.scrollback, fun line member => .inl member, id, rfl⟩
      | some departing =>
        refine ⟨(g.pushScrollback departing).scrollback, fun line member => ?_,
          length_pushScrollback, ?_⟩
        · rcases mem_pushScrollback member with old | rfl
          · exact .inl old
          · exact .inr (List.mem_of_getElem? read)
        · unfold pushScrollback regionScrolled allocLineId
          simp only [↓reduceIte, Option.map_some, Option.getD_some]
          split <;> rfl

theorem scrollRegionDown_cases (g : Grid) (top bottom : ℕ) (blank : Cell) :
    (¬(top ≤ bottom ∧ bottom < g.height) ∧ g.scrollRegionDown top bottom blank = g) ∨
    (top ≤ bottom ∧ bottom < g.height ∧
      g.scrollRegionDown top bottom blank =
        g.regionScrolled g.scrollback bottom top blank top bottom) := by
  unfold scrollRegionDown
  split
  · exact .inl ⟨by omega, rfl⟩
  · exact .inr ⟨by omega, by omega, rfl⟩

theorem Shaped.regionScrolled_relines (shaped : g.Shaped) {history : List Line} {out into : ℕ}
    (kept : ∀ line ∈ history, line ∈ g.scrollback ∨ line ∈ g.lines)
    (leaves : out < g.height) (enters : into < g.height) (blank : Cell) (top bottom : ℕ) :
    Relines blank g (g.regionScrolled history out into blank top bottom) := by
  have total := shaped.lines
  unfold regionScrolled
  refine ⟨?_, ?_, ?_, ?_, ?_, fun line member => ?_, fun line member => ?_, ?_⟩
  · rw [markRowsDamaged_frame]
  · rw [markRowsDamaged_frame]
  · rw [markRowsDamaged_frame]
    exact shaped.tall
  · have erased : (g.lines.eraseIdx out).length = g.lines.length - 1 :=
      List.length_eraseIdx_of_lt (by omega)
    rw [markRowsDamaged_frame]
    change ((g.lines.eraseIdx out).insertIdx into _).length = g.height
    rw [List.length_insertIdx_of_le_length (by omega), erased]
    omega
  · rw [markRowsDamaged_length, markRowsDamaged_frame]
    exact shaped.damage
  · rw [markRowsDamaged_frame] at member
    rcases List.eq_or_mem_of_mem_insertIdx member with rfl | old
    · exact .inr ⟨_, rfl⟩
    · exact .inl (List.mem_of_mem_eraseIdx old)
  · rw [markRowsDamaged_frame] at member
    rcases kept line member with old | screen
    · exact .inl old
    · exact .inr ⟨line, screen, .inl rfl⟩
  · rw [markRowsDamaged_frame]
    exact ⟨rfl, rfl⟩

theorem markAllDamaged_length (g : Grid) : g.markAllDamaged.damage.length = g.damage.length := by
  unfold markAllDamaged
  split
  · rfl
  · exact List.length_map ..

theorem mem_blankLines {width count firstId : ℕ} {blank : Cell} {line : Line}
    (member : line ∈ blankLines width blank firstId count) :
    ∃ id, line = Line.blank width blank id := by
  obtain ⟨i, _, rfl⟩ := List.mem_map.mp member
  exact ⟨_, rfl⟩

theorem length_blankLines (width count firstId : ℕ) (blank : Cell) :
    (blankLines width blank firstId count).length = count := by
  rw [blankLines, List.length_map, List.length_range]

theorem Shaped.growHeight_relines (shaped : g.Shaped) {height : ℕ} (grows : g.height < height)
    (blank : Cell) : Relines blank g (g.growHeight height blank) := by
  have total := shaped.lines
  unfold growHeight
  refine ⟨?_, ?_, ?_, ?_, ?_, fun line member => ?_, fun line member => ?_, ?_⟩
  · rw [markAllDamaged_frame]
  · rw [markAllDamaged_frame]
  · rw [markAllDamaged_frame]
    exact Nat.zero_lt_of_lt grows
  · rw [markAllDamaged_frame]
    change (g.lines ++ blankLines g.width blank g.nextLineId (height - g.lines.length)).length = height
    rw [List.length_append, length_blankLines]
    omega
  · rw [markAllDamaged_length, markAllDamaged_frame]
    exact List.length_replicate
  · rw [markAllDamaged_frame] at member
    rcases List.mem_append.mp member with old | fresh
    · exact .inl old
    · exact .inr (mem_blankLines fresh)
  · rw [markAllDamaged_frame] at member
    exact .inl member
  · rw [markAllDamaged_frame]
    exact ⟨rfl, rfl⟩

/-- Keeping the newest lines while appending is keeping the newest lines of all. -/
theorem keepNewest_append (limit : ℕ) (history more : List Line) :
    keepNewest limit (keepNewest limit history ++ more) = keepNewest limit (history ++ more) := by
  unfold keepNewest
  rcases Nat.le_total history.length limit with short | long
  · rw [Nat.sub_eq_zero_of_le short, List.drop_zero]
  · rw [← List.drop_append_of_le_length (by omega), List.drop_drop]
    congr 1
    rw [List.length_drop, List.length_append]
    omega

theorem keepNewest_of_le {limit : ℕ} {history : List Line} (short : history.length ≤ limit) :
    keepNewest limit history = history := by
  rw [keepNewest, Nat.sub_eq_zero_of_le short, List.drop_zero]

private theorem pushScrollback_eq {line : Line} (bounded : g.scrollback.length ≤ g.scrollbackLimit) :
    (g.pushScrollback line).scrollback = keepNewest g.scrollbackLimit (g.scrollback ++ [line]) := by
  unfold pushScrollback
  split
  · next none =>
    have empty := List.eq_nil_of_length_eq_zero (Nat.le_zero.mp (none ▸ bounded))
    simp [none, empty, keepNewest]
  · rfl

/-- Pushing a batch of departing lines touches only the history. -/
theorem foldl_pushScrollback (departing : List Line) (g : Grid) :
    ∃ history, departing.foldl (fun (g : Grid) line => g.pushScrollback line.trimDefaultTail) g =
        { g with scrollback := history } ∧
      (∀ line ∈ history, line ∈ g.scrollback ∨ ∃ old ∈ departing, line = old.trimDefaultTail) ∧
      (g.scrollback.length ≤ g.scrollbackLimit → history =
        keepNewest g.scrollbackLimit (g.scrollback ++ departing.map Line.trimDefaultTail)) := by
  induction departing generalizing g with
  | nil =>
    refine ⟨g.scrollback, rfl, fun line member => .inl member, fun bounded => ?_⟩
    rw [List.map_nil, List.append_nil, keepNewest_of_le bounded]
  | cons first rest ih =>
    obtain ⟨history, folded, kept, newest⟩ := ih (g.pushScrollback first.trimDefaultTail)
    have limit : (g.pushScrollback first.trimDefaultTail).scrollbackLimit = g.scrollbackLimit := by
      rw [pushScrollback_frame]
    refine ⟨history, ?_, fun line member => ?_, fun bounded => ?_⟩
    · rw [List.foldl_cons, folded, pushScrollback_frame]
    · rcases kept line member with pushed | ⟨old, before, same⟩
      · rcases mem_pushScrollback pushed with old | rfl
        · exact .inl old
        · exact .inr ⟨first, List.mem_cons_self .., rfl⟩
      · exact .inr ⟨old, .tail _ before, same⟩
    · rw [newest (by rw [limit]; exact length_pushScrollback bounded), limit,
        pushScrollback_eq bounded, keepNewest_append, List.append_assoc]
      rfl

theorem Shaped.shrinkHeight_relines (shaped : g.Shaped) {height : ℕ} (positive : 0 < height)
    (shrinks : height < g.height) (blank : Cell) : Relines blank g (g.shrinkHeight height) := by
  have total := shaped.lines
  unfold shrinkHeight
  obtain ⟨history, folded, kept, _⟩ := foldl_pushScrollback (g.lines.take (g.height - height))
    { g with lines := g.lines.drop (g.height - height) }
  dsimp only
  rw [folded]
  refine ⟨?_, ?_, ?_, ?_, ?_, fun line member => ?_, fun line member => ?_, ?_⟩
  · rw [markAllDamaged_frame]
  · rw [markAllDamaged_frame]
  · rw [markAllDamaged_frame]
    exact positive
  · rw [markAllDamaged_frame]
    change (g.lines.drop (g.height - height)).length = height
    rw [List.length_drop]
    omega
  · rw [markAllDamaged_length, markAllDamaged_frame]
    exact List.length_replicate
  · rw [markAllDamaged_frame] at member
    exact .inl (List.mem_of_mem_drop member)
  · rw [markAllDamaged_frame] at member
    rcases kept line member with old | ⟨old, before, rfl⟩
    · exact .inl old
    · exact .inr ⟨old, List.mem_of_mem_take before, .inr rfl⟩
  · rw [markAllDamaged_frame]
    exact ⟨rfl, rfl⟩

/-- The history after the screen shrank: the newest lines, the departing ones at the end. -/
theorem shrinkHeight_scrollback (bounded : g.scrollback.length ≤ g.scrollbackLimit) (height : ℕ) :
    (g.shrinkHeight height).scrollback = keepNewest g.scrollbackLimit
      (g.scrollback ++ (g.lines.take (g.height - height)).map Line.trimDefaultTail) := by
  unfold shrinkHeight
  obtain ⟨history, folded, _, newest⟩ := foldl_pushScrollback (g.lines.take (g.height - height))
    { g with lines := g.lines.drop (g.height - height) }
  dsimp only
  rw [folded, markAllDamaged_frame]
  exact newest bounded

theorem scrollUp_bounded (bounded : g.scrollback.length ≤ g.scrollbackLimit) (blank : Cell) :
    (g.scrollUp blank).scrollback.length ≤ g.scrollbackLimit := by
  cases lines : g.lines with
  | nil =>
    rw [scrollUp, lines]
    exact bounded
  | cons departing rest =>
    rw [scrollUp_eq blank lines, markRowsDamaged_frame]
    exact length_pushScrollback bounded

end Lines

end Uniterm.Model.Grid
