import Mathlib.Algebra.BigOperators.Group.List.Basic
import Mathlib.Algebra.Order.BigOperators.Group.List
import Uniterm.Soundness.Workspace.Tiling

/-! # Overview tiles

The columns of the overview share its width and the rows its height, the leading ones with one cell more, so that
the tiles of a full grid fill the area. The tiles are the cells of that grid in row-major order, up to the number
of windows.
-/

namespace Uniterm.Model.Workspace

open Machine Model

section Shares

/-- What one of several equal parts gets, the remainder going to the leading ones. -/
def extent (total count index : ℕ) : ℕ := total / count + if index < total % count then 1 else 0

/-- Where a part begins. -/
def offset (total count index : ℕ) : ℕ := index * (total / count) + min index (total % count)

variable {total count index : ℕ}

private theorem offset_succ (total count index : ℕ) :
    offset total count (index + 1) = offset total count index + extent total count index := by
  unfold offset extent
  rw [Nat.succ_mul]
  split <;> omega

private theorem offset_count (total : ℕ) (some : 1 ≤ count) : offset total count count = total := by
  unfold offset
  rw [Nat.min_eq_right (Nat.mod_lt total some).le]
  exact Nat.div_add_mod total count

private theorem offset_mono {first second : ℕ} (le : first ≤ second) :
    offset total count first ≤ offset total count second := by
  induction le with
  | refl => exact le_rfl
  | step le ih =>
    rw [offset_succ]
    exact ih.trans (Nat.le_add_right ..)

/-- A part ends inside the whole. -/
theorem offset_extent_le (total : ℕ) (inside : index < count) :
    offset total count index + extent total count index ≤ total := by
  rw [← offset_succ]
  exact (offset_mono inside).trans (offset_count total (by omega)).le

/-- A part ends before the next ones begin. -/
theorem offset_extent_le_offset (total count : ℕ) {first second : ℕ} (lt : first < second) :
    offset total count first + extent total count first ≤ offset total count second := by
  rw [← offset_succ]
  exact offset_mono lt

private theorem extent_le_succ (total count first second : ℕ) :
    extent total count first ≤ extent total count second + 1 := by
  unfold extent
  split <;> split <;> omega

private theorem sum_extents (total count index : ℕ) :
    ((List.range index).map (extent total count)).sum = offset total count index := by
  induction index with
  | zero => simp [offset]
  | succ index ih => rw [List.range_succ, List.map_append, List.sum_append, ih, offset_succ, List.map_singleton,
      List.sum_singleton]

private theorem tileExtent_eq (build : Build) (fits : total < 65536) (inside : index < count) :
    tileExtent build total count index = some (extent total count index) := by
  have le := offset_extent_le total inside
  unfold extent at le ⊢
  exact add16_of_lt build (by omega)

end Shares

section Columns

/-- The search ends at the first count whose square is enough. -/
theorem enoughColumns_least {n fuel cols : ℕ} (enough : n ≤ (cols + fuel) * (cols + fuel))
    (short : ∀ k < cols, k * k < n) : n ≤ enoughColumns n fuel cols * enoughColumns n fuel cols ∧
      ∀ k < enoughColumns n fuel cols, k * k < n := by
  induction fuel generalizing cols with
  | zero => exact ⟨enough, short⟩
  | succ fuel ih =>
    rw [enoughColumns]
    split
    next more =>
      refine ih (by rwa [Nat.add_right_comm, Nat.add_assoc]) fun k below => ?_
      rcases Nat.lt_succ_iff_lt_or_eq.mp below with before | rfl
      · exact short k before
      · exact more
    next less => exact ⟨Nat.not_lt.mp less, short⟩

/-- The columns of the overview are the fewest whose square is enough. -/
theorem overviewCols_least {n : ℕ} (some : 1 ≤ n) :
    n ≤ overviewCols n * overviewCols n ∧ ∀ k, n ≤ k * k → overviewCols n ≤ k := by
  have enough : n ≤ (1 + n) * (1 + n) := Nat.le_trans (Nat.le_add_left n 1) (Nat.le_mul_self _)
  obtain ⟨fits, short⟩ := enoughColumns_least enough fun k below => by
    obtain rfl : k = 0 := by omega
    exact some
  exact ⟨fits, fun k square => Nat.le_of_not_lt fun below => Nat.not_le.mpr (short k below) square⟩

end Columns

section Tiles

variable {area : Rect} {n cols rows : ℕ}

/-- The tile of a grid cell. -/
def tile (area : Rect) (cols rows row column : ℕ) : Rect :=
  ⟨area.x + offset area.w cols column, area.y + offset area.h rows row, extent area.w cols column, extent area.h rows row⟩

/-- Columns from one on, as long as there are windows. -/
theorem tileColumns_eq (build : Build) (right : area.x + area.w < 65536) (rows row : ℕ) {column k : ℕ} (inside : column + k ≤ cols)
    (i : ℕ) :
    tileColumns build n (area.y + offset area.h rows row) (extent area.h rows row) (tileExtent build area.w cols)
        (List.range' column k) (area.x + offset area.w cols column) i =
      some ((List.range' column (min k (n - i))).map (tile area cols rows row), i + min k (n - i)) := by
  induction k generalizing column i with
  | zero => simp [tileColumns]
  | succ k ih =>
    rw [List.range'_succ, tileColumns]
    split
    next full =>
      have none : n - i = 0 := by omega
      rw [none, Nat.min_zero]
      rfl
    next more =>
      have ends := offset_extent_le area.w (show column < cols by omega)
      have next := offset_succ area.w cols column
      rw [tileExtent_eq build (by omega) (by omega)]
      dsimp only [Option.bind_eq_bind, Option.bind_some]
      rw [add16_of_lt build (by omega), Option.bind_some, Nat.add_assoc area.x, ← next, ih (by omega) (i + 1)]
      have count : min (k + 1) (n - i) = min k (n - (i + 1)) + 1 := by omega
      rw [count, List.range'_succ, List.map_cons]
      simp only [Option.bind_some, Option.pure_def, Option.some.injEq, Prod.mk.injEq]
      exact ⟨rfl, by omega⟩

/-- Rows from one on. -/
theorem tileRows_eq (build : Build) (right : area.x + area.w < 65536) (bottom : area.y + area.h < 65536)
    (cols : ℕ) {row k : ℕ} (inside : row + k ≤ rows) :
    tileRows build n area.x cols (tileExtent build area.w cols) (tileExtent build area.h rows)
        (List.range' row k) (area.y + offset area.h rows row) (min (row * cols) n) =
      some ((List.range' row k).flatMap fun row =>
        (List.range (min cols (n - row * cols))).map (tile area cols rows row)) := by
  induction k generalizing row with
  | zero => simp [tileRows]
  | succ k ih =>
    rw [List.range'_succ, tileRows]
    have ends := offset_extent_le area.h (show row < rows by omega)
    have next := offset_succ area.h rows row
    have start : area.x = area.x + offset area.w cols 0 := by simp [offset]
    have placed := tileColumns_eq (n := n) build right rows row (Nat.le_of_eq (Nat.zero_add cols)) (min (row * cols) n)
    rw [← start, ← List.range_eq_range'] at placed
    rw [tileExtent_eq build (by omega) (by omega)]
    dsimp only [Option.bind_eq_bind, Option.bind_some]
    rw [placed, Option.bind_some, add16_of_lt build (by omega), Option.bind_some, Nat.add_assoc area.y, ← next]
    have left : n - min (row * cols) n = n - row * cols := by omega
    have following : min (row * cols) n + min cols (n - min (row * cols) n) = min ((row + 1) * cols) n := by
      rw [Nat.succ_mul]
      omega
    rw [following, ih (by omega), left, ← List.range_eq_range']
    rfl

/-- The rows one after the other are the windows in order. -/
theorem rows_flatten (some : 1 ≤ cols) (n : ℕ) (f : ℕ → ℕ → Rect) (rows : ℕ) :
    ((List.range rows).flatMap fun row => (List.range (min cols (n - row * cols))).map (f row)) =
      (List.range (min (rows * cols) n)).map fun i => f (i / cols) (i % cols) := by
  induction rows with
  | zero => simp
  | succ rows ih =>
    rw [List.range_succ, List.flatMap_append, ih, List.flatMap_singleton, Nat.succ_mul]
    rcases Nat.lt_or_ge (rows * cols) n with more | full
    · have total : min (rows * cols + cols) n = rows * cols + min cols (n - rows * cols) := by omega
      rw [total, Nat.min_eq_left more.le, List.range_add, List.map_append, List.map_map]
      congr 1
      refine List.map_congr_left fun column member => ?_
      have inside : column < cols := (List.mem_range.mp member).trans_le (Nat.min_le_left ..)
      have row : (rows * cols + column) / cols = rows := by
        rw [Nat.mul_comm, Nat.mul_add_div some, Nat.div_eq_of_lt inside, Nat.add_zero]
      have rest : (rows * cols + column) % cols = column := by
        rw [Nat.mul_comm, Nat.mul_add_mod, Nat.mod_eq_of_lt inside]
      rw [Function.comp_apply, row, rest]
    · have none : n - rows * cols = 0 := by omega
      rw [none, Nat.min_zero, List.range_zero, List.map_nil, List.append_nil, Nat.min_eq_right full,
        Nat.min_eq_right (by omega)]

/-- What the overview computes: one tile for each window, in row-major order. -/
theorem overviewTiles_eq (build : Build) (width : 1 ≤ area.w) (height : 1 ≤ area.h) (right : area.x + area.w < 65536)
    (bottom : area.y + area.h < 65536) (some : 1 ≤ n) (few : n < 65536) :
    overviewTiles build area n = .some ((List.range n).map fun i =>
      tile area (overviewCols n) ((n + overviewCols n - 1) / overviewCols n) (i / overviewCols n) (i % overviewCols n)) := by
  obtain ⟨enough, least⟩ := overviewCols_least some
  have bound : overviewCols n ≤ 256 := least 256 (by omega)
  have positive : 1 ≤ overviewCols n := Nat.pos_of_ne_zero fun none => by
    rw [none] at enough
    omega
  unfold overviewTiles
  dsimp only
  generalize overviewCols n = cols at enough bound positive
  have ceiling : n ≤ (n + cols - 1) / cols * cols := by
    have rounded := Nat.div_add_mod (n + cols - 1) cols
    have below := Nat.mod_lt (n + cols - 1) positive
    rw [Nat.mul_comm] at rounded
    omega
  have rowsBound : (n + cols - 1) / cols ≤ n := by
    obtain ⟨c, rfl⟩ := Nat.exists_eq_add_of_le' positive
    obtain ⟨m, rfl⟩ := Nat.exists_eq_add_of_le' some
    refine Nat.div_le_of_le_mul ?_
    rw [Nat.succ_mul, Nat.mul_succ]
    omega
  generalize (n + cols - 1) / cols = rows at ceiling rowsBound
  have rowsPositive : 1 ≤ rows := Nat.pos_of_ne_zero fun none => by
    rw [none] at ceiling
    omega
  rw [if_neg (by omega), Nat.mod_eq_of_lt (by omega : cols < 65536), Nat.mod_eq_of_lt (by omega : rows < 65536),
    if_neg (by omega)]
  have placed := tileRows_eq (n := n) build right bottom cols (Nat.le_of_eq (Nat.zero_add rows))
  have start : area.y + offset area.h rows 0 = area.y := by simp [offset]
  rw [start, Nat.zero_mul, Nat.zero_min, ← List.range_eq_range', rows_flatten positive, Nat.min_eq_right ceiling] at placed
  exact placed

private theorem extents_spread (total count : ℕ) :
    ∀ a ∈ (List.range count).map (extent total count), ∀ b ∈ (List.range count).map (extent total count), a ≤ b + 1 := by
  intro a first b second
  obtain ⟨i, -, rfl⟩ := List.mem_map.mp first
  obtain ⟨j, -, rfl⟩ := List.mem_map.mp second
  exact extent_le_succ ..

private theorem take_extents (total : ℕ) {count index : ℕ} (inside : index ≤ count) :
    (((List.range count).map (extent total count)).take index).sum = offset total count index := by
  rw [← List.map_take, List.take_range, Nat.min_eq_left inside]
  exact sum_extents total count index

/-- The first cells of a grid of the fewest columns, whose widths and heights sum to those of the area and differ by one
at most. -/
structure Tiled (area : Rect) (n : ℕ) (tiles : List Rect) : Prop where
  all : tiles.length = n
  inside : ∀ t ∈ tiles, area.x ≤ t.x ∧ t.x + t.w ≤ area.x + area.w ∧ area.y ≤ t.y ∧ t.y + t.h ≤ area.y + area.h
  apart : tiles.Pairwise fun s t => Disjoint s.cells t.cells
  fewest : n ≤ overviewCols n * overviewCols n ∧ ∀ k, n ≤ k * k → overviewCols n ≤ k
  cells : ∃ widths heights : List ℕ, widths.length = overviewCols n ∧
    heights.length = (n + overviewCols n - 1) / overviewCols n ∧ widths.sum = area.w ∧ heights.sum = area.h ∧
    (∀ a ∈ widths, ∀ b ∈ widths, a ≤ b + 1) ∧ (∀ a ∈ heights, ∀ b ∈ heights, a ≤ b + 1) ∧
    ∀ i < n, ∃ t, tiles[i]? = some t ∧ widths[i % overviewCols n]? = some t.w ∧
      heights[i / overviewCols n]? = some t.h ∧ t.x = area.x + (widths.take (i % overviewCols n)).sum ∧
        t.y = area.y + (heights.take (i / overviewCols n)).sum

private theorem overviewTiles_tiled (width : 1 ≤ area.w) (height : 1 ≤ area.h) (right : area.x + area.w < 65536)
    (bottom : area.y + area.h < 65536) (some : 1 ≤ n) (few : n < 65536) :
    Settles (fun build => overviewTiles build area n) (Tiled area n) := by
  refine ⟨_, fun build => overviewTiles_eq build width height right bottom some few, ?_⟩
  obtain ⟨enough, least⟩ := overviewCols_least some
  refine ⟨by simp, ?_, ?_, ⟨enough, least⟩, ?_⟩
  all_goals
    have positive : 1 ≤ overviewCols n := Nat.pos_of_ne_zero fun none => by
      rw [none] at enough
      omega
  all_goals clear enough least
  all_goals generalize overviewCols n = cols at positive
  all_goals
    have rowInside (i : ℕ) (below : i < n) : i / cols < (n + cols - 1) / cols := by
      rw [Nat.lt_div_iff_mul_lt positive]
      have floor := Nat.div_mul_le_self i cols
      omega
  all_goals generalize (n + cols - 1) / cols = rows at rowInside
  · intro t member
    obtain ⟨i, inside, rfl⟩ := List.mem_map.mp member
    have column := offset_extent_le area.w (Nat.mod_lt i positive)
    have row := offset_extent_le area.h (rowInside i (List.mem_range.mp inside))
    dsimp only [tile]
    omega
  · refine List.pairwise_map.mpr ((List.pairwise_lt_range (n := n)).imp fun {i j} before => ?_)
    refine Set.disjoint_left.mpr fun cell inFirst inSecond => ?_
    simp only [mem_cells, tile] at inFirst inSecond
    rcases Nat.lt_or_eq_of_le (Nat.div_le_div_right (c := cols) before.le) with above | same
    · have apart := offset_extent_le_offset area.h rows above
      omega
    · have columns : i % cols < j % cols := by
        have first := Nat.div_add_mod i cols
        have second := Nat.div_add_mod j cols
        rw [← same] at second
        omega
      have apart := offset_extent_le_offset area.w cols columns
      omega
  · refine ⟨(List.range cols).map (extent area.w cols), (List.range rows).map (extent area.h rows), by simp, by simp,
      ?_, ?_, extents_spread _ _, extents_spread _ _, fun i below => ?_⟩
    · rw [sum_extents, offset_count area.w positive]
    · have rowsPositive : 1 ≤ rows := Nat.lt_of_le_of_lt (Nat.zero_le _) (rowInside 0 some)
      rw [sum_extents, offset_count area.h rowsPositive]
    · have column := Nat.mod_lt i positive
      refine ⟨tile area cols rows (i / cols) (i % cols), by simp [below], ?_, ?_, ?_, ?_⟩
      · simp [tile, column]
      · simp [tile, rowInside i below]
      · rw [take_extents area.w column.le]
        rfl
      · rw [take_extents area.h (rowInside i below).le]
        rfl

/-- The tiles of the overview make up an area with cells, and an area without cells has no tiles. -/
theorem overviewTiles_partition (area : Rect) (right : area.x + area.w < 65536) (bottom : area.y + area.h < 65536) (n : ℕ)
    (some : 1 ≤ n) (few : n < 65536) :
    (1 ≤ area.w ∧ 1 ≤ area.h → Settles (fun build => overviewTiles build area n) (Tiled area n)) ∧
      (area.w = 0 ∨ area.h = 0 → Settles (fun build => overviewTiles build area n) (· = [])) := by
  refine ⟨fun ⟨width, height⟩ => overviewTiles_tiled width height right bottom some few, fun empty => ?_⟩
  exact ⟨[], fun build => if_pos (.inr empty), rfl⟩

/-- Seven windows in five columns and four rows of cells. -/
theorem overviewTiles_partition_seven :
    Settles (fun build => overviewTiles build ⟨2, 1, 5, 4⟩ 7) (Tiled ⟨2, 1, 5, 4⟩ 7) :=
  (overviewTiles_partition ⟨2, 1, 5, 4⟩ (by decide) (by decide) 7 (by decide) (by decide)).1 (by decide)

/-- An area without cells has no tiles. -/
theorem overviewTiles_empty : overviewTiles .release ⟨0, 0, 0, 5⟩ 1 = some [] := rfl

end Tiles

end Uniterm.Model.Workspace
