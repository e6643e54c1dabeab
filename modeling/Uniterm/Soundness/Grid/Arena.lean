import Uniterm.Soundness.Grid.Rebuild

/-! # Filling the grapheme arena

Only the last sixty-four texts of the arena are looked up before a text is appended, so the arena
grows by at most one text a cell and also when a text occurs again later. With room for all texts
nothing is compacted. A row with more letters than the arena holds has it compacted under itself.
-/

namespace Uniterm.Model.Grid

open ToMathlib Machine

section Few

variable {g : Grid}

/-- The number of cells with a text of several codepoints. -/
def clusterCount (cells : List StoredCell) : ℕ := cells.countP fun c => 1 < c.text.length

/-- The arena has room for a number of texts before it is compacted. -/
structure Roomy (g : Grid) (n : ℕ) : Prop where
  gcAt : g.clusterGcAt = 4096
  room : g.clusters.length + n ≤ 4096

theorem Roomy.mono {m n : ℕ} (roomy : Roomy g n) (le : m ≤ n) : Roomy g m :=
  ⟨roomy.gcAt, by have := roomy.room; omega⟩

private theorem internUnderlineColor_clusters (g : Grid) (color : Color) :
    (g.internUnderlineColor color).1.clusters = g.clusters ∧
      (g.internUnderlineColor color).1.clusterGcAt = g.clusterGcAt := by
  unfold internUnderlineColor
  split
  · exact ⟨rfl, rfl⟩
  split
  · exact ⟨rfl, rfl⟩
  dsimp only
  have compacted : (if g.underlineColors.length = 256 then g.compactUnderlineColors else g).clusters =
      g.clusters ∧ (if g.underlineColors.length = 256 then g.compactUnderlineColors else g).clusterGcAt =
        g.clusterGcAt := by
    split <;> exact ⟨rfl, rfl⟩
  generalize (if g.underlineColors.length = 256 then g.compactUnderlineColors else g) = g' at compacted ⊢
  split
  · exact compacted
  split
  · exact compacted
  · exact compacted

theorem Roomy.intern {n : ℕ} (roomy : Roomy g (1 + n)) (text : Text) : Roomy (g.intern text).1 n := by
  obtain ⟨gcAt, room⟩ := roomy
  rcases intern_cases g text with ⟨handle, interned⟩ | interned | ⟨compacts, _⟩
  · rw [interned]
    exact ⟨gcAt, by dsimp only; omega⟩
  · rw [interned]
    refine ⟨gcAt, ?_⟩
    rw [List.length_append, List.length_singleton]
    omega
  · have := compacts.2
    omega

/-- With room for its text, placing a cell compacts nothing. -/
theorem Roomy.place {saved : StoredCell} {n : ℕ} (roomy : Roomy g (clusterCount [saved] + n))
    (line : Line) (x : ℕ) :
    KeepsNames (g, line) (saved, x) ∧ Roomy (placeStored (g, line) (saved, x)).1 n := by
  have count : clusterCount [saved] = if 1 < saved.text.length then 1 else 0 := by
    simp [clusterCount, List.countP_cons]
  rw [count] at roomy
  refine ⟨fun _ long compacts => ?_, ?_⟩
  · have := compacts.2
    have := roomy.gcAt
    have := roomy.room
    rw [if_pos long] at *
    dsimp only at *
    omega
  · obtain ⟨clusters, gcAt⟩ := internUnderlineColor_clusters g saved.underlineColor
    unfold placeStored setStoredOnLine
    dsimp only
    split
    · exact roomy.mono (Nat.le_add_left ..)
    generalize g.internUnderlineColor saved.underlineColor = interned at clusters gcAt ⊢
    have colored : Roomy interned.1 ((if 1 < saved.text.length then 1 else 0) + n) :=
      ⟨gcAt.trans roomy.gcAt, by rw [clusters]; exact roomy.room⟩
    split
    · exact colored.mono (Nat.le_add_left ..)
    · by_cases long : saved.text.length > 1
      · simp only [long, ↓reduceIte] at colored ⊢
        exact colored.intern saved.text
      · simp only [long, ↓reduceIte]
        exact colored.mono (Nat.le_add_left ..)

theorem Roomy.row {cells : List StoredCell} {n : ℕ} (roomy : Roomy g (clusterCount cells + n))
    (line : Line) (k : ℕ) :
    Guards KeepsNames (fun s e => some (placeStored s e)) (g, line) (cells.zipIdx k) ∧
      Roomy ((cells.zipIdx k).foldl placeStored (g, line)).1 n := by
  induction cells generalizing g line k with
  | nil => exact ⟨trivial, roomy.mono (Nat.le_add_left ..)⟩
  | cons saved rest ih =>
    have count : clusterCount (saved :: rest) = clusterCount [saved] + clusterCount rest := by
      rw [← List.singleton_append, clusterCount, List.countP_append]
      rfl
    rw [count, Nat.add_assoc] at roomy
    obtain ⟨keeps, placed⟩ := roomy.place line k
    obtain ⟨guarded, done⟩ := ih placed (placeStored (g, line) (saved, k)).2 (k + 1)
    rw [List.zipIdx_cons, List.foldl_cons]
    refine ⟨⟨keeps, fun t stepped => ?_⟩, done⟩
    cases stepped
    exact guarded

/-- The number of cells with a text of several codepoints, over rows. -/
def rowsClusterCount (rows : List StoredLine) : ℕ := (rows.map fun row => clusterCount row.cells).sum

theorem Roomy.rows {rows : List StoredLine} {start k n : ℕ} (roomy : Roomy g (rowsClusterCount rows + n)) :
    LinesKeepNames start g (rows.zipIdx k) := by
  induction rows generalizing g k with
  | nil => trivial
  | cons row rest ih =>
    have count : rowsClusterCount (row :: rest) = clusterCount row.cells + rowsClusterCount rest :=
      List.sum_cons ..
    rw [count, Nat.add_assoc] at roomy
    have started : Roomy (lineStart g row).1 (clusterCount row.cells + (rowsClusterCount rest + n)) :=
      ⟨roomy.gcAt, roomy.room⟩
    refine ⟨(started.row _ 0).1, fun t stepped => ?_⟩
    cases stepped
    have fewer : clusterCount (row.cells.take g.width) ≤ clusterCount row.cells :=
      (List.take_sublist ..).countP_le
    have built : Roomy (lineStart g row).1
        (clusterCount (row.cells.take g.width) + (rowsClusterCount rest + n)) :=
      started.mono (by omega)
    have placed : Roomy (g.lineFromStored row).1 (rowsClusterCount rest + n) := (built.row _ 0).2
    refine ih ?_
    unfold rebuildLine
    dsimp only
    split <;> exact ⟨placed.gcAt, placed.room⟩

end Few

section Filling

theorem toNat_ofNat {n : ℕ} (small : n < 0xd800) : (Char.ofNat n).toNat = n := by
  rw [Char.ofNat, dif_pos (Or.inl small)]
  rfl

/-- The newest entries of a list, by their index. -/
theorem mem_newest {α : Type} {l : List α} {n : ℕ} {e : α × ℕ}
    (member : e ∈ l.zipIdx.reverse.take n) : l[e.2]? = some e.1 ∧ l.length ≤ e.2 + n := by
  rw [List.take_reverse, List.mem_reverse, List.length_zipIdx] at member
  obtain ⟨i, read⟩ := List.mem_iff_getElem?.mp member
  rw [List.getElem?_drop, List.getElem?_zipIdx, Option.map_eq_some_iff] at read
  obtain ⟨a, read, rfl⟩ := read
  dsimp only
  rw [Nat.zero_add]
  exact ⟨read, by omega⟩

/-- Sixty-six graphemes of two codepoints, again and again. -/
def accented (i : ℕ) : Text := [Char.ofNat (256 + i % 66), '\u0301']

theorem accented_inj {i j : ℕ} (same : accented i = accented j) : i % 66 = j % 66 := by
  have heads := congrArg Char.toNat (List.cons.inj same).1
  rw [toNat_ofNat (by omega), toNat_ofNat (by omega)] at heads
  omega

/-- An arena that was filled with them one after the other. -/
def accents (n : ℕ) : List Text := [] :: (List.range n).map accented

private theorem recentCluster_accented {g : Grid} {n : ℕ} (clusters : g.clusters = accents n) :
    g.recentCluster (accented n) = none := by
  rw [recentCluster, Option.map_eq_none_iff, List.find?_eq_none]
  intro e member same
  rw [clusters] at member
  obtain ⟨read, newest⟩ := mem_newest member
  rw [beq_iff_eq.mp same] at read
  cases index : e.2 with
  | zero =>
    rw [index] at read
    cases read
  | succ i =>
    rw [index, accents, List.getElem?_cons_succ, List.getElem?_map, Option.map_eq_some_iff] at read
    obtain ⟨j, read, text⟩ := read
    obtain ⟨bound, rfl⟩ := List.getElem?_eq_some_iff.mp read
    rw [List.getElem_range] at text
    rw [List.length_range] at bound
    have := accented_inj text
    simp only [accents, List.length_cons, List.length_map, List.length_range, index] at newest
    omega

private theorem intern_accented {g : Grid} {n : ℕ} (clusters : g.clusters = accents n)
    (room : n + 1 < g.clusterGcAt) :
    g.intern (accented n) = ({ g with clusters := accents (n + 1) }, n + 1) := by
  have length : g.clusters.length = n + 1 := by simp [clusters, accents]
  have grown : accents n ++ [accented n] = accents (n + 1) := by simp [accents, List.range_succ]
  rw [Grid.intern, recentCluster_accented clusters]
  dsimp only
  rw [if_neg (by omega), length, clusters, grown]

/-- The grapheme for which the arena is full is alone in the arena afterwards. -/
theorem intern_accented_full {g : Grid} {n : ℕ} (clusters : g.clusters = accents n)
    (full : n + 1 = g.clusterGcAt) (none : g.scrollback ++ g.lines = []) :
    (g.intern (accented n)).1.clusters = [[], accented n] := by
  have length : g.clusters.length = n + 1 := by simp [clusters, accents]
  rw [Grid.intern, recentCluster_accented clusters]
  dsimp only
  rw [if_pos (by omega), compactClusters, none]
  rfl
private theorem intern_width (g : Grid) (text : Text) : (g.intern text).1.width = g.width := by
  rcases intern_cases g text with ⟨handle, interned⟩ | interned | ⟨_, interned⟩
  · rw [interned]
  · rw [interned]
  · rw [interned]
    rfl

/-- Placing a glyph in terminal-default style only interns its text. -/
theorem placeStored_grid (g : Grid) (line : Line) {text : Text} (some : text ≠ []) {x : ℕ}
    (inside : x < g.width) : (placeStored (g, line) ({ text }, x)).1 =
      if text.length > 1 then (g.intern text).1 else g := by
  have colored : g.internUnderlineColor .default = (g, 0) := if_pos rfl
  by_cases long : text.length > 1
  · have named : (if text.length > 1 then g.intern text else (g, 0)) =
        ((g.intern text).1, (g.intern text).2) := if_pos long
    rw [placeStored_lead rfl some colored named rfl (intern_width g text) line inside, if_pos long]
  · have named : (if text.length > 1 then g.intern text else (g, 0)) = (g, 0) := if_neg long
    rw [placeStored_lead rfl some colored named rfl rfl line inside, if_neg long]

private theorem placeAccents {g : Grid} (clusters : g.clusters = [[]]) (line : Line) {n : ℕ}
    (room : n < g.clusterGcAt) (wide : n ≤ g.width) :
    ((((List.range n).map fun i => ({ text := accented i } : StoredCell)).zipIdx).foldl placeStored
      (g, line)).1 = { g with clusters := accents n } := by
  induction n with
  | zero =>
    rw [show accents 0 = g.clusters from clusters.symm]
    rfl
  | succ n ih =>
    have before := ih (by omega) (by omega)
    rw [List.range_succ, List.map_append, List.map_singleton, List.zipIdx_append, List.foldl_append,
      List.length_map, List.length_range, Nat.zero_add, List.zipIdx_singleton, List.foldl_cons, List.foldl_nil]
    generalize (((List.range n).map fun i => ({ text := accented i } : StoredCell)).zipIdx).foldl placeStored
      (g, line) = state at before ⊢
    obtain ⟨g', line'⟩ := state
    dsimp only at before
    subst before
    rw [placeStored_grid _ _ (by simp [accented]) (by exact wide), if_pos (by simp [accented]),
      intern_accented rfl (by exact room)]

/-- Past the limit of the arena, nothing but the last grapheme is left in it. -/
theorem placeAccents_full {g : Grid} (clusters : g.clusters = [[]]) (none : g.scrollback ++ g.lines = [])
    (line : Line) {n : ℕ} (full : n + 1 = g.clusterGcAt) (wide : n + 2 ≤ g.width) :
    ((((List.range (n + 1)).map fun i => ({ text := accented i } : StoredCell)) ++
      [defaultSaved]).zipIdx.foldl placeStored (g, line)).1.clusters = [[], accented n] := by
  have before := placeAccents clusters line (n := n) (by omega) (by omega)
  rw [List.range_succ, List.map_append, List.map_singleton, List.append_assoc, List.zipIdx_append,
    List.foldl_append, List.length_map, List.length_range, Nat.zero_add, List.singleton_append,
    List.zipIdx_cons, List.zipIdx_singleton, List.foldl_cons, List.foldl_cons, List.foldl_nil]
  generalize (((List.range n).map fun i => ({ text := accented i } : StoredCell)).zipIdx).foldl placeStored
    (g, line) = state at before ⊢
  obtain ⟨g', line'⟩ := state
  dsimp only at before
  subst before
  have last : (placeStored ({ g with clusters := accents n }, line') ({ text := accented n }, n)).1 =
      (Grid.intern { g with clusters := accents n } (accented n)).1 := by
    rw [placeStored_grid _ _ (by simp [accented]) (by dsimp only; omega), if_pos (by simp [accented])]
  have arena := intern_accented_full (g := { g with clusters := accents n }) rfl full none
  rw [← last] at arena
  have width : (placeStored ({ g with clusters := accents n }, line') ({ text := accented n }, n)).1.width =
      g.width := by
    rw [last, intern_width]
  generalize placeStored ({ g with clusters := accents n }, line') ({ text := accented n }, n) = state
    at arena width ⊢
  obtain ⟨g'', line''⟩ := state
  dsimp only at arena width
  rw [defaultSaved, placeStored_grid _ _ (by simp) (by rw [width]; omega), if_neg (by decide), arena]

/-- The stored form of the row, one column wider. -/
def accentStored (n : ℕ) : StoredLine where
  cells := (List.range n).map (fun i => ({ text := accented i } : StoredCell)) ++ [defaultSaved]

/-- The rebuilt grid names nothing but the last letter. -/
theorem accents_rebuilt {n : ℕ} (full : n + 1 = 4096) (limit : ℕ) :
    (rebuild (n + 2) 1 limit {} [accentStored (n + 1)] 0).clusters = [[], accented n] := by
  have placed := placeAccents_full (g := (lineStart (rebuildStart (n + 2) 1 limit) (accentStored (n + 1))).1)
    rfl rfl (lineStart (rebuildStart (n + 2) 1 limit) (accentStored (n + 1))).2 full le_rfl
  have line : (lineFromStored (rebuildStart (n + 2) 1 limit) (accentStored (n + 1))).1.clusters =
      [[], accented n] := by
    have short : (accentStored (n + 1)).cells.take (n + 2) = (accentStored (n + 1)).cells :=
      List.take_of_length_le (by simp [accentStored])
    rw [← placed]
    unfold lineFromStored
    dsimp only
    change (List.foldl placeStored _ ((accentStored (n + 1)).cells.take (n + 2)).zipIdx).1.clusters = _
    rw [short]
    rfl
  rw [← line, rebuild, markAllDamaged_frame]
  rfl

end Filling

end Uniterm.Model.Grid
