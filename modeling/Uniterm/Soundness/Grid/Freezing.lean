import Uniterm.Soundness.Grid.Reached

/-! # Frozen screens

The arenas of a frozen copy grow while its cells are placed, and may be compacted in between. The cells placed so
far keep what they show: a compacted grapheme arena renumbers them, the colours of one grid fit one arena, and no
link that a placed cell names is dropped or given away.
-/

namespace Uniterm.Model.Grid

open ToMathlib Machine

variable {f g : Grid} {palette : List Color} {n : ℕ}

/-- The rows of a screen as a client sees them. -/
def picture (g : Grid) : List (List Resolved × Bool × ℕ) := g.lines.map g.shownLine

/-- A cell whose handles the arenas of a grid hold. -/
structure Backed (g : Grid) (c : Cell) : Prop extends Held g c where
  link : c.hyperlink ≠ 0 → c.hyperlink ∈ g.hyperlinks

/-- A copy in which a number of cells was placed. -/
structure Filling (palette : List Color) (n : ℕ) (f : Grid) : Prop where
  colors : InPalette palette f
  empty : f.clusters[0]? = some []
  history : f.scrollback = []
  cells : ∀ line ∈ f.lines, ∀ c ∈ line.cells, Backed f c
  keys : ∀ handle ∈ f.hyperlinks, handle ≠ 0 ∧ handle < f.nextHyperlink
  next : 0 < f.nextHyperlink ∧ f.nextHyperlink ≤ n + 1

/-- The arenas of a copy changed, and its picture did not. -/
structure Refilled (f f' : Grid) : Prop where
  width : f'.width = f.width
  height : f'.height = f.height
  picture : f'.picture = f.picture

theorem Refilled.refl (f : Grid) : Refilled f f := ⟨rfl, rfl, rfl⟩

theorem Refilled.trans {f f' f'' : Grid} (first : Refilled f f') (second : Refilled f' f'') : Refilled f f'' :=
  ⟨second.width.trans first.width, second.height.trans first.height, second.picture.trans first.picture⟩

private theorem picture_congr {f' : Grid} (lines : f'.lines = f.lines)
    (same : ∀ line ∈ f.lines, ∀ c ∈ line.cells, f'.resolve c = f.resolve c) : f'.picture = f.picture := by
  unfold picture
  rw [lines]
  refine List.map_congr_left fun line member => ?_
  unfold shownLine
  rw [List.map_congr_left (same line member)]

theorem SameView.picture {f' : Grid} (same : SameView f f') : f'.picture = f.picture := by
  refine (map_eq_of_forall₂ _ (fun line line' carried => ?_) same.lines).symm
  have cells : line.cells.map f.resolve = line'.cells.map f'.resolve :=
    map_eq_of_forall₂ (Carried f.clusters f'.clusters) (fun c c' cell => (same.resolve_eq cell).symm) carried.cells
  rw [shownLine, shownLine, cells, carried.wrapped, carried.id]

section Interning

/-- The first entry of the grapheme arena stays empty. -/
theorem intern_empty (empty : f.clusters[0]? = some []) (text : Text) : (f.intern text).1.clusters[0]? = some [] := by
  rcases intern_cases f text with ⟨handle, interned⟩ | interned | ⟨-, interned⟩
  · rw [interned]
    exact empty
  · rw [interned, List.getElem?_append_left (List.getElem?_eq_some_iff.mp empty).1, empty]
  · have start := compactClusters_empty f
    rw [interned, List.getElem?_append_left (List.getElem?_eq_some_iff.mp start).1, start]

/-- A grapheme is interned, and its handle names it. -/
theorem Filling.intern (filling : Filling palette n f) {text : Text} (some : text ≠ []) :
    Filling palette n (f.intern text).1 ∧ Refilled f (f.intern text).1 ∧
      (f.intern text).1.clusters[(f.intern text).2]? = Option.some text ∧ (f.intern text).2 ≠ 0 := by
  have valid : f.ClustersValid :=
    ⟨(List.getElem?_eq_some_iff.mp filling.empty).1, fun line member c inside => by
      rw [filling.history] at member
      exact (filling.cells line member c inside).cluster⟩
  obtain ⟨same, valid, found⟩ := valid.intern text
  have empty := intern_empty filling.empty text
  generalize f.intern text = interned at same valid found empty ⊢
  obtain ⟨f', handle⟩ := interned
  dsimp only at same valid found empty ⊢
  have rest := same.rest
  have colors : f'.underlineColors = f.underlineColors := by rw [rest]
  have links : f'.hyperlinks = f.hyperlinks := by rw [rest]
  have next : f'.nextHyperlink = f.nextHyperlink := by rw [rest]
  refine ⟨⟨?_, empty, ?_, fun line member c inside => ?_, ?_, next ▸ filling.next⟩,
    ⟨by rw [rest], by rw [rest], same.picture⟩, found, fun zero => ?_⟩
  · exact ⟨filling.colors.room, by unfold DefaultFirst; rw [colors]; exact filling.colors.first,
      colors ▸ filling.colors.distinct, colors ▸ filling.colors.subset⟩
  · have history := same.scrollback.length_eq
    rw [filling.history] at history
    exact List.eq_nil_of_length_eq_zero history.symm
  · obtain ⟨old, before, carried⟩ := exists_of_mem_right same.lines member
    obtain ⟨c', held, cell⟩ := exists_of_mem_right carried.cells inside
    have named := filling.cells old before c' held
    refine ⟨⟨cell.valid, ?_⟩, ?_⟩
    · rw [cell.underlineColor, colors]
      exact named.underline
    · rw [cell.hyperlink, links]
      exact named.link
  · rw [links, next]
    exact filling.keys
  · rw [zero, empty] at found
    exact some (Option.some.inj found).symm

/-- A colour of the source is interned, and its handle names it. -/
theorem Filling.internUnderlineColor (filling : Filling palette n f) {color : Color} (known : color ∈ palette) :
    ∃ more, (f.internUnderlineColor color).1 = { f with underlineColors := f.underlineColors ++ more } ∧
      Filling palette n (f.internUnderlineColor color).1 ∧ Refilled f (f.internUnderlineColor color).1 ∧
      (f.internUnderlineColor color).1.underlineColors[(f.internUnderlineColor color).2]? = some color := by
  obtain ⟨more, grown, colors, found⟩ := filling.colors.intern known
  refine ⟨more, grown, ?_⟩
  generalize f.internUnderlineColor color = interned at grown colors found ⊢
  obtain ⟨f', handle⟩ := interned
  dsimp only at grown colors found ⊢
  subst grown
  refine ⟨⟨colors, filling.empty, filling.history, fun line member c inside => ?_, filling.keys, filling.next⟩,
    ⟨rfl, rfl, picture_congr rfl fun line member c inside => ?_⟩, found⟩
  · have named := filling.cells line member c inside
    exact ⟨⟨named.cluster, by rw [List.length_append]; exact Nat.lt_add_right _ named.underline⟩, named.link⟩
  · have named := filling.cells line member c inside
    unfold resolve
    rw [underlineColor_append named.underline]
    rfl

/-- The next handle is free, as long as handles count in 32 bits. -/
theorem freeHandle_next {taken : Std.ExtTreeMap ℕ Text} {next fuel : ℕ} (positive : 0 < next)
    (room : next + 1 < 2 ^ 32) (free : next ∉ taken) : freeHandle taken (fuel + 1) next = (next, next + 1) := by
  have absent : ¬ taken.contains next = true := fun taken => free (Std.ExtTreeMap.mem_iff_contains.mpr taken)
  unfold freeHandle
  dsimp only
  rw [Nat.max_eq_left positive, if_neg absent, Nat.mod_eq_of_lt room, Nat.max_eq_left (Nat.le_add_left ..)]

/-- Links that placed cells name are kept when the others are dropped. -/
theorem Filling.compactHyperlinks (filling : Filling palette n f) :
    Filling palette n f.compactHyperlinks ∧ Refilled f f.compactHyperlinks := by
  have kept {handle : ℕ} (inside : handle ∈ f.compactHyperlinks.hyperlinks) : handle ∈ f.hyperlinks := by
    rw [Std.ExtTreeMap.mem_iff_isSome_getElem?] at inside ⊢
    rw [Grid.compactHyperlinks, Std.ExtTreeMap.getElem?_filter'] at inside
    obtain ⟨uri, found⟩ := Option.isSome_iff_exists.mp inside
    rw [(Option.filter_eq_some_iff.mp found).1]
    rfl
  have used {line : Line} (member : line ∈ f.lines) {c : Cell} (inside : c ∈ line.cells) (linked : c.hyperlink ≠ 0) :
      f.compactHyperlinks.hyperlinks[c.hyperlink]? = f.hyperlinks[c.hyperlink]? := by
    have listed : c.hyperlink ∈ (f.scrollback ++ f.lines).flatMap fun line => line.cells.map (·.hyperlink) :=
      List.mem_flatMap.mpr ⟨line, List.mem_append_right _ member, List.mem_map_of_mem inside⟩
    rw [Grid.compactHyperlinks, Std.ExtTreeMap.getElem?_filter']
    simp only [List.contains_eq_mem, listed, decide_true, Bool.true_and, bne_iff_ne.mpr linked]
    cases f.hyperlinks[c.hyperlink]? <;> rfl
  refine ⟨⟨?_, filling.empty, filling.history, fun line member c inside => ?_, fun handle inside => ?_, filling.next⟩,
    ⟨rfl, rfl, picture_congr rfl fun line member c inside => ?_⟩⟩
  · exact ⟨filling.colors.room, filling.colors.first, filling.colors.distinct, filling.colors.subset⟩
  · have named := filling.cells line member c inside
    refine ⟨⟨named.cluster, named.underline⟩, fun linked => ?_⟩
    have before := named.link linked
    rw [Std.ExtTreeMap.mem_iff_isSome_getElem?] at before ⊢
    rw [used member inside linked]
    exact before
  · exact filling.keys handle (kept inside)
  · have same : f.compactHyperlinks.hyperlink c.hyperlink = f.hyperlink c.hyperlink := by
      unfold Grid.hyperlink
      split
      next linked => exact used member inside linked
      · rfl
    unfold resolve
    rw [same]
    rfl

theorem Filling.mono {m : ℕ} (filling : Filling palette n f) (more : n ≤ m) : Filling palette m f :=
  { filling with next := ⟨filling.next.1, by have := filling.next.2; omega⟩ }

/-- A link is interned under a handle that no placed cell names yet. -/
theorem Filling.insertLink (filling : Filling palette n f) (uri : Text) :
    Filling palette (n + 1) { f with
      hyperlinks := f.hyperlinks.insert f.nextHyperlink uri, nextHyperlink := f.nextHyperlink + 1 } ∧
    Refilled f { f with
      hyperlinks := f.hyperlinks.insert f.nextHyperlink uri, nextHyperlink := f.nextHyperlink + 1 } := by
  refine ⟨⟨?_, filling.empty, filling.history, fun line member c inside => ?_, fun handle inside => ?_, ?_⟩,
    ⟨rfl, rfl, picture_congr rfl fun line member c inside => ?_⟩⟩
  · exact ⟨filling.colors.room, filling.colors.first, filling.colors.distinct, filling.colors.subset⟩
  · have backed := filling.cells line member c inside
    exact ⟨⟨backed.cluster, backed.underline⟩, fun linked =>
      Std.ExtTreeMap.mem_insert.mpr (.inr (backed.link linked))⟩
  · dsimp only at inside ⊢
    rcases Std.ExtTreeMap.mem_insert.mp inside with fresh | old
    · have same := Std.compare_eq_iff_eq.mp fresh
      have := filling.next.1
      omega
    · have := filling.keys handle old
      omega
  · have := filling.next
    dsimp only
    omega
  · have same : Grid.hyperlink { f with
        hyperlinks := f.hyperlinks.insert f.nextHyperlink uri, nextHyperlink := f.nextHyperlink + 1 } c.hyperlink =
          f.hyperlink c.hyperlink := by
      unfold Grid.hyperlink
      split
      next linked =>
        have before := (filling.keys _ ((filling.cells line member c inside).link linked)).2
        have other : compare f.nextHyperlink c.hyperlink ≠ .eq := fun same =>
          before.ne' (Std.compare_eq_iff_eq.mp same)
        rw [Std.ExtTreeMap.getElem?_insert, if_neg other]
      · rfl
    unfold resolve
    rw [same]
    rfl

/-- A link of the source is interned, and its handle names it. -/
theorem Filling.internHyperlink (filling : Filling palette n f) {uri : Text} (target : Target uri)
    (room : n + 2 < 2 ^ 32) :
    Filling palette (n + 1) (f.internHyperlink uri).1 ∧ Refilled f (f.internHyperlink uri).1 ∧
      (f.internHyperlink uri).1.clusters = f.clusters ∧ (f.internHyperlink uri).2 ≠ 0 ∧
      (f.internHyperlink uri).1.hyperlinks[(f.internHyperlink uri).2]? = some uri := by
  unfold Grid.internHyperlink
  rw [if_neg target]
  split
  next handle value found =>
    have matched : value = uri := by simpa using List.find?_some found
    have stored := Std.ExtTreeMap.mem_toList_iff_getElem?_eq_some.mp (List.mem_of_find?_eq_some found)
    have inside : handle ∈ f.hyperlinks := Std.ExtTreeMap.mem_iff_isSome_getElem?.mpr (by rw [stored]; rfl)
    exact ⟨filling.mono (Nat.le_succ n), .refl f, rfl, (filling.keys handle inside).1, matched ▸ stored⟩
  · have roomy : Filling palette n (if f.hyperlinks.size ≥ f.hyperlinkGcAt then f.compactHyperlinks else f) ∧
        Refilled f (if f.hyperlinks.size ≥ f.hyperlinkGcAt then f.compactHyperlinks else f) ∧
        (if f.hyperlinks.size ≥ f.hyperlinkGcAt then f.compactHyperlinks else f).clusters = f.clusters := by
      split
      · exact ⟨filling.compactHyperlinks.1, filling.compactHyperlinks.2, rfl⟩
      · exact ⟨filling, .refl f, rfl⟩
    dsimp only
    generalize (if f.hyperlinks.size ≥ f.hyperlinkGcAt then f.compactHyperlinks else f) = f' at roomy ⊢
    obtain ⟨held, refilled, clusters⟩ := roomy
    have free : f'.nextHyperlink ∉ f'.hyperlinks := fun inside => (held.keys _ inside).2.ne rfl
    have next := held.next
    rw [freeHandle_next next.1 (by omega) free]
    obtain ⟨inserted, shown⟩ := held.insertLink uri
    exact ⟨inserted, refilled.trans shown, clusters, Nat.ne_of_gt next.1, Std.ExtTreeMap.getElem?_insert_self⟩

end Interning

section Cells

variable {source : Grid}

/-- The text of the copy is that of the cell. -/
theorem Filling.freezeCluster (filling : Filling palette n f) (arenas : Arenas source) (cell : Cell) :
    let copied := freezeCluster source f cell cell
    Filling palette n copied.1 ∧ Refilled f copied.1 ∧
      copied.2 = { cell with cluster := copied.2.cluster, ch := copied.2.ch } ∧
      copied.2.cluster < copied.1.clusters.length ∧
      copied.1.cellTextOwned copied.2 = source.cellTextOwned cell := by
  have arena : 0 < f.clusters.length := (List.getElem?_eq_some_iff.mp filling.empty).1
  unfold Grid.freezeCluster
  split
  next used =>
    split
    next text found =>
      have some : text ≠ [] := by
        obtain ⟨i, index⟩ := Nat.exists_eq_succ_of_ne_zero used
        rw [index, ← List.getElem?_tail] at found
        exact arenas.texts text (List.mem_of_getElem? found)
      obtain ⟨interned, refilled, named, positive⟩ := filling.intern some
      refine ⟨interned, refilled, rfl, (List.getElem?_eq_some_iff.mp named).1, ?_⟩
      simp [cellTextOwned, Cell.isContinuation, used, found, named, positive]
    next lost =>
      refine ⟨filling, .refl f, rfl, arena, ?_⟩
      simp [cellTextOwned, Cell.isContinuation, used, lost]
  next plain =>
    have zero : cell.cluster = 0 := not_not.mp plain
    refine ⟨filling, .refl f, rfl, by rw [zero]; exact arena, ?_⟩
    simp [cellTextOwned, zero]

/-- The underline colour of the copy is that of the cell. -/
theorem Filling.freezeColor (filling : Filling source.underlineColors n f) (arenas : Arenas source) (cell copy : Cell)
    (same : copy.underlineColor = cell.underlineColor) :
    let copied := freezeColor source f cell copy
    Filling source.underlineColors n copied.1 ∧ Refilled f copied.1 ∧ copied.1.clusters = f.clusters ∧
      copied.2 = { copy with underlineColor := copied.2.underlineColor } ∧
      copied.2.underlineColor < copied.1.underlineColors.length ∧
      copied.1.underlineColor copied.2.underlineColor = source.underlineColor cell.underlineColor := by
  unfold Grid.freezeColor
  split
  next used =>
    have known : source.underlineColor cell.underlineColor ∈ source.underlineColors := by
      unfold Grid.underlineColor
      cases found : source.underlineColors[cell.underlineColor]? with
      | none => exact List.mem_of_getElem? arenas.first
      | some color => exact List.mem_of_getElem? found
    obtain ⟨more, grown, interned, refilled, named⟩ := filling.internUnderlineColor known
    refine ⟨interned, refilled, by rw [grown], rfl, (List.getElem?_eq_some_iff.mp named).1, ?_⟩
    rw [Grid.underlineColor]
    dsimp only
    rw [named, Option.getD_some]
  next plain =>
    have zero : cell.underlineColor = 0 := not_not.mp plain
    have ours := filling.colors.first
    have theirs := arenas.first
    unfold DefaultFirst at ours theirs
    refine ⟨filling, .refl f, rfl, rfl, ?_, ?_⟩
    · rw [same, zero]
      exact (List.getElem?_eq_some_iff.mp ours).1
    · rw [same, zero, Grid.underlineColor, Grid.underlineColor, ours, theirs]

/-- The target of the copy is that of the cell. -/
theorem Filling.freezeLink (filling : Filling palette n f) (arenas : Arenas source) (room : n + 2 < 2 ^ 32)
    (cell copy : Cell) (same : copy.hyperlink = cell.hyperlink) :
    let copied := freezeLink source f cell copy
    Filling palette (n + 1) copied.1 ∧ Refilled f copied.1 ∧ copied.1.clusters = f.clusters ∧
      copied.1.underlineColors = f.underlineColors ∧
      copied.2 = { copy with hyperlink := copied.2.hyperlink } ∧
      (copied.2.hyperlink ≠ 0 → copied.2.hyperlink ∈ copied.1.hyperlinks) ∧
      copied.1.hyperlink copied.2.hyperlink = source.hyperlink cell.hyperlink := by
  have more := filling.mono (Nat.le_succ n)
  unfold Grid.freezeLink
  split
  next used =>
    split
    next uri found =>
      have target : Target uri := by
        unfold Grid.hyperlink at found
        rw [if_pos used] at found
        exact arenas.links cell.hyperlink uri found
      obtain ⟨interned, refilled, clusters, positive, named⟩ := filling.internHyperlink target room
      refine ⟨interned, refilled, clusters, (internHyperlink_rest f uri).1, rfl, fun _ => ?_, ?_⟩
      · exact Std.ExtTreeMap.mem_iff_isSome_getElem?.mpr (by dsimp only; rw [named]; rfl)
      · rw [Grid.hyperlink]
        dsimp only
        rw [if_pos positive, named, found]
    next lost => exact ⟨more, .refl f, rfl, rfl, rfl, fun linked => absurd rfl linked, lost.symm⟩
  next plain =>
    have zero : cell.hyperlink = 0 := not_not.mp plain
    refine ⟨more, .refl f, rfl, rfl, rfl, fun linked => absurd (same.trans zero) linked, ?_⟩
    rw [same, zero, Grid.hyperlink, Grid.hyperlink, if_neg (not_not.mpr rfl), if_neg (not_not.mpr rfl)]

/-- The copy shows what the cell shows. -/
theorem Filling.freezeCell (filling : Filling source.underlineColors n f) (arenas : Arenas source)
    (room : n + 2 < 2 ^ 32) (cell : Cell) :
    let copied := freezeCell source f cell
    Filling source.underlineColors (n + 1) copied.1 ∧ Refilled f copied.1 ∧ Backed copied.1 copied.2 ∧
      copied.1.resolve copied.2 = source.resolve cell := by
  obtain ⟨clustered, first, lettered, cluster, text⟩ := filling.freezeCluster arenas cell
  unfold Grid.freezeCell
  dsimp only
  generalize Grid.freezeCluster source f cell cell = named at clustered first lettered cluster text ⊢
  obtain ⟨f₁, copy₁⟩ := named
  dsimp only at clustered first lettered cluster text ⊢
  obtain ⟨coloured, second, clusters₂, painted, underline, color⟩ :=
    clustered.freezeColor arenas cell copy₁ (by rw [lettered])
  generalize Grid.freezeColor source f₁ cell copy₁ = named at coloured second clusters₂ painted underline color ⊢
  obtain ⟨f₂, copy₂⟩ := named
  dsimp only at coloured second clusters₂ painted underline color ⊢
  obtain ⟨linked, third, clusters₃, colors₃, carried, link, uri⟩ :=
    coloured.freezeLink arenas room cell copy₂ (by rw [painted, lettered])
  generalize Grid.freezeLink source f₂ cell copy₂ = named at linked third clusters₃ colors₃ carried link uri ⊢
  obtain ⟨f₃, copy₃⟩ := named
  dsimp only at linked third clusters₃ colors₃ carried link uri ⊢
  have letter : copy₃.cluster = copy₁.cluster ∧ copy₃.ch = copy₁.ch := by
    rw [carried, painted]
    exact ⟨rfl, rfl⟩
  have hue : copy₃.underlineColor = copy₂.underlineColor := by rw [carried]
  have style : copy₃.width = cell.width ∧ copy₃.fg = cell.fg ∧ copy₃.bg = cell.bg ∧ copy₃.attrs = cell.attrs := by
    rw [carried, painted, lettered]
    exact ⟨rfl, rfl, rfl, rfl⟩
  have wide : copy₁.width = cell.width := by rw [lettered]
  refine ⟨linked, (first.trans second).trans third, ⟨⟨?_, ?_⟩, link⟩, ?_⟩
  · rw [letter.1, clusters₃, clusters₂]
    exact cluster
  · rw [hue, colors₃]
    exact underline
  · have shown : f₃.cellTextOwned copy₃ = source.cellTextOwned cell := by
      rw [← text, cellTextOwned_eq, cellTextOwned_eq, clusters₃, clusters₂]
      unfold clusterText Cell.isContinuation
      rw [letter.1, letter.2, style.1, wide]
    have painted : f₃.underlineColor copy₃.underlineColor = source.underlineColor cell.underlineColor := by
      rw [← color, Grid.underlineColor, Grid.underlineColor, colors₃, hue]
    unfold resolve
    rw [shown, painted, uri, style.1, style.2.1, style.2.2.1, style.2.2.2]

end Cells

section Rows

variable {source : Grid} {row rest : List Resolved} {wrapped : Bool} {id : ℕ}

private theorem picture_getElem? {y : ℕ} {shown : List Resolved × Bool × ℕ} (read : f.picture[y]? = some shown) :
    ∃ line, f.lines[y]? = some line ∧ f.shownLine line = shown := by
  rw [picture, List.getElem?_map] at read
  exact Option.map_eq_some_iff.mp read

/-- One row of the copy changes, and shows cells that the arenas back. -/
theorem Filling.modifyRow (filling : Filling palette n f) {y : ℕ} {line : Line} (read : f.lines[y]? = some line)
    (change : Line → Line) (backed : ∀ c ∈ (change line).cells, Backed f c) :
    Filling palette n { f with lines := f.lines.modify y change } ∧
      picture { f with lines := f.lines.modify y change } = f.picture.set y (f.shownLine (change line)) := by
  have modified : f.lines.modify y change = f.lines.set y (change line) := by
    rw [List.modify_eq_set_getElem?, read]
    rfl
  rw [modified]
  refine ⟨⟨?_, filling.empty, filling.history, fun other member c belongs => ?_, filling.keys, filling.next⟩, ?_⟩
  · exact ⟨filling.colors.room, filling.colors.first, filling.colors.distinct, filling.colors.subset⟩
  · have all : Backed f c := by
      rcases List.mem_or_eq_of_mem_set member with old | rfl
      · exact filling.cells other old c belongs
      · exact backed c belongs
    exact ⟨⟨all.cluster, all.underline⟩, all.link⟩
  · unfold picture
    dsimp only
    rw [List.map_set]
    rfl

/-- A cell is placed in the room that its row has for it. -/
theorem Filling.assign (filling : Filling palette n f) {y x : ℕ} (read : f.picture[y]? = some (row, wrapped, id))
    (inside : x < row.length) {copy : Cell} (backed : Backed f copy) :
    ∃ f', f.assign x y copy = some f' ∧ Filling palette n f' ∧ f'.width = f.width ∧ f'.height = f.height ∧
      f'.picture = f.picture.set y (row.set x (f.resolve copy), wrapped, id) := by
  obtain ⟨line, found, shown⟩ := picture_getElem? read
  obtain ⟨rfl, rfl, rfl⟩ : line.cells.map f.resolve = row ∧ line.wrapped = wrapped ∧ line.id = id := by
    simpa [shownLine] using shown
  rw [List.length_map] at inside
  have there : (f.get? x y).isSome := by
    rw [get?, found, Option.bind_some, List.getElem?_eq_getElem inside]
    rfl
  obtain ⟨placed, pictured⟩ := filling.modifyRow found (fun line => { line with cells := line.cells.set x copy })
    fun c belongs => by
      rcases List.mem_or_eq_of_mem_set belongs with old | rfl
      · exact filling.cells line (List.mem_of_getElem? found) c old
      · exact backed
  refine ⟨_, if_pos there, placed, rfl, rfl, ?_⟩
  rw [pictured, shownLine, List.map_set]

theorem Filling.setRowWrapped (filling : Filling palette n f) {y : ℕ} {before : Bool}
    (read : f.picture[y]? = some (row, before, id)) (wrapped : Bool) :
    Filling palette n (f.setRowWrapped y wrapped) ∧
      (f.setRowWrapped y wrapped).picture = f.picture.set y (row, wrapped, id) := by
  obtain ⟨line, found, shown⟩ := picture_getElem? read
  obtain ⟨rfl, rfl, rfl⟩ : line.cells.map f.resolve = row ∧ line.wrapped = before ∧ line.id = id := by
    simpa [shownLine] using shown
  exact filling.modifyRow found (fun line => { line with wrapped }) (filling.cells line (List.mem_of_getElem? found))

/-- The cells of a row are copied one after the other. -/
theorem Filling.freezeCells (filling : Filling source.underlineColors n f) (arenas : Arenas source) {cells : List Cell}
    (room : n + cells.length + 1 < 2 ^ 32) {y : ℕ} (read : f.picture[y]? = some (row ++ rest, wrapped, id))
    (length : rest.length = cells.length) :
    ∃ f', (cells.zipIdx row.length).foldlM (fun frozen (entry : Cell × ℕ) =>
        let (frozen, copy) := Grid.freezeCell source frozen entry.1
        frozen.assign entry.2 y copy) f = some f' ∧
      Filling source.underlineColors (n + cells.length) f' ∧ f'.width = f.width ∧ f'.height = f.height ∧
      f'.picture = f.picture.set y (row ++ cells.map source.resolve, wrapped, id) := by
  induction cells generalizing f n row rest with
  | nil =>
    obtain rfl := List.eq_nil_of_length_eq_zero length
    refine ⟨f, rfl, filling, rfl, rfl, ?_⟩
    rw [List.map_nil]
    obtain ⟨bound, same⟩ := List.getElem?_eq_some_iff.mp read
    rw [← same, List.set_getElem_self]
  | cons cell cells ih =>
    obtain ⟨old, rest, rfl⟩ := List.exists_cons_of_length_eq_add_one length
    rw [List.length_cons] at room length
    obtain ⟨copied, refilled, backed, shown⟩ := filling.freezeCell arenas (by omega) cell
    have read₁ := read
    rw [← refilled.picture] at read₁
    obtain ⟨f₂, assigned, filling₂, width₂, height₂, picture₂⟩ := copied.assign read₁ (x := row.length) (by simp) backed
    rw [List.set_append_right _ _ le_rfl, Nat.sub_self, List.set_cons_zero, shown, refilled.picture] at picture₂
    have bound := (List.getElem?_eq_some_iff.mp read).1
    have read₂ : f₂.picture[y]? = some ((row ++ [source.resolve cell]) ++ rest, wrapped, id) := by
      rw [picture₂, List.getElem?_set_self bound, List.append_assoc, List.singleton_append]
    obtain ⟨f', done, filling', width', height', picture'⟩ :=
      ih filling₂ (by omega) read₂ (Nat.succ.inj length)
    refine ⟨f', ?_, ?_, width'.trans (width₂.trans refilled.width), height'.trans (height₂.trans refilled.height), ?_⟩
    · rw [List.zipIdx_cons, List.foldlM_cons]
      dsimp only
      rw [assigned, Option.bind_eq_bind, Option.bind_some, ← done, List.length_append, List.length_singleton]
    · rw [List.length_cons, Nat.add_comm cells.length, ← Nat.add_assoc]
      exact filling'
    · rw [picture', picture₂, List.set_set, List.append_assoc, List.singleton_append, List.map_cons]

/-- The columns of a row that the screen shows are copied. -/
theorem Filling.freezeRow (filling : Filling source.underlineColors n f) (arenas : Arenas source) {line : Line}
    (room : n + source.width + 1 < 2 ^ 32) (long : source.width ≤ line.cells.length) {y : ℕ} {before : Bool}
    (read : f.picture[y]? = some (row, before, id)) (length : row.length = source.width) :
    ∃ f', Grid.freezeRow source f line y = some f' ∧ Filling source.underlineColors (n + source.width) f' ∧
      f'.width = f.width ∧ f'.height = f.height ∧
      f'.picture = f.picture.set y ((line.cells.take source.width).map source.resolve, line.wrapped, id) := by
  obtain ⟨wrapped, pictured⟩ := filling.setRowWrapped read line.wrapped
  have bound := (List.getElem?_eq_some_iff.mp read).1
  have cells : (line.cells.take source.width).length = source.width := List.length_take_of_le long
  have read₁ : (f.setRowWrapped y line.wrapped).picture[y]? = some ([] ++ row, line.wrapped, id) := by
    rw [pictured, List.getElem?_set_self bound, List.nil_append]
  obtain ⟨f', done, filling', width, height, picture⟩ :=
    wrapped.freezeCells arenas (by rw [cells]; exact room) read₁ (length.trans cells.symm)
  have inside : y < f.lines.length := by
    rwa [Grid.picture, List.length_map] at bound
  refine ⟨f', ?_, cells ▸ filling', width, height, ?_⟩
  · unfold Grid.freezeRow
    rw [if_pos inside]
    exact done
  · rw [picture, pictured, List.set_set, List.nil_append]

/-- The rows of a screen are copied one after the other. -/
theorem Filling.freezeRows (filling : Filling source.underlineColors n f) (arenas : Arenas source) {lines : List Line}
    (room : n + lines.length * source.width + 1 < 2 ^ 32) (long : ∀ line ∈ lines, source.width ≤ line.cells.length)
    (done : List (List Resolved × Bool × ℕ)) {todo : List (List Resolved × Bool × ℕ)} (pictured : f.picture = done ++ todo)
    (length : todo.length = lines.length) (wide : ∀ shown ∈ todo, shown.1.length = source.width) :
    ∃ f' copied, (lines.zipIdx done.length).foldlM (fun frozen (entry : Line × ℕ) =>
        Grid.freezeRow source frozen entry.1 entry.2) f = some f' ∧
      Filling source.underlineColors (n + lines.length * source.width) f' ∧ f'.width = f.width ∧
      f'.height = f.height ∧ f'.picture = done ++ copied ∧
      List.Forall₂ (fun line shown => shown.1 = (line.cells.take source.width).map source.resolve ∧
        shown.2.1 = line.wrapped) lines copied := by
  induction lines generalizing f n done todo with
  | nil =>
    obtain rfl := List.eq_nil_of_length_eq_zero length
    exact ⟨f, [], rfl, by simpa using filling, rfl, rfl, pictured, .nil⟩
  | cons line lines ih =>
    obtain ⟨⟨row, before, id⟩, todo, rfl⟩ := List.exists_cons_of_length_eq_add_one length
    rw [List.length_cons, Nat.add_one_mul] at room
    have read : f.picture[done.length]? = some (row, before, id) := by
      rw [pictured, List.getElem?_append_right le_rfl, Nat.sub_self, List.getElem?_cons_zero]
    obtain ⟨f₁, copied, filling₁, width₁, height₁, pictured₁⟩ :=
      filling.freezeRow arenas (by omega) (long line (.head _)) read (wide _ (.head _))
    rw [pictured, List.set_append_right _ _ le_rfl, Nat.sub_self, List.set_cons_zero, ← List.singleton_append,
      ← List.append_assoc] at pictured₁
    obtain ⟨f', rows, finished, filling', width, height, picture, same⟩ :=
      ih filling₁ (by omega) (fun other member => long other (.tail _ member)) _ pictured₁
        (Nat.succ.inj length) (fun shown member => wide shown (.tail _ member))
    rw [List.append_assoc, List.singleton_append] at picture
    refine ⟨f', _, ?_, ?_, width.trans width₁, height.trans height₁, picture, .cons ⟨rfl, rfl⟩ same⟩
    · rw [List.zipIdx_cons, List.foldlM_cons]
      dsimp only
      rw [copied, Option.bind_eq_bind, Option.bind_some, ← finished, List.length_append, List.length_singleton]
    · have total : n + (line :: lines).length * source.width = n + source.width + lines.length * source.width := by
        rw [List.length_cons, Nat.add_one_mul]
        omega
      rw [total]
      exact filling'

end Rows

section Screens

variable {u : Unicode} {source frozen live : Grid}

/-- A copy without history shows the screen of its source. -/
structure Pictures (source frozen : Grid) : Prop where
  width : frozen.width = source.width
  height : frozen.height = source.height
  history : frozen.scrollback = []
  rows : frozen.lines.length = source.height
  wrapped : ∀ y < source.height, ∃ line copy, source.lines[y]? = some line ∧ frozen.lines[y]? = some copy ∧
    copy.wrapped = line.wrapped
  cells : ∀ x < source.width, ∀ y < source.height, ∃ cell copy, source.get? x y = some cell ∧
    frozen.get? x y = some copy ∧ frozen.resolve copy = source.resolve cell

/-- A copy that is kept while its source goes on. -/
inductive Selecting (u : Unicode) (source : Grid) : Grid → Grid → Prop
  | start {frozen : Grid} (done : source.freezeScreen = some frozen) : Selecting u source frozen source
  | step {frozen live live' : Grid} (selecting : Selecting u source frozen live) (step : Step u live live') :
      Selecting u source frozen live'

theorem Presentable.freezes (presentable : Presentable source) :
    ∃ frozen, source.freezeScreen = some frozen ∧ Pictures source frozen := by
  have arenas := presentable.toArenas
  have total := presentable.lines_length
  have start : Filling source.underlineColors 0 ((Grid.new source.width source.height).setScrollbackLimit 0) := by
    have default : Color.default ∈ source.underlineColors := List.mem_of_getElem? arenas.first
    refine ⟨⟨arenas.palette, rfl, List.pairwise_singleton _ _, ?_⟩, rfl, rfl, fun line member c inside => ?_, ?_, ?_⟩
    · intro color member
      rw [List.mem_singleton.mp member]
      exact default
    · obtain ⟨y, -, rfl⟩ := List.mem_map.mp member
      rw [List.eq_of_mem_replicate inside]
      exact ⟨⟨Nat.one_pos, Nat.one_pos⟩, fun linked => absurd rfl linked⟩
    · intro handle inside
      exact absurd inside Std.ExtTreeMap.not_mem_empty
    · exact ⟨Nat.one_pos, le_rfl⟩
  have wide : ∀ shown ∈ ((Grid.new source.width source.height).setScrollbackLimit 0).picture,
      shown.1.length = source.width := by
    intro shown member
    obtain ⟨line, inside, rfl⟩ := List.mem_map.mp member
    obtain ⟨y, -, rfl⟩ := List.mem_map.mp inside
    rw [shownLine, List.length_map]
    exact length_blank ..
  have few : source.lines.length * source.width + 1 < 2 ^ 32 := by
    have := Nat.mul_le_mul (Nat.le_of_lt_succ (total ▸ presentable.short)) (Nat.le_of_lt_succ presentable.narrow)
    omega
  obtain ⟨frozen, copied, done, filling, width, height, picture, same⟩ :=
    start.freezeRows arenas (by rwa [Nat.zero_add]) (fun line member => presentable.row member)
      [] rfl (by simp [Grid.new, setScrollbackLimit, total]) wide
  rw [List.nil_append] at picture
  have read {y : ℕ} (inside : y < source.height) : ∃ line copy, source.lines[y]? = some line ∧
      frozen.lines[y]? = some copy ∧ copy.wrapped = line.wrapped ∧
        copy.cells.map frozen.resolve = (line.cells.take source.width).map source.resolve := by
    obtain ⟨none, -⟩ | ⟨line, shown, found, pictured, row, wrapped⟩ := getElem?_of_forall₂ same y
    · rw [List.getElem?_eq_none_iff] at none
      omega
    · rw [← picture] at pictured
      obtain ⟨copy, found', rfl⟩ := picture_getElem? pictured
      exact ⟨line, copy, found, found', wrapped, row⟩
  refine ⟨frozen, done, width, height, filling.history, ?_, fun y inside => ?_, fun x column y inside => ?_⟩
  · rw [← total, same.length_eq, ← picture, Grid.picture, List.length_map]
  · obtain ⟨line, copy, found, found', wrapped, -⟩ := read inside
    exact ⟨line, copy, found, found', wrapped⟩
  · obtain ⟨line, copy, found, found', -, row⟩ := read inside
    have long := presentable.row (List.mem_of_getElem? found)
    have cells : (copy.cells.map frozen.resolve)[x]? =
        ((line.cells.take source.width).map source.resolve)[x]? := by rw [row]
    rw [List.getElem?_map, List.getElem?_map, List.getElem?_take_of_lt column,
      List.getElem?_eq_getElem (by omega : x < line.cells.length), Option.map_some] at cells
    obtain ⟨cell, there, shows⟩ := Option.map_eq_some_iff.mp cells
    refine ⟨line.cells[x], cell, ?_, ?_, shows⟩
    · rw [get?, found, Option.bind_some, List.getElem?_eq_getElem (by omega)]
    · rw [get?, found', Option.bind_some, there]

/-- A screen can always be frozen, and the copy shows what the screen showed for as long as it is kept. -/
theorem freezeScreen_pictures (reached : Reached u source) :
    (∃ frozen, source.freezeScreen = some frozen) ∧
      ∀ frozen live, Selecting u source frozen live → Pictures source frozen := by
  obtain ⟨frozen, done, pictures⟩ := reached.presentable.freezes
  refine ⟨⟨frozen, done⟩, fun copy live selecting => ?_⟩
  induction selecting with
  | start done' =>
    rw [done] at done'
    exact Option.some.inj done' ▸ pictures
  | step _ _ ih => exact ih

/-- A screen with an accented letter, and the copy of it once the letter is gone. -/
theorem freezeScreen_pictures_accented :
    ∃ frozen, ((Grid.new 2 1).setGrapheme 0 0 ['e', '\u0301'] {} 1).freezeScreen = some frozen ∧
      Pictures ((Grid.new 2 1).setGrapheme 0 0 ['e', '\u0301'] {} 1) frozen := by
  have blank : Reached plainUnicode (Grid.new 2 1) := .new 2 1
  have accented : Reached plainUnicode ((Grid.new 2 1).setGrapheme 0 0 ['e', '\u0301'] {} 1) :=
    blank.step (.op .release (.setGrapheme 0 0 ['e', '\u0301'] {} 1) trivial rfl)
  have frozen := freezeScreen_pictures accented
  obtain ⟨copy, done⟩ := frozen.1
  have erased := Step.op (u := plainUnicode) .release (.clearGlyphAt 0 0 {}) trivial
    (g := (Grid.new 2 1).setGrapheme 0 0 ['e', '\u0301'] {} 1) rfl
  exact ⟨copy, done, frozen.2 copy _ (.step (.start done) erased)⟩

end Screens

end Uniterm.Model.Grid
