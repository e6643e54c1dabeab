import Mathlib.Data.List.Dedup
import Mathlib.Data.List.Nodup
import Mathlib.Data.List.Perm.Subperm
import Uniterm.Model.Grid.Capture
import Uniterm.Soundness.Grid.Fitted
import Uniterm.Soundness.Grid.Frames
import Uniterm.Soundness.Grid.Storing

/-! # Captures resolve to what they were given

A capture holds rows of cells one after the other. Taking stored lines in appends texts and colours to its arenas, so
the handles that cells hold already keep their meaning, and each row resolves to the line that it was made from.
-/

namespace Uniterm.Model

open ToMathlib

namespace GridCapture

/-- Rows of cells, each with its wrap flag. -/
abbrev Rows := List (List Cell × Bool)

/-- Where rows end that start at an offset. -/
def ends : ℕ → Rows → List (ℕ × Bool)
  | _, [] => []
  | start, (cells, wrapped) :: rest => (start + cells.length, wrapped) :: ends (start + cells.length) rest

/-- A capture holds rows one after the other. -/
structure Holds (capture : GridCapture) (rows : Rows) : Prop where
  cells : capture.cells = rows.flatMap (·.1)
  lines : capture.lines = ends 0 rows

variable {capture capture' : GridCapture} {rows : Rows}

private theorem ends_append (start : ℕ) (rows more : Rows) :
    ends start (rows ++ more) = ends start rows ++ ends (start + (rows.flatMap (·.1)).length) more := by
  induction rows generalizing start with
  | nil => rfl
  | cons row rest ih =>
    rw [List.cons_append, ends, ends, ih, List.cons_append, List.flatMap_cons, List.length_append, Nat.add_assoc]

theorem Holds.push (holds : Holds capture rows) (cells : List Cell) (wrapped : Bool)
    (same : capture'.cells = capture.cells ++ cells)
    (line : capture'.lines = capture.lines ++ [(capture'.cells.length, wrapped)]) :
    Holds capture' (rows ++ [(cells, wrapped)]) := by
  refine ⟨?_, ?_⟩
  · rw [same, holds.cells, List.flatMap_append, List.flatMap_singleton]
  · rw [line, same, holds.lines, holds.cells, ends_append, List.length_append, Nat.zero_add]
    rfl

/-- A row with its handles resolved and its trailing blanks left off. -/
def resolveRow (capture : GridCapture) (blank : StoredCell → Bool) (row : List Cell × Bool) : StoredLine where
  cells := if row.2 then row.1.map capture.cell else (row.1.map capture.cell).rdropWhile blank
  wrapped := row.2

/-- The slices of a capture are its rows. -/
theorem Holds.resolveLines (holds : Holds capture rows) (blank : StoredCell → Bool) :
    capture.resolveLines blank 0 capture.lines = some (rows.map (capture.resolveRow blank)) := by
  have slices (before after : Rows) (split : rows = before ++ after) :
      capture.resolveLines blank (before.flatMap (·.1)).length (ends (before.flatMap (·.1)).length after) =
        some (after.map (capture.resolveRow blank)) := by
    induction after generalizing before with
    | nil => rfl
    | cons row after ih =>
      obtain ⟨cells, wrapped⟩ := row
      have whole : capture.cells = before.flatMap (·.1) ++ (cells ++ after.flatMap (·.1)) := by
        rw [holds.cells, split, List.flatMap_append, List.flatMap_cons]
      have next := ih (before ++ [(cells, wrapped)]) (by rw [split, List.append_assoc, List.singleton_append])
      rw [List.flatMap_append, List.flatMap_singleton, List.length_append] at next
      have slice : (capture.cells.take ((before.flatMap (·.1)).length + cells.length)).drop
          (before.flatMap (·.1)).length = cells := by
        rw [whole, List.drop_take, Nat.add_sub_cancel_left, List.drop_left, List.take_left]
      have inside : (before.flatMap (·.1)).length ≤ (before.flatMap (·.1)).length + cells.length ∧
          (before.flatMap (·.1)).length + cells.length ≤ capture.cells.length := by
        rw [whole, List.length_append, List.length_append]
        omega
      rw [ends, GridCapture.resolveLines, if_pos inside, slice, next]
      rfl
  rw [holds.lines]
  exact slices [] rows rfl

end GridCapture

namespace Grid

section RoundTrip

/-- A stored cell that a grid could have exported. -/
def WellFormedCell (saved : StoredCell) : Prop :=
  if saved.continuation then saved.text = [] ∧ saved.width = 0
  else saved.text ≠ [] ∧ (saved.width = 1 ∨ saved.width = 2)

/-- A stored line of such cells, without trailing blanks unless it is wrapped. -/
structure WellFormedLine (stored : StoredLine) : Prop where
  cells : ∀ saved ∈ stored.cells, WellFormedCell saved
  trimmed : stored.wrapped = false → stored.cells.rdropWhile storedCellIsDefaultBlank = stored.cells

/-- The number of stored cells with a text of several codepoints, over lines. -/
def graphemes (lines : List StoredLine) : ℕ := (lines.flatMap (·.cells)).countP fun saved => 1 < saved.text.length

open GridCapture

/-- Stored cells taken into a capture: its arenas have room for the colours of a palette and for more texts. -/
structure Taken (palette : List Color) (more : ℕ) (capture : GridCapture) (taken : List StoredCell) : Prop where
  resolves : capture.cells.map capture.cell = taken
  texts : ∀ c ∈ capture.cells, c.cluster < capture.clusters.length
  colors : ∀ c ∈ capture.cells, c.underlineColor < capture.underlineColors.length
  some : 0 < capture.clusters.length
  room : capture.clusters.length + more ≤ 2 ^ 32
  distinct : capture.underlineColors.Nodup
  subset : capture.underlineColors ⊆ .default :: palette
  few : palette.length ≤ 255

variable {palette : List Color} {more : ℕ} {capture : GridCapture} {taken : List StoredCell}

/-- A colour of the palette is found, or there is room for it. -/
theorem Taken.colorHandle (held : Taken palette more capture taken) {color : Color} (known : color ∈ palette) :
    ∃ fresh, (colorHandle capture.underlineColors color).1 = capture.underlineColors ++ fresh ∧
      (colorHandle capture.underlineColors color).1.Nodup ∧
      (colorHandle capture.underlineColors color).1 ⊆ .default :: palette ∧
      (colorHandle capture.underlineColors color).1[(colorHandle capture.underlineColors color).2]? = Option.some color := by
  unfold GridCapture.colorHandle
  split
  next handle found =>
    exact ⟨[], (List.append_nil _).symm, held.distinct, held.subset, getElem?_of_idxOf? found⟩
  next absent =>
    have fresh : color ∉ capture.underlineColors := List.idxOf?_eq_none_iff.mp absent
    have distinct : (capture.underlineColors ++ [color]).Nodup := by
      rw [← List.concat_eq_append]
      exact List.Nodup.concat fresh held.distinct
    have subset : capture.underlineColors ++ [color] ⊆ .default :: palette :=
      List.append_subset.mpr ⟨held.subset, by simp [known]⟩
    have bound := (List.subperm_of_subset distinct subset).length_le
    have few := held.few
    rw [List.length_append, List.length_singleton, List.length_cons] at bound
    rw [if_pos (by omega)]
    exact ⟨[color], rfl, distinct, subset, List.getElem?_concat_length⟩

/-- Cells resolve as before in longer arenas. -/
theorem cell_append {capture capture' : GridCapture} {texts : List Text} {colors : List Color}
    (clusters : capture'.clusters = capture.clusters ++ texts)
    (underlineColors : capture'.underlineColors = capture.underlineColors ++ colors) {c : Cell}
    (text : c.cluster < capture.clusters.length) (color : c.underlineColor < capture.underlineColors.length) :
    capture'.cell c = capture.cell c := by
  unfold GridCapture.cell
  rw [clusters, underlineColors, List.getElem?_append_left text, List.getElem?_append_left color]

/-- The text of a stored cell, named if it has several codepoints. -/
theorem Taken.text {saved : StoredCell}
    (held : Taken palette ([saved].countP (fun saved => 1 < saved.text.length) + more) capture taken) :
    ∃ fresh handle, (if saved.text.length > 1 then
        (capture.clusters ++ [saved.text], capture.clusters.length % 2 ^ 32) else (capture.clusters, 0)) =
          (capture.clusters ++ fresh, handle) ∧
      (capture.clusters ++ fresh).length + more ≤ 2 ^ 32 ∧ handle < (capture.clusters ++ fresh).length ∧
      if handle = 0 then saved.text.length ≤ 1 else (capture.clusters ++ fresh)[handle]? = Option.some saved.text := by
  have room := held.room
  have some := held.some
  by_cases long : saved.text.length > 1
  · rw [List.countP_singleton, if_pos (decide_eq_true long)] at room
    refine ⟨[saved.text], capture.clusters.length, ?_, ?_, ?_, ?_⟩
    · rw [if_pos long, Nat.mod_eq_of_lt (by omega)]
    · rw [List.length_append, List.length_singleton]
      omega
    · rw [List.length_append, List.length_singleton]
      exact Nat.lt_succ_self _
    · rw [if_neg some.ne']
      exact List.getElem?_concat_length
  · refine ⟨[], 0, by rw [if_neg long, List.append_nil], ?_, ?_, ?_⟩
    · rw [List.append_nil]
      omega
    · rwa [List.append_nil]
    · rw [if_pos rfl]
      omega

/-- A well-formed cell is taken as it is. -/
theorem Taken.pushCell {saved : StoredCell}
    (held : Taken palette ([saved].countP (fun saved => 1 < saved.text.length) + more) capture taken)
    (wellFormed : WellFormedCell saved) (known : saved.underlineColor ∈ palette) :
    Taken palette more (capture.pushCell saved) (taken ++ [saved]) ∧
      (capture.pushCell saved).lines = capture.lines ∧
      ∃ c, (capture.pushCell saved).cells = capture.cells ++ [c] := by
  obtain ⟨texts, handle, named, room, textIn, text⟩ := held.text
  obtain ⟨colors, grown, distinct, subset, found⟩ := held.colorHandle known
  unfold GridCapture.pushCell
  rw [named]
  dsimp only
  generalize GridCapture.colorHandle capture.underlineColors saved.underlineColor = coloured at grown distinct subset found ⊢
  obtain ⟨palette', hue⟩ := coloured
  dsimp only at grown distinct subset found ⊢
  subst grown
  have hueIn := (List.getElem?_eq_some_iff.mp found).1
  refine ⟨⟨?_, fun c member => ?_, fun c member => ?_, Nat.zero_lt_of_lt textIn, room, distinct, subset, held.few⟩,
    rfl, _, rfl⟩
  · rw [List.map_append, List.map_singleton, ← held.resolves]
    congr 1
    · refine List.map_congr_left fun c member => cell_append rfl rfl (held.texts c member) (held.colors c member)
    · refine congrArg (fun cell => [cell]) ?_
      unfold GridCapture.cell
      dsimp only
      rw [found]
      unfold WellFormedCell at wellFormed
      obtain ⟨letters, fg, bg, attrs, color, width, follows⟩ := saved
      dsimp only at wellFormed text ⊢
      cases follows with
      | true =>
        obtain ⟨rfl, rfl⟩ := wellFormed
        rfl
      | false =>
        obtain ⟨some, narrow⟩ := wellFormed
        have same : max width 1 = width := by omega
        have leads : (width == 0) = false := beq_false_of_ne (by omega)
        simp only [Cell.isContinuation, Bool.false_eq_true, ↓reduceIte, same, leads, Option.getD_some,
          StoredCell.mk.injEq, and_true]
        split at text
        next zero =>
          rw [if_neg (not_not.mpr zero)]
          obtain ⟨ch, rest, rfl⟩ := List.exists_cons_of_ne_nil some
          rw [List.length_cons] at text
          rw [List.eq_nil_of_length_eq_zero (by omega : rest.length = 0)]
          rfl
        next used => rw [if_pos used, text, Option.getD_some]
  · rcases List.mem_append.mp member with old | last
    · have := held.texts c old
      rw [List.length_append]
      omega
    · rw [List.mem_singleton.mp last]
      exact textIn
  · rcases List.mem_append.mp member with old | last
    · have := held.colors c old
      rw [List.length_append]
      omega
    · rw [List.mem_singleton.mp last]
      exact hueIn

/-- A line is taken as it is. -/
theorem Taken.pushCells {cells : List StoredCell}
    (held : Taken palette (cells.countP (fun saved => 1 < saved.text.length) + more) capture taken)
    (wellFormed : ∀ saved ∈ cells, WellFormedCell saved) (known : ∀ saved ∈ cells, saved.underlineColor ∈ palette) :
    Taken palette more (cells.foldl GridCapture.pushCell capture) (taken ++ cells) ∧
      (cells.foldl GridCapture.pushCell capture).lines = capture.lines ∧
      ∃ row, row.length = cells.length ∧
        (cells.foldl GridCapture.pushCell capture).cells = capture.cells ++ row := by
  induction cells generalizing capture taken more with
  | nil => exact ⟨by simpa using held, rfl, [], rfl, (List.append_nil _).symm⟩
  | cons saved rest ih =>
    rw [← List.singleton_append, List.countP_append, Nat.add_assoc] at held
    obtain ⟨pushed, lines, c, cells⟩ := held.pushCell (wellFormed saved (.head _)) (known saved (.head _))
    obtain ⟨done, lines', row, length, cells'⟩ := ih pushed (fun other member => wellFormed other (.tail _ member))
      (fun other member => known other (.tail _ member))
    rw [List.append_assoc, List.singleton_append] at done
    refine ⟨done, lines'.trans lines, c :: row, by rw [List.length_cons, length, List.length_cons], ?_⟩
    rw [List.foldl_cons, cells', cells, List.append_assoc, List.singleton_append]

/-- Stored lines taken into a capture, row by row. -/
theorem Taken.pushLines {lines : List StoredLine} {rows : GridCapture.Rows}
    (held : Taken palette (graphemes lines + more) capture taken) (holds : capture.Holds rows)
    (wellFormed : ∀ stored ∈ lines, ∀ saved ∈ stored.cells, WellFormedCell saved)
    (known : ∀ stored ∈ lines, ∀ saved ∈ stored.cells, saved.underlineColor ∈ palette) :
    ∃ fresh, Taken palette more (lines.foldl GridCapture.pushLine capture) (taken ++ lines.flatMap (·.cells)) ∧
      (lines.foldl GridCapture.pushLine capture).Holds (rows ++ fresh) ∧
      fresh.map (fun row => (row.1.length, row.2)) = lines.map fun stored => (stored.cells.length, stored.wrapped) := by
  induction lines generalizing capture taken rows more with
  | nil => exact ⟨[], by simpa [graphemes] using held, by simpa using holds, rfl⟩
  | cons stored rest ih =>
    have count : graphemes (stored :: rest) + more =
        stored.cells.countP (fun saved => 1 < saved.text.length) + (graphemes rest + more) := by
      rw [graphemes, List.flatMap_cons, List.countP_append, Nat.add_assoc]
      rfl
    rw [count] at held
    obtain ⟨taken', lines', row, length, cells'⟩ := held.pushCells (wellFormed stored (.head _)) (known stored (.head _))
    have pushed : (capture.pushLine stored).Holds (rows ++ [(row, stored.wrapped)]) := by
      refine holds.push row stored.wrapped cells' ?_
      unfold GridCapture.pushLine
      dsimp only
      rw [lines']
    have taken'' : Taken palette (graphemes rest + more) (capture.pushLine stored) (taken ++ stored.cells) :=
      ⟨taken'.resolves, taken'.texts, taken'.colors, taken'.some, taken'.room, taken'.distinct, taken'.subset, taken'.few⟩
    obtain ⟨fresh, done, holds', shapes⟩ := ih taken'' pushed (fun other member => wellFormed other (.tail _ member))
      (fun other member => known other (.tail _ member))
    rw [List.append_assoc] at done holds'
    refine ⟨(row, stored.wrapped) :: fresh, done, holds', ?_⟩
    rw [List.map_cons, List.map_cons, shapes, length]

/-- Rows that have the lengths of stored lines and resolve to their cells are the stored lines. -/
theorem resolveRow_stored {rows : GridCapture.Rows} {lines : List StoredLine}
    (shapes : rows.map (fun row => (row.1.length, row.2)) = lines.map fun stored => (stored.cells.length, stored.wrapped))
    (cells : (rows.flatMap (·.1)).map capture.cell = lines.flatMap (·.cells))
    (trimmed : ∀ stored ∈ lines, stored.wrapped = false →
      stored.cells.rdropWhile storedCellIsDefaultBlank = stored.cells) :
    rows.map (capture.resolveRow storedCellIsDefaultBlank) = lines := by
  induction lines generalizing rows with
  | nil =>
    rw [List.map_eq_nil_iff.mp shapes]
    rfl
  | cons stored rest ih =>
    obtain ⟨⟨row, wrapped⟩, rows, rfl⟩ := List.exists_cons_of_ne_nil (fun none : rows = [] => by
      rw [none] at shapes
      nomatch shapes)
    rw [List.map_cons, List.map_cons, List.cons.injEq, Prod.mk.injEq] at shapes
    obtain ⟨⟨length, flag⟩, shapes⟩ := shapes
    dsimp only at length flag
    rw [List.flatMap_cons, List.flatMap_cons, List.map_append] at cells
    obtain ⟨here, later⟩ := List.append_inj cells (by rw [List.length_map, length])
    rw [List.map_cons, ih shapes later fun other member => trimmed other (.tail _ member)]
    congr 1
    unfold GridCapture.resolveRow
    dsimp only at here ⊢
    rw [here, flag]
    cases soft : stored.wrapped with
    | true =>
      rw [if_pos rfl, ← soft]
    | false =>
      rw [if_neg Bool.false_ne_true, trimmed stored (.head _) soft, ← soft]

/-- Well-formed lines with few colours and not too many graphemes come back from a capture of them. -/
theorem fromStoredLines_intoStoredLines {lines : List StoredLine} (wellFormed : ∀ stored ∈ lines, WellFormedLine stored)
    (colors : ((lines.flatMap (·.cells)).map (·.underlineColor)).dedup.length ≤ 255)
    (room : graphemes lines < 2 ^ 32) : (fromStoredLines lines).intoStoredLines = some lines := by
  have start : Taken ((lines.flatMap (·.cells)).map (·.underlineColor)).dedup (graphemes lines + 0)
      { clusters := [[]], underlineColors := [.default] } [] :=
    ⟨rfl, by simp, by simp, Nat.one_pos, by rw [List.length_singleton]; omega, List.pairwise_singleton _ _,
      by simp, colors⟩
  obtain ⟨rows, taken, holds, shapes⟩ := start.pushLines (⟨rfl, rfl⟩ : GridCapture.Holds _ [])
    (fun stored member => (wellFormed stored member).cells) fun stored member saved inside =>
      List.mem_dedup.mpr (List.mem_map_of_mem (List.mem_flatMap.mpr ⟨stored, member, inside⟩))
  rw [List.nil_append] at taken holds
  have cells := taken.resolves
  change GridCapture.intoStoredLines (lines.foldl GridCapture.pushLine _) = _
  unfold GridCapture.intoStoredLines
  rw [holds.cells] at cells
  rw [holds.resolveLines, resolveRow_stored shapes cells fun stored member => (wellFormed stored member).trimmed]

/-- A wrapped row that ends in a wide glyph with a coloured underline, and a row of one combined glyph. -/
def sampleLines : List StoredLine :=
  [{ cells := [{ text := ['a'] }, { text := ['界'], underlineColor := .rgb 1 2 3, width := 2 },
      { text := [], width := 0, continuation := true }], wrapped := true },
    { cells := [{ text := ['e', '\u0301'] }] }]

theorem fromStoredLines_intoStoredLines_sample :
    (fromStoredLines sampleLines).intoStoredLines = some sampleLines := by
  apply fromStoredLines_intoStoredLines _ (by decide) (by decide)
  intro stored member
  simp only [sampleLines, List.mem_cons, List.not_mem_nil, or_false] at member
  obtain rfl | rfl := member
  · exact ⟨by simp [WellFormedCell], by simp⟩
  · exact ⟨by simp [WellFormedCell], fun _ => by decide⟩

end RoundTrip

end Grid

end Uniterm.Model
