import Uniterm.Soundness.Grid.Paragraphs
import Uniterm.Soundness.Grid.Reference

/-! # Reflow there and back

A cut is seamless when no wide glyph leaves a column empty at the right margin. Seamless cuts keep the text of
every logical line; every other cut leaves a blank that the next reflow reads as text.
-/

namespace Uniterm.Model.Grid

open ToMathlib

/-- The columns left empty when glyphs of these widths are cut from a column on. -/
def seams (width : ℕ) : ℕ → List ℕ → ℕ
  | _, [] => 0
  | x, glyph :: rest =>
    if x > 0 ∧ x + glyph > width then width - x + seams width glyph rest else seams width (x + glyph) rest

/-- The column after a cut. -/
def column (width : ℕ) : ℕ → List ℕ → ℕ
  | x, [] => x
  | x, glyph :: rest => column width (if x > 0 ∧ x + glyph > width then glyph else x + glyph) rest

section Recut

variable {u : Unicode} {g : Grid} {width : ℕ}

private theorem column_le {glyphs : List ℕ} (narrow : ∀ glyph ∈ glyphs, glyph ≤ width) {x : ℕ} (inside : x ≤ width) :
    column width x glyphs ≤ width := by
  induction glyphs generalizing x with
  | nil => exact inside
  | cons glyph rest ih =>
    have here := narrow glyph (List.mem_cons_self ..)
    refine ih (fun other member => narrow other (.tail _ member)) ?_
    split <;> omega

private theorem seams_concat (x : ℕ) (glyphs : List ℕ) (last : ℕ) :
    seams width x (glyphs ++ [last]) = seams width x glyphs + seams width (column width x glyphs) [last] := by
  induction glyphs generalizing x with
  | nil => rw [List.nil_append, seams, Nat.zero_add]; rfl
  | cons glyph rest ih =>
    rw [List.cons_append, seams, seams, column]
    split
    · rw [ih, Nat.add_assoc]
    · exact ih _

private theorem glyphWidth_min (wide : 2 ≤ width) (lead : Cell) :
    min (g.glyphWidth u lead) width = g.glyphWidth u lead := by
  have bounds := glyphWidth_bounds u g lead
  omega

private theorem recut_concat (wide : 2 ≤ width) (x : ℕ) (leads : List Cell) (last : Cell) :
    recut u g width x (leads ++ [last]) = recut u g width x leads ++
      recut u g width (column width x (leads.map (g.glyphWidth u))) [last] := by
  induction leads generalizing x with
  | nil => rfl
  | cons lead rest ih =>
    rw [List.cons_append, recut, recut, List.map_cons, column, glyphWidth_min wide]
    split
    · rw [ih, List.append_assoc, List.cons_append]
    · rw [ih, List.cons_append]

/-- Every cell of a cut is a lead. -/
theorem recut_leads (wide : 0 < width) (x : ℕ) (leads : List Cell) :
    ∀ c ∈ recut u g width x leads, c.isContinuation = false := by
  induction leads generalizing x with
  | nil => simp [recut]
  | cons lead rest ih =>
    have bounds := glyphWidth_bounds u g lead
    have placed : ({ lead with width := min (g.glyphWidth u lead) width } : Cell).isContinuation = false := by
      simp only [Cell.isContinuation, beq_eq_false_iff_ne]
      omega
    intro c member
    rw [recut] at member

    split at member
    · rcases List.mem_append.mp member with filler | later
      · rw [List.eq_of_mem_replicate filler]
        rfl
      · rcases List.mem_cons.mp later with rfl | later
        · exact placed
        · exact ih _ c later
    · rcases List.mem_cons.mp member with rfl | later
      · exact placed
      · exact ih _ c later

/-- The width of a lead cell is no part of its text, nor of its being blank. -/
theorem lead_congr {lead : Cell} (leads : lead.isContinuation = false) {n : ℕ} (positive : 0 < n) :
    g.cellTextOwned { lead with width := n } = g.cellTextOwned lead ∧
      g.isDefaultBlank { lead with width := n } = g.isDefaultBlank lead := by
  have placed : ({ lead with width := n } : Cell).isContinuation = false := by
    simp only [Cell.isContinuation, beq_eq_false_iff_ne]
    omega
  constructor
  · unfold cellTextOwned
    rw [placed, leads]
  · unfold isDefaultBlank
    rw [placed, leads]

/-- A cut adds one blank to the text for each column left empty. -/
theorem recut_length (wide : 2 ≤ width) {leads : List Cell} (all : ∀ c ∈ leads, c.isContinuation = false) (x : ℕ) :
    ((recut u g width x leads).flatMap g.cellTextOwned).length =
      (leads.flatMap g.cellTextOwned).length + seams width x (leads.map (g.glyphWidth u)) := by
  induction leads generalizing x with
  | nil => rfl
  | cons lead rest ih =>
    have bounds := glyphWidth_bounds u g lead
    have text := (lead_congr (g := g) (all lead (List.mem_cons_self ..)) (n := g.glyphWidth u lead) (by omega)).1
    have later := ih fun c member => all c (.tail _ member)
    have filler (n : ℕ) : ((List.replicate n ({} : Cell)).flatMap g.cellTextOwned).length = n := by
      induction n with
      | zero => rfl
      | succ n ih => rw [List.replicate_succ, List.flatMap_cons, List.length_append, ih, Nat.add_comm]; rfl
    rw [recut, List.map_cons, seams, glyphWidth_min wide, List.flatMap_cons]
    split
    · rw [List.flatMap_append, List.flatMap_cons, List.length_append, List.length_append, List.length_append, filler,
        text, later]
      omega
    · rw [List.flatMap_cons, List.length_append, List.length_append, text, later]
      omega

/-- A seamless cut changes no text and no glyph. -/
theorem recut_seamless (wide : 2 ≤ width) {leads : List Cell} (all : ∀ c ∈ leads, c.isContinuation = false) {x : ℕ}
    (seamless : seams width x (leads.map (g.glyphWidth u)) = 0) :
    (recut u g width x leads).map g.cellTextOwned = leads.map g.cellTextOwned ∧
      (recut u g width x leads).map (g.glyphWidth u) = leads.map (g.glyphWidth u) := by
  induction leads generalizing x with
  | nil => exact ⟨rfl, rfl⟩
  | cons lead rest ih =>
    have bounds := glyphWidth_bounds u g lead
    have text := (lead_congr (g := g) (all lead (List.mem_cons_self ..)) (n := g.glyphWidth u lead) (by omega)).1
    have glyph : g.glyphWidth u { lead with width := g.glyphWidth u lead } = g.glyphWidth u lead := rfl
    rw [List.map_cons, seams] at seamless
    rw [recut, glyphWidth_min wide]
    split
    next wraps =>
      rw [if_pos wraps] at seamless
      obtain ⟨texts, glyphs⟩ := ih (fun c member => all c (.tail _ member)) (Nat.eq_zero_of_add_eq_zero seamless).2
      rw [(Nat.eq_zero_of_add_eq_zero seamless).1, List.replicate_zero, List.nil_append]
      exact ⟨by rw [List.map_cons, List.map_cons, text, texts], by rw [List.map_cons, List.map_cons, glyph, glyphs]⟩
    next fits =>
      rw [if_neg fits] at seamless
      obtain ⟨texts, glyphs⟩ := ih (fun c member => all c (.tail _ member)) seamless
      exact ⟨by rw [List.map_cons, List.map_cons, text, texts], by rw [List.map_cons, List.map_cons, glyph, glyphs]⟩

/-- A blank in default style is one column wide. -/
theorem glyphWidth_blank (space : u.glyphWidth [' '] = 1) {c : Cell} (blank : g.isDefaultBlank c = true) :
    g.glyphWidth u c = 1 := by
  simp only [isDefaultBlank, Bool.and_eq_true, beq_iff_eq] at blank
  obtain ⟨⟨⟨⟨⟨⟨⟨ch, cluster⟩, -⟩, -⟩, -⟩, -⟩, -⟩, -⟩ := blank
  rw [glyphWidth, if_neg (by simp [cluster]), ch, space]

/-- Trailing blanks stay trailing in a cut, and leave no column empty. -/
theorem recut_trimmed (space : u.glyphWidth [' '] = 1) (wide : 2 ≤ width) {leads : List Cell}
    (all : ∀ c ∈ leads, c.isContinuation = false) {x : ℕ} (inside : x ≤ width) :
    (recut u g width x leads).rdropWhile g.isDefaultBlank = recut u g width x (leads.rdropWhile g.isDefaultBlank) ∧
      seams width x (leads.map (g.glyphWidth u)) =
        seams width x ((leads.rdropWhile g.isDefaultBlank).map (g.glyphWidth u)) := by
  induction leads using List.reverseRecOn with
  | nil => exact ⟨rfl, rfl⟩
  | append_singleton leads last ih =>
    have bounds := glyphWidth_bounds u g last
    have leading := all last (by simp)
    have same := (lead_congr (g := g) leading (n := g.glyphWidth u last) (by omega)).2
    have edge : column width x (leads.map (g.glyphWidth u)) ≤ width := by
      refine column_le (fun glyph member => ?_) inside
      obtain ⟨lead, -, rfl⟩ := List.mem_map.mp member
      have bounds := glyphWidth_bounds u g lead
      omega
    cases blank : g.isDefaultBlank last with
    | true =>
      obtain ⟨trimmed, count⟩ := ih fun c member => all c (List.mem_append_left _ member)
      have one := glyphWidth_blank space blank
      rw [recut_concat wide, List.map_append, List.map_singleton, seams_concat,
        List.rdropWhile_concat_pos _ _ _ blank, ← count, ← trimmed]
      generalize column width x (leads.map (g.glyphWidth u)) = x' at edge
      have tail : recut u g width x' [last] = [{ last with width := g.glyphWidth u last }] ∧
          seams width x' [g.glyphWidth u last] = 0 := by
        rw [recut, seams, glyphWidth_min wide, one]
        split
        · have full : width - x' = 0 := by omega
          rw [full]
          exact ⟨rfl, rfl⟩
        · exact ⟨rfl, rfl⟩
      rw [tail.1, tail.2, List.rdropWhile_concat_pos _ _ _ (same.trans blank)]
      exact ⟨rfl, rfl⟩
    | false =>
      rw [List.rdropWhile_concat_neg _ _ _ (by simp [blank]), recut_concat wide]
      generalize column width x (leads.map (g.glyphWidth u)) = x' at edge
      -- The last cell of the cut is the last lead, whatever stands before it.
      have tail : ∃ before, recut u g width x' [last] = before ++ [{ last with width := g.glyphWidth u last }] := by
        rw [recut, glyphWidth_min wide]
        split
        · exact ⟨_, rfl⟩
        · exact ⟨[], rfl⟩
      obtain ⟨before, tail⟩ := tail
      rw [tail, ← List.append_assoc]
      exact ⟨List.rdropWhile_concat_neg _ _ _ (by simp [same, blank]), rfl⟩

end Recut

section Arenas

variable {u : Unicode} {g g' : Grid} {width : ℕ}

private theorem glyphWidth_congr (clusters : g'.clusters = g.clusters) : g'.glyphWidth u = g.glyphWidth u := by
  funext c
  simp only [glyphWidth, clusters]

private theorem lineText_congr (clusters : g'.clusters = g.clusters) (colors : g'.underlineColors = g.underlineColors) :
    g'.lineText = g.lineText := by
  have text : g'.cellTextOwned = g.cellTextOwned := by
    funext c
    simp only [cellTextOwned, clusters]
  funext leads
  rw [lineText, lineText, isDefaultBlank_congr colors, text]

private theorem recut_congr (clusters : g'.clusters = g.clusters) (x : ℕ) (leads : List Cell) :
    recut u g' width x leads = recut u g width x leads := by
  induction leads generalizing x with
  | nil => rfl
  | cons lead rest ih => rw [recut, recut, glyphWidth_congr clusters, ih, ih]

/-- A recut grid keeps its arenas. -/
theorem reflowWidth_frame (u : Unicode) (g : Grid) (width height : ℕ) (blank : Cell) (cursor : ℕ × ℕ) (pending : Bool) :
    (g.reflowWidth u width height blank cursor pending).1.width = width ∧
      (g.reflowWidth u width height blank cursor pending).1.height = height ∧
      (g.reflowWidth u width height blank cursor pending).1.clusters = g.clusters ∧
      (g.reflowWidth u width height blank cursor pending).1.underlineColors = g.underlineColors ∧
      (g.reflowWidth u width height blank cursor pending).1.scrollbackLimit = g.scrollbackLimit := by
  rw [reflowWidth_grid, install_frame]
  exact ⟨rfl, rfl, rfl, rfl, rfl⟩

end Arenas

section Fitting

private theorem recutFits_prefix {width : ℕ} {glyphs more : List ℕ} {x : ℕ}
    (fits : recutFits width x (glyphs ++ more)) :
    recutFits width x glyphs := by
  induction glyphs generalizing x with
  | nil => trivial
  | cons glyph rest ih => exact ⟨fits.1, ih fits.2⟩

/-- A row of narrow cells never leaves 16 bits. -/
theorem recutFits_ones {width n x : ℕ} (sum : x + n < 65536) :
    recutFits width x (List.replicate n 1) := by
  induction n generalizing x with
  | zero => trivial
  | succ n ih =>
    refine ⟨by omega, ih ?_⟩
    split <;> omega

end Fitting

section RoundTrip

variable {u : Unicode} {g g' g'' : Grid} {width : ℕ} {blank blank' : Cell} {cursor cursor' : ℕ × ℕ}
  {pending pending' : Bool}

/-- Cutting these leads leaves no column empty. -/
def Seamless (u : Unicode) (g : Grid) (width : ℕ) (leads : List Cell) : Prop :=
  seams width 0 (leads.map (g.glyphWidth u)) = 0

/-- No logical line is cut through a wide glyph, neither at the new width nor at the old one, and no column sum
leaves 16 bits. -/
def RoundTrips (u : Unicode) (g : Grid) (width : ℕ) : Prop :=
  width = g.width ∨ g.Fits u width ∧ g.Fits u g.width ∧
    ∀ leads ∈ g.logicalLines, Seamless u g width leads ∧ Seamless u g g.width leads

/-- The text of a logical line that was cut twice. -/
theorem lineText_twice (space : u.glyphWidth [' '] = 1) {w w' : ℕ} (wide : 2 ≤ w) (wide' : 2 ≤ w')
    {leads read back : List Cell} (all : ∀ c ∈ leads, c.isContinuation = false)
    (first : g.Trails read (recut u g w' 0 leads)) (second : g.Trails back (recut u g w 0 read)) :
    g.lineText back =
      (recut u g w 0 (recut u g w' 0 (leads.rdropWhile g.isDefaultBlank))).flatMap g.cellTextOwned := by
  have kept : ∀ c ∈ read, c.isContinuation = false := by
    obtain ⟨tail, whole, -⟩ := first
    intro c member
    exact recut_leads (by omega) 0 leads c (whole ▸ List.mem_append_left _ member)
  rw [second.text, lineText, (recut_trimmed space wide kept (Nat.zero_le _)).1, first.trimmed,
    (recut_trimmed space wide' all (Nat.zero_le _)).1]

/-- Two cuts give back the text exactly when both are seamless. -/
theorem recut_twice {w w' : ℕ} (wide : 2 ≤ w) (wide' : 2 ≤ w') {leads : List Cell}
    (all : ∀ c ∈ leads, c.isContinuation = false) :
    (recut u g w 0 (recut u g w' 0 leads)).flatMap g.cellTextOwned = leads.flatMap g.cellTextOwned ↔
      Seamless u g w' leads ∧ Seamless u g w leads := by
  have leading := recut_leads (u := u) (g := g) (by omega : 0 < w') 0 leads
  constructor
  · intro same
    have length := congrArg List.length same
    rw [recut_length wide leading, recut_length wide' all] at length
    have seamless : Seamless u g w' leads := by
      unfold Seamless
      omega
    refine ⟨seamless, ?_⟩
    rw [(recut_seamless wide' all seamless).2] at length
    unfold Seamless at seamless ⊢
    omega
  · rintro ⟨seamless', seamless⟩
    obtain ⟨texts', glyphs⟩ := recut_seamless wide' all seamless'
    obtain ⟨texts, -⟩ := recut_seamless (x := 0) wide leading (by rw [glyphs]; exact seamless)
    rw [List.flatMap_def, List.flatMap_def, texts, texts']

/-- After both resizes every logical line of the grid is still there, cut twice, below the padding rows. -/
theorem texts_twice (first : g.DefaultFirst) (tall : 0 < g.height) (space : u.glyphWidth [' '] = 1)
    (wide : 2 ≤ g.width) (wide' : 2 ≤ width) (changes : width ≠ g.width) (fits : g.Fits u width)
    (there : g' = (g.resizeReflow u width g.height blank cursor pending).1) (fits' : g'.Fits u g.width)
    (back : g'' = (g'.resizeReflow u g.width g.height blank' cursor' pending').1)
    (kept : rowsEvicted u g width g.height blank cursor pending = 0)
    (kept' : rowsEvicted u g' g.width g.height blank' cursor' pending' = 0) :
    ∃ above, g''.texts = above ++ g.logicalLines.map fun leads =>
      (recut u g g.width 0 (recut u g width 0 (leads.rdropWhile g.isDefaultBlank))).flatMap g.cellTextOwned := by
  rw [rowsEvicted, if_neg changes, Nat.sub_eq_zero_iff_le] at kept
  obtain ⟨pads, reads, closes, -, related⟩ := reflowWidth_reads u first (by omega) fits (by omega) kept
  obtain ⟨size, height, clusters, colors, -⟩ := reflowWidth_frame u g width g.height blank cursor pending
  rw [resizeReflow_reflowWidth u (show max width 1 ≠ g.width by omega), Nat.max_eq_left (by omega : 1 ≤ width),
    Nat.max_eq_left tall] at there
  rw [← there] at closes size height clusters colors
  have first' : g'.DefaultFirst := by rw [DefaultFirst, colors]; exact first
  have lines := (logicalLines_closed first' closes (by
    have some := related.length_eq ▸ List.length_pos_iff.mpr g.logicalLines_ne_nil
    intro none
    rw [(List.append_eq_nil_iff.mp none).2] at some
    exact Nat.lt_irrefl 0 some)).1
  have changes' : g.width ≠ g'.width := by rw [size]; exact changes.symm
  rw [rowsEvicted, if_neg changes', Nat.sub_eq_zero_iff_le] at kept'
  obtain ⟨pads', reads', closes', -, related'⟩ := reflowWidth_reads u first' (by omega) fits' (by omega) kept'
  obtain ⟨-, -, clusters', colors', -⟩ := reflowWidth_frame u g' g.width g.height blank' cursor' pending'
  rw [resizeReflow_reflowWidth u (show max g.width 1 ≠ g'.width by omega), Nat.max_eq_left (by omega : 1 ≤ g.width),
    Nat.max_eq_left tall] at back
  rw [← back] at closes' clusters' colors'
  have first'' : g''.DefaultFirst := by rw [DefaultFirst, colors']; exact first'
  have texts := (logicalLines_closed first'' closes' (by
    have some := related'.length_eq ▸ List.length_pos_iff.mpr g'.logicalLines_ne_nil
    intro none
    rw [(List.append_eq_nil_iff.mp none).2] at some
    exact Nat.lt_irrefl 0 some)).2
  have leads := List.forall₂_and_left _ _ |>.mpr ⟨logicalLines_all (fun line _ => lineLeads_leads line), related⟩
  rw [lines] at related'
  have later := List.forall₂_drop pads.length related'
  rw [List.drop_left] at later
  refine ⟨(pads' ++ reads'.take pads.length).map g''.lineText, ?_⟩
  rw [texts, lineText_congr clusters' colors', lineText_congr clusters colors]
  conv_lhs => rw [← List.take_append_drop pads.length reads', ← List.append_assoc, List.map_append]
  congr 1
  rw [← List.forall₂_eq_eq_eq, List.forall₂_map_left_iff, List.forall₂_map_right_iff]
  refine (forall₂_comp (fun leads read back given trails => ?_) leads later).flip
  rw [recut_congr clusters] at trails
  have trails' : g.Trails back (recut u g g.width 0 read) := by
    unfold Trails at trails ⊢
    rwa [isDefaultBlank_congr colors] at trails
  exact lineText_twice space wide wide' given.1 given.2 trails'

/-- A grid without an open line has the texts of its logical lines. -/
theorem texts_logicalLines (first : g.DefaultFirst) :
    g.texts = g.logicalLines.map g.lineText ∨ g.texts = [] ∧ g.logicalLines = [[]] := by
  obtain ⟨whole, related, joined⟩ := closeLines_paragraphs first (g.scrollback ++ g.lines) []
  rw [texts, joined]
  unfold logicalLines
  generalize g.closeLines (g.scrollback ++ g.lines) [] = lines at related ⊢
  have same := map_eq_of_forall₂ g.Trails (f := g.lineText) (g := g.lineText) (fun _ _ trails => trails.text) related
  obtain ⟨closed, left⟩ := lines
  dsimp only at same ⊢
  cases left with
  | nil =>
    cases related with
    | nil => exact .inr ⟨rfl, rfl⟩
    | cons head rest => exact .inl (by simpa using same.symm)
  | cons lead rest => exact .inl (by simp [same])

/-- After a seamless cut of narrow padding the way back leaves 16 bits nowhere. -/
theorem Fits.back (first : g.DefaultFirst) (space : u.glyphWidth [' '] = 1) (wide : 2 ≤ g.width) (wide' : 2 ≤ width)
    (narrow : width < 65536) (plain : Space blank) (fits : g.Fits u width) (home : g.Fits u g.width)
    (seamless : ∀ leads ∈ g.logicalLines, Seamless u g width leads)
    (kept : (reflowViewport u g width g.height blank cursor pending).screenStart ≤ g.scrollbackLimit) :
    (g.reflowWidth u width g.height blank cursor pending).1.Fits u g.width := by
  obtain ⟨pads, reads, closes, blanks, related⟩ := reflowWidth_reads u first (by omega) fits (by omega) kept
  obtain ⟨-, -, clusters, colors, -⟩ := reflowWidth_frame u g width g.height blank cursor pending
  generalize (g.reflowWidth u width g.height blank cursor pending).1 = g' at closes clusters colors ⊢
  have first' : g'.DefaultFirst := by rw [DefaultFirst, colors]; exact first
  have lines := (logicalLines_closed first' closes (by
    have some := related.length_eq ▸ List.length_pos_iff.mpr g.logicalLines_ne_nil
    intro none
    rw [(List.append_eq_nil_iff.mp none).2] at some
    exact Nat.lt_irrefl 0 some)).1
  intro leads member
  rw [lines] at member
  rw [glyphWidth_congr clusters]
  rcases List.mem_append.mp member with pad | read
  · obtain ⟨n, short, rfl⟩ := blanks leads pad
    have one : g.glyphWidth u blank = 1 := by
      rw [glyphWidth, if_neg (by simp [plain.cluster]), plain.ch, space]
    rw [List.map_replicate, one, Nat.min_eq_left (by omega)]
    exact recutFits_ones (by omega)
  · obtain ⟨old, inside, tail, whole, -⟩ := exists_of_mem_right related read
    have glyphs := (recut_seamless wide' (logicalLines_all (fun line _ => lineLeads_leads line) old inside)
      (seamless old inside)).2
    have given := home old inside
    have same : old.map (fun lead => min (g.glyphWidth u lead) g.width) =
        leads.map (fun lead => min (g.glyphWidth u lead) g.width) ++
          tail.map fun lead => min (g.glyphWidth u lead) g.width := by
      rw [whole, List.map_append] at glyphs
      have narrowed := congrArg (List.map fun glyph => min glyph g.width) glyphs
      simpa only [List.map_append, List.map_map, Function.comp_def] using narrowed.symm
    rw [same] at given
    exact recutFits_prefix given

/-- A resize and back keeps the text of every logical line when every cut is seamless, and within 16 bits of
columns only then. -/
theorem resizeReflow_round_trip (first : g.DefaultFirst) (tall : 0 < g.height) (space : u.glyphWidth [' '] = 1)
    (wide : 2 ≤ g.width) (narrow : g.width < 65536) (wide' : 2 ≤ width) (narrow' : width < 65536)
    (plain : Space blank) (there : g' = (g.resizeReflow u width g.height blank cursor pending).1)
    (back : g'' = (g'.resizeReflow u g.width g.height blank' cursor' pending').1)
    (kept : rowsEvicted u g width g.height blank cursor pending = 0)
    (kept' : rowsEvicted u g' g.width g.height blank' cursor' pending' = 0) :
    (RoundTrips u g width → g.texts <:+ g''.texts) ∧
      (g.width ≤ 65533 → width ≤ 65533 → g.texts <:+ g''.texts → RoundTrips u g width) := by
  by_cases changes : width = g.width
  · have same (g : Grid) (blank : Cell) (cursor : ℕ × ℕ) (pending : Bool) (wide : 2 ≤ g.width) (tall : 0 < g.height) :
        (g.resizeReflow u g.width g.height blank cursor pending).1 = g := by
      unfold Grid.resizeReflow
      dsimp only
      rw [Nat.max_eq_left (by omega : 1 ≤ g.width), Nat.max_eq_left tall, if_pos ⟨rfl, rfl⟩]
    subst changes
    rw [same g _ _ _ wide tall] at there
    subst there
    rw [same g' _ _ _ wide tall] at back
    subst back
    exact ⟨fun _ => List.suffix_refl _, fun _ _ _ => .inl rfl⟩
  have all : ∀ leads ∈ g.logicalLines, ∀ c ∈ leads, c.isContinuation = false :=
    logicalLines_all fun line _ => lineLeads_leads line
  have trimmed {leads : List Cell} (member : leads ∈ g.logicalLines) :
      ∀ c ∈ leads.rdropWhile g.isDefaultBlank, c.isContinuation = false := fun c inside =>
    all leads member c ((List.rdropWhile_prefix ..).subset inside)
  have seams_same {w : ℕ} (wide : 2 ≤ w) {leads : List Cell} (member : leads ∈ g.logicalLines) :
      Seamless u g w leads ↔ Seamless u g w (leads.rdropWhile g.isDefaultBlank) := by
    unfold Seamless
    rw [(recut_trimmed space wide (all leads member) (Nat.zero_le _)).2]
  have before := texts_logicalLines first
  constructor
  · rintro (same | ⟨fits, home, seamless⟩)
    · exact absurd same changes
    have room := kept
    rw [rowsEvicted, if_neg changes, Nat.sub_eq_zero_iff_le] at room
    have fits' : g'.Fits u g.width := by
      rw [there, resizeReflow_reflowWidth u (show max width 1 ≠ g.width by omega),
        Nat.max_eq_left (by omega : 1 ≤ width), Nat.max_eq_left tall]
      exact fits.back first space wide wide' narrow' plain home (fun leads member => (seamless leads member).1) room
    obtain ⟨above, after⟩ := texts_twice first tall space wide wide' changes fits there fits' back kept kept'
    rw [after]
    rcases before with before | ⟨none, -⟩
    · rw [before]
      refine ⟨above, congrArg (above ++ ·) (List.map_congr_left fun leads member => ?_)⟩
      obtain ⟨out, home⟩ := seamless leads member
      exact ((recut_twice wide wide' (trimmed member)).mpr
        ⟨(seams_same wide' member).mp out, (seams_same wide member).mp home⟩).symm
    · rw [none]
      exact List.nil_suffix
  · intro bound bound' kept''
    obtain ⟨above, after⟩ := texts_twice first tall space wide wide' changes (fits_of_le u g bound') there
      (fits_of_le u g' bound) back kept kept'
    refine .inr ⟨fits_of_le u g bound', fits_of_le u g bound, fun leads member => ?_⟩
    rcases before with before | ⟨-, empty⟩
    · rw [after, before] at kept''
      obtain ⟨added, same⟩ := kept''
      have texts := (List.append_inj' same (by rw [List.length_map, List.length_map])).2
      have text := List.map_inj_left.mp texts leads member
      obtain ⟨out, home⟩ := (recut_twice wide wide' (trimmed member)).mp text.symm
      exact ⟨(seams_same wide' member).mpr out, (seams_same wide member).mpr home⟩
    · rw [empty, List.mem_singleton] at member
      subst member
      exact ⟨rfl, rfl⟩


/-- Three letters survive a visit to two columns. -/
theorem resizeReflow_round_trip_letters : ∃ there back,
    there = (threeLetters.resizeReflow narrowTables 2 1 {} (3, 0) false).1 ∧
      back = (there.resizeReflow narrowTables 4 1 {} (1, 0) false).1 ∧ threeLetters.texts <:+ back.texts := by
  refine ⟨_, _, rfl, rfl, ?_⟩
  have trips : RoundTrips narrowTables threeLetters 2 :=
    .inr ⟨fits_of_le _ _ (by decide), fits_of_le _ _ (by decide), by unfold Seamless; decide⟩
  exact (resizeReflow_round_trip (g := threeLetters) rfl (by decide) (by decide) (by decide) (by decide) (by decide)
    (by decide) ⟨rfl, rfl, rfl⟩ rfl rfl (by decide) (by decide)).1 trips

/-- Tables in which one character is two columns wide. -/
def wideTables : Unicode where
  charWidth := fun c => some (if c = '界' then 2 else 1)
  strWidth := fun text => if text = ['界'] then 2 else text.length
  graphemes := List.length

/-- A screen of four columns that shows two letters and a wide character. -/
def wideText : Grid where
  width := 4
  height := 1
  lines := [{ cells := [{ ch := 'a' }, { ch := 'b' }, { ch := '界', width := 2 }, { width := 0 }], id := 1 }]
  damage := [.clean]
  nextLineId := 2

/-- In three columns the wide character leaves a column empty, and back in four columns that column is text; the
text then falls one column short of the wide character again. -/
theorem round_trip_fills :
    rowsEvicted wideTables wideText 3 1 {} (0, 0) false = 0 ∧
      rowsEvicted wideTables (wideText.resizeReflow wideTables 3 1 {} (0, 0) false).1 4 1 {} (0, 0) false = 0 ∧
      wideText.texts = [['a', 'b', '界']] ∧
      ((wideText.resizeReflow wideTables 3 1 {} (0, 0) false).1.resizeReflow wideTables 4 1 {} (0, 0) false).1.texts =
        [['a', 'b', ' ', ' ', '界']] ∧
      ¬wideText.texts <:+ ((wideText.resizeReflow wideTables 3 1 {} (0, 0) false).1.resizeReflow
        wideTables 4 1 {} (0, 0) false).1.texts :=
  ⟨by decide, by decide, by decide, by decide, by decide⟩

end RoundTrip

end Uniterm.Model.Grid
