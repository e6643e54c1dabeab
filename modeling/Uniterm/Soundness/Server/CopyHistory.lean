import Uniterm.Model.Server.CopyMode
import Uniterm.Soundness.Grid.LineIds

/-! # Copy-mode follows the history

When output evicts history, `syncHistory` moves the anchor and the viewport by the difference between the ids of the
oldest lines before and after. That is the number of evicted lines only where the ids of the two oldest lines are
consecutive; scrolls of a region leave gaps.
-/

namespace Uniterm.Model.Server

open Grid

section Sync

variable (s : CopyState) (g : Grid)

private theorem shift_zero (line : ℕ) : s.shift 0 line = some line := by
  unfold CopyState.shift
  cases s.frozen with
  | none => rfl
  | some frozen =>
    dsimp only
    split
    next inside => exact congrArg some (by omega)
    · rfl

private theorem evict_zero : s.evict 0 = s := by
  have frozen : (s.frozen.map fun frozen => { frozen with start := frozen.start - 0 }) = s.frozen := by
    cases s.frozen <;> rfl
  have anchor : (s.anchor.bind fun anchor => (s.shift 0 anchor.1).map fun line => (line, anchor.2)) = s.anchor := by
    simp only [shift_zero, Option.map_some]
    cases s.anchor <;> rfl
  unfold CopyState.evict
  rw [frozen, anchor, shift_zero]
  rfl

/-- Compensation, whether history was evicted or not. -/
theorem syncHistory_eq : s.syncHistory g = { s.evict (s.evicted g) with
    firstLineId := g.firstLineId
    top := min (s.evict (s.evicted g)).top ((s.evict (s.evicted g)).maxTop g)
    cy := min s.cy (s.height - 1) } := by
  have same : (if s.evicted g ≠ 0 then s.evict (s.evicted g) else s) = s.evict (s.evicted g) := by
    split
    · rfl
    next none => rw [not_not.mp none, evict_zero]
  unfold CopyState.syncHistory
  rw [same]
  rfl

end Sync

/-- What a program writes to the screen of a pane, without a change of its size. -/
inductive Output where
  | set (x y : ℕ) (cell : Cell)
  | scrollUp (blank : Cell)
  | scrollRegionUp (top bottom : ℕ) (blank : Cell)
  | scrollRegionUpDiscarding (top bottom : ℕ) (blank : Cell)
  | scrollRegionDown (top bottom : ℕ) (blank : Cell)

def Output.run (g : Grid) : Output → Grid
  | .set x y cell => g.set x y cell
  | .scrollUp blank => g.scrollUp blank
  | .scrollRegionUp top bottom blank => g.scrollRegionUp top bottom blank
  | .scrollRegionUpDiscarding top bottom blank => g.scrollRegionUpDiscarding top bottom blank
  | .scrollRegionDown top bottom blank => g.scrollRegionDown top bottom blank

/-- The top row of the screen goes into the history. -/
def Output.Departs (g : Grid) : Output → Prop
  | .scrollUp _ => 0 < g.height
  | .scrollRegionUp top bottom _ => top = 0 ∧ bottom < g.height
  | _ => False

/-- A full history loses its oldest line only where the next line has the next id, or where it is the only line and
the next one has a later id. -/
def Output.Steady (g : Grid) (output : Output) : Prop :=
  output.Departs g → g.scrollback.length = g.scrollbackLimit → ∀ oldest ∈ g.scrollback.head?, ∃ next,
    g.lineId 1 = some next ∧ (next = oldest.id + 1 ∨ g.scrollback.length = 1 ∧ oldest.id < next)

/-- Each output is followed by a synchronization. -/
def follow : Grid × CopyState → List Output → Grid × CopyState
  | state, [] => state
  | (g, s), output :: rest => follow (output.run g, s.syncHistory (output.run g)) rest

/-- Every output of a run is steady on the grid that it meets. -/
def SteadyRun : Grid → List Output → Prop
  | _, [] => True
  | g, output :: rest => output.Steady g ∧ SteadyRun (output.run g) rest

/-- Copy-mode without a freeze, in step with a grid of its size. -/
structure Following (g : Grid) (s : CopyState) : Prop where
  live : s.frozen = none
  first : s.firstLineId = g.firstLineId
  height : s.height = max g.height 1

/-- The anchor and the top of the viewport name the lines that they named, as long as these are in the history. -/
structure Follows (g : Grid) (s : CopyState) (g' : Grid) (s' : CopyState) : Prop where
  anchor : ∀ a x line, s.anchor = some (a, x) → g.scrollback[a]? = some line → line.id ∈ g'.scrollback.map Line.id →
    ∃ a', s'.anchor = some (a', x) ∧ g'.scrollback[a']? = some line
  cleared : ∀ a x line, s.anchor = some (a, x) → g.scrollback[a]? = some line → line.id ∉ g'.scrollback.map Line.id →
    s'.anchor = none
  top : ∀ line, g.scrollback[s.top]? = some line → line.id ∈ g'.scrollback.map Line.id →
    g'.scrollback[s'.top]? = some line

variable {g g' : Grid} {s : CopyState}

section Effects

/-- What an output does to a grid, its history apart. -/
structure Effect (g g' : Grid) : Prop where
  screen : ∀ id ∈ g'.lines.map Line.id, id ∈ g.lines.map Line.id ∨ g.nextLineId ≤ id
  next : g.nextLineId ≤ g'.nextLineId
  limit : g'.scrollbackLimit = g.scrollbackLimit
  height : g'.height = g.height

theorem Effect.refl (g : Grid) : Effect g g := ⟨fun _ member => .inl member, le_rfl, rfl, rfl⟩

private theorem markRowsDamaged_effect {g' : Grid} (effect : Effect g g') (top bottom : ℕ) :
    Effect g (g'.markRowsDamaged top bottom) := by
  rw [markRowsDamaged_frame]
  exact ⟨effect.screen, effect.next, effect.limit, effect.height⟩

theorem scrollUp_effect (rowed : Rowed g) (tall : 0 < g.height) (blank : Cell) :
    Effect g (g.scrollUp blank) ∧ ∃ line, g.lines.head?.map Line.id = some line.id ∧
      (g.scrollUp blank).scrollback = (g.pushScrollback line).scrollback := by
  have total := rowed.lines_length
  cases lines : g.lines with
  | nil =>
    rw [lines, List.length_nil] at total
    omega
  | cons departing rest =>
    rw [scrollUp_eq blank lines]
    refine ⟨markRowsDamaged_effect ?_ _ _, departing.trimDefaultTail, ?_, ?_⟩
    · refine ⟨fun id member => ?_, Nat.le_succ g.nextLineId, rfl, rfl⟩
      rw [List.map_append, List.mem_append, List.map_cons, List.map_nil, List.mem_singleton, blank_id] at member
      rw [lines, List.map_cons, List.mem_cons]
      obtain old | rfl := member
      · exact .inl (.inr old)
      · exact .inr le_rfl
    · rw [List.head?_cons, Option.map_some, trimDefaultTail_id]
    · rw [markRowsDamaged_frame]

private theorem regionScrolled_effect (history : List Line) (out into : ℕ) (blank : Cell) (top bottom : ℕ) :
    Effect g (g.regionScrolled history out into blank top bottom) := by
  refine markRowsDamaged_effect ?_ top bottom
  refine ⟨fun id member => ?_, Nat.le_succ g.nextLineId, rfl, rfl⟩
  obtain ⟨line, inside, rfl⟩ := List.mem_map.mp member
  obtain rfl | old := List.eq_or_mem_of_mem_insertIdx inside
  · exact .inr le_rfl
  · exact .inl (List.mem_map_of_mem (List.mem_of_mem_eraseIdx old))

private theorem regionScrolled_scrollback (history : List Line) (out into : ℕ) (blank : Cell) (top bottom : ℕ) :
    (g.regionScrolled history out into blank top bottom).scrollback = history := by
  unfold regionScrolled
  rw [markRowsDamaged_frame]

/-- A region scroll without history leaves the history. -/
theorem scrollRegionUpDiscarding_effect (top bottom : ℕ) (blank : Cell) :
    Effect g (g.scrollRegionUpDiscarding top bottom blank) ∧
      (g.scrollRegionUpDiscarding top bottom blank).scrollback = g.scrollback := by
  unfold scrollRegionUpDiscarding
  by_cases inside : top ≤ bottom ∧ bottom < g.height
  · rw [scrollRegionUpInner_region inside.1 inside.2 (by simp)]
    exact ⟨regionScrolled_effect .., regionScrolled_scrollback ..⟩
  · rw [scrollRegionUpInner, if_pos (by omega)]
    exact ⟨.refl g, rfl⟩

/-- An output leaves the history, or puts the top row of the screen there. -/
theorem Output.run_effect (rowed : Rowed g) (output : Output) : Effect g (output.run g) ∧
    ((output.run g).scrollback = g.scrollback ∨ output.Departs g ∧
      ∃ line, g.lines.head?.map Line.id = some line.id ∧
        (output.run g).scrollback = (g.pushScrollback line).scrollback) := by
  have total := rowed.lines_length
  cases output with
  | set x y cell =>
    have same := set_sameIds g x y cell
    refine ⟨⟨fun id member => .inl (same.screen ▸ member), same.next.ge, same.limit, ?_⟩, .inl ?_⟩
    · rw [Output.run, set_frame]
    · rw [Output.run, set_frame]
  | scrollUp blank =>
    by_cases tall : 0 < g.height
    · obtain ⟨effect, pushed⟩ := scrollUp_effect rowed tall blank
      exact ⟨effect, .inr ⟨tall, pushed⟩⟩
    · have empty : g.lines = [] := List.eq_nil_of_length_eq_zero (by omega)
      rw [Output.run, Grid.scrollUp, empty]
      exact ⟨.refl g, .inl rfl⟩
  | scrollRegionUp top bottom blank =>
    by_cases anchored : top = 0 ∧ bottom < g.height
    · obtain ⟨rfl, inside⟩ := anchored
      rw [Output.run, Grid.scrollRegionUp]
      by_cases whole : bottom = g.height - 1
      · rw [scrollRegionUpInner, if_neg (by omega), if_pos ⟨rfl, rfl, whole⟩]
        obtain ⟨effect, pushed⟩ := scrollUp_effect rowed (by omega) blank
        exact ⟨effect, .inr ⟨⟨rfl, inside⟩, pushed⟩⟩
      · rw [scrollRegionUpInner_region (by omega) inside (by simp [whole])]
        have top : g.lines[0]? = some g.lines[0] := List.getElem?_eq_getElem _
        refine ⟨regionScrolled_effect .., .inr ⟨⟨rfl, inside⟩, g.lines[0], ?_, ?_⟩⟩
        · rw [List.head?_eq_getElem?, top, Option.map_some]
        · rw [regionScrolled_scrollback, regionHistory, top]
          rfl
    · rw [Output.run, Grid.scrollRegionUp]
      by_cases zero : top = 0
      · rw [scrollRegionUpInner, if_pos (by omega)]
        exact ⟨.refl g, .inl rfl⟩
      · rw [beq_false_of_ne zero]
        obtain ⟨effect, same⟩ := scrollRegionUpDiscarding_effect top bottom blank 
        exact ⟨effect, .inl same⟩
  | scrollRegionUpDiscarding top bottom blank =>
    obtain ⟨effect, same⟩ := scrollRegionUpDiscarding_effect top bottom blank 
    exact ⟨effect, .inl same⟩
  | scrollRegionDown top bottom blank =>
    obtain ⟨-, same⟩ | ⟨-, -, same⟩ := g.scrollRegionDown_cases top bottom blank
    · rw [Output.run, same]
      exact ⟨.refl g, .inl rfl⟩
    · rw [Output.run, same]
      exact ⟨regionScrolled_effect .., .inl (regionScrolled_scrollback ..)⟩

/-- A program's output is something that is done to a grid. -/
theorem Output.run_step (u : Unicode) (g : Grid) (output : Output) : Step u g (output.run g) := by
  cases output with
  | set x y cell => exact .op .release (.set x y cell) trivial rfl
  | scrollUp blank => exact .op .release (.scrollUp blank) trivial rfl
  | scrollRegionUp top bottom blank => exact .op .release (.scrollRegionUp top bottom blank) trivial rfl
  | scrollRegionUpDiscarding top bottom blank =>
    exact .op .release (.scrollRegionUpDiscarding top bottom blank) trivial rfl
  | scrollRegionDown top bottom blank => exact .op .release (.scrollRegionDown top bottom blank) trivial rfl

/-- A history with room grows by a line, a full one loses its oldest line as well. -/
theorem pushScrollback_cases (bounded : g.scrollback.length ≤ g.scrollbackLimit) (line : Line) :
    (g.pushScrollback line).scrollback = g.scrollback ∧ g.scrollbackLimit = 0 ∨
      (g.pushScrollback line).scrollback = g.scrollback ++ [line] ∧ g.scrollback.length < g.scrollbackLimit ∨
        g.scrollback.length = g.scrollbackLimit ∧
          ∃ oldest rest, g.scrollback = oldest :: rest ∧ (g.pushScrollback line).scrollback = rest ++ [line] := by
  unfold pushScrollback
  split
  next none => exact .inl ⟨rfl, none⟩
  next some =>
  dsimp only
  by_cases room : g.scrollback.length < g.scrollbackLimit
  · refine .inr (.inl ⟨keepNewest_of_le ?_, room⟩)
    rw [List.length_append, List.length_singleton]
    omega
  · cases scrollback : g.scrollback with
    | nil =>
      rw [scrollback, List.length_nil] at room
      omega
    | cons oldest rest =>
      rw [scrollback, List.length_cons] at room bounded
      refine .inr (.inr ⟨by rw [List.length_cons]; omega, oldest, rest, rfl, ?_⟩)
      rw [keepNewest, List.cons_append, List.length_cons, List.length_append, List.length_singleton]
      rw [show rest.length + 1 + 1 - g.scrollbackLimit = 1 by omega]
      rfl

end Effects

section Ids

theorem firstLineId_of_history (some : g.scrollback ≠ []) : g.firstLineId = g.scrollback.head?.map Line.id := by
  unfold Grid.firstLineId
  cases scrollback : g.scrollback with
  | nil => exact absurd scrollback some
  | cons oldest rest => rfl

/-- A line that is gone does not come back. -/
theorem Output.gone (rowed : Rowed g) (output : Output) {id : ℕ} (gone : id ∉ g.lineIds)
    (early : id < g.nextLineId) : id ∉ (output.run g).lineIds ∧ id < (output.run g).nextLineId := by
  obtain ⟨effect, history⟩ := output.run_effect rowed
  refine ⟨fun member => ?_, Nat.lt_of_lt_of_le early effect.next⟩
  rw [lineIds, List.mem_append] at gone member
  obtain old | fresh := member
  · obtain same | ⟨-, line, top, pushed⟩ := history
    · exact gone (.inl (same ▸ old))
    · rw [pushed] at old
      have kept := ((g.pushScrollback_sublist line).map Line.id).subset old
      rw [List.map_append, List.mem_append, List.map_cons, List.map_nil, List.mem_singleton] at kept
      obtain older | rfl := kept
      · exact gone (.inl older)
      · rw [← List.head?_map] at top
        exact gone (.inr (List.mem_of_mem_head? top))
  · obtain old | late := effect.screen id fresh
    · exact gone (.inr old)
    · omega

/-- The line that a full history loses is gone. -/
theorem evicted_gone (identified : Identified g) (effect : Effect g g') {oldest line : Line} {rest : List Line}
    (history : g.scrollback = oldest :: rest) (top : g.lines.head?.map Line.id = some line.id)
    (moved : g'.scrollback = rest ++ [line]) : oldest.id ∉ g'.lineIds := by
  have distinct := identified.distinct
  rw [lineIds, history, List.map_cons, List.cons_append, List.nodup_cons, List.mem_append] at distinct
  have early := identified.below oldest.id (by rw [lineIds, history]; exact List.mem_cons_self ..)
  rw [← List.head?_map] at top
  intro member
  rw [lineIds, moved, List.map_append, List.mem_append, List.mem_append, List.map_cons, List.map_nil,
    List.mem_singleton] at member
  obtain (old | same) | screen := member
  · exact distinct.1 (.inl old)
  · exact distinct.1 (.inr (same ▸ List.mem_of_mem_head? top))
  · obtain old | late := effect.screen oldest.id screen
    · exact distinct.1 (.inr old)
    · omega

/-- After an eviction the second line is the oldest one. -/
theorem firstLineId_of_eviction {oldest line : Line} {rest : List Line} (history : g.scrollback = oldest :: rest)
    (top : g.lines.head?.map Line.id = some line.id) (moved : g'.scrollback = rest ++ [line]) :
    g'.firstLineId = g.lineId 1 := by
  rw [firstLineId_of_history (by rw [moved]; simp), moved, Grid.lineId, Grid.line, history]
  cases rest with
  | nil =>
    rw [List.head?_eq_getElem?] at top
    exact top.symm
  | cons second rest => rfl

end Ids

section Following

/-- Compensation without a freeze. -/
theorem syncHistory_live (live : s.frozen = none) (g' : Grid) : let e := s.evicted g'
    (s.syncHistory g').anchor = (s.anchor.bind fun anchor =>
      if e ≤ anchor.1 then some (anchor.1 - e, anchor.2) else none) ∧
    (s.syncHistory g').top = min (s.top - e) (g'.totalLines - s.height) ∧ (s.syncHistory g').frozen = none ∧
      (s.syncHistory g').firstLineId = g'.firstLineId ∧ (s.syncHistory g').height = s.height := by
  have shift (e line : ℕ) : s.shift e line = if e ≤ line then some (line - e) else none := by
    unfold CopyState.shift
    rw [live]
  have frozen (e : ℕ) : (s.evict e).frozen = none := by
    rw [CopyState.evict, live]
    rfl
  rw [syncHistory_eq]
  refine ⟨?_, ?_, frozen _, rfl, rfl⟩
  · change (s.evict _).anchor = _
    unfold CopyState.evict
    dsimp only
    congr 1
    funext anchor
    rw [shift]
    split <;> rfl
  · change min (s.evict _).top ((s.evict _).maxTop g') = _
    rw [CopyState.maxTop, CopyState.totalLines, frozen]
    congr 1
    change (s.shift _ s.top).getD 0 = _
    rw [shift]
    split
    · rfl
    next beyond => exact (Nat.sub_eq_zero_of_le (Nat.le_of_not_le beyond)).symm

/-- Either every line stays where it is, or the oldest one is lost and copy-mode notices. -/
inductive Moved (g : Grid) (s : CopyState) (g' : Grid) : Prop
  | stays (added : List Line) (history : g'.scrollback = g.scrollback ++ added)
      (shift : g.scrollback ≠ [] → s.evicted g' = 0)
  | evicts (oldest : Line) (rest : List Line) (line : Line) (before : g.scrollback = oldest :: rest)
      (after : g'.scrollback = rest ++ [line]) (shift : s.evicted g' = 1 ∨ rest = [] ∧ 0 < s.evicted g')
      (gone : oldest.id ∉ g'.lineIds)

theorem Following.moved (following : Following g s) (identified : Identified g) (rowed : Rowed g) {output : Output}
    (steady : output.Steady g) : Moved g s (output.run g) := by
  obtain ⟨effect, history⟩ := output.run_effect rowed
  have unmoved {added : List Line} (same : (output.run g).scrollback = g.scrollback ++ added)
      (some : g.scrollback ≠ []) : s.evicted (output.run g) = 0 := by
    have here := firstLineId_of_history some
    have there : (output.run g).firstLineId = g.firstLineId := by
      rw [here, firstLineId_of_history (by rw [same]; exact List.append_ne_nil_of_left_ne_nil some _), same,
        List.head?_append_of_ne_nil _ some]
    unfold CopyState.evicted
    rw [following.first, there]
    split
    next old new known same =>
      rw [known] at same
      rw [Option.some.inj same, Nat.sub_self]
    · rfl
  obtain same | ⟨departs, line, top, pushed⟩ := history
  · rw [← List.append_nil g.scrollback] at same
    exact .stays [] same (unmoved same)
  obtain ⟨same, -⟩ | ⟨same, -⟩ | ⟨full, oldest, rest, before, after⟩ := pushScrollback_cases identified.bounded line
  · rw [← pushed, ← List.append_nil g.scrollback] at same
    exact .stays [] same (unmoved same)
  · rw [← pushed] at same
    exact .stays [line] same (unmoved same)
  · rw [← pushed] at after
    refine .evicts oldest rest line before after ?_ (evicted_gone identified effect before top after)
    obtain ⟨next, second, later⟩ := steady departs full oldest (by rw [before]; rfl)
    have first : s.evicted (output.run g) = next - oldest.id := by
      rw [CopyState.evicted, following.first, firstLineId_of_history (by simp [before]), before,
        firstLineId_of_eviction before top after, second]
      rfl
    rw [first]
    obtain rfl | ⟨only, later⟩ := later
    · exact .inl (Nat.add_sub_cancel_left ..)
    · rw [before, List.length_cons] at only
      exact .inr ⟨List.eq_nil_of_length_eq_zero (by omega), by omega⟩

/-- What the anchor and the top named, and what became of these lines after one output. -/
theorem Following.step (following : Following g s) (identified : Identified g) (rowed : Rowed g) {output : Output}
    (steady : output.Steady g) : Following (output.run g) (s.syncHistory (output.run g)) ∧
    Follows g s (output.run g) (s.syncHistory (output.run g)) ∧
      ∀ line ∈ g.scrollback, line.id ∉ (output.run g).scrollback.map Line.id → line.id ∉ (output.run g).lineIds := by
  obtain ⟨effect, -⟩ := output.run_effect rowed
  have moved := following.moved identified rowed steady
  obtain ⟨anchor, top, live, first, height⟩ := syncHistory_live following.live (output.run g)
  have reaches {line : ℕ} (inside : line < (output.run g).scrollback.length) :
      min line ((output.run g).totalLines - s.height) = line := by
    rw [Grid.totalLines, effect.height, following.height]
    omega
  refine ⟨⟨live, first, by rw [height, following.height, effect.height]⟩, ?_⟩
  generalize output.run g = g' at moved anchor top reaches ⊢
  cases moved with
  | stays added history shift =>
    have known {line : Line} {a : ℕ} (read : g.scrollback[a]? = some line) :
        s.evicted g' = 0 ∧ g'.scrollback[a]? = some line ∧ line.id ∈ g'.scrollback.map Line.id := by
      have member := List.mem_of_getElem? read
      rw [history]
      exact ⟨shift (List.ne_nil_of_mem member), List.getElem?_append_left (List.getElem?_eq_some_iff.mp read).1 ▸ read,
        List.mem_map_of_mem (List.mem_append_left _ member)⟩
    refine ⟨⟨fun a x line named read _ => ?_, fun a x line _ read lost => ?_, fun line read _ => ?_⟩,
      fun line member lost => ?_⟩
    · obtain ⟨same, there, -⟩ := known read
      refine ⟨a, ?_, there⟩
      rw [anchor, named, same]
      rfl
    · exact absurd (known read).2.2 lost
    · obtain ⟨same, there, -⟩ := known read
      rw [top, same, Nat.sub_zero, reaches (List.getElem?_eq_some_iff.mp there).1]
      exact there
    · obtain ⟨a, read⟩ := List.getElem?_of_mem member
      exact absurd (known read).2.2 lost
  | evicts oldest rest line before after shift gone =>
    have distinct := identified.distinct
    have kept {line : Line} {a : ℕ} (read : g.scrollback[a + 1]? = some line) :
        s.evicted g' = 1 ∧ g'.scrollback[a]? = some line := by
      rw [before, List.getElem?_cons_succ] at read
      have inside := (List.getElem?_eq_some_iff.mp read).1
      rw [after, List.getElem?_append_left inside]
      refine ⟨shift.resolve_right fun alone => ?_, read⟩
      rw [alone.1, List.length_nil] at inside
      omega
    have late : 0 < s.evicted g' := by omega
    have oldest_lost : oldest.id ∉ g'.scrollback.map Line.id := fun member => gone (List.mem_append_left _ member)
    refine ⟨⟨fun a x line named read there => ?_, fun a x line named read lost => ?_, fun line read there => ?_⟩,
      fun line member lost => ?_⟩
    · cases a with
      | zero =>
        rw [before] at read
        obtain rfl := Option.some.inj read
        exact absurd there oldest_lost
      | succ a =>
        obtain ⟨one, there⟩ := kept read
        refine ⟨a, ?_, there⟩
        rw [anchor, named, one]
        rfl
    · cases a with
      | zero =>
        rw [anchor, named]
        exact if_neg (by omega)
      | succ a => exact absurd (List.mem_map_of_mem (List.mem_of_getElem? (kept read).2)) lost
    · rcases position : s.top with _ | a
      · rw [position, before] at read
        obtain rfl := Option.some.inj read
        exact absurd there oldest_lost
      · rw [position] at read
        obtain ⟨one, there⟩ := kept read
        rw [top, one, position, Nat.add_sub_cancel, reaches (List.getElem?_eq_some_iff.mp there).1]
        exact there
    · obtain ⟨a, read⟩ := List.getElem?_of_mem member
      cases a with
      | zero =>
        rw [before] at read
        obtain rfl := Option.some.inj read
        exact gone
      | succ a => exact absurd (List.mem_map_of_mem (List.mem_of_getElem? (kept read).2)) lost

theorem Following.run {u : Unicode} (reached : Reached u g) (following : Following g s) {outputs : List Output}
    (steady : SteadyRun g outputs) :
    Follows g s (follow (g, s) outputs).1 (follow (g, s) outputs).2 ∧
      (s.anchor = none → (follow (g, s) outputs).2.anchor = none) ∧
        ∀ id, id ∉ g.lineIds → id < g.nextLineId → id ∉ (follow (g, s) outputs).1.lineIds := by
  induction outputs generalizing g s with
  | nil =>
    refine ⟨⟨fun a x line named read _ => ⟨a, named, read⟩, fun a x line _ read lost => ?_, fun line read _ => read⟩,
      id, fun id gone _ => gone⟩
    exact absurd (List.mem_map_of_mem (List.mem_of_getElem? read)) lost
  | cons output rest ih =>
    have identified := reached.identified
    have rowed := reached.presentable.toRowed
    obtain ⟨next, first, lost⟩ := following.step identified rowed steady.1
    obtain ⟨later, clear, gone⟩ := ih (reached.step (output.run_step u g)) next steady.2
    -- A line that is found in the end was there after the first output.
    have there {line : Line} {a : ℕ} (read : g.scrollback[a]? = some line)
        (found : line.id ∈ (follow (g, s) (output :: rest)).1.scrollback.map Line.id) :
        line.id ∈ (output.run g).scrollback.map Line.id := by
      by_contra missing
      have member := List.mem_of_getElem? read
      have early := identified.below line.id (List.mem_append_left _ (List.mem_map_of_mem member))
      exact gone line.id (lost line member missing) (Nat.lt_of_lt_of_le early (output.run_effect rowed).1.next)
        (List.mem_append_left _ found)
    refine ⟨⟨fun a x line named read found => ?_, fun a x line named read missing => ?_, fun line read found => ?_⟩,
      fun none => ?_, fun id absent early => ?_⟩
    · obtain ⟨a', named', read'⟩ := first.anchor a x line named read (there read found)
      exact later.anchor a' x line named' read' found
    · by_cases kept : line.id ∈ (output.run g).scrollback.map Line.id
      · obtain ⟨a', named', read'⟩ := first.anchor a x line named read kept
        exact later.cleared a' x line named' read' missing
      · exact clear (first.cleared a x line named read kept)
    · exact later.top line (first.top line read (there read found)) found
    · refine clear ?_
      rw [(syncHistory_live following.live _).1, none]
      rfl
    · obtain ⟨absent', early'⟩ := output.gone rowed absent early
      exact gone id absent' early'

/-- In a run of steady outputs the anchor and the viewport keep to their lines, and an evicted anchor is dropped. -/
theorem follow_follows {u : Unicode} (reached : Reached u g) (following : Following g s) {outputs : List Output}
    (steady : SteadyRun g outputs) : Follows g s (follow (g, s) outputs).1 (follow (g, s) outputs).2 :=
  (following.run reached steady).1

/-- A screen of two rows over a full history of two lines, the second of which is selected. -/
def scrolledGrid : Grid := (((Grid.new 1 2).setScrollbackLimit 2).scrollUp {}).scrollUp {}

def scrolledCopy : CopyState := { CopyState.new scrolledGrid ⟨0, 0, 1, 2⟩ with anchor := some (1, 0) }

theorem follow_follows_scrolled : Follows scrolledGrid scrolledCopy
    (follow (scrolledGrid, scrolledCopy) [.scrollUp {}]).1 (follow (scrolledGrid, scrolledCopy) [.scrollUp {}]).2 := by
  have start : Reached plainUnicode ((Grid.new 1 2).setScrollbackLimit 2) :=
    (Reached.new 1 2).step (.setScrollbackLimit ..)
  have reached : Reached plainUnicode scrolledGrid :=
    (start.step (Output.run_step _ _ (.scrollUp {}))).step (Output.run_step _ _ (.scrollUp {}))
  refine follow_follows reached ⟨rfl, rfl, rfl⟩ ⟨fun _ _ oldest found => ⟨2, by decide +kernel, .inl ?_⟩, trivial⟩
  have first : scrolledGrid.scrollback.head? = some { cells := [], id := 1 } := by decide +kernel
  rw [first] at found
  obtain rfl := Option.some.inj found
  rfl

/-- A screen of three rows over a history of at most three lines, which four scrolls of the upper two rows filled. -/
def gappedGrid : Grid :=
  ((((Grid.new 1 3).setScrollbackLimit 3).scrollRegionUp 0 1 {}).scrollRegionUp 0 1 {}).scrollRegionUp 0 1 {}
    |>.scrollRegionUp 0 1 {}

/-- Copy-mode on that screen, with the newest line of the history selected. -/
def gappedCopy : CopyState :=
  { CopyState.new gappedGrid ⟨0, 0, 1, 3⟩ with anchor := some (2, 0), top := 2 }

private theorem gappedGrid_reached (u : Unicode) : Reached u gappedGrid := by
  have start : Reached u ((Grid.new 1 3).setScrollbackLimit 3) := (Reached.new 1 3).step (.setScrollbackLimit ..)
  have scrolled {g : Grid} (reached : Reached u g) : Reached u (g.scrollRegionUp 0 1 {}) :=
    reached.step (Output.run_step u g (.scrollRegionUp 0 1 {}))
  exact scrolled (scrolled (scrolled (scrolled start)))

/-- A region scroll evicts one line, but the ids of the two oldest lines differ by two. -/
theorem not_follows_of_gap : ¬ ∀ (u : Unicode) g s outputs, Reached u g → Following g s →
    Follows g s (follow (g, s) outputs).1 (follow (g, s) outputs).2 := by
  intro claimed
  have follows := claimed plainUnicode gappedGrid gappedCopy [.scrollRegionUp 0 1 {}] (gappedGrid_reached _) ⟨rfl, rfl, rfl⟩
  have read : gappedGrid.scrollback[2]? = some { cells := [{}], id := 5 } := by decide +kernel
  have kept : 5 ∈ (follow (gappedGrid, gappedCopy) [.scrollRegionUp 0 1 {}]).1.scrollback.map Line.id := by
    decide +kernel
  have moved : (follow (gappedGrid, gappedCopy) [.scrollRegionUp 0 1 {}]).2.anchor = some (0, 0) := by decide +kernel
  obtain ⟨a', named, there⟩ := follows.anchor 2 0 _ rfl read kept
  rw [moved] at named
  obtain rfl := congrArg Prod.fst (Option.some.inj named)
  have other : (follow (gappedGrid, gappedCopy) [.scrollRegionUp 0 1 {}]).1.scrollback[0]? ≠
      some { cells := [{}], id := 5 } := by decide +kernel
  exact other there

end Following

end Uniterm.Model.Server
