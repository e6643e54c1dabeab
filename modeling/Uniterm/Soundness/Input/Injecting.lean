import Uniterm.Model.Server.Delivery
import Uniterm.Soundness.Input.Pasting

/-! # Text between the markers of a paste

The markers around a text keep it inside a paste unless the text closes the paste itself.
-/

namespace Uniterm.Model.Input

open Model Server

/-- A text and its Enter, read from outside a paste: every byte of the text belongs to the paste, nothing else does
but the markers, and the paste is closed when Enter comes and at the end. -/
structure Contained (text : Text) (submit : Bool) : Prop where
  pasted : ∀ seen byte rest, text.bytes = seen ++ byte :: rest →
    (KeyboardInput.observed {} (pasteStart ++ seen)).pasting = true ∧
      ((KeyboardInput.observed {} (pasteStart ++ seen)).observeByte byte).2 = true
  closed : (KeyboardInput.observed {} (pasteInput text true submit)).pasting = false
  /-- Bytes read outside the paste are the markers and Enter. -/
  outside : ∀ seen byte later, pasteInput text true submit = seen ++ byte :: later →
    (KeyboardInput.observed {} seen).pasting = false →
      (∃ before, pasteStart = seen ++ byte :: before) ∨
      (∃ before after, pasteEnd = before ++ byte :: after ∧ seen = pasteStart ++ text.bytes ++ before) ∨
      submit = true ∧ byte = 0x0d ∧ seen = pasteStart ++ text.bytes ++ pasteEnd
  enter : (KeyboardInput.observed {} (pasteStart ++ text.bytes ++ pasteEnd)).pasting = false

section Streams

variable {stream bytes : Bytes}

private theorem observed_pasting (stream : Bytes) : (KeyboardInput.observed {} stream).pasting = pasting stream :=
  (follows_nil.observes stream).pasting

private theorem pasting_start : pasting pasteStart = true := by decide

/-- No end marker begins inside the start marker. -/
theorem ended_behind_start (seen : Bytes) : pasteEnd <:+ pasteStart ++ seen ↔ pasteEnd <:+ seen := by
  constructor
  · intro ended
    rcases Nat.lt_or_ge seen.length 6 with short | long
    swap
    · exact List.suffix_of_suffix_length_le ended (List.suffix_append ..) long
    exfalso
    have cut : pasteEnd = (pasteStart ++ seen).drop seen.length := by
      have dropped := List.suffix_iff_eq_drop.mp ended
      rwa [List.length_append, show pasteStart.length = pasteEnd.length from rfl, Nat.add_sub_cancel_left] at dropped
    have head : pasteEnd[0]? = pasteStart[seen.length]? := by
      rw [cut, List.getElem?_drop, Nat.add_zero, List.getElem?_append_left short]
    have zero : seen.length = 0 := by
      by_contra positive
      exact awaited_headOnce false seen.length (Nat.pos_of_ne_zero positive) short (head.symm.trans rfl)
    rw [List.eq_nil_of_length_eq_zero zero] at cut
    exact absurd cut (by decide)
  · exact fun ended => ended.trans (List.suffix_append ..)

/-- A paste stays open exactly as long as no end marker was read. -/
theorem pasting_behind_start (seen : Bytes) :
    (∀ part, part <+: seen → pasting (pasteStart ++ part) = true) ↔ ¬ pasteEnd <:+: seen := by
  induction seen using List.reverseRecOn with
  | nil =>
    refine iff_of_true (fun part empty => ?_) (by decide)
    rw [List.prefix_nil.mp empty, List.append_nil]
    exact pasting_start
  | append_singleton seen byte ih =>
    have step (opened : pasting (pasteStart ++ seen) = true) :
        pasting (pasteStart ++ (seen ++ [byte])) = true ↔ ¬ pasteEnd <:+ seen ++ [byte] := by
      rw [← List.append_assoc, pasting_concat, if_pos opened, Bool.not_eq_true', ← Bool.not_eq_true,
        List.isSuffixOf_iff_suffix, List.append_assoc, ended_behind_start]
    rw [List.infix_concat_iff, not_or, ← ih]
    constructor
    · intro opened
      have earlier : ∀ part, part <+: seen → pasting (pasteStart ++ part) = true := fun part begins =>
        opened part (begins.trans (List.prefix_append ..))
      exact ⟨(step (earlier seen List.prefix_rfl)).mp (opened _ List.prefix_rfl), earlier⟩
    · rintro ⟨unended, earlier⟩ part begins
      rcases List.prefix_concat_iff.mp begins with rfl | begins
      · exact (step (earlier seen List.prefix_rfl)).mpr unended
      · exact earlier part begins

/-- The end marker closes a paste, and opens none. -/
theorem pasting_end (stream : Bytes) : pasting (stream ++ pasteEnd) = false := by
  have split : stream ++ pasteEnd = stream ++ [0x1b, 0x5b, 0x32, 0x30, 0x31] ++ [0x7e] := by simp [pasteEnd]
  rw [split, pasting_concat]
  split
  · rw [Bool.not_eq_false', List.isSuffixOf_iff_suffix]
    exact ⟨stream, by simp [pasteEnd]⟩
  · rw [Bool.eq_false_iff, Ne, List.isSuffixOf_iff_suffix]
    intro started
    have same := List.suffix_of_suffix_length_le started (⟨stream, by simp [pasteEnd]⟩ : pasteEnd <:+ _) le_rfl
    exact absurd same (by decide)

end Streams

private theorem pasteInput_bracketed {text : Text} (nonempty : text ≠ []) (submit : Bool) :
    pasteInput text true submit = pasteStart ++ text.bytes ++ pasteEnd ++ if submit then [0x0d] else [] := by
  unfold pasteInput
  rw [if_pos ⟨rfl, by simpa using nonempty⟩, if_pos ⟨rfl, by simpa using nonempty⟩]
  rfl

theorem bytes_ne_nil {text : Text} (nonempty : text ≠ []) : text.bytes ≠ [] := by
  obtain ⟨c, rest, rfl⟩ := List.exists_cons_of_ne_nil nonempty
  refine List.ne_nil_of_length_pos ?_
  rw [Text.bytes, List.flatMap_cons, List.length_append, String.length_utf8EncodeChar]
  exact Nat.add_pos_left c.utf8Size_pos _

/-- A symbol of a concatenation is in its first part or in its second. -/
theorem cut_append {seen later first second : Bytes} {byte : UInt8} (cut : first ++ second = seen ++ byte :: later) :
    (∃ before, first = seen ++ byte :: before) ∨ ∃ before, seen = first ++ before ∧ second = before ++ byte :: later := by
  rcases List.append_eq_append_iff.mp cut with ⟨before, rfl, whole⟩ | ⟨before, rfl, whole⟩
  · exact .inr ⟨before, rfl, whole⟩
  · cases before with
    | nil => exact .inr ⟨[], by simp, by simpa using whole.symm⟩
    | cons other before =>
      obtain ⟨rfl, -⟩ := List.cons.inj whole
      exact .inl ⟨before, rfl⟩

/-- The bytes before the last one are open exactly when all of them follow an open paste. -/
theorem pasted_iff {bytes : Bytes} (nonempty : bytes ≠ []) :
    (∀ seen byte rest, bytes = seen ++ byte :: rest → pasting (pasteStart ++ seen) = true) ↔
      ¬ pasteEnd <:+: bytes.dropLast := by
  rw [← pasting_behind_start]
  constructor
  · intro opened part begins
    obtain ⟨more, whole⟩ := begins
    cases split : more ++ [bytes.getLast nonempty] with
    | nil => exact absurd split (by simp)
    | cons byte rest =>
      refine opened part byte rest ?_
      rw [← split, ← List.append_assoc, whole, List.dropLast_append_getLast]
  · rintro opened seen byte rest rfl
    refine opened seen ?_
    rw [List.dropLast_append_cons]
    exact List.prefix_append ..

/-- A text stays inside its paste exactly when it does not end the paste before its own end. -/
theorem contained_iff {text : Text} (nonempty : text ≠ []) (submit : Bool) :
    Contained text submit ↔ ¬ pasteEnd <:+: text.bytes.dropLast := by
  rw [← pasted_iff (bytes_ne_nil nonempty)]
  constructor
  · intro contained seen byte rest cut
    rw [← observed_pasting]
    exact (contained.pasted seen byte rest cut).1
  · intro opened
    have closed := pasting_end (pasteStart ++ text.bytes)
    refine ⟨fun seen byte rest cut => ?_, ?_, fun seen byte later cut unpasted => ?_, ?_⟩
    · have inside := (observed_pasting _).trans (opened seen byte rest cut)
      exact ⟨inside, observeByte_pasting byte inside⟩
    · rw [observed_pasting, pasteInput_bracketed nonempty]
      refine pasting_quiet closed fun byte member => ?_
      split at member
      · rw [List.mem_singleton.mp member]
        decide
      · cases member
    · rw [observed_pasting] at unpasted
      rw [pasteInput_bracketed nonempty, List.append_assoc, List.append_assoc] at cut
      rcases cut_append cut with ⟨before, start⟩ | ⟨before, rfl, inner⟩
      · exact .inl ⟨before, start⟩
      rcases cut_append inner with ⟨after, inText⟩ | ⟨before', rfl, tail⟩
      · exact absurd (opened before byte after inText) (by rw [unpasted]; exact Bool.false_ne_true)
      rcases cut_append tail with ⟨after, inEnd⟩ | ⟨before, rfl, last⟩
      · exact .inr (.inl ⟨before', after, inEnd, (List.append_assoc ..).symm⟩)
      · refine .inr (.inr ?_)
        cases submit with
        | false => exact absurd last.symm (List.append_ne_nil_of_right_ne_nil _ (List.cons_ne_nil _ _))
        | true =>
          obtain ⟨rfl, single⟩ | ⟨-, none⟩ := List.append_eq_singleton_iff.mp last.symm
          · obtain ⟨rfl, -⟩ := List.cons.inj single
            exact ⟨rfl, rfl, by simp⟩
          · nomatch none
    · rw [observed_pasting]
      exact closed

/-- A text that holds the end marker, and is otherwise accepted as an answer: what follows the marker is typed. -/
theorem not_contained_of_marker : ∃ text : Text, text ≠ [] ∧ text.isBlank = false ∧ answerText text = text ∧
    ∀ submit, ¬ Contained text submit := by
  refine ⟨"\x1b[201~x".toList, by decide, by decide, by decide, fun submit contained => ?_⟩
  have outside := (contained_iff (by decide) submit).mp contained
  exact outside (by decide)

theorem contained_newline : Contained "a\n\x1b[201".toList true ↔ ¬ pasteEnd <:+: (Text.bytes "a\n\x1b[201".toList).dropLast :=
  contained_iff (by decide) true

end Uniterm.Model.Input
