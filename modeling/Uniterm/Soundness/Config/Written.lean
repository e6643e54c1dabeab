import Uniterm.Soundness.Config.Judgement
import Uniterm.Soundness.Terminal.Style

/-! # Written values

A free-text value with a `#` is written quoted and always comes back; one without is written as it stands, and comes
back when it has no blanks around it and does not look quoted.
-/

namespace Uniterm.Model.Config

section Blanks

/-- A text whose first and last characters are no blanks. -/
theorem trim_ends {first last : Char} (kept_first : isWhitespace first = false) (kept_last : isWhitespace last = false)
    (middle : Text) : Text.trim (first :: middle ++ [last]) = first :: middle ++ [last] := by
  rw [Text.trim, Text.trimMatches, List.cons_append, List.dropWhile_cons_of_neg (by simp [kept_first]),
    ← List.cons_append, List.rdropWhile_concat_neg _ _ _ (by simp [kept_last])]

end Blanks

section Values

/-- The comment of a value is cut at its end. -/
theorem stripCommentFrom_sublist (quoted : Bool) (value : Text) : (stripCommentFrom quoted value).Sublist value := by
  fun_induction stripCommentFrom quoted value with
  | case1 => exact .slnil
  | case2 c => exact .refl _
  | case3 quoted c d rest escaped ih => exact (ih.cons_cons d).cons_cons c
  | case4 quoted c d rest _ _ _ => exact List.nil_sublist _
  | case5 quoted c d rest _ _ _ ih => exact ih.cons_cons c

private theorem stripCommentFrom_self {value : Text} (clear : '#' ∉ value) (quoted : Bool) :
    stripCommentFrom quoted value = value := by
  fun_induction stripCommentFrom quoted value with
  | case1 => rfl
  | case2 c => rfl
  | case3 quoted c d rest escaped ih =>
    rw [ih fun member => clear (List.mem_cons_of_mem _ (List.mem_cons_of_mem _ member))]
  | case4 quoted c d rest _ _ cut => exact absurd (by simp [cut.2.2]) clear
  | case5 quoted c d rest _ _ _ ih => rw [ih fun member => clear (List.mem_cons_of_mem _ member)]

private theorem unescapeQuoted_sublist (body : Text) : (unescapeQuoted body).Sublist body := by
  fun_induction unescapeQuoted body with
  | case1 => exact .slnil
  | case2 c => exact .refl _
  | case3 rest ih => exact (ih.cons_cons _).cons _
  | case4 rest _ ih => exact (ih.cons_cons _).cons _
  | case5 d rest _ _ ih => exact (ih.cons_cons _).cons_cons _
  | case6 c d rest _ ih => exact ih.cons_cons c

/-- A quoted value is its body between quotes. -/
theorem quotedBody_eq_some {raw body : Text} (quoted : quotedBody raw = some body) : raw = '"' :: body ++ ['"'] := by
  unfold quotedBody at quoted
  split at quoted
  case h_1 rest =>
    rw [Option.ite_none_right_eq_some, Option.some.injEq] at quoted
    obtain ⟨⟨closes, -⟩, rfl⟩ := quoted
    rw [List.cons_append, List.dropLast_append_getLast? _ closes]
  case h_2 => contradiction

/-- A value that reads as itself: no blanks around it, no quotes and no comment. -/
theorem configValue_eq_self {value : Text} : configValue value = value ↔
    value.trim = value ∧ quotedBody value = none ∧ stripInlineComment value = value := by
  constructor
  · intro same
    have lengths := congrArg List.length same
    have shorter : value.trim.length ≤ value.length := (trim_sublist value).length_le
    rw [configValue] at lengths
    cases quoted : quotedBody value.trim with
    | some body =>
      have between := congrArg List.length (quotedBody_eq_some quoted)
      have inner := (unescapeQuoted_sublist body).length_le
      rw [quoted] at lengths
      simp only [List.length_append, List.length_cons, List.length_nil] at between lengths
      omega
    | none =>
      rw [quoted] at lengths
      dsimp only at lengths
      have stripped := (stripCommentFrom_sublist false value.trim).length_le
      have trimmed := (trim_sublist (stripInlineComment value.trim)).length_le
      rw [stripInlineComment] at trimmed lengths
      have whole : value.trim = value := (trim_sublist value).eq_of_length (by omega)
      rw [whole] at quoted stripped trimmed lengths
      exact ⟨whole, quoted, (stripCommentFrom_sublist false value).eq_of_length (by omega)⟩
  · rintro ⟨whole, quoted, stripped⟩
    rw [configValue, whole, quoted]
    dsimp only
    rw [stripped, whole]

/-- A backslash in front of a quote and of a backslash. -/
def escaped (value : Text) : Text := replaceChar (replaceChar value '\\' ['\\', '\\']) '"' ['\\', '"']

private theorem escaped_append (before after : Text) : escaped (before ++ after) = escaped before ++ escaped after := by
  simp [escaped, replaceChar]

private theorem escaped_backslash : escaped ['\\'] = ['\\', '\\'] := by decide

private theorem escaped_quote : escaped ['"'] = ['\\', '"'] := by decide

private theorem escaped_other {c : Char} (no_backslash : c ≠ '\\') (no_quote : c ≠ '"') : escaped [c] = [c] := by
  simp [escaped, replaceChar, no_backslash, no_quote]

/-- Undoing the escapes of an escaped value. -/
theorem unescapeQuoted_escaped (value : Text) : unescapeQuoted (escaped value) = value := by
  induction value with
  | nil => rfl
  | cons c rest ih =>
    rw [← List.singleton_append, escaped_append]
    by_cases is_backslash : c = '\\'
    · subst is_backslash
      rw [escaped_backslash]
      simp [unescapeQuoted, ih]
    by_cases is_quote : c = '"'
    · subst is_quote
      rw [escaped_quote]
      simp [unescapeQuoted, ih]
    rw [escaped_other is_backslash is_quote, List.singleton_append, List.singleton_append]
    cases tail : escaped rest with
    | nil =>
      rw [tail] at ih
      rw [← ih]
      rfl
    | cons d more =>
      rw [unescapeQuoted, if_neg is_backslash, ← tail, ih]

/-- An escaped value ends with pairs of backslashes. -/
theorem escaped_pairs (value : Text) : ((escaped value).reverse.takeWhile (· = '\\')).length % 2 = 0 := by
  induction value using List.reverseRecOn with
  | nil => rfl
  | append_singleton before c ih =>
    rw [escaped_append, List.reverse_append]
    by_cases is_backslash : c = '\\'
    · subst is_backslash
      rw [escaped_backslash]
      simpa [Nat.add_assoc] using ih
    by_cases is_quote : c = '"'
    · subst is_quote
      rw [escaped_quote]
      rfl
    · rw [escaped_other is_backslash is_quote]
      simp [is_backslash]

private theorem configValue_quoted (value : Text) : configValue ('"' :: escaped value ++ ['"']) = value := by
  have whole : Text.trim ('"' :: escaped value ++ ['"']) = '"' :: escaped value ++ ['"'] :=
    trim_ends (by decide) (by decide) _
  have body : quotedBody ('"' :: (escaped value ++ ['"'])) = some (escaped value) := by
    rw [quotedBody, List.getLast?_concat, List.dropLast_concat, if_pos ⟨rfl, escaped_pairs value⟩]
  rw [configValue, whole, List.cons_append, body]
  exact unescapeQuoted_escaped value

/-- A free-text value that its written form brings back. -/
def Writable (value : Text) : Prop := '#' ∈ value ∨ value.trim = value ∧ quotedBody value = none

theorem configValue_text_iff {value : Text} : configValue (configValueText value) = value ↔ Writable value := by
  rw [configValueText, Writable]
  split_ifs with hashed
  · exact iff_of_true (configValue_quoted value) (.inl hashed)
  · rw [configValue_eq_self]
    simp [hashed, stripInlineComment, stripCommentFrom_self hashed]

end Values

end Uniterm.Model.Config
