import Mathlib.Data.List.Basic

/-! # How a shell splits a line

Unquoted blanks separate the words of a line, single quotes keep everything up to the next one, and a backslash
outside them keeps one character. A kept character is literal; every other one may still be expanded.
-/

namespace Uniterm.Posix

/-- Outside quotes, behind a backslash, or inside single quotes. -/
inductive Quoting where
  | none
  | backslash
  | single
deriving DecidableEq, Repr

/-- The characters of a word, and whether each of them is literal. -/
abbrev Word := List (Char × Bool)

def isBlank (c : Char) : Bool := c == ' ' || c == '\t'

/-- Split a line from a state on, with the word under construction. `none` is an unterminated quote. -/
def split : Quoting → Option Word → List Char → Option (List Word)
  | .none, word, [] => some word.toList
  | .backslash, _, [] => none
  | .single, _, [] => none
  | .none, word, c :: rest =>
    if c = '\'' then split .single (some (word.getD [])) rest
    else if c = '\\' then split .backslash word rest
    else if isBlank c then (split .none none rest).map (word.toList ++ ·)
    else split .none (some (word.getD [] ++ [(c, false)])) rest
  | .backslash, word, c :: rest =>
    -- A backslash joins the line to the next one.
    if c = '\n' then split .none word rest
    else split .none (some (word.getD [] ++ [(c, true)])) rest
  | .single, word, c :: rest =>
    if c = '\'' then split .none (some (word.getD [])) rest
    else split .single (some (word.getD [] ++ [(c, true)])) rest

/-- The words of a line. -/
def words (line : List Char) : Option (List Word) := split .none none line

/-- A word in which nothing is left to expand. -/
def literal (text : List Char) : Word := text.map (·, true)

variable {word : Option Word} {rest : List Char}

theorem split_open (word : Option Word) (rest : List Char) :
    split .none word ('\'' :: rest) = split .single (some (word.getD [])) rest := rfl

theorem split_closing (taken : Word) (rest : List Char) :
    split .single (some taken) ('\'' :: rest) = split .none (some taken) rest := rfl

/-- A quote that is closed, escaped and opened again is one literal quote. -/
theorem split_quote (taken : Word) (rest : List Char) :
    split .single (some taken) ('\'' :: '\\' :: '\'' :: '\'' :: rest) =
      split .single (some (taken ++ literal ['\''])) rest := rfl

theorem split_kept {c : Char} (other : c ≠ '\'') (taken : Word) (rest : List Char) :
    split .single (some taken) (c :: rest) = split .single (some (taken ++ literal [c])) rest := by
  rw [split, if_neg other]
  rfl

/-- A blank behind a word ends it. -/
theorem split_blank (taken : Word) (rest : List Char) :
    split .none (some taken) (' ' :: rest) = (split .none none rest).map (taken :: ·) := rfl

end Uniterm.Posix
