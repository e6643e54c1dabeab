import Uniterm.Model.Text
import Mathlib.Data.List.DropRight
import Mathlib.Data.List.Infix

/-! # Scanning text

The string methods that the readers of screens and settings use.
-/

namespace Uniterm.Model.Text

/-- `str::trim_matches` for a class of characters. -/
def trimMatches (p : Char → Bool) (text : Text) : Text := (text.dropWhile p).rdropWhile p

/-- `str::trim`. -/
def trim (text : Text) : Text := text.trimMatches isWhitespace

/-- `str::trim_end`. -/
def trimEnd (text : Text) : Text := text.rdropWhile isWhitespace

/-- `str::find` for a string: the byte offset of its first occurrence. -/
def find (pattern : Text) : Text → Option ℕ
  | [] => if pattern.isEmpty then some 0 else none
  | c :: rest => if pattern.isPrefixOf (c :: rest) then some 0 else (find pattern rest).map (c.utf8Size + ·)

/-- `str::split_once` for a string. -/
def splitOnce : Text → Text → Option (Text × Text)
  | [], separator => if separator.isEmpty then some ([], []) else none
  | c :: rest, separator =>
    if separator.isPrefixOf (c :: rest) then some ([], (c :: rest).drop separator.length)
    else (splitOnce rest separator).map fun halves => (c :: halves.1, halves.2)

/-- `str::contains` for a string. -/
def contains (text needle : Text) : Bool := decide (needle <:+: text)

/-- One line without its `\r`. -/
def stripReturn (line : Text) : Text := if line.getLast? = some '\r' then line.dropLast else line

/-- The lines from the characters of a line that is being read. -/
def linesFrom (line : Text) : Text → List Text
  | [] => if line.isEmpty then [] else [line]
  | c :: rest => if c = '\n' then stripReturn line :: linesFrom [] rest else linesFrom (line ++ [c]) rest

/-- `str::lines`: a line ends with `\n` or `\r\n`, the last one may lack it. -/
def lines (text : Text) : List Text := linesFrom [] text

end Uniterm.Model.Text
