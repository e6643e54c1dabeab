import Uniterm.Model.Config.Theme
import Uniterm.Model.Utf8

/-! # Values of settings

The right-hand side of a setting has two forms: one double-quoted string with escapes, which the settings writer uses,
and verbatim text whose inline comment is cut. Settings read numbers, switches, keys and colours from the value.
-/

namespace Uniterm.Model.Config

section Forms

/-- `u8::is_ascii_whitespace`. -/
def isAsciiWhitespace (c : Char) : Bool := c == ' ' || c == '\t' || c == '\n' || c == '\x0c' || c == '\r'

/-- The text in front of an inline comment; a `#` inside quotes begins none. -/
def stripCommentFrom (quoted : Bool) : Text → Text
  | [] => []
  | [c] => [c]
  | c :: d :: rest =>
    -- inside quotes `\"` is an escaped quote
    if quoted ∧ c = '\\' then c :: d :: stripCommentFrom quoted rest
    else
      let quoted := if c = '"' then !quoted else quoted
      if ¬ quoted ∧ isAsciiWhitespace c ∧ d = '#' then [] else c :: stripCommentFrom quoted (d :: rest)

def stripInlineComment (value : Text) : Text := stripCommentFrom false value

/-- Undo the two escapes of the quoted form; any other backslash is literal. -/
def unescapeQuoted : Text → Text
  | [] => []
  | [c] => [c]
  | c :: d :: rest =>
    if c = '\\' then
      if d = '"' then '"' :: unescapeQuoted rest
      else if d = '\\' then '\\' :: unescapeQuoted rest
      else '\\' :: d :: unescapeQuoted rest
    else c :: unescapeQuoted (d :: rest)

/-- What stands between the quotes of a value that is one quoted string. -/
def quotedBody (raw : Text) : Option Text :=
  match raw with
  | '"' :: rest =>
    if rest.getLast? = some '"' ∧ (rest.dropLast.reverse.takeWhile (· = '\\')).length % 2 = 0 then
      some rest.dropLast
    else none
  | _ => none

/-- The effective value of the right-hand side of a line. -/
def configValue (raw : Text) : Text :=
  let raw := raw.trim
  match quotedBody raw with
  | some body => unescapeQuoted body
  | none => (stripInlineComment raw).trim

/-- `str::replace` for a character. -/
def replaceChar (text : Text) (c : Char) (other : Text) : Text :=
  text.flatMap fun d => if d = c then other else [d]

/-- A free-text value, quoted when it contains a `#`. -/
def configValueText (value : Text) : Text :=
  if '#' ∈ value then
    '"' :: replaceChar (replaceChar value '\\' ['\\', '\\']) '"' ['\\', '"'] ++ ['"']
  else value

end Forms

section Readings

def parseBoolChecked (value : Text) : Option Bool :=
  match String.ofList (asciiLower value) with
  | "on" | "true" | "yes" | "1" => some true
  | "off" | "false" | "no" | "0" => some false
  | _ => none

/-- `from_str` of an unsigned type below a bound. -/
def parseBelow (bound : ℕ) (text : Text) : Option ℕ :=
  let digits := if text.head? = some '+' then text.tail else text
  if digits.isEmpty ∨ ¬ digits.all Char.isDigit then none
  else
    let value := digits.foldl (fun n c => n * 10 + (c.toNat - '0'.toNat)) 0
    if value < bound then some value else none

/-- `str::eq_ignore_ascii_case`. -/
def eqIgnoreAsciiCase (value : Text) (other : String) : Bool := asciiLower value == asciiLower other.toList

/-- A key spec such as `C-a`, as its control byte. Only the first letter counts. -/
def parseKey (s : Text) : Option UInt8 :=
  match s.trim with
  | 'C' :: '-' :: ch :: _ | 'c' :: '-' :: ch :: _ =>
    if ch.isAlpha then some (UInt8.ofNat (ch.toLower.toNat % 32)) else none
  | _ => none

def parseBindingKey (value : Text) : Option UInt8 :=
  let value := value.trim
  if eqIgnoreAsciiCase value "space" then some 0x20
  else
    match value with
    | [c] => if c.utf8Size = 1 then some (UInt8.ofNat c.toNat) else parseKey value
    | _ => parseKey value

def bindingActions : List String :=
  ["none", "detach", "split-right", "split-down", "focus-left", "focus-right", "focus-up", "focus-down",
    "resize-left", "resize-right", "resize-up", "resize-down", "zoom", "kill-pane", "new-tab", "next-tab",
    "previous-tab", "move-tab-left", "today", "move-tab-right", "kill-tab", "overview", "copy-mode", "files",
    "sidebar", "observatory", "new-task", "tasks", "agents", "rename-tab", "rename-workspace", "menu",
    "workspaces", "settings", "projects", "new-project", "close-workspace"]

def isBindingAction (value : Text) : Bool := bindingActions.contains (String.ofList (asciiLower value.trim))

/-- Split at a byte offset, which aborts inside a character. -/
def splitAtByte : ℕ → Text → Option (Text × Text)
  | 0, text => some ([], text)
  | _ + 1, [] => none
  | n + 1, c :: rest =>
    if c.utf8Size ≤ n + 1 then (splitAtByte (n + 1 - c.utf8Size) rest).map fun (before, after) => (c :: before, after)
    else none

/-- `char::to_digit(16)`. -/
def hexValue (c : Char) : Option ℕ :=
  if c.isDigit then some (c.toNat - '0'.toNat)
  else if 'a' ≤ c ∧ c ≤ 'f' then some (c.toNat - 'a'.toNat + 10)
  else if 'A' ≤ c ∧ c ≤ 'F' then some (c.toNat - 'A'.toNat + 10)
  else none

/-- `u8::from_str_radix(_, 16)` of two bytes. -/
def parseHexByte (text : Text) : Option UInt8 :=
  let digits := if text.head? = some '+' then text.tail else text
  if digits.isEmpty then none
  else (digits.mapM hexValue).map fun values => UInt8.ofNat (values.foldl (fun n v => n * 16 + v) 0)

/-- A colour: `#rrggbb` or a palette index. A `#` in front of six bytes is sliced at the second and the fourth, which
aborts inside a character. -/
def parseColor (s : Text) : Option (Option Color) :=
  match s.trim with
  | '#' :: hex =>
    if Text.len hex = 6 then do
      let (r, rest) ← splitAtByte 2 hex
      match parseHexByte r with
      | none => return none
      | some r =>
        let (g, b) ← splitAtByte 2 rest
        return (parseHexByte g).bind fun g => (parseHexByte b).map fun b => .rgb r g b
    else some none
  | s => some ((parseU8 s).map .idx)

end Readings

end Uniterm.Model.Config
