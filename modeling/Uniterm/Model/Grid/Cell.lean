import Mathlib.Data.Nat.Basic
import Uniterm.Model.Text

/-! # Terminal cells

A cell carries its own codepoint, its style and three handles into the arenas of its grid. Lead
cells have width one or two, continuations have width zero. Counters and handles are natural
numbers; attributes keep the bit layout of the source.
-/

namespace Uniterm.Model

/-- A cell colour: the terminal default, a palette index, or 24-bit colour. -/
inductive Color where
  | default
  | idx (n : UInt8)
  | rgb (r g b : UInt8)
deriving DecidableEq, Repr, Inhabited

/-- Cell attributes packed into two bytes. -/
abbrev Attrs := BitVec 16

namespace Attrs

def none : Attrs := 0
def bold : Attrs := 1#16
def underline : Attrs := 2#16
def reverse : Attrs := 4#16
def dim : Attrs := 8#16
def italic : Attrs := 16#16
def blink : Attrs := 32#16
def invisible : Attrs := 64#16
def strike : Attrs := 128#16
def underlineStyleMask : Attrs := 2#16 ||| 256#16 ||| 512#16

end Attrs

/-- The underline shape selected by `SGR 4` or one of its subparameters. -/
inductive UnderlineStyle where
  | none | single | double | curly | dotted | dashed
deriving DecidableEq, Repr, Inhabited

namespace UnderlineStyle

/-- The discriminant of the source's enumeration. -/
def code : UnderlineStyle → BitVec 16
  | none => 0 | single => 1 | double => 2 | curly => 3 | dotted => 4 | dashed => 5

end UnderlineStyle

/-- Decode the extended underline style packed into the attribute bits. -/
def Attrs.underlineStyle (attrs : Attrs) : UnderlineStyle :=
  let encoded := ((attrs >>> 1) &&& 1) ||| ((attrs >>> 7) &&& 2) ||| ((attrs >>> 7) &&& 4)
  if encoded = 1 then .single
  else if encoded = 2 then .double
  else if encoded = 3 then .curly
  else if encoded = 4 then .dotted
  else if encoded = 5 then .dashed
  else .none

/-- Replace only the underline style, preserving every other attribute. -/
def Attrs.setUnderlineStyle (attrs : Attrs) (style : UnderlineStyle) : Attrs :=
  (attrs &&& ~~~Attrs.underlineStyleMask) ||| ((style.code &&& 1) <<< 1) |||
    ((style.code &&& 2) <<< 7) ||| ((style.code &&& 4) <<< 7)

/-- One compact terminal cell. -/
structure Cell where
  ch : Char := ' '
  fg : Color := .default
  bg : Color := .default
  attrs : Attrs := Attrs.none
  width : ℕ := 1
  /-- Handle of the underline colour, zero for the terminal default. -/
  underlineColor : ℕ := 0
  /-- Handle of the grapheme text, zero when `ch` is the complete glyph. -/
  cluster : ℕ := 0
  /-- Handle of the hyperlink target, zero for ordinary text. -/
  hyperlink : ℕ := 0
deriving DecidableEq, Repr

namespace Cell

def isContinuation (c : Cell) : Bool := c.width == 0

/-- Display width of a glyph lead, or zero for a continuation. -/
def displayWidth (c : Cell) : ℕ := if c.isContinuation then 0 else max c.width 1

/-- The trailing cell of a wide glyph with the given lead. -/
def continuation (lead : Cell) : Cell :=
  { lead with ch := ' ', width := 0, cluster := 0 }

end Cell

/-- The Unicode tables the emulator consults: display widths and grapheme segmentation. -/
structure Unicode where
  charWidth : Char → Option ℕ
  strWidth : Text → ℕ
  graphemes : Text → ℕ

/-- Display width of a glyph, forced to one or two columns. -/
def Unicode.glyphWidth (u : Unicode) (text : Text) : ℕ := max 1 (min (u.strWidth text) 2)

/-- The replacement character shown for text that cannot be. -/
def replacement : Char := '\uFFFD'

end Uniterm.Model
