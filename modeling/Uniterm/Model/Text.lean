import Mathlib.Algebra.Ring.Nat
import Mathlib.Data.Char
import Mathlib.Data.List.Basic
import Mathlib.Data.List.Infix
import Mathlib.Data.List.Lex

/-! # Text as the sources measure it

A string is its list of Unicode scalar values. Lengths are in UTF-8 bytes, and the character
classes are the ones the sources ask for: `White_Space` (for `trim`) and `Cc` (for `is_control`).
-/

namespace Uniterm.Model

abbrev Text := List Char

instance : LawfulBEq Text := inferInstance

/-- The largest value of an unsigned 64-bit clock or deadline. -/
def u64Max : ℕ := 2 ^ 64 - 1

/-- `u64::saturating_add`. -/
def saturatingAdd64 (a b : ℕ) : ℕ := min (a + b) u64Max

/-- `str::len`: the UTF-8 byte length. -/
def Text.len (text : Text) : ℕ := (text.map Char.utf8Size).sum

/-- `char::is_control`: general category `Cc`. -/
def isControl (c : Char) : Bool := c.toNat < 0x20 || (0x7f ≤ c.toNat && c.toNat < 0xa0)

/-- `char::is_whitespace`: the `White_Space` property. -/
def isWhitespace (c : Char) : Bool :=
  (0x09 ≤ c.toNat && c.toNat ≤ 0x0d) || c.toNat == 0x20 || c.toNat == 0x85 || c.toNat == 0xa0 ||
  c.toNat == 0x1680 || (0x2000 ≤ c.toNat && c.toNat ≤ 0x200a) || c.toNat == 0x2028 ||
  c.toNat == 0x2029 || c.toNat == 0x202f || c.toNat == 0x205f || c.toNat == 0x3000

/-- `text.trim().is_empty()`. -/
def Text.isBlank (text : Text) : Bool := text.all isWhitespace

end Uniterm.Model
