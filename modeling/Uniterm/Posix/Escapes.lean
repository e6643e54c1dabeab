import Mathlib.Data.List.Basic

/-! # The escapes of `printf %b`

The operand of a `%b` conversion is expanded byte by byte. A backslash starts an escape, and `\0` takes up to three
octal digits, of which the low byte counts.
-/

namespace Uniterm.Posix

/-- Where the expansion is: outside an escape, behind a backslash, or among octal digits. -/
inductive Escape where
  | plain
  | backslash
  | octal (value : UInt8) (left : ℕ)
deriving DecidableEq, Repr

/-- The bytes that stand for themselves or for a control character behind a backslash. -/
def simpleEscape (byte : UInt8) : Option UInt8 :=
  if byte = 0x5c then some 0x5c -- \\
  else if byte = 0x61 then some 0x07 -- \a
  else if byte = 0x62 then some 0x08 -- \b
  else if byte = 0x66 then some 0x0c -- \f
  else if byte = 0x6e then some 0x0a -- \n
  else if byte = 0x72 then some 0x0d -- \r
  else if byte = 0x74 then some 0x09 -- \t
  else if byte = 0x76 then some 0x0b -- \v
  else none

def isOctal (byte : UInt8) : Bool := 0x30 ≤ byte && byte ≤ 0x37

def octalValue (byte : UInt8) : UInt8 := byte - 0x30

/-- Expand the escapes of an operand. `\c` drops the rest; an unknown escape stays as it is. -/
def expand : Escape → List UInt8 → List UInt8
  | .plain, [] => []
  | .plain, byte :: rest => if byte = 0x5c then expand .backslash rest else byte :: expand .plain rest
  | .backslash, [] => [0x5c]
  | .backslash, byte :: rest =>
    if byte = 0x30 then expand (.octal 0 3) rest
    else if byte = 0x63 then []
    else match simpleEscape byte with
      | some control => control :: expand .plain rest
      | none => 0x5c :: byte :: expand .plain rest
  | .octal value _, [] => [value]
  | .octal value left, byte :: rest =>
    if 0 < left ∧ isOctal byte then expand (.octal (value * 8 + octalValue byte) (left - 1)) rest
    else if byte = 0x5c then value :: expand .backslash rest
    else value :: byte :: expand .plain rest

/-- `printf '%b'`. -/
def printfB (operand : List UInt8) : List UInt8 := expand .plain operand

/-- `IFS= read -r`: the bytes before the first newline, as they are. -/
def readLine (input : List UInt8) : List UInt8 := input.takeWhile (· ≠ 0x0a)

theorem expand_plain {byte : UInt8} (other : byte ≠ 0x5c) (rest : List UInt8) :
    expand .plain (byte :: rest) = byte :: expand .plain rest := by
  rw [expand, if_neg other]

theorem expand_doubled (rest : List UInt8) : expand .plain (0x5c :: 0x5c :: rest) = 0x5c :: expand .plain rest := rfl

/-- After three digits an octal escape is over. -/
theorem expand_full (value : UInt8) (rest : List UInt8) :
    expand (.octal value 0) rest = value :: expand .plain rest := by
  cases rest with
  | nil => rfl
  | cons byte rest =>
    have past : expand (.octal value 0) (byte :: rest) =
        if byte = 0x5c then value :: expand .backslash rest else value :: byte :: expand .plain rest :=
      if_neg fun more => Nat.lt_irrefl 0 more.1
    have next : expand .plain (byte :: rest) =
        if byte = 0x5c then expand .backslash rest else byte :: expand .plain rest := rfl
    rw [past, next]
    split
    · rfl
    · rfl

/-- An escape with three octal digits is their byte. -/
theorem expand_octal {high mid low : UInt8} (octals : isOctal high ∧ isOctal mid ∧ isOctal low)
    (rest : List UInt8) :
    expand .plain (0x5c :: 0x30 :: high :: mid :: low :: rest) =
      ((octalValue high * 8 + octalValue mid) * 8 + octalValue low) :: expand .plain rest := by
  rw [expand, if_pos rfl, expand, if_pos rfl, expand, if_pos ⟨by omega, octals.1⟩, expand,
    if_pos ⟨by omega, octals.2.1⟩, expand, if_pos ⟨by omega, octals.2.2⟩, expand_full, UInt8.zero_mul,
    UInt8.zero_add]

theorem readLine_append {line : List UInt8} (single : ∀ byte ∈ line, byte ≠ 0x0a) (rest : List UInt8) :
    readLine (line ++ 0x0a :: rest) = line := by
  unfold readLine
  rw [List.takeWhile_append_of_pos (by simpa using single), List.takeWhile_cons_of_neg (by simp), List.append_nil]

end Uniterm.Posix
