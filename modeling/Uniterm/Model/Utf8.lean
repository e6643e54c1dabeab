import Uniterm.Model.Text

/-! # Decoding UTF-8

Byte strings reach the emulator unchecked. `decode` reads one scalar value at a time; an ill-formed
sequence yields one error for each maximal initial part of a well-formed one, which is where
`String::from_utf8_lossy` puts its replacement characters.
-/

namespace Uniterm.Model

abbrev Bytes := List UInt8

/-- Bytes of an ASCII string. -/
def ascii (s : String) : Bytes := s.toList.map fun c => UInt8.ofNat c.toNat

namespace Utf8

/-- For a lead byte: its payload, the range of its first continuation byte, and how many
continuation bytes follow in all. -/
def lead (b : ℕ) : Option (ℕ × ℕ × ℕ × ℕ) :=
  if 0xC2 ≤ b ∧ b ≤ 0xDF then some (b - 0xC0, 0x80, 0xBF, 1)
  else if b = 0xE0 then some (0, 0xA0, 0xBF, 2)
  else if b = 0xED then some (0xD, 0x80, 0x9F, 2)
  else if 0xE1 ≤ b ∧ b ≤ 0xEF then some (b - 0xE0, 0x80, 0xBF, 2)
  else if b = 0xF0 then some (0, 0x90, 0xBF, 3)
  else if b = 0xF4 then some (4, 0x80, 0x8F, 3)
  else if 0xF1 ≤ b ∧ b ≤ 0xF3 then some (b - 0xF0, 0x80, 0xBF, 3)
  else none

/-- Read the continuation bytes; where one is missing, what was read is dropped. -/
def tail (value low high : ℕ) : ℕ → Bytes → Option Char × Bytes
  | 0, rest => (some (Char.ofNat value), rest)
  | _ + 1, [] => (none, [])
  | count + 1, b :: rest =>
    if low ≤ b.toNat ∧ b.toNat ≤ high then tail (value * 64 + b.toNat % 64) 0x80 0xBF count rest
    else (none, b :: rest)

def decodeFrom : ℕ → Bytes → List (Option Char)
  | 0, _ => []
  | _ + 1, [] => []
  | fuel + 1, b :: rest =>
    if b.toNat < 0x80 then some (Char.ofNat b.toNat) :: decodeFrom fuel rest
    else match lead b.toNat with
    | none => none :: decodeFrom fuel rest
    | some (value, low, high, count) =>
      let (c, rest) := tail value low high count rest
      c :: decodeFrom fuel rest

def decode (bytes : Bytes) : List (Option Char) := decodeFrom bytes.length bytes

end Utf8

/-- `str::from_utf8`. -/
def fromUtf8 (bytes : Bytes) : Option Text := (Utf8.decode bytes).mapM id

/-- `String::from_utf8_lossy`. -/
def fromUtf8Lossy (bytes : Bytes) : Text := (Utf8.decode bytes).map (·.getD '\uFFFD')

/-- `u8::from_str` on the text of a parameter. -/
def parseU8 (text : Text) : Option UInt8 :=
  let digits := if text.head? = some '+' then text.tail else text
  if digits.isEmpty ∨ ¬ digits.all Char.isDigit then none
  else
    let value := digits.foldl (fun n c => n * 10 + (c.toNat - '0'.toNat)) 0
    if value < 256 then some (UInt8.ofNat value) else none

end Uniterm.Model
