import Uniterm.Model.Utf8

/-! # Keyboard protocol adaptation

The host reports disambiguated keys; a legacy consumer gets their usual bytes. `KeyboardInput` follows the markers
of bracketed pastes across reads, and the body of a paste is passed on as it is.
-/

namespace Uniterm.Model.Input

open Model

def escape : UInt8 := 0x1b

/-- `u32::from_str`. -/
def parseU32 (text : Text) : Option UInt32 :=
  let digits := if text.head? = some '+' then text.tail else text
  if digits.isEmpty ∨ ¬ digits.all Char.isDigit then none
  else
    let value := digits.foldl (fun n c => n * 10 + (c.toNat - '0'.toNat)) 0
    if value < 2 ^ 32 then some (UInt32.ofNat value) else none

/-- The marker that changes the state: the start of a paste, or its end. -/
def marker (pasting : Bool) : Vector UInt8 6 :=
  if pasting then #v[0x1b, 0x5b, 0x32, 0x30, 0x31, 0x7e] else #v[0x1b, 0x5b, 0x32, 0x30, 0x30, 0x7e]

/-- Paste state across input reads, without buffering the body. -/
structure KeyboardInput where
  pasting : Bool := false
  markerPosition : Fin 6 := 0
deriving DecidableEq, Repr

/-- Observe a raw byte, and whether it belongs to a paste or its delimiters. -/
def KeyboardInput.observeByte (keyboard : KeyboardInput) (byte : UInt8) : KeyboardInput × Bool :=
  let next : KeyboardInput :=
    if byte = (marker keyboard.pasting)[keyboard.markerPosition] then
      if complete : keyboard.markerPosition.val + 1 = 6 then { pasting := !keyboard.pasting, markerPosition := 0 }
      else { keyboard with markerPosition := ⟨keyboard.markerPosition.val + 1, by omega⟩ }
    else { keyboard with markerPosition := if byte = escape then 1 else 0 }
  (next, keyboard.pasting || next.pasting || next.markerPosition ≠ 0)

/-- The final bytes of a control sequence. -/
def isFinal (byte : UInt8) : Bool := 0x40 ≤ byte ∧ byte ≤ 0x7e

/-- The key and its modifiers, from the parameters of a report. -/
def keyParams (params : Bytes) : Option (UInt32 × UInt32) := do
  let params := (← fromUtf8 params).splitOn ';'
  let key ← parseU32 (params.headD [])
  let modifiers ← (params[1]?).elim (some 1) parseU32
  if params.length > 2 ∨ modifiers = 0 then none else some (key, modifiers - 1)

/-- A complete key report at the start of the input: its length, the key and its modifiers. -/
def csiKey (input : Bytes) : Option (ℕ × UInt32 × UInt32) :=
  match input with
  | 0x1b :: 0x5b :: tail =>
    match (tail.take 24).findIdx? isFinal with
    | none => none
    | some finish =>
      if tail[finish]? ≠ some 0x75 then none
      else (keyParams (tail.take finish)).map fun parsed => (finish + 3, parsed)
  | _ => none

/-- The position of a keypad key among the functional keys of a legacy terminal. -/
def keypadFunction (key : UInt32) : UInt8 × UInt8 :=
  if key = 57417 then (0x31, 0x44) -- left
  else if key = 57418 then (0x31, 0x43) -- right
  else if key = 57419 then (0x31, 0x41) -- up
  else if key = 57420 then (0x31, 0x42) -- down
  else if key = 57421 then (0x35, 0x7e) -- page up
  else if key = 57422 then (0x36, 0x7e) -- page down
  else if key = 57423 then (0x31, 0x48) -- home
  else if key = 57424 then (0x31, 0x46) -- end
  else if key = 57425 then (0x32, 0x7e) -- insert
  else (0x33, 0x7e) -- delete

/-- The key that a keypad key stands for; the private use area has no other legacy keys. -/
def keypadKey (key : UInt32) : Option UInt32 :=
  if 57399 ≤ key ∧ key ≤ 57408 then some (0x30 + (key - 57399))
  else if key = 57409 then some '.'.val
  else if key = 57410 then some '/'.val
  else if key = 57411 then some '*'.val
  else if key = 57412 then some '-'.val
  else if key = 57413 then some '+'.val
  else if key = 57414 then some 13
  else if key = 57415 then some '='.val
  else if key = 57416 then some ','.val
  else if 57344 ≤ key ∧ key ≤ 63743 then none
  else some key

/-- The control character of a key. -/
def controlKey (key : UInt32) : UInt32 :=
  if key = 32 ∨ key = 50 ∨ key = 64 then 0
  else if 97 ≤ key ∧ key ≤ 122 then key - 96
  else if 65 ≤ key ∧ key ≤ 90 then key - 64
  else if key = 51 ∨ key = 91 then 27
  else if key = 52 ∨ key = 92 then 28
  else if key = 53 ∨ key = 93 then 29
  else if key = 54 ∨ key = 94 ∨ key = 126 then 30
  else if key = 47 ∨ key = 55 ∨ key = 95 then 31
  else if key = 56 ∨ key = 63 then 127
  else if key = 127 then 8
  else key

def unshifted : Text := "`1234567890-=[]\\;',./".toList
def shifted : Text := "~!@#$%^&*()_+\x7b\x7d|:\"<>?".toList

/-- The key with Shift on a US layout. -/
def shiftKey (key : UInt32) : UInt32 :=
  if 97 ≤ key ∧ key ≤ 122 then key - 32
  else ((unshifted.zip shifted).find? (·.1.val = key)).elim key (·.2.val)

/-- The legacy bytes of a key. Lock bits are ignored; Super, Hyper and Meta have no equivalent. -/
def legacyKey (key modifiers : UInt32) : Option Bytes :=
  if modifiers &&& ~~~(7 ||| 64 ||| 128) ≠ 0 then none
  else if 57417 ≤ key ∧ key ≤ 57426 then
    let (parameter, finalByte) := keypadFunction key
    some ([0x1b, 0x5b] ++ (if modifiers &&& 7 ≠ 0 ∨ finalByte = 0x7e then [parameter] else []) ++
      (if modifiers &&& 7 ≠ 0 then [0x3b, 0x31 + (modifiers &&& 7).toUInt8] else []) ++ [finalByte])
  else do
    let key ← keypadKey key
    if key = 9 ∧ modifiers &&& 7 = 1 then some [0x1b, 0x5b, 0x5a]
    else
      let key :=
        if modifiers &&& 4 ≠ 0 then controlKey key
        else if modifiers &&& 1 ≠ 0 then shiftKey key
        else key
      if key.isValidChar then
        some ((if modifiers &&& 2 ≠ 0 then [0x1b] else []) ++ String.utf8EncodeChar (Char.ofNat key.toNat))
      else none

/-- The key at the start of the input that is replaced, with its length: any key that has legacy bytes, or only the
prefix byte. -/
def decodedKey (prefixOnly : Option UInt8) (input : Bytes) : Option (ℕ × Bytes) := do
  let (length, key, modifiers) ← csiKey input
  let bytes ← legacyKey key modifiers
  if prefixOnly.all fun byte => bytes = [byte] then some (length, bytes) else none

/-- Decode the keys of one read, after so many bytes of a key that is already decoded. -/
def KeyboardInput.legacyFrom (prefixOnly : Option UInt8) : KeyboardInput → ℕ → Bytes → KeyboardInput × Bytes
  | keyboard, _, [] => (keyboard, [])
  | keyboard, skip + 1, _ :: rest => legacyFrom prefixOnly keyboard skip rest
  | keyboard, 0, byte :: rest =>
    match if byte ≠ escape ∨ keyboard.pasting then none else decodedKey prefixOnly (byte :: rest) with
    | some (length, bytes) =>
      let (keyboard, output) := legacyFrom prefixOnly { keyboard with markerPosition := 0 } (length - 1) rest
      (keyboard, bytes ++ output)
    | none =>
      let (keyboard, output) := legacyFrom prefixOnly (keyboard.observeByte byte).1 0 rest
      (keyboard, byte :: output)

/-- Decode keys while retaining bracketed paste boundaries between calls. -/
def KeyboardInput.legacyKeys (keyboard : KeyboardInput) (input : Bytes) (prefixOnly : Option UInt8) :
    KeyboardInput × Bytes := legacyFrom prefixOnly keyboard 0 input

end Uniterm.Model.Input
