import Mathlib.Data.List.DropRight
import Uniterm.Model.Input.Keyboard

/-! # Scanning stdin

Mouse reports are taken out of every read before the rest is passed on. A read can end inside a report or inside a
key; both tails are kept and scanned again before the next read.
-/

namespace Uniterm.Model.Input

open Model

inductive MouseKind where
  | hover | drag | click | release | rightClick | wheelUp | wheelDown | wheelLeft | wheelRight
deriving DecidableEq, Repr

abbrev MouseEvent := UInt16 × UInt16 × MouseKind

/-- `u16::from_str`. -/
def parseU16 (text : Text) : Option UInt16 :=
  (parseU32 text).bind fun value => if value < 65536 then some value.toUInt16 else none

/-- What the button bits and the final byte of a report say. -/
def mouseKind (buttons : UInt32) (terminator : UInt8) : Option MouseKind :=
  if buttons &&& 64 ≠ 0 then
    if buttons &&& 3 = 0 then some .wheelUp
    else if buttons &&& 3 = 1 then some .wheelDown
    else if buttons &&& 3 = 2 then some .wheelLeft
    else some .wheelRight
  else if buttons &&& 32 ≠ 0 then
    if buttons &&& 3 = 3 then some .hover
    else if buttons &&& 3 = 0 then some .drag
    else none
  else if buttons &&& 3 = 0 ∧ terminator = 0x4d then some .click
  else if buttons &&& 3 = 0 ∧ terminator = 0x6d then some .release
  else if buttons &&& 3 = 2 ∧ terminator = 0x4d then some .rightClick
  else none

/-- Parse the body of a mouse report. -/
def parseSgrMouse (body : Bytes) (terminator : UInt8) : Option MouseEvent := do
  let fields := (← fromUtf8 body).splitOn ';'
  let buttons ← fields[0]?.bind parseU32
  let x ← fields[1]?.bind parseU16
  let y ← fields[2]?.bind parseU16
  (mouseKind buttons terminator).map fun kind => (x, y, kind)

/-- The final bytes of a mouse report. -/
def isReportEnd (byte : UInt8) : Bool := byte == 0x4d || byte == 0x6d

/-- What stands at the start of a buffer: a mouse report, the beginning of one, or any other byte. -/
inductive MouseHead where
  | report (body : Bytes) (terminator : UInt8)
  | unfinished
  | plain

def mouseHead : Bytes → MouseHead
  | [0x1b, 0x5b] => .unfinished
  | 0x1b :: 0x5b :: 0x3c :: body =>
    match body.dropWhile (!isReportEnd ·) with
    | [] => .unfinished
    | terminator :: _ => .report (body.takeWhile (!isReportEnd ·)) terminator
  | _ => .plain

/-- Parsed events, the other bytes, and an unfinished report at the end. -/
abbrev MouseScan := List MouseEvent × Bytes × Bytes

/-- Scan a buffer, after so many bytes of a report that is already taken. -/
def scanMouseFrom : ℕ → Bytes → MouseScan
  | _, [] => ([], [], [])
  | skip + 1, _ :: rest => scanMouseFrom skip rest
  | 0, byte :: rest =>
    match mouseHead (byte :: rest) with
    | .report body terminator =>
      let (events, pass, leftover) := scanMouseFrom (body.length + 3) rest
      ((parseSgrMouse body terminator).toList ++ events, pass, leftover)
    | .unfinished => ([], [], byte :: rest)
    | .plain =>
      let (events, pass, leftover) := scanMouseFrom 0 rest
      (events, byte :: pass, leftover)

/-- Split a buffer into mouse events and the remaining bytes. -/
def scanMouse (buf : Bytes) : MouseScan := scanMouseFrom 0 buf

/-- Whether an escape byte and what follows it is a key that is not complete. -/
def partialKey : Bytes → Bool
  | [] => true
  | 0x5b :: params => params.length ≤ 16 && !params.any isFinal
  | _ => false

/-- Split off a trailing partial keyboard sequence. -/
def splitPartialEscape (chunk : Bytes) : Bytes × Bytes :=
  let rest := chunk.rtakeWhile (· ≠ escape)
  if escape ∈ chunk ∧ partialKey rest then (chunk.take (chunk.length - (rest.length + 1)), escape :: rest)
  else (chunk, [])

/-- What is kept between two reads. -/
structure StdinTails where
  mouseLeftover : Bytes := []
  keyPending : Bytes := []
deriving DecidableEq, Repr

/-- Scan one read of stdin. -/
def scanStdinChunk (tails : StdinTails) (chunk : Bytes) : StdinTails × (List MouseEvent × Bytes) :=
  let raw := tails.mouseLeftover ++ tails.keyPending ++ chunk
  let (events, passthrough, mouseLeftover) := scanMouse raw
  let (passthrough, keyPending) := splitPartialEscape passthrough
  ({ mouseLeftover, keyPending }, (events, passthrough))

end Uniterm.Model.Input
