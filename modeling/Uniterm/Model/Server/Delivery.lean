import Uniterm.Model.Utf8

/-! # What is written to a pane

Text for a running agent goes between the markers of a bracketed paste. A launch goes as one physical line to a
one-shot reader, which expands it and hands it to the shell.
-/

namespace Uniterm.Model

/-- `str::as_bytes`. -/
def Text.bytes (text : Text) : Bytes := text.flatMap String.utf8EncodeChar

namespace Server

/-- What is left of an answer before it is written. -/
def answerText (text : Text) : Text := (text.filter (· ≠ '\u0000')).take 16384

/-- Text and Enter are separate terminal events: Enter is a carriage return behind the paste. -/
def pasteInput (text : Text) (bracketed submit : Bool) : Bytes :=
  (if bracketed ∧ ¬ text.isEmpty then [0x1b, 0x5b, 0x32, 0x30, 0x30, 0x7e] else []) ++ text.bytes ++
    (if bracketed ∧ ¬ text.isEmpty then [0x1b, 0x5b, 0x32, 0x30, 0x31, 0x7e] else []) ++
    if submit then [0x0d] else []

/-- `u8::is_ascii_control`. -/
def isAsciiControl (byte : UInt8) : Bool := byte ≤ 0x1f || byte == 0x7f

/-- One byte of a launch, as the reader takes it. -/
def launchByte (byte : UInt8) : Bytes :=
  if byte = 0x5c then [0x5c, 0x5c]
  else if isAsciiControl byte then
    [0x5c, 0x30, (0x30 : UInt8) + (byte >>> 6 : UInt8), (0x30 : UInt8) + ((byte >>> 3 : UInt8) &&& 7),
      (0x30 : UInt8) + (byte &&& 7)]
  else [byte]

/-- Encode a launch as one physical line. -/
def launchDelivery (command : Text) : Bytes := command.bytes.flatMap launchByte ++ [0x0a]

/-- Single-quote a text for a POSIX shell. -/
def shellQuote (s : Text) : Text :=
  ['\''] ++ s.flatMap (fun ch => if ch = '\'' then ['\'', '\\', '\'', '\''] else [ch]) ++ ['\'']

/-- Turn an argument vector into a shell-safe invocation. -/
def shellJoin (argv : List Text) : Option Text :=
  if argv.isEmpty then none else some ([' '].intercalate (argv.map shellQuote))

end Server

end Uniterm.Model
