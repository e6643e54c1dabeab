import Uniterm.Model.Utf8

/-! # Frames on a socket

A message is sent as its length in four bytes, most significant first, and its payload. The decoder
keeps what it has read in one buffer, drops decoded frames lazily and remembers the first violation
of its limits until it is asked for a message. Serialization is a parameter.
-/

namespace Uniterm.Model.Wire

/-- `bincode` on the messages of one direction. -/
structure Codec (M : Type) where
  serialize : M → Bytes
  deserialize : Bytes → Option M

/-- `u32::to_be_bytes`. -/
def toBeBytes (n : ℕ) : Bytes :=
  [.ofNat (n / 2 ^ 24), .ofNat (n / 2 ^ 16), .ofNat (n / 2 ^ 8), .ofNat n]

/-- `u32::from_be_bytes` on the first four bytes of a buffer. -/
def fromBeBytes (bytes : Bytes) : ℕ :=
  (bytes.take 4).foldl (fun value byte => value * 2 ^ 8 + byte.toNat) 0

variable {M : Type}

def encodeFrame (codec : Codec M) (msg : M) : Bytes :=
  let payload := codec.serialize msg
  toBeBytes (payload.length % 2 ^ 32) ++ payload

inductive FrameError where
  | oversized (len : ℕ)
  | bufferOverflow (len : ℕ)
  | corrupt
deriving DecidableEq, Repr

structure FrameDecoder where
  buf : Bytes
  offset : ℕ
  maxFrame : ℕ
  failed : Option FrameError
deriving DecidableEq, Repr

namespace FrameDecoder

def withMaxFrame (maxFrame : ℕ) : FrameDecoder :=
  { buf := [], offset := 0, maxFrame := max maxFrame 1, failed := none }

/-- Append what was read, unless a limit is broken. -/
def push (decoder : FrameDecoder) (data : Bytes) : FrameDecoder :=
  if decoder.failed.isSome then decoder
  else
    let decoder := if decoder.offset ≠ 0 then
      { decoder with buf := decoder.buf.drop decoder.offset, offset := 0 } else decoder
    let maxBuffer := decoder.maxFrame + 4
    let newLen := decoder.buf.length + data.length
    if 2 ^ 64 ≤ newLen then { decoder with failed := some (.bufferOverflow (2 ^ 64 - 1)) }
    else if maxBuffer < newLen then { decoder with failed := some (.bufferOverflow newLen) }
    else
      let decoder := { decoder with buf := decoder.buf ++ data }
      if 4 ≤ decoder.buf.length ∧ decoder.maxFrame < fromBeBytes decoder.buf then
        { decoder with failed := some (.oversized (fromBeBytes decoder.buf)) }
      else decoder

/-- The next message, if one is complete. -/
def decode (codec : Codec M) (decoder : FrameDecoder) :
    Except FrameError (Option M) × FrameDecoder :=
  match decoder.failed with
  | some error => (.error error, { decoder with failed := none, buf := [], offset := 0 })
  | none =>
    let pending := decoder.buf.drop decoder.offset
    if pending.length < 4 then (.ok none, decoder)
    else
      let len := fromBeBytes pending
      if decoder.maxFrame < len then (.error (.oversized len), decoder)
      else
        let total := 4 + len
        if pending.length < total then (.ok none, decoder)
        else match codec.deserialize ((pending.take total).drop 4) with
          | none => (.error .corrupt, decoder)
          | some msg =>
            let decoder := { decoder with offset := decoder.offset + total }
            let decoder := if decoder.offset = decoder.buf.length then
              { decoder with buf := [], offset := 0 } else decoder
            (.ok (some msg), decoder)

/-- What came of a sequence of reads: the messages, the error that ended it, and the most bytes that
the buffer held. -/
structure Received (M : Type) where
  messages : List M
  error : Option FrameError
  decoder : FrameDecoder
  peak : ℕ

/-- Call `decode` until it returns no message. -/
def drain (codec : Codec M) : ℕ → FrameDecoder → Option (List M × Option FrameError × FrameDecoder)
  | 0, _ => none
  | fuel + 1, decoder =>
    match decoder.decode codec with
    | (.error error, decoder) => some ([], some error, decoder)
    | (.ok none, decoder) => some ([], none, decoder)
    | (.ok (some msg), decoder) =>
      (drain codec fuel decoder).map fun (messages, rest) => (msg :: messages, rest)

/-- Push every read and decode what is there, up to the first error. One call more than there are
bytes is enough for each read. -/
def receive (codec : Codec M) : FrameDecoder → List Bytes → Option (Received M)
  | decoder, [] => some ⟨[], none, decoder, decoder.buf.length⟩
  | decoder, data :: reads => do
    let pushed := decoder.push data
    let (messages, error, decoder) ← drain codec (pushed.buf.length + 1) pushed
    match error with
    | some error => return ⟨messages, some error, decoder, pushed.buf.length⟩
    | none =>
      let later ← receive codec decoder reads
      return { later with messages := messages ++ later.messages
                          peak := max pushed.buf.length later.peak }

end FrameDecoder

end Uniterm.Model.Wire
