import Mathlib.Data.List.Basic
import Uniterm.Model.Wire.Frame

/-! # Framing under any chunking

Between two reads the decoder holds the part of the next frame that was read already. The next read
has to fit beside it within the limit for one frame; where it always does, the messages come out whole
and in order, and where it once does not, the connection fails.
-/

namespace Uniterm.Model.Wire

variable {M : Type} {codec : Codec M} {maxFrame : ℕ}

section Frames

private theorem length_toBeBytes (n : ℕ) : (toBeBytes n).length = 4 := rfl

private theorem fromBeBytes_toBeBytes {n : ℕ} (word : n < 2 ^ 32) (more : Bytes) :
    fromBeBytes (toBeBytes n ++ more) = n := by
  simp only [fromBeBytes, toBeBytes, List.cons_append, List.nil_append, List.take_succ_cons,
    List.take_zero, List.foldl_cons, List.foldl_nil, UInt8.toNat_ofNat']
  omega

/-- The header of a buffer is in its first four bytes. -/
theorem fromBeBytes_part {part whole : Bytes} (begins : part <+: whole)
    (header : 4 ≤ part.length) : fromBeBytes part = fromBeBytes whole := by
  obtain ⟨more, rfl⟩ := begins
  rw [fromBeBytes, fromBeBytes, List.take_append_of_le_length header]

/-- The bytes of a sequence of messages. -/
def stream (codec : Codec M) (messages : List M) : Bytes := messages.flatMap (encodeFrame codec)

private theorem stream_cons (msg : M) (messages : List M) :
    stream codec (msg :: messages) = encodeFrame codec msg ++ stream codec messages :=
  List.flatMap_cons

private theorem stream_append (first messages : List M) :
    stream codec (first ++ messages) = stream codec first ++ stream codec messages :=
  List.flatMap_append

private theorem length_encodeFrame (msg : M) :
    (encodeFrame codec msg).length = 4 + (codec.serialize msg).length := by
  rw [encodeFrame, List.length_append, length_toBeBytes]

/-- Of the first bytes of a stream, those behind the last whole frame. -/
def remainder (codec : Codec M) : List M → ℕ → ℕ
  | [], n => n
  | msg :: messages, n =>
    if (encodeFrame codec msg).length ≤ n then
      remainder codec messages (n - (encodeFrame codec msg).length)
    else n

private theorem remainder_append (first messages : List M) (n : ℕ) :
    remainder codec (first ++ messages) ((stream codec first).length + n) =
      remainder codec messages n := by
  induction first with
  | nil => rw [List.nil_append, stream, List.flatMap_nil, List.length_nil, Nat.zero_add]
  | cons msg first ih =>
    rw [List.cons_append, stream_cons, List.length_append, remainder, if_pos (by omega), ← ih]
    congr 1
    omega

/-- Every read fits beside what is left of the reads before it, `n` bytes having been read. -/
def Fits (codec : Codec M) (maxFrame : ℕ) (messages : List M) : ℕ → List Bytes → Prop
  | _, [] => True
  | n, data :: reads => remainder codec messages n + data.length ≤ maxFrame + 4 ∧
    Fits codec maxFrame messages (n + data.length) reads

instance Fits.decidable (codec : Codec M) (maxFrame : ℕ) (messages : List M) :
    (n : ℕ) → (reads : List Bytes) → Decidable (Fits codec maxFrame messages n reads)
  | _, [] => inferInstanceAs (Decidable True)
  | n, data :: reads =>
    have := Fits.decidable codec maxFrame messages (n + data.length) reads
    inferInstanceAs (Decidable (_ ∧ _))

private theorem fits_append (first messages : List M) (n : ℕ) (reads : List Bytes) :
    Fits codec maxFrame (first ++ messages) ((stream codec first).length + n) reads ↔
      Fits codec maxFrame messages n reads := by
  induction reads generalizing n with
  | nil => rfl
  | cons data reads ih => rw [Fits, Fits, remainder_append, Nat.add_assoc, ih]

end Frames

section Decoding

/-- The messages that a limit admits and that survive serialization. -/
def Admitted (codec : Codec M) (maxFrame : ℕ) (messages : List M) : Prop :=
  ∀ msg ∈ messages, codec.deserialize (codec.serialize msg) = some msg ∧
    (codec.serialize msg).length ≤ maxFrame

/-- A decoder that did not fail and holds the first bytes of a stream. -/
structure Reading (codec : Codec M) (maxFrame : ℕ) (decoder : FrameDecoder) (messages : List M)
    (pending : Bytes) : Prop where
  healthy : decoder.failed = none
  limit : decoder.maxFrame = max maxFrame 1
  offset : decoder.offset ≤ decoder.buf.length
  held : decoder.buf.drop decoder.offset = pending
  streamed : pending <+: stream codec messages

/-- The first frame of the stream is not complete. -/
def Incomplete (codec : Codec M) (messages : List M) (pending : Bytes) : Prop :=
  ∀ msg ∈ messages.head?, pending.length < (encodeFrame codec msg).length

variable {decoder : FrameDecoder} {messages : List M} {msg : M} {pending : Bytes}

theorem Admitted.tail (admitted : Admitted codec maxFrame (msg :: messages)) :
    Admitted codec maxFrame messages := fun other listed => admitted other (List.mem_cons_of_mem _ listed)

theorem header (word : maxFrame < 2 ^ 32) (admitted : Admitted codec maxFrame (msg :: messages))
    (streamed : pending <+: stream codec (msg :: messages)) (long : 4 ≤ pending.length) :
    fromBeBytes pending = (codec.serialize msg).length := by
  have small := (admitted msg List.mem_cons_self).2
  have fits : (codec.serialize msg).length < 2 ^ 32 := by omega
  rw [fromBeBytes_part streamed long, stream_cons, encodeFrame, Nat.mod_eq_of_lt fits,
    List.append_assoc, fromBeBytes_toBeBytes fits]

theorem Reading.decode_incomplete (reading : Reading codec maxFrame decoder messages pending)
    (word : maxFrame < 2 ^ 32) (admitted : Admitted codec maxFrame messages)
    (incomplete : Incomplete codec messages pending) :
    decoder.decode codec = (.ok none, decoder) := by
  unfold FrameDecoder.decode
  rw [reading.healthy]
  dsimp only
  rw [reading.held]
  split
  · rfl
  · next long =>
    cases messages with
    | nil =>
      have nothing := List.prefix_nil.mp reading.streamed
      rw [nothing] at long
      exact absurd (by decide) long
    | cons msg messages =>
      have short := incomplete msg rfl
      rw [length_encodeFrame] at short
      have small := (admitted msg List.mem_cons_self).2
      rw [header word admitted reading.streamed (Nat.not_lt.mp long), reading.limit,
        if_neg (by omega), if_pos short]

theorem Reading.decode_complete (reading : Reading codec maxFrame decoder (msg :: messages) pending)
    (word : maxFrame < 2 ^ 32) (admitted : Admitted codec maxFrame (msg :: messages))
    (complete : (encodeFrame codec msg).length ≤ pending.length) :
    ∃ next, decoder.decode codec = (.ok (some msg), next) ∧
      next.buf.length ≤ decoder.buf.length ∧
      Reading codec maxFrame next messages (pending.drop (encodeFrame codec msg).length) := by
  have small := (admitted msg List.mem_cons_self).2
  have long : 4 ≤ pending.length := by
    rw [length_encodeFrame] at complete
    omega
  have frame : pending.take (encodeFrame codec msg).length = encodeFrame codec msg := by
    have cut := reading.streamed
    rw [stream_cons] at cut
    obtain ⟨more, same⟩ := cut
    have taken := congrArg (List.take (encodeFrame codec msg).length) same
    rwa [List.take_append_of_le_length complete, List.take_left] at taken
  have payload : (pending.take (4 + (codec.serialize msg).length)).drop 4 = codec.serialize msg := by
    rw [← length_encodeFrame, frame, encodeFrame]
    exact List.drop_left' rfl
  have streamed : pending.drop (encodeFrame codec msg).length <+: stream codec messages := by
    obtain ⟨more, same⟩ := reading.streamed
    refine ⟨more, ?_⟩
    have dropped := congrArg (List.drop (encodeFrame codec msg).length) same
    rwa [List.drop_append_of_le_length complete, stream_cons, List.drop_left] at dropped
  unfold FrameDecoder.decode
  rw [reading.healthy]
  dsimp only
  rw [reading.held, if_neg (Nat.not_lt.mpr long), header word admitted reading.streamed long,
    reading.limit, if_neg (by omega), ← length_encodeFrame, if_neg (Nat.not_lt.mpr complete),
    length_encodeFrame, payload, (admitted msg List.mem_cons_self).1]
  have total : decoder.offset + (4 + (codec.serialize msg).length) ≤ decoder.buf.length := by
    have whole := congrArg List.length reading.held
    rw [List.length_drop] at whole
    rw [length_encodeFrame] at complete
    have := reading.offset
    omega
  rw [length_encodeFrame] at streamed
  refine ⟨_, rfl, ?_, ?_⟩
  · split
    · exact Nat.zero_le _
    · exact Nat.le_refl _
  · split
    · next all =>
      refine ⟨rfl, rfl, Nat.le_refl _, ?_, streamed⟩
      rw [← reading.held, List.drop_drop, all, List.drop_length]
      rfl
    · refine ⟨rfl, rfl, total, ?_, streamed⟩
      rw [← List.drop_drop, reading.held]

private theorem incomplete_of_empty (messages : List M) : Incomplete codec messages [] := by
  intro msg _
  rw [length_encodeFrame]
  exact Nat.lt_of_lt_of_le (by decide : 0 < 4) (Nat.le_add_right ..)

/-- Draining yields the whole frames and leaves the first bytes of the next one. -/
theorem Reading.drain (reading : Reading codec maxFrame decoder messages pending)
    (word : maxFrame < 2 ^ 32) (admitted : Admitted codec maxFrame messages) {fuel : ℕ}
    (enough : pending.length < fuel) :
    ∃ first rest next left, messages = first ++ rest ∧ pending = stream codec first ++ left ∧
      FrameDecoder.drain codec fuel decoder = some (first, none, next) ∧
      next.buf.length ≤ decoder.buf.length ∧ Reading codec maxFrame next rest left ∧
      Incomplete codec rest left := by
  induction fuel generalizing decoder messages pending with
  | zero => exact absurd enough (Nat.not_lt_zero _)
  | succ fuel ih =>
    by_cases incomplete : Incomplete codec messages pending
    · refine ⟨[], messages, decoder, pending, rfl, rfl, ?_, Nat.le_refl _, reading, incomplete⟩
      rw [FrameDecoder.drain, reading.decode_incomplete word admitted incomplete]
    · simp only [Incomplete, not_forall] at incomplete
      obtain ⟨msg, next, complete⟩ := incomplete
      obtain ⟨messages, rfl⟩ := List.head?_eq_some_iff.mp next
      rw [Nat.not_lt] at complete
      obtain ⟨next, decoded, smaller, continued⟩ := reading.decode_complete word admitted complete
      have shorter : (pending.drop (encodeFrame codec msg).length).length < fuel := by
        rw [List.length_drop, length_encodeFrame]
        rw [length_encodeFrame] at complete
        omega
      obtain ⟨first, rest, final, left, rfl, same, drained, bound, after, short⟩ :=
        ih continued admitted.tail shorter
      refine ⟨msg :: first, rest, final, left, rfl, ?_, ?_, Nat.le_trans bound smaller, after, short⟩
      · have frame := reading.streamed
        rw [stream_cons] at frame
        have taken := List.prefix_of_prefix_length_le (List.prefix_append _ _) frame complete
        obtain ⟨more, rfl⟩ := taken
        rw [List.drop_left] at same
        rw [stream_cons, List.append_assoc, same]
      · rw [FrameDecoder.drain, decoded]
        dsimp only
        rw [drained]
        rfl

/-- Before a read, decoded frames are dropped. -/
theorem Reading.compacted (reading : Reading codec maxFrame decoder messages pending) :
    (if decoder.offset ≠ 0 then { decoder with buf := decoder.buf.drop decoder.offset, offset := 0 }
      else decoder) = { decoder with buf := pending, offset := 0 } := by
  split
  · rw [reading.held]
  · next start =>
    have zero : decoder.offset = 0 := not_not.mp start
    have held := reading.held
    rw [zero, List.drop_zero] at held
    rw [← held, ← zero]

/-- A read that fits is appended to what is left. -/
theorem Reading.push (reading : Reading codec maxFrame decoder messages pending)
    (word : maxFrame < 2 ^ 32) (admitted : Admitted codec maxFrame messages) {data : Bytes}
    (streamed : pending ++ data <+: stream codec messages)
    (fits : pending.length + data.length ≤ max maxFrame 1 + 4) :
    Reading codec maxFrame (decoder.push data) messages (pending ++ data) ∧
      (decoder.push data).buf.length = pending.length + data.length := by
  have sound : ¬(4 ≤ (pending ++ data).length ∧ max maxFrame 1 < fromBeBytes (pending ++ data)) := by
    rintro ⟨long, excess⟩
    cases messages with
    | nil =>
      have nothing := List.prefix_nil.mp streamed
      rw [nothing] at long
      exact absurd long (by decide)
    | cons msg messages =>
      have small := (admitted msg List.mem_cons_self).2
      rw [header word admitted streamed long] at excess
      omega
  unfold FrameDecoder.push
  rw [reading.compacted, reading.healthy]
  dsimp only [Option.isSome_none]
  rw [if_neg Bool.false_ne_true, reading.limit, if_neg (by omega), if_neg (by omega), if_neg sound]
  exact ⟨⟨rfl, rfl, Nat.zero_le _, rfl, streamed⟩, List.length_append⟩

/-- A read that does not fit fails the decoder. -/
theorem Reading.push_overflow (reading : Reading codec maxFrame decoder messages pending)
    {data : Bytes} (excess : max maxFrame 1 + 4 < pending.length + data.length) :
    (decoder.push data).failed.isSome := by
  unfold FrameDecoder.push
  rw [reading.compacted, reading.healthy]
  dsimp only [Option.isSome_none]
  rw [if_neg Bool.false_ne_true, reading.limit, if_pos excess]
  split <;> rfl

end Decoding

section Receiving

variable {decoder : FrameDecoder} {messages : List M} {pending : Bytes} {reads : List Bytes}

/-- The messages come out whole and in order, without an error, and the buffer never holds more than
one frame. -/
def Whole (codec : Codec M) (maxFrame : ℕ) (messages : List M) (decoder : FrameDecoder)
    (reads : List Bytes) : Prop :=
  ∃ received, FrameDecoder.receive codec decoder reads = some received ∧
    received.messages = messages ∧ received.error = none ∧ received.peak ≤ maxFrame + 4

/-- A failed decoder reports its error at once. -/
theorem receive_failed {data : Bytes} (failed : (decoder.push data).failed.isSome)
    {received : FrameDecoder.Received M}
    (result : FrameDecoder.receive codec decoder (data :: reads) = some received) :
    received.error.isSome := by
  obtain ⟨error, broken⟩ := Option.isSome_iff_exists.mp failed
  have answer : (decoder.push data).decode codec = (.error error,
      { decoder.push data with failed := none, buf := [], offset := 0 }) := by
    unfold FrameDecoder.decode
    rw [broken]
  rw [FrameDecoder.receive] at result
  dsimp only at result
  rw [FrameDecoder.drain, answer] at result
  cases result
  rfl

private theorem receive_peak {data : Bytes} {received : FrameDecoder.Received M}
    (result : FrameDecoder.receive codec decoder (data :: reads) = some received) :
    (decoder.push data).buf.length ≤ received.peak := by
  rw [FrameDecoder.receive] at result
  obtain ⟨⟨messages, error, next⟩, drained, result⟩ := Option.bind_eq_some_iff.mp result
  cases error with
  | some error =>
    cases result
    exact Nat.le_refl _
  | none =>
    obtain ⟨later, continued, result⟩ := Option.bind_eq_some_iff.mp result
    cases result
    exact Nat.le_max_left _ _

/-- A read whose draining ends without an error hands over to the next reads. -/
theorem whole_cons {data : Bytes} {first rest : List M} {next : FrameDecoder}
    (drained : FrameDecoder.drain codec ((decoder.push data).buf.length + 1) (decoder.push data) =
      some (first, none, next)) (fits : (decoder.push data).buf.length ≤ maxFrame + 4) :
    Whole codec maxFrame (first ++ rest) decoder (data :: reads) ↔
      Whole codec maxFrame rest next reads := by
  have result : FrameDecoder.receive codec decoder (data :: reads) =
      (FrameDecoder.receive codec next reads).map fun later =>
        { later with messages := first ++ later.messages
                     peak := max (decoder.push data).buf.length later.peak } := by
    rw [FrameDecoder.receive]
    dsimp only
    rw [drained, Option.bind_eq_bind, Option.bind_some]
    dsimp only
    cases FrameDecoder.receive codec next reads <;> rfl
  unfold Whole
  rw [result]
  constructor
  · rintro ⟨received, mapped, whole, clean, low⟩
    obtain ⟨later, continued, rfl⟩ := Option.map_eq_some_iff.mp mapped
    exact ⟨later, continued, List.append_cancel_left whole, clean,
      Nat.le_trans (Nat.le_max_right _ _) low⟩
  · rintro ⟨later, continued, whole, clean, low⟩
    rw [continued]
    exact ⟨_, rfl, congrArg (first ++ ·) whole, clean, Nat.max_le.mpr ⟨fits, low⟩⟩

theorem Reading.whole_iff (reading : Reading codec maxFrame decoder messages pending)
    (word : maxFrame < 2 ^ 32) (admitted : Admitted codec maxFrame messages)
    (incomplete : Incomplete codec messages pending) (bounded : decoder.buf.length ≤ maxFrame + 4)
    (cut : pending ++ reads.flatten = stream codec messages) :
    Whole codec maxFrame messages decoder reads ↔
      Fits codec maxFrame messages pending.length reads := by
  induction reads generalizing decoder messages pending with
  | nil =>
    rw [List.flatten_nil, List.append_nil] at cut
    have done : messages = [] := by
      cases messages with
      | nil => rfl
      | cons msg messages =>
        have short := incomplete msg rfl
        rw [cut, stream_cons, List.length_append] at short
        omega
    subst done
    exact iff_of_true ⟨_, rfl, rfl, rfl, bounded⟩ trivial
  | cons data reads ih =>
    have left : remainder codec messages pending.length = pending.length := by
      cases messages with
      | nil => rfl
      | cons msg messages => exact if_neg (Nat.not_le.mpr (incomplete msg rfl))
    have streamed : pending ++ data <+: stream codec messages := by
      rw [← cut, List.flatten_cons, ← List.append_assoc]
      exact List.prefix_append _ _
    rw [Fits, left]
    by_cases excess : max maxFrame 1 + 4 < pending.length + data.length
    · refine iff_of_false ?_ (fun fits => by omega)
      rintro ⟨received, result, _, clean, _⟩
      have failed := receive_failed (reading.push_overflow excess) result
      rw [clean] at failed
      cases failed
    · obtain ⟨pushed, length⟩ := reading.push word admitted streamed (Nat.not_lt.mp excess)
      by_cases fits : pending.length + data.length ≤ maxFrame + 4
      · rw [← length] at fits
        obtain ⟨first, rest, next, behind, rfl, same, drained, smaller, continued, short⟩ :=
          pushed.drain word admitted (by
            rw [List.length_append]
            omega : (pending ++ data).length < (decoder.push data).buf.length + 1)
        have behindCut : behind ++ reads.flatten = stream codec rest := by
          rw [List.flatten_cons, ← List.append_assoc, same, stream_append, List.append_assoc] at cut
          exact List.append_cancel_left cut
        rw [whole_cons drained fits, ih continued
          (fun msg listed => admitted msg (List.mem_append_right _ listed)) short
          (Nat.le_trans smaller fits) behindCut, ← List.length_append, same, List.length_append,
          fits_append]
        rw [length, ← List.length_append, same, List.length_append] at fits
        exact (and_iff_right fits).symm
      · refine iff_of_false ?_ (fun both => fits both.1)
        rintro ⟨received, result, _, _, low⟩
        have high := receive_peak result
        omega

/-- The round trip: under any cut into reads, the messages come out whole and in order, with at most
one frame in the buffer, exactly if every read fits beside what is left of the reads before it. -/
theorem receive_whole (codec : Codec M) (maxFrame : ℕ) (word : maxFrame < 2 ^ 32)
    (messages : List M) (admitted : Admitted codec maxFrame messages) (reads : List Bytes)
    (cut : reads.flatten = stream codec messages) :
    Whole codec maxFrame messages (.withMaxFrame maxFrame) reads ↔
      Fits codec maxFrame messages 0 reads := by
  have start : Reading codec maxFrame (.withMaxFrame maxFrame) messages [] :=
    ⟨rfl, rfl, Nat.le_refl _, rfl, List.nil_prefix⟩
  exact start.whole_iff word admitted (incomplete_of_empty messages) (Nat.zero_le _) cut

/-- Messages that are their own bytes. -/
def rawCodec : Codec Bytes := ⟨id, some⟩

/-- A frame that shares a read with the next one. -/
def sharedReads : List Bytes := [[0, 0, 0, 2, 7], [8, 0, 0, 0, 1], [9]]

theorem receive_whole_sharedReads :
    Whole rawCodec 8 [[7, 8], [9]] (.withMaxFrame 8) sharedReads :=
  (receive_whole rawCodec 8 (by decide) [[7, 8], [9]] (by unfold Admitted; decide) sharedReads
    (by decide)).mpr (by decide)

/-- The header of a frame of eight bytes, then its payload with the first byte of the next frame. -/
theorem not_whole_fullFrame : ∃ reads : List Bytes,
    (∀ data ∈ reads, data.length ≤ 8 + 4) ∧
      reads.flatten = stream rawCodec [[1, 2, 3, 4, 5, 6, 7, 8], [9]] ∧
      ¬Whole rawCodec 8 [[1, 2, 3, 4, 5, 6, 7, 8], [9]] (.withMaxFrame 8) reads := by
  refine ⟨[[0, 0, 0, 8], [1, 2, 3, 4, 5, 6, 7, 8, 0], [0, 0, 1, 9]], by decide, by decide, ?_⟩
  rintro ⟨received, result, _, clean, _⟩
  have broken : (FrameDecoder.receive rawCodec (.withMaxFrame 8)
      [[0, 0, 0, 8], [1, 2, 3, 4, 5, 6, 7, 8, 0], [0, 0, 1, 9]]).any
        fun received => received.error == some (.bufferOverflow 13) := by decide
  rw [result] at broken
  rw [Option.any_some, clean] at broken
  cases broken

end Receiving

end Uniterm.Model.Wire
