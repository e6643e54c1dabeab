import Mathlib.Data.List.Forall2
import Uniterm.Model.EventLog.Stream

/-! # Chunks, lines and records of a stream

Cutting a stream commutes with appending to it after a newline. The repair scanner decodes a chunk
without its newline, the replayer a line without its line end; both see the same record, because a
newline is never part of a longer UTF-8 sequence and JSON readers skip the carriage return.
-/

namespace Uniterm.Model

namespace Utf8

private theorem lead_low {b value low high count : ℕ} (found : lead b = some (value, low, high, count)) :
    0x80 ≤ low := by
  simp only [lead] at found
  split_ifs at found <;> simp only [Option.some.injEq, Prod.mk.injEq] at found <;> omega

private theorem tail_append {b : UInt8} (ascii : b.toNat < 0x80) {value low high count : ℕ}
    (above : 0x80 ≤ low) (rest : Bytes) :
    tail value low high count (rest ++ [b]) =
      ((tail value low high count rest).1, (tail value low high count rest).2 ++ [b]) := by
  induction count generalizing value low high rest with
  | zero => rfl
  | succ count ih =>
    cases rest with
    | nil =>
      have outside : ¬ (low ≤ b.toNat ∧ b.toNat ≤ high) := by omega
      simp only [List.nil_append, tail, if_neg outside]
    | cons c rest =>
      rw [List.cons_append, tail, tail]
      split
      · exact ih (Nat.le_refl _) rest
      · rfl

private theorem tail_length (value low high count : ℕ) (rest : Bytes) :
    (tail value low high count rest).2.length ≤ rest.length := by
  induction count generalizing value low high rest with
  | zero => exact Nat.le_refl _
  | succ count ih =>
    cases rest with
    | nil => exact Nat.le_refl _
    | cons c rest =>
      rw [tail]
      split
      · exact Nat.le_succ_of_le (ih ..)
      · exact Nat.le_refl _

private theorem decodeFrom_append {b : UInt8} (ascii : b.toNat < 0x80) {fuel : ℕ} {bytes : Bytes}
    (enough : bytes.length ≤ fuel) :
    decodeFrom (fuel + 1) (bytes ++ [b]) = decodeFrom fuel bytes ++ [some (Char.ofNat b.toNat)] := by
  induction fuel generalizing bytes with
  | zero =>
    obtain rfl := List.length_eq_zero_iff.mp (Nat.le_zero.mp enough)
    simp only [List.nil_append, decodeFrom, if_pos ascii]
  | succ fuel ih =>
    cases bytes with
    | nil =>
      simp only [List.nil_append, decodeFrom, if_pos ascii]
    | cons c rest =>
      have shorter : rest.length ≤ fuel := Nat.le_of_succ_le_succ enough
      rw [List.cons_append, decodeFrom, decodeFrom]
      split
      · rw [ih shorter, List.cons_append]
      · split
        · rw [ih shorter, List.cons_append]
        · next value low high count found =>
          have left := tail_length value low high count rest
          rw [tail_append ascii (lead_low found)]
          simp only [List.cons_append]
          rw [ih (by omega)]

private theorem decode_append {b : UInt8} (ascii : b.toNat < 0x80) (bytes : Bytes) :
    decode (bytes ++ [b]) = decode bytes ++ [some (Char.ofNat b.toNat)] := by
  rw [decode, List.length_append, List.length_singleton, decodeFrom_append ascii (Nat.le_refl _)]
  rfl

end Utf8

/-- An ASCII byte after a text extends it by one character. -/
theorem fromUtf8_append {b : UInt8} (ascii : b.toNat < 0x80) (bytes : Bytes) :
    fromUtf8 (bytes ++ [b]) = (fromUtf8 bytes).map (· ++ [Char.ofNat b.toNat]) := by
  rw [fromUtf8, Utf8.decode_append ascii, List.mapM_append, fromUtf8]
  cases (Utf8.decode bytes).mapM id <;> rfl

namespace EventLog

section Chunks

/-- A line with its newline. -/
def Whole (chunk : Bytes) : Prop := ∃ body, newline ∉ body ∧ chunk = body ++ [newline]

theorem chunks_flatten (bytes : Bytes) : (chunks bytes).flatten = bytes := by
  induction bytes with
  | nil => rfl
  | cons b rest ih =>
    rw [chunks]
    split
    · rw [List.flatten_cons, ih]
      rfl
    · split
      · next empty =>
        rw [empty] at ih
        rw [← ih]
        rfl
      · next chunk others cut =>
        rw [cut] at ih
        rw [← ih]
        rfl

theorem chunks_mem {bytes chunk : Bytes} (listed : chunk ∈ chunks bytes) :
    chunk ≠ [] ∧ newline ∉ chunk.dropLast := by
  induction bytes generalizing chunk with
  | nil => cases listed
  | cons b rest ih =>
    rw [chunks] at listed
    split at listed
    · rcases List.mem_cons.mp listed with rfl | later
      · exact ⟨List.cons_ne_nil _ _, List.not_mem_nil⟩
      · exact ih later
    · next other =>
      split at listed
      · obtain rfl := List.mem_singleton.mp listed
        exact ⟨List.cons_ne_nil _ _, List.not_mem_nil⟩
      · next first others cut =>
        rw [cut] at ih
        rcases List.mem_cons.mp listed with rfl | later
        · obtain ⟨some, free⟩ := ih List.mem_cons_self
          refine ⟨List.cons_ne_nil _ _, ?_⟩
          rw [List.dropLast_cons_of_ne_nil some, List.mem_cons]
          rintro (same | inside)
          · exact other same.symm
          · exact free inside
        · exact ih (List.mem_cons_of_mem _ later)

theorem chunks_whole {bytes chunk : Bytes} (listed : chunk ∈ chunks bytes)
    (ended : chunk.getLast? = some newline) : Whole chunk := by
  obtain ⟨some, free⟩ := chunks_mem listed
  refine ⟨chunk.dropLast, free, ?_⟩
  rw [List.getLast?_eq_some_getLast some] at ended
  rw [← Option.some.inj ended, List.dropLast_append_getLast some]

/-- A whole line is cut off by itself. -/
theorem chunks_line {body : Bytes} (free : newline ∉ body) (rest : Bytes) :
    chunks (body ++ [newline] ++ rest) = (body ++ [newline]) :: chunks rest := by
  induction body with
  | nil => rw [List.nil_append, List.singleton_append, chunks, if_pos rfl]
  | cons b body ih =>
    rw [List.mem_cons, not_or] at free
    rw [List.cons_append, List.cons_append, chunks, if_neg (Ne.symm free.1), ih free.2]

theorem chunks_append {cut : List Bytes} (whole : ∀ chunk ∈ cut, Whole chunk) (rest : Bytes) :
    chunks (cut.flatten ++ rest) = cut ++ chunks rest := by
  induction cut with
  | nil => rfl
  | cons chunk cut ih =>
    obtain ⟨body, free, rfl⟩ := whole chunk List.mem_cons_self
    rw [List.flatten_cons, List.append_assoc, chunks_line free,
      ih fun chunk listed => whole chunk (List.mem_cons_of_mem _ listed), List.cons_append]

theorem chunks_flatten_whole {cut : List Bytes} (whole : ∀ chunk ∈ cut, Whole chunk) :
    chunks cut.flatten = cut := by
  have appended := chunks_append whole []
  rwa [List.append_nil, chunks, List.append_nil] at appended

/-- Bytes without a newline are at most one chunk, and not a whole one. -/
theorem chunks_torn {torn : Bytes} (free : newline ∉ torn) :
    chunks torn = if torn = [] then [] else [torn] := by
  induction torn with
  | nil => rfl
  | cons b torn ih =>
    rw [List.mem_cons, not_or] at free
    rw [chunks, if_neg (Ne.symm free.1), ih free.2, if_neg (List.cons_ne_nil _ _)]
    cases torn with
    | nil => rfl
    | cons c torn => rw [if_neg (List.cons_ne_nil _ _)]

end Chunks

section Records

variable {codec : Codec}

/-- The record a chunk holds, if it is whole and decodes. -/
def recordOf (codec : Codec) (chunk : Bytes) : Option DecodedRecord :=
  if chunk.getLast? = some newline then
    (fromUtf8 chunk.dropLast).bind fun line =>
      match decodeRecordStrict codec line with
      | .ok record => some record
      | .error _ => none
  else none

theorem recordOf_some {chunk : Bytes} {record : DecodedRecord}
    (held : recordOf codec chunk = some record) :
    ∃ line, chunk.getLast? = some newline ∧ fromUtf8 chunk.dropLast = some line ∧
      decodeRecordStrict codec line = .ok record := by
  unfold recordOf at held
  split at held
  · next ended =>
    obtain ⟨line, text, decoded⟩ := Option.bind_eq_some_iff.mp held
    split at decoded
    · next found =>
      cases decoded
      exact ⟨line, ended, text, found⟩
    · cases decoded
  · cases held

theorem recordOf_sequence_le {chunk : Bytes} {record : DecodedRecord}
    (held : recordOf codec chunk = some record) {synthetic : ℕ} (small : synthetic ≤ u64Max) :
    record.sequence.getD synthetic ≤ u64Max := by
  obtain ⟨line, _, _, decoded⟩ := recordOf_some held
  unfold decodeRecordStrict at decoded
  split at decoded
  · cases decoded
  · unfold decodePlain at decoded
    split at decoded
    · next envelope read =>
      split at decoded
      · cases decoded
        exact codec.sequence_le _ envelope read
      · cases decoded
    · split at decoded
      · cases decoded
      · split at decoded
        · cases decoded
          exact small
        · cases decoded

/-- The records that a stream of whole lines holds. -/
def Records (codec : Codec) (bytes : Bytes) (records : List DecodedRecord) : Prop :=
  List.Forall₂ (fun chunk record => recordOf codec chunk = some record) (chunks bytes) records

theorem Records.unique {bytes : Bytes} {records records' : List DecodedRecord}
    (held : Records codec bytes records) (held' : Records codec bytes records') :
    records = records' := by
  unfold Records at held held'
  generalize chunks bytes = cut at held held'
  induction held generalizing records' with
  | nil =>
    cases held'
    rfl
  | cons first rest ih =>
    cases held' with
    | cons first' rest' => rw [Option.some.inj (first.symm.trans first'), ih rest']

private theorem decodeLine_concat (lenient : codec.Lenient) (line : Text) {c : Char}
    (ending : lineEnd c) :
    codec.decodeLine (line ++ [c]) = codec.decodeLine line ∨
      codec.decodeLine (line ++ [c]) = some (line ++ [c]) ∧ codec.decodeLine line = some line := by
  have same : Codec.sealedMarker.isPrefixOf (line ++ [c]) = Codec.sealedMarker.isPrefixOf line := by
    rw [Bool.eq_iff_iff, List.isPrefixOf_iff_prefix, List.isPrefixOf_iff_prefix,
      List.prefix_concat_iff]
    constructor
    · rintro (whole | inside)
      · -- The marker would end in the line end.
        have last := congrArg List.getLast? whole
        rw [List.getLast?_append_of_ne_nil _ (List.cons_ne_nil _ _)] at last
        rcases ending with rfl | rfl <;> exact absurd last (by decide)
      · exact inside
    · exact Or.inr
  unfold Codec.decodeLine
  rw [same, lenient.sealedField line c ending]
  split
  · exact .inl rfl
  · exact .inr ⟨rfl, rfl⟩

private theorem decodePlain_concat (lenient : codec.Lenient) (line : Text) {c : Char}
    (ending : lineEnd c) : decodePlain codec (line ++ [c]) = decodePlain codec line := by
  rw [decodePlain, decodePlain, lenient.envelope line c ending, lenient.versionField line c ending,
    lenient.legacy line c ending]

private theorem decodeRecordStrict_concat (lenient : codec.Lenient) (line : Text) {c : Char}
    (ending : lineEnd c) :
    decodeRecordStrict codec (line ++ [c]) = decodeRecordStrict codec line := by
  unfold decodeRecordStrict
  rcases decodeLine_concat lenient line ending with same | ⟨longer, plain⟩
  · rw [same]
  · rw [longer, plain]
    exact decodePlain_concat lenient line ending

theorem decodeRecordStrict_plain {line : Text} {record : DecodedRecord}
    (decoded : decodeRecordStrict codec line = .ok record) :
    ∃ plain, codec.decodeLine line = some plain ∧ decodePlain codec plain = .ok record := by
  unfold decodeRecordStrict at decoded
  split at decoded
  · cases decoded
  · next plain opened => exact ⟨plain, opened, decoded⟩

/-- A whole chunk read with its newline decodes to the chunk's record. -/
theorem chunk_record (lenient : codec.Lenient) {chunk : Bytes} {record : DecodedRecord}
    (held : recordOf codec chunk = some record) :
    ∃ line, fromUtf8 chunk = some line ∧ decodeRecordStrict codec line = .ok record := by
  obtain ⟨text, ended, decodes, found⟩ := recordOf_some held
  obtain ⟨body, rfl⟩ := List.getLast?_eq_some_iff.mp ended
  rw [List.dropLast_concat] at decodes
  refine ⟨text ++ ['\n'], ?_, ?_⟩
  · rw [fromUtf8_append (by decide), decodes]
    rfl
  · rwa [decodeRecordStrict_concat lenient text (.inr rfl)]

/-- The replayer's line of a whole chunk decodes to the chunk's record. -/
theorem lineOf_record (lenient : codec.Lenient) {chunk : Bytes} {record : DecodedRecord}
    (held : recordOf codec chunk = some record) :
    ∃ line, lineOf chunk = some line ∧ decodeRecordStrict codec line = .ok record := by
  obtain ⟨text, ended, decodes, found⟩ := recordOf_some held
  obtain ⟨body, rfl⟩ := List.getLast?_eq_some_iff.mp ended
  rw [List.dropLast_concat] at decodes
  have read : fromUtf8 (body ++ [newline]) = some (text ++ ['\n']) := by
    rw [fromUtf8_append (by decide), decodes]
    rfl
  rw [lineOf, read, Option.map_some, List.getLast?_concat, if_pos rfl, List.dropLast_concat]
  dsimp only
  split
  · next returned =>
    obtain ⟨front, rfl⟩ := List.getLast?_eq_some_iff.mp returned
    rw [decodeRecordStrict_concat lenient front (.inl rfl)] at found
    exact ⟨_, rfl, by rwa [List.dropLast_concat]⟩
  · exact ⟨text, rfl, found⟩

/-- The head of a stream of records: a valid checkpoint stands apart from the rest. -/
theorem checkpointHeader_cons (lenient : codec.Lenient) {bytes : Bytes} {record : DecodedRecord}
    {records : List DecodedRecord} (held : Records codec bytes (record :: records)) :
    checkpointHeaderWithOwner codec bytes =
      match record.event, record.workspace with
      | .recoveryCheckpoint state, some owner => (state.validate record.sequence).map fun _ =>
        (some state, some owner, bytes.drop ((chunks bytes).headD []).length)
      | _, owner => .ok (none, owner, bytes) := by
  unfold checkpointHeaderWithOwner
  unfold Records at held
  generalize chunks bytes = cut at held ⊢
  obtain _ | @⟨chunk, _, _, _, first, _⟩ := held
  obtain ⟨line, text, decoded⟩ := chunk_record lenient first
  obtain ⟨plain, opened, decoded⟩ := decodeRecordStrict_plain decoded
  rw [List.headD_cons]
  dsimp only
  rw [text]
  dsimp only
  rw [opened]
  dsimp only
  unfold decodePlain at decoded
  split at decoded
  · next envelope read =>
    rw [read]
    dsimp only
    split at decoded
    · next known =>
      cases decoded
      dsimp only
      split
      · next state checkpoint => rw [if_pos known, checkpoint]
      · next plain => split <;> first | rfl | exact absurd ‹_› (plain _)
    · cases decoded
  · next unread =>
    rw [unread]
    split at decoded
    · cases decoded
    · split at decoded
      · next event _ =>
        cases decoded
        cases event <;> rfl
      · cases decoded

end Records

end EventLog

end Uniterm.Model
