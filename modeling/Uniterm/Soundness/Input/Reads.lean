import Uniterm.Model.Input.Mouse

/-! # Cutting stdin into reads

A stream is a sequence of mouse reports and other bytes, and perhaps the beginning of a report. The reads of a stream
find the same reports and pass on the same bytes as one read of all of it, as long as no key that is held back comes
before a mouse report.
-/

namespace Uniterm.Model.Input

open Model

/-- A mouse report, or any other byte. -/
inductive StdinToken where
  | report (body : Bytes) (terminator : UInt8)
  | byte (byte : UInt8)
deriving DecidableEq, Repr

namespace StdinToken

def bytes : StdinToken → Bytes
  | report body terminator => 0x1b :: 0x5b :: 0x3c :: (body ++ [terminator])
  | byte b => [b]

def event : StdinToken → Option MouseEvent
  | report body terminator => parseSgrMouse body terminator
  | byte _ => none

/-- The byte that is passed on. -/
def passed : StdinToken → Option UInt8
  | report _ _ => none
  | byte b => some b

end StdinToken

/-- A buffer read from left to right. -/
inductive Scans : Bytes → List StdinToken → Bytes → Prop
  | nil : Scans [] [] []
  | unfinished {tail : Bytes} (head : mouseHead tail = .unfinished) : Scans tail [] tail
  | report {body rest tail : Bytes} {terminator : UInt8} {tokens : List StdinToken}
      (inner : ∀ b ∈ body, isReportEnd b = false) (ends : isReportEnd terminator = true)
      (further : Scans rest tokens tail) :
      Scans ((StdinToken.report body terminator).bytes ++ rest) (.report body terminator :: tokens) tail
  | byte {b : UInt8} {rest tail : Bytes} {tokens : List StdinToken} (head : mouseHead (b :: rest) = .plain)
      (further : Scans rest tokens tail) : Scans (b :: rest) (.byte b :: tokens) tail

section Scanning

variable {stream rest tail body : Bytes} {tokens : List StdinToken} {terminator : UInt8}

private theorem mouseHead_report (head : mouseHead stream = .report body terminator) :
    (∀ b ∈ body, isReportEnd b = false) ∧ isReportEnd terminator = true ∧
      ∃ rest, stream = (StdinToken.report body terminator).bytes ++ rest := by
  unfold mouseHead at head
  split at head
  next => cases head
  next whole =>
    split at head
    next => cases head
    next ender rest found =>
      injection head with same ends
      subst same ends
      refine ⟨fun b member => ?_, ?_, rest, ?_⟩
      · simpa using List.mem_takeWhile_imp member
      · have first := List.head?_dropWhile_not (fun b => !isReportEnd b) whole
        rw [found] at first
        simpa using first
      · have split := List.takeWhile_append_dropWhile (p := fun b => !isReportEnd b) (l := whole)
        rw [found] at split
        simp [StdinToken.bytes, split]
  next => cases head

private theorem mouseHead_of_report (inner : ∀ b ∈ body, isReportEnd b = false) (ends : isReportEnd terminator = true)
    (rest : Bytes) : mouseHead ((StdinToken.report body terminator).bytes ++ rest) = .report body terminator := by
  have all : ∀ b ∈ body, (!isReportEnd b) = true := by simpa using inner
  have stops : ¬ (fun b => !isReportEnd b) terminator = true := by simp [ends]
  have whole : (StdinToken.report body terminator).bytes ++ rest = 0x1b :: 0x5b :: 0x3c :: (body ++ terminator :: rest) := by
    simp [StdinToken.bytes]
  rw [whole]
  simp only [mouseHead]
  rw [List.dropWhile_append_of_pos all, List.dropWhile_cons_of_neg (p := fun b => !isReportEnd b) stops,
    List.takeWhile_append_of_pos all, List.takeWhile_cons_of_neg (p := fun b => !isReportEnd b) stops, List.append_nil]

private theorem scanMouseFrom_skip (skipped rest : Bytes) :
    scanMouseFrom skipped.length (skipped ++ rest) = scanMouse rest := by
  induction skipped with
  | nil => rfl
  | cons b skipped ih => exact ih

private theorem scanMouse_report (inner : ∀ b ∈ body, isReportEnd b = false) (ends : isReportEnd terminator = true)
    (rest : Bytes) : scanMouse ((StdinToken.report body terminator).bytes ++ rest) =
      ((parseSgrMouse body terminator).toList ++ (scanMouse rest).1, (scanMouse rest).2.1, (scanMouse rest).2.2) := by
  have head := mouseHead_of_report inner ends rest
  have skip := scanMouseFrom_skip (0x5b :: 0x3c :: (body ++ [terminator])) rest
  have length : (0x5b :: 0x3c :: (body ++ [terminator])).length = body.length + 3 := by simp
  rw [length] at skip
  have whole : (StdinToken.report body terminator).bytes ++ rest =
      0x1b :: ((0x5b :: 0x3c :: (body ++ [terminator])) ++ rest) := rfl
  rw [whole] at head ⊢
  simp only [scanMouse, scanMouseFrom, head, skip]

/-- What a scan of the stream returns. -/
theorem Scans.scanMouse (scans : Scans stream tokens tail) :
    scanMouse stream = (tokens.filterMap StdinToken.event, tokens.filterMap StdinToken.passed, tail) := by
  induction scans with
  | nil => rfl
  | @unfinished tail head =>
    cases tail with
    | nil => rfl
    | cons b rest => simp only [Input.scanMouse, scanMouseFrom, head, List.filterMap_nil]
  | report inner ends _ ih =>
    rw [scanMouse_report inner ends, ih, List.filterMap_cons, List.filterMap_cons]
    simp only [StdinToken.event, StdinToken.passed]
    cases parseSgrMouse _ _ <;> rfl
  | byte head _ ih =>
    unfold Input.scanMouse at ih ⊢
    simp only [scanMouseFrom, head, ih, List.filterMap_cons, StdinToken.event, StdinToken.passed]

/-- Every buffer can be read. -/
theorem exists_scans (stream : Bytes) : ∃ tokens tail, Scans stream tokens tail := by
  induction length : stream.length using Nat.strong_induction_on generalizing stream with
  | _ n ih =>
    cases stream with
    | nil => exact ⟨[], [], .nil⟩
    | cons b rest =>
      cases head : mouseHead (b :: rest) with
      | unfinished => exact ⟨[], _, .unfinished head⟩
      | plain =>
        obtain ⟨tokens, tail, further⟩ := ih rest.length (by rw [← length]; exact Nat.lt_succ_self _) rest rfl
        exact ⟨_, _, .byte head further⟩
      | report body terminator =>
        obtain ⟨inner, ends, later, whole⟩ := mouseHead_report head
        obtain ⟨tokens, tail, further⟩ := ih later.length (by
          rw [← length, whole, List.length_append]
          simp [StdinToken.bytes]) later rfl
        rw [whole]
        exact ⟨_, _, .report inner ends further⟩

/-- No byte is lost, and only reports are taken out. -/
theorem Scans.accounts (scans : Scans stream tokens tail) : stream = tokens.flatMap StdinToken.bytes ++ tail := by
  induction scans with
  | nil => rfl
  | unfinished => rfl
  | report _ _ _ ih => rw [List.flatMap_cons, List.append_assoc, ← ih]
  | byte _ _ ih => rw [List.flatMap_cons, List.append_assoc, ← ih]; rfl

theorem Scans.reports (scans : Scans stream tokens tail) {body : Bytes} {terminator : UInt8}
    (member : .report body terminator ∈ tokens) :
    (∀ b ∈ body, isReportEnd b = false) ∧ isReportEnd terminator = true := by
  induction scans with
  | nil => cases member
  | unfinished => cases member
  | report inner ends _ ih =>
    rcases List.mem_cons.mp member with same | later
    · injection same with body terminator
      subst body terminator
      exact ⟨inner, ends⟩
    · exact ih later
  | byte _ _ ih =>
    rcases List.mem_cons.mp member with same | later
    · cases same
    · exact ih later

theorem StdinToken.bytes_ne_nil (token : StdinToken) : token.bytes ≠ [] := by
  cases token with
  | report body terminator => exact List.cons_ne_nil _ _
  | byte b => exact List.cons_ne_nil _ _

theorem Scans.tokens_nil (scans : Scans [] tokens tail) : tokens = [] := by
  have none := scans.accounts
  cases tokens with
  | nil => rfl
  | cons token tokens =>
    rw [List.flatMap_cons, List.append_assoc] at none
    exact absurd none.symm (List.append_ne_nil_of_left_ne_nil token.bytes_ne_nil _)

/-- The bytes that open a mouse report. -/
def reportOpening : Bytes := [0x1b, 0x5b, 0x3c]

private theorem mouseHead_plain : mouseHead stream = .plain ↔ stream ≠ [0x1b, 0x5b] ∧ ¬ reportOpening <+: stream := by
  unfold mouseHead
  split
  next => simp
  next body =>
    have opened : reportOpening <+: 0x1b :: 0x5b :: 0x3c :: body := ⟨body, rfl⟩
    refine iff_of_false ?_ fun plain => plain.2 opened
    split
    · exact MouseHead.noConfusion
    · exact MouseHead.noConfusion
  next bare opened =>
    refine iff_of_true rfl ⟨bare, fun opening => ?_⟩
    obtain ⟨body, rfl⟩ := opening
    exact opened body rfl

/-- More bytes do not make a report of a byte that is none, except of a last escape byte. -/
theorem mouseHead_append {b : UInt8} {more : Bytes} (head : mouseHead (b :: rest) = .plain)
    (stable : rest = [] → b = escape → more.head? ≠ some 0x5b) : mouseHead (b :: (rest ++ more)) = .plain := by
  rw [mouseHead_plain] at head ⊢
  obtain ⟨bare, opened⟩ := head
  have second : ∀ later, b :: (rest ++ more) = 0x1b :: 0x5b :: later →
      ∃ rest', rest = 0x5b :: rest' ∧ later = rest' ++ more := by
    intro later whole
    obtain ⟨rfl, behind⟩ := List.cons.inj whole
    cases rest with
    | nil => exact absurd (by rw [← List.nil_append more, behind]; rfl) (stable rfl rfl)
    | cons c rest =>
      obtain ⟨rfl, after⟩ := List.cons.inj behind
      exact ⟨rest, rfl, after.symm⟩
  refine ⟨fun whole => ?_, fun ⟨body, whole⟩ => ?_⟩
  · obtain ⟨rest', rfl, none⟩ := second [] whole
    rw [(List.append_eq_nil_iff.mp none.symm).1, (List.cons.inj whole).1] at bare
    exact bare rfl
  · obtain ⟨rest', rfl, later⟩ := second (0x3c :: body) whole.symm
    cases rest' with
    | nil => exact bare (by rw [(List.cons.inj whole).1])
    | cons c rest' =>
      obtain ⟨rfl, -⟩ := List.cons.inj later
      exact opened ⟨rest', by rw [← (List.cons.inj whole).1]; rfl⟩

/-- Behind some of its tokens a buffer can be read on with more bytes. -/
theorem Scans.resume {later : List StdinToken} (scans : Scans stream (tokens ++ later) tail) :
    ∃ first rest, stream = first ++ rest ∧ Scans rest later tail ∧
      ∀ more tokens' tail', (rest = [] → tokens.getLast? = some (.byte escape) → more.head? ≠ some 0x5b) →
        Scans (rest ++ more) tokens' tail' → Scans (first ++ rest ++ more) (tokens ++ tokens') tail' := by
  induction tokens generalizing stream with
  | nil => exact ⟨[], stream, rfl, scans, fun _ _ _ _ further => further⟩
  | cons token tokens ih =>
    rw [List.cons_append] at scans
    have last {rest more : Bytes} (stable : rest = [] → (token :: tokens).getLast? = some (.byte escape) →
        more.head? ≠ some 0x5b) : rest = [] → tokens.getLast? = some (.byte escape) → more.head? ≠ some 0x5b := by
      intro none final
      refine stable none ?_
      cases tokens with
      | nil => nomatch final
      | cons other tokens => rwa [List.getLast?_cons_cons]
    cases scans with
    | report inner ends further =>
      obtain ⟨first, rest, rfl, scans, resumed⟩ := ih further
      refine ⟨_ ++ first, rest, (List.append_assoc ..).symm, scans, fun more tokens' tail' stable further => ?_⟩
      rw [List.append_assoc, List.append_assoc, ← List.append_assoc first]
      exact .report inner ends (resumed more tokens' tail' (last stable) further)
    | @byte b _ _ _ head further =>
      obtain ⟨first, rest, rfl, scans, resumed⟩ := ih further
      refine ⟨b :: first, rest, rfl, scans, fun more tokens' tail' stable more' => ?_⟩
      refine .byte ?_ (resumed more tokens' tail' (last stable) more')
      refine mouseHead_append head fun none is => ?_
      obtain ⟨rfl, rfl⟩ := List.append_eq_nil_iff.mp none
      have empty := (List.append_eq_nil_iff.mp (Scans.tokens_nil further)).1
      refine stable rfl ?_
      rw [empty, is]
      rfl

/-- Bytes that end no report and come last are tokens of their own. -/
theorem byte_tokens {key : Bytes} (quiet : ∀ b ∈ key, isReportEnd b = false) :
    ∀ {tokens : List StdinToken}, (∀ body terminator, .report body terminator ∈ tokens → isReportEnd terminator = true) →
      key <:+ tokens.flatMap StdinToken.bytes → key.map .byte <:+ tokens := by
  induction key using List.reverseRecOn with
  | nil => exact fun _ _ => List.nil_suffix
  | append_singleton key b ih =>
    intro tokens reports last
    rcases List.eq_nil_or_concat tokens with rfl | ⟨tokens, token, rfl⟩
    · simp at last
    rw [List.concat_eq_append, List.flatMap_append, List.flatMap_singleton] at last
    rw [List.concat_eq_append] at reports ⊢
    have bound : ∀ body terminator, .report body terminator ∈ tokens → isReportEnd terminator = true :=
      fun body terminator member => reports body terminator (List.mem_append_left _ member)
    cases token with
    | byte c =>
      rcases List.suffix_concat_iff.mp last with none | ⟨earlier, same, ended⟩
      · exact absurd none (by simp)
      · obtain ⟨rfl, rfl⟩ := List.concat_inj.mp (by simpa only [List.concat_eq_append] using same)
        rw [List.map_append, List.map_singleton]
        refine List.suffix_concat_iff.mpr (.inr ⟨_, rfl, ?_⟩)
        exact ih (fun b member => quiet b (List.mem_append_left _ member)) bound ended
    | report body terminator =>
      have ends := reports body terminator (List.mem_append_right _ (List.mem_singleton.mpr rfl))
      have split : tokens.flatMap StdinToken.bytes ++ (StdinToken.report body terminator).bytes =
          tokens.flatMap StdinToken.bytes ++ 0x1b :: 0x5b :: 0x3c :: body ++ [terminator] := by
        simp [StdinToken.bytes]
      rw [split] at last
      rcases List.suffix_concat_iff.mp last with none | ⟨earlier, same, -⟩
      · exact absurd none (by simp)
      · obtain ⟨-, rfl⟩ := List.concat_inj.mp (by simpa only [List.concat_eq_append] using same)
        have quiet := quiet b (List.mem_append_right _ (List.mem_singleton.mpr rfl))
        rw [ends] at quiet
        cases quiet

end Scanning

section Keys

/-- A key that is not complete: an escape byte, and perhaps a bracket and parameters. -/
structure HeldKey (key : Bytes) : Prop where
  begins : ∃ rest, key = escape :: rest ∧ partialKey rest = true
  once : escape ∉ key.tail

variable {key chunk : Bytes}

/-- No byte of a key that is not complete ends a report. -/
theorem HeldKey.quiet (held : HeldKey key) : ∀ b ∈ key, isReportEnd b = false := by
  obtain ⟨rest, rfl, partly⟩ := held.begins
  have params (params : Bytes) (open_ : params.any isFinal = false) : ∀ b ∈ params, isReportEnd b = false := by
    intro b member
    have final : isFinal b = false := by
      rw [List.any_eq_false] at open_
      simpa using open_ b member
    cases ends : isReportEnd b with
    | false => rfl
    | true =>
      rcases Bool.or_eq_true_iff.mp ends with same | same
      · rw [eq_of_beq same] at final
        exact absurd final (by decide)
      · rw [eq_of_beq same] at final
        exact absurd final (by decide)
  intro b member
  rcases List.mem_cons.mp member with rfl | inRest
  · rfl
  unfold partialKey at partly
  split at partly
  next => cases inRest
  next tail =>
    rcases List.mem_cons.mp inRest with rfl | inParams
    · rfl
    · simp only [Bool.and_eq_true, Bool.not_eq_true'] at partly
      exact params _ partly.2 b inParams
  next => cases partly

/-- A buffer is cut before its last escape byte. -/
theorem cut_escape (member : escape ∈ chunk) :
    ∃ kept, chunk = kept ++ escape :: chunk.rtakeWhile (fun b => decide (b ≠ escape)) := by
  have whole := List.rdropWhile_append_rtakeWhile (p := fun b : UInt8 => decide (b ≠ escape)) (l := chunk)
  have nonempty : chunk.rdropWhile (fun b => decide (b ≠ escape)) ≠ [] := by
    intro none
    have foreign := List.rdropWhile_eq_nil_iff.mp none escape member
    simp at foreign
  have last : (chunk.rdropWhile (fun b => decide (b ≠ escape))).getLast nonempty = escape := by
    simpa using List.rdropWhile_last_not (fun b => decide (b ≠ escape)) chunk nonempty
  have kept := List.dropLast_append_getLast nonempty
  rw [last] at kept
  refine ⟨(chunk.rdropWhile fun b => decide (b ≠ escape)).dropLast, ?_⟩
  rw [List.append_cons, kept, whole]

/-- What is split off is a key that is not complete. -/
theorem splitPartialEscape_parts (chunk : Bytes) :
    (splitPartialEscape chunk).1 ++ (splitPartialEscape chunk).2 = chunk ∧
      ((splitPartialEscape chunk).2 = [] ∨ HeldKey (splitPartialEscape chunk).2) ∧
      ((splitPartialEscape chunk).2 = [] → chunk.getLast? ≠ some escape) := by
  have foreign : escape ∉ chunk.rtakeWhile (fun b => decide (b ≠ escape)) := fun member => by
    simpa using List.mem_rtakeWhile_imp member
  unfold splitPartialEscape
  dsimp only
  split
  next partly =>
    obtain ⟨kept, cut⟩ := cut_escape partly.1
    have key := partly.2
    generalize chunk.rtakeWhile (fun b => decide (b ≠ escape)) = rest at cut foreign key ⊢
    have taken : chunk.take (chunk.length - (rest.length + 1)) = kept := by
      rw [cut]
      exact List.take_left' (by simp)
    refine ⟨?_, .inr ⟨⟨_, rfl, key⟩, foreign⟩, fun none => nomatch none⟩
    rw [taken, ← cut]
  next complete =>
    refine ⟨List.append_nil _, .inl rfl, fun _ last => complete ⟨List.mem_of_getLast? last, ?_⟩⟩
    have none : chunk.rtakeWhile (fun b => decide (b ≠ escape)) = [] := by
      refine List.rtakeWhile_eq_nil_iff.mpr fun some => ?_
      rw [List.getLast?_eq_some_getLast some, Option.some.injEq] at last
      simp [last]
    rw [none]
    rfl

private theorem flatMap_bytes (key : Bytes) : (key.map StdinToken.byte).flatMap StdinToken.bytes = key := by
  induction key with
  | nil => rfl
  | cons b key ih => exact congrArg (b :: ·) ih

/-- Bytes before which no escape byte stands are tokens of their own. -/
theorem Scans.behind {rest tail : Bytes} {tokens : List StdinToken} (scans : Scans rest tokens tail) {bytes : Bytes}
    (foreign : escape ∉ bytes) : Scans (bytes ++ rest) (bytes.map .byte ++ tokens) tail := by
  induction bytes with
  | nil => exact scans
  | cons b bytes ih =>
    refine .byte ?_ (ih fun member => foreign (.tail _ member))
    have other : b ≠ 0x1b := fun is => foreign (is ▸ List.mem_cons_self ..)
    rw [mouseHead_plain]
    refine ⟨fun bare => other (List.cons.inj bare).1, fun ⟨body, whole⟩ => other (List.cons.inj whole).1.symm⟩

/-- A key that begins no mouse report is more than an escape byte, and is passed on. -/
theorem HeldKey.scans (held : HeldKey key) (closed : ¬ key <+: reportOpening ∧ ¬ reportOpening <+: key)
    {rest tail : Bytes} {tokens : List StdinToken} (scans : Scans rest tokens tail) :
    key.getLast? ≠ some escape ∧ Scans (key ++ rest) (key.map .byte ++ tokens) tail := by
  obtain ⟨after, rfl, partly⟩ := held.begins
  have foreign : escape ∉ after := held.once
  unfold partialKey at partly
  split at partly
  next => exact absurd (by decide) closed.1
  next params =>
    cases params with
    | nil => exact absurd (by decide) closed.1
    | cons c params =>
      refine ⟨fun last => ?_, .byte ?_ (scans.behind foreign)⟩
      · rw [List.getLast?_cons_cons] at last
        exact foreign (List.mem_of_getLast? last)
      · rw [mouseHead_plain]
        refine ⟨fun bare => by simp at bare, fun ⟨body, whole⟩ => closed.2 ?_⟩
        have third : (0x3c : UInt8) = c := by
          have tails := (List.cons.inj (List.cons.inj whole).2).2
          exact (List.cons.inj tails).1
        exact ⟨params, by rw [← third]; rfl⟩
  next => cases partly

end Keys

section Runs

/-- The tails of some reads of a stream with those tokens, and what was found in them. -/
structure Caught (stream : Bytes) (tokens : List StdinToken) (tails : StdinTails) (events : List MouseEvent)
    (passed : Bytes) : Prop where
  scans : Scans stream tokens tails.mouseLeftover
  events : events = tokens.filterMap StdinToken.event
  passed : passed ++ tails.keyPending = tokens.filterMap StdinToken.passed
  key : tails.keyPending = [] ∨ HeldKey tails.keyPending
  settled : tails.keyPending = [] → tails.mouseLeftover = [] → tokens.getLast? ≠ some (.byte escape)

/-- A key that is held back can be scanned again where it stands: no mouse report came after it, or it begins none. -/
def Glued (stream : Bytes) (tails : StdinTails) : Prop :=
  tails.keyPending = [] ∨ tails.mouseLeftover = [] ∧
    (tails.keyPending <:+ stream ∨ ¬ tails.keyPending <+: reportOpening ∧ ¬ reportOpening <+: tails.keyPending)

variable {stream passed chunk : Bytes} {tokens : List StdinToken} {tails : StdinTails} {events : List MouseEvent}

private theorem filterMap_key (key : Bytes) :
    (key.map StdinToken.byte).filterMap StdinToken.event = [] ∧
      (key.map StdinToken.byte).filterMap StdinToken.passed = key := by
  constructor
  · induction key with
    | nil => rfl
    | cons b key ih => exact ih
  · induction key with
    | nil => rfl
    | cons b key ih => exact congrArg (b :: ·) ih

/-- The last token is an escape byte only if the last byte passed on is. -/
theorem getLast_passed {tokens : List StdinToken} (last : tokens.getLast? = some (.byte escape)) :
    (tokens.filterMap StdinToken.passed).getLast? = some escape := by
  obtain ⟨earlier, rfl⟩ := List.getLast?_eq_some_iff.mp last
  rw [List.filterMap_append]
  simp [StdinToken.passed]

/-- What a read leaves, from the tokens of the bytes that it scans. -/
theorem Caught.of_scan {raw tail before : Bytes} {fresh : List StdinToken} (scans : Scans raw fresh tail)
    (whole : Scans (stream ++ chunk) tokens tail)
    (scanned : tails.mouseLeftover ++ tails.keyPending ++ chunk = raw)
    (found : tokens.filterMap StdinToken.event = events ++ fresh.filterMap StdinToken.event)
    (kept : tokens.filterMap StdinToken.passed = before ++ fresh.filterMap StdinToken.passed)
    (settled : tail = [] → tokens.getLast? = some (.byte escape) →
      (fresh.filterMap StdinToken.passed).getLast? = some escape) :
    Caught (stream ++ chunk) tokens (scanStdinChunk tails chunk).1 (events ++ (scanStdinChunk tails chunk).2.1)
      (before ++ (scanStdinChunk tails chunk).2.2) := by
  have parts := splitPartialEscape_parts (fresh.filterMap StdinToken.passed)
  unfold scanStdinChunk
  dsimp only
  rw [scanned, scans.scanMouse]
  dsimp only
  refine ⟨whole, found.symm, ?_, parts.2.1, fun none quiet last => ?_⟩
  · rw [List.append_assoc, parts.1, kept]
  · exact parts.2.2 none (settled quiet last)

/-- One read of a stream. -/
theorem Caught.read (caught : Caught stream tokens tails events passed) (glued : Glued stream tails) (chunk : Bytes) :
    ∃ tokens', Caught (stream ++ chunk) tokens' (scanStdinChunk tails chunk).1
      (events ++ (scanStdinChunk tails chunk).2.1) (passed ++ (scanStdinChunk tails chunk).2.2) := by
  have passed' := caught.passed
  have last (final : tokens.getLast? = some (.byte escape)) (none : tails.mouseLeftover = []) :
      tails.keyPending.getLast? = some escape := by
    have end_ := getLast_passed final
    rw [← passed'] at end_
    rcases caught.key with empty | held
    · exact absurd final (caught.settled empty none)
    · obtain ⟨rest, is, -⟩ := held.begins
      rw [is] at end_ ⊢
      rwa [List.getLast?_append_of_ne_nil _ (List.cons_ne_nil _ _)] at end_
  by_cases none : tails.keyPending = []
  · -- Nothing is held back: the scan goes on behind the unfinished report.
    obtain ⟨fresh, tail, scans⟩ := exists_scans (tails.mouseLeftover ++ chunk)
    have whole : Scans stream (tokens ++ []) tails.mouseLeftover := by
      rw [List.append_nil]
      exact caught.scans
    obtain ⟨first, rest, rfl, left, resumed⟩ := whole.resume
    obtain rfl : rest = tails.mouseLeftover := left.accounts
    refine ⟨tokens ++ fresh, .of_scan scans (resumed chunk fresh tail (fun empty final => ?_) scans)
      (by rw [none, List.append_nil]) ?_ ?_ fun quiet final => ?_⟩
    · exact absurd final (caught.settled none empty)
    · rw [List.filterMap_append, caught.events]
    · rw [List.filterMap_append, ← passed', none, List.append_nil]
    · rcases List.eq_nil_or_concat fresh with rfl | ⟨fresh, token, rfl⟩
      · have empty := scans.accounts
        rw [quiet, List.flatMap_nil, List.append_nil] at empty
        rw [List.append_nil] at final
        exact absurd final (caught.settled none (List.append_eq_nil_iff.mp empty).1)
      · rw [List.concat_eq_append, ← List.append_assoc, List.getLast?_concat] at final
        rw [List.concat_eq_append]
        exact getLast_passed (by rw [List.getLast?_concat, final])
  have held : HeldKey tails.keyPending := caught.key.resolve_left none
  obtain ⟨noMouse, standing | closed⟩ := glued.resolve_left none
  · -- The key stands at the end of what was read: it is scanned again, with what follows it.
    obtain ⟨fresh, tail, scans⟩ := exists_scans (tails.keyPending ++ chunk)
    have bytes := caught.scans.accounts
    rw [noMouse, List.append_nil] at bytes
    rw [bytes] at standing
    obtain ⟨earlier, rfl⟩ := byte_tokens held.quiet (fun _ _ member => (caught.scans.reports member).2) standing
    obtain ⟨first, rest, rfl, left, resumed⟩ := caught.scans.resume
    obtain rfl : rest = tails.keyPending := by
      have same := left.accounts
      rwa [noMouse, List.append_nil, flatMap_bytes] at same
    have events' := caught.events
    rw [List.filterMap_append, (filterMap_key _).1, List.append_nil] at events'
    rw [List.filterMap_append, (filterMap_key _).2] at passed'
    refine ⟨earlier ++ fresh, .of_scan scans (resumed chunk fresh tail (fun empty => absurd empty none) scans)
      (by rw [noMouse, List.nil_append]) ?_ ?_ fun quiet final => ?_⟩
    · rw [List.filterMap_append, events']
    · rw [List.filterMap_append, List.append_cancel_right passed']
    · rcases List.eq_nil_or_concat fresh with rfl | ⟨fresh, token, rfl⟩
      · have empty := scans.accounts
        rw [quiet, List.flatMap_nil, List.append_nil] at empty
        exact absurd (List.append_eq_nil_iff.mp empty).1 none
      · rw [List.concat_eq_append, ← List.append_assoc, List.getLast?_concat] at final
        rw [List.concat_eq_append]
        exact getLast_passed (by rw [List.getLast?_concat, final])
  · -- The key cannot begin a report: wherever it stands, it is passed on.
    obtain ⟨fresh, tail, scans⟩ := exists_scans chunk
    obtain ⟨final, keyed⟩ := held.scans closed scans
    have unescaped : tokens.getLast? ≠ some (.byte escape) := fun escaped => final (last escaped noMouse)
    have whole : Scans stream (tokens ++ []) [] := by
      rw [List.append_nil, ← noMouse]
      exact caught.scans
    obtain ⟨first, rest, rfl, left, resumed⟩ := whole.resume
    obtain rfl : rest = [] := left.accounts
    refine ⟨tokens ++ fresh, .of_scan keyed (resumed chunk fresh tail (fun _ escaped => absurd escaped unescaped) scans)
      (by rw [noMouse, List.nil_append]) ?_ ?_ fun _ escaped => ?_⟩
    · rw [List.filterMap_append, List.filterMap_append, (filterMap_key _).1, caught.events, List.nil_append]
    · rw [List.filterMap_append, List.filterMap_append, (filterMap_key _).2, ← passed', List.append_assoc]
    · rcases List.eq_nil_or_concat fresh with rfl | ⟨fresh, token, rfl⟩
      · rw [List.append_nil] at escaped
        exact absurd escaped unescaped
      · rw [List.concat_eq_append, ← List.append_assoc, List.getLast?_concat] at escaped
        rw [List.concat_eq_append, ← List.append_assoc]
        exact getLast_passed (by rw [List.getLast?_concat, escaped])

/-- The reads of a stream. -/
def scanChunks (tails : StdinTails) : List Bytes → StdinTails × List MouseEvent × Bytes
  | [] => (tails, [], [])
  | chunk :: chunks =>
    let (tails, events, passed) := scanStdinChunk tails chunk
    let (tails, events', passed') := scanChunks tails chunks
    (tails, events ++ events', passed ++ passed')

/-- What is kept of a stream, in the order in which it was read. -/
def StdinTails.retained (tails : StdinTails) : Bytes := tails.keyPending ++ tails.mouseLeftover

/-- In one read and in several, the same reports are found and the same bytes are passed on or kept, and these are
the reports of the stream and its other bytes. -/
structure Independent (chunks : List Bytes) : Prop where
  events : (scanChunks {} chunks).2.1 = (scanChunks {} [chunks.flatten]).2.1
  passed : (scanChunks {} chunks).2.2 ++ (scanChunks {} chunks).1.retained =
    (scanChunks {} [chunks.flatten]).2.2 ++ (scanChunks {} [chunks.flatten]).1.retained
  complete : ∃ (tokens : List StdinToken) (tail : Bytes), chunks.flatten = tokens.flatMap StdinToken.bytes ++ tail ∧
    (∀ body terminator, StdinToken.report body terminator ∈ tokens →
      (∀ b ∈ body, isReportEnd b = false) ∧ isReportEnd terminator = true) ∧
    (scanChunks {} chunks).2.1 = tokens.filterMap StdinToken.event ∧
    (scanChunks {} chunks).2.2 ++ (scanChunks {} chunks).1.retained = tokens.filterMap StdinToken.passed ++ tail

private theorem caught_nil : Caught [] [] {} [] [] := ⟨.nil, rfl, rfl, .inl rfl, fun _ _ last => nomatch last⟩

/-- The reads of a stream, as long as no key is held back in front of a mouse report when another read comes. -/
theorem Caught.run {chunks : List Bytes} (caught : Caught stream tokens tails events passed)
    (glued : ∀ before after, chunks = before ++ after → after ≠ [] →
      Glued (stream ++ before.flatten) (scanChunks tails before).1) :
    ∃ tokens', Caught (stream ++ chunks.flatten) tokens' (scanChunks tails chunks).1
      (events ++ (scanChunks tails chunks).2.1) (passed ++ (scanChunks tails chunks).2.2) := by
  induction chunks generalizing stream tokens tails events passed with
  | nil =>
    refine ⟨tokens, ?_⟩
    simp only [List.flatten_nil, List.append_nil, scanChunks]
    exact caught
  | cons chunk chunks ih =>
    have first := glued [] (chunk :: chunks) rfl (List.cons_ne_nil _ _)
    rw [List.flatten_nil, List.append_nil] at first
    obtain ⟨tokens₁, read⟩ := caught.read first chunk
    obtain ⟨tokens', rest⟩ := ih read fun before after split more => by
      have later := glued (chunk :: before) after (by rw [split]; rfl) more
      rwa [List.flatten_cons, ← List.append_assoc] at later
    refine ⟨tokens', ?_⟩
    rw [List.flatten_cons, ← List.append_assoc]
    simp only [scanChunks, ← List.append_assoc]
    exact rest

/-- A stream that is cut nowhere between a held key and a mouse report is scanned as a whole. -/
theorem scanChunks_independent {chunks : List Bytes} (glued : ∀ before after, chunks = before ++ after → after ≠ [] →
    Glued before.flatten (scanChunks {} before).1) : Independent chunks := by
  have start (chunks : List Bytes) : (∀ before after, chunks = before ++ after → after ≠ [] →
      Glued before.flatten (scanChunks {} before).1) → ∃ tokens, Caught chunks.flatten tokens (scanChunks {} chunks).1
      (scanChunks {} chunks).2.1 (scanChunks {} chunks).2.2 := by
    simpa only [List.nil_append] using caught_nil.run
  obtain ⟨tokens, cut⟩ := start chunks glued
  obtain ⟨tokens', whole⟩ := start [chunks.flatten] fun before after split more => by
    cases before with
    | nil => exact .inl rfl
    | cons chunk before =>
      have none := (List.cons.inj split).2.symm
      exact absurd (List.append_eq_nil_iff.mp none).2 more
  rw [List.flatten_singleton] at whole
  have same := cut.scans.scanMouse.symm.trans whole.scans.scanMouse
  rw [Prod.mk.injEq, Prod.mk.injEq] at same
  obtain ⟨events, passed, tail⟩ := same
  have kept : (scanChunks {} chunks).2.2 ++ (scanChunks {} chunks).1.retained =
      tokens.filterMap StdinToken.passed ++ (scanChunks {} chunks).1.mouseLeftover := by
    rw [StdinTails.retained, ← List.append_assoc, cut.passed]
  have kept' : (scanChunks {} [chunks.flatten]).2.2 ++ (scanChunks {} [chunks.flatten]).1.retained =
      tokens'.filterMap StdinToken.passed ++ (scanChunks {} [chunks.flatten]).1.mouseLeftover := by
    rw [StdinTails.retained, ← List.append_assoc, whole.passed]
  refine ⟨?_, ?_, tokens, _, cut.scans.accounts, fun _ _ member => cut.scans.reports member, cut.events, kept⟩
  · rw [cut.events, whole.events, events]
  · rw [kept, kept', passed, tail]

/-- An arrow key and a mouse report, cut inside each. -/
theorem scanChunks_independent_arrow : Independent [[0x1b], [0x5b, 0x41, 0x1b, 0x5b, 0x3c, 0x30, 0x3b, 0x31],
    [0x3b, 0x31, 0x4d, 0x78]] := by
  refine scanChunks_independent fun before after split more => ?_
  rcases before with _ | ⟨_, _ | ⟨_, _ | ⟨_, rest⟩⟩⟩
  · exact .inl rfl
  · obtain ⟨rfl, -⟩ := List.cons.inj split
    exact .inr ⟨by decide, .inl (by decide)⟩
  · obtain ⟨rfl, later⟩ := List.cons.inj split
    obtain ⟨rfl, -⟩ := List.cons.inj later
    exact .inl (by decide)
  · have none := (List.cons.inj (List.cons.inj (List.cons.inj split).2).2).2.symm
    exact absurd (List.append_eq_nil_iff.mp none).2 more

/-- A lone escape byte before an arrow key: the read ends inside the arrow key, and the next one begins with its
first bytes instead of the escape byte. -/
theorem not_independent_of_arrow : ¬ Independent [[0x1b, 0x1b, 0x5b], [0x41]] :=
  fun independent => absurd independent.passed (by decide)

end Runs

end Uniterm.Model.Input
