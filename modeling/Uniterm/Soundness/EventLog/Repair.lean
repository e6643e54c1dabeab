import Uniterm.Soundness.EventLog.Restore

/-! # Repair keeps a recoverable, maximal prefix

A recoverable stream is stated without the scanner. The kept prefix is recoverable, replayable and
stable under repair, with two exceptions that come from the values zero and `u64::MAX` standing for
"no record yet" and "broken": the exact condition is on the sequences at the head of the stream.
-/

namespace Uniterm.Model.EventLog

variable {codec : Codec}

/-- Whole decodable records with contiguous sequences under one chain of owners that ends at
`name`. -/
structure Recoverable (codec : Codec) (bytes : Bytes) (name : String) : Prop where
  intact : ∃ records owner, Records codec bytes records ∧
    (numbered 0 records).IsChain (fun a b => b = a + 1) ∧
    OwnershipChain none records owner ∧ (owner = none ∨ owner = some name)

section Sequences

/-- The longest initial part in which every number is the successor of the one before. -/
def contiguousRun : List ℕ → List ℕ
  | [] => []
  | [a] => [a]
  | a :: b :: rest => if b = a + 1 then a :: contiguousRun (b :: rest) else [a]

/-- Sequence zero is followed by one, and the contiguous run does not end the number space. -/
def SoundSequences (sequences : List ℕ) : Prop :=
  (∀ next rest, sequences = 0 :: next :: rest → next = 1) ∧ u64Max ∉ contiguousRun sequences

theorem saturatingAdd64_of_lt {a : ℕ} (below : a < u64Max) : saturatingAdd64 a 1 = a + 1 :=
  Nat.min_eq_left below

private theorem mem_contiguousRun (a : ℕ) (rest : List ℕ) : a ∈ contiguousRun (a :: rest) := by
  cases rest with
  | nil => exact List.mem_cons_self
  | cons b rest =>
    rw [contiguousRun]
    split <;> exact List.mem_cons_self

private theorem contiguousRun_succ (a : ℕ) (rest : List ℕ) :
    contiguousRun (a :: (a + 1) :: rest) = a :: contiguousRun ((a + 1) :: rest) := by
  rw [contiguousRun, if_pos rfl]

/-- A contiguous list that cannot be continued is the run. -/
private theorem contiguousRun_append {a : ℕ} {taken rest : List ℕ}
    (chain : (a :: taken).IsChain fun a b => b = a + 1)
    (broken : ∀ next more, rest = next :: more → next ≠ (a :: taken).getLastD 0 + 1) :
    contiguousRun (a :: taken ++ rest) = a :: taken := by
  induction taken generalizing a with
  | nil =>
    cases rest with
    | nil => rfl
    | cons next more => exact if_neg (broken next more rfl)
  | cons b taken ih =>
    obtain ⟨rfl, chain⟩ := List.isChain_cons_cons.mp chain
    rw [List.cons_append, List.cons_append, contiguousRun_succ, ← List.cons_append, ih chain]
    intro next more split
    have further := broken next more split
    rwa [List.getLastD_cons] at further

theorem le_last_of_chain {a : ℕ} {taken : List ℕ}
    (chain : (a :: taken).IsChain fun a b => b = a + 1) :
    ∀ b ∈ a :: taken, b ≤ (a :: taken).getLastD 0 := by
  induction taken generalizing a with
  | nil =>
    intro b member
    obtain rfl := List.mem_singleton.mp member
    exact Nat.le_refl _
  | cons c taken ih =>
    obtain ⟨rfl, chain⟩ := List.isChain_cons_cons.mp chain
    intro b member
    rw [List.getLastD_cons]
    rcases List.mem_cons.mp member with rfl | later
    · exact Nat.le_of_succ_le (ih chain _ List.mem_cons_self)
    · exact ih chain b later

private theorem chain_of_stepwise {a : ℕ} {taken rest : List ℕ} (positive : a ≠ 0)
    (bound : a ≤ u64Max) (stepwise : Stepwise a taken)
    (inside : u64Max ∉ contiguousRun (a :: taken ++ rest)) :
    (a :: taken).IsChain (fun a b => b = a + 1) ∧ (a :: taken).getLastD 0 ≠ u64Max := by
  have here : a ≠ u64Max := by
    rintro rfl
    exact inside (mem_contiguousRun ..)
  induction taken generalizing a with
  | nil => exact ⟨.singleton _, here⟩
  | cons b taken ih =>
    obtain ⟨follows, later⟩ := stepwise
    have below : a < u64Max := Nat.lt_of_le_of_ne bound here
    obtain rfl : b = a + 1 := (follows positive).trans (saturatingAdd64_of_lt below)
    rw [List.cons_append, List.cons_append, contiguousRun_succ, List.mem_cons, not_or] at inside
    have next : a + 1 ≠ u64Max := by
      intro last
      apply inside.2
      rw [← last]
      exact mem_contiguousRun ..
    obtain ⟨chain, last⟩ := ih (Nat.succ_ne_zero a) below later inside.2 next
    exact ⟨List.isChain_cons_cons.mpr ⟨rfl, chain⟩, by rwa [List.getLastD_cons]⟩

/-- The sequences that were taken are contiguous and leave room exactly when the sequences at the
head of the stream are sound. -/
private theorem taken_sound_iff {taken rest : List ℕ} (bounds : ∀ a ∈ taken, a ≤ u64Max)
    (stepwise : Stepwise 0 taken)
    (stopped : ∀ next more, rest = next :: more → ¬ Follows (taken.getLastD 0) next) :
    (taken.IsChain (fun a b => b = a + 1) ∧ taken.getLastD 0 ≠ u64Max) ↔
      SoundSequences (taken ++ rest) := by
  -- Nothing stops before the first record or after a record numbered zero.
  have exhausted (zero : taken.getLastD 0 = 0) : rest = [] := by
    cases rest with
    | nil => rfl
    | cons next more =>
      refine absurd ?_ (stopped next more rfl)
      rw [zero]
      exact fun positive => absurd rfl positive
  cases taken with
  | nil =>
    rw [exhausted rfl]
    constructor
    · intro _
      exact ⟨by simp, List.not_mem_nil⟩
    · intro _
      exact ⟨.nil, by decide⟩
  | cons a taken =>
    constructor
    · rintro ⟨chain, last⟩
      constructor
      · intro next more split
        cases taken with
        | nil =>
          obtain ⟨rfl, after⟩ := List.cons.inj split
          rw [exhausted rfl] at after
          cases after
        | cons b taken =>
          obtain ⟨rfl, after⟩ := List.cons.inj split
          obtain ⟨rfl, _⟩ := List.cons.inj after
          exact (List.isChain_cons_cons.mp chain).1
      · have bound : (a :: taken).getLastD 0 ≤ u64Max := by
          apply bounds
          rw [List.getLastD_cons]
          exact List.getLastD_mem_cons ..
        rw [contiguousRun_append chain]
        · intro member
          exact last (Nat.le_antisymm bound (le_last_of_chain chain _ member))
        · intro next more split same
          refine stopped next more split fun _ => ?_
          rw [same, saturatingAdd64_of_lt (Nat.lt_of_le_of_ne bound last)]
    · rintro ⟨origin, inside⟩
      by_cases zero : a = 0
      · subst zero
        cases taken with
        | nil => exact ⟨.singleton _, by decide⟩
        | cons b taken =>
          obtain rfl := origin b (taken ++ rest) rfl
          rw [List.cons_append, List.cons_append, contiguousRun_succ 0, List.mem_cons, not_or] at inside
          obtain ⟨chain, last⟩ := chain_of_stepwise (by decide) (by decide) stepwise.2.2 inside.2
          exact ⟨List.isChain_cons_cons.mpr ⟨rfl, chain⟩, by rwa [List.getLastD_cons]⟩
      · exact chain_of_stepwise zero (bounds a List.mem_cons_self) stepwise.2 inside

end Sequences

section Prefixes

/-- The records that the stream's first lines hold, up to the first line that holds none. -/
def leadingRecords (codec : Codec) : List Bytes → List DecodedRecord
  | [] => []
  | chunk :: rest =>
    match recordOf codec chunk with
    | some record => record :: leadingRecords codec rest
    | none => []

/-- Their sequences, counting bare records from one. -/
def leadingSequences (codec : Codec) (bytes : Bytes) : List ℕ :=
  numbered 0 (leadingRecords codec (chunks bytes))

theorem leadingRecords_append {kept : List Bytes} {records : List DecodedRecord}
    (held : List.Forall₂ (fun chunk record => recordOf codec chunk = some record) kept records)
    (rest : List Bytes) :
    leadingRecords codec (kept ++ rest) = records ++ leadingRecords codec rest := by
  induction held with
  | nil => rfl
  | cons first others ih => rw [List.cons_append, leadingRecords, first, ih, List.cons_append]

theorem numbered_le {kept : List Bytes} {records : List DecodedRecord}
    (held : List.Forall₂ (fun chunk record => recordOf codec chunk = some record) kept records)
    (synthetic : ℕ) : ∀ a ∈ numbered synthetic records, a ≤ u64Max := by
  induction held generalizing synthetic with
  | nil =>
    intro a member
    cases member
  | cons first others ih =>
    intro a member
    rcases List.mem_cons.mp member with rfl | later
    · exact recordOf_sequence_le first (Nat.min_le_right ..)
    · exact ih _ a later

theorem stepwise_of_chain {sequences : List ℕ} (bounds : ∀ a ∈ sequences, a ≤ u64Max)
    (chain : sequences.IsChain fun a b => b = a + 1) : Stepwise 0 sequences := by
  cases sequences with
  | nil => trivial
  | cons a rest =>
    refine ⟨fun positive => absurd rfl positive, ?_⟩
    induction rest generalizing a with
    | nil => trivial
    | cons b rest ih =>
      obtain ⟨rfl, chain⟩ := List.isChain_cons_cons.mp chain
      have bound : a + 1 ≤ u64Max := bounds (a + 1) (by simp)
      refine ⟨fun _ => (saturatingAdd64_of_lt bound).symm, ih _ ?_ chain⟩
      intro c member
      exact bounds c (List.mem_cons_of_mem _ member)

/-- What the scanner kept, and where it stopped. -/
theorem consistentPrefixLen_ok {bytes : Bytes} {name : String} {k : ℕ} :
    consistentPrefixLen codec bytes name = .ok k ↔ ∃ kept dropped final,
      chunks bytes = kept ++ dropped ∧ Accepted codec {} kept final ∧ Stopped codec final dropped ∧
      (final.owner = none ∨ final.owner = some name) ∧ k = kept.flatten.length := by
  have opened : consistentPrefixLen codec bytes name = .ok k ↔ ∃ final,
      Scan.run codec {} (chunks bytes) = .ok final ∧
      checkOwner final.owner (some name) = .ok () ∧ final.offset = k := by
    unfold consistentPrefixLen
    cases Scan.run codec {} (chunks bytes) with
    | error fault => simp [bind, Except.bind]
    | ok final =>
      cases checked : checkOwner final.owner (some name) <;>
        simp [bind, Except.bind, checked, pure, Except.pure]
  rw [opened]
  constructor
  · rintro ⟨final, ran, checked, rfl⟩
    obtain ⟨kept, dropped, split, accepted, stop⟩ := Scan.run_ok.mp ran
    exact ⟨kept, dropped, final, split, accepted, stop, checkOwner_mine checked,
      accepted.offset.trans (Nat.zero_add _)⟩
  · rintro ⟨kept, dropped, final, split, accepted, stop, mine, rfl⟩
    exact ⟨final, Scan.run_ok.mpr ⟨kept, dropped, split, accepted, stop⟩, checkOwner_ok mine,
      accepted.offset.trans (Nat.zero_add _)⟩

/-- The records of a stream accepted in full, with their sequences and owners. -/
theorem accepted_in_full {bytes : Bytes} {name : String}
    (full : consistentPrefixLen codec bytes name = .ok bytes.length) :
    ∃ records final, Accounted codec {} (chunks bytes) records final ∧
      (final.owner = none ∨ final.owner = some name) := by
  obtain ⟨kept, dropped, final, split, accepted, _, mine, length⟩ := consistentPrefixLen_ok.mp full
  have nothing : dropped = [] := by
    have parts := congrArg (fun cut => cut.flatten.length) split
    simp only [chunks_flatten, List.flatten_append, List.length_append] at parts
    have short : dropped.flatten = [] := List.length_eq_zero_iff.mp (by omega)
    cases dropped with
    | nil => rfl
    | cons chunk rest =>
      have listed : chunk ∈ chunks bytes := split ▸ List.mem_append_right _ List.mem_cons_self
      exact absurd (List.append_eq_nil_iff.mp short).1 (chunks_mem listed).1
  rw [nothing, List.append_nil] at split
  rw [← split] at accepted
  obtain ⟨records, accounted⟩ := accepted.accounted
  exact ⟨records, final, accounted, mine⟩

theorem Records.whole {bytes : Bytes} {records : List DecodedRecord}
    (held : Records codec bytes records) : ∀ chunk ∈ chunks bytes, Whole chunk := by
  intro chunk member
  obtain ⟨i, low, rfl⟩ := List.mem_iff_getElem.mp member
  obtain ⟨_, ended, _⟩ := recordOf_some (held.get low (held.length_eq ▸ low))
  exact chunks_whole member ended

/-- A recoverable stream is accepted to its end, whatever follows it. -/
private theorem Recoverable.accepted {bytes : Bytes} {name : String}
    (recoverable : Recoverable codec bytes name) :
    (∀ rest, chunks (bytes ++ rest) = chunks bytes ++ chunks rest) ∧
      ∃ final, Accepted codec {} (chunks bytes) final ∧
        (final.owner = none ∨ final.owner = some name) := by
  obtain ⟨records, owner, held, chain, owned, mine⟩ := recoverable.intact
  obtain ⟨final, accepted, same⟩ := accepted_of_chain {} held
    (stepwise_of_chain (numbered_le held 0) chain) owned
  refine ⟨fun rest => ?_, final, accepted, same ▸ mine⟩
  have appended := chunks_append held.whole rest
  rwa [chunks_flatten] at appended

/-- A proper initial part of a line and its newline has no newline. -/
private theorem newline_not_mem_torn {line torn : Bytes} (free : newline ∉ line)
    (part : torn <+: line ++ [newline]) (proper : torn ≠ line ++ [newline]) : newline ∉ torn := by
  rcases List.prefix_concat_iff.mp part with whole | inside
  · exact absurd whole proper
  · exact fun member => free (inside.subset member)

/-- A torn last append is dropped, and nothing else. -/
theorem Recoverable.kept_torn {bytes : Bytes} {name : String}
    (recoverable : Recoverable codec bytes name) {torn : Bytes} (free : newline ∉ torn) :
    consistentPrefixLen codec (bytes ++ torn) name = .ok bytes.length := by
  obtain ⟨cut, final, accepted, mine⟩ := recoverable.accepted
  refine consistentPrefixLen_ok.mpr ⟨chunks bytes, chunks torn, final, cut torn, accepted, ?_, mine, ?_⟩
  · rw [chunks_torn free]
    split
    · trivial
    · have unended : torn.getLast? ≠ some newline :=
        fun ended => free (List.mem_of_getLast? ended)
      show final.step codec torn = .ok none
      rw [Scan.step, if_pos unended]
  · rw [chunks_flatten]

/-- No longer part of the stream is recoverable than the one kept. -/
private theorem consistentPrefixLen_maximal {bytes : Bytes} {name : String} {k length : ℕ}
    (kept : consistentPrefixLen codec bytes name = .ok k) (longer : k < length)
    (inside : length ≤ bytes.length) : ¬ Recoverable codec (bytes.take length) name := by
  intro recoverable
  obtain ⟨cut, final, accepted, _⟩ := recoverable.accepted
  obtain ⟨taken, dropped, last, split, scanned, stop, _, rfl⟩ := consistentPrefixLen_ok.mp kept
  have whole := cut (bytes.drop length)
  rw [List.take_append_drop] at whole
  -- The scan of the whole stream passes the longer part before it stops.
  have ran := Scan.run_ok.mpr ⟨taken, dropped, split, scanned, stop⟩
  rw [whole, accepted.run_append] at ran
  obtain ⟨more, _, _, further, _⟩ := Scan.run_ok.mp ran
  have passed := further.offset
  rw [accepted.offset, scanned.offset, chunks_flatten, List.length_take,
    Nat.min_eq_left inside] at passed
  have start : ({} : Scan).offset = 0 := rfl
  omega

end Prefixes

section Repaired

/-- What repair promises about the bytes it keeps. -/
structure Repaired (codec : Codec) (bytes : Bytes) (name : String) (k : ℕ) : Prop where
  recoverable : Recoverable codec (bytes.take k) name
  /-- The replayer visits exactly the records kept. -/
  replayed : ∃ records, Records codec (bytes.take k) records ∧
    ∀ (σ : Type) (apply : σ → DecodedRecord → σ) (init : σ),
      forEachRecord codec (bytes.take k) (some name) apply init = .ok (records.foldl apply init)
  recovered : ∀ snapshot, ∃ restored,
    recoverSnapshotReaderScoped codec (bytes.take k) snapshot (some name) = .ok restored
  idempotent : consistentPrefixLen codec (bytes.take k) name = .ok k
  maximal : ∀ length, k < length → length ≤ bytes.length →
    ¬ Recoverable codec (bytes.take length) name
  /-- A torn append after committed records loses none of them. -/
  torn : ∀ committed line part, Recoverable codec committed name → newline ∉ line →
    part <+: line ++ [newline] → part ≠ line ++ [newline] →
    consistentPrefixLen codec (committed ++ part) name = .ok committed.length

theorem recoverSnapshot_ok_iff (lenient : codec.Lenient) {bytes : Bytes}
    {records : List DecodedRecord} {owner : Option String} {name : String}
    (held : Records codec bytes records) (chain : OwnershipChain none records owner)
    (mine : owner = none ∨ owner = some name) (sequences : Stepwise 0 (numbered 0 records))
    (snapshot : Option Snapshot) :
    (∃ restored, recoverSnapshotReaderScoped codec bytes snapshot (some name) = .ok restored) ↔
      (numbered 0 records).getLastD 0 ≠ u64Max := by
  rw [recoverSnapshot_eq lenient held chain mine sequences]
  split
  · next full =>
    constructor
    · rintro ⟨_, impossible⟩
      cases impossible
    · intro open_
      exact absurd full open_
  · next open_ => exact ⟨fun _ => open_, fun _ => ⟨_, rfl⟩⟩

/-- Repair keeps its promise exactly for streams whose leading sequences are sound. -/
theorem consistentPrefixLen_repaired (lenient : codec.Lenient) {bytes : Bytes} {name : String} {k : ℕ}
    (kept : consistentPrefixLen codec bytes name = .ok k) :
    Repaired codec bytes name k ↔ SoundSequences (leadingSequences codec bytes) := by
  obtain ⟨taken, dropped, final, split, accepted, stop, mine, length⟩ := consistentPrefixLen_ok.mp kept
  have whole : ∀ chunk ∈ taken, Whole chunk :=
    accepted.whole fun chunk member => split ▸ List.mem_append_left _ member
  have prefix_ : bytes.take k = taken.flatten := by
    rw [← chunks_flatten bytes, split, List.flatten_append, length, List.take_left']
    rfl
  have cut : chunks (bytes.take k) = taken := by rw [prefix_, chunks_flatten_whole whole]
  obtain ⟨records, accounted⟩ := accepted.accounted
  have held : Records codec (bytes.take k) records := by
    rw [Records, cut]
    exact accounted.held
  have leading : leadingSequences codec bytes =
      numbered 0 records ++ numbered final.syntheticSequence (leadingRecords codec dropped) := by
    rw [leadingSequences, split, leadingRecords_append accounted.held]
    exact accounted.counted _
  have stopped : ∀ next more, numbered final.syntheticSequence (leadingRecords codec dropped) =
      next :: more → ¬ Follows ((numbered 0 records).getLastD 0) next := by
    intro next more head
    cases dropped with
    | nil => cases head
    | cons chunk rest =>
      rw [leadingRecords] at head
      rcases Scan.step_none stop with nothing | ⟨record, found, gap⟩
      · rw [nothing] at head
        cases head
      · rw [found, numbered, List.cons.injEq] at head
        rw [← head.1]
        rw [accounted.last] at gap
        exact gap
  have sound := taken_sound_iff (numbered_le accounted.held 0) accounted.sequences stopped
  rw [leading, ← sound]
  constructor
  · intro repaired
    obtain ⟨records', _, held', chain, _⟩ := repaired.recoverable.intact
    obtain rfl := held.unique held'
    exact ⟨chain, (recoverSnapshot_ok_iff lenient held accounted.chain mine accounted.sequences
      none).mp (repaired.recovered none)⟩
  · rintro ⟨chain, open_⟩
    constructor
    · exact ⟨records, final.owner, held, chain, accounted.chain, mine⟩
    · exact ⟨records, held, fun σ apply init =>
        forEachRecord_chain lenient held accounted.chain mine init⟩
    · intro snapshot
      exact (recoverSnapshot_ok_iff lenient held accounted.chain mine accounted.sequences
        snapshot).mpr open_
    · exact consistentPrefixLen_ok.mpr ⟨taken, [], final, by rw [cut, List.append_nil], accepted,
        trivial, mine, length⟩
    · intro other longer inside
      exact consistentPrefixLen_maximal kept longer inside
    · intro committed line part recoverable free initial proper
      exact recoverable.kept_torn (newline_not_mem_torn free initial proper)

/-- The JSON library on a table of lines, and on one bare line. -/
def tableCodec (table : List (Text × EventEnvelope)) (bare : Text × LogEvent)
    (bounded : ∀ entry ∈ table, entry.2.sequence ≤ u64Max) : Codec where
  sealedField _ := none
  openSealed _ := none
  envelope line := (table.find? fun entry => trimLineEnd line == entry.1).map (·.2)
  versionField _ := none
  legacy line := if trimLineEnd line = bare.1 then some bare.2 else none
  sha256 _ := []
  sequence_le := by
    intro line e found
    obtain ⟨entry, listed, rfl⟩ := Option.map_eq_some_iff.mp found
    exact bounded entry (List.mem_of_find?_eq_some listed)

theorem trimLineEnd_concat (line : Text) {c : Char} (ending : lineEnd c) :
    trimLineEnd (line ++ [c]) = trimLineEnd line := by
  rw [trimLineEnd, trimLineEnd, List.reverse_append, List.reverse_singleton, List.singleton_append,
    List.dropWhile_cons_of_pos]
  rcases ending with rfl | rfl <;> rfl

theorem tableCodec_lenient {table : List (Text × EventEnvelope)} (bare : Text × LogEvent)
    (bounded : ∀ entry ∈ table, entry.2.sequence ≤ u64Max)
    (filled : ∀ entry ∈ table, entry.1 ≠ []) : (tableCodec table bare bounded).Lenient where
  empty := by
    have none : table.find? (fun entry => trimLineEnd [] == entry.1) = none := by
      rw [List.find?_eq_none]
      intro entry listed same
      exact filled entry listed (eq_of_beq same).symm
    exact congrArg (Option.map (·.2)) none
  sealedField _ _ _ := rfl
  envelope line c ending := by simp only [tableCodec, trimLineEnd_concat line ending]
  versionField _ _ _ := rfl
  legacy line c ending := by simp only [tableCodec, trimLineEnd_concat line ending]

theorem trimLineEnd_of_getLast {line : Text} {c : Char} (last : line.getLast? = some c) (inside : ¬ lineEnd c) :
    trimLineEnd line = line := by
  obtain ⟨front, rfl⟩ := List.getLast?_eq_some_iff.mp last
  rw [trimLineEnd, List.reverse_append, List.reverse_singleton, List.singleton_append, List.dropWhile_cons_of_neg,
    List.reverse_cons, List.reverse_reverse]
  simpa [lineEnd] using inside

/-- The entry of a line is found where no line is twice in the table. -/
theorem tableCodec_envelope {table : List (Text × EventEnvelope)} (bare : Text × LogEvent)
    (bounded : ∀ entry ∈ table, entry.2.sequence ≤ u64Max) (distinct : (table.map Prod.fst).Nodup)
    {entry : Text × EventEnvelope} (member : entry ∈ table) (trimmed : trimLineEnd entry.1 = entry.1) :
    (tableCodec table bare bounded).envelope entry.1 = some entry.2 := by
  have listed : (table.find? fun other => trimLineEnd entry.1 == other.1).isSome :=
    List.find?_isSome.mpr ⟨entry, member, beq_iff_eq.mpr trimmed⟩
  obtain ⟨other, found⟩ := Option.isSome_iff_exists.mp listed
  have equal := List.find?_some found
  have same : other.1 = entry.1 := (beq_iff_eq.mp equal).symm.trans trimmed
  obtain rfl := List.inj_on_of_nodup_map distinct (List.mem_of_find?_eq_some found) member same
  exact congrArg (Option.map (·.2)) found

/-- An ASCII line with its newline. -/
def lineBytes (line : Text) : Bytes := line.map (fun c => UInt8.ofNat c.toNat) ++ [newline]

def windowNew : LogEvent := .other "WindowNew".toList

/-- The bare line of a new window. -/
def bareLine : Text := "\"WindowNew\"".toList

/-- The JSON line of a new window at a sequence. -/
def windowLine (sequence : ℕ) : Text :=
  '\x7b' :: ("\"version\":10,\"sequence\":".toList ++ (toString sequence).toList ++
    ",\"timestamp_ms\":0,\"workspace\":\"w\",\"event\":\"WindowNew\"\x7d".toList)

def windowBytes (sequence : ℕ) : Bytes := lineBytes (windowLine sequence)

/-- The JSON line that renames the Workspace `old`. -/
def renameLine : Text :=
  '\x7b' :: ("\"version\":10,\"sequence\":2,\"timestamp_ms\":0,\"workspace\":\"old\",\"event\":".toList ++
    "\x7b\"WorkspaceRenamed\":\x7b\"old\":\"old\",\"new\":\"w\"\x7d\x7d\x7d".toList)

def sampleTable : List (Text × EventEnvelope) :=
  (renameLine, ⟨10, 2, 0, "old", .workspaceRenamed "old" "w"⟩) ::
    [0, 2, 3, 5, 7, 8, 9, u64Max].map fun a => (windowLine a, ⟨10, a, 0, "w", windowNew⟩)

/-- The JSON library on new windows and one rename. -/
def sampleCodec : Codec := tableCodec sampleTable (bareLine, windowNew) (by
  intro entry listed
  rcases List.mem_cons.mp listed with rfl | window
  · decide
  · obtain ⟨a, small, rfl⟩ := List.mem_map.mp window
    exact (by decide : ∀ a ∈ [0, 2, 3, 5, 7, 8, 9, u64Max], a ≤ u64Max) a small)

theorem sampleCodec_lenient : sampleCodec.Lenient := by
  refine tableCodec_lenient _ _ ?_
  intro entry listed
  rcases List.mem_cons.mp listed with rfl | window
  · exact List.cons_ne_nil _ _
  · obtain ⟨a, _, rfl⟩ := List.mem_map.mp window
    exact List.cons_ne_nil _ _

theorem consistentPrefixLen_repaired_torn :
    Repaired sampleCodec (windowBytes 7 ++ windowBytes 8 ++ (windowBytes 9).take 20) "w" 162 := by
  refine (consistentPrefixLen_repaired sampleCodec_lenient (by decide +kernel)).mpr ?_
  have sequences : leadingSequences sampleCodec
      (windowBytes 7 ++ windowBytes 8 ++ (windowBytes 9).take 20) = [7, 8] := by decide +kernel
  rw [sequences]
  exact ⟨by simp, by decide⟩

private theorem records_sample :
    Records sampleCodec ([0, 5].map windowBytes).flatten
      ([0, 5].map fun a => ⟨some a, some "w", windowNew⟩) := by
  have cut : chunks ([0, 5].map windowBytes).flatten = [0, 5].map windowBytes := by decide +kernel
  rw [Records, cut]
  exact .cons rfl (.cons rfl .nil)

/-- After sequence zero any sequence is taken, and a stream that ends at the last sequence is kept
and then refused by recovery. -/
theorem consistentPrefixLen_disagrees :
    (consistentPrefixLen sampleCodec ([0, 5].map windowBytes).flatten "w" = .ok 162 ∧
      ¬ Recoverable sampleCodec (([0, 5].map windowBytes).flatten.take 162) "w") ∧
    (consistentPrefixLen sampleCodec ([u64Max].map windowBytes).flatten "w" = .ok 100 ∧
      ¬ ∃ restored, recoverSnapshotReaderScoped sampleCodec
        (([u64Max].map windowBytes).flatten.take 100) none (some "w") = .ok restored) := by
  refine ⟨⟨by decide +kernel, ?_⟩, by decide +kernel, ?_⟩
  · have whole : ([0, 5].map windowBytes).flatten.take 162 = ([0, 5].map windowBytes).flatten := by
      decide +kernel
    rw [whole]
    rintro ⟨records, _, held, chain, _⟩
    obtain rfl := records_sample.unique held
    exact absurd (List.isChain_cons_cons.mp chain).1 (by decide)
  · have refused : recoverSnapshotReaderScoped sampleCodec
        (([u64Max].map windowBytes).flatten.take 100) none (some "w") =
        .error (invalidData "event sequence is duplicate, out of order, or contains a gap") := rfl
    rw [refused]
    rintro ⟨_, impossible⟩
    cases impossible

end Repaired

end Uniterm.Model.EventLog
