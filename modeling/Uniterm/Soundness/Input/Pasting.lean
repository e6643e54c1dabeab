import Uniterm.Model.Input.Prefix
import Uniterm.ToMathlib.MapAccum
import Uniterm.ToMathlib.Matcher

/-! # Bracketed pastes

`pasting` says from the stream alone whether a paste is open. Both readers follow it: the keyboard adaptation across
every cut of the stream into reads, and the prefix machine on the bytes that its calls read.
-/

namespace Uniterm.Model.Input

open Model ToMathlib

section Markers

def pasteStart : Bytes := [0x1b, 0x5b, 0x32, 0x30, 0x30, 0x7e]
def pasteEnd : Bytes := [0x1b, 0x5b, 0x32, 0x30, 0x31, 0x7e]

/-- Whether a paste is open after the bytes, the latest first: it opens at the end of a start marker and closes at
the end of the next end marker. -/
def pastingBack : Bytes → Bool
  | [] => false
  | byte :: earlier =>
    if pastingBack earlier then !pasteEnd.reverse.isPrefixOf (byte :: earlier)
    else pasteStart.reverse.isPrefixOf (byte :: earlier)

def pasting (stream : Bytes) : Bool := pastingBack stream.reverse

/-- A byte changes the state exactly when it ends the marker of the state. -/
theorem pasting_concat (stream : Bytes) (byte : UInt8) :
    pasting (stream ++ [byte]) =
      if pasting stream then !pasteEnd.isSuffixOf (stream ++ [byte]) else pasteStart.isSuffixOf (stream ++ [byte]) := by
  simp only [pasting, List.isSuffixOf, List.reverse_append, List.reverse_singleton, List.singleton_append, pastingBack]

/-- The marker that the stream is waiting for. -/
def awaited (open_ : Bool) : Bytes := if open_ then pasteEnd else pasteStart

private theorem marker_toList (open_ : Bool) : (marker open_).toList = awaited open_ := by
  cases open_ <;> rfl

private theorem awaited_length (open_ : Bool) : (awaited open_).length = 6 := by
  cases open_ <;> rfl

theorem awaited_headOnce (open_ : Bool) : HeadOnce (awaited open_) := by
  have small : ∀ i < 6, 0 < i → (awaited open_)[i]? ≠ (awaited open_)[0]? := by
    cases open_ <;> decide
  exact fun i positive inside => small i (awaited_length open_ ▸ inside) positive

/-- Only the last byte of a marker is a final byte that is not a bracket. -/
theorem awaited_tilde (open_ : Bool) {k : ℕ} (inside : k + 1 < (awaited open_).length) :
    (awaited open_)[k]? ≠ some 0x7e := by
  have small : ∀ k < 5, (awaited open_)[k]? ≠ some 0x7e := by
    cases open_ <;> decide
  rw [awaited_length] at inside
  exact small k (by omega)

private theorem pasting_eq (stream : Bytes) (byte : UInt8) :
    pasting (stream ++ [byte]) =
      (pasting stream ^^ (awaited (pasting stream)).reverse.isPrefixOf (byte :: stream.reverse)) := by
  rw [pasting_concat]
  simp only [List.isSuffixOf, List.reverse_append, List.reverse_singleton, List.singleton_append, awaited]
  cases pasting stream <;> simp

/-- The keyboard after the bytes. -/
def KeyboardInput.observed (keyboard : KeyboardInput) (stream : Bytes) : KeyboardInput :=
  stream.foldl (fun keyboard byte => (keyboard.observeByte byte).1) keyboard

/-- The keyboard has seen the stream. -/
structure Follows (keyboard : KeyboardInput) (stream : Bytes) : Prop where
  pasting : keyboard.pasting = pasting stream
  progress : Progress (awaited keyboard.pasting) stream.reverse keyboard.markerPosition

variable {keyboard : KeyboardInput} {stream : Bytes}

theorem follows_nil : Follows {} [] := ⟨rfl, progress_nil (by decide)⟩

private theorem marker_get (keyboard : KeyboardInput) (byte : UInt8) :
    byte = (marker keyboard.pasting).get keyboard.markerPosition ↔
      (awaited keyboard.pasting)[keyboard.markerPosition.val]? = some byte := by
  rw [← marker_toList, List.getElem?_eq_getElem (by simp), Option.some_inj, eq_comm]
  rfl

/-- Observing a byte follows the stream. -/
theorem Follows.observe (follows : Follows keyboard stream) (byte : UInt8) :
    Follows (keyboard.observeByte byte).1 (stream ++ [byte]) := by
  have complete := follows.progress.complete_iff (b := byte)
  have next := pasting_eq stream byte
  rw [← follows.pasting] at next
  have history : (stream ++ [byte]).reverse = byte :: stream.reverse := by simp
  unfold KeyboardInput.observeByte
  dsimp only
  split
  next same =>
    replace same := (marker_get keyboard byte).mp same
    split
    next last =>
      -- the marker is complete
      have ended := complete.mpr ⟨last.trans (awaited_length _).symm, same⟩
      refine ⟨by rw [next, List.isPrefixOf_iff_prefix.mpr ended, Bool.xor_true], ?_⟩
      rw [history]
      have tilde : byte = 0x7e := by
        have position : keyboard.markerPosition.val = 5 := by omega
        rw [position] at same
        revert same
        cases keyboard.pasting <;> simp [awaited, pasteStart, pasteEnd, eq_comm]
      exact Progress.fresh (by cases keyboard.pasting <;> decide) fun k inside => tilde ▸ awaited_tilde _ inside
    next more =>
      have unended : (awaited keyboard.pasting).reverse.isPrefixOf (byte :: stream.reverse) = false := by
        rw [Bool.eq_false_iff, Ne, List.isPrefixOf_iff_prefix, complete, awaited_length]
        exact fun both => more both.1
      refine ⟨by rw [next, unended, Bool.xor_false], ?_⟩
      rw [history]
      exact follows.progress.advance same (by rw [awaited_length]; omega)
  next other =>
    replace other := mt (marker_get keyboard byte).mpr other
    have unended : (awaited keyboard.pasting).reverse.isPrefixOf (byte :: stream.reverse) = false := by
      rw [Bool.eq_false_iff, Ne, List.isPrefixOf_iff_prefix, complete]
      exact fun both => other both.2
    refine ⟨by rw [next, unended, Bool.xor_false], ?_⟩
    rw [history]
    have reset := follows.progress.reset (awaited_headOnce _) other (by rw [awaited_length]; omega)
    have head : (awaited keyboard.pasting)[0]? = some byte ↔ byte = escape := by
      cases keyboard.pasting <;> simp [awaited, pasteStart, pasteEnd, escape, eq_comm]
    simp only [head] at reset
    split at reset
    next first => simpa [first] using reset
    next first => simpa [first] using reset

theorem Follows.observes {keyboard : KeyboardInput} (follows : Follows keyboard stream) (bytes : Bytes) :
    Follows (keyboard.observed bytes) (stream ++ bytes) := by
  induction bytes generalizing keyboard stream with
  | nil => rwa [List.append_nil]
  | cons byte bytes ih =>
    have after := ih (follows.observe byte)
    rwa [List.append_assoc] at after

end Markers

section Reads

/-- Bytes that no paste and no marker has a part in, whatever follows. -/
structure Outside (before key : Bytes) : Prop where
  closed : ∀ seen, seen <+: key → pasting (before ++ seen) = false
  unmarked : ∀ later : Bytes, later.length < 6 → pasting (before ++ key ++ later) = false

/-- The output of a read after the stream before it: every byte is passed on, but complete keys outside pastes and
their markers are replaced by their legacy bytes. A key is passed on only where it is incomplete, has no legacy bytes
that the reader wants, or begins inside a paste. -/
inductive Decoded (prefixOnly : Option UInt8) : Bytes → Bytes → Bytes → Prop
  | nil (before : Bytes) : Decoded prefixOnly before [] []
  | byte {before rest output : Bytes} {byte : UInt8}
      (passed : pasting before = true ∨ byte ≠ escape ∨ decodedKey prefixOnly (byte :: rest) = none)
      (further : Decoded prefixOnly (before ++ [byte]) rest output) :
      Decoded prefixOnly before (byte :: rest) (byte :: output)
  | key {before key rest output legacy : Bytes} (outside : Outside before key)
      (decoded : decodedKey prefixOnly key = some (key.length, legacy))
      (further : Decoded prefixOnly (before ++ key) rest output) :
      Decoded prefixOnly before (key ++ rest) (legacy ++ output)

/-- Each read of a stream, with the outputs. -/
def Adapted : Bytes → List (Bytes × Option UInt8) → List Bytes → Prop
  | _, [], [] => True
  | before, (bytes, prefixOnly) :: reads, output :: outputs =>
    Decoded prefixOnly before bytes output ∧ Adapted (before ++ bytes) reads outputs
  | _, _, _ => False

/-- The bytes of a key report with these parameters. -/
def report (params : Bytes) : Bytes := 0x1b :: 0x5b :: (params ++ [0x75])

private theorem csiKey_report {params : Bytes} (plain : ∀ b ∈ params, isFinal b = false) (short : params.length < 24)
    (rest : Bytes) :
    csiKey (report params ++ rest) = (keyParams params).map fun parsed => (params.length + 3, parsed) := by
  have tail : report params ++ rest = 0x1b :: 0x5b :: (params ++ 0x75 :: rest) := by simp [report]
  have finish : ((params ++ 0x75 :: rest).take 24).findIdx? isFinal = some params.length := by
    rw [List.take_append, List.take_of_length_le short.le, List.findIdx?_append,
      List.findIdx?_eq_none_iff.mpr plain]
    obtain ⟨more, left⟩ : ∃ more, 24 - params.length = more + 1 := Nat.exists_eq_add_one.mpr (by omega)
    rw [left, List.take_succ_cons, List.findIdx?_cons]
    simp [isFinal]
  rw [tail, csiKey, finish]
  simp

private theorem csiKey_shape {input : Bytes} {length : ℕ} {parsed : UInt32 × UInt32}
    (decoded : csiKey input = some (length, parsed)) :
    ∃ params rest, input = report params ++ rest ∧ (∀ b ∈ params, isFinal b = false) ∧ params.length < 24 := by
  unfold csiKey at decoded
  split at decoded
  next tail =>
    split at decoded
    next => cases decoded
    next finish found =>
      split at decoded
      next => cases decoded
      next last =>
        rw [not_not] at last
        obtain ⟨inside, _, before⟩ := List.findIdx?_eq_some_iff_getElem.mp found
        obtain ⟨inside', value⟩ := List.getElem?_eq_some_iff.mp last
        rw [List.length_take] at inside
        refine ⟨tail.take finish, tail.drop (finish + 1), ?_, fun b member => ?_, ?_⟩
        · rw [report, List.cons_append, List.cons_append, List.append_assoc, List.singleton_append, ← value,
            List.getElem_cons_drop, List.take_append_drop]
        · obtain ⟨i, small, rfl⟩ := List.mem_iff_getElem.mp member
          rw [List.length_take] at small
          have := before i (by omega)
          simpa using this
        · rw [List.length_take]
          omega
  next => cases decoded

/-- A complete key report holds no final byte before its last one, and it is complete by itself. -/
theorem decodedKey_shape {prefixOnly : Option UInt8} {input legacy : Bytes} {length : ℕ}
    (decoded : decodedKey prefixOnly input = some (length, legacy)) :
    ∃ params rest, input = report params ++ rest ∧ length = (report params).length ∧
      (∀ b ∈ params, isFinal b = false) ∧ decodedKey prefixOnly (report params) = some (length, legacy) := by
  obtain ⟨⟨length', parsed⟩, found, legible⟩ := Option.bind_eq_some_iff.mp decoded
  obtain ⟨params, rest, rfl, plain, short⟩ := csiKey_shape found
  have alone := csiKey_report plain short []
  have whole := csiKey_report plain short rest
  rw [List.append_nil] at alone
  have same : decodedKey prefixOnly (report params) = some (length, legacy) := by
    rw [← decoded, decodedKey, decodedKey, alone, whole]
  obtain ⟨_, _, parts⟩ := Option.map_eq_some_iff.mp (whole.symm.trans found)
  obtain ⟨rfl, _⟩ := Prod.mk.inj parts
  refine ⟨params, rest, rfl, ?_, plain, same⟩
  obtain ⟨bytes, _, wanted⟩ := Option.bind_eq_some_iff.mp legible
  split at wanted
  next =>
    obtain ⟨rfl, _⟩ := Prod.mk.inj (Option.some.inj wanted)
    simp [report]
  next => cases wanted

theorem pasting_quiet {stream bytes : Bytes} (closed : pasting stream = false) (quiet : ∀ b ∈ bytes, b ≠ 0x7e) :
    pasting (stream ++ bytes) = false := by
  induction bytes generalizing stream with
  | nil => rwa [List.append_nil]
  | cons b bytes ih =>
    rw [List.append_cons]
    refine ih ?_ fun b member => quiet b (.tail _ member)
    have other : b ≠ 0x7e := quiet b (List.mem_cons_self ..)
    rw [pasting_eq, closed, Bool.false_xor]
    have differ : ((0x7e : UInt8) == b) = false := beq_false_of_ne (Ne.symm other)
    show ((0x7e : UInt8) == b && _) = false
    rw [differ, Bool.false_and]

private theorem report_quiet {params : Bytes} (plain : ∀ b ∈ params, isFinal b = false) :
    ∀ b ∈ report params, b ≠ 0x7e := by
  have inParams : (0x7e : UInt8) ∉ params := fun member => absurd (plain _ member) (by decide)
  rintro b member rfl
  simp [report, inParams] at member

/-- No start marker reaches back over the end of a report. -/
theorem report_unmarked {stream params : Bytes} (closed : pasting (stream ++ report params) = false) (later : Bytes)
    (short : later.length < 6) : pasting (stream ++ report params ++ later) = false := by
  induction later using List.reverseRecOn with
  | nil => rwa [List.append_nil]
  | append_singleton later b ih =>
    rw [List.length_append, List.length_singleton] at short
    rw [← List.append_assoc, pasting_concat, ih (by omega), if_neg Bool.false_ne_true, Bool.eq_false_iff, Ne,
      List.isSuffixOf_iff_suffix]
    intro ended
    -- the last byte of the report would be in the marker
    have inside : 0x75 :: (later ++ [b]) <:+ pasteStart := by
      refine List.suffix_of_suffix_length_le ?_ ended (by simp [pasteStart]; omega)
      exact ⟨stream ++ 0x1b :: 0x5b :: params, by simp [report]⟩
    exact absurd (inside.subset (List.mem_cons_self ..)) (by decide)

/-- A complete key report outside a paste has no part in one. -/
theorem outside_report {keyboard : KeyboardInput} {stream params : Bytes} (follows : Follows keyboard stream)
    (closed : keyboard.pasting = false) (plain : ∀ b ∈ params, isFinal b = false) :
    Outside stream (report params) ∧ Follows { keyboard with markerPosition := 0 } (stream ++ report params) := by
  have before : pasting stream = false := follows.pasting.symm.trans closed
  have after := pasting_quiet before (report_quiet plain)
  refine ⟨⟨fun seen part => pasting_quiet before fun b member => report_quiet plain b (part.subset member),
    fun later short => report_unmarked after later short⟩, closed.trans after.symm, ?_⟩
  have history : (stream ++ report params).reverse = 0x75 :: (stream ++ 0x1b :: 0x5b :: params).reverse := by
    simp [report]
  rw [history]
  refine Progress.fresh (by cases keyboard.pasting <;> decide) fun k inside => ?_
  have small : ∀ k < 6, (awaited keyboard.pasting)[k]? ≠ some 0x75 := by
    cases keyboard.pasting <;> decide
  exact small k (by rw [awaited_length] at inside; omega)

private theorem legacyFrom_skip (prefixOnly : Option UInt8) (keyboard : KeyboardInput) (skipped rest : Bytes) :
    KeyboardInput.legacyFrom prefixOnly keyboard skipped.length (skipped ++ rest) =
      KeyboardInput.legacyFrom prefixOnly keyboard 0 rest := by
  induction skipped with
  | nil => rfl
  | cons byte skipped ih =>
    rw [List.cons_append, List.length_cons, KeyboardInput.legacyFrom]
    exact ih

private theorem decodedKey_cons {prefixOnly : Option UInt8} {byte : UInt8} {rest legacy : Bytes} {length : ℕ}
    (decoded : decodedKey prefixOnly (byte :: rest) = some (length, legacy)) :
    ∃ params rest', byte :: rest = report params ++ rest' ∧ rest = (report params).tail ++ rest' ∧
      (report params).tail.length = length - 1 ∧ (∀ b ∈ params, isFinal b = false) ∧
      decodedKey prefixOnly (report params) = some ((report params).length, legacy) := by
  obtain ⟨params, rest', whole, rfl, plain, alone⟩ := decodedKey_shape decoded
  exact ⟨params, rest', whole, (List.cons.inj whole).2, rfl, plain, alone⟩

/-- One read follows the stream and decodes it. -/
theorem Follows.legacyKeys {keyboard : KeyboardInput} {stream : Bytes} (follows : Follows keyboard stream)
    (input : Bytes) (prefixOnly : Option UInt8) :
    Follows (keyboard.legacyKeys input prefixOnly).1 (stream ++ input) ∧
      Decoded prefixOnly stream input (keyboard.legacyKeys input prefixOnly).2 := by
  unfold KeyboardInput.legacyKeys
  induction length : input.length using Nat.strong_induction_on generalizing keyboard stream input with
  | _ n ih =>
    cases input with
    | nil =>
      rw [List.append_nil]
      exact ⟨follows, .nil stream⟩
    | cons byte rest =>
      rw [KeyboardInput.legacyFrom]
      split
      next length' legacy decoded =>
        split at decoded
        next => cases decoded
        next key =>
          simp only [not_or, not_not, Bool.not_eq_true] at key
          obtain ⟨params, rest', whole, rfl, skipped, plain, alone⟩ := decodedKey_cons decoded
          obtain ⟨outside, after⟩ := outside_report follows key.2 plain
          obtain ⟨further, decodes⟩ := ih rest'.length (by
            rw [← length, List.length_cons, List.length_append]
            omega) after rest' rfl
          rw [← skipped, legacyFrom_skip, whole, ← List.append_assoc]
          exact ⟨further, .key outside alone decodes⟩
      next passed =>
        obtain ⟨further, decodes⟩ := ih rest.length (by rw [← length]; exact Nat.lt_succ_self _)
          (follows.observe byte) rest rfl
        rw [List.append_cons]
        refine ⟨further, .byte ?_ decodes⟩
        split at passed
        next literal =>
          rcases literal with other | open_
          · exact .inr (.inl other)
          · exact .inl (follows.pasting.symm.trans open_)
        next => exact .inr (.inr passed)

/-- The keyboard adaptation follows the stream however it is cut into reads. -/
theorem Follows.reads {keyboard : KeyboardInput} {stream : Bytes} (follows : Follows keyboard stream)
    (reads : List (Bytes × Option UInt8)) :
    Follows (mapAccum (fun keyboard read => keyboard.legacyKeys read.1 read.2) keyboard reads).1
        (stream ++ reads.flatMap Prod.fst) ∧
      Adapted stream reads (mapAccum (fun keyboard read => keyboard.legacyKeys read.1 read.2) keyboard reads).2 := by
  induction reads generalizing keyboard stream with
  | nil =>
    rw [List.flatMap_nil, List.append_nil]
    exact ⟨follows, trivial⟩
  | cons read reads ih =>
    obtain ⟨after, decodes⟩ := follows.legacyKeys read.1 read.2
    obtain ⟨final, adapted⟩ := ih after
    rw [List.flatMap_cons, ← List.append_assoc]
    exact ⟨final, decodes, adapted⟩

end Reads

section Prefixes

/-- The bytes that a call reads, each with the state before it: an action ends the call. -/
def visits (settings : Settings) : PrefixState → Bytes → List (PrefixState × UInt8)
  | _, [] => []
  | state, byte :: rest =>
    (state, byte) ::
      match state.step settings byte with
      | (_, .key (.act _)) => []
      | (next, _) => visits settings next rest

/-- In each call, a byte that comes while a paste is open is passed on as it is, and changes nothing but the paste
state. The stream is what the calls read. -/
def Inert : Bytes → PrefixState → List (Settings × Bytes) → Prop
  | _, _, [] => True
  | stream, state, (settings, bytes) :: calls =>
    (∀ seen visit rest, visits settings state bytes = seen ++ visit :: rest → pasting (stream ++ seen.map Prod.snd) →
      visit.1.step settings visit.2 =
        ({ visit.1 with paste := (visit.1.paste.observeByte visit.2).1 }, .pass [visit.2])) ∧
    Inert (stream ++ (visits settings state bytes).map Prod.snd)
      (processInputWithBindings settings state bytes []).2.1 calls

variable {settings : Settings} {state : PrefixState} {stream : Bytes}

theorem step_paste (settings : Settings) (state : PrefixState) (byte : UInt8) :
    (state.step settings byte).1.paste = (state.paste.observeByte byte).1 := by
  unfold PrefixState.step
  dsimp only
  repeat' split
  all_goals rfl

/-- Claimed bytes are passed on, and hold back no prefix and resolve none. -/
theorem step_claimed {byte : UInt8} (claimed : (state.paste.observeByte byte).2 = true) :
    state.step settings byte = ({ state with paste := (state.paste.observeByte byte).1 }, .pass [byte]) := by
  unfold PrefixState.step
  dsimp only
  rw [if_pos claimed]

theorem observeByte_pasting {keyboard : KeyboardInput} (byte : UInt8) (open_ : keyboard.pasting = true) :
    (keyboard.observeByte byte).2 = true := by
  simp [KeyboardInput.observeByte, open_]

/-- A call leaves the paste state that its bytes lead to. -/
theorem Follows.visits (follows : Follows state.paste stream) (settings : Settings) (bytes : Bytes) :
    (∀ seen visit rest, visits settings state bytes = seen ++ visit :: rest →
      Follows visit.1.paste (stream ++ seen.map Prod.snd)) ∧
    ∀ passthrough out, Follows (processFrom settings state passthrough out bytes).2.1.paste
      (stream ++ (Input.visits settings state bytes).map Prod.snd) := by
  induction bytes generalizing state stream with
  | nil =>
    refine ⟨fun seen visit rest cut => absurd cut (by simp [Input.visits]), fun passthrough out => ?_⟩
    rw [Input.visits, List.map_nil, List.append_nil]
    exact follows
  | cons byte bytes ih =>
    have after : Follows (state.step settings byte).1.paste (stream ++ [byte]) := by
      rw [step_paste]
      exact follows.observe byte
    -- the visits after the first one belong to the longer stream
    have later : ∀ more : List (PrefixState × UInt8), (∀ seen visit rest, more = seen ++ visit :: rest →
        Follows visit.1.paste (stream ++ [byte] ++ seen.map Prod.snd)) →
        ∀ seen visit rest, (state, byte) :: more = seen ++ visit :: rest →
          Follows visit.1.paste (stream ++ seen.map Prod.snd) := by
      intro more inside seen visit rest cut
      cases seen with
      | nil =>
        obtain ⟨rfl, _⟩ := List.cons.inj cut
        rwa [List.map_nil, List.append_nil]
      | cons first seen =>
        obtain ⟨rfl, cut'⟩ := List.cons.inj cut
        have found := inside seen visit rest cut'
        rwa [List.append_assoc] at found
    rw [Input.visits]
    rcases effect : state.step settings byte with ⟨next, bytes' | ⟨action | command | bytes'⟩⟩ <;> rw [effect] at after
    case pass =>
      obtain ⟨inside, final⟩ := ih after
      refine ⟨later _ inside, fun passthrough out => ?_⟩
      rw [processFrom, effect, List.map_cons, List.append_cons]
      exact final _ _
    case key.act =>
      refine ⟨later [] (fun seen visit rest cut => absurd cut (by simp)), fun passthrough out => ?_⟩
      rw [processFrom, effect, List.map_singleton]
      exact after
    case key.run =>
      obtain ⟨inside, final⟩ := ih after
      refine ⟨later _ inside, fun passthrough out => ?_⟩
      rw [processFrom, effect, List.map_cons, List.append_cons]
      exact final _ _
    case key.forward =>
      obtain ⟨inside, final⟩ := ih after
      refine ⟨later _ inside, fun passthrough out => ?_⟩
      rw [processFrom, effect, List.map_cons, List.append_cons]
      exact final _ _

theorem Follows.inert (follows : Follows state.paste stream) (calls : List (Settings × Bytes)) :
    Inert stream state calls := by
  induction calls generalizing state stream with
  | nil => trivial
  | cons call calls ih =>
    obtain ⟨inside, final⟩ := follows.visits call.1 call.2
    refine ⟨fun seen visit rest cut open_ => ?_, ih (final [] [])⟩
    have seenPaste := (inside seen visit rest cut).pasting
    exact step_claimed (observeByte_pasting visit.2 (seenPaste.trans open_))

end Prefixes

/-- Pasted bytes are inert. However a stream is cut into reads, the keyboard adaptation knows whether a paste is open,
and replaces nothing but complete keys outside pastes and their markers; and among the bytes that the calls of the
prefix machine read, one that comes while a paste is open is passed on and is neither a prefix nor a key. -/
theorem pasted_inert (reads : List (Bytes × Option UInt8)) (pending outerPending nested : Bool)
    (calls : List (Settings × Bytes)) :
    ((mapAccum (fun keyboard read => KeyboardInput.legacyKeys keyboard read.1 read.2) {} reads).1.pasting =
        pasting (reads.flatMap Prod.fst) ∧
      Adapted [] reads (mapAccum (fun keyboard read => KeyboardInput.legacyKeys keyboard read.1 read.2) {} reads).2) ∧
    Inert [] { pending, outerPending, nested } calls := by
  obtain ⟨final, adapted⟩ := follows_nil.reads reads
  exact ⟨⟨final.pasting, adapted⟩, Follows.inert follows_nil calls⟩

/-- The rest of a read that ends with an action is not observed: a start marker there opens no paste, and the next
pasted bytes detach the client. -/
theorem dropped_marker_detaches :
    let settings : Settings := { prefixKey := 1, confirmClose := true, confirmTabClose := true, bindings := [] }
    let first : Bytes := [1, keyOf ','] ++ pasteStart
    let second : Bytes := [1, keyOf 'd']
    (∀ seen ∈ second.inits, pasting (first ++ seen) = true) ∧
      (processInputWithBindings settings {} first []).1 = .rename ∧
      (processInputWithBindings settings (processInputWithBindings settings {} first []).2.1 second []).1 = .detach := by
  decide

end Uniterm.Model.Input
