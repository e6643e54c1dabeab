import Mathlib.Data.List.Infix
import Uniterm.Soundness.Input.Pasting

/-! # The prefix machine as a tokenisation

Read left to right, a stream is a sequence of plain bytes and of keys behind a leader: the prefix, or the doubled
prefix of a nested client. However the stream is cut into calls, the messages carry what its tokens stand for, in
order. Bytes that the paste matcher claims never wait for a prefix, so the streams here keep them apart from it.
-/

namespace Uniterm.Model.Input

open Model

inductive Token where
  | plain (byte : UInt8)
  | prefixed (key : UInt8)
deriving DecidableEq, Repr

/-- The tokens of a stream: a leader takes the byte right after it as its key. A stream that ends inside a leader or
right after one leaves it unresolved. -/
def tokenise (leader : Bytes) : Bytes → List Token × Bytes
  | [] => ([], [])
  | byte :: rest =>
    if (byte :: rest) <+: leader then ([], byte :: rest)
    else if leader <+: byte :: rest then
      match _behind : (byte :: rest).drop leader.length with
      | [] => ([], byte :: rest)
      | key :: later => (.prefixed key :: (tokenise leader later).1, (tokenise leader later).2)
    else (.plain byte :: (tokenise leader rest).1, (tokenise leader rest).2)
termination_by stream => stream.length
decreasing_by
  · have := congrArg List.length _behind
    simp only [List.length_drop, List.length_cons] at this ⊢
    omega
  · exact Nat.lt_succ_self _

section Tokenise

variable {leader stream : Bytes}

private theorem tokenise_unresolved (unresolved : stream <+: leader) : tokenise leader stream = ([], stream) := by
  cases stream with
  | nil => rw [tokenise]
  | cons byte rest => rw [tokenise, if_pos unresolved]

private theorem tokenise_prefixed (leader : Bytes) (key : UInt8) (later : Bytes) (nonempty : leader ≠ []) :
    tokenise leader (leader ++ key :: later) =
      (.prefixed key :: (tokenise leader later).1, (tokenise leader later).2) := by
  obtain ⟨byte, rest, rfl⟩ := List.exists_cons_of_ne_nil nonempty
  rw [List.cons_append, tokenise, if_neg, if_pos]
  · split
    next none => simp at none
    next key' later' behind =>
      rw [← List.cons_append, List.drop_left] at behind
      obtain ⟨rfl, rfl⟩ := List.cons.inj behind
      rfl
  · exact List.prefix_append (byte :: rest) (key :: later)
  · intro short
    have := short.length_le
    simp only [List.length_cons, List.length_append] at this
    omega

private theorem tokenise_plain {byte : UInt8} {rest : Bytes} (other : ¬ byte :: rest <+: leader)
    (other' : ¬ leader <+: byte :: rest) :
    tokenise leader (byte :: rest) = (.plain byte :: (tokenise leader rest).1, (tokenise leader rest).2) := by
  rw [tokenise, if_neg other, if_neg other']

/-- A stream is tokenised in parts, with what each part leaves unresolved. -/
theorem tokenise_append (nonempty : leader ≠ []) (stream more : Bytes) :
    tokenise leader (stream ++ more) =
      ((tokenise leader stream).1 ++ (tokenise leader ((tokenise leader stream).2 ++ more)).1,
        (tokenise leader ((tokenise leader stream).2 ++ more)).2) := by
  induction length : stream.length using Nat.strong_induction_on generalizing stream with
  | _ n ih =>
    by_cases unresolved : stream <+: leader
    · rw [tokenise_unresolved unresolved, List.nil_append]
    by_cases led : leader <+: stream
    · obtain ⟨behind, rfl⟩ := led
      cases behind with
      | nil => exact absurd (by simp) unresolved
      | cons key later =>
        have further := ih later.length (by rw [← length, List.length_append, List.length_cons]; omega) later rfl
        rw [List.append_assoc, List.cons_append, tokenise_prefixed _ _ _ nonempty, tokenise_prefixed _ _ _ nonempty, further]
        rfl
    · cases stream with
      | nil => exact absurd List.nil_prefix unresolved
      | cons byte rest =>
        have further := ih rest.length (by rw [← length]; exact Nat.lt_succ_self _) rest rfl
        rw [List.cons_append, tokenise_plain, tokenise_plain unresolved led, further]
        · rfl
        · exact fun short => unresolved ((List.prefix_append (byte :: rest) more).trans short)
        · intro long
          rcases Nat.le_total leader.length (byte :: rest).length with short | longer
          · exact led (List.prefix_of_prefix_length_le long (List.prefix_append (byte :: rest) more) short)
          · exact unresolved (List.prefix_of_prefix_length_le (List.prefix_append (byte :: rest) more) long longer)

end Tokenise

section Meaning

/-- What a frame carries: typed bytes one by one, or a command. -/
inductive Item where
  | byte (byte : UInt8)
  | command (command : Command)
deriving DecidableEq, Repr

def ClientMessage.items : ClientMessage → List Item
  | .input bytes => bytes.map .byte
  | .command run => [.command run]

/-- What a token stands for. A doubled prefix that is not bound is one literal prefix; an action ends the call. -/
def Token.items (settings : Settings) : Token → List Item
  | .plain byte => [.byte byte]
  | .prefixed key =>
    match resolveKey settings key with
    | .run command => [.command command]
    | .forward bytes => bytes.map .byte
    | .act _ => []

def leader (settings : Settings) (nested : Bool) : Bytes :=
  if nested then [settings.prefixKey, settings.prefixKey] else [settings.prefixKey]

/-- The prefix bytes that are held back. -/
def PrefixState.held (settings : Settings) (state : PrefixState) : Bytes :=
  if state.outerPending then [settings.prefixKey, settings.prefixKey]
  else if state.pending then [settings.prefixKey]
  else []

/-- Only a nested client waits for the rest of a doubled prefix. -/
structure PrefixState.Valid (state : PrefixState) : Prop where
  outer : state.outerPending → state.nested
  one : state.outerPending → state.pending = false

/-- No byte that the paste matcher claims is the prefix or comes while a prefix is unresolved. -/
def Quiet (settings : Settings) (nested : Bool) (keyboard : KeyboardInput) (stream : Bytes) : Prop :=
  ∀ seen byte rest, stream = seen ++ byte :: rest → ((keyboard.observed seen).observeByte byte).2 = true →
    byte ≠ settings.prefixKey ∧ (tokenise (leader settings nested) seen).2 = []

/-- What an effect adds to the frames, unless it ends the call. -/
def Effect.items : Effect → Option (List Item)
  | .pass bytes => some (bytes.map .byte)
  | .key (.forward bytes) => some (bytes.map .byte)
  | .key (.run command) => some [.command command]
  | .key (.act _) => none

variable {settings : Settings} {state : PrefixState} {byte : UInt8}

private theorem leader_ne_nil (settings : Settings) (nested : Bool) : leader settings nested ≠ [] := by
  cases nested <;> simp [leader]

private theorem tokenise_nil (leader : Bytes) : tokenise leader [] = ([], []) := tokenise_unresolved List.nil_prefix

/-- A byte that is not the prefix is plain. -/
theorem tokenise_other (settings : Settings) (nested : Bool) (other : byte ≠ settings.prefixKey) :
    tokenise (leader settings nested) [byte] = ([.plain byte], []) := by
  rw [tokenise_plain, tokenise_nil]
  · cases nested <;> simp [leader, other]
  · cases nested <;> simp [leader, Ne.symm other]

/-- A prefix that is not doubled is plain in a nested client. -/
theorem tokenise_broken (settings : Settings) (other : byte ≠ settings.prefixKey) :
    tokenise (leader settings true) [settings.prefixKey, byte] = ([.plain settings.prefixKey, .plain byte], []) := by
  rw [tokenise_plain, tokenise_other settings true other]
  · simp [leader, other]
  · simp [leader, Ne.symm other]

private theorem tokenise_key (settings : Settings) (nested : Bool) (byte : UInt8) :
    tokenise (leader settings nested) (leader settings nested ++ [byte]) = ([.prefixed byte], []) := by
  rw [tokenise_prefixed _ _ _ (leader_ne_nil settings nested), tokenise_nil]

/-- A key emits what its token stands for. -/
theorem key_items {items : List Item} (emitted : (Effect.key (resolveKey settings byte)).items = some items) :
    items = [Token.prefixed byte].flatMap (Token.items settings) := by
  rw [List.flatMap_singleton, Token.items]
  cases resolved : resolveKey settings byte <;> rw [resolved] at emitted
  case act => cases emitted
  case run => exact (Option.some.inj emitted).symm
  case forward => exact (Option.some.inj emitted).symm

/-- The outcome of a byte: what it emits and what is held back afterwards are those of the tokens. -/
structure Resolves (settings : Settings) (state next : PrefixState) (byte : UInt8) (items : List Item) : Prop where
  valid : next.Valid
  nested : next.nested = state.nested
  items : items = (tokenise (leader settings state.nested) (state.held settings ++ [byte])).1.flatMap
    (Token.items settings)
  held : next.held settings = (tokenise (leader settings state.nested) (state.held settings ++ [byte])).2

private theorem resolves_of {next : PrefixState} {items : List Item} {tokens : List Token} {rest : Bytes}
    (tokenised : tokenise (leader settings state.nested) (state.held settings ++ [byte]) = (tokens, rest))
    (valid : next.Valid) (nested : next.nested = state.nested)
    (emitted : items = tokens.flatMap (Token.items settings)) (held : next.held settings = rest) :
    Resolves settings state next byte items :=
  ⟨valid, nested, by rw [tokenised, emitted], by rw [tokenised, held]⟩

/-- One byte resolves what is held back as the tokens say. -/
theorem step_resolves (valid : state.Valid)
    (quiet : (state.paste.observeByte byte).2 = true → byte ≠ settings.prefixKey ∧ state.held settings = [])
    {items : List Item} (emitted : (state.step settings byte).2.items = some items) :
    Resolves settings state (state.step settings byte).1 byte items := by
  by_cases claimed : (state.paste.observeByte byte).2 = true
  · obtain ⟨other, held⟩ := quiet claimed
    have plain := tokenise_other settings state.nested other
    rw [step_claimed claimed] at emitted ⊢
    obtain rfl := Option.some.inj emitted
    exact resolves_of (by rw [held, List.nil_append, plain]) ⟨valid.outer, valid.one⟩ rfl rfl held
  obtain ⟨pending, outerPending, nested, paste⟩ := state
  obtain ⟨outer, one⟩ := valid
  unfold PrefixState.step at emitted ⊢
  dsimp only at claimed emitted ⊢
  rw [if_neg claimed] at emitted ⊢
  cases outerPending with
  | true =>
    -- the key behind a doubled prefix
    obtain rfl : nested = true := outer rfl
    obtain rfl : pending = false := one rfl
    exact resolves_of (tokenise_key settings true byte) ⟨fun absent => absurd absent Bool.false_ne_true, fun _ => rfl⟩
      rfl (key_items emitted) rfl
  | false =>
    have settled : ∀ pending : Bool, PrefixState.Valid ⟨pending, false, nested, (paste.observeByte byte).1⟩ :=
      fun _ => ⟨fun absent => absurd absent Bool.false_ne_true, fun absent => absurd absent Bool.false_ne_true⟩
    cases nested with
    | true =>
      cases pending with
      | true =>
        by_cases same : byte = settings.prefixKey
        · rw [if_pos rfl, if_pos rfl, if_pos same] at emitted ⊢
          obtain rfl := Option.some.inj emitted
          refine resolves_of (tokenise_unresolved ?_) ⟨fun _ => rfl, fun _ => rfl⟩ rfl rfl ?_
          · rw [same]
            exact List.prefix_rfl
          · rw [same]
            rfl
        · rw [if_pos rfl, if_pos rfl, if_neg same] at emitted ⊢
          obtain rfl := Option.some.inj emitted
          exact resolves_of (tokenise_broken settings same) (settled false) rfl rfl rfl
      | false =>
        by_cases same : byte = settings.prefixKey
        · rw [if_pos rfl, if_neg Bool.false_ne_true, if_pos same] at emitted ⊢
          obtain rfl := Option.some.inj emitted
          refine resolves_of (tokenise_unresolved ?_) (settled true) rfl rfl ?_
          · rw [same]
            exact ⟨[settings.prefixKey], rfl⟩
          · rw [same]
            rfl
        · rw [if_pos rfl, if_neg Bool.false_ne_true, if_neg same] at emitted ⊢
          obtain rfl := Option.some.inj emitted
          exact resolves_of (tokenise_other settings true same) (settled false) rfl rfl rfl
    | false =>
      cases pending with
      | true =>
        exact resolves_of (tokenise_key settings false byte) (settled false) rfl (key_items emitted) rfl
      | false =>
        by_cases same : byte = settings.prefixKey
        · rw [if_neg Bool.false_ne_true, if_neg Bool.false_ne_true, if_pos same] at emitted ⊢
          obtain rfl := Option.some.inj emitted
          refine resolves_of (tokenise_unresolved ?_) (settled true) rfl rfl ?_
          · rw [same]
            exact List.prefix_rfl
          · rw [same]
            rfl
        · rw [if_neg Bool.false_ne_true, if_neg Bool.false_ne_true, if_neg same] at emitted ⊢
          obtain rfl := Option.some.inj emitted
          exact resolves_of (tokenise_other settings false same) (settled false) rfl rfl rfl

end Meaning

section Calls

/-- The calls of a stream, as long as none of them asks for an action. -/
def processCalls (settings : Settings) :
    PrefixState → List ClientMessage → List Bytes → Option (PrefixState × List ClientMessage)
  | state, out, [] => some (state, out)
  | state, out, bytes :: calls =>
    match processInputWithBindings settings state bytes out with
    | (.none, state, out) => processCalls settings state out calls
    | _ => none

variable {settings : Settings} {state : PrefixState} {nested : Bool} {keyboard : KeyboardInput} {seen bytes : Bytes}

private theorem bindingOf_ne_none (action : String) : bindingOf action ≠ some (.action .none) := by
  unfold bindingOf
  split <;> rintro ⟨⟩

private theorem ite_ne_of_ne {α : Type} {p : Prop} [Decidable p] {a b c : α} (first : a ≠ c) (other : b ≠ c) :
    (if p then a else b) ≠ c := by
  split <;> assumption

private theorem actionFor_ne_none (key : UInt8) : actionFor key ≠ some .none := by
  unfold actionFor
  repeat' apply ite_ne_of_ne
  all_goals rintro ⟨⟩

/-- No key asks for nothing as an action. -/
theorem resolveKey_ne_none (settings : Settings) (key : UInt8) : resolveKey settings key ≠ .act .none := by
  have confirm (command : Command) : runOrConfirm settings command ≠ .act .none := by
    exact ite_ne_of_ne (by rintro ⟨⟩) (by rintro ⟨⟩)
  unfold resolveKey
  split
  next => simp
  next action found =>
    obtain ⟨binding, _, own⟩ := Option.bind_eq_some_iff.mp found
    rintro ⟨⟩
    exact bindingOf_ne_none _ own
  next => exact confirm _
  next =>
    split
    next action found =>
      rintro ⟨⟩
      exact actionFor_ne_none key found
    next =>
      split
      next => exact confirm _
      next =>
        repeat' apply ite_ne_of_ne
        all_goals rintro ⟨⟩

/-- The state after a part of the stream, and what was emitted for it. -/
structure Underway (settings : Settings) (nested : Bool) (keyboard : KeyboardInput) (seen : Bytes) (state : PrefixState)
    (items : List Item) : Prop where
  valid : state.Valid
  same : state.nested = nested
  paste : state.paste = keyboard.observed seen
  held : state.held settings = (tokenise (leader settings nested) seen).2
  items : items = (tokenise (leader settings nested) seen).1.flatMap (Token.items settings)

theorem Underway.step {items more : List Item} {byte : UInt8} {rest : Bytes}
    (underway : Underway settings nested keyboard seen state items)
    (quiet : Quiet settings nested keyboard (seen ++ byte :: rest))
    (emitted : (state.step settings byte).2.items = some more) :
    Underway settings nested keyboard (seen ++ [byte]) (state.step settings byte).1 (items ++ more) := by
  obtain ⟨valid, rfl, paste, held, rfl⟩ := underway
  have resolves := step_resolves valid (fun claimed => by
    rw [paste] at claimed
    obtain ⟨other, resolved⟩ := quiet seen byte rest rfl claimed
    exact ⟨other, held.trans resolved⟩) emitted
  have tokens := tokenise_append (leader_ne_nil settings state.nested) seen [byte]
  rw [← held] at tokens
  refine ⟨resolves.valid, resolves.nested, ?_, ?_, ?_⟩
  · rw [step_paste, paste, KeyboardInput.observed, KeyboardInput.observed, List.foldl_append]
    rfl
  · rw [resolves.held, tokens]
  · rw [resolves.items, tokens, List.flatMap_append]

private theorem flushPassthrough_items (passthrough : Bytes) (out : List ClientMessage) :
    (flushPassthrough passthrough out).flatMap ClientMessage.items =
      out.flatMap ClientMessage.items ++ passthrough.map .byte := by
  unfold flushPassthrough
  split
  next empty => rw [List.isEmpty_iff.mp empty, List.map_nil, List.append_nil]
  next => rw [List.flatMap_append, List.flatMap_singleton, ClientMessage.items]

private theorem step_key {byte : UInt8} {resolved : Resolved} (key : (state.step settings byte).2 = .key resolved) :
    resolved = resolveKey settings byte := by
  revert key
  unfold PrefixState.step
  dsimp only
  repeat' split
  all_goals
    rintro ⟨⟩
  all_goals rfl

/-- One call without an action. -/
theorem Underway.process {passthrough rest : Bytes} {out : List ClientMessage}
    (underway : Underway settings nested keyboard seen state (out.flatMap ClientMessage.items ++ passthrough.map .byte))
    (quiet : Quiet settings nested keyboard (seen ++ bytes ++ rest))
    (silent : (processFrom settings state passthrough out bytes).1 = .none) :
    Underway settings nested keyboard (seen ++ bytes) (processFrom settings state passthrough out bytes).2.1
      ((processFrom settings state passthrough out bytes).2.2.flatMap ClientMessage.items) := by
  induction bytes generalizing seen state passthrough out with
  | nil =>
    rw [List.append_nil, processFrom, flushPassthrough_items]
    exact underway
  | cons byte bytes ih =>
    rw [List.append_assoc, List.cons_append] at quiet
    have stepped : ∀ more, (state.step settings byte).2.items = some more →
        Underway settings nested keyboard (seen ++ [byte]) (state.step settings byte).1
          (out.flatMap ClientMessage.items ++ passthrough.map .byte ++ more) :=
      fun _ emitted => underway.step quiet emitted
    rw [List.append_cons] at quiet ⊢
    rw [← List.append_assoc] at quiet
    rw [processFrom] at silent ⊢
    rcases effect : state.step settings byte with ⟨next, bytes' | ⟨action | command | bytes'⟩⟩ <;>
      rw [effect] at stepped silent <;> dsimp only at stepped silent ⊢
    case pass =>
      refine ih ?_ quiet silent
      have after := stepped _ rfl
      rwa [List.append_assoc, ← List.map_append] at after
    case key.act => exact absurd (step_key (congrArg Prod.snd effect)) (silent ▸ (resolveKey_ne_none settings byte).symm)
    case key.run =>
      refine ih ?_ quiet silent
      have after := stepped _ rfl
      rw [List.flatMap_append, flushPassthrough_items, List.map_nil, List.append_nil]
      exact after
    case key.forward =>
      refine ih ?_ quiet silent
      have after := stepped _ rfl
      rw [flushPassthrough_items]
      exact after

theorem Underway.calls {out : List ClientMessage} {final : PrefixState × List ClientMessage} (calls : List Bytes)
    (underway : Underway settings nested keyboard seen state (out.flatMap ClientMessage.items))
    (quiet : Quiet settings nested keyboard (seen ++ calls.flatten))
    (ran : processCalls settings state out calls = some final) :
    Underway settings nested keyboard (seen ++ calls.flatten) final.1 (final.2.flatMap ClientMessage.items) := by
  induction calls generalizing seen state out with
  | nil =>
    obtain rfl := Option.some.inj ran
    rwa [List.flatten_nil, List.append_nil]
  | cons bytes calls ih =>
    rw [List.flatten_cons, ← List.append_assoc] at quiet ⊢
    rw [processCalls] at ran
    split at ran
    next next out' call =>
      have start : Underway settings nested keyboard seen state
          (out.flatMap ClientMessage.items ++ ([] : Bytes).map .byte) := by
        rwa [List.map_nil, List.append_nil]
      have after := start.process quiet (congrArg Prod.fst call)
      unfold processInputWithBindings at call
      rw [call] at after
      exact ih after quiet ran
    next => cases ran

/-- The prefix machine neither loses nor reorders bytes. For calls that ask for no action, with nothing held back at
first, the messages carry the tokens of the whole stream in order, and a prefix at its end is held back: the cut into
calls does not matter. -/
theorem calls_emit_tokens {settings : Settings} {state : PrefixState} {calls : List Bytes}
    {final : PrefixState × List ClientMessage} (idle : state.pending = false ∧ state.outerPending = false)
    (quiet : Quiet settings state.nested state.paste calls.flatten)
    (ran : processCalls settings state [] calls = some final) :
    final.2.flatMap ClientMessage.items =
        (tokenise (leader settings state.nested) calls.flatten).1.flatMap (Token.items settings) ∧
      final.1.held settings = (tokenise (leader settings state.nested) calls.flatten).2 := by
  have start : Underway settings state.nested state.paste [] state (([] : List ClientMessage).flatMap ClientMessage.items) := by
    refine ⟨⟨fun outer => ?_, fun outer => ?_⟩, rfl, rfl, ?_, ?_⟩
    · exact absurd (idle.2.symm.trans outer) Bool.false_ne_true
    · exact idle.1
    · rw [tokenise_nil, PrefixState.held, idle.1, idle.2]
      rfl
    · rw [tokenise_nil]
      rfl
  have done := start.calls calls (by rwa [List.nil_append]) ran
  rw [List.nil_append] at done
  exact ⟨done.items, done.held⟩

private theorem observeByte_plain {byte : UInt8} (plain : byte ≠ escape) :
    KeyboardInput.observeByte {} byte = ({}, false) := by
  have other : byte ≠ (marker false)[(0 : Fin 6)] := plain
  simp only [KeyboardInput.observeByte, if_neg other, if_neg plain]
  rfl

/-- Outside a paste the matcher claims nothing of a stream without escapes. -/
theorem quiet_of_plain (settings : Settings) (nested : Bool) {stream : Bytes} (plain : escape ∉ stream) :
    Quiet settings nested {} stream := by
  rintro seen byte rest rfl claimed
  have fresh : KeyboardInput.observed {} seen = {} := by
    have apart : escape ∉ seen := fun member => plain (List.mem_append_left _ member)
    clear claimed plain
    induction seen with
    | nil => rfl
    | cons first seen ih =>
      rw [KeyboardInput.observed, List.foldl_cons,
        observeByte_plain fun same => apart (same ▸ List.mem_cons_self ..)]
      exact ih fun member => apart (.tail _ member)
  have other : byte ≠ escape := fun same => plain (same ▸ by simp)
  rw [fresh, observeByte_plain other] at claimed
  exact absurd claimed Bool.false_ne_true

private def sampleSettings : Settings where
  prefixKey := 1
  confirmClose := false
  confirmTabClose := false
  bindings := []

theorem calls_emit_tokens_window :
    ([.input [97], .command .newWindow] : List ClientMessage).flatMap ClientMessage.items =
        (tokenise (leader sampleSettings false) [[97, 1], [99]].flatten).1.flatMap (Token.items sampleSettings) ∧
      PrefixState.held sampleSettings {} = (tokenise (leader sampleSettings false) [[97, 1], [99]].flatten).2 :=
  @calls_emit_tokens sampleSettings {} [[97, 1], [99]] ({}, [.input [97], .command .newWindow]) ⟨rfl, rfl⟩
    (quiet_of_plain sampleSettings false (by decide)) (by decide)

/-- A doubled prefix that is not bound is one literal prefix, not two, and an escape behind a prefix is forwarded
first: the prefix takes the byte after the escape as its key. -/
theorem prefix_key_exceptions :
    processInputWithBindings sampleSettings {} [1, 1] [] = (.none, {}, [.input [1]]) ∧
      processInputWithBindings sampleSettings {} [1, 0x1b, keyOf 'x'] [] =
        (.none, {}, [.input [0x1b], .command .killPane]) := by
  decide

end Calls

end Uniterm.Model.Input
