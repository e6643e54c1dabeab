import Uniterm.Model.Scan
import Mathlib.Data.List.Count

/-! # Permission dialogs

A dialog is read off the screen: the newest heading, the rows below it that carry one of its labels, and the
row that carries the marker. The keys go to the pane, one delivery for each screen, until the first affirmative
row carries the marker. The fingerprint is what a delivered choice is recognised by on the next screen.
-/

namespace Uniterm.Model.Providers

/-- `DefaultHasher` with its fixed keys: SipHash-1-3. -/
structure DefaultHasher where
  v0 : UInt64 := 0x736f6d6570736575
  v1 : UInt64 := 0x646f72616e646f6d
  v2 : UInt64 := 0x6c7967656e657261
  v3 : UInt64 := 0x7465646279746573

namespace DefaultHasher

def rotl (x n : UInt64) : UInt64 := (x <<< n) ||| (x >>> (64 - n))

def round (s : DefaultHasher) : DefaultHasher :=
  let v0 := s.v0 + s.v1
  let v1 := rotl s.v1 13 ^^^ v0
  let v0 := rotl v0 32
  let v2 := s.v2 + s.v3
  let v3 := rotl s.v3 16 ^^^ v2
  let v0 := v0 + v3
  let v3 := rotl v3 21 ^^^ v0
  let v2 := v2 + v1
  let v1 := rotl v1 17 ^^^ v2
  let v2 := rotl v2 32
  { v0, v1, v2, v3 }

def absorb (s : DefaultHasher) (word : UInt64) : DefaultHasher :=
  let s := round { s with v3 := s.v3 ^^^ word }
  { s with v0 := s.v0 ^^^ word }

/-- The little-endian word of at most eight bytes. -/
def word (bytes : List UInt8) : UInt64 := bytes.foldr (fun byte w => w <<< 8 ||| byte.toUInt64) 0

/-- Whole words, then the last bytes below the length. -/
def write (length : ℕ) : ℕ → List UInt8 → DefaultHasher → DefaultHasher
  | 0, _, s => s
  | fuel + 1, bytes, s =>
    if bytes.length < 8 then s.absorb (UInt64.ofNat length <<< 56 ||| word bytes)
    else write length fuel (bytes.drop 8) (s.absorb (word (bytes.take 8)))

def finish (s : DefaultHasher) : ℕ :=
  let s := round (round (round { s with v2 := s.v2 ^^^ 0xff }))
  (s.v0 ^^^ s.v1 ^^^ s.v2 ^^^ s.v3).toNat

/-- The hash of strings, each written with a final `0xff`. -/
def hashTexts (texts : List (List Char)) : ℕ :=
  let bytes := texts.flatMap fun text => text.flatMap String.utf8EncodeChar ++ [0xff]
  (write bytes.length (bytes.length / 8 + 1) bytes {}).finish

end DefaultHasher

/-- Input for a recognised dialog. -/
structure Approval where
  fingerprint : ℕ
  keys : List UInt8
  /-- The marked row of a navigation step; `none` submits the choice. -/
  navigation : Option ℕ
deriving DecidableEq, Repr

def content (line : Text) : Text := ((line.trim).trimMatches fun c => c = '│' || c = '┃').trim

def isMarker (c : Char) : Bool := ['❯', '›', '●', '→', '>'].contains c

def isBullet (c : Char) : Bool := ['❯', '›', '●', '○', '→', '>'].contains c

/-- An option row without its frame and bullets. -/
def body (line : Text) : Text := Text.trim ((content line).dropWhile isBullet)

/-- A label without the number of its row. -/
def withoutNumber (line : Text) : Text :=
  (((line.splitOnce ['.', ' ']).filter fun halves =>
    !halves.1.isEmpty && halves.1.all Char.isDigit).map Prod.snd).getD line

/-- The label of an option row, and whether the row is marked. -/
def option (line : Text) : Text × Bool :=
  let selected := (content line).head?.any isMarker
  (withoutNumber (body line), selected)

section Rows

variable (headings allow deny : List Text)

/-- `iter().rposition(..)`. -/
def rposition (p : Text → Bool) (lines : List Text) : Option ℕ :=
  (lines.zipIdx.reverse.find? fun row => p row.1).map Prod.snd

/-- `iter().enumerate().skip(start).find_map(..)` for a predicate. -/
def positionFrom (start : ℕ) (p : Text → Bool) (lines : List Text) : Option ℕ :=
  (((lines.drop start).zipIdx start).find? fun row => p row.1).map Prod.snd

def isHeading (line : Text) : Bool := headings.any fun heading => heading.isPrefixOf (content line)

def isDenial (label : Text) : Bool := deny.contains label || "no, ".toList.isPrefixOf label

def isChoice (label : Text) : Bool :=
  allow.contains label || deny.contains label || "no, ".toList.isPrefixOf label ||
    "yes, ".toList.isPrefixOf label || label == "allow always".toList

/-- A row that starts a newer input prompt. -/
def isPrompt (line : Text) : Bool :=
  let line := content line
  (line.head?.any fun c => ['>', '❯', '›', '→'].contains c) || "choose ".toList.isPrefixOf line

/-- The rows from `start` that carry the marker. -/
def markedRows (start : ℕ) (lines : List Text) : List ℕ :=
  (((lines.drop start).zipIdx start).filter fun row => (option row.1).2).map Prod.snd

/-- The option rows from one row to another, both included. -/
def optionsBetween (lines : List Text) (a b : ℕ) : ℕ :=
  ((lines.drop (min a b)).take (max a b - min a b + 1)).countP fun line => isChoice allow deny (option line).1

variable (hash : List Text → ℕ)

/-- The labels of the rows, hashed. -/
def fingerprint (lines : List Text) (keys : List UInt8) : Approval where
  fingerprint := hash ((lines.map fun line => (option line).1).filter fun label => !label.isEmpty)
  keys
  navigation := none

def submitKeys : List UInt8 := [0x0d]

def arrowDown : List UInt8 := [0x1b, 0x5b, 0x42]

def arrowUp : List UInt8 := [0x1b, 0x5b, 0x41]

def selectedChoices (screen : Text) : Option Approval := do
  let lines := screen.lines
  let header ← rposition (isHeading headings) lines
  let choice ← positionFrom (header + 1) (fun line => allow.contains (option line).1) lines
  let denial ← positionFrom (header + 1) (fun line => isDenial deny (option line).1) lines
  let [selected] := markedRows (header + 1) lines | none
  let label := (option (lines.getD selected [])).1
  if !isChoice allow deny label then none else
  let last := max (max choice denial) selected
  if !((lines.drop last).any fun line => line.contains "esc".toList) then none else
  if (lines.drop (last + 1)).any isPrompt then none else
  let result := fingerprint hash (lines.take (last + 1)) submitKeys
  if selected = choice then some result else
  -- the marked row itself is one of them
  let count := optionsBetween allow deny lines choice selected
  if count < 1 then none else
  if count - 1 = 0 ∨ count - 1 > 8 then none else
  some { result with
    keys := if selected < choice then arrowDown else arrowUp
    navigation := some selected }

end Rows

/-- The last delivered choice of a pane. -/
structure Delivery where
  invocation : ℕ
  prompt : ℕ
  navigation : Option ℕ
  automatic : Bool
deriving DecidableEq, Repr

/-- The opt-in and the deliveries by pane. -/
structure AutoApproval where
  enabled : Bool := false
  delivered : ℕ → Option Delivery := fun _ => none

namespace AutoApproval

variable (state : AutoApproval) (pane invocation prompt : ℕ)

def pendingManual : Bool := (state.delivered pane).any fun d => !d.automatic && d.navigation.isSome

def canContinueManual : Bool :=
  (state.delivered pane).any fun d =>
    !d.automatic && d.navigation.isSome && d.invocation == invocation && d.prompt == prompt

def isNew (navigation : Option ℕ) : Bool :=
  match state.delivered pane with
  | some d =>
    if d.invocation = invocation ∧ d.prompt = prompt then d.navigation.isSome && d.navigation != navigation else true
  | none => true

def deliver (navigation : Option ℕ) (automatic : Bool) : AutoApproval :=
  let delivery := { invocation, prompt, navigation, automatic }
  { state with delivered := Function.update state.delivered pane (some delivery) }

/-- `approve_permission` for a choice read off the screen of a ready pane: the keys that the input queue takes, and
what is remembered of them. -/
def approvePermission (choice : Option Approval) (automatic continuation accepted : Bool) :
    AutoApproval × Option (List UInt8) :=
  match choice with
  | none => (state, none)
  | some choice =>
    if continuation && !state.canContinueManual pane invocation choice.fingerprint then (state, none)
    else if !state.isNew pane invocation choice.fingerprint choice.navigation then (state, none)
    else if !accepted then (state, none)
    else (state.deliver pane invocation choice.fingerprint choice.navigation automatic, some choice.keys)

end AutoApproval

end Uniterm.Model.Providers
