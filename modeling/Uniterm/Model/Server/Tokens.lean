import Mathlib.Algebra.Ring.Nat
import Mathlib.Data.List.Basic

/-! # Activation tokens

The server opens every turn under a token of its own generator, a 64-bit xorshift register whose
state after a draw is the token itself. A draw is repeated while a live run or a pending submission
holds the token drawn.
-/

namespace Uniterm.Model.Server

/-- `u64` shift to the left: the bits shifted out are lost. -/
def shiftLeft64 (value amount : ℕ) : ℕ := (value <<< amount) % 2 ^ 64

/-- The three shifts of one draw. -/
def xorshift (value : ℕ) : ℕ :=
  let value := value ^^^ shiftLeft64 value 13
  let value := value ^^^ (value >>> 7)
  value ^^^ shiftLeft64 value 17

/-- One draw: the new register, which is also the token. -/
def drawToken (state : ℕ) : ℕ := max (xorshift state) 1

/-- The drawing loop. `occupied` lists the tokens of live runs and pending submissions; fuel of one
more than its length is enough. -/
def drawLoop (occupied : List ℕ) : ℕ → ℕ → Option ℕ
  | 0, _ => none
  | fuel + 1, state =>
    if drawToken state ∈ occupied then drawLoop occupied fuel (drawToken state)
    else some (drawToken state)

/-- The next token, and with it the next state of the generator. -/
def nextActivationToken (state : ℕ) (occupied : List ℕ) : Option ℕ :=
  drawLoop occupied (occupied.length + 1) state

/-- The tokens issued from a seed, each under the tokens occupied at its time, and the state after
the last of them. -/
def issueTokens : ℕ → List (List ℕ) → Option (List ℕ × ℕ)
  | state, [] => some ([], state)
  | state, occupied :: rest => do
    let token ← nextActivationToken state occupied
    let (tokens, final) ← issueTokens token rest
    return (token :: tokens, final)

end Uniterm.Model.Server
