import Mathlib.Data.Nat.Basic
import Uniterm.Machine.Outcome

/-! # Unchecked 16-bit arithmetic

Rows, columns and parameters are `u16`. A plain addition or subtraction wraps in a release build and
aborts the process in a build with overflow checks; both builds are modelled, so that the absence
of overflow is the statement that they agree.
-/

namespace Uniterm.Model

open Machine

/-- What a build does where 16-bit arithmetic leaves its range. -/
inductive Build where
  | release
  | checked
deriving DecidableEq, Repr

def add16 (build : Build) (a b : ℕ) : Option ℕ :=
  if a + b < 65536 then some (a + b)
  else match build with
  | .release => some (a + b - 65536)
  | .checked => none

def sub16 (build : Build) (a b : ℕ) : Option ℕ :=
  if b ≤ a then some (a - b)
  else match build with
  | .release => some (a + 65536 - b)
  | .checked => none

def saturatingAdd16 (a b : ℕ) : ℕ := min (a + b) 65535

theorem add16_of_lt (build : Build) {a b : ℕ} (fits : a + b < 65536) :
    add16 build a b = some (a + b) := if_pos fits

theorem sub16_of_le (build : Build) {a b : ℕ} (fits : b ≤ a) : sub16 build a b = some (a - b) :=
  if_pos fits

theorem add16_release (a b : ℕ) : ∃ c, add16 .release a b = some c := by
  unfold add16
  split
  · exact ⟨_, rfl⟩
  · exact ⟨_, rfl⟩

theorem sub16_release (a b : ℕ) : ∃ c, sub16 .release a b = some c := by
  unfold sub16
  split
  · exact ⟨_, rfl⟩
  · exact ⟨_, rfl⟩

/-- Builds agree on a sum that stays in range. -/
theorem settles_add16 {a b : ℕ} (fits : a + b < 65536) :
    Settles (fun build => add16 build a b) (· = a + b) := ⟨_, fun build => add16_of_lt build fits, rfl⟩

/-- Builds agree on a difference that stays in range. -/
theorem settles_sub16 {a b : ℕ} (fits : b ≤ a) :
    Settles (fun build => sub16 build a b) (· = a - b) := ⟨_, fun build => sub16_of_le build fits, rfl⟩

end Uniterm.Model
