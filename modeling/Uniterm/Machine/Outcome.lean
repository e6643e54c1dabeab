import Mathlib.Data.List.Basic

/-! # Outcomes of one program under several builds

A program that may abort is a family of partial results, one for each way it can be built.
`Settles` says that the builds agree on one result and what holds of it, `Keeps` says what holds of
whatever a build returns. Both follow the structure of the program.
-/

namespace Uniterm.Machine

variable {ι : Type*} {α β : Type}

/-- Every build returns the same result, and the result has the property. -/
def Settles (f : ι → Option α) (P : α → Prop) : Prop := ∃ a, (∀ i, f i = some a) ∧ P a

/-- All builds do the same, and whatever they return has the property. -/
def Agrees (f : ι → Option α) (P : α → Prop) : Prop :=
  (∀ i j, f i = f j) ∧ ∀ i a, f i = some a → P a

/-- Whatever a build returns has the property. -/
def Keeps (f : ι → Option α) (P : α → Prop) : Prop := ∀ i a, f i = some a → P a

section Rules

variable {f : ι → Option α} {P Q : α → Prop}

theorem settles_some {a : α} (held : P a) : Settles (fun _ : ι => some a) P := ⟨a, fun _ => rfl, held⟩

theorem Settles.mono (settles : Settles f P) (weaker : ∀ a, P a → Q a) : Settles f Q := by
  obtain ⟨a, result, held⟩ := settles
  exact ⟨a, result, weaker a held⟩

theorem Settles.keeps (settles : Settles f P) : Keeps f P := by
  obtain ⟨a, result, held⟩ := settles
  intro i b returned
  rw [result i] at returned
  exact Option.some.inj returned ▸ held

theorem Settles.bind {R : β → Prop} {k : α → ι → Option β} (settles : Settles f P)
    (next : ∀ a, P a → Settles (k a) R) : Settles (fun i => f i >>= fun a => k a i) R := by
  obtain ⟨a, result, held⟩ := settles
  obtain ⟨b, final, holds⟩ := next a held
  exact ⟨b, fun i => by simp only [result i, Option.bind_eq_bind, Option.bind_some, final i], holds⟩

theorem Settles.map {Q : β → Prop} (settles : Settles f P) (g : α → β) (holds : ∀ a, P a → Q (g a)) :
    Settles (fun i => (f i).map g) Q := by
  obtain ⟨a, result, held⟩ := settles
  exact ⟨g a, fun i => by simp only [result i, Option.map_some], holds a held⟩

theorem Settles.agrees (settles : Settles f P) : Agrees f P := by
  refine ⟨fun i j => ?_, settles.keeps⟩
  obtain ⟨a, result, _⟩ := settles
  rw [result i, result j]

theorem agrees_none : Agrees (fun _ : ι => none) P := ⟨fun _ _ => rfl, fun _ _ returned => nomatch returned⟩

theorem Agrees.mono (agrees : Agrees f P) (weaker : ∀ a, P a → Q a) : Agrees f Q :=
  ⟨agrees.1, fun i a returned => weaker a (agrees.2 i a returned)⟩

theorem Agrees.keeps (agrees : Agrees f P) : Keeps f P := agrees.2

/-- What holds of the result may mention how it was returned. -/
theorem Agrees.returned (agrees : Agrees f P) (i : ι) : Agrees f fun a => P a ∧ f i = some a :=
  ⟨agrees.1, fun j a returned => ⟨agrees.2 j a returned, (agrees.1 i j).trans returned⟩⟩

theorem Settles.returned (settles : Settles f P) (i : ι) : Settles f fun a => P a ∧ f i = some a := by
  obtain ⟨a, result, held⟩ := settles
  exact ⟨a, result, held, result i⟩

theorem Agrees.bind {R : β → Prop} {k : α → ι → Option β} (agrees : Agrees f P)
    (next : ∀ a, P a → Agrees (k a) R) : Agrees (fun i => f i >>= fun a => k a i) R := by
  refine ⟨fun i j => ?_, fun i b returned => ?_⟩
  · dsimp only
    rw [agrees.1 i j]
    cases result : f j with
    | none => rfl
    | some a => exact (next a (agrees.2 j a result)).1 i j
  · obtain ⟨a, first, rest⟩ := Option.bind_eq_some_iff.mp returned
    exact (next a (agrees.2 i a first)).2 i b rest

theorem keeps_true (f : ι → Option α) : Keeps f fun _ => True := fun _ _ _ => trivial

theorem keeps_some {a : α} (held : P a) : Keeps (fun _ : ι => some a) P := (settles_some held).keeps

theorem Keeps.mono (keeps : Keeps f P) (weaker : ∀ a, P a → Q a) : Keeps f Q :=
  fun i a returned => weaker a (keeps i a returned)

theorem Keeps.bind {R : β → Prop} {k : α → ι → Option β} (keeps : Keeps f P)
    (next : ∀ a, P a → Keeps (k a) R) : Keeps (fun i => f i >>= fun a => k a i) R := by
  intro i b returned
  obtain ⟨a, first, rest⟩ := Option.bind_eq_some_iff.mp returned
  exact next a (keeps i a first) i b rest

/-- A loop whose rounds settle settles. -/
theorem settles_foldlM {σ : Type*} (inv : α → Prop) (round : ι → α → σ → Option α) (xs : List σ)
    (step : ∀ a, ∀ x ∈ xs, inv a → Settles (fun i => round i a x) inv) {a : α} (start : inv a) :
    Settles (fun i => xs.foldlM (round i) a) inv := by
  induction xs generalizing a with
  | nil => exact settles_some start
  | cons x xs ih =>
    obtain ⟨b, first, held⟩ := step a x (List.mem_cons_self ..) start
    obtain ⟨c, rest, final⟩ := ih (fun a x member => step a x (.tail _ member)) held
    refine ⟨c, fun i => ?_, final⟩
    simp only [List.foldlM_cons, first i]
    exact rest i

end Rules

end Uniterm.Machine
