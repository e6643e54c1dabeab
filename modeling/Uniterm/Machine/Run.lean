import Mathlib.Data.List.Basic

/-! # Finite runs of partial step functions

A component is driven by a step function `σ → ε → Option σ`, where `none` is an abort of the
whole process: nothing follows it. `exec` folds a list of events, `Guards` says that every step
taken along the way meets a side condition on the state before it, and the two invariant rules
turn a one-step argument into a statement about whole runs.
-/

namespace Uniterm.Machine

variable {σ ε : Type*}

/-- Drive the machine through a list of events; an abort absorbs the rest of the list. -/
def exec (step : σ → ε → Option σ) : σ → List ε → Option σ
  | s, [] => some s
  | s, e :: es => (step s e).bind fun t => exec step t es

/-- Every step that the run actually takes meets the condition in the state before it. -/
def Guards (guard : σ → ε → Prop) (step : σ → ε → Option σ) : σ → List ε → Prop
  | _, [] => True
  | s, e :: es => guard s e ∧ ∀ t, step s e = some t → Guards guard step t es

/-- A state is reachable when some finite run from an initial state ends in it. -/
def Reachable (init : σ → Prop) (step : σ → ε → Option σ) (t : σ) : Prop :=
  ∃ s es, init s ∧ exec step s es = some t

theorem exec_append (step : σ → ε → Option σ) (s : σ) (first second : List ε) :
    exec step s (first ++ second) = (exec step s first).bind fun t => exec step t second := by
  induction first generalizing s with
  | nil => rfl
  | cons e es ih => simp only [List.cons_append, exec, ih, Option.bind_assoc]

/-- What one guarded step preserves, every guarded run preserves. -/
theorem exec_preserves {step : σ → ε → Option σ} {guard : σ → ε → Prop} {inv : σ → Prop}
    (keeps : ∀ s e t, inv s → guard s e → step s e = some t → inv t) {s t : σ} {es : List ε}
    (start : inv s) (guarded : Guards guard step s es) (ran : exec step s es = some t) : inv t := by
  induction es generalizing s with
  | nil => cases ran; exact start
  | cons e es ih =>
    obtain ⟨mid, stepped, rest⟩ := Option.bind_eq_some_iff.mp ran
    exact ih (keeps s e mid start guarded.1 stepped) (guarded.2 mid stepped) rest

/-- What every round preserves, a loop preserves. -/
theorem foldlM_preserves {step : σ → ε → Option σ} {inv : σ → Prop}
    (keeps : ∀ s e t, inv s → step s e = some t → inv t) {s t : σ} {es : List ε} (start : inv s)
    (ran : es.foldlM step s = some t) : inv t := by
  induction es generalizing s with
  | nil => cases ran; exact start
  | cons e es ih =>
    rw [List.foldlM_cons] at ran
    obtain ⟨mid, stepped, rest⟩ := Option.bind_eq_some_iff.mp ran
    exact ih (keeps s e mid start stepped) rest

/-- If a guarded step never aborts and keeps the invariant, no guarded run aborts. -/
theorem exec_total {step : σ → ε → Option σ} {guard : σ → ε → Prop} {inv : σ → Prop}
    (advances : ∀ s e, inv s → guard s e → ∃ t, step s e = some t ∧ inv t) {s : σ} {es : List ε}
    (start : inv s) (guarded : Guards guard step s es) : ∃ t, exec step s es = some t ∧ inv t := by
  induction es generalizing s with
  | nil => exact ⟨s, rfl, start⟩
  | cons e es ih =>
    obtain ⟨mid, stepped, held⟩ := advances s e start guarded.1
    obtain ⟨t, rest, final⟩ := ih held (guarded.2 mid stepped)
    exact ⟨t, by simp only [exec, stepped, Option.bind_some, rest], final⟩

/-- A condition that holds in every state guards every run. -/
theorem guards_of_forall {guard : σ → ε → Prop} (step : σ → ε → Option σ) (s : σ) {es : List ε}
    (all : ∀ e ∈ es, ∀ s, guard s e) : Guards guard step s es := by
  induction es generalizing s with
  | nil => trivial
  | cons e es ih =>
    exact ⟨all e (List.mem_cons_self ..) s, fun t _ => ih t fun e member => all e (.tail _ member)⟩

/-- A condition on the events alone joins the guard of a run. -/
theorem Guards.and_forall {guard : σ → ε → Prop} {quiet : ε → Prop} {step : σ → ε → Option σ} {s : σ}
    {es : List ε} (guarded : Guards guard step s es) (all : ∀ e ∈ es, quiet e) :
    Guards (fun s e => guard s e ∧ quiet e) step s es := by
  induction es generalizing s with
  | nil => trivial
  | cons e es ih =>
    refine ⟨⟨guarded.1, all e List.mem_cons_self⟩, fun t stepped => ?_⟩
    exact ih (guarded.2 t stepped) fun e member => all e (.tail _ member)

/-- An unconditional run is one guarded by nothing. -/
theorem guards_true (step : σ → ε → Option σ) (s : σ) (es : List ε) :
    Guards (fun _ _ => True) step s es := guards_of_forall step s fun _ _ _ => trivial

/-- The unconditional form of `exec_preserves`. -/
theorem exec_invariant {step : σ → ε → Option σ} {inv : σ → Prop}
    (keeps : ∀ s e t, inv s → step s e = some t → inv t) {s t : σ} {es : List ε}
    (start : inv s) (ran : exec step s es = some t) : inv t :=
  exec_preserves (fun s e t held _ stepped => keeps s e t held stepped) start
    (guards_true step s es) ran

/-- Reachable states satisfy whatever holds initially and is kept by every step. -/
theorem Reachable.invariant {init : σ → Prop} {step : σ → ε → Option σ} {inv : σ → Prop}
    (starts : ∀ s, init s → inv s) (keeps : ∀ s e t, inv s → step s e = some t → inv t)
    {t : σ} (reached : Reachable init step t) : inv t := by
  obtain ⟨s, es, initial, ran⟩ := reached
  exact exec_invariant keeps (starts s initial) ran

end Uniterm.Machine
