import Uniterm.Soundness.Terminal.Steps

/-! # Runs of the emulator

From a fresh terminal of any size, any sequence of parsed actions and resizes. Three slips of the
source bound what holds of every run: a glyph widened on a screen of one column, 16-bit sums in
origin-relative addressing and in DCH, and 16-bit column sums while a line is recut.
-/

namespace Uniterm.Model.Terminal

open Machine Grid ToMathlib

/-- No printed character leaves a screen of one column. -/
def FitsColumn (env : Env) (t : Terminal) : Action → Prop
  | .print c => ¬t.WidensInOneColumn env.unicode c
  | .csi params _ action =>
    action = 'b' → t.RepeatFits env.unicode (param (params.map (·.map UInt16.toNat)) 0 1)
  | _ => True

/-- No resize recuts a line past 16 bits. -/
def FitsWord (env : Env) (t : Terminal) : Action → Prop
  | .resize width _ => t.ResizeFits env.unicode width.toNat
  | _ => True

/-- No sequence leaves 16 bits or, under origin mode, the margins. -/
def StaysInside (t : Terminal) : Action → Prop
  | .csi params inter action => t.CsiInside (params.map (·.map UInt16.toNat)) inter action
  | .esc inter byte => t.EscInside inter byte.toNat
  | _ => True

section Steps

variable {slack : Slack} {env : Env} {t : Terminal}

theorem Sound.step (sound : Sound slack t) (a : Action) (column : slack.column ∨ t.FitsColumn env a)
    (word : t.FitsWord env a) (kept : LeavesAlt env a → ¬slack.stash) :
    Acts slack (t.StaysInside a) t fun build => step env build t a := by
  cases a with
  | print c =>
    refine acts_of_agrees (sound.print_agrees c column) fun firm => ?_
    obtain ⟨t', printed, _⟩ := sound.print firm c (column.resolve_left firm)
    exact ⟨t', printed .release⟩
  | execute byte => exact acts_of_settles (sound.execute byte.toNat)
  | csi params inter action =>
    exact sound.csiDispatch _ inter action (fun repeats => column.imp_right fun fits => fits repeats) kept
  | esc inter byte => exact sound.escDispatch inter byte.toNat
  | osc params => exact acts_of_settles (sound.oscDispatch params kept)
  | resize width height =>
    exact acts_some (sound.resize env.unicode width.toNat_lt height.toNat_lt word (kept trivial))

private theorem sound_new (slack : Slack) {width height : ℕ} (narrow : width < 65536) (short : height < 65536) :
    Sound slack (new width height) ∧ (new width height).Homed := by
  have wide : 0 < max width 1 := by omega
  have tall : 0 < max height 1 := by omega
  refine ⟨⟨wide, ?_, tall, ?_, .inl wide, tall, Nat.zero_le _, ?_, ?_, fitted_new wide tall, .inr ?_⟩, ?_⟩
  · change max width 1 < 65536
    omega
  · change max height 1 < 65536
    omega
  · change max height 1 - 1 < max height 1
    omega
  · simp [new, defaultTabs]
  · simp [new]
  · intro origin
    cases origin

theorem Initial.sound (slack : Slack) (initial : Initial t) : Sound slack t ∧ t.Homed := by
  obtain ⟨width, height, rfl⟩ := initial
  exact sound_new slack width.toNat_lt height.toNat_lt

end Steps

section Safety

/-- A grid has exactly the given number of rows, each with exactly the given number of cells. -/
def Sized (width height : ℕ) (g : Grid) : Prop :=
  g.width = width ∧ g.height = height ∧ g.lines.length = height ∧
    ∀ line ∈ g.lines, line.cells.length = width

/-- The cursor, the margins, the tab stops and both grids are inside the screen. -/
def OnScreen (t : Terminal) : Prop :=
  t.cx < t.width ∧ t.cy < t.height ∧ t.scrollTop ≤ t.scrollBottom ∧ t.scrollBottom < t.height ∧
    t.tabs.length = t.width ∧ Sized t.width t.height t.grid ∧
    ∀ g ∈ t.altBackup, Sized t.width t.height g

private theorem sized_of_fitted {w h : ℕ} {g : Grid} (fitted : Fitted w h g) : Sized w h g := by
  refine ⟨fitted.width, fitted.height, fitted.tidy.lines.trans fitted.height, fun line member => ?_⟩
  rw [fitted.tidy.full line member, fitted.width]

theorem Sound.onScreen {t : Terminal} (sound : Sound ⟨False, False⟩ t) : t.OnScreen :=
  ⟨sound.column.resolve_right fun loose => loose.1, sound.row, sound.margins, sound.bottom, sound.tabs,
    sized_of_fitted sound.screen, fun g member => sized_of_fitted (sound.stash.resolve_left id g member)⟩

/-- A run in which no character widens a glyph on a screen of one column, and no resize recuts a
line past 16 bits, never aborts and ends with everything on the screen. -/
theorem run_onScreen (env : Env) {start : Terminal} (initial : Initial start) {actions : List Action}
    (guarded : Guards (fun t a => t.FitsColumn env a ∧ t.FitsWord env a) (step env .release)
      start actions) :
    ∃ t, exec (step env .release) start actions = some t ∧ t.OnScreen := by
  have advances (t : Terminal) (a : Action) (sound : Sound ⟨False, False⟩ t)
      (fits : t.FitsColumn env a ∧ t.FitsWord env a) :
      ∃ t', step env .release t a = some t' ∧ Sound ⟨False, False⟩ t' := by
    have acts := sound.step a (.inr fits.1) fits.2 fun _ => id
    obtain ⟨t', stepped⟩ := acts.total id
    exact ⟨t', stepped, acts.keeps _ t' stepped⟩
  obtain ⟨t, ran, sound⟩ := exec_total advances (initial.sound ⟨False, False⟩).1 guarded
  exact ⟨t, ran, sound.onScreen⟩

/-- Unicode tables for text without combining characters: every character is one column. -/
def asciiEnv : Env where
  unicode := { charWidth := fun _ => some 1, strWidth := List.length, graphemes := List.length }
  parseOsc777 := fun _ => none

private theorem asciiEnv_narrow (t : Terminal) (c : Char) : ¬t.WidensInOneColumn asciiEnv.unicode c := by
  rintro ⟨_, _, pos, _, lead, _, joins, two⟩
  unfold graphemeExtends at joins
  unfold Unicode.glyphWidth at two
  simp only [asciiEnv, Bool.and_eq_true, beq_iff_eq] at joins two
  omega

theorem asciiEnv_fits (t : Terminal) {a : Action}
    (small : ∀ width height, a = .resize width height → width.toNat ≤ 65533) :
    t.FitsColumn asciiEnv a ∧ t.FitsWord asciiEnv a := by
  cases a with
  | print c => exact ⟨asciiEnv_narrow t c, trivial⟩
  | csi params inter action =>
    refine ⟨fun _ c _ => guards_of_forall _ _ fun c _ t => asciiEnv_narrow t c, trivial⟩
  | resize width height =>
    have bound := small width height rfl
    refine ⟨trivial, .inr ⟨fits_of_le _ _ (by omega), fun g _ => fits_of_le _ _ (by omega)⟩⟩
  | execute _ => exact ⟨trivial, trivial⟩
  | esc _ _ => exact ⟨trivial, trivial⟩
  | osc _ => exact ⟨trivial, trivial⟩

theorem run_onScreen_oneColumn : ∃ t,
    exec (step asciiEnv .release) (new 1 1)
      [.print 'a', .print 'b', .csi [[3]] [] 'b', .resize 7 3] = some t ∧ t.OnScreen := by
  refine run_onScreen asciiEnv ⟨1, 1, rfl⟩ (guards_of_forall _ _ fun a member t => asciiEnv_fits t ?_)
  rintro width height rfl
  simp at member
  rw [member.1]
  decide

/-- Tables in which the variation selector U+FE0F makes a heart one grapheme of two columns. -/
def heartEnv : Env where
  unicode := {
    charWidth := fun c => some (if c = '\uFE0F' then 0 else 1)
    strWidth := fun text => if text = ['❤', '\uFE0F'] then 2 else 1
    graphemes := fun text => if text = ['❤', '\uFE0F'] then 1 else text.length }
  parseOsc777 := fun _ => none

/-- A heart widened on a screen of one column leaves the cursor in column two, and the next
character is looked up beside the screen. -/
theorem not_onScreen_of_heart :
    (exec (step heartEnv .release) (new 1 1) [.print '❤', .print '\uFE0F']).map
        (fun t => (t.cx, t.width)) = some (2, 1) ∧
      exec (step heartEnv .release) (new 1 1) [.print '❤', .print '\uFE0F', .print 'a'] = none ∧
      ¬∃ t, exec (step heartEnv .release) (new 1 1) [.print '❤', .print '\uFE0F'] = some t ∧
        t.OnScreen := by
  have wide : (exec (step heartEnv .release) (new 1 1) [.print '❤', .print '\uFE0F']).map
      (fun t => (t.cx, t.width)) = some (2, 1) := by decide
  refine ⟨wide, by rfl, ?_⟩
  rintro ⟨t, ran, inside⟩
  rw [ran] at wide
  have column := inside.1
  simp only [Option.map_some, Option.some.injEq, Prod.mk.injEq] at wide
  omega

end Safety

section Addressing

/-- Under origin mode the cursor is inside the margins, and every build reports a row between one
and the height of the region. -/
def ReportsInside (t : Terminal) : Prop :=
  t.originMode = true → t.scrollTop ≤ t.cy ∧ t.cy ≤ t.scrollBottom ∧
    ∃ row, (∀ build, t.reportedRow build = some row) ∧ 1 ≤ row ∧
      row ≤ t.scrollBottom - t.scrollTop + 1

theorem Sound.reportsInside {slack : Slack} {t : Terminal} (sound : Sound slack t) (homed : t.Homed) :
    t.ReportsInside := by
  intro origin
  obtain ⟨row, reported, first, last⟩ := sound.reportedRow homed
  exact ⟨(homed origin).1, (homed origin).2, row, reported, first, last origin⟩

/-- A run in which no origin-relative address, DCH source column or recut leaves 16 bits, and no
cursor is restored outside the margins, is the same with and without overflow checks, and reports
rows inside the margins. -/
theorem run_reportsInside (env : Env) {start : Terminal} (initial : Initial start)
    {actions : List Action}
    (guarded : Guards (fun t a => t.StaysInside a ∧ t.FitsWord env a) (step env .release)
      start actions) :
    exec (step env .checked) start actions = exec (step env .release) start actions ∧
      ∀ t, exec (step env .release) start actions = some t → t.ReportsInside := by
  obtain ⟨sound, homed⟩ := initial.sound ⟨True, False⟩
  clear initial
  induction actions generalizing start with
  | nil =>
    refine ⟨rfl, fun t ran => ?_⟩
    cases ran
    exact sound.reportsInside homed
  | cons a rest ih =>
    obtain ⟨here, later⟩ := guarded
    have agrees := (sound.step a (.inl trivial) here.2 fun _ => id).agrees here.1 homed
    have same := agrees.1 .checked .release
    dsimp only at same
    rw [exec, exec, same]
    cases stepped : step env .release start a with
    | none =>
      refine ⟨rfl, fun t ran => ?_⟩
      cases ran
    | some next =>
      obtain ⟨sound', homed'⟩ := agrees.2 .release next stepped
      exact ih (later next stepped) sound' homed'

/-- The run of a full-screen application: margins, origin mode, addressing, a deletion. -/
theorem run_reportsInside_margins :
    exec (step asciiEnv .checked) (new 4 5)
        [.csi [[2], [4]] [] 'r', .csi [[6]] [0x3F] 'h', .csi [[9], [2]] [] 'H', .csi [[3]] [] 'P'] =
      exec (step asciiEnv .release) (new 4 5)
        [.csi [[2], [4]] [] 'r', .csi [[6]] [0x3F] 'h', .csi [[9], [2]] [] 'H', .csi [[3]] [] 'P'] ∧
      ∀ t, exec (step asciiEnv .release) (new 4 5)
        [.csi [[2], [4]] [] 'r', .csi [[6]] [0x3F] 'h', .csi [[9], [2]] [] 'H', .csi [[3]] [] 'P'] =
          some t → t.ReportsInside := by
  refine run_reportsInside asciiEnv ⟨4, 5, rfl⟩ ?_
  refine ⟨⟨⟨nofun, nofun, nofun, nofun, nofun⟩, trivial⟩, fun t₁ first => ?_⟩
  obtain rfl := Option.some.inj first
  refine ⟨⟨⟨nofun, nofun, nofun, nofun, nofun⟩, trivial⟩, fun t₂ second => ?_⟩
  obtain rfl := Option.some.inj second
  refine ⟨⟨⟨fun _ _ => by decide, nofun, nofun, nofun, nofun⟩, trivial⟩, fun t₃ third => ?_⟩
  obtain rfl := Option.some.inj third
  exact ⟨⟨⟨nofun, nofun, fun _ => by decide, nofun, nofun⟩, trivial⟩, fun _ _ => trivial⟩

/-- With the margins at rows 3 to 24 and origin mode set, addressing row 65535 wraps around to the
top of the screen, above the region; the position report wraps around as well. -/
theorem not_reportsInside_of_wrap :
    (exec (step asciiEnv .release) (new 4 24)
        [.csi [[3], [24]] [] 'r', .csi [[6]] [0x3F] 'h', .csi [[65535], [1]] [] 'H']).map
        (fun t => (t.originMode, t.scrollTop, t.cy, t.reportedRow .release)) =
      some (true, 2, 0, some 65535) ∧
    exec (step asciiEnv .checked) (new 4 24)
      [.csi [[3], [24]] [] 'r', .csi [[6]] [0x3F] 'h', .csi [[65535], [1]] [] 'H'] = none ∧
    ¬∀ t, exec (step asciiEnv .release) (new 4 24)
      [.csi [[3], [24]] [] 'r', .csi [[6]] [0x3F] 'h', .csi [[65535], [1]] [] 'H'] = some t →
        t.ReportsInside := by
  have wrapped : (exec (step asciiEnv .release) (new 4 24)
      [.csi [[3], [24]] [] 'r', .csi [[6]] [0x3F] 'h', .csi [[65535], [1]] [] 'H']).map
      (fun t => (t.originMode, t.scrollTop, t.cy, t.reportedRow .release)) =
    some (true, 2, 0, some 65535) := by decide
  refine ⟨wrapped, by rfl, fun inside => ?_⟩
  obtain ⟨t, ran, fields⟩ := Option.map_eq_some_iff.mp wrapped
  simp only [Prod.mk.injEq] at fields
  have bounds := inside t ran fields.1
  omega

end Addressing

end Uniterm.Model.Terminal
