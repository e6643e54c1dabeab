import Uniterm.Soundness.Terminal.Actions

/-! # Dispatch

Every CSI, ESC and OSC dispatch acts on a sound state. The conditions under which builds agree and
the cursor stays inside the margins are collected by action.
-/

namespace Uniterm.Model.Terminal

open Machine Grid

/-- No character of a repetition leaves a screen of one column. -/
def RepeatFits (u : Unicode) (t : Terminal) (n : ℕ) : Prop :=
  ∀ c ∈ t.lastChar, Guards (fun t c => ¬WidensInOneColumn u t c) (print u .release) t (List.replicate n c)

/-- No reset of a private mode restores the cursor outside the margins. -/
def ModesInside (t : Terminal) (modes : List ℕ) : Prop :=
  Guards (fun t mode => mode = 1048 → t.RestoresInside) (privateMode .release false) t modes

/-- A CSI sequence neither leaves 16 bits nor, under origin mode, the margins. -/
structure CsiInside (t : Terminal) (params : List (List ℕ)) (inter : Bytes) (action : Char) :
    Prop where
  position : action = 'H' ∨ action = 'f' → t.originMode = true →
    t.scrollTop + param params 0 1 < 65536
  line : action = 'd' → t.originMode = true → t.scrollTop + (param params 0 1 - 1) < 65536
  delete : action = 'P' → t.width - 1 + min (param params 0 1) (t.width - t.cx) < 65536
  restore : action = 'u' → inter = [] → t.RestoresInside
  modes : action = 'l' → inter.contains 0x3F = true → t.ModesInside (paramsFlat params)

section Loops

variable {slack : Slack} {u : Unicode} {t : Terminal}

theorem Sound.repeat_agrees (sound : Sound slack t) (c : Char) (n : ℕ)
    (room : slack.column ∨
      Guards (fun t c => ¬WidensInOneColumn u t c) (Terminal.print u .release) t (List.replicate n c)) :
    Agrees (fun build => iterateM (fun t => Terminal.print u build t c) n t) (Kept slack t) := by
  induction n generalizing t with
  | zero => exact (settles_some sound.kept).agrees
  | succ n ih =>
    have first := (sound.print_agrees c (room.imp_right And.left)).returned .release
    refine first.bind fun t' printed => ?_
    refine (ih printed.1.sound (room.imp_right ?_)).mono fun _ rest => printed.1.trans rest
    exact fun guarded => guarded.2 t' printed.2

theorem Sound.repeat_settles (sound : Sound slack t) (firm : ¬slack.column) (c : Char) (n : ℕ)
    (room : Guards (fun t c => ¬WidensInOneColumn u t c) (Terminal.print u .release) t (List.replicate n c)) :
    Settles (fun build => iterateM (fun t => Terminal.print u build t c) n t) (Kept slack t) := by
  induction n generalizing t with
  | zero => exact settles_some sound.kept
  | succ n ih =>
    refine ((sound.print firm c room.1).returned .release).bind fun t' printed => ?_
    exact (ih printed.1.sound (room.2 t' printed.2)).mono fun _ rest => printed.1.trans rest

theorem Sound.repeat_acts (sound : Sound slack t) (n : ℕ) (room : slack.column ∨ t.RepeatFits u n)
    {inside : Prop} : Acts slack inside t fun build => match t.lastChar with
      | none => some t
      | some c => iterateM (fun t => Terminal.print u build t c) n t := by
  unfold RepeatFits at room
  cases last : t.lastChar with
  | none => exact acts_some sound.kept
  | some c =>
    refine acts_of_agrees (sound.repeat_agrees c n (room.imp_right fun all => all c last)) fun firm => ?_
    obtain ⟨t', result, _⟩ := sound.repeat_settles firm c n (room.resolve_left firm c last)
    exact ⟨t', result .release⟩

theorem Sound.backTabs (sound : Sound slack t) (n : ℕ) {inside : Prop} :
    Acts slack inside t fun _ => iterateM (Terminal.backTab ·) n t >>= fun t =>
      some { t with wrapPending := false } := by
  have agrees : Agrees (fun _ : Build => iterateM (Terminal.backTab ·) n t) (Kept slack t) := by
    induction n generalizing t with
    | zero => exact (settles_some sound.kept).agrees
    | succ n ih =>
      refine sound.backTab.bind fun t' moved => ?_
      exact (ih moved.sound).mono fun _ rest => moved.trans rest
  refine acts_of_agrees (agrees.bind fun t' moved => ?_) fun firm => ?_
  · exact (settles_some (moved.trans (moved.sound.withPending false))).agrees
  · have total : ∃ t', iterateM (Terminal.backTab ·) n t = some t' := by
      clear agrees
      induction n generalizing t with
      | zero => exact ⟨t, rfl⟩
      | succ n ih =>
        obtain ⟨t', moved⟩ := sound.backTab_some firm
        obtain ⟨final, rest⟩ := ih (sound.backTab.2 .release t' moved).sound
        exact ⟨final, by rw [iterateM, moved]; exact rest⟩
    obtain ⟨t', moved⟩ := total
    exact ⟨_, by rw [moved]; rfl⟩

theorem Sound.privateModes (sound : Sound slack t) (enabled : Bool) (modes : List ℕ)
    (kept : enabled = false → (∃ mode ∈ modes, altScreenMode mode) → ¬slack.stash) :
    Settles (fun build => modes.foldlM (Terminal.privateMode build enabled) t) fun t' =>
      Sound slack t' ∧ ((enabled = false → t.ModesInside modes) → t.Homed → t'.Homed) := by
  induction modes generalizing t with
  | nil => exact settles_some ⟨sound, fun _ homed => homed⟩
  | cons mode modes ih =>
    simp only [List.foldlM_cons]
    have here : enabled = false → altScreenMode mode → ¬slack.stash :=
      fun reset alt => kept reset ⟨mode, List.mem_cons_self, alt⟩
    have later : enabled = false → (∃ mode ∈ modes, altScreenMode mode) → ¬slack.stash :=
      fun reset ⟨mode, member, alt⟩ => kept reset ⟨mode, List.mem_cons_of_mem _ member, alt⟩
    refine ((sound.privateMode mode enabled here).returned .release).bind fun t' first => ?_
    obtain ⟨⟨held, homes⟩, returned⟩ := first
    refine (ih held later).mono fun t'' rest => ⟨rest.1, fun inside homed => rest.2 (fun reset => ?_) ?_⟩
    · subst reset
      exact (inside rfl).2 t' returned
    · exact homes (fun is reset => (inside reset).1 is) homed

end Loops

section Csi

variable {slack : Slack} {u : Unicode} {t : Terminal}

/-- CUU, and CPL with its column. -/
theorem Sound.moveUp (sound : Sound slack t) (n : ℕ) :
    Kept slack t { t with cy := max (t.cy - n) t.upperLimit, wrapPending := false } := by
  have row := sound.row
  have margins := sound.margins
  have bottom := sound.bottom
  unfold upperLimit
  refine ⟨{ sound with row := ?_ }, fun homed origin => ?_⟩
  · dsimp only
    split <;> omega
  · have inside := homed origin
    have on : t.originMode = true := origin
    dsimp only
    rw [if_pos on]
    omega

/-- CUD, and CNL with its column. -/
theorem Sound.moveDown (sound : Sound slack t) (n : ℕ) (place : Terminal → Terminal)
    (places : ∀ {t}, Sound slack t → Kept slack t (place t)) :
    Settles (fun build => do
      let bottom ← t.lowerLimit build
      some (place { t with cy := min (saturatingAdd16 t.cy n) bottom, wrapPending := false }))
      (Kept slack t) := by
  have row := sound.row
  have short := sound.short
  have margins := sound.margins
  have below := sound.bottom
  have limit : Settles (fun build => t.lowerLimit build) fun bottom =>
      bottom < t.height ∧ (t.originMode = true → bottom = t.scrollBottom) := by
    unfold Terminal.lowerLimit
    by_cases origin : t.originMode = true
    · simp only [if_pos origin]
      exact settles_some ⟨below, fun _ => rfl⟩
    · simp only [if_neg origin]
      exact (settles_sub16 (by omega)).mono fun bottom edge =>
        ⟨by omega, fun on => absurd on origin⟩
  refine limit.bind fun bottom bound => settles_some ?_
  have moved : Kept slack t
      { t with cy := min (saturatingAdd16 t.cy n) bottom, wrapPending := false } := by
    unfold saturatingAdd16
    refine ⟨{ sound with row := ?_ }, fun homed origin => ?_⟩
    · dsimp only
      omega
    · have inside := homed origin
      have last := bound.2 origin
      dsimp only
      omega
  exact moved.trans (places moved.sound)

theorem Sound.toColumn (sound : Sound slack t) (pick : ℕ → ℕ) :
    Settles (fun build => do
      let right ← sub16 build t.width 1
      some { t with cx := min (pick t.cx) right, wrapPending := false }) (Kept slack t) := by
  have wide := sound.wide
  refine (settles_sub16 (by omega)).bind fun right edge => settles_some ?_
  subst edge
  exact sound.withColumn (by omega) false

private theorem keyboardProtocol_layout (t : Terminal) (params : List (List ℕ)) (marker : UInt8) :
    (t.keyboardProtocol params marker).layout = t.layout := by
  have set (k : KeyboardMode) : (t.setKeyboard k).layout = t.layout := layout_ite rfl rfl
  unfold keyboardProtocol
  refine layout_ite (set _) (layout_ite (set _) ?_)
  dsimp only
  split
  · exact set _
  · exact set _
  · exact set _
  · rfl

private theorem windowOps_layout (t : Terminal) (op : ℕ) : (t.windowOps op).layout = t.layout := by
  unfold windowOps
  split <;> rfl

theorem Sound.restore_acts (sound : Sound slack t) :
    Acts slack t.RestoresInside t fun build => t.restoreCursor build :=
  acts_of_settles_if sound.restoreCursor

theorem Sound.deleteChars_acts (sound : Sound slack t) (n : ℕ) :
    Acts slack (t.width - 1 + min n (t.width - t.cx) < 65536) t fun build =>
      t.deleteChars build n where
  keeps := (sound.deleteChars_keeps n).mono fun _ kept => kept.sound
  total _ := deleteChars_release t n
  agrees fits homed :=
    ((sound.deleteChars fits).mono fun _ kept => ⟨kept.sound, kept.homed homed⟩).agrees

/-- Every CSI dispatch acts on a sound state. -/
theorem Sound.csiDispatch (sound : Sound slack t) (params : List (List ℕ)) (inter : Bytes)
    (action : Char) (room : action = 'b' → slack.column ∨ t.RepeatFits u (param params 0 1))
    (kept : CsiLeaves params inter action → ¬slack.stash) :
    Acts slack (t.CsiInside params inter action) t fun build =>
      t.csiDispatch u build params inter action := by
  have zero {t : Terminal} (sound : Sound slack t) : Kept slack t { t with cx := 0 } :=
    sound.withColumn sound.wide t.wrapPending
  have positive := param_pos params 0 Nat.one_pos
  unfold Terminal.csiDispatch
  dsimp only
  split
  case h_1 => exact (sound.cursorPosition params).imp fun inside => inside.position (.inl rfl)
  case h_2 => exact (sound.cursorPosition params).imp fun inside => inside.position (.inr rfl)
  case h_3 => exact acts_some (sound.moveUp _)
  case h_4 => exact acts_of_settles (sound.moveDown _ id fun sound => sound.kept)
  case h_5 => exact acts_of_settles (sound.moveDown _ id fun sound => sound.kept)
  case h_6 => exact acts_of_settles (sound.toColumn fun cx => saturatingAdd16 cx _)
  case h_7 => exact acts_of_settles (sound.toColumn fun cx => saturatingAdd16 cx _)
  case h_8 => exact acts_some (sound.withColumnLe (Nat.sub_le ..))
  case h_9 =>
    exact acts_of_settles (sound.moveDown _ (fun t => { t with cx := 0 }) fun sound => zero sound)
  case h_10 => exact acts_some ((sound.moveUp _).trans (zero (sound.moveUp _).sound))
  case h_11 =>
    exact acts_of_settles ((settles_sub16 positive).bind fun target _ => sound.toColumn fun _ => target)
  case h_12 =>
    exact acts_of_settles ((settles_sub16 positive).bind fun target _ => sound.toColumn fun _ => target)
  case h_13 => exact (sound.linePosition params).imp fun inside => inside.line rfl
  case h_14 => exact acts_of_settles (sound.eraseInDisplay _)
  case h_15 => exact acts_of_settles (sound.eraseInLine _)
  case h_16 =>
    split
    · exact acts_some (sound.applySgr params)
    · exact acts_some sound.kept
  case h_17 => exact (sound.deleteChars_acts _).imp fun inside => inside.delete rfl
  case h_18 => exact acts_some (sound.insertChars _)
  case h_19 => exact acts_of_settles (sound.eraseChars _)
  case h_20 => exact acts_some (sound.insertLines _)
  case h_21 => exact acts_some (sound.deleteLines _)
  case h_22 => exact sound.repeat_acts _ (room rfl)
  case h_23 => exact sound.backTabs _
  case h_24 =>
    split
    · exact sound.setTab false
    · exact acts_some ⟨{ sound with tabs := by rw [List.length_map]; exact sound.tabs }, id⟩
    · exact acts_some sound.kept
  case h_25 => exact acts_some (sound.iterate (fun sound => sound.scrollRegionUp) _)
  case h_26 => exact acts_some (sound.iterate (fun sound => sound.scrollRegionDown) _)
  case h_27 =>
    split
    · exact acts_of_settles (sound.setMargins params)
    · exact acts_some sound.kept
  case h_28 => exact acts_of_layout sound (layout_ite rfl rfl)
  case h_29 =>
    split
    · next none => exact sound.restore_acts.imp fun inside => inside.restore rfl (List.isEmpty_iff.mp none)
    split
    · exact acts_of_layout sound rfl
    split
    · exact acts_of_layout sound (keyboardProtocol_layout ..)
    · exact acts_some sound.kept
  case h_30 => exact acts_of_layout sound rfl
  case h_31 =>
    split
    · exact acts_some sound.kept
    split
    · split
      · exact acts_of_layout sound rfl
      · exact sound.reportCursor
      · exact acts_some sound.kept
    split
    · exact acts_of_layout sound rfl
    · exact acts_some sound.kept
  case h_32 => exact acts_of_layout sound (layout_ite (windowOps_layout ..) rfl)
  case h_33 =>
    split
    · refine acts_of_settles_if ((sound.privateModes true _ fun absurd => nomatch absurd).mono fun _ held => ⟨held.1, fun _ => ?_⟩)
      exact held.2 fun absurd => nomatch absurd
    split
    · exact acts_of_layout sound rfl
    · exact acts_some sound.kept
  case h_34 =>
    split
    · next marked =>
      have stays : false = false → (∃ mode ∈ paramsFlat params, altScreenMode mode) → ¬slack.stash :=
        fun _ alt => kept ⟨rfl, marked, alt⟩
      refine acts_of_settles_if ((sound.privateModes false _ stays).mono fun _ held => ⟨held.1, ?_⟩)
      exact fun inside => held.2 fun _ => inside.modes rfl marked
    split
    · exact acts_of_layout sound rfl
    · exact acts_some sound.kept
  case h_35 => exact acts_some sound.kept

end Csi

section Others

variable {slack : Slack} {env : Env} {t : Terminal}

/-- The escape that restores the cursor keeps it inside the margins. -/
def EscInside (t : Terminal) (inter : Bytes) (byte : ℕ) : Prop :=
  inter ≠ ascii "(" → Char.ofNat byte = '8' → t.RestoresInside

theorem Sound.escDispatch (sound : Sound slack t) (inter : Bytes) (byte : ℕ) :
    Acts slack (t.EscInside inter byte) t fun build => t.escDispatch build inter byte := by
  unfold Terminal.escDispatch
  split
  · exact acts_of_layout sound (layout_ite rfl (layout_ite rfl rfl))
  next other =>
  split
  case h_1 => exact acts_some sound.reverseIndex
  case h_2 => exact acts_of_settles sound.newline
  case h_3 =>
    have start := sound.withColumn sound.wide t.wrapPending
    exact acts_of_settles (start.sound.newline.mono fun _ rest => start.trans rest)
  case h_4 => exact sound.setTab true
  case h_5 => exact acts_of_layout sound rfl
  case h_6 is => exact sound.restore_acts.imp fun inside => inside other is
  case h_7 => exact acts_of_settles sound.resetTerminal
  case h_8 => exact acts_some sound.kept

private theorem colorQuery_layout (t : Terminal) (params : List Bytes) :
    (t.colorQuery params).layout = t.layout := by
  unfold colorQuery
  dsimp only
  split
  · rfl
  · exact layout_ite (layout_ite rfl (layout_ite rfl rfl)) rfl

theorem Sound.agentNotify (sound : Sound slack t) (params : List Bytes)
    (kept : (∃ event, env.parseOsc777 (rejoin (params.drop 3)) = some event ∧ event.status = some .exited) →
      ¬slack.stash) :
    Settles (fun build => t.agentNotify env build params) (Kept slack t) := by
  unfold Terminal.agentNotify
  split
  · exact settles_some sound.kept
  · next event parsed =>
    split
    · next exited =>
      exact (sound.recoverShellScreen (kept ⟨event, parsed, exited⟩)).bind fun t' kept =>
        settles_some (kept.trans (kept.sound.of_layout rfl))
    · exact settles_some (sound.of_layout rfl)

theorem Sound.promptMark (sound : Sound slack t) (params : List Bytes)
    (kept : promptReturns params → ¬slack.stash) :
    Settles (fun build => t.promptMark build params) (Kept slack t) := by
  unfold Terminal.promptMark
  dsimp only
  split
  · next shown =>
    exact (sound.recoverShellScreen (kept shown.2)).bind fun t' kept =>
      settles_some (kept.trans (kept.sound.of_layout (layout_ite rfl rfl)))
  · exact settles_some (sound.of_layout (layout_ite rfl rfl))

theorem Sound.openHyperlink (sound : Sound slack t) (params : List Bytes) :
    Kept slack t (t.openHyperlink params) := by
  unfold Terminal.openHyperlink
  split
  · exact sound.of_layout rfl
  · next uri _ =>
    have linked := sound.withGrid (sound.screen.internHyperlink uri)
    exact linked.trans (linked.sound.of_layout rfl)

theorem Sound.oscDispatch (sound : Sound slack t) (params : List Bytes)
    (kept : OscRecovers env params → ¬slack.stash) :
    Settles (fun build => t.oscDispatch env build params) (Kept slack t) := by
  unfold Terminal.oscDispatch
  split
  · exact settles_some (sound.of_layout rfl)
  split
  · exact settles_some (sound.openHyperlink params)
  split
  · exact settles_some (sound.of_layout
      (layout_ite (setNestedInput_layout ..) (layout_ite (setNestedInput_layout ..) rfl)))
  split
  · next notified => exact sound.agentNotify params fun exited => kept (.inl ⟨notified, exited⟩)
  split
  · split
    · exact settles_some (sound.of_layout (layout_ite rfl rfl))
    · exact settles_some sound.kept
  split
  · next prompt => exact sound.promptMark params fun returns => kept (.inr ⟨prompt, returns⟩)
  split
  · exact settles_some (sound.of_layout (layout_ite rfl rfl))
  · exact settles_some (sound.of_layout (colorQuery_layout ..))

end Others

end Uniterm.Model.Terminal
