import Mathlib.Tactic.IntervalCases
import Uniterm.Model.Terminal.Renderer

/-! # Styles survive the control sequence

The sequence of a style is a list of parameter groups, and the terminal reads them chunk by chunk: a flag is
one group, a colour between three and five. What a chunk does to the pen does not depend on the chunks that
follow it.
-/

namespace Uniterm.Model

namespace Attrs

section Underline

/-- The flags other than the underline. -/
def declared : Attrs := bold ||| reverse ||| dim ||| italic ||| blink ||| invisible ||| strike

/-- The underline bits encode a style, and the others are declared flags. -/
def Declared (attrs : Attrs) : Prop :=
  ∃ (flags : Attrs) (style : UnderlineStyle), flags &&& ~~~declared = 0 ∧ attrs = flags.setUnderlineStyle style

/-- Setting the underline style leaves all other bits. -/
theorem setUnderlineStyle_other (attrs : Attrs) (style : UnderlineStyle) :
    attrs.setUnderlineStyle style &&& ~~~underlineStyleMask = attrs &&& ~~~underlineStyleMask := by
  apply BitVec.eq_of_getLsbD_eq
  intro i bound
  cases style <;> interval_cases i <;> simp [setUnderlineStyle, UnderlineStyle.code, underlineStyleMask]

private theorem setUnderlineStyle_mask (attrs : Attrs) (style : UnderlineStyle) :
    attrs.setUnderlineStyle style &&& underlineStyleMask = Attrs.none.setUnderlineStyle style := by
  apply BitVec.eq_of_getLsbD_eq
  intro i bound
  cases style <;> interval_cases i <;>
    simp [setUnderlineStyle, UnderlineStyle.code, underlineStyleMask, Attrs.none]

/-- The underline bits, moved together. -/
def underlineCode (attrs : Attrs) : Attrs :=
  ((attrs >>> 1) &&& 1) ||| ((attrs >>> 7) &&& 2) ||| ((attrs >>> 7) &&& 4)

private theorem underlineStyle_eq (attrs : Attrs) : attrs.underlineStyle =
    if attrs.underlineCode = 1 then .single else if attrs.underlineCode = 2 then .double
    else if attrs.underlineCode = 3 then .curly else if attrs.underlineCode = 4 then .dotted
    else if attrs.underlineCode = 5 then .dashed else .none := rfl

/-- The underline style is read from its own bits. -/
theorem underlineStyle_mask (attrs : Attrs) :
    (attrs &&& underlineStyleMask).underlineStyle = attrs.underlineStyle := by
  have encoded : (attrs &&& underlineStyleMask).underlineCode = attrs.underlineCode := by
    apply BitVec.eq_of_getLsbD_eq
    intro i bound
    interval_cases i <;> simp [underlineCode, underlineStyleMask]
  rw [underlineStyle_eq, underlineStyle_eq, encoded]

/-- The underline style that was set is read back. -/
theorem underlineStyle_setUnderlineStyle (attrs : Attrs) (style : UnderlineStyle) :
    (attrs.setUnderlineStyle style).underlineStyle = style := by
  rw [← underlineStyle_mask, setUnderlineStyle_mask]
  cases style <;> rfl

end Underline

section Rebuilding

/-- Set a flag if the attributes have it. -/
def carry (attrs flag bits : Attrs) : Attrs := if attrs &&& flag ≠ 0 then bits ||| flag else bits

/-- Set an underline style other than none. -/
def underlined (bits : Attrs) (style : UnderlineStyle) : Attrs :=
  if style = .none then bits else bits.setUnderlineStyle style

/-- The attributes, one after the other. -/
def rebuilt (dimmed : Bool) (attrs : Attrs) : Attrs :=
  carry attrs strike <| carry attrs invisible <| carry attrs reverse <| carry attrs blink <|
    (carry attrs italic <| carry attrs dim <| carry attrs bold <|
      carry (if dimmed then dim else .none) dim .none).underlined attrs.underlineStyle

private theorem rebuilt_bits : ∀ bits < 256,
    ∀ style ∈ [UnderlineStyle.none, .single, .double, .curly, .dotted, .dashed], ∀ dimmed : Bool,
      rebuilt dimmed (setUnderlineStyle (BitVec.ofNat 16 bits) style) =
        carry (if dimmed then dim else .none) dim (setUnderlineStyle (BitVec.ofNat 16 bits) style) := by
  decide +kernel

private theorem lt_of_declared {flags : Attrs} (only : flags &&& ~~~declared = 0) : flags.toNat < 256 := by
  have same : flags = flags &&& declared := by
    apply BitVec.eq_of_getLsbD_eq
    intro i bound
    have bit : (flags.getLsbD i && !declared.getLsbD i) = false := by
      simpa [bound] using congrArg (fun bits : Attrs => bits.getLsbD i) only
    rw [BitVec.getLsbD_and]
    revert bit
    cases flags.getLsbD i <;> simp
  rw [same, BitVec.toNat_and]
  exact Nat.lt_of_le_of_lt Nat.and_le_right (by decide)

/-- Setting one attribute after the other gives them all. -/
theorem rebuilt_eq {attrs : Attrs} (legal : attrs.Declared) (dimmed : Bool) :
    rebuilt dimmed attrs = if dimmed then attrs ||| dim else attrs := by
  obtain ⟨flags, style, only, rfl⟩ := legal
  have bits := rebuilt_bits flags.toNat (lt_of_declared only) style (by cases style <;> decide) dimmed
  rw [BitVec.ofNat_toNat, BitVec.setWidth_eq] at bits
  rw [bits]
  cases dimmed <;> rfl

end Rebuilding

end Attrs

namespace Terminal

/-- What a style is made of. -/
structure Pen where
  fg : Color := .default
  bg : Color := .default
  attrs : Attrs := Attrs.none
  underlineColor : Color := .default
deriving DecidableEq, Repr

/-- The style that the terminal writes in. -/
def pen (t : Terminal) : Pen := ⟨t.fg, t.bg, t.attrs, t.underlineColor⟩

section Chunks

/-- The terminal reads a chunk of groups before whatever follows it. -/
def Reads (chunk : List (List ℕ)) (change : Pen → Pen) : Prop :=
  ∀ rest t fuel, (chunk ++ rest).length ≤ fuel → ∃ left t', rest.length ≤ left ∧
    sgrLoop fuel (chunk ++ rest) t = sgrLoop left rest t' ∧ t'.pen = change t.pen

variable {first second : List (List ℕ)} {change next : Pen → Pen}

theorem Reads.nil : Reads [] id := fun _ t fuel enough => ⟨fuel, t, enough, rfl, rfl⟩

theorem Reads.append (early : Reads first change) (late : Reads second next) :
    Reads (first ++ second) (next ∘ change) := by
  intro rest t fuel enough
  rw [List.append_assoc] at enough ⊢
  obtain ⟨left, mid, more, read, changed⟩ := early (second ++ rest) t fuel enough
  obtain ⟨last, t', done, again, then_⟩ := late rest mid left more
  exact ⟨last, t', done, read.trans again, by rw [then_, changed, Function.comp_apply]⟩

/-- A chunk alone. -/
theorem Reads.applySgr (reads : Reads first change) (nonempty : first ≠ []) (t : Terminal) :
    (t.applySgr first).pen = change t.pen := by
  obtain ⟨left, t', -, read, changed⟩ := reads [] t first.length (by rw [List.append_nil])
  rw [List.append_nil] at read
  rw [Terminal.applySgr, if_neg (by simpa using nonempty), read]
  cases left <;> exact changed

/-- A code that takes one group. -/
theorem reads_code {code : ℕ} (plain : ¬ (code = 38 ∨ code = 48 ∨ code = 58)) (style : List ℕ)
    (changed : ∀ t : Terminal, (t.applyCode code style[0]?).pen = change t.pen) : Reads [code :: style] change := by
  intro rest t fuel enough
  obtain ⟨left, rfl⟩ : ∃ left, fuel = left + 1 := Nat.exists_eq_succ_of_ne_zero (by
    rintro rfl
    simp at enough)
  refine ⟨left, t.applyCode code style[0]?, by simpa using enough, ?_, changed t⟩
  simp only [List.singleton_append, sgrLoop, List.headD_cons, List.getElem?_cons_succ]
  exact if_neg plain

/-- A code with a palette index. -/
theorem reads_idx {code : ℕ} (extended : code = 38 ∨ code = 48 ∨ code = 58) (n : UInt8)
    (changed : ∀ t : Terminal, (t.applyColor code (some (.idx n))).pen = change t.pen) :
    Reads [[code], [5], [n.toNat]] change := by
  intro rest t fuel enough
  obtain ⟨left, rfl⟩ : ∃ left, fuel = left + 1 := Nat.exists_eq_succ_of_ne_zero (by
    rintro rfl
    simp at enough)
  refine ⟨left, t.applyColor code (some (.idx n)), ?_, ?_, changed t⟩
  · simp at enough
    omega
  · have parsed : parseExtendedColor ([code] :: [5] :: [n.toNat] :: rest) = (some (.idx n), 3) := by
      simp [parseExtendedColor, byte]
    simp only [List.cons_append, List.nil_append, sgrLoop, List.headD_cons, if_pos extended, parsed,
      List.drop_succ_cons, List.drop_zero]

/-- A code with 24-bit colour. -/
theorem reads_rgb {code : ℕ} (extended : code = 38 ∨ code = 48 ∨ code = 58) (r g b : UInt8)
    (changed : ∀ t : Terminal, (t.applyColor code (some (.rgb r g b))).pen = change t.pen) :
    Reads [[code], [2], [r.toNat], [g.toNat], [b.toNat]] change := by
  intro rest t fuel enough
  obtain ⟨left, rfl⟩ : ∃ left, fuel = left + 1 := Nat.exists_eq_succ_of_ne_zero (by
    rintro rfl
    simp at enough)
  refine ⟨left, t.applyColor code (some (.rgb r g b)), ?_, ?_, changed t⟩
  · simp at enough
    omega
  · have parsed : parseExtendedColor ([code] :: [2] :: [r.toNat] :: [g.toNat] :: [b.toNat] :: rest) =
        (some (.rgb r g b), 5) := by
      simp [parseExtendedColor, byte]
    simp only [List.cons_append, List.nil_append, sgrLoop, List.headD_cons, if_pos extended, parsed,
      List.drop_succ_cons, List.drop_zero]

end Chunks

section Styles

def flagGroups (attrs flag : Attrs) (code : ℕ) : List (List ℕ) := if attrs &&& flag ≠ 0 then [[code]] else []

def underlineGroups : UnderlineStyle → List (List ℕ)
  | .none => []
  | .single => [[4]]
  | .double => [[4, 2]]
  | .curly => [[4, 3]]
  | .dotted => [[4, 4]]
  | .dashed => [[4, 5]]

def colorGroups (code : ℕ) : Color → List (List ℕ)
  | .default => []
  | .idx n => [[code], [5], [n.toNat]]
  | .rgb r g b => [[code], [2], [r.toNat], [g.toNat], [b.toNat]]

/-- The parameter groups of a style. -/
def styleGroups (dim : Bool) (cell : Cell) (underlineColor : Color) : List (List ℕ) :=
  [0] :: ((if dim then [[2]] else []) ++ flagGroups cell.attrs Attrs.bold 1 ++
    flagGroups cell.attrs Attrs.dim 2 ++ flagGroups cell.attrs Attrs.italic 3 ++
    underlineGroups cell.attrs.underlineStyle ++ flagGroups cell.attrs Attrs.blink 5 ++
    flagGroups cell.attrs Attrs.reverse 7 ++ flagGroups cell.attrs Attrs.invisible 8 ++
    flagGroups cell.attrs Attrs.strike 9 ++ colorGroups 38 cell.fg ++ colorGroups 48 cell.bg ++
    colorGroups 58 underlineColor)

/-- A flag of the style is set on the pen. -/
def Pen.flag (attrs flag : Attrs) (pen : Pen) : Pen := { pen with attrs := attrs.carry flag pen.attrs }

def Pen.underline (style : UnderlineStyle) (pen : Pen) : Pen :=
  { pen with attrs := pen.attrs.underlined style }

private theorem reads_flag {flag : Attrs} {code : ℕ} (attrs : Attrs) (plain : ¬ (code = 38 ∨ code = 48 ∨ code = 58))
    (changed : ∀ t : Terminal, t.applyCode code none = { t with attrs := t.attrs ||| flag }) :
    Reads (flagGroups attrs flag code) (Pen.flag attrs flag) := by
  unfold flagGroups Pen.flag Attrs.carry
  split
  · exact reads_code plain [] fun t => by rw [List.getElem?_nil, changed]; rfl
  · exact .nil

private theorem reads_underline (style : UnderlineStyle) : Reads (underlineGroups style) (Pen.underline style) := by
  cases style with
  | none => exact .nil
  | single => exact reads_code (by decide) [] fun t => rfl
  | double => exact reads_code (by decide) [2] fun t => rfl
  | curly => exact reads_code (by decide) [3] fun t => rfl
  | dotted => exact reads_code (by decide) [4] fun t => rfl
  | dashed => exact reads_code (by decide) [5] fun t => rfl

/-- A colour other than the default is set on the pen. -/
def Pen.color (set : Color → Pen → Pen) (color : Color) (pen : Pen) : Pen :=
  if color = .default then pen else set color pen

private theorem reads_color (code : ℕ) (set : Color → Pen → Pen) (extended : code = 38 ∨ code = 48 ∨ code = 58)
    (changed : ∀ (t : Terminal) (color : Color), (t.applyColor code (some color)).pen = set color t.pen)
    (color : Color) : Reads (colorGroups code color) (Pen.color set color) := by
  cases color with
  | default => exact .nil
  | idx n => exact reads_idx extended n fun t => changed t (.idx n)
  | rgb r g b => exact reads_rgb extended r g b fun t => changed t (.rgb r g b)

/-- What a style makes of the pen. -/
def Pen.styled (dim : Bool) (cell : Cell) (underlineColor : Color) : Pen where
  fg := cell.fg
  bg := cell.bg
  attrs := if dim then cell.attrs ||| Attrs.dim else cell.attrs
  underlineColor := underlineColor

/-- Whatever the pen was, reading the groups of a style makes it that style. -/
theorem reads_style (dim : Bool) (cell : Cell) (underlineColor : Color) (legal : cell.attrs.Declared) :
    Reads (styleGroups dim cell underlineColor) fun _ => .styled dim cell underlineColor := by
  have reset : Reads [[0]] fun _ => {} := reads_code (by decide) [] fun _ => rfl
  have dimmed : Reads (if dim then [[2]] else []) (Pen.flag (if dim then Attrs.dim else Attrs.none) Attrs.dim) := by
    cases dim with
    | false => exact .nil
    | true => exact reads_code (by decide) [] fun _ => rfl
  have flag (bits : Attrs) (code : ℕ) (plain : ¬ (code = 38 ∨ code = 48 ∨ code = 58))
      (changed : ∀ t : Terminal, t.applyCode code none = { t with attrs := t.attrs ||| bits }) :=
    reads_flag cell.attrs plain changed
  have front := reads_color 38 (fun color pen => { pen with fg := color }) (by decide)
    (fun _ _ => rfl) cell.fg
  have back := reads_color 48 (fun color pen => { pen with bg := color }) (by decide)
    (fun _ _ => rfl) cell.bg
  have under := reads_color 58 (fun color pen => { pen with underlineColor := color }) (by decide)
    (fun _ _ => rfl) underlineColor
  have all := dimmed |>.append (flag Attrs.bold 1 (by decide) fun _ => rfl)
    |>.append (flag Attrs.dim 2 (by decide) fun _ => rfl)
    |>.append (flag Attrs.italic 3 (by decide) fun _ => rfl)
    |>.append (reads_underline cell.attrs.underlineStyle)
    |>.append (flag Attrs.blink 5 (by decide) fun _ => rfl)
    |>.append (flag Attrs.reverse 7 (by decide) fun _ => rfl)
    |>.append (flag Attrs.invisible 8 (by decide) fun _ => rfl)
    |>.append (flag Attrs.strike 9 (by decide) fun _ => rfl)
    |>.append front |>.append back |>.append under
  refine fun rest t fuel enough => ?_
  obtain ⟨left, t', more, read, changed⟩ := reset.append all rest t fuel enough
  refine ⟨left, t', more, read, changed.trans ?_⟩
  have front_eq (attrs : Attrs) : Pen.color (fun color pen => { pen with fg := color }) cell.fg
      ⟨.default, .default, attrs, .default⟩ = ⟨cell.fg, .default, attrs, .default⟩ := by
    cases cell.fg <;> rfl
  have back_eq (attrs : Attrs) : Pen.color (fun color pen => { pen with bg := color }) cell.bg
      ⟨cell.fg, .default, attrs, .default⟩ = ⟨cell.fg, cell.bg, attrs, .default⟩ := by
    cases cell.bg <;> rfl
  have under_eq (attrs : Attrs) : Pen.color (fun color pen => { pen with underlineColor := color })
      underlineColor ⟨cell.fg, cell.bg, attrs, .default⟩ = ⟨cell.fg, cell.bg, attrs, underlineColor⟩ := by
    cases underlineColor <;> rfl
  refine Eq.trans ?_ (under_eq _)
  rw [← back_eq, ← front_eq, ← Attrs.rebuilt_eq legal dim]
  rfl

end Styles

section Sequences

/-- A parameter group as it is written. -/
def groupText (group : List ℕ) : Text := [':'].intercalate (group.map decimal)

/-- The control sequence of some parameter groups. -/
def sgrSequence (groups : List (List ℕ)) : Text :=
  "\x1b[".toList ++ [';'].intercalate (groups.map groupText) ++ "m".toList

/-- Parameter groups that the parser of control sequences takes: 32 parameters of 16 bits. -/
structure Parsable (groups : List (List ℕ)) (count : ℕ) : Prop where
  filled : ∀ group ∈ groups, group ≠ []
  small : ∀ group ∈ groups, ∀ n ∈ group, n < 65536
  count : (groups.map List.length).sum ≤ count

/-- The parser splits a control sequence into its parameters and subparameters. -/
def SplitsFaithfully (split : Text → List (List ℕ)) : Prop :=
  ∀ groups, groups ≠ [] → Parsable groups 32 → split (sgrSequence groups) = groups

/-- The groups that follow the first one. -/
def following (groups : List (List ℕ)) : Text := groups.flatMap fun group => ';' :: groupText group

private theorem sgrSequence_cons (group : List ℕ) (groups : List (List ℕ)) :
    sgrSequence (group :: groups) = "\x1b[".toList ++ groupText group ++ following groups ++ "m".toList := by
  have joined : [';'].intercalate ((group :: groups).map groupText) = groupText group ++ following groups := by
    induction groups generalizing group with
    | nil => simp [following]
    | cons next groups ih =>
      rw [List.map_cons, List.map_cons, List.intercalate_cons_cons, ← List.map_cons, ih next]
      simp [following]
  simp only [sgrSequence, joined, List.append_assoc]

private theorem following_append (first second : List (List ℕ)) :
    following (first ++ second) = following first ++ following second := List.flatMap_append

private theorem emitFlag_eq (attrs flag : Attrs) {code : ℕ} {text : String}
    (written : text.toList = following [[code]]) :
    emitFlag attrs flag text = following (flagGroups attrs flag code) := by
  unfold emitFlag flagGroups
  split
  · exact written
  · rfl

private theorem emitUnderline_eq (style : UnderlineStyle) :
    emitUnderline style = following (underlineGroups style) := by
  cases style <;> rfl

private theorem emitColor_eq (code : ℕ) (color : Color) :
    emitColor code color = following (colorGroups code color) := by
  have five : decimal 5 = ['5'] := rfl
  have two : decimal 2 = ['2'] := rfl
  cases color with
  | default => rfl
  | idx n => simp [emitColor, colorGroups, following, groupText, five]
  | rgb r g b => simp [emitColor, colorGroups, following, groupText, two]

/-- The renderer writes the control sequence of the style's groups. -/
theorem emitSgr_eq (dim : Bool) (cell : Cell) (underlineColor : Color) :
    emitSgr dim cell underlineColor = sgrSequence (styleGroups dim cell underlineColor) := by
  have dimmed : (if dim then ";2".toList else []) = following (if dim then [[2]] else []) := by
    cases dim <;> rfl
  have opening : "\x1b[0".toList = "\x1b[".toList ++ groupText [0] := rfl
  have bold := emitFlag_eq cell.attrs Attrs.bold (show ";1".toList = following [[1]] from rfl)
  have faint := emitFlag_eq cell.attrs Attrs.dim (show ";2".toList = following [[2]] from rfl)
  have italic := emitFlag_eq cell.attrs Attrs.italic (show ";3".toList = following [[3]] from rfl)
  have blink := emitFlag_eq cell.attrs Attrs.blink (show ";5".toList = following [[5]] from rfl)
  have reverse := emitFlag_eq cell.attrs Attrs.reverse (show ";7".toList = following [[7]] from rfl)
  have invisible := emitFlag_eq cell.attrs Attrs.invisible (show ";8".toList = following [[8]] from rfl)
  have strike := emitFlag_eq cell.attrs Attrs.strike (show ";9".toList = following [[9]] from rfl)
  rw [styleGroups, sgrSequence_cons, ← opening]
  simp only [following_append, ← dimmed, ← bold, ← faint, ← italic, ← blink, ← reverse, ← invisible, ← strike,
    ← emitUnderline_eq, ← emitColor_eq]
  unfold emitSgr
  simp only [List.append_assoc]

section Bounds

variable {first second : List (List ℕ)} {m n : ℕ}

theorem Parsable.append (early : Parsable first m) (late : Parsable second n) :
    Parsable (first ++ second) (m + n) where
  filled group member := (List.mem_append.mp member).elim (early.filled group) (late.filled group)
  small group member := (List.mem_append.mp member).elim (early.small group) (late.small group)
  count := by
    rw [List.map_append, List.sum_append]
    exact Nat.add_le_add early.count late.count

private theorem parsable_nil (count : ℕ) : Parsable [] count := ⟨by simp, by simp, Nat.zero_le _⟩

private theorem parsable_flagGroups (attrs flag : Attrs) {code : ℕ} (small : code < 65536) :
    Parsable (flagGroups attrs flag code) 1 := by
  unfold flagGroups
  split
  · exact ⟨by simp, by simpa using small, le_rfl⟩
  · exact parsable_nil 1

private theorem parsable_underlineGroups (style : UnderlineStyle) : Parsable (underlineGroups style) 2 := by
  cases style <;> exact ⟨by decide, by decide, by decide⟩

private theorem parsable_colorGroups (code : ℕ) (small : code < 65536) (color : Color) :
    Parsable (colorGroups code color) 5 := by
  have byte (value : UInt8) : value.toNat < 65536 := value.toNat_lt.trans (by decide)
  cases color with
  | default => exact parsable_nil 5
  | idx n => exact ⟨by simp [colorGroups], by simp [colorGroups, small, byte], by simp [colorGroups]⟩
  | rgb r g b => exact ⟨by simp [colorGroups], by simp [colorGroups, small, byte], by simp [colorGroups]⟩

/-- A style takes at most 26 parameters. -/
theorem parsable_styleGroups (dim : Bool) (cell : Cell) (underlineColor : Color) :
    Parsable (styleGroups dim cell underlineColor) 26 := by
  have reset : Parsable [[0]] 1 := ⟨by decide, by decide, by decide⟩
  have dimmed : Parsable (if dim then [[2]] else []) 1 := by
    cases dim <;> exact ⟨by decide, by decide, by decide⟩
  have flag (bits : Attrs) (code : ℕ) (small : code < 65536) := parsable_flagGroups cell.attrs bits small
  have rest := dimmed |>.append (flag Attrs.bold 1 (by decide)) |>.append (flag Attrs.dim 2 (by decide))
    |>.append (flag Attrs.italic 3 (by decide))
    |>.append (parsable_underlineGroups cell.attrs.underlineStyle)
    |>.append (flag Attrs.blink 5 (by decide)) |>.append (flag Attrs.reverse 7 (by decide))
    |>.append (flag Attrs.invisible 8 (by decide)) |>.append (flag Attrs.strike 9 (by decide))
    |>.append (parsable_colorGroups 38 (by decide) cell.fg)
    |>.append (parsable_colorGroups 48 (by decide) cell.bg)
    |>.append (parsable_colorGroups 58 (by decide) underlineColor)
  exact reset.append rest

end Bounds

end Sequences

/-- Whatever the pen was, a terminal that reads the sequence of a style writes in that style from then on; a
dimmed style is the style with the faint flag. And an underline style that is set is read back, and leaves all
other bits. -/
theorem style_round_trip {split : Text → List (List ℕ)} (faithful : SplitsFaithfully split) :
    (∀ (t : Terminal) (dim : Bool) (cell : Cell) (underlineColor : Color), cell.attrs.Declared →
      (t.applySgr (split (emitSgr dim cell underlineColor))).pen =
        { fg := cell.fg, bg := cell.bg, attrs := if dim then cell.attrs ||| Attrs.dim else cell.attrs
          underlineColor := underlineColor }) ∧
    ∀ (attrs : Attrs) (style : UnderlineStyle), (attrs.setUnderlineStyle style).underlineStyle = style ∧
      attrs.setUnderlineStyle style &&& ~~~Attrs.underlineStyleMask = attrs &&& ~~~Attrs.underlineStyleMask := by
  constructor
  · intro t dim cell underlineColor legal
    have parsable := parsable_styleGroups dim cell underlineColor
    have nonempty : styleGroups dim cell underlineColor ≠ [] := List.cons_ne_nil _ _
    have groups := faithful (styleGroups dim cell underlineColor) nonempty
      ⟨parsable.filled, parsable.small, parsable.count.trans (by decide)⟩
    rw [emitSgr_eq, groups]
    exact (reads_style dim cell underlineColor legal).applySgr nonempty t
  · intro attrs style
    exact ⟨attrs.underlineStyle_setUnderlineStyle style, attrs.setUnderlineStyle_other style⟩

section Splitting

/-- Split at semicolons, then at colons, and read the digits. -/
def splitSgr (text : Text) : List (List ℕ) :=
  ((text.drop 2).dropLast.splitOn ';').map fun group =>
    (group.splitOn ':').map fun digits => Nat.ofDigitChars 10 digits 0

private theorem decimal_eq (n : ℕ) : decimal n = Nat.toDigits 10 n := by simp [decimal]

private theorem digit_of_mem_decimal {n : ℕ} {c : Char} (member : c ∈ decimal n) : c.isDigit = true := by
  rw [decimal_eq] at member
  exact Nat.isDigit_of_mem_toDigits (by decide) (by decide) member

private theorem mem_groupText {group : List ℕ} {c : Char} (member : c ∈ groupText group) :
    c = ':' ∨ c.isDigit = true := by
  unfold groupText at member
  induction group with
  | nil => simp at member
  | cons first group ih =>
    cases group with
    | nil => exact .inr (digit_of_mem_decimal (by simpa using member))
    | cons next group =>
      rw [List.map_cons, List.map_cons, List.intercalate_cons_cons, ← List.map_cons] at member
      obtain (digit | colon) | later := List.mem_append.mp member |>.imp_left List.mem_append.mp
      · exact .inr (digit_of_mem_decimal digit)
      · exact .inl (List.mem_singleton.mp colon)
      · exact ih later

private theorem splitSgr_faithful : SplitsFaithfully splitSgr := by
  intro groups nonempty parsable
  have body : ((sgrSequence groups).drop 2).dropLast = [';'].intercalate (groups.map groupText) := by
    have opened : (sgrSequence groups).drop 2 = [';'].intercalate (groups.map groupText) ++ ['m'] := rfl
    rw [opened, List.dropLast_concat]
  rw [splitSgr, body, List.splitOn_intercalate]
  · rw [List.map_map]
    conv_rhs => rw [← List.map_id groups]
    apply List.map_congr_left
    intro group member
    rw [Function.comp_apply, groupText, List.splitOn_intercalate, List.map_map, id_eq]
    · conv_rhs => rw [← List.map_id group]
      apply List.map_congr_left
      intro n _
      rw [Function.comp_apply, decimal_eq, Nat.ofDigitChars_ten_toDigits, id_eq]
    · intro digits member separator
      obtain ⟨n, -, rfl⟩ := List.mem_map.mp member
      cases digit_of_mem_decimal separator
    · simpa using parsable.filled group member
  · intro text member separator
    obtain ⟨group, -, rfl⟩ := List.mem_map.mp member
    obtain colon | digit := mem_groupText separator
    · cases colon
    · cases digit
  · simpa using nonempty

/-- A bold curly style over a pen that was struck through and green. -/
theorem style_round_trip_curly :
    ((({ new 2 1 with fg := .idx 2, attrs := Attrs.strike }).applySgr (splitSgr (emitSgr true
        { attrs := Attrs.setUnderlineStyle Attrs.bold .curly, fg := .rgb 1 2 3 } (.idx 9)))).pen) =
      { fg := .rgb 1 2 3, bg := .default
        attrs := Attrs.setUnderlineStyle Attrs.bold .curly ||| Attrs.dim, underlineColor := .idx 9 } :=
  (style_round_trip splitSgr_faithful).1 _ true _ (.idx 9) ⟨Attrs.bold, .curly, by decide, rfl⟩

end Splitting

end Terminal

end Uniterm.Model
