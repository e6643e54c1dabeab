import Uniterm.Model.Terminal.Dispatch

/-! # The styles that the renderer sends

A style is sent whole: a reset, then every attribute and colour that differs from the default. The control
sequence is its text; a terminal reads it as parameter groups between semicolons, each of subparameters
between colons.
-/

namespace Uniterm.Model.Terminal

/-- A flag of the style. -/
def emitFlag (attrs flag : Attrs) (text : String) : Text := if attrs &&& flag ≠ 0 then text.toList else []

def emitUnderline : UnderlineStyle → Text
  | .none => []
  | .single => ";4".toList
  | .double => ";4:2".toList
  | .curly => ";4:3".toList
  | .dotted => ";4:4".toList
  | .dashed => ";4:5".toList

/-- An extended colour under its code: 38 for the foreground, 48 for the background, 58 for the underline. -/
def emitColor (code : ℕ) : Color → Text
  | .default => []
  | .idx n => ";".toList ++ decimal code ++ ";5;".toList ++ decimal n.toNat
  | .rgb r g b => ";".toList ++ decimal code ++ ";2;".toList ++ decimal r.toNat ++ ";".toList ++
      decimal g.toNat ++ ";".toList ++ decimal b.toNat

/-- The style of a cell; `dim` marks the inactive panes. -/
def emitSgr (dim : Bool) (cell : Cell) (underlineColor : Color) : Text :=
  "\x1b[0".toList ++ (if dim then ";2".toList else []) ++
    emitFlag cell.attrs Attrs.bold ";1" ++ emitFlag cell.attrs Attrs.dim ";2" ++
    emitFlag cell.attrs Attrs.italic ";3" ++ emitUnderline cell.attrs.underlineStyle ++
    emitFlag cell.attrs Attrs.blink ";5" ++ emitFlag cell.attrs Attrs.reverse ";7" ++
    emitFlag cell.attrs Attrs.invisible ";8" ++ emitFlag cell.attrs Attrs.strike ";9" ++
    emitColor 38 cell.fg ++ emitColor 48 cell.bg ++ emitColor 58 underlineColor ++ "m".toList

end Uniterm.Model.Terminal
