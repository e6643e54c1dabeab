import Uniterm.Model.Config.Omarchy
import Uniterm.Model.Grid.Cell
import Uniterm.Model.Scan

/-! # Themes

A preset is named in the settings and gives the colours of the chrome. A name that is no preset's falls back to the
dark one.
-/

namespace Uniterm.Model.Config

/-- `str::to_ascii_lowercase`. -/
def asciiLower (text : Text) : Text := text.map Char.toLower

inductive ThemePreset where
  | unitermDark
  | unitermLight
  | catppuccin
  | tokyoNight
  | dracula
  | nord
  | gruvboxDark
  | gruvboxLight
  | solarizedDark
  | solarizedLight
  | kanagawa
  | rosePine
  /-- A bundled palette; only entries of the catalog can be named. -/
  | omarchy (index : Fin palettes.length)
  | custom
deriving DecidableEq, Repr

namespace ThemePreset

def name : ThemePreset → String
  | .unitermDark => "uniterm-dark"
  | .unitermLight => "uniterm-light"
  | .catppuccin => "catppuccin"
  | .tokyoNight => "tokyo-night"
  | .dracula => "dracula"
  | .nord => "nord"
  | .gruvboxDark => "gruvbox-dark"
  | .gruvboxLight => "gruvbox-light"
  | .solarizedDark => "solarized-dark"
  | .solarizedLight => "solarized-light"
  | .kanagawa => "kanagawa"
  | .rosePine => "rose-pine"
  | .omarchy index => palettes[index].1
  | .custom => "custom"

/-- The complete catalog. -/
def all : List ThemePreset :=
  [.unitermDark, .unitermLight, .catppuccin, .tokyoNight, .dracula, .nord, .gruvboxDark, .gruvboxLight, .solarizedDark, .solarizedLight, .kanagawa, .rosePine] ++
    (List.finRange palettes.length).map .omarchy

/-- `slice::binary_search_by_key` on the names of the catalog, which are sorted. -/
def search (name : String) : Option (Fin palettes.length) := palettes.findFinIdx? (·.1 == name)

def parse (name : Text) : ThemePreset :=
  match String.ofList (asciiLower name.trim) with
  | "light" | "uniterm-light" => .unitermLight
  | "catppuccin" | "catppuccin-mocha" => .catppuccin
  | "tokyo-night" | "tokyonight" => .tokyoNight
  | "dracula" => .dracula
  | "nord" => .nord
  | "gruvbox-dark" | "gruvbox" => .gruvboxDark
  | "gruvbox-light" => .gruvboxLight
  | "solarized-dark" | "solarized" => .solarizedDark
  | "solarized-light" => .solarizedLight
  | "kanagawa" => .kanagawa
  | "rose-pine" | "rosepine" => .rosePine
  | "custom" => .custom
  | name => (search name).elim .unitermDark .omarchy

end ThemePreset

/-- Resolved colours of the chrome. -/
structure Theme where
  background : Color
  surface : Color
  foreground : Color
  muted : Color
  accent : Color
  accentMuted : Color
  success : Color
  warning : Color
  error : Color
  attention : Color
  selectionBg : Color
  border : Color
  borderActive : Color
  statusFg : Color
  statusBg : Color
  statusActiveFg : Color
  statusActiveBg : Color
  divider : Color
deriving DecidableEq, Repr

/-- Three fifths of the surface and two of the accent; an indexed colour is left alone. -/
def mutedAccent (surface accent : Color) : Color :=
  match surface, accent with
  | .rgb sr sg sb, .rgb ar ag ab =>
    .rgb (UInt8.ofNat ((sr.toNat * 3 + ar.toNat * 2) / 5)) (UInt8.ofNat ((sg.toNat * 3 + ag.toNat * 2) / 5))
      (UInt8.ofNat ((sb.toNat * 3 + ab.toNat * 2) / 5))
  | _, accent => accent

namespace Theme

def semantic (background surface foreground muted accent success warning error : Color) : Theme where
  background := background
  surface := surface
  foreground := foreground
  muted := muted
  accent := accent
  accentMuted := mutedAccent surface accent
  success := success
  warning := warning
  error := error
  attention := warning
  selectionBg := accent
  border := muted
  borderActive := accent
  statusFg := foreground
  statusBg := surface
  statusActiveFg := background
  statusActiveBg := accent
  divider := muted

/-- A 24-bit colour. -/
def rgb (value : ℕ) : Color :=
  .rgb (UInt8.ofNat (value / 65536)) (UInt8.ofNat (value / 256)) (UInt8.ofNat value)

def ofPalette (p : Palette) : Theme :=
  semantic (rgb p.background) (rgb p.surface) (rgb p.foreground) (rgb p.muted) (rgb p.accent) (rgb p.success)
    (rgb p.warning) (rgb p.error)

/-- The palette of a preset. -/
def palette : ThemePreset → Palette
  | .omarchy index => palettes[index].2
  | .unitermLight => ⟨0xfafbfc, 0xeaecf0, 0x24292f, 0x6e7781, 0x0969da, 0x1a7f37, 0x9a6700, 0xcf222e⟩
  | .catppuccin => ⟨0x1e1e2e, 0x313244, 0xcdd6f4, 0x7f84a2, 0x89b4fa, 0xa6e3a1, 0xf9e2af, 0xf38ba8⟩
  | .tokyoNight => ⟨0x1a1b26, 0x24283b, 0xc0caf5, 0x565f89, 0x7aa2f7, 0x9ece6a, 0xe0af68, 0xf7768e⟩
  | .dracula => ⟨0x282a36, 0x44475a, 0xf8f8f2, 0x6272a4, 0xbd93f9, 0x50fa7b, 0xf1fa8c, 0xff5555⟩
  | .nord => ⟨0x2e3440, 0x3b4252, 0xeceff4, 0x81a1c1, 0x88c0d0, 0xa3be8c, 0xebcb8b, 0xbf616a⟩
  | .gruvboxDark => ⟨0x282828, 0x3c3836, 0xebdbb2, 0x928374, 0x83a598, 0xb8bb26, 0xfabd2f, 0xfb4934⟩
  | .gruvboxLight => ⟨0xfbf1c7, 0xebdbb2, 0x3c3836, 0x7c6f64, 0x076678, 0x79740e, 0xb57614, 0x9d0006⟩
  | .solarizedDark => ⟨0x002b36, 0x073642, 0x839496, 0x586e75, 0x268bd2, 0x859900, 0xb58900, 0xdc322f⟩
  | .solarizedLight => ⟨0xfdf6e3, 0xeee8d5, 0x657b83, 0x93a1a1, 0x268bd2, 0x859900, 0xb58900, 0xdc322f⟩
  | .kanagawa => ⟨0x1f1f28, 0x2a2a37, 0xd7d0b2, 0x727269, 0x7e9cd8, 0x98bb6c, 0xe6c384, 0xe82424⟩
  | .rosePine => ⟨0x191724, 0x262233, 0xe0dee4, 0x6e6a86, 0xc4a7e7, 0x9ccfd8, 0xf6c177, 0xeb6f92⟩
  | .unitermDark | .custom => ⟨0x101318, 0x1a1f28, 0xe6e9ef, 0x7f899b, 0x62a0ea, 0x57e389, 0xf5c249, 0xff6b6b⟩

def dark : Theme := ofPalette (palette .unitermDark)

/-- Resolve a theme by name. -/
def named (name : Text) : Theme := ofPalette (palette (ThemePreset.parse name))

end Theme

/-- A name that a preset has, or another one that is accepted for it. -/
def isThemeName (value : Text) : Bool :=
  let value := String.ofList (asciiLower value.trim)
  ThemePreset.all.any (·.name == value) ||
    ["light", "catppuccin-mocha", "tokyonight", "gruvbox", "solarized", "rosepine", "custom"].contains value

end Uniterm.Model.Config
