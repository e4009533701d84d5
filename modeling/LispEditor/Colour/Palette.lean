import LispEditor.Text.Hex

/-!
# Palettes

A palette gives each role of a text its colour. There is one for a dark theme and one for a light
one; a theme name that is neither means the dark one.
-/

namespace LispEditor

/-- A colour by its red, green and blue parts in one number of six hexadecimal digits. -/
structure Colour where
  rgb : Nat
  deriving DecidableEq, Repr

/-- The written name of a colour. -/
def Colour.name (colour : Colour) : String :=
  String.ofList ('#' :: Text.hexDigits 6 colour.rgb)

/-- The colours of an editor. -/
structure Palette where
  background : Colour
  foreground : Colour
  keyword : Colour
  builtin : Colour
  comment : Colour
  string : Colour
  number : Colour
  constant : Colour
  definition : Colour
  deriving DecidableEq, Repr

namespace Palette

/-- Light text on a dark ground. -/
def dark : Palette where
  background := ⟨0x282c34⟩
  foreground := ⟨0xabb2bf⟩
  keyword := ⟨0xc678dd⟩
  builtin := ⟨0x61afef⟩
  comment := ⟨0x5c6370⟩
  string := ⟨0x98c379⟩
  number := ⟨0xd19a66⟩
  constant := ⟨0x56b6c2⟩
  definition := ⟨0xe5c07b⟩

/-- Dark text on a light ground. -/
def light : Palette where
  background := ⟨0xfafafa⟩
  foreground := ⟨0x383a42⟩
  keyword := ⟨0xa626a4⟩
  builtin := ⟨0x0184bc⟩
  comment := ⟨0xa0a1a7⟩
  string := ⟨0x50a14f⟩
  number := ⟨0x986801⟩
  constant := ⟨0x0997b3⟩
  definition := ⟨0xc18401⟩

/-- The style sheet of an editor with this palette. -/
def styleSheet (palette : Palette) : String :=
  "QPlainTextEdit \x7b background-color: " ++ palette.background.name ++ "; color: "
    ++ palette.foreground.name ++ "; \x7d"

end Palette

/-- A choice of palette. -/
inductive Theme where
  | dark
  | light
  deriving DecidableEq, Repr

namespace Theme

/-- The name under which a theme is stored. -/
def name : Theme → String
  | dark => "dark"
  | light => "light"

/-- The theme of a stored name. -/
def ofName (name : String) : Theme :=
  if name == light.name then light else dark

/-- The palette of a theme. -/
def palette : Theme → Palette
  | dark => .dark
  | light => .light

end Theme

end LispEditor
