import LispEditor.Text.Printable

/-!
# Characters that can be typed

A key press puts in what it stands for if that can be seen, separates words, or is a character for
formatting or for private use. Control characters other than the tab, and code points that are not
assigned, put in nothing. Nor does a character of two UTF-16 units, of which a key press shows one at
a time.
-/

namespace LispEditor.Text

/-- The characters that can be typed though they are not printable, as ranges of code points. -/
def typedRanges : List CharRange :=
  [(0x9, 0x9), (0xA0, 0xA0), (0xAD, 0xAD), (0x600, 0x605), (0x61C, 0x61C), (0x6DD, 0x6DD),
   (0x70F, 0x70F), (0x890, 0x891), (0x8E2, 0x8E2), (0x1680, 0x1680), (0x180E, 0x180E),
   (0x2000, 0x200F), (0x2028, 0x202F), (0x205F, 0x2064), (0x2066, 0x206F), (0x3000, 0x3000),
   (0xE000, 0xF8FF), (0xFEFF, 0xFEFF), (0xFFF9, 0xFFFB)]

/-- Whether a key press puts a character in. -/
def isTypeable (c : Char) : Bool :=
  decide (c.toNat ≤ 0xFFFF) && (isPrintable c || inRanges typedRanges c)

end LispEditor.Text
