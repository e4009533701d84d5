import LispEditor.Text.CharRange

/-!
# Blank characters

Three classes of blanks are in use. Definitions are separated by blanks of every script. Around a
number the four information separators do not count as blanks. Colouring knows ASCII blanks only.
-/

namespace LispEditor.Text

/-- The blanks outside ASCII. -/
def wideBlankRanges : List CharRange :=
  [(0x85, 0x85), (0xA0, 0xA0), (0x1680, 0x1680), (0x2000, 0x200A), (0x2028, 0x2029),
   (0x202F, 0x202F), (0x205F, 0x205F), (0x3000, 0x3000)]

/-- Whether a character is an ASCII blank: a space, a tab or a line control. -/
def isAsciiBlank (c : Char) : Bool :=
  inRanges [(0x09, 0x0D), (0x20, 0x20)] c

/-- Whether a character may stand around a number. -/
def isPadding (c : Char) : Bool :=
  isAsciiBlank c || inRanges wideBlankRanges c

/-- Whether a character is a blank of some script. -/
def isBlank (c : Char) : Bool :=
  isPadding c || inRanges [(0x1C, 0x1F)] c

/-- A text without the padding at its ends. -/
def strip (text : List Char) : List Char :=
  ((text.dropWhile isPadding).reverse.dropWhile isPadding).reverse

end LispEditor.Text
