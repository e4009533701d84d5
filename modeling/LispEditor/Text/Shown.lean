import LispEditor.Text.Utf16

/-!
# Texts that are held and shown

A document does not hold every character as it was put in, and does not show every character as it
holds it. Whatever separates paragraphs comes in as a newline: a carriage return, alone or with the
newline behind it, the paragraph separator, and the two characters that stand for the edges of a
frame. A line separator is held but shown as a newline, and a no-break space is held but shown as a
space.
-/

namespace LispEditor.Text

/-- Whether a character, other than a newline, begins a new paragraph where it is put in. -/
def isBreak (c : Char) : Bool :=
  c ∈ ['\r', '\u2029', '\ufdd0', '\ufdd1']

/-- What a document holds of a character that is put in. -/
def settleChar (c : Char) : Char :=
  if isBreak c then '\n' else c

/-- What a document holds of a text that is put in. -/
def settle : Text → Text
  | [] => []
  | '\r' :: '\n' :: rest => '\n' :: settle rest
  | c :: rest => settleChar c :: settle rest

/-- Whether a character is shown as a newline though it is none. -/
def isSeparator (c : Char) : Bool :=
  isBreak c || c == '\u2028'

/-- How a document shows a character that it holds. -/
def shownChar (c : Char) : Char :=
  if isSeparator c then '\n' else if c == '\u00a0' then ' ' else c

/-- How a document shows a text that it holds. -/
def shown (text : Text) : Text :=
  text.map shownChar

end LispEditor.Text
