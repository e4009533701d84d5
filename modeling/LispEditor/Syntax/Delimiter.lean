import LispEditor.Syntax.Snapshot

/-!
# Delimiters

The roles that code characters play for motions: blanks (a comma is one), opening and closing
brackets, and marks such as the quote that stand before an element and belong to it. A bracket in a
string, a comment or a literal plays no role, which is why the roles are asked of cells.
-/

namespace LispEditor

/-- Whether a character separates elements. -/
def isSeparator (c : Char) : Bool :=
  c ∈ [' ', '\t', '\n', '\r', '\x0c', '\x0b', ',']

/-- Whether a character opens a group. -/
def isOpener (c : Char) : Bool :=
  c ∈ ['(', '[', '{']

/-- Whether a character closes a group. Which of the three it is does not matter. -/
def isCloser (c : Char) : Bool :=
  c ∈ [')', ']', '}']

/-- Whether a character is a bracket. -/
def isBracket (c : Char) : Bool :=
  isOpener c || isCloser c

/-- Whether a character is a mark that belongs to the element behind it. -/
def isMark (c : Char) : Bool :=
  c ∈ ['\x27', '\x60', '~', '@', '^', '#']

namespace Cell

/-- Whether a cell is code. -/
def isCode (cell : Cell) : Bool :=
  cell.kind == .code

/-- Whether a cell opens a group. -/
def opens (cell : Cell) : Bool :=
  cell.isCode && isOpener cell.char

/-- Whether a cell closes a group. -/
def closes (cell : Cell) : Bool :=
  cell.isCode && isCloser cell.char

/-- Whether a cell stands between elements: a comment does too. -/
def isBlank (cell : Cell) : Bool :=
  cell.kind == .comment || (cell.isCode && isSeparator cell.char)

/-- Whether a cell is a mark before an element. -/
def isMark (cell : Cell) : Bool :=
  cell.isCode && LispEditor.isMark cell.char

/-- Whether a cell can be part of an atom. -/
def isAtom (cell : Cell) : Bool :=
  cell.kind == .literal ||
    (cell.isCode && !isSeparator cell.char && !isOpener cell.char && !isCloser cell.char)

end Cell

end LispEditor
