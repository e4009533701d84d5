import LispEditor.Syntax.Delimiter
import LispEditor.Text.Line

/-!
# Places on a line

Where the line of an offset starts, where its indentation ends, and columns. A column is a width:
a tab reaches the next multiple of `tabWidth`, and any other character is one wide.
-/

namespace LispEditor

/-- The distance between tab stops. -/
def tabWidth : Nat := 8

/-- The column behind a character that begins at `column`. -/
def nextColumn (column : Nat) (c : Char) : Nat :=
  if c == '\t' then (column / tabWidth + 1) * tabWidth else column + 1

/-- How wide a text is that begins at the left margin. -/
def textWidth (text : Text) : Nat :=
  text.foldl nextColumn 0

/-- Whether a character may stand in the indentation of a line. -/
def isIndentation (c : Char) : Bool :=
  c ∈ [' ', '\t']

namespace Snapshot

/-- The character at `offset`, if there is one. -/
def charAt? (s : Snapshot) (offset : Int) : Option Char :=
  (s.cellAt? offset).map Cell.char

/-- Where the line of `offset` starts. -/
def lineStart (s : Snapshot) (offset : Int) : Nat :=
  Text.lineStart s.text (s.clamp offset)

/-- Where the blanks at the start of the line of `offset` end. -/
def indentationEnd (s : Snapshot) (offset : Int) : Nat :=
  let start := s.lineStart offset
  start + ((s.text.drop start).takeWhile isIndentation).length

/-- The column of `offset` on its line. -/
def columnAt (s : Snapshot) (offset : Int) : Nat :=
  let offset := s.clamp offset
  textWidth ((s.text.take offset).drop (s.lineStart offset))

/-- The column at which the line of `offset` has its first character that is no blank. -/
def indentationColumn (s : Snapshot) (offset : Int) : Nat :=
  s.columnAt (s.indentationEnd offset)

/-- Whether `offset` lies behind the opening quote of a string and not behind its closing quote. -/
def inString (s : Snapshot) (offset : Int) : Bool :=
  match s.clamp offset with
  | 0 => false
  | last + 1 =>
      match s.stringSpan? last with
      | none => false
      | some span =>
          decide (span.start < last + 1) && (decide (last + 1 < span.stop) || s.isOpenString span)

/-- Whether the character at `offset` is part of a comment. -/
def inComment (s : Snapshot) (offset : Int) : Bool :=
  (s.cellAt? offset).any fun cell => cell.kind == .comment

end Snapshot

end LispEditor
