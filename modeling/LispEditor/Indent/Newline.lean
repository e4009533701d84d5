import LispEditor.Indent.Edit

/-!
# Breaking a line

A line break goes in at the cursor and the new line is indented. The blanks right before the cursor
are dropped if they are code: those of a string, and the one of a character literal, stay.
-/

namespace LispEditor

/-- How many of some cells, nearest first, are blanks that a line break drops. -/
def droppedBlanks (cells : List Cell) : Nat :=
  (cells.takeWhile fun cell => cell.isCode && isIndentation cell.char).length

/-- Breaks the line at `cursor`. Answers the new text and cursor. -/
def newlineAndIndent (text : Text) (cursor : Int) (width : Int) : Text × Int :=
  let cursor := Text.clamp text.length cursor
  let cut := cursor - droppedBlanks ((Snapshot.ofText text).cellsBefore cursor)
  let broken := text.take cut ++ '\n' :: text.drop cursor
  let edit := indentLine broken (cut + 1) none width
  (edit.apply broken, edit.cursor)

end LispEditor
