import LispEditor.Indent.Advice

/-!
# Re-indenting one line

An edit replaces the blanks at the start of a line by as many spaces as its advice asks for. A line
that already stands at its column keeps its blanks, tabs included, and so does a line that begins
inside a string.

The cursor moves with the text: one in the old blanks goes behind the new ones, one behind them
keeps its distance from the end of the text, and one before the line stays.
-/

namespace LispEditor

/-- The replacement of `[start, stop)`, the blanks at the start of a line, by `indent`. `cursor` is
where the cursor belongs afterwards. -/
structure IndentEdit where
  start : Int
  stop : Int
  indent : Text
  cursor : Int
  changed : Bool
  deriving DecidableEq, Repr

namespace IndentEdit

/-- How much longer the text becomes. -/
def delta (edit : IndentEdit) : Int :=
  edit.indent.length - (edit.stop - edit.start)

/-- The text after the edit. -/
def apply (edit : IndentEdit) (text : Text) : Text :=
  if edit.changed then Text.splice text edit.start edit.stop edit.indent else text

end IndentEdit

/-- As many spaces as a column asks for: none for a column left of the margin. -/
def spaces (column : Int) : Text :=
  List.replicate column.toNat ' '

/-- Where a cursor goes when the blanks `[start, stop)` are replaced by `length` others. -/
def moveCursor (start stop : Int) (length : Nat) (cursor : Int) : Int :=
  if start ≤ cursor ∧ cursor ≤ stop then start + length
  else if cursor > stop then cursor + (length - (stop - start))
  else cursor

namespace Snapshot

/-- The edit that brings the line which starts at `start` to the column `target`. -/
def editTo (s : Snapshot) (start : Nat) (target cursor : Int) : IndentEdit :=
  let stop := s.indentationEnd start
  let changed := (s.columnAt stop : Int) != target
  let indent := if changed then spaces target else (s.text.take stop).drop start
  ⟨start, stop, indent, moveCursor start stop indent.length cursor, changed⟩

/-- The edit that leaves the line which starts at `start` as it is. -/
def editNone (s : Snapshot) (start : Nat) (cursor : Int) : IndentEdit :=
  let stop := s.indentationEnd start
  ⟨start, stop, (s.text.take stop).drop start, cursor, false⟩

/-- The edit that re-indents the line which starts at `start` as `advice` says. -/
def indentEdit (s : Snapshot) (start : Nat) (advice : Advice) (cursor : Int) : IndentEdit :=
  if s.inString start then s.editNone start cursor
  else s.editTo start advice.target cursor

end Snapshot

/-- The edit that re-indents the line of `offset`. Without a cursor of its own, the cursor is taken
to be at `offset`. -/
def indentLine (text : Text) (offset : Int) (cursor : Option Int) (width : Int) : IndentEdit :=
  let s := Snapshot.ofText text
  let start := s.lineStart offset
  s.indentEdit start (s.advise start width) (cursor.getD offset)

end LispEditor
