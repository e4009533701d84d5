import LispEditor.Log
import LispEditor.Motion.Column
import LispEditor.Motion.Element

/-!
# Where a line should start

The group that a line lies in advises on its column. Inside `(` a line stands one indent width
past the indentation of the line that the bracket is on. Inside `[` and `{` it stands below the
first element of the group; if no element starts before the line, the rule for `(` holds.
-/

namespace LispEditor

/-- The indent width where none is given. -/
def defaultIndentWidth : Int := 2

/-- What is known about the column of a line. -/
inductive Advice where
  /-- The line lies in no group. -/
  | topLevel
  /-- The line should start at this column. -/
  | column (column : Int)
  /-- What should be the opener of a group is no opening bracket. -/
  | noRule
  deriving DecidableEq, Repr

namespace Advice

/-- The advised column, if the line lies in a group at all. -/
def column? : Advice → Option Int
  | topLevel => none
  | column c => some c
  | noRule => some 0

/-- The column to use: the left margin at top level. -/
def target (advice : Advice) : Int :=
  advice.column?.getD 0

/-- What is noted down about some advice. -/
def log : Advice → List LogEvent
  | noRule => [.noIndentRule]
  | _ => []

end Advice

namespace Snapshot

/-- One indent width past the indentation of the line of `opener`. -/
def bodyColumn (s : Snapshot) (opener width : Int) : Int :=
  s.indentationColumn opener + width

/-- The start of the first element of the group at `opener`, if it lies before `limit`. -/
def firstElement? (s : Snapshot) (opener limit : Int) : Option Int :=
  (s.intoGroup? opener).bind fun inside =>
    (s.forward? inside).bind fun stop =>
      (s.backward? stop).filter fun start => decide (start < limit)

/-- The advice of the group at `opener` for the line that starts at `lineStart`. -/
def adviseInside (s : Snapshot) (opener : Option Int) (lineStart width : Int) : Advice :=
  match opener with
  | none => .topLevel
  | some opener =>
      match s.charAt? opener with
      | some '(' => .column (s.bodyColumn opener width)
      | some '[' | some '{' =>
          match s.firstElement? opener lineStart with
          | none => .column (s.bodyColumn opener width)
          | some start => .column (s.columnAt start)
      | _ => .noRule

/-- The advice for the line that starts at `lineStart`. -/
def advise (s : Snapshot) (lineStart width : Int) : Advice :=
  s.adviseInside ((s.enclosing? lineStart).map Int.ofNat) lineStart width

end Snapshot

end LispEditor
