import LispEditor.Indent.Newline
import LispEditor.Indent.Region

/-!
# Indentation with a limit

A machine counts characters with indices, and there is a greatest one. A column to the right of it
cannot be written as spaces, and neither can one so far left of the margin that its distance is no
index. The command that meets such a column is given up as a whole. All others do what they do
without a limit.
-/

namespace LispEditor

/-- Why a line cannot be brought to its column. -/
inductive ColumnError where
  | beyondIndices
  deriving DecidableEq, Repr

/-- The wording of a column error. -/
def ColumnError.message : ColumnError → String
  | beyondIndices => "cannot fit 'int' into an index-sized integer"

/-- The greatest index of a machine with words of 64 bits. -/
def maxIndex : Nat := Nat.pow 2 63 - 1

/-- Whether spaces can be written for a column where `limit` is the greatest index. -/
def fitsIndex (limit : Nat) (column : Int) : Bool :=
  decide (-(limit + 1 : Int) ≤ column ∧ column ≤ limit)

/-- The spaces for a column, if they can be written. -/
def spacesWithin (limit : Nat) (column : Int) : Except ColumnError Text :=
  if fitsIndex limit column then .ok (spaces column) else .error .beyondIndices

/-- Whether the line that starts at `start` would have to get spaces that cannot be written. A line
that begins in a string gets none, and neither does one that stands at its column. -/
def Snapshot.exceeds (limit : Nat) (s : Snapshot) (start : Nat) (advice : Advice) : Bool :=
  !s.inString start && (s.columnAt (s.indentationEnd start) : Int) != advice.target &&
    !fitsIndex limit advice.target

/-- The edit that re-indents the line of `offset`, if it can be made. -/
def indentLineWithin (limit : Nat) (text : Text) (offset : Int) (cursor : Option Int) (width : Int) :
    Except ColumnError IndentEdit :=
  let s := Snapshot.ofText text
  let start := s.lineStart offset
  if s.exceeds limit start (s.advise start width) then .error .beyondIndices
  else .ok (indentLine text offset cursor width)

namespace RegionPass

/-- The advice for the line that starts at `start`. -/
def adviceAt (pass : RegionPass) (start : Nat) (width : Int) : Advice :=
  pass.snapshot.adviseInside ((pass.groupsAt start).innermost?.map Int.ofNat) start width

/-- Whether the line that starts at `start` would have to get spaces that cannot be written. -/
def exceeds (limit : Nat) (pass : RegionPass) (start : Nat) (width : Int) : Bool :=
  pass.snapshot.exceeds limit start (pass.adviceAt start width)

/-- Re-indents the line that starts at `start` and those behind it, at most `further` of them. A line
that cannot be brought to its column ends everything. -/
def runWithin (limit : Nat) (width : Int) (further : Nat) (pass : RegionPass) (start : Nat) :
    Except ColumnError RegionPass :=
  if pass.exceeds limit start width then .error .beyondIndices
  else
    let pass := pass.visit start width
    match further, pass.nextLine? start with
    | further + 1, some next => runWithin limit width further pass next
    | _, _ => .ok pass

end RegionPass

/-- Re-indents the lines between `start` and `stop`, if that can be done. -/
def indentRegionWithin (limit : Nat) (text : Text) (start stop : Int) (cursor : Option Int)
    (width : Int) : Except ColumnError (Text × Int) :=
  let s := Snapshot.ofText text
  let pass : RegionPass := ⟨s, .empty, cursor.getD start, max start stop⟩
  (pass.runWithin limit width (text.count '\n') (s.lineStart (min start stop))).map fun done =>
    (done.snapshot.text, done.cursor)

/-- Breaks the line at `cursor`, if the new line can be brought to its column. -/
def newlineAndIndentWithin (limit : Nat) (text : Text) (cursor width : Int) :
    Except ColumnError (Text × Int) :=
  let cursor := Text.clamp text.length cursor
  let cut := cursor - droppedBlanks ((Snapshot.ofText text).cellsBefore cursor)
  let broken := text.take cut ++ '\n' :: text.drop cursor
  (indentLineWithin limit broken (cut + 1) none width).map fun edit =>
    (edit.apply broken, edit.cursor)

end LispEditor
