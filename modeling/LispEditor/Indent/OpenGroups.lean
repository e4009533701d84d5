import LispEditor.Syntax.Delimiter

/-!
# Open groups of a top-down pass

A pass that goes through a buffer from its start keeps the openers that are not closed yet, so that
the group around each line is known without a search backwards. Lines are asked for in order, and
edits touch only text behind the last line asked for, so the openers on the stack keep their
offsets.
-/

namespace LispEditor

/-- An offset at which there is no character. -/
inductive OffsetError where
  | outOfRange
  deriving DecidableEq, Repr

/-- The wording of an offset error. -/
def OffsetError.message : OffsetError → String
  | outOfRange => "string index out of range"

/-- The unclosed openers before `reached`, innermost first. -/
structure OpenGroups where
  stack : List Nat
  reached : Nat
  deriving DecidableEq, Repr

namespace OpenGroups

/-- No character has been seen yet. -/
def empty : OpenGroups := ⟨[], 0⟩

/-- The stack behind a cell at `offset`. A closer without an opener is passed over. -/
def stepCell (stack : List Nat) (offset : Nat) (cell : Cell) : List Nat :=
  if cell.opens then offset :: stack
  else if cell.closes then stack.tail
  else stack

/-- The stack behind some cells of which the first is at `offset`. -/
def stepCells (stack : List Nat) (offset : Nat) : List Cell → List Nat
  | [] => stack
  | cell :: rest => stepCells (stepCell stack offset cell) (offset + 1) rest

/-- The groups with all characters before `offset` seen. Those already seen are not looked at
again. -/
def advance (groups : OpenGroups) (s : Snapshot) (offset : Int) : OpenGroups :=
  let fresh := (s.cells.take offset.toNat).drop groups.reached
  ⟨stepCells groups.stack groups.reached fresh, max groups.reached offset.toNat⟩

/-- The opener of the innermost group. -/
def innermost? (groups : OpenGroups) : Option Nat :=
  groups.stack.head?

/-- Whether going on to `offset` would leave the text. -/
def leavesText (groups : OpenGroups) (s : Snapshot) (offset : Int) : Bool :=
  decide (groups.reached < offset) && decide (s.size < offset)

/-- Advances to `offset` and answers the group around it. Past the end of the text there is no
answer: all characters are then seen, but they do not count as reached. -/
def enclosing (groups : OpenGroups) (s : Snapshot) (offset : Int) :
    OpenGroups × Except OffsetError (Option Nat) :=
  let advanced := groups.advance s offset
  if groups.leavesText s offset then (⟨advanced.stack, groups.reached⟩, .error .outOfRange)
  else (advanced, .ok advanced.innermost?)

end OpenGroups

end LispEditor
