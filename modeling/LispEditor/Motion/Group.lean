import LispEditor.Syntax.Delimiter

/-!
# Motions over groups

A group is what stands between an opening bracket and the closing bracket that matches it. Matching
counts brackets and does not compare their shapes. Both searches below run over the cells in the
direction of the motion and answer how many cells are left, from which the offset follows.
-/

namespace LispEditor

/-- Searches cells, nearest first, for the opener of the group they lie in; `depth` groups have been
entered from their ends. Answers how many cells lie before the opener. -/
def enclosingOpener (depth : Nat) : List Cell → Option Nat
  | [] => none
  | cell :: before =>
      if cell.closes then enclosingOpener (depth + 1) before
      else if cell.opens then
        match depth with
        | 0 => some before.length
        | depth + 1 => enclosingOpener depth before
      else enclosingOpener depth before

/-- Searches cells for the closer of the group they lie in; `depth` groups have been entered.
Answers how many cells lie behind the closer. -/
def enclosingCloser (depth : Nat) : List Cell → Option Nat
  | [] => none
  | cell :: after =>
      if cell.opens then enclosingCloser (depth + 1) after
      else if cell.closes then
        match depth with
        | 0 => some after.length
        | depth + 1 => enclosingCloser depth after
      else enclosingCloser depth after

namespace Snapshot

/-- The nearest opener before `offset` that is not closed before it. -/
def enclosing? (s : Snapshot) (offset : Int) : Option Nat :=
  enclosingOpener 0 (s.cellsBefore (s.clamp offset))

/-- The offset behind the closer that matches the opener before `offset`. -/
def groupEnd? (s : Snapshot) (offset : Nat) : Option Nat :=
  (enclosingCloser 0 (s.cellsFrom offset)).map (s.size - ·)

/-- The offset just inside the next group, unless the group around `offset` ends before it. -/
def intoGroup? (s : Snapshot) (offset : Int) : Option Nat :=
  match (s.cellsFrom (s.clamp offset)).dropWhile fun cell => !cell.opens && !cell.closes with
  | [] => none
  | cell :: after => if cell.opens then some (s.size - after.length) else none

end Snapshot

end LispEditor
