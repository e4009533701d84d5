import LispEditor.Motion.Group

/-!
# Motions over elements

An element is an atom, a string or a group, with the marks that stand before it. A motion skips the
blanks between elements and stops at the far end of the next one. It has nowhere to go when the
group around it ends first, or when the string or group it meets is not closed.
-/

namespace LispEditor.Snapshot

/-- The end of the element behind `offset`. Marks with no element behind them end the motion where
they end. -/
def forward? (s : Snapshot) (offset : Int) : Option Int :=
  let element := (s.cellsFrom (s.clamp offset)).dropWhile Cell.isBlank
  let body := element.dropWhile Cell.isMark
  let start := s.size - body.length
  let onlyMarks : Option Int := if body.length < element.length then some start else none
  match body with
  | [] => onlyMarks
  | cell :: _ =>
      if cell.kind == .string then
        ((s.stringSpan? start).filter fun span => !s.isOpenString span).map Span.stop
      else if cell.opens then
        (s.groupEnd? (start + 1)).map Int.ofNat
      else
        match body.takeWhile Cell.isAtom with
        | [] => onlyMarks
        | atom => some (start + atom.length)

/-- The offset before the marks that end at `offset`. -/
def beforeMarks (s : Snapshot) (offset : Int) : Int :=
  offset - ((s.cellsBefore offset.toNat).takeWhile Cell.isMark).length

/-- The start of the element before `offset`, its marks included. -/
def backward? (s : Snapshot) (offset : Int) : Option Int :=
  match (s.cellsBefore (s.clamp offset)).dropWhile Cell.isBlank with
  | [] => none
  | cell :: before =>
      let last := before.length
      let start : Option Int :=
        if cell.kind == .string then (s.stringSpan? last).map Span.start
        else if cell.opens then none
        else if cell.closes then (s.enclosing? last).map Int.ofNat
        else some (last - (before.takeWhile Cell.isAtom).length)
      start.map s.beforeMarks

end LispEditor.Snapshot
