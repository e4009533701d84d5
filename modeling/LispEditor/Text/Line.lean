import LispEditor.Text.Slice

/-!
# Lines

Only a newline ends a line: every other control character is part of one. Offsets at which a line
starts are found by looking for the nearest newline, forwards or backwards.
-/

namespace LispEditor.Text

/-- The first offset at or after `start` that holds a newline. -/
def newlineFrom (text : Text) (start : Int) : Option Nat :=
  let start := resolve text.length start
  ((text.drop start).findIdx? (· == '\n')).map (· + start)

/-- How many characters follow the last newline of a text. -/
def tailLength (text : Text) : Nat :=
  (text.reverse.takeWhile (· != '\n')).length

/-- The offset behind the last newline before `offset`, or 0 when there is none. -/
def lineStart (text : Text) (offset : Nat) : Nat :=
  offset - tailLength (text.take offset)

/-- The line of `offset`, counted from 1. -/
def lineNumber (text : Text) (offset : Nat) : Nat :=
  (text.take offset).count '\n' + 1

/-- The offsets at which lines start, in order. -/
def lineStarts (text : Text) : List Nat :=
  0 :: (text.zipIdx.filterMap fun (c, i) => if c == '\n' then some (i + 1) else none)

/-- The lines, without the newlines that end them. There is always at least one. -/
def lines : Text → List Text
  | [] => [[]]
  | c :: rest =>
      if c == '\n' then [] :: lines rest
      else
        match lines rest with
        | [] => [[c]]
        | line :: others => (c :: line) :: others

/-- The bounds of the whole lines that `start` and `stop` touch: from the start of the first to the
newline that ends the last, or to the end of the text. -/
def lineBounds (text : Text) (start stop : Int) : Int × Int :=
  let first := lineStart text (resolve text.length start)
  let last := (newlineFrom text stop).getD text.length
  (first, last)

end LispEditor.Text
