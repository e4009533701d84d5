import LispEditor.Pattern.Basic

/-!
# Searching

A search goes through a text from left to right. Behind a match it goes on where the match ended,
so matches do not overlap; elsewhere it goes on with the next character.
-/

namespace LispEditor

/-- The part of a text from `start` up to and without `stop`. -/
structure Extent where
  start : Nat
  stop : Nat
  deriving DecidableEq, Repr

/-- Searches a text. `attempt` sees the character before, if there is one, and the text from there
on; it answers what it found and how many characters that took. `skip` characters are still part of
the last match. Each find comes with its offset. -/
def searchFrom {α : Type} (attempt : Option Char → Text → Option (α × Nat)) (skip offset : Nat)
    (before : Option Char) : Text → List (Nat × α)
  | [] => []
  | c :: rest =>
      match skip with
      | skip + 1 => searchFrom attempt skip (offset + 1) (some c) rest
      | 0 =>
          match attempt before (c :: rest) with
          | some (found, taken) =>
              (offset, found) :: searchFrom attempt (taken - 1) (offset + 1) (some c) rest
          | none => searchFrom attempt 0 (offset + 1) (some c) rest

/-- Everything that `attempt` finds in a text, in order. -/
def search {α : Type} (attempt : Option Char → Text → Option (α × Nat)) (text : Text) :
    List (Nat × α) :=
  searchFrom attempt 0 0 none text

end LispEditor
