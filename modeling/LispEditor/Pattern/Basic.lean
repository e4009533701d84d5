import LispEditor.Text.Slice

/-!
# Patterns

A pattern is tried at the start of a text and leaves the rests behind its matches, the preferred
rest first. A repetition prefers to take more, an alternative prefers its left side, and a
sequence falls back to the next rest of its first part when its second part fails. The first rest of
all is the match.
-/

namespace LispEditor

/-- The rests that a pattern leaves of a text, the preferred one first. -/
abbrev Pattern := Text → List Text

namespace Pattern

/-- One character of a class. -/
def char (accepts : Char → Bool) : Pattern
  | [] => []
  | c :: rest => if accepts c then [rest] else []

/-- A fixed word. -/
def word (w : Text) : Pattern := fun text =>
  if w.isPrefixOf text then [text.drop w.length] else []

/-- Any number of characters of a class, as many as possible preferred. -/
def many (accepts : Char → Bool) : Pattern := fun text =>
  (List.range ((text.takeWhile accepts).length + 1)).reverse.map text.drop

/-- One pattern and then another. -/
def andThen (first second : Pattern) : Pattern := fun text =>
  (first text).flatMap second

/-- Either of two patterns, the first preferred. -/
def orElse (first second : Pattern) : Pattern := fun text =>
  first text ++ second text

/-- At least one character of a class. -/
def oneOrMore (accepts : Char → Bool) : Pattern :=
  (char accepts).andThen (many accepts)

/-- A pattern or nothing, the pattern preferred. -/
def optional (pattern : Pattern) : Pattern := fun text =>
  pattern text ++ [text]

/-- At most `limit` times a pattern, more preferred. -/
def upTo (pattern : Pattern) : Nat → Pattern
  | 0, text => [text]
  | limit + 1, text => (pattern text).flatMap (upTo pattern limit) ++ [text]

/-- Any number of times a pattern that takes at least one character. -/
def star (pattern : Pattern) : Pattern := fun text =>
  upTo pattern text.length text

/-- Nothing, where a pattern does not match. -/
def absent (pattern : Pattern) : Pattern := fun text =>
  if (pattern text).isEmpty then [text] else []

/-- Nothing, where a condition holds of the text that follows. -/
def ahead (condition : Text → Bool) : Pattern := fun text =>
  if condition text then [text] else []

/-- Any of some words, the first preferred. -/
def anyWord (words : List Text) : Pattern := fun text =>
  words.flatMap fun w => word w text

end Pattern

end LispEditor
