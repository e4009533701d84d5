import LispEditor.Colour.Palette
import LispEditor.Definition
import LispEditor.Vocabulary

/-!
# Colouring rules

A rule finds parts of a line and gives them a style. The rules stand in order: where two of them
find the same character, the later one wins. They look at one line at a time, know ASCII classes
only, and do not ask whether a character lies in a string or a comment.
-/

namespace LispEditor

/-- How a character is shown. -/
structure Style where
  colour : Colour
  bold : Bool
  italic : Bool
  underline : Bool
  deriving DecidableEq, Repr

/-- A colour and nothing else. -/
def Style.plain (colour : Colour) : Style :=
  ⟨colour, false, false, false⟩

/-- A way to find parts of a line, and their style. -/
structure ColourRule where
  extents : Text → List Extent
  style : Palette → Style

namespace ColourRule

/-! ### Where tokens begin and end -/

/-- Whether a character separates tokens on either side of it. -/
def isDivider (c : Char) : Bool :=
  Text.isAsciiBlank c || isBracket c || c == ','

/-- Whether a token can begin behind a character. -/
def canPrecede (c : Char) : Bool :=
  isDivider c || c ∈ ['\x27', '\x60', '~', '@', '^', '#']

/-- Whether a token can end before a character. -/
def canFollow (c : Char) : Bool :=
  isDivider c || c == '"' || c == ';'

/-- Whether a token ends before a text. -/
def endsToken (rest : Text) : Bool :=
  rest.head?.all canFollow

/-- What `pattern` finds at the start of tokens. -/
def tokens (pattern : Pattern) (line : Text) : List Extent :=
  (search attempt line).map fun (offset, taken) => ⟨offset, offset + taken⟩
where
  /-- The preferred match, if a token can begin here. -/
  attempt (before : Option Char) (rest : Text) : Option (Nat × Nat) :=
    if before.all canPrecede then
      (pattern rest).head?.map fun after =>
        (rest.length - after.length, rest.length - after.length)
    else none

/-! ### Patterns of tokens -/

/-- Whole tokens among some words. -/
def words (vocabulary : List String) : Pattern :=
  (Pattern.anyWord (vocabulary.map String.toList)).andThen (Pattern.ahead endsToken)

/-- Decimal digits. -/
def digits : Pattern :=
  Pattern.oneOrMore Char.isDigit

/-- A sign or none. -/
def sign : Pattern :=
  Pattern.optional (Pattern.char fun c => c == '-' || c == '+')

/-- A decimal number with optional sign, fraction, exponent and precision mark. -/
def decimal : Pattern :=
  sign.andThen <|
    digits.andThen <|
      (Pattern.optional ((Pattern.char (· == '.')).andThen digits)).andThen <|
        (Pattern.optional ((Pattern.char fun c => c == 'e' || c == 'E').andThen
          (sign.andThen digits))).andThen <|
          Pattern.optional (Pattern.char fun c => c == 'M' || c == 'N')

/-- A hexadecimal number. -/
def hexadecimal : Pattern :=
  (Pattern.word ['0', 'x']).andThen (Pattern.oneOrMore fun c => (Text.hexValue? c).isSome)

/-- A ratio of two numbers. -/
def ratio : Pattern :=
  digits.andThen ((Pattern.char (· == '/')).andThen digits)

/-- A whole token that is a number. -/
def number : Pattern :=
  (decimal.orElse (hexadecimal.orElse ratio)).andThen (Pattern.ahead endsToken)

/-- One or two colons and a name. -/
def keyword : Pattern :=
  (Pattern.char (· == ':')).andThen <|
    (Pattern.optional (Pattern.char (· == ':'))).andThen <|
      Pattern.oneOrMore fun c => !canFollow c

/-! ### Names of definitions -/

/-- Whether a character can follow `def` in a defining form. -/
def isFormChar (c : Char) : Bool :=
  Text.isAsciiWordChar c || c ∈ ['-', '!', '?', '*']

/-- One piece of metadata and the blanks behind it. -/
def metadata : Pattern :=
  (Pattern.char (· == '^')).andThen <|
    (Pattern.oneOrMore fun c => !Text.isAsciiBlank c).andThen
      (Pattern.oneOrMore Text.isAsciiBlank)

/-- The head of a definition at the start of a text. -/
def definitionHead? (text : Text) : Option Definition.Head :=
  (Definition.heads (Definition.form isFormChar) (Pattern.oneOrMore Text.isAsciiBlank) metadata
    (Pattern.oneOrMore fun c => !canFollow c) text).head?

/-- The names of the definitions on a line. -/
def definitionNames (line : Text) : List Extent :=
  (search attempt line).map fun (offset, name) => ⟨offset + name.start, offset + name.stop⟩
where
  /-- The extent of the name, counted from the bracket. -/
  attempt (_ : Option Char) (rest : Text) : Option (Extent × Nat) :=
    (definitionHead? rest).map fun head =>
      (⟨rest.length - head.name.length, rest.length - head.afterName.length⟩,
        rest.length - head.afterName.length)

/-! ### The rules -/

/-- All rules, in order. -/
def all : List ColourRule :=
  [⟨tokens (words Vocabulary.builtins), fun p => .plain p.builtin⟩,
   ⟨tokens (words Vocabulary.specialForms), fun p => ⟨p.keyword, true, false, false⟩⟩,
   ⟨tokens (words Vocabulary.constants), fun p => .plain p.constant⟩,
   ⟨tokens number, fun p => .plain p.number⟩,
   ⟨tokens keyword, fun p => .plain p.constant⟩,
   ⟨definitionNames, fun p => ⟨p.definition, false, false, true⟩⟩]

end ColourRule

end LispEditor
