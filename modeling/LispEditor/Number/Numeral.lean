import LispEditor.Number.Binary64
import LispEditor.Text.Blank
import LispEditor.Text.DecimalDigit

/-!
# Numerals

Reading numbers that a person wrote: padding around them does not matter, digits of every script
count, and single underscores may stand between digits. A whole number has at most
`maxDigits` digits, leading zeros included.
-/

namespace LispEditor.Numeral

/-- The most digits a whole number may be written with. -/
def maxDigits : Nat := 4300

/-- Why a text is no whole number. -/
inductive Refusal where
  | notANumeral
  | tooLong (digits : Nat)
  deriving DecidableEq, Repr

/-- The number that some digits make, the first being the highest. -/
def ofDigits (digits : List Nat) : Nat :=
  digits.foldl (fun n digit => 10 * n + digit) 0

/-- Whether a character is part of a run of digits. -/
def inRun (c : Char) : Bool :=
  c == '_' || (Text.digitValue? c).isSome

/-- Whether each underscore of a run has a digit on both sides, and the run ends with a digit.
`afterDigit` says whether a digit stands before it. -/
def wellGrouped (afterDigit : Bool) : List Char → Bool
  | [] => afterDigit
  | c :: rest => if c == '_' then afterDigit && wellGrouped false rest else wellGrouped true rest

/-- The digits at the start of a text, with single underscores between them, and the rest. `none` if
there is no digit, or an underscore is out of place. -/
def digits? (text : List Char) : Option (List Nat × List Char) :=
  let run := text.takeWhile inRun
  if wellGrouped false run then some (run.filterMap Text.digitValue?, text.drop run.length)
  else none

/-- A sign and the text behind it. -/
def sign : List Char → Bool × List Char
  | '-' :: rest => (true, rest)
  | '+' :: rest => (false, rest)
  | text => (false, text)

/-- Reads a whole number. Too many digits are refused as such, whatever stands behind them. -/
def readInteger (text : List Char) : Except Refusal Int :=
  let (negative, body) := sign (Text.strip text)
  match digits? body with
  | none => .error .notANumeral
  | some (digits, rest) =>
      if digits.length > maxDigits then .error (.tooLong digits.length)
      else if rest.isEmpty then
        .ok (if negative then -(ofDigits digits : Int) else ofDigits digits)
      else .error .notANumeral

/-- The digits behind a point, if there are any. -/
def fraction? : List Char → Option (List Nat × List Char)
  | '.' :: rest => if rest.head?.any inRun then digits? rest else some ([], rest)
  | text => some ([], text)

/-- The exponent at the end of a numeral, or zero. -/
def exponent? : List Char → Option Int
  | [] => some 0
  | mark :: rest =>
      if mark == 'e' || mark == 'E' then
        let (negative, body) := sign rest
        match digits? body with
        | some (digits, []) =>
            some (if negative then -(ofDigits digits : Int) else ofDigits digits)
        | _ => none
      else none

/-- Reads a floating-point number: a decimal with a digit before or behind its point, or one of the
words for infinity and for no number. -/
def readFloat? (text : List Char) : Option Binary64 :=
  let (negative, body) := sign (Text.strip text)
  let lower := body.map Char.toLower
  if lower == ['n', 'a', 'n'] then some .nan
  else if lower == ['i', 'n', 'f'] || lower == ['i', 'n', 'f', 'i', 'n', 'i', 't', 'y'] then
    some (.infinite negative)
  else
    let (whole, rest) := (digits? body).getD ([], body)
    (fraction? rest).bind fun (fraction, rest) =>
      if whole.isEmpty && fraction.isEmpty then none
      else
        (exponent? rest).map fun exponent =>
          .ofDecimal negative (ofDigits (whole ++ fraction)) (exponent - fraction.length)

end LispEditor.Numeral
