import LispEditor.Json.Value
import LispEditor.Number.Numeral
import LispEditor.Text.Hex
import LispEditor.Text.Slice

/-!
# Reading JSON

The reader takes standard JSON and three more words, for the floating-point values that have no
digits. Of members with the same key the last value counts, in the place of the first. A number
without fraction and exponent is whole, and may have as many digits as a numeral. Arrays and objects
lie in each other only so deep; one more is refused as soon as it opens, whatever follows.
-/

namespace LispEditor

/-- What holds other values. -/
inductive JsonContainer where
  | array
  | object
  deriving DecidableEq, Repr

/-- The name of a container. -/
def JsonContainer.name : JsonContainer → String
  | array => "array"
  | object => "object"

/-- Why a text is not read as a document. -/
inductive JsonError where
  | malformed
  /-- A container inside more others than are read. -/
  | tooDeep (container : JsonContainer)
  deriving DecidableEq, Repr

/-- A result that is there, or else a malformed document. -/
def JsonError.ofOption {α : Type} : Option α → Except JsonError α
  | none => .error .malformed
  | some result => .ok result

namespace JsonValue

/-- Whether a character may stand between the tokens of a document. -/
def isSpace (c : Char) : Bool :=
  c ∈ [' ', '\t', '\n', '\r']

/-- A text without the spaces at its start. -/
def skipSpace (text : Text) : Text :=
  text.dropWhile isSpace

/-! ### Strings -/

/-- A character of a string, or the UTF-16 unit that an escape names. -/
inductive Piece where
  | char (c : Char)
  | unit (n : Nat)
  deriving DecidableEq, Repr

/-- The character of an escape of one letter. -/
def simpleEscape? (c : Char) : Option Char :=
  match c with
  | '"' | '\\' | '/' => some c
  | 'b' => some '\x08'
  | 'f' => some '\x0c'
  | 'n' => some '\n'
  | 'r' => some '\r'
  | 't' => some '\t'
  | _ => none

/-- The number of four hexadecimal digits. -/
def unit? (a b c d : Char) : Option Nat := do
  let a ← Text.hexValue? a
  let b ← Text.hexValue? b
  let c ← Text.hexValue? c
  let d ← Text.hexValue? d
  some (((a * 16 + b) * 16 + c) * 16 + d)

/-- The pieces of a string behind its opening quote, and the text behind its closing one. -/
def pieces? : Text → Option (List Piece × Text)
  | [] => none
  | '"' :: rest => some ([], rest)
  | '\\' :: 'u' :: a :: b :: c :: d :: rest =>
      (unit? a b c d).bind fun n =>
        (pieces? rest).map fun (others, after) => (.unit n :: others, after)
  | '\\' :: c :: rest =>
      (simpleEscape? c).bind fun c =>
        (pieces? rest).map fun (others, after) => (.char c :: others, after)
  | c :: rest =>
      if c == '\\' || c.toNat < 0x20 then none
      else (pieces? rest).map fun (others, after) => (.char c :: others, after)

/-- Whether a unit is the first half of a character. -/
def isHighHalf (n : Nat) : Bool :=
  decide (0xD800 ≤ n ∧ n < 0xDC00)

/-- Whether a unit is the second half of a character. -/
def isLowHalf (n : Nat) : Bool :=
  decide (0xDC00 ≤ n ∧ n < 0xE000)

/-- The character of a unit that stands alone. Half a character becomes the replacement character, so
that strings which differ only in such halves are read as one, also where they are keys. -/
def ofUnit (n : Nat) : Char :=
  if isHighHalf n || isLowHalf n then '�' else Char.ofNat n

/-- The characters of some pieces. Two halves that follow each other make one character. -/
def joinPieces : List Piece → Text
  | [] => []
  | .char c :: rest => c :: joinPieces rest
  | .unit high :: .unit low :: rest =>
      if isHighHalf high && isLowHalf low then
        Char.ofNat (0x10000 + (high - 0xD800) * 0x400 + (low - 0xDC00)) :: joinPieces rest
      else ofUnit high :: joinPieces (.unit low :: rest)
  | .unit n :: rest => ofUnit n :: joinPieces rest

/-- A string behind its opening quote, and the text behind its closing one. -/
def readString (text : Text) : Option (String × Text) :=
  (pieces? text).map fun (found, after) => (String.ofList (joinPieces found), after)

/-! ### Numbers -/

/-- The digits at the start of a text. -/
def leadingDigits (text : Text) : List Nat :=
  (text.takeWhile Char.isDigit).map fun c => c.toNat - '0'.toNat

/-- The digits of a whole number: a zero stands alone. -/
def wholeDigits? (text : Text) : Option (List Nat × Text) :=
  match text with
  | '0' :: rest => some ([0], rest)
  | _ =>
      match leadingDigits text with
      | [] => none
      | digits => some (digits, text.drop digits.length)

/-- The digits of a fraction, if a point and a digit follow. -/
def fractionDigits (text : Text) : List Nat × Text :=
  match text with
  | '.' :: rest =>
      match leadingDigits rest with
      | [] => ([], text)
      | digits => (digits, rest.drop digits.length)
  | _ => ([], text)

/-- An exponent, if a mark and a digit follow. -/
def exponentPart (text : Text) : Option Int × Text :=
  match text with
  | mark :: rest =>
      if mark == 'e' || mark == 'E' then
        let (negative, body) := Numeral.sign rest
        match leadingDigits body with
        | [] => (none, text)
        | digits =>
            let n : Int := Numeral.ofDigits digits
            (some (if negative then -n else n), body.drop digits.length)
      else (none, text)
  | [] => (none, text)

/-- A number behind its sign. -/
def readUnsigned (negative : Bool) (text : Text) : Option (JsonValue × Text) :=
  (wholeDigits? text).bind fun (whole, rest) =>
    let (fraction, rest) := fractionDigits rest
    let (exponent, rest) := exponentPart rest
    if fraction.isEmpty && exponent.isNone then
      if whole.length > Numeral.maxDigits then none
      else
        let n : Int := Numeral.ofDigits whole
        some (integer (if negative then -n else n), rest)
    else
      some (float (.ofDecimal negative (Numeral.ofDigits (whole ++ fraction))
        (exponent.getD 0 - fraction.length)), rest)

/-- A number. -/
def readNumber (text : Text) : Option (JsonValue × Text) :=
  match text with
  | '-' :: rest => readUnsigned true rest
  | _ => readUnsigned false text

/-! ### Values -/

/-- The values that are written as words. -/
def wordValues : List (String × JsonValue) :=
  [("null", null), ("true", bool true), ("false", bool false), ("NaN", float .nan),
   ("Infinity", float (.infinite false)), ("-Infinity", float (.infinite true))]

/-- A value that is written as a word. -/
def readWord (text : Text) : Option (JsonValue × Text) :=
  wordValues.findSome? fun (word, value) =>
    if word.toList.isPrefixOf text then some (value, text.drop word.length) else none

mutual

/-- The value at the start of a text, which has no spaces before it, and the rest. Each call that
this makes, directly or not, has one unit of `fuel` less. `room` is the number of containers that may
still be opened inside each other. -/
def readValue : (fuel room : Nat) → Text → Except JsonError (JsonValue × Text)
  | 0, _, _ => .error .malformed
  | fuel + 1, room, text =>
      match text with
      | '"' :: rest => JsonError.ofOption ((readString rest).map fun (s, after) => (string s, after))
      | '[' :: rest =>
          match room with
          | 0 => .error (.tooDeep .array)
          | room + 1 =>
              match skipSpace rest with
              | ']' :: after => .ok (array [], after)
              | items => (readItems fuel room items).map fun (found, after) => (array found, after)
      | '{' :: rest =>
          match room with
          | 0 => .error (.tooDeep .object)
          | room + 1 =>
              match skipSpace rest with
              | '}' :: after => .ok (object [], after)
              | members =>
                  (readMembers fuel room members).map fun (found, after) =>
                    (object (JsonMembers.update [] found), after)
      | _ => JsonError.ofOption ((readWord text).or (readNumber text))

/-- The items of an array up to its closing bracket, and the rest. -/
def readItems : (fuel room : Nat) → Text → Except JsonError (List JsonValue × Text)
  | 0, _, _ => .error .malformed
  | fuel + 1, room, text =>
      (readValue fuel room text).bind fun (item, after) =>
        match skipSpace after with
        | ']' :: rest => .ok ([item], rest)
        | ',' :: rest =>
            (readItems fuel room (skipSpace rest)).map fun (items, rest) => (item :: items, rest)
        | _ => .error .malformed

/-- The members of an object up to its closing brace, and the rest. -/
def readMembers : (fuel room : Nat) → Text → Except JsonError (JsonMembers × Text)
  | 0, _, _ => .error .malformed
  | fuel + 1, room, text =>
      match text with
      | '"' :: rest =>
          (JsonError.ofOption (readString rest)).bind fun (key, after) =>
            match skipSpace after with
            | ':' :: rest =>
                (readValue fuel room (skipSpace rest)).bind fun (value, after) =>
                  match skipSpace after with
                  | '}' :: rest => .ok ([(key, value)], rest)
                  | ',' :: rest =>
                      (readMembers fuel room (skipSpace rest)).map fun (members, rest) =>
                        ((key, value) :: members, rest)
                  | _ => .error .malformed
            | _ => .error .malformed
      | _ => .error .malformed

end

/-- Reads a document that holds one value, with at most `depth` containers in each other. Every second
call takes a character, so there is fuel for all of them. -/
def read (depth : Nat) (text : Text) : Except JsonError JsonValue :=
  (readValue (2 * text.length + 2) depth (skipSpace text)).bind fun (value, rest) =>
    if (skipSpace rest).isEmpty then .ok value else .error .malformed

end JsonValue

end LispEditor
