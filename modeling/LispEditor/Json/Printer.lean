import LispEditor.Json.Value
import LispEditor.Number.Layout
import LispEditor.Text.Hex
import LispEditor.Text.Slice

/-!
# Writing JSON

Values are written in ASCII with one item or member per line, two spaces deeper than the brackets
around them. Characters outside ASCII are written as escapes of their UTF-16 units.
-/

namespace LispEditor.JsonValue

/-- The escape of a UTF-16 unit. -/
def unitEscape (n : Nat) : Text :=
  '\\' :: 'u' :: Text.hexDigits 4 n

/-- A character as it stands in a string. -/
def escapeChar (c : Char) : Text :=
  if c == '"' || c == '\\' then ['\\', c]
  else if c == '\n' then ['\\', 'n']
  else if c == '\r' then ['\\', 'r']
  else if c == '\t' then ['\\', 't']
  else if c == '\x0c' then ['\\', 'f']
  else if c == '\x08' then ['\\', 'b']
  else if 0x20 ≤ c.toNat ∧ c.toNat ≤ 0x7E then [c]
  else if c.toNat < 0x10000 then unitEscape c.toNat
  else
    let n := c.toNat - 0x10000
    unitEscape (0xD800 + n / 0x400) ++ unitEscape (0xDC00 + n % 0x400)

/-- A string with its quotes. -/
def stringText (s : String) : Text :=
  '"' :: (s.toList.flatMap escapeChar ++ ['"'])

/-- A whole number. -/
def integerText (n : Int) : Text :=
  if n < 0 then '-' :: Nat.toDigits 10 n.natAbs else Nat.toDigits 10 n.natAbs

/-- How a document writes the floating-point values that have no digits. -/
def specialNames : Binary64.SpecialNames :=
  ⟨"NaN", "Infinity"⟩

/-- A line break and the indentation of a depth. -/
def lineBreak (depth : Nat) : Text :=
  '\n' :: List.replicate (2 * depth) ' '

/-- Written parts on lines of their own between two brackets. -/
def bracketed (opening closing : Char) (depth : Nat) (parts : List Text) : Text :=
  opening :: (List.intercalate [','] (parts.map fun part => lineBreak (depth + 1) ++ part)
    ++ lineBreak depth ++ [closing])

mutual

/-- A value at a depth. -/
def textAt (depth : Nat) : JsonValue → Text
  | null => ['n', 'u', 'l', 'l']
  | bool true => ['t', 'r', 'u', 'e']
  | bool false => ['f', 'a', 'l', 's', 'e']
  | integer n => integerText n
  | float x => x.text specialNames
  | string s => stringText s
  | array [] => ['[', ']']
  | array (item :: items) => bracketed '[' ']' depth (itemTexts (depth + 1) (item :: items))
  | object [] => ['{', '}']
  | object (member :: members) =>
      bracketed '{' '}' depth (memberTexts (depth + 1) (member :: members))

/-- The items of an array at a depth. -/
def itemTexts (depth : Nat) : List JsonValue → List Text
  | [] => []
  | item :: items => textAt depth item :: itemTexts depth items

/-- The members of an object at a depth. -/
def memberTexts (depth : Nat) : List (String × JsonValue) → List Text
  | [] => []
  | (key, value) :: members =>
      (stringText key ++ ':' :: ' ' :: textAt depth value) :: memberTexts depth members

end

/-- The written form of a value. -/
def text (value : JsonValue) : Text :=
  textAt 0 value

end LispEditor.JsonValue
