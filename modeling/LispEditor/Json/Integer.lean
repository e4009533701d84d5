import LispEditor.Json.Value
import LispEditor.Number.Numeral
import LispEditor.Text.Quoted

/-!
# Values as whole numbers

A setting that should be a whole number may be given as another value. A truth value counts as 0 or
1, a floating-point number loses its fraction, and a string is read as a numeral. Everything else is
refused, for a reason.
-/

namespace LispEditor

/-- Why a value is no whole number. -/
inductive IntegerError where
  /-- A string that is no numeral. -/
  | notANumeral (text : String)
  /-- A numeral of more digits than are read. -/
  | tooManyDigits (digits : Nat)
  /-- The floating-point value that is no number. -/
  | nan
  /-- An infinite number. -/
  | infinite
  /-- A value of a type that has no whole numbers. -/
  | wrongType (type : String)
  deriving DecidableEq, Repr

/-- The first 200 characters of a quoted text, as messages show it. -/
def shownText (text : String) : String :=
  String.ofList ((Text.quoted text.toList).take 200)

/-- The wording of an error. -/
def IntegerError.message : IntegerError → String
  | notANumeral text => "invalid literal for int() with base 10: " ++ shownText text
  | tooManyDigits digits =>
      "Exceeds the limit (" ++ Numeral.maxDigits.repr ++ " digits) for integer string conversion: "
        ++ "value has " ++ digits.repr
        ++ " digits; use sys.set_int_max_str_digits() to increase the limit"
  | nan => "cannot convert float NaN to integer"
  | infinite => "cannot convert float infinity to integer"
  | wrongType type =>
      "int() argument must be a string, a bytes-like object or a real number, not '" ++ type ++ "'"

namespace JsonValue

/-- A value as a whole number. -/
def toInteger : JsonValue → Except IntegerError Int
  | null => .error (.wrongType "NoneType")
  | bool value => .ok (if value then 1 else 0)
  | integer value => .ok value
  | float .nan => .error .nan
  | float (.infinite _) => .error .infinite
  | float (.finite negative significand exponent) =>
      .ok (Binary64.truncate negative significand exponent)
  | string value =>
      match Numeral.readInteger value.toList with
      | .ok n => .ok n
      | .error .notANumeral => .error (.notANumeral value)
      | .error (.tooLong digits) => .error (.tooManyDigits digits)
  | array _ => .error (.wrongType "list")
  | object _ => .error (.wrongType "dict")

end JsonValue

end LispEditor
