import LispEditor.Number.Shortest

/-!
# Written numbers

A floating-point number is written with its shortest digits and always shows that it is one: it has
a point, or an exponent. Numbers from `0.0001` up to below `10 ^ 16` are written out. All others have
an exponent with a sign and at least two digits.
-/

namespace LispEditor.Binary64

/-- Decimal digits of a number. -/
def digitText (n : Nat) : List Char :=
  Nat.toDigits 10 n

/-- Digits with a point behind the first `whole` of them, filled up with zeros on either side. -/
def positional (digits : List Char) (whole : Int) : List Char :=
  if whole ≤ 0 then '0' :: '.' :: (List.replicate (-whole).toNat '0' ++ digits)
  else
    let whole := whole.toNat
    if digits.length ≤ whole then
      digits ++ List.replicate (whole - digits.length) '0' ++ ['.', '0']
    else digits.take whole ++ '.' :: digits.drop whole

/-- An exponent with its sign and at least two digits. -/
def exponentText (exponent : Int) : List Char :=
  let digits := digitText exponent.natAbs
  (if exponent < 0 then '-' else '+') :: (List.replicate (2 - digits.length) '0' ++ digits)

/-- Digits with a point behind the first of them, if there are more, and an exponent. -/
def scientific (digits : List Char) (exponent : Int) : List Char :=
  let fraction := match digits.drop 1 with
    | [] => []
    | rest => '.' :: rest
  digits.take 1 ++ fraction ++ 'e' :: exponentText exponent

/-- A decimal, written out or with an exponent. -/
def Decimal.text (decimal : Decimal) : List Char :=
  let digits := digitText decimal.digits
  let leading := decimal.exponent + digits.length - 1
  if -4 ≤ leading ∧ leading ≤ 15 then positional digits (leading + 1)
  else scientific digits leading

/-- How the values are written that have no digits. -/
structure SpecialNames where
  nan : String
  infinity : String

/-- A number, with its sign. -/
def text (names : SpecialNames) : Binary64 → List Char
  | nan => names.nan.toList
  | infinite negative => signed negative names.infinity.toList
  | finite negative 0 _ => signed negative ['0', '.', '0']
  | finite negative significand exponent =>
      signed negative (shortest negative significand exponent).text
where
  /-- A text behind the sign of a number. -/
  signed (negative : Bool) (text : List Char) : List Char :=
    if negative then '-' :: text else text

end LispEditor.Binary64
