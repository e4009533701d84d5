/-!
# Binary floating-point numbers

Numbers of 53 significant bits with exponents from -1074 up, infinities, and a value that is no
number. A decimal is read to the nearest of them, and of two that are equally near to the one with
an even significand.
-/

namespace LispEditor

/-- A floating-point number. `finite` is `significand * 2 ^ exponent` with its sign; zero keeps its
sign too. The numbers built here have a significand below `2 ^ 53`, which is at least `2 ^ 52`
unless the exponent is the least one. -/
inductive Binary64 where
  | finite (negative : Bool) (significand : Nat) (exponent : Int)
  | infinite (negative : Bool)
  | nan
  deriving DecidableEq, Repr

namespace Binary64

/-- The least exponent. -/
def minExponent : Int := -1074

/-- The greatest exponent. -/
def maxExponent : Int := 971

/-- Zero with a sign. -/
def zero (negative : Bool) : Binary64 :=
  finite negative 0 minExponent

/-- A power of two. -/
def twoPow (k : Nat) : Nat :=
  Nat.pow 2 k

/-- A power of ten. -/
def tenPow (k : Nat) : Nat :=
  Nat.pow 10 k

/-- The quotient rounded to the nearest whole number, a half to the even one. -/
def divNearest (n d : Nat) : Nat :=
  let q := n / d
  let r := n % d
  if 2 * r > d ∨ (2 * r = d ∧ q % 2 = 1) then q + 1 else q

/-- `n / d / 2 ^ exponent` as a quotient of whole numbers. -/
def scaleDown (n d : Nat) (exponent : Int) : Nat × Nat :=
  if exponent < 0 then (n * twoPow (-exponent).toNat, d) else (n, d * twoPow exponent.toNat)

/-- The exponent that gives `n / d` a significand of 53 bits, or the least exponent. -/
def exponentOf (n d : Nat) : Int :=
  let guess : Int := (n.log2 : Int) - d.log2 - 52
  let (a, b) := scaleDown n d guess
  max minExponent (if a < b * twoPow 52 then guess - 1 else guess)

/-- A finite number, or an infinite one beyond the greatest exponent. -/
def bounded (negative : Bool) (significand : Nat) (exponent : Int) : Binary64 :=
  if exponent > maxExponent then infinite negative else finite negative significand exponent

/-- A number from a rounded significand. One that was rounded up to 54 bits is a power of two. -/
def ofRounded (negative : Bool) (significand : Nat) (exponent : Int) : Binary64 :=
  if significand = twoPow 53 then bounded negative (twoPow 52) (exponent + 1)
  else bounded negative significand exponent

/-- The number nearest to `n / d`, for `n` and `d` above zero. -/
def ofRatio (negative : Bool) (n d : Nat) : Binary64 :=
  let exponent := exponentOf n d
  let scaled := scaleDown n d exponent
  ofRounded negative (divNearest scaled.1 scaled.2) exponent

/-- How many decimal digits a number has. -/
def digitCount (n : Nat) : Nat :=
  (Nat.toDigits 10 n).length

/-- The number nearest to `digits * 10 ^ exponent`. Far beyond the range of exponents the answer is
known without computing the power. -/
def ofDecimal (negative : Bool) (digits : Nat) (exponent : Int) : Binary64 :=
  if digits = 0 then zero negative
  else
    let magnitude := exponent + digitCount digits
    if magnitude > 400 then infinite negative
    else if magnitude < -400 then zero negative
    else if exponent < 0 then ofRatio negative digits (tenPow (-exponent).toNat)
    else ofRatio negative (digits * tenPow exponent.toNat) 1

/-- The whole part of a finite number. -/
def truncate (negative : Bool) (significand : Nat) (exponent : Int) : Int :=
  let whole :=
    if exponent < 0 then significand / twoPow (-exponent).toNat
    else significand * twoPow exponent.toNat
  if negative then -(whole : Int) else whole

/-- Whether a number is zero, of either sign. -/
def isZero : Binary64 → Bool
  | finite _ significand _ => significand == 0
  | _ => false

end Binary64

end LispEditor
