import LispEditor.Number.Binary64

/-!
# Shortest digits

The digits by which a floating-point number is written: the fewest that read back as the same
number, and of those the nearest to it. Of two that are equally near, the even ones are taken. Every
number reads back from 17 digits.
-/

namespace LispEditor.Binary64

/-- `digits * 10 ^ exponent`. -/
structure Decimal where
  digits : Nat
  exponent : Int
  deriving DecidableEq, Repr

/-- A quotient divided by a power of ten. -/
def divPowTen (n d : Nat) (exponent : Int) : Nat × Nat :=
  if exponent < 0 then (n * tenPow (-exponent).toNat, d) else (n, d * tenPow exponent.toNat)

/-- The greatest exponent of ten up to `low + steps` whose power is at most `n / d`, given that the
power of `low` is. -/
def powTenBelow (n d : Nat) (low : Int) : (steps : Nat) → Int
  | 0 => low
  | steps + 1 =>
      let (a, b) := divPowTen n d (low + 1)
      if b ≤ a then powTenBelow n d (low + 1) steps else low

/-- The exponent of the leading decimal digit of `n / d`. Its binary logarithm times 0.30103 is off
by less than two. -/
def leadingExponent (n d : Nat) : Int :=
  let log2 : Int := (n.log2 : Int) - d.log2
  powTenBelow n d (log2 * 30103 / 100000 - 2) 5

/-- A decimal without zeros at the end of its digits. At most `steps` of them are dropped. -/
def Decimal.dropZeros : Nat → Decimal → Decimal
  | 0, decimal => decimal
  | steps + 1, decimal =>
      if decimal.digits % 10 = 0 then dropZeros steps ⟨decimal.digits / 10, decimal.exponent + 1⟩
      else decimal

/-- Whether `a / b` is nearer to the whole number below it than to the one above, or equally near
to both and the one below is even. -/
def nearerBelow (a b : Nat) : Bool :=
  decide (2 * (a % b) < b ∨ (2 * (a % b) = b ∧ a / b % 2 = 0))

/-- Of the two decimals around `n / d` with a given exponent the nearer one that reads back as
`x`. -/
def readingBack (x : Binary64) (negative : Bool) (n d : Nat) (exponent : Int) : Option Decimal :=
  let (a, b) := divPowTen n d exponent
  let below := a / b
  let near := if nearerBelow a b then [below, below + 1] else [below + 1, below]
  (near.map fun digits => Decimal.mk digits exponent).find? fun decimal =>
    ofDecimal negative decimal.digits decimal.exponent == x

/-- The decimal of fewest digits that reads back as `x`, which is `n / d`. `count` digits have been
tried without success. -/
def shortestFrom (x : Binary64) (negative : Bool) (n d : Nat) (leading : Int) :
    (count left : Nat) → Decimal
  | count, 0 => let (a, b) := divPowTen n d (leading - count); ⟨a / b, leading - count⟩
  | count, left + 1 =>
      match readingBack x negative n d (leading - count) with
      | some decimal => decimal
      | none => shortestFrom x negative n d leading (count + 1) left

/-- The shortest decimal of a finite number above zero. -/
def shortest (negative : Bool) (significand : Nat) (exponent : Int) : Decimal :=
  let (n, d) := scaleDown significand 1 (-exponent)
  (shortestFrom (finite negative significand exponent) negative n d (leadingExponent n d) 0 17
    ).dropZeros 20

end LispEditor.Binary64
