import TagTemplate.Number.Integer
import TagTemplate.Number.Shortest

/-!
# How binary numbers are written

The digits come from `Binary64.shortest`; this module places them. A number whose leading digit
stands for at least `10 ^ (-4)` and less than `10 ^ 16` is written with a point and at least one
digit on each side of it, any other with one digit before the point, no point without digits after
it, and an exponent after `e` without a plus. Either way a point or an `e` shows that the number
is no integer.
-/

namespace TagTemplate.Binary64

/-! ## Digits and the place of the point -/

/-- The digits of a decimal without the zeros at their end. -/
def significantDigits (d : Decimal) : List Char :=
  ((Nat.toDigits 10 d.digits).reverse.dropWhile (· == '0')).reverse

/-- The power of ten that the leading digit of a decimal counts. -/
def leadingPower (d : Decimal) : Int := (Nat.toDigits 10 d.digits).length - 1 + d.scale

/-! ## The two layouts -/

/-- The least leading power of a number written with a plain point. -/
def leastPlainPower : Int := -4

/-- The greatest leading power of a number written with a plain point. -/
def greatestPlainPower : Int := 15

/-- Digits around a point, the first of them counting `10 ^ power`. -/
def plainLayout (digits : List Char) (power : Int) : List Char :=
  if power < 0 then
    ['0', '.'] ++ List.replicate (-power - 1).toNat '0' ++ digits
  else
    let before := power.toNat + 1
    let padded := digits ++ List.replicate (before - digits.length) '0'
    let after := padded.drop before
    padded.take before ++ ['.'] ++ (if after.isEmpty then ['0'] else after)

/-- One digit, the others after a point if there are any, and the power of ten. -/
def exponentLayout (digits : List Char) (power : Int) : List Char :=
  digits.take 1 ++ (if digits.length ≤ 1 then [] else '.' :: digits.drop 1)
    ++ ['e'] ++ integerText power

/-- A decimal in the layout that its size asks for. -/
def layout (d : Decimal) : List Char :=
  let power := leadingPower d
  if leastPlainPower ≤ power ∧ power ≤ greatestPlainPower then
    plainLayout (significantDigits d) power
  else exponentLayout (significantDigits d) power

/-! ## All numbers -/

/-- The text of a magnitude that has a value or is infinite. -/
def magnitudeText (magnitude : Nat) : List Char :=
  if magnitude = infinity then ['i', 'n', 'f']
  else if magnitude = 0 then ['0', '.', '0']
  else layout (shortest magnitude)

/-- The text of a number; the sign of what is not a number is not shown. -/
def text (x : Binary64) : List Char :=
  if x.isNaN then ['N', 'a', 'N']
  else (if x.negative then ['-'] else []) ++ magnitudeText x.magnitude

end TagTemplate.Binary64
