import TagTemplate.Number.Binary64
import TagTemplate.Number.Numeral

/-!
# From decimals to the nearest binary number

A decimal is read as the nearest number of the binary format, a tie going to the even neighbour.
The rounding itself is done once, on a ratio of natural numbers counted in the smallest unit:
between neighbours of a magnitude that unit is doubled `k` times, so the ratio is divided by `2 ^
k` and rounded to an integer. Below the first doubling the rounded integer already is the
magnitude, and each doubling adds one `binadeSize` to it, which also carries a result that rounds
up to the next power of two into the next binade without a special case.

A decimal whose scale puts it far outside the format is decided by its size alone, so no power of
ten is ever larger than the text that asked for it.
-/

namespace TagTemplate

namespace Binary64

/-- The integer nearest to a ratio; halfway between two, the even one. -/
def halfEven (num den : Nat) : Nat :=
  let quotient := num / den
  let rest := num % den
  if 2 * rest < den ∨ (2 * rest = den ∧ quotient % 2 = 0) then quotient else quotient + 1

/-- The magnitude nearest to a ratio counted in smallest units, infinity if that is beyond the
finite numbers. -/
def magnitudeOfRatio (num den : Nat) : Nat :=
  let doublings := (num / den).log2 - 52
  Nat.min infinity (doublings * binadeSize + halfEven num (den * Nat.pow 2 doublings))

/-- The magnitude nearest to a decimal, infinity if that is beyond the finite numbers. -/
def magnitudeOfDecimal (d : Decimal) : Nat :=
  if d.digits = 0 then 0
  else if 310 ≤ d.scale then infinity
  else if d.scale < -(325 + d.digits.log2 : Nat) then 0
  else
    magnitudeOfRatio (d.digits * Nat.pow 10 d.scale.toNat * Nat.pow 2 1074)
      (Nat.pow 10 (-d.scale).toNat)

/-- The number of the given sign that is nearest to a decimal, unless that is too large. -/
def ofDecimal? (negative : Bool) (d : Decimal) : Option Binary64 :=
  if h : magnitudeOfDecimal d < infinity then
    some ⟨negative, magnitudeOfDecimal d, Nat.lt_trans h infinity_lt_signPlace⟩
  else none

end Binary64

/-- The binary number that a numeral stands for, unless that is too large. -/
def Numeral.binary64? (n : Numeral) : Option Binary64 :=
  Binary64.ofDecimal? n.negative n.decimal

end TagTemplate
