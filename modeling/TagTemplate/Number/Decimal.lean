/-!
# Decimal numbers

A `Decimal` is a natural number of digits times a power of ten. It is the value of what is
written, without a sign: a reader makes one of the digits it has seen, a writer chooses one and
then places its digits. Several decimals have one value, since a zero at the end of the digits can
be had in the scale instead.
-/

namespace TagTemplate

/-- The number `digits · 10 ^ scale`. -/
structure Decimal where
  /-- The digits, read as one number. -/
  digits : Nat
  /-- The power of ten to multiply them by. -/
  scale : Int
deriving DecidableEq, Repr

end TagTemplate
