/-!
# How integers are written

An integer is written in decimal: a minus if it is negative, and its digits without leading zeros.
-/

namespace TagTemplate

/-- An integer in decimal. -/
def integerText (n : Int) : List Char :=
  (if n < 0 then ['-'] else []) ++ Nat.toDigits 10 n.natAbs

end TagTemplate
