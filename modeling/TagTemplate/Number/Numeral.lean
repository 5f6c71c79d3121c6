import TagTemplate.Number.Decimal

/-!
# Numbers as they are written

A `Numeral` is a decimal number in the parts it was written in: an optional minus, digits, digits
after a point, and an exponent. `Numeral.read` takes the longest one from the start of a text: a
point or an `e` that is not followed by the digits it needs is left alone. `Numeral.text` writes
it down again, and since the only liberty the grammar leaves is the case of the `e`, the length of
that text is also the number of characters that were read.

The value of a numeral is a `Decimal`, with the minus kept apart because it also distinguishes the
two zeros of a binary format.
-/

namespace TagTemplate

/-- A sign written before the digits of an exponent. -/
inductive ExponentSign where
  | plus
  | minus
deriving DecidableEq, Repr

/-- An exponent as it was written. -/
structure Exponent where
  /-- The sign, if there is one. -/
  sign : Option ExponentSign
  /-- The decimal digits. -/
  digits : List Char
deriving DecidableEq, Repr

/-- A decimal number in the parts it was written in. -/
structure Numeral where
  /-- Whether it begins with a minus. -/
  negative : Bool
  /-- The digits before the point. -/
  whole : List Char
  /-- The digits after the point; without any there is no point either. -/
  fraction : List Char
  /-- The exponent, if there is one. -/
  exponent : Option Exponent
deriving DecidableEq, Repr

/-! ## Reading -/

/-- The digits after a point, and what follows them. -/
def Numeral.splitFraction : List Char → List Char × List Char
  | '.' :: cs =>
    match cs.takeWhile Char.isDigit with
    | [] => ([], '.' :: cs)
    | digits => (digits, cs.dropWhile Char.isDigit)
  | cs => ([], cs)

/-- The sign before the digits of an exponent, and what follows it. -/
def ExponentSign.split : List Char → Option ExponentSign × List Char
  | '+' :: cs => (some .plus, cs)
  | '-' :: cs => (some .minus, cs)
  | cs => (none, cs)

/-- The exponent at the start of a text: an `e` of either case, a sign if there is one, and at
least one digit. -/
def Exponent.read? : List Char → Option Exponent
  | c :: cs =>
    if c = 'e' ∨ c = 'E' then
      let (sign, cs) := ExponentSign.split cs
      match cs.takeWhile Char.isDigit with
      | [] => none
      | digits => some ⟨sign, digits⟩
    else none
  | [] => none

namespace Numeral

/-- Whether a numeral starts here: a digit, or a minus and then a digit. -/
def startsAt : List Char → Bool
  | '-' :: c :: _ => c.isDigit
  | c :: _ => c.isDigit
  | [] => false

/-- The unsigned numeral at the start of a text, as long as can be. -/
def readUnsigned (negative : Bool) (cs : List Char) : Numeral :=
  let (fraction, afterFraction) := splitFraction (cs.dropWhile Char.isDigit)
  ⟨negative, cs.takeWhile Char.isDigit, fraction, Exponent.read? afterFraction⟩

/-- The numeral at the start of a text, as long as can be. -/
def read : List Char → Numeral
  | '-' :: cs => readUnsigned true cs
  | cs => readUnsigned false cs

end Numeral

/-! ## Writing -/

/-- The sign as a character. -/
def ExponentSign.text : ExponentSign → Char
  | .plus => '+'
  | .minus => '-'

/-- The exponent with a small `e`. -/
def Exponent.text (e : Exponent) : List Char :=
  ['e'] ++ (e.sign.map ExponentSign.text).toList ++ e.digits

/-- The numeral with a small `e`, and otherwise as it was written. -/
def Numeral.text (n : Numeral) : List Char :=
  (if n.negative then ['-'] else []) ++ n.whole
    ++ (match n.fraction with
      | [] => []
      | digits => '.' :: digits)
    ++ (match n.exponent with
      | none => []
      | some e => e.text)

/-! ## Values -/

/-- The size of an exponent from which on no further digit of it is read: a power of ten this large
already takes any numeral with fewer digits than that out of the range of doubles. -/
def Exponent.enough : Nat := 65536

/-- The number that the digits of an exponent make, up to the first that brings it to `enough`; the
digits behind that one are passed over. -/
def Exponent.size (digits : List Char) : Nat :=
  digits.foldl (fun n c ↦ if n < enough then 10 * n + (c.toNat - '0'.toNat) else n) 0

/-- The power of ten that an exponent stands for. -/
def Exponent.value (e : Exponent) : Int :=
  if e.sign = some .minus then -(size e.digits : Int) else size e.digits

namespace Numeral

/-- Whether a numeral has neither a point nor an exponent. -/
def isWhole (n : Numeral) : Bool := n.fraction.isEmpty && n.exponent.isNone

/-- The value without the minus: the digits before and after the point as one number, and for each
digit after the point one power of ten less than the exponent says. -/
def decimal (n : Numeral) : Decimal where
  digits := Nat.ofDigitChars 10 (n.whole ++ n.fraction) 0
  scale := (n.exponent.map Exponent.value).getD 0 - n.fraction.length

/-- The integer that a numeral without point and exponent stands for, if it fits 64 bits. -/
def int64? (n : Numeral) : Option Int64 :=
  let value : Int := if n.negative then -n.decimal.digits else n.decimal.digits
  if h : Int64.minValue.toInt ≤ value ∧ value ≤ Int64.maxValue.toInt then
    some (Int64.ofIntLE value h.1 h.2)
  else none

end Numeral

end TagTemplate
