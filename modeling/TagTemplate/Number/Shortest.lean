import TagTemplate.Number.Rounding

/-!
# The shortest decimal that reads back

A finite binary number is written with the fewest decimal digits from which the reader recovers
it. Its exact value is a decimal as well (`exactDecimal`), for halving a number is the same as
multiplying it by five and moving the point. For each number of leading digits of that decimal,
the two decimals next to it on the grid are read back; the first grid on which one of them gives
the magnitude again decides, and of two the nearer is taken, the upper one when both are equally
near. When no digit is left to drop, the decimal is the exact one itself, so the search always
ends with one that reads back.
-/

namespace TagTemplate.Binary64

/-- The exact value of a finite magnitude. A step of `2 ^ (-p)` is `5 ^ p` steps of `10 ^ (-p)`. -/
def exactDecimal (magnitude : Nat) : Decimal :=
  let places := 1074 - binade magnitude
  let doublings := binade magnitude - 1074
  ⟨steps magnitude * Nat.pow 5 places * Nat.pow 2 doublings, -places⟩

/-- Whether a decimal is read as the given magnitude. -/
def readsAs (magnitude : Nat) (d : Decimal) : Bool :=
  magnitudeOfDecimal d = magnitude

/-- The decimal to take of two that lie on either side of a value, given which of them read back:
of both the one below if that is the nearer one, and otherwise the one above. -/
def pick? (below above : Decimal) (nearerBelow : Bool) : Bool → Bool → Option Decimal
  | true, true => some (if nearerBelow then below else above)
  | true, false => some below
  | false, true => some above
  | false, false => none

/-- The decimal next to the exact value when the last digits are dropped, `dropped` being how many
go: of the two neighbours that read back the nearer, and the upper one of two equally near. -/
def neighbour? (magnitude dropped : Nat) : Option Decimal :=
  let exact := exactDecimal magnitude
  let grid := Nat.pow 10 dropped
  let below : Decimal := ⟨exact.digits / grid, exact.scale + dropped⟩
  let above : Decimal := ⟨exact.digits / grid + 1, exact.scale + dropped⟩
  pick? below above (2 * (exact.digits % grid) < grid) (readsAs magnitude below)
    (readsAs magnitude above)

/-- What is picked is one of the two, and it reads back. -/
theorem eq_of_pick?_eq_some {below above d : Decimal} {nearerBelow readsBelow readsAbove : Bool}
    (h : pick? below above nearerBelow readsBelow readsAbove = some d) :
    readsBelow = true ∧ d = below ∨ readsAbove = true ∧ d = above := by
  cases readsBelow <;> cases readsAbove <;> cases nearerBelow <;> simp_all [pick?]

/-- The first decimal that reads back when `dropped` digits or fewer are dropped, taking the
coarser grids first; with none dropped it is the exact value. -/
def coarsest (magnitude : Nat) : Nat → Decimal
  | 0 => exactDecimal magnitude
  | dropped + 1 => (neighbour? magnitude (dropped + 1)).getD (coarsest magnitude dropped)

/-- The shortest decimal that is read as the given magnitude, and the nearest of those. -/
def shortest (magnitude : Nat) : Decimal :=
  coarsest magnitude ((Nat.toDigits 10 (exactDecimal magnitude).digits).length - 1)

end TagTemplate.Binary64
