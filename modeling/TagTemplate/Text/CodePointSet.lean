/-!
# Sets of characters as boundaries

A property of characters that a standard defines comes as ranges of code points. `CodePointSet`
keeps such a set as the ascending list of the points at which membership changes: the first point
is where the first range begins, the second where it is over, and so on. A character belongs to
the set when it has passed an odd number of boundaries, and because the list ascends the count can
stop at the first boundary that lies beyond the character.
-/

namespace TagTemplate

/-- A set of characters, given by the ascending code points at which membership changes. -/
structure CodePointSet where
  /-- Where ranges begin and end, in turns, in ascending order. -/
  boundaries : List Nat

namespace CodePointSet

/-- Whether an odd number of boundaries lies at or below a code point. -/
def oddBelow (point : Nat) : List Nat → Bool
  | [] => false
  | b :: bs => if point < b then false else !oddBelow point bs

/-- Whether a character belongs to a set. -/
def contains (set : CodePointSet) (c : Char) : Bool := oddBelow c.toNat set.boundaries

end CodePointSet

end TagTemplate
