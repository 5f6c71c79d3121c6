/-!
# Places in a source

A source is a list of characters. A `Position` names the gap before one of them three ways at
once: by the number of characters passed, and by the line and column a reader would point at. The
three are advanced together, one character at a time, so they can never disagree: a line feed
starts a new line, and every other character, a carriage return or a tab included, is one column.

A `Cursor` is a position together with what is left to read from there. Everything that reads a
source is written as a function of the remaining characters that answers how many it used, and the
cursor alone does the counting (`Cursor.rest_advance`, `Cursor.position_advance`).
-/

namespace TagTemplate

/-! ## Positions -/

/-- The gap before a character: how many characters come before it, and its line and column, both
counted from one. -/
structure Position where
  /-- The number of characters before this place. -/
  offset : Nat
  /-- The line, counted from one. -/
  line : Nat
  /-- The column, counted from one. -/
  column : Nat
deriving DecidableEq, Repr

namespace Position

/-- The place before the first character. -/
def origin : Position := ⟨0, 1, 1⟩

/-- The place after one more character. -/
def next (p : Position) (c : Char) : Position :=
  if c = '\n' then ⟨p.offset + 1, p.line + 1, 1⟩ else ⟨p.offset + 1, p.line, p.column + 1⟩

/-- The place after a run of characters. -/
def after (p : Position) (cs : List Char) : Position := cs.foldl next p

@[simp] theorem after_nil (p : Position) : p.after [] = p := rfl

@[simp] theorem after_cons (p : Position) (c : Char) (cs : List Char) :
    p.after (c :: cs) = (p.next c).after cs := rfl

theorem after_append (p : Position) (cs ds : List Char) :
    p.after (cs ++ ds) = (p.after cs).after ds := List.foldl_append

@[simp] theorem offset_next (p : Position) (c : Char) : (p.next c).offset = p.offset + 1 := by
  unfold next
  split <;> rfl

theorem offset_after (p : Position) (cs : List Char) :
    (p.after cs).offset = p.offset + cs.length := by
  induction cs generalizing p with
  | nil => rfl
  | cons c cs ih => simp [ih]; omega

end Position

/-! ## Cursors -/

/-- A place in a source together with the characters that are still to be read there. -/
structure Cursor where
  /-- What is left of the source. -/
  rest : List Char
  /-- Where in the source that is. -/
  position : Position
deriving DecidableEq

namespace Cursor

/-- The cursor before the first character of a source. -/
def atStart (source : String) : Cursor := ⟨source.toList, .origin⟩

/-- The cursor `n` characters on, or at the end of the source if that comes first. -/
def advance : Cursor → Nat → Cursor
  | cursor, 0 => cursor
  | ⟨[], p⟩, _ + 1 => ⟨[], p⟩
  | ⟨c :: cs, p⟩, n + 1 => advance ⟨cs, p.next c⟩ n

@[simp] theorem rest_advance (cursor : Cursor) (n : Nat) :
    (cursor.advance n).rest = cursor.rest.drop n := by
  fun_induction advance cursor n with
  | case1 => rfl
  | case2 => rfl
  | case3 c cs p n ih => exact ih

/-- The position moves over exactly the characters passed. -/
@[simp] theorem position_advance (cursor : Cursor) (n : Nat) :
    (cursor.advance n).position = cursor.position.after (cursor.rest.take n) := by
  fun_induction advance cursor n with
  | case1 => rfl
  | case2 => rfl
  | case3 c cs p n ih => exact ih

end Cursor

end TagTemplate
