import TagTemplate.Text.ExtendingMark
import TagTemplate.Text.Unprintable

/-!
# Text made visible

Listings show text between quotes on one line, whatever characters it holds. A few characters have
a short form behind a backslash; a character that leaves no mark, or that would attach to the one
before it, is written as its code point in hexadecimal; all others stand for themselves. Quotes
and backslashes are among the first kind, so the text can be recovered from what is shown.
-/

namespace TagTemplate.Quoted

/-- The letter that stands behind a backslash for a character that has a short form. -/
def shortForm? : Char → Option Char
  | '\x00' => some '0'
  | '\t' => some 't'
  | '\r' => some 'r'
  | '\n' => some 'n'
  | '"' => some '"'
  | '\\' => some '\\'
  | _ => none

/-- Whether a character without a short form is shown as it is. -/
def isShown (c : Char) : Bool :=
  (' ' ≤ c && c ≤ '~') ||
    !(CodePointSet.unprintable.contains c || CodePointSet.extendingMark.contains c)

/-- A character as its code point, in lower-case hexadecimal without leading zeros. -/
def codePointForm (c : Char) : List Char :=
  ['\\', 'u', '{'] ++ Nat.toDigits 16 c.toNat ++ ['}']

/-- How one character is shown. -/
def showChar (c : Char) : List Char :=
  match shortForm? c with
  | some letter => ['\\', letter]
  | none => if isShown c then [c] else codePointForm c

/-- Text between quotes with every character made visible. -/
def quote (s : String) : String :=
  String.ofList (['"'] ++ s.toList.flatMap showChar ++ ['"'])

end TagTemplate.Quoted
