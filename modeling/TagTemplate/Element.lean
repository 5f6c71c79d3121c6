import TagTemplate.Number.Integer
import TagTemplate.Number.Layout
import TagTemplate.Text.Escaping

/-!
# Elements

An element is what stands inside a tag: a number, a string, a name of a variable or of a function,
or an operator. Elements are kept as values, so a string holds the text that it means and a number
its bits; `Element.text` is the one way in which each is written. `Element.equal` compares numbers
of the binary format as numbers, so unlike `=` it does not tell the two zeros apart, and an
element whose number is not a number differs from itself.
-/

namespace TagTemplate

/-! ## Operators -/

/-- An arithmetic operator. -/
inductive Operator where
  | add
  | sub
  | mul
  | div
  | pow
deriving DecidableEq, Repr

namespace Operator

/-- The character that an operator is written as. -/
def symbol : Operator → Char
  | add => '+'
  | sub => '-'
  | mul => '*'
  | div => '/'
  | pow => '^'

/-- The operator that a character is the symbol of. -/
def ofSymbol? : Char → Option Operator
  | '+' => some add
  | '-' => some sub
  | '*' => some mul
  | '/' => some div
  | '^' => some pow
  | _ => none

theorem ofSymbol?_eq_some_iff {c : Char} {op : Operator} :
    ofSymbol? c = some op ↔ op.symbol = c := by
  constructor
  · unfold ofSymbol?
    split <;> simp <;> rintro rfl <;> rfl
  · rintro rfl
    cases op <;> rfl

end Operator

/-! ## Elements -/

/-- What stands inside a tag. -/
inductive Element where
  /-- An integer of 64 bits. -/
  | integer (value : Int64)
  /-- A number of the binary format. -/
  | double (value : Binary64)
  /-- A string, as the text that it means. -/
  | string (content : String)
  /-- A variable. -/
  | variableName (name : String)
  /-- A function, without the `@` before its name. -/
  | functionName (name : String)
  /-- An operator. -/
  | operator (op : Operator)
deriving DecidableEq, Repr

namespace Element

/-- How an element is written. -/
def text : Element → String
  | integer value => String.ofList (integerText value.toInt)
  | double value => String.ofList value.text
  | string content =>
    String.ofList (['"'] ++ Escaping.quotedText.escape content.toList ++ ['"'])
  | variableName name => name
  | functionName name => "@" ++ name
  | operator op => String.singleton op.symbol

/-- Whether an element can be where a loop starts or stops, or its step. -/
def isLoopBound : Element → Bool
  | integer _ | double _ | string _ | variableName _ => true
  | functionName _ | operator _ => false

/-- The word for the kind of an element. -/
def kindName : Element → String
  | integer _ => "Integer"
  | double _ => "Double"
  | string _ => "String"
  | variableName _ => "Variable"
  | functionName _ => "Function"
  | operator _ => "Operator"

/-- An element with its kind. -/
def description (e : Element) : String := e.kindName ++ "(" ++ e.text ++ ")"

/-- Whether two elements are of one kind and of equal value, numbers of the binary format being
compared as numbers. -/
def equal : Element → Element → Bool
  | double x, double y => x.equal y
  | e, f => e == f

/-- Whether two lists of elements are equal, element by element. -/
def equalLists : List Element → List Element → Bool
  | [], [] => true
  | e :: es, f :: fs => e.equal f && equalLists es fs
  | _, _ => false

/-- Elements as they are written, with one space between neighbours. -/
def joinTexts (es : List Element) : String := " ".intercalate (es.map text)

/-- Elements with their kinds, with one space between neighbours. -/
def joinDescriptions (es : List Element) : String := " ".intercalate (es.map description)

end Element

end TagTemplate
