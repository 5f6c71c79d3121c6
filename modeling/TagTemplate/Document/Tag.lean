import TagTemplate.Document.Builder
import TagTemplate.Token.Stream

/-!
# What a tag does

A tag is known by its head: the equals sign echoes elements, FOR opens a loop and END closes one,
the two words in any mixture of capital and small letters. `TagHead.apply` is the whole effect of
a tag with given elements on a document under construction. A fault is a `ParseFault`, which names
its cause by the tokens and elements that are to blame and leaves the wording to
`ParseFault.message`.
-/

namespace TagTemplate

/-! ## Faults -/

/-- Why elements do not make the header of a loop. -/
inductive HeaderFault where
  /-- There are neither three nor four of them. -/
  | wrongCount (count : Nat)
  /-- The first is not a variable. -/
  | counterIsNoVariable (e : Element)
  /-- One of the others cannot be a bound. -/
  | noBound (e : Element)
deriving DecidableEq, Repr

/-- Why a template is no document. -/
inductive ParseFault where
  /-- It does not even consist of tokens. -/
  | scan (fault : ScanFault)
  /-- A loop has a wrong header. -/
  | invalidHeader (fault : HeaderFault)
  /-- An echo tag has no elements. -/
  | emptyEcho
  /-- A loop is closed and none is open. -/
  | unexpectedEnd
  /-- A loop is never closed. -/
  | unclosedLoop (counter : String)
  /-- A tag has a head that means nothing, or none at all. -/
  | unknownTag (head : TokenKind)
  /-- A tag that closes a loop has elements. -/
  | elementAfterEnd (e : Element)
  /-- A token stands where it cannot. -/
  | misplacedToken (kind : TokenKind)
deriving DecidableEq, Repr

/-- A fault and where it is reported. -/
structure ParseError where
  /-- What is wrong. -/
  fault : ParseFault
  /-- The place to look at. -/
  position : Position
deriving DecidableEq, Repr

/-- An error in the tokens as an error in the template. -/
def ScanError.toParseError (e : ScanError) : ParseError := ⟨.scan e.fault, e.position⟩

/-! ## Headers of loops -/

namespace LoopHeader

/-- A header, provided its first element is a variable and the others can be bounds. -/
def checked (counter start stop : Element) (step : Option Element) :
    Except HeaderFault LoopHeader :=
  match counter with
  | .variableName name =>
    let header : LoopHeader := ⟨name, start, stop, step⟩
    match header.bounds.find? (!·.isLoopBound) with
    | none => .ok header
    | some e => .error (.noBound e)
  | e => .error (.counterIsNoVariable e)

/-- The header that elements make: a variable, two bounds, and a step or none. -/
def ofElements : List Element → Except HeaderFault LoopHeader
  | [counter, start, stop] => checked counter start stop none
  | [counter, start, stop, step] => checked counter start stop (some step)
  | es => .error (.wrongCount es.length)

end LoopHeader

/-! ## Heads and effects -/

/-- What a tag is for. -/
inductive TagHead where
  /-- It shows the values of elements. -/
  | echo
  /-- It opens a loop. -/
  | loop
  /-- It closes a loop. -/
  | close
deriving DecidableEq, Repr

namespace TagHead

/-- What a head as it was written stands for. -/
def ofName? (name : String) : Option TagHead :=
  if name = "=" then some echo
  else
    match name.toList.map Char.toLower with
    | ['f', 'o', 'r'] => some loop
    | ['e', 'n', 'd'] => some close
    | _ => none

/-- What the first token of a tag stands for. -/
def ofToken? : TokenKind → Option TagHead
  | .tagHead name => ofName? name
  | _ => none

/-- The effect of a tag that was opened at a place on a document under construction. -/
def apply (head : TagHead) (opening : Position) (elements : List Element) (builder : Builder) :
    Except ParseFault Builder :=
  match head with
  | echo =>
    match elements with
    | [] => .error .emptyEcho
    | e :: es => .ok (builder.append (.echo (e :: es)))
  | loop =>
    match LoopHeader.ofElements elements with
    | .error fault => .error (.invalidHeader fault)
    | .ok header => .ok (builder.openLoop header opening)
  | close =>
    match elements with
    | e :: _ => .error (.elementAfterEnd e)
    | [] =>
      match builder.closeLoop? with
      | none => .error .unexpectedEnd
      | some builder => .ok builder

end TagHead

/-! ## Messages -/

/-- What is wrong with the header of a loop, in words. -/
def HeaderFault.message : HeaderFault → String
  | wrongCount count =>
    "expected 3 or 4 elements, found " ++ String.ofList (Nat.toDigits 10 count)
  | counterIsNoVariable e => "loop variable must be a variable name, found '" ++ e.text ++ "'"
  | noBound e => "'" ++ e.text ++ "' cannot be a loop bound"

/-- The head of an unknown tag as it is named in messages: a name as it was written, nothing for a
tag without a head, any other token as it is listed. -/
def TokenKind.asHead : TokenKind → String
  | tagHead name => name
  | tagEnd => ""
  | kind => kind.display

/-- The token that stands where it cannot, or the element that stands behind END, as it is named in
messages. -/
def ParseFault.misplaced? : ParseFault → Option String
  | elementAfterEnd e => some ("'" ++ e.text ++ "' after END")
  | misplacedToken kind => some kind.display
  | _ => none

/-- What is wrong, in words. -/
def ParseFault.message : ParseFault → String
  | scan fault => fault.message
  | invalidHeader fault => "invalid FOR header: " ++ fault.message
  | emptyEcho => "echo tag has no elements"
  | unexpectedEnd => "END tag without an open FOR"
  | unclosedLoop counter => "FOR loop over '" ++ counter ++ "' is never closed"
  | unknownTag head => "unknown tag '" ++ head.asHead ++ "'"
  | elementAfterEnd e => "unexpected '" ++ e.text ++ "' after END"
  | misplacedToken kind => "unexpected " ++ kind.display

/-- An error in words. -/
def ParseError.message (e : ParseError) : String :=
  "Parse error at " ++ e.position.message ++ ": " ++ e.fault.message

end TagTemplate
