import TagTemplate.Element
import TagTemplate.Position
import TagTemplate.Text.Quoted

/-!
# Tokens

A template is text with tags in it, and a tag is an opening brace and dollar sign, a head that
says what the tag is, elements, and a dollar sign with a closing brace. A `TokenKind` is one piece
of that, with what it means: a run of text without its backslashes, a head as it was written, an
element as a value. A `Token` adds where the piece was found. Every token can be shown on one line
(`TokenKind.display`), text with line breaks in it included.
-/

namespace TagTemplate

/-- A piece of a template. -/
inductive TokenKind where
  /-- Text between tags, as it is meant. -/
  | text (content : String)
  /-- What opens a tag. -/
  | tagStart
  /-- The first word of a tag, as it was written, or the equals sign in its place. -/
  | tagHead (name : String)
  /-- What closes a tag. -/
  | tagEnd
  /-- An element of a tag. -/
  | element (e : Element)
  /-- The end of the template. -/
  | endOfInput
deriving DecidableEq, Repr

/-- A piece of a template and where it stands. -/
structure Token where
  /-- What it is. -/
  kind : TokenKind
  /-- The place before its first character. -/
  start : Position
  /-- The place after its last character. -/
  stop : Position
deriving DecidableEq, Repr

/-- An element on a line of its own, with the word for what it is as a token. -/
def Element.display : Element → String
  | .integer value => "INTEGER " ++ (Element.integer value).text
  | .double value => "DOUBLE " ++ (Element.double value).text
  | .string content => "STRING " ++ Quoted.quote content
  | .variableName name => "VARIABLE " ++ name
  | .functionName name => "FUNCTION @" ++ name
  | .operator op => "OPERATOR " ++ String.singleton op.symbol

/-- A piece of a template on one line. -/
def TokenKind.display : TokenKind → String
  | text content => "TEXT " ++ Quoted.quote content
  | tagStart => "TAG_START"
  | tagHead name => "TAG_NAME " ++ name
  | tagEnd => "TAG_END"
  | element e => e.display
  | endOfInput => "EOF"

end TagTemplate
