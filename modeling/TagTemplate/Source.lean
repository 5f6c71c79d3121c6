import TagTemplate.Document.Outline
import TagTemplate.Document.Parse
import TagTemplate.Document.Render

/-!
# From one text to another

What a user asks of a template, as functions of its text: whether it is one, how it is written in
the one normal form, what its outline is, and which tokens it has. Everything that can go wrong on
the way is a `SourceError`, and each kind of error says itself how it is worded, so all users see
the same message for the same template.
-/

namespace TagTemplate

/-- Why a text could not be worked on. -/
inductive SourceError where
  /-- It does not consist of tokens. -/
  | scan (e : ScanError)
  /-- It is no document. -/
  | parse (e : ParseError)
  /-- Its document could not be walked. -/
  | walk (e : WalkError)
deriving DecidableEq, Repr

/-- An error in words. -/
def SourceError.message : SourceError → String
  | scan e => e.message
  | parse e => e.message
  | walk e => e.message

namespace Source

/-- The template in its normal form. -/
def format (source : String) : Except SourceError String := do
  let doc ← (Document.parse source).mapError .parse
  doc.render.mapError .walk

/-- Whether the text is a template that can be written again. -/
def check (source : String) : Except SourceError Unit := do
  let _ ← format source

/-- The outline of the template. -/
def outline (source : String) : Except SourceError String := do
  let doc ← (Document.parse source).mapError .parse
  doc.outline.mapError .walk

/-- A token with its line and column in front, and `gap` between the two. -/
def tokenLine (gap : String) (token : Token) : String :=
  String.ofList (Nat.toDigits 10 token.start.line ++ [':'] ++ Nat.toDigits 10 token.start.column)
    ++ gap ++ token.kind.display

/-- One line for each token of the template. -/
def tokenLines (gap source : String) : Except SourceError (List String) := do
  let tokens ← (tokenize source).mapError .scan
  return tokens.map (tokenLine gap)

end Source

/-- The version of this library. -/
def version : String := "0.1.0"

end TagTemplate
