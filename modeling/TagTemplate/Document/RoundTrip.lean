import TagTemplate.Document.Equality
import TagTemplate.Document.Parse
import TagTemplate.Document.Render

/-!
# Documents written and read again

A document that was read from a template is written as a template that is read as the same
document. A document that was put together by hand need not be: its names may be no names, its
texts may run together. Trying it says what became of it.
-/

namespace TagTemplate

/-- How a document that was written and read again compares with what it was. -/
structure Rereading where
  /-- Whether the document read is equal to the one written. -/
  equal : Bool
  /-- Whether the document read is written as the same text again. -/
  stable : Bool
deriving DecidableEq, Repr

/-- What came of writing a document and reading it again. -/
structure RoundTrip where
  /-- The document as it was written. -/
  text : String
  /-- What reading that came to. -/
  reread : Except ParseError Rereading

/-- Writes a document and reads it again. -/
def Document.roundTrip (doc : Document) : Except WalkError RoundTrip := do
  let text ← doc.render
  match Document.parse text with
  | .error e => return ⟨text, .error e⟩
  | .ok again =>
    let second ← again.render
    return ⟨text, .ok ⟨again.equal doc, second == text⟩⟩

end TagTemplate
