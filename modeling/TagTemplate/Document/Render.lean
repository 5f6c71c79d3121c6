import TagTemplate.Document.Walk

/-!
# Documents written as templates

Rendering writes a document in the one form that has nothing to choose: text with a backslash
before every brace and backslash, no blank in a tag but single spaces between elements, heads in
capitals. It is a walk whose state is the text so far, and no step of it can fail.
-/

namespace TagTemplate

/-- Text as it is written between tags. -/
def escapeText (content : String) : String :=
  String.ofList (Escaping.documentText.escape content.toList)

/-- An echo tag. -/
def echoTag (elements : List Element) : String :=
  "\x7b$=" ++ Element.joinTexts elements ++ "$\x7d"

/-- The tag at the top of a loop. -/
def LoopHeader.tag (header : LoopHeader) : String :=
  "\x7b$FOR " ++ header.counter ++ " " ++ Element.joinTexts header.bounds ++ "$\x7d"

/-- The tag at the end of a loop. -/
def endTag : String := "\x7b$END$\x7d"

/-- Writes each part of a document behind what has been written. -/
def renderer : Visitor WalkError String where
  text content := modify (· ++ escapeText content)
  echo elements := modify (· ++ echoTag elements)
  enter header _ := modify (· ++ header.tag)
  leave _ _ := modify (· ++ endTag)

/-- The template that a document is written as. -/
def Document.render (doc : Document) : Except WalkError String :=
  finalState (renderer.walkDocument doc) ""

/-- The template that a single node is written as; there has to be one. -/
def Node.render? : Option Node → Except WalkError String
  | none => .error .noNode
  | some node => finalState (renderer.walkNode node) ""

end TagTemplate
