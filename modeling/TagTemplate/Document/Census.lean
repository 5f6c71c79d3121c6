import TagTemplate.Document.Walk

/-!
# What a document is made of

A census counts the parts of a document: texts and their characters, echo tags and their elements,
loops and the bounds in their headers.
-/

namespace TagTemplate

/-- How many parts of each kind a document has. -/
structure Census where
  /-- Texts. -/
  texts : Nat := 0
  /-- Characters in texts. -/
  textChars : Nat := 0
  /-- Echo tags. -/
  echoes : Nat := 0
  /-- Elements in echo tags. -/
  elements : Nat := 0
  /-- Loops. -/
  loops : Nat := 0
  /-- Bounds in the headers of loops. -/
  bounds : Nat := 0
deriving DecidableEq, Repr

/-- Counts each part of a document. -/
def Census.taker : Visitor WalkError Census where
  text content := modify fun census ↦
    { census with texts := census.texts + 1, textChars := census.textChars + content.length }
  echo es := modify fun census ↦
    { census with echoes := census.echoes + 1, elements := census.elements + es.length }
  enter header _ := modify fun census ↦
    { census with loops := census.loops + 1, bounds := census.bounds + header.bounds.length }

/-- The census of a document. -/
def Document.census (doc : Document) : Except WalkError Census :=
  finalState (Census.taker.walkDocument doc) {}

end TagTemplate
