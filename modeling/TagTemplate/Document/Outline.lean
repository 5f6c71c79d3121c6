import TagTemplate.Document.Walk
import TagTemplate.Text.Quoted

/-!
# Outlines

An outline shows a document with one line for each node, indented by two spaces for every loop
around it and once more for the document itself. Text is quoted, so no line breaks in it show;
elements are written with their kinds. The walk carries the depth along: entering a loop adds one
and leaving it takes one away.
-/

namespace TagTemplate

/-- An outline that is being written. -/
structure Outline where
  /-- The lines so far. -/
  lines : String
  /-- How far the next line is indented. -/
  depth : Nat

namespace Outline

/-- The outline before its first line. -/
def empty : Outline := ⟨"", 0⟩

/-- A line at a depth, with the line feed at its end. -/
def line (depth : Nat) (content : String) : String :=
  String.ofList (List.replicate (2 * depth) ' ') ++ content ++ "\n"

/-- Adds a line at the present depth. -/
def addLine (outline : Outline) (content : String) : Outline :=
  { outline with lines := outline.lines ++ line outline.depth content }

/-- The outline with its further lines one step in. -/
def deeper (outline : Outline) : Outline := { outline with depth := outline.depth + 1 }

/-- The outline with its further lines one step out. -/
def shallower (outline : Outline) : Outline := { outline with depth := outline.depth - 1 }

/-- The line for a text. -/
def textLine (content : String) : String := "Text " ++ Quoted.quote content

/-- The line for an echo tag. -/
def echoLine (elements : List Element) : String := "Echo " ++ Element.joinDescriptions elements

/-- The line for a loop. -/
def loopLine (header : LoopHeader) : String :=
  "For " ++ (Element.variableName header.counter).description ++ " "
    ++ Element.joinDescriptions header.bounds

/-- Adds a line for each part of a document. -/
def writer : Visitor WalkError Outline where
  document _ := modify fun outline ↦ (outline.addLine "Document").deeper
  text content := modify (·.addLine (textLine content))
  echo elements := modify (·.addLine (echoLine elements))
  enter header _ := modify fun outline ↦ (outline.addLine (loopLine header)).deeper
  leave _ _ := modify shallower

end Outline

/-- The outline of a document. -/
def Document.outline (doc : Document) : Except WalkError String :=
  (finalState (Outline.writer.walkDocument doc) .empty).map Outline.lines

end TagTemplate
