import TagTemplate.Document.Outline
import TagTemplate.Proofs.Document.Traversal

/-!
# Outlines follow the structure

What the outline of a document is to be can be said without a writer: a line for each node in source
order (`Node.inSourceOrder`), with two spaces for each level in front of what is said of the node
itself (`Node.headline`). `Node.outlining` is these lines by recursion.

The walk that outlines a document counts the depth up and down as it enters loops and leaves them.
In the recursion the depth is an argument, one more for the children of a loop, and nothing has to
be taken back. Both come to the same lines, since the walk of some nodes leaves the depth as it was
(`Outline.writer_traverse`). So every document has an outline (`Document.outline_eq`).
-/

namespace TagTemplate

namespace Node

/-- What is said of a node itself: its text between quotes, or its elements with their kinds. -/
def headline : Node → String
  | .text content => "Text " ++ Quoted.quote content
  | .echo elements => "Echo " ++ " ".intercalate (elements.map Element.description)
  | .loop header _ =>
    "For " ++ (Element.variableName header.counter).description ++ " "
      ++ " ".intercalate (header.bounds.map Element.description)

/-- Nodes at a level and all nodes below them, in source order, each with its level: the children of
a loop are one level further in than the loop. -/
def inSourceOrder (level : Nat) : List Node → List (Nat × Node)
  | [] => []
  | .text content :: nodes => (level, .text content) :: inSourceOrder level nodes
  | .echo elements :: nodes => (level, .echo elements) :: inSourceOrder level nodes
  | .loop header children :: nodes =>
    (level, .loop header children) ::
      (inSourceOrder (level + 1) children ++ inSourceOrder level nodes)

/-- The entry for a node at a level, without the line feed at its end. -/
def entry (place : Nat × Node) : String :=
  String.ofList (List.replicate (2 * place.1) ' ') ++ place.2.headline

/-- The lines for nodes at a level, and for everything below them. -/
def outlining (level : Nat) : List Node → String
  | [] => ""
  | .text content :: nodes => entry (level, .text content) ++ "\n" ++ outlining level nodes
  | .echo elements :: nodes => entry (level, .echo elements) ++ "\n" ++ outlining level nodes
  | .loop header children :: nodes =>
    entry (level, .loop header children) ++ "\n"
      ++ (outlining (level + 1) children ++ outlining level nodes)

end Node

namespace Outline

/-- An outline with more lines, at the depth that it was at. -/
def addLines (outline : Outline) (more : String) : Outline :=
  { outline with lines := outline.lines ++ more }

theorem addLines_empty (outline : Outline) : outline.addLines "" = outline := by
  rw [addLines, String.append_empty]

theorem addLines_addLines (outline : Outline) (more others : String) :
    (outline.addLines more).addLines others = outline.addLines (more ++ others) := by
  rw [addLines, addLines, addLines, String.append_assoc]

theorem writer_traverse (nodes : List Node) (outline : Outline) :
    (writer.traverse nodes).run outline
      = .ok () (outline.addLines (Node.outlining outline.depth nodes)) := by
  induction nodes using Node.induction generalizing outline with
  | nil =>
    rw [Visitor.traverse, Node.outlining, addLines_empty]
    rfl
  | text content nodes ih =>
    rw [Visitor.traverse, Node.outlining, ← addLines_addLines]
    exact ih (outline.addLine (textLine content))
  | echo elements nodes ih =>
    rw [Visitor.traverse, Node.outlining, ← addLines_addLines]
    exact ih (outline.addLine (echoLine elements))
  | loop header children nodes ihchildren ih =>
    rw [Visitor.traverse, Node.outlining, ← addLines_addLines, ← addLines_addLines]
    have hchildren := ihchildren (outline.addLine (loopLine header)).deeper
    have hnodes := ih ((outline.addLine (loopLine header)).addLines
      (Node.outlining (outline.depth + 1) children))
    calc _ = (do writer.traverse children; writer.leave header children
                 writer.traverse nodes : EStateM WalkError Outline Unit).run
              (outline.addLine (loopLine header)).deeper := rfl
      _ = _ := by
        rw [EStateM.run_bind, hchildren]
        exact hnodes

end Outline

/-- A document always has an outline, as its structure says. -/
theorem Document.outline_eq (doc : Document) :
    doc.outline = .ok ("Document\n" ++ Node.outlining 1 doc.children) := by
  have hdocument : (Outline.writer.walkDocument doc).run .empty
      = (Outline.writer.traverse doc.children).run (Outline.empty.addLine "Document").deeper := by
    rw [Visitor.walkDocument, Visitor.walkNodes_eq_traverse]
    rfl
  have hline : Outline.line 0 "Document" = "Document\n" := rfl
  rw [Document.outline, finalState, hdocument, Outline.writer_traverse]
  simp only [Except.map, Outline.addLines, Outline.deeper, Outline.addLine, Outline.empty,
    String.empty_append, hline]

end TagTemplate
