import TagTemplate.Document
import TagTemplate.Position

/-!
# Documents under construction

A document is built from its tokens left to right, so at any moment it is a list of finished nodes
at the top level and a stack of loops that have been opened and not yet closed. A node that is
finished goes to the innermost open loop, or to the top level when none is open; closing a loop
makes it a finished node. Finished nodes are kept latest first and put in order once, when their
loop is closed or the document is finished.
-/

namespace TagTemplate

/-- A loop that has not been closed yet. -/
structure OpenLoop where
  /-- Its header. -/
  header : LoopHeader
  /-- The place of the tag that opened it. -/
  opening : Position
  /-- Its children so far, latest first. -/
  children : List Node
deriving DecidableEq

/-- The loop as a finished node. -/
def OpenLoop.toNode (frame : OpenLoop) : Node := .loop frame.header frame.children.reverse

/-- A document under construction. -/
structure Builder where
  /-- The finished nodes at the top level, latest first. -/
  root : List Node
  /-- The loops that are open, innermost first. -/
  openLoops : List OpenLoop
deriving DecidableEq

namespace Builder

/-- Nothing yet. -/
def empty : Builder := ⟨[], []⟩

/-- Adds a finished node where the document is open. -/
def append (builder : Builder) (node : Node) : Builder :=
  match builder.openLoops with
  | [] => { builder with root := node :: builder.root }
  | frame :: frames =>
    { builder with openLoops := { frame with children := node :: frame.children } :: frames }

/-- Opens a loop. -/
def openLoop (builder : Builder) (header : LoopHeader) (opening : Position) : Builder :=
  { builder with openLoops := ⟨header, opening, []⟩ :: builder.openLoops }

/-- Closes the innermost loop, if one is open. -/
def closeLoop? (builder : Builder) : Option Builder :=
  match builder.openLoops with
  | [] => none
  | frame :: frames => some ({ builder with openLoops := frames }.append frame.toNode)

/-- The finished document, or the innermost loop if one is still open. -/
def finish (builder : Builder) : Except OpenLoop Document :=
  match builder.openLoops with
  | [] => .ok ⟨builder.root.reverse⟩
  | frame :: _ => .error frame

end Builder

end TagTemplate
