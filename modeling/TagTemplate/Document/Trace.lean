import TagTemplate.Document.Walk

/-!
# The trace of a walk

A recorder notes every visit of a walk in order. It can be told to refuse one visit by its number,
and then the walk ends there with what was noted before.
-/

namespace TagTemplate

/-- A visit that was made. -/
inductive VisitEvent where
  /-- The document, with the number of its parts. -/
  | document (size : Nat)
  /-- A text. -/
  | text (content : String)
  /-- An echo tag. -/
  | echo (elements : List Element)
  /-- The beginning of a loop. -/
  | enter (header : LoopHeader)
  /-- The end of a loop. -/
  | leave (header : LoopHeader)
deriving DecidableEq, Repr

namespace VisitEvent

/-- Notes a visit, unless it is the one to refuse. -/
def record (refused : Option Nat) (event : VisitEvent) :
    EStateM WalkError (Array VisitEvent) Unit := do
  if some (← get).size = refused then throw .unsupportedNode
  modify (·.push event)

/-- Notes every visit up to the one to refuse, which is given by its number, counted from zero. -/
def recorder (refused : Option Nat) : Visitor WalkError (Array VisitEvent) where
  document doc := record refused (.document doc.children.length)
  text content := record refused (.text content)
  echo elements := record refused (.echo elements)
  enter header _ := record refused (.enter header)
  leave header _ := record refused (.leave header)

end VisitEvent

/-- The part of a document that a walk is made over. -/
inductive WalkScope where
  /-- The document and everything in it. -/
  | wholeDocument
  /-- The nodes at its top level and everything below them. -/
  | topLevel
  /-- The node that a path leads to, and everything below it. -/
  | nodeAt (path : List Nat)

/-- Which part of a document is walked when a path is given or not; the empty path stands for the
nodes at the top level. -/
def WalkScope.ofPath : Option (List Nat) → WalkScope
  | none => wholeDocument
  | some [] => topLevel
  | some path => nodeAt path

/-- The visits of a walk over a part of a document, and how it ended. -/
def Document.trace (doc : Document) (scope : WalkScope) (refused : Option Nat) :
    Array VisitEvent × Except WalkError Unit :=
  let visitor := VisitEvent.recorder refused
  let walk := match scope with
    | .wholeDocument => visitor.walkDocument doc
    | .topLevel => visitor.walkNodes doc.children
    | .nodeAt path =>
      match Node.atPath? doc.children path with
      | none => throw WalkError.noNode
      | some node => visitor.walkNode node
  match walk.run #[] with
  | .ok _ events => (events, .ok ())
  | .error e events => (events, .error e)

end TagTemplate
