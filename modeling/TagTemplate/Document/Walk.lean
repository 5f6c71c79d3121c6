import TagTemplate.Document

/-!
# Walking a document

A `Visitor` says what to do at each part of a document. A loop is met twice, before what it
repeats and after. Every handler may change a state of the visitor's choice and may fail, in which
case the walk stops there and the state stays as the handler left it.

The walk keeps a list of the visits that are still to come, so however deep loops are nested it
needs no stack of its own: entering a loop puts its children and the leaving of it in front of
what was there. It ends because every step makes the list lighter, where a node weighs as much as
the visits it calls for (`Node.visits`).
-/

namespace TagTemplate

/-! ## Visitors -/

/-- What to do at each part of a document. -/
structure Visitor (ε σ : Type) where
  /-- At the document itself, before its parts. -/
  document : Document → EStateM ε σ Unit := fun _ ↦ pure ()
  /-- At a text. -/
  text : String → EStateM ε σ Unit
  /-- At an echo tag. -/
  echo : List Element → EStateM ε σ Unit
  /-- At a loop, before its children. -/
  enter : LoopHeader → List Node → EStateM ε σ Unit
  /-- At a loop, after its children. -/
  leave : LoopHeader → List Node → EStateM ε σ Unit := fun _ _ ↦ pure ()

/-- A visit that is still to come. -/
inductive Visit where
  /-- Come to a node. -/
  | enter (node : Node)
  /-- Leave a loop, its children having been visited. -/
  | leave (header : LoopHeader) (children : List Node)

/-- The visits to some nodes, in order. -/
def Visit.enterAll (nodes : List Node) : List Visit := nodes.map .enter

/-! ## How many visits there are -/

mutual

/-- How many visits a node calls for, those of its children included. -/
def Node.visits : Node → Nat
  | .text _ => 1
  | .echo _ => 1
  | .loop _ children => Node.visitsAll children + 2

/-- How many visits a list of nodes calls for. -/
def Node.visitsAll : List Node → Nat
  | [] => 0
  | node :: nodes => node.visits + Node.visitsAll nodes

end

/-- How many visits come of a visit. -/
def Visit.weight : Visit → Nat
  | .enter node => node.visits
  | .leave _ _ => 1

/-- How many visits come of a list of visits. -/
def Visit.totalWeight : List Visit → Nat
  | [] => 0
  | visit :: pending => visit.weight + totalWeight pending

theorem Visit.totalWeight_enterAll_append (nodes : List Node) (pending : List Visit) :
    totalWeight (enterAll nodes ++ pending) = Node.visitsAll nodes + totalWeight pending := by
  induction nodes with
  | nil => simp [enterAll, Node.visitsAll]
  | cons node nodes ih =>
    simp only [enterAll, totalWeight, List.map_cons, List.cons_append, weight,
      Node.visitsAll] at ih ⊢
    omega

/-! ## The walk -/

namespace Visitor

variable {ε σ : Type}

/-- Makes the visits that are to come, in order, up to the first failure. -/
def run (v : Visitor ε σ) : List Visit → EStateM ε σ Unit
  | [] => pure ()
  | .enter (.text content) :: pending => do
    v.text content
    v.run pending
  | .enter (.echo elements) :: pending => do
    v.echo elements
    v.run pending
  | .enter (.loop header children) :: pending => do
    v.enter header children
    v.run (Visit.enterAll children ++ .leave header children :: pending)
  | .leave header children :: pending => do
    v.leave header children
    v.run pending
termination_by pending => Visit.totalWeight pending
decreasing_by
  · simp [Visit.totalWeight, Visit.weight, Node.visits]
  · simp [Visit.totalWeight, Visit.weight, Node.visits]
  · rw [Visit.totalWeight_enterAll_append]
    simp only [Visit.totalWeight, Visit.weight, Node.visits]
    omega
  · simp [Visit.totalWeight, Visit.weight]

/-- Visits nodes and everything below them, in order. -/
def walkNodes (v : Visitor ε σ) (nodes : List Node) : EStateM ε σ Unit :=
  v.run (Visit.enterAll nodes)

/-- Visits a node and everything below it. -/
def walkNode (v : Visitor ε σ) (node : Node) : EStateM ε σ Unit := v.walkNodes [node]

/-- Visits a document and everything in it. -/
def walkDocument (v : Visitor ε σ) (doc : Document) : EStateM ε σ Unit := do
  v.document doc
  v.walkNodes doc.children

end Visitor

/-- The state that a walk ends in, if it does not fail. -/
def finalState {ε σ : Type} (walk : EStateM ε σ Unit) (start : σ) : Except ε σ :=
  match walk.run start with
  | .ok _ state => .ok state
  | .error e _ => .error e

/-! ## Failures -/

/-- Why no text comes of a walk. -/
inductive WalkError where
  /-- There is no node to walk. -/
  | noNode
  /-- The visitor does not take nodes of this kind. -/
  | unsupportedNode
deriving DecidableEq, Repr

/-- A failure in words. -/
def WalkError.message : WalkError → String
  | noNode => "Codegen error: no node to render"
  | unsupportedNode => "Codegen error: unsupported node kind"

end TagTemplate
