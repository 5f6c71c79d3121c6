import TagTemplate.Document.Walk

/-!
# Walks are recursive

The walk of a document keeps a list of visits, so that deep documents need no deep recursion. To
say what comes of a walk the recursion is what one wants: visit the first node, its children before
it is left, and then the nodes after it. `Visitor.traverse` is that recursion. The walk does the
same, whatever the visitor does and wherever it fails (`Visitor.run_enterAll_append`), and so what
is proved of the recursion by induction over nodes (`Node.induction`) holds of the walk.
-/

namespace TagTemplate

/-- Induction over a list of nodes and the children of the loops in it. -/
@[elab_as_elim]
theorem Node.induction {motive : List Node → Prop} (nil : motive [])
    (text : ∀ content nodes, motive nodes → motive (.text content :: nodes))
    (echo : ∀ elements nodes, motive nodes → motive (.echo elements :: nodes))
    (loop : ∀ header children nodes, motive children → motive nodes →
      motive (.loop header children :: nodes)) : ∀ nodes, motive nodes
  | [] => nil
  | .text content :: nodes => text content nodes (Node.induction nil text echo loop nodes)
  | .echo elements :: nodes => echo elements nodes (Node.induction nil text echo loop nodes)
  | .loop header children :: nodes =>
    loop header children nodes (Node.induction nil text echo loop children)
      (Node.induction nil text echo loop nodes)

namespace Visitor

variable {ε σ : Type} (v : Visitor ε σ)

/-- Visits nodes and everything below them, in order and up to the first failure. -/
def traverse : List Node → EStateM ε σ Unit
  | [] => pure ()
  | .text content :: nodes => do
    v.text content
    traverse nodes
  | .echo elements :: nodes => do
    v.echo elements
    traverse nodes
  | .loop header children :: nodes => do
    v.enter header children
    traverse children
    v.leave header children
    traverse nodes

/-- The visits that come first are made as the recursion makes them. -/
theorem run_enterAll_append (nodes : List Node) (pending : List Visit) :
    v.run (Visit.enterAll nodes ++ pending) = (do v.traverse nodes; v.run pending) := by
  induction nodes using Node.induction generalizing pending with
  | nil => rw [traverse, pure_bind]; rfl
  | text content nodes ih =>
    rw [traverse, bind_assoc, ← ih, Visit.enterAll, List.map_cons, List.cons_append, run]
    rfl
  | echo elements nodes ih =>
    rw [traverse, bind_assoc, ← ih, Visit.enterAll, List.map_cons, List.cons_append, run]
    rfl
  | loop header children nodes ihchildren ih =>
    rw [traverse, Visit.enterAll, List.map_cons, List.cons_append, run, ihchildren]
    simp only [bind_assoc, run]
    rw [← Visit.enterAll, ih]

/-- **Walks.** A walk of nodes is the recursion over them. -/
theorem walkNodes_eq_traverse (nodes : List Node) : v.walkNodes nodes = v.traverse nodes := by
  have h := v.run_enterAll_append nodes []
  rw [List.append_nil, run] at h
  rw [walkNodes, h]
  exact bind_pure_unit

end Visitor

end TagTemplate
