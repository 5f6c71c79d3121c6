import TagTemplate.Element

/-!
# Documents

A document is a list of nodes: text, echo tags with their elements, and loops, which hold nodes of
their own. A loop has a header, the variable that it counts and the elements where it starts and
stops, with or without a step. Nothing here asks that a document could have been read from a
template: a name may be any text, an echo may be empty, and texts may stand side by side.
-/

namespace TagTemplate

/-- What stands at the top of a loop. -/
structure LoopHeader where
  /-- The name of the variable that the loop counts. -/
  counter : String
  /-- Where it starts. -/
  start : Element
  /-- Where it stops. -/
  stop : Element
  /-- By how much it is counted up, if that is given. -/
  step : Option Element
deriving DecidableEq, Repr

namespace LoopHeader

/-- Start, stop and, if there is one, step. -/
def bounds (header : LoopHeader) : List Element :=
  header.start :: header.stop :: header.step.toList

end LoopHeader

/-- A part of a document. -/
inductive Node where
  /-- Text, as it is meant. -/
  | text (content : String)
  /-- A tag that shows the values of its elements. -/
  | echo (elements : List Element)
  /-- A loop and what it repeats. -/
  | loop (header : LoopHeader) (children : List Node)
deriving Inhabited, Repr

mutual

/-- Whether two parts are the same, with the same bits in every number. -/
def Node.decEq : (a b : Node) → Decidable (a = b)
  | .text s, .text t => decidable_of_iff (s = t) (by simp)
  | .echo es, .echo fs => decidable_of_iff (es = fs) (by simp)
  | .loop h children, .loop h' children' =>
    have := Node.decEqList children children'
    decidable_of_iff (h = h' ∧ children = children') (by simp)
  | .text _, .echo _ | .text _, .loop _ _ | .echo _, .text _ | .echo _, .loop _ _
  | .loop _ _, .text _ | .loop _ _, .echo _ => isFalse nofun

/-- Whether the parts on two lists are the same one by one. -/
def Node.decEqList : (as bs : List Node) → Decidable (as = bs)
  | [], [] => isTrue rfl
  | a :: as, b :: bs =>
    have := Node.decEq a b
    have := Node.decEqList as bs
    decidable_of_iff (a = b ∧ as = bs) (by simp)
  | [], _ :: _ | _ :: _, [] => isFalse nofun

end

instance : DecidableEq Node := Node.decEq

/-- A whole document. -/
structure Document where
  /-- The parts at the top level, in order. -/
  children : List Node
deriving DecidableEq, Inhabited, Repr

/-! ## Nodes by their place -/

/-- The node that a path leads to: the first index counts among the given nodes, each further one
among the children of the loop reached so far. The empty path leads to no node. -/
def Node.atPath? (nodes : List Node) : List Nat → Option Node
  | [] => none
  | [i] => nodes[i]?
  | i :: path =>
    match nodes[i]? with
    | some (.loop _ children) => atPath? children path
    | _ => none

end TagTemplate
