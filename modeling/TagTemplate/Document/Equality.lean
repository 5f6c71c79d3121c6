import TagTemplate.Document.Walk

/-!
# Equal documents

Two documents are equal when they have the same shape and, part by part, equal texts, elements and
headers, numbers of the binary format being compared as numbers. Texts and echo tags are compared
where they stand. Loops are not: the comparison keeps a list of the pairs of loops that are still to
be compared, and the loops among the children of a pair go onto that list, so deep documents need no
deep recursion. It ends because the loops on the list get lighter (`LoopPair.totalWeight`).
-/

namespace TagTemplate

/-- Whether two headers have the same counter and equal bounds, and both a step or neither. -/
def LoopHeader.equal (h k : LoopHeader) : Bool :=
  h.counter == k.counter && h.start.equal k.start && h.stop.equal k.stop &&
    match h.step, k.step with
    | none, none => true
    | some e, some f => e.equal f
    | _, _ => false

/-! ## Pairs of loops -/

theorem Node.visitsAll_map_fst_zip_le (as bs : List Node) :
    visitsAll ((as.zip bs).map Prod.fst) ≤ visitsAll as := by
  induction as generalizing bs with
  | nil => exact Nat.le_refl _
  | cons a as ih =>
    cases bs with
    | nil => exact Nat.zero_le _
    | cons b bs => exact Nat.add_le_add_left (ih bs) _

/-- Two loops that are still to be compared. -/
structure LoopPair where
  /-- The header of the one. -/
  left : LoopHeader
  /-- The children of the one. -/
  leftChildren : List Node
  /-- The header of the other. -/
  right : LoopHeader
  /-- The children of the other. -/
  rightChildren : List Node

namespace LoopPair

/-- Whether the loops agree in all but their children: in their headers, and in how many children
they have. -/
def sameFrame (pair : LoopPair) : Bool :=
  pair.left.equal pair.right && pair.leftChildren.length == pair.rightChildren.length

/-- Compares the nodes of each pair, except that pairs of loops are put on the list of those that
are still to be compared, the latest first. -/
def defer? (pending : List LoopPair) : List (Node × Node) → Option (List LoopPair)
  | [] => some pending
  | (.loop h as, .loop k bs) :: pairs => defer? (⟨h, as, k, bs⟩ :: pending) pairs
  | (.text s, .text t) :: pairs => if s = t then defer? pending pairs else none
  | (.echo es, .echo fs) :: pairs => if Element.equalLists es fs then defer? pending pairs else none
  | _ :: _ => none

/-- How many visits the left loops call for. -/
def totalWeight : List LoopPair → Nat
  | [] => 0
  | pair :: pending => (Node.loop pair.left pair.leftChildren).visits + totalWeight pending

/-- The loops that are put on the list weigh no more than the nodes that they are among. -/
theorem totalWeight_of_defer? {pending after : List LoopPair} {pairs : List (Node × Node)}
    (h : defer? pending pairs = some after) :
    totalWeight after ≤ Node.visitsAll (pairs.map Prod.fst) + totalWeight pending := by
  fun_induction defer? pending pairs with
  | case1 pending =>
    rw [Option.some_inj.mp h]
    exact Nat.le_add_left _ _
  | case2 pending header as header' bs pairs ih =>
    have := ih h
    simp only [totalWeight, List.map_cons, Node.visitsAll] at this ⊢
    omega
  | case3 pending pairs s ih | case5 pending es fs pairs hequal ih =>
    exact Nat.le_trans (ih h) (Nat.add_le_add_right (Nat.le_add_left _ _) _)
  | case4 | case6 | case7 => contradiction

/-- Whether the two loops of every pair are equal. -/
def allEqual : List LoopPair → Bool
  | [] => true
  | pair :: pending =>
    if pair.sameFrame then
      match _hdefer : defer? pending (pair.leftChildren.zip pair.rightChildren) with
      | none => false
      | some after => allEqual after
    else false
termination_by pending => totalWeight pending
decreasing_by
  have hafter := totalWeight_of_defer? ‹_›
  have hzip := Node.visitsAll_map_fst_zip_le pair.leftChildren pair.rightChildren
  simp only [totalWeight, Node.visits]
  omega

end LoopPair

/-! ## Nodes and documents -/

/-- Whether two nodes are equal. -/
def Node.equal : Node → Node → Bool
  | .text s, .text t => s == t
  | .echo es, .echo fs => Element.equalLists es fs
  | .loop h as, .loop k bs => LoopPair.allEqual [⟨h, as, k, bs⟩]
  | _, _ => false

/-- Whether two documents are equal. -/
def Document.equal (d e : Document) : Bool := d.children.isEqv e.children Node.equal

end TagTemplate
