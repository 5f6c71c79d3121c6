import TagTemplate.Document.Trace
import TagTemplate.Proofs.Document.Traversal

/-!
# The visits of a walk

Which visits a walk makes, and in which order, is a matter of the nodes alone (`Node.visitOrder`).
The visitor only decides how far the walk gets: the walk is these visits one after the other
(`Visitor.walkNodes_eq_forM`), and so it fails exactly when one of them fails behind others that do
not, with the error and the state of that one (`run_forM_eq_error_iff`).

A recorder makes this visible. It notes the visits in their order, and what it has noted when it
refuses one is the beginning of what it notes when it refuses none (`Document.trace_some`).
-/

namespace TagTemplate

/-! ## One action after the other -/

section Actions

variable {ε σ α : Type} {f : α → EStateM ε σ Unit} {start middle stop : σ} {e : ε}

theorem run_forM_append_of_error {before behind : List α} {x : α}
    (hbefore : (forM before f).run start = .ok () middle)
    (hx : (f x).run middle = .error e stop) :
    (forM (before ++ x :: behind) f).run start = .error e stop := by
  rw [List.forM_append, EStateM.run_bind, hbefore]
  dsimp only
  rw [List.forM_cons, EStateM.run_bind, hx]

theorem exists_of_run_forM_eq_error {xs : List α} (h : (forM xs f).run start = .error e stop) :
    ∃ before x behind middle, xs = before ++ x :: behind ∧
      (forM before f).run start = .ok () middle ∧ (f x).run middle = .error e stop := by
  induction xs generalizing start with
  | nil => cases h
  | cons x xs ih =>
    rw [List.forM_cons, EStateM.run_bind] at h
    cases hx : (f x).run start with
    | error e' stop' =>
      rw [hx] at h
      exact ⟨[], x, xs, start, rfl, rfl, hx.trans h⟩
    | ok _ next =>
      rw [hx] at h
      obtain ⟨before, y, behind, middle, rfl, hbefore, hy⟩ := ih h
      refine ⟨x :: before, y, behind, middle, rfl, ?_, hy⟩
      rw [List.forM_cons, EStateM.run_bind, hx]
      exact hbefore

/-- Actions one after the other fail when one of them fails in the state that those before it end
in, and the ones behind it are not taken. -/
theorem run_forM_eq_error_iff {xs : List α} : (forM xs f).run start = .error e stop ↔
    ∃ before x behind middle, xs = before ++ x :: behind ∧
      (forM before f).run start = .ok () middle ∧ (f x).run middle = .error e stop := by
  refine ⟨exists_of_run_forM_eq_error, ?_⟩
  rintro ⟨before, x, behind, middle, rfl, hbefore, hx⟩
  exact run_forM_append_of_error hbefore hx

end Actions

/-! ## The visits that nodes call for -/

/-- The visits that nodes call for, in order: a loop is come to, then come its children, and then it
is left. -/
def Node.visitOrder : List Node → List Visit
  | [] => []
  | .text content :: nodes => .enter (.text content) :: visitOrder nodes
  | .echo elements :: nodes => .enter (.echo elements) :: visitOrder nodes
  | .loop header children :: nodes =>
    .enter (.loop header children) ::
      (visitOrder children ++ .leave header children :: visitOrder nodes)

namespace Visitor

variable {ε σ : Type} (v : Visitor ε σ)

/-- What a visitor does at a visit. -/
def visit : Visit → EStateM ε σ Unit
  | .enter (.text content) => v.text content
  | .enter (.echo elements) => v.echo elements
  | .enter (.loop header children) => v.enter header children
  | .leave header children => v.leave header children

theorem traverse_eq_forM (nodes : List Node) :
    v.traverse nodes = forM (Node.visitOrder nodes) v.visit := by
  induction nodes using Node.induction with
  | nil => rw [traverse, Node.visitOrder, List.forM_nil]
  | text content nodes ih =>
    rw [traverse, Node.visitOrder, List.forM_cons, ih]
    rfl
  | echo elements nodes ih =>
    rw [traverse, Node.visitOrder, List.forM_cons, ih]
    rfl
  | loop header children nodes ihchildren ih =>
    rw [traverse, Node.visitOrder, List.forM_cons, List.forM_append, List.forM_cons, ihchildren, ih]
    rfl

theorem walkNodes_eq_forM (nodes : List Node) :
    v.walkNodes nodes = forM (Node.visitOrder nodes) v.visit := by
  rw [walkNodes_eq_traverse, traverse_eq_forM]

end Visitor

/-! ## What a recorder notes -/

namespace VisitEvent

/-- What is noted of a visit. -/
def ofVisit : Visit → VisitEvent
  | .enter (.text content) => text content
  | .enter (.echo elements) => echo elements
  | .enter (.loop header _) => enter header
  | .leave header _ => leave header

theorem visit_recorder (refused : Option Nat) (visit : Visit) :
    (recorder refused).visit visit = record refused (ofVisit visit) := by
  rcases visit with (_ | _ | _) | _ <;> rfl

theorem walkNodes_recorder (refused : Option Nat) (nodes : List Node) :
    (recorder refused).walkNodes nodes
      = forM ((Node.visitOrder nodes).map ofVisit) (record refused) := by
  rw [Visitor.walkNodes_eq_forM, List.forM_map]
  congr 1
  funext visit
  exact visit_recorder refused visit

theorem run_record (refused : Option Nat) (event : VisitEvent) (done : Array VisitEvent) :
    (record refused event).run done =
      if some done.size = refused then .error .unsupportedNode done
      else .ok () (done.push event) := by
  unfold record
  split
  · simp [EStateM.run_bind, *]
  · simp [EStateM.run_bind, *]

theorem run_forM_record_none (events : List VisitEvent) (done : Array VisitEvent) :
    (forM events (record none)).run done = .ok () (done ++ events) := by
  induction events generalizing done with
  | nil => simp
  | cons event events ih =>
    rw [List.forM_cons, EStateM.run_bind, run_record, if_neg (Option.some_ne_none _)]
    exact ih (done.push event)

/-- Where a visit is refused when `more` others have been noted, these are noted and no others. -/
theorem run_forM_record_some (more : Nat) (events : List VisitEvent) (done : Array VisitEvent) :
    (forM events (record (some (done.size + more)))).run done =
      if more < events.length then .error .unsupportedNode (done ++ events.take more)
      else .ok () (done ++ events) := by
  induction events generalizing done more with
  | nil => simp
  | cons event events ih =>
    rw [List.forM_cons, EStateM.run_bind, run_record]
    cases more with
    | zero => simp
    | succ more =>
      have hsize : done.size + (more + 1) = (done.push event).size + more := by
        rw [Array.size_push, Nat.add_right_comm, Nat.add_assoc]
      rw [if_neg (by simp)]
      dsimp only
      rw [hsize, ih, List.length_cons, List.take_succ_cons]
      simp only [Nat.add_lt_add_iff_right]
      rfl

end VisitEvent

/-- The visits to a part of a document as they are noted, if there is such a part. -/
def WalkScope.events? (doc : Document) : WalkScope → Option (List VisitEvent)
  | wholeDocument => some
    (.document doc.children.length :: (Node.visitOrder doc.children).map .ofVisit)
  | topLevel => some ((Node.visitOrder doc.children).map .ofVisit)
  | nodeAt path => (Node.atPath? doc.children path).map fun node ↦
    (Node.visitOrder [node]).map .ofVisit

namespace Document

open VisitEvent

variable {doc : Document} {scope : WalkScope} {refused : Option Nat}

theorem trace_of_events?_eq_none (h : scope.events? doc = none) :
    doc.trace scope refused = (#[], .error .noNode) := by
  cases scope with
  | wholeDocument => cases h
  | topLevel => cases h
  | nodeAt path =>
    rw [WalkScope.events?, Option.map_eq_none_iff] at h
    rw [trace]
    simp only [h]
    rfl

theorem trace_of_events?_eq_some {events : List VisitEvent} (h : scope.events? doc = some events) :
    doc.trace scope refused = match (forM events (record refused)).run #[] with
      | .ok _ noted => (noted, .ok ())
      | .error e noted => (noted, .error e) := by
  cases scope with
  | wholeDocument =>
    cases h
    rw [trace]
    rw [Visitor.walkDocument, walkNodes_recorder, List.forM_cons]
    rfl
  | topLevel =>
    cases h
    rw [trace]
    rw [walkNodes_recorder]
    rfl
  | nodeAt path =>
    rw [WalkScope.events?, Option.map_eq_some_iff] at h
    obtain ⟨node, hnode, rfl⟩ := h
    rw [trace]
    simp only [hnode]
    rw [Visitor.walkNode, walkNodes_recorder]
    rfl

theorem trace_none {events : List VisitEvent} (h : scope.events? doc = some events) :
    doc.trace scope none = (events.toArray, .ok ()) := by
  rw [trace_of_events?_eq_some h, run_forM_record_none]
  simp

theorem trace_some (doc : Document) (scope : WalkScope) (n : Nat) :
    doc.trace scope (some n) = ((doc.trace scope none).1.take n,
      if n < (doc.trace scope none).1.size then .error .unsupportedNode
      else (doc.trace scope none).2) := by
  cases hevents : scope.events? doc with
  | none =>
    rw [trace_of_events?_eq_none hevents, trace_of_events?_eq_none hevents]
    simp
  | some events =>
    have hrun := run_forM_record_some n events #[]
    rw [List.size_toArray, List.length_nil, Nat.zero_add] at hrun
    rw [trace_none hevents, trace_of_events?_eq_some hevents, hrun]
    by_cases hn : n < events.length
    · simp [hn]
    · simp [hn, List.take_of_length_le (Nat.le_of_not_lt hn)]

end Document

/-- **Walks.** Whatever the visitor does and wherever it fails, a walk of nodes is the recursion
over them, a walk of a document is the visit to it and then the recursion over its nodes, and a walk
of a node is the recursion over that one. The recursion makes the visits that nodes call for, one
after the other, and it fails if one of them fails in the state that those before it end in, with
the error and the state of that one. So what a recorder has noted when it refuses a visit is the
beginning of what it notes when it refuses none, and of a document that is all of it in order. -/
theorem walks_are_recursive :
    (∀ {ε σ : Type} (v : Visitor ε σ),
      (∀ nodes, v.walkNodes nodes = v.traverse nodes) ∧
      (∀ doc, v.walkDocument doc = (do v.document doc; v.traverse doc.children)) ∧
      (∀ node, v.walkNode node = v.traverse [node]) ∧
      (∀ nodes, v.traverse nodes = forM (Node.visitOrder nodes) v.visit) ∧
      ∀ nodes start e stop, (v.traverse nodes).run start = .error e stop ↔
        ∃ before visit behind middle, Node.visitOrder nodes = before ++ visit :: behind ∧
          (forM before v.visit).run start = .ok () middle ∧
          (v.visit visit).run middle = .error e stop) ∧
    (∀ doc scope n, Document.trace doc scope (some n) =
      ((doc.trace scope none).1.take n,
        if n < (doc.trace scope none).1.size then .error .unsupportedNode
        else (doc.trace scope none).2)) ∧
    ∀ doc, Document.trace doc .wholeDocument none =
      ((.document doc.children.length ::
        (Node.visitOrder doc.children).map VisitEvent.ofVisit).toArray, .ok ()) := by
  refine ⟨fun v ↦ ⟨v.walkNodes_eq_traverse, fun doc ↦ ?_, fun node ↦ ?_, v.traverse_eq_forM,
    fun nodes start e stop ↦ ?_⟩, Document.trace_some, fun doc ↦ Document.trace_none rfl⟩
  · rw [Visitor.walkDocument, v.walkNodes_eq_traverse]
  · rw [Visitor.walkNode, v.walkNodes_eq_traverse]
  · rw [v.traverse_eq_forM, run_forM_eq_error_iff]

/-- A loop with two children, the second of which is refused. -/
example : Document.trace ⟨[.loop ⟨"i", .integer 1, .integer 2, none⟩ [.text "a", .text "b"]]⟩
    .topLevel (some 2) =
      (#[.enter ⟨"i", .integer 1, .integer 2, none⟩, .text "a"], .error .unsupportedNode) := by
  cbv

end TagTemplate
