import Mathlib.Data.List.Forall2
import TagTemplate.Document.Equality
import TagTemplate.Proofs.Document.Traversal

/-!
# Equal documents are alike node by node

Documents are compared with a list of pairs of loops that are still to be compared. What the
comparison decides is a relation on lists of nodes by their structure (`Node.Alike`), in which
nothing is put off. The two agree because putting a pair of loops on the list leaves open just what
the relation asks of the pair (`LoopPair.exists_defer?_iff`): at every step of the comparison the
answer is yes if and only if all pairs on the list are alike (`LoopPair.allEqual_iff`).
-/

namespace TagTemplate

/-! ## Elements and headers -/

/-- Whether elements are equal one by one. -/
abbrev Element.AllEqual (es fs : List Element) : Prop :=
  List.Forall₂ (fun e f ↦ e.equal f = true) es fs

theorem Element.equalLists_iff {es fs : List Element} :
    equalLists es fs = true ↔ AllEqual es fs := by
  induction es generalizing fs with
  | nil => cases fs <;> simp [equalLists]
  | cons e es ih => cases fs <;> simp [equalLists, ih]

theorem Element.AllEqual.forall {es fs : List Element} (h : AllEqual es fs) {p : Element → Prop}
    (hp : ∀ e f : Element, e.equal f = true → p e → p f) (hes : ∀ e ∈ es, p e) :
    ∀ f ∈ fs, p f := by
  induction h with
  | nil => exact hes
  | cons hequal _ ih =>
    rw [List.forall_mem_cons] at hes ⊢
    exact ⟨hp _ _ hequal hes.1, ih hes.2⟩

/-- Headers are equal when they count the same variable and their bounds are equal. -/
theorem LoopHeader.equal_iff {h k : LoopHeader} :
    h.equal k = true ↔ h.counter = k.counter ∧ Element.AllEqual h.bounds k.bounds := by
  obtain ⟨counter, start, stop, step⟩ := h
  obtain ⟨counter', start', stop', step'⟩ := k
  cases step <;> cases step' <;> simp [equal, bounds, and_assoc]

/-! ## Alike -/

/-- Whether nodes are alike: of the same kinds in the same order, and part by part with equal
texts, elements and headers. -/
inductive Node.Alike : List Node → List Node → Prop
  | nil : Alike [] []
  | text {content : String} {as bs : List Node} : Alike as bs →
    Alike (.text content :: as) (.text content :: bs)
  | echo {es fs : List Element} {as bs : List Node} : Element.AllEqual es fs →
    Alike as bs → Alike (.echo es :: as) (.echo fs :: bs)
  | loop {h k : LoopHeader} {as bs cs ds : List Node} : h.equal k = true → Alike as bs →
    Alike cs ds → Alike (.loop h as :: cs) (.loop k bs :: ds)

namespace Node

theorem Alike.length_eq {as bs : List Node} (h : Alike as bs) : as.length = bs.length := by
  induction h with
  | nil => rfl
  | text _ ih => rw [List.length_cons, List.length_cons, ih]
  | echo _ _ ih => rw [List.length_cons, List.length_cons, ih]
  | loop _ _ _ _ ih => rw [List.length_cons, List.length_cons, ih]

theorem alike_text_iff {s t : String} {as bs : List Node} :
    Alike (.text s :: as) (.text t :: bs) ↔ s = t ∧ Alike as bs := by
  constructor
  · rintro ⟨⟩
    exact ⟨rfl, ‹_›⟩
  · rintro ⟨rfl, h⟩
    exact .text h

theorem alike_echo_iff {es fs : List Element} {as bs : List Node} :
    Alike (.echo es :: as) (.echo fs :: bs) ↔ Element.AllEqual es fs ∧ Alike as bs := by
  constructor
  · rintro ⟨⟩
    exact ⟨‹_›, ‹_›⟩
  · rintro ⟨hequal, h⟩
    exact .echo hequal h

theorem alike_loop_iff {h k : LoopHeader} {as bs cs ds : List Node} :
    Alike (.loop h as :: cs) (.loop k bs :: ds) ↔
      (h.equal k = true ∧ Alike as bs) ∧ Alike cs ds := by
  constructor
  · rintro ⟨⟩
    exact ⟨⟨‹_›, ‹_›⟩, ‹_›⟩
  · rintro ⟨⟨hheader, hchildren⟩, h⟩
    exact .loop hheader hchildren h

end Node

/-! ## The comparison -/

/-- Whether two loops are alike. -/
structure LoopPair.Alike (pair : LoopPair) : Prop where
  /-- Their headers are equal. -/
  header : pair.left.equal pair.right = true
  /-- Their children are alike. -/
  children : Node.Alike pair.leftChildren pair.rightChildren

namespace LoopPair

/-- Nodes are alike if none of them is found to be different and the loops among them, which are put
on the list, turn out to be alike. -/
theorem exists_defer?_iff {as bs : List Node} (hlength : as.length = bs.length)
    (pending : List LoopPair) :
    (∃ after, defer? pending (as.zip bs) = some after ∧ ∀ pair ∈ after, pair.Alike) ↔
      Node.Alike as bs ∧ ∀ pair ∈ pending, pair.Alike := by
  induction as generalizing bs pending with
  | nil =>
    obtain rfl := List.eq_nil_of_length_eq_zero hlength.symm
    simp [defer?, Node.Alike.nil]
  | cons a as ih =>
    obtain ⟨b, bs, rfl⟩ := List.exists_cons_of_length_eq_add_one hlength.symm
    have ih := ih (Nat.succ.inj hlength)
    rw [List.zip_cons_cons]
    cases a with
    | text s =>
      cases b with
      | text t =>
        rw [defer?, Node.alike_text_iff, and_assoc, ← ih]
        by_cases hequal : s = t <;> simp [hequal]
      | _ => exact iff_of_false (by simp [defer?]) (by rintro ⟨⟨⟩, -⟩)
    | echo es =>
      cases b with
      | echo fs =>
        rw [defer?, Node.alike_echo_iff, ← Element.equalLists_iff, and_assoc, ← ih]
        by_cases hequal : Element.equalLists es fs = true <;> simp [hequal]
      | _ => exact iff_of_false (by simp [defer?]) (by rintro ⟨⟨⟩, -⟩)
    | loop h cs =>
      cases b with
      | loop k ds =>
        rw [defer?, Node.alike_loop_iff, ih, List.forall_mem_cons, and_left_comm, ← and_assoc]
        exact and_congr_left' (and_congr_left' ⟨fun h ↦ ⟨h.header, h.children⟩,
          fun h ↦ ⟨h.1, h.2⟩⟩)
      | _ => exact iff_of_false (by simp [defer?]) (by rintro ⟨⟨⟩, -⟩)

theorem sameFrame_iff {pair : LoopPair} : pair.sameFrame = true ↔
    pair.left.equal pair.right = true ∧ pair.leftChildren.length = pair.rightChildren.length := by
  rw [sameFrame, Bool.and_eq_true, beq_iff_eq]

theorem Alike.sameFrame {pair : LoopPair} (h : pair.Alike) : pair.sameFrame = true :=
  sameFrame_iff.mpr ⟨h.header, h.children.length_eq⟩

/-- One step of the comparison leaves its answer as it is. -/
theorem forall_alike_cons_iff {pair : LoopPair} (hframe : pair.sameFrame = true)
    (pending : List LoopPair) :
    (∀ other ∈ pair :: pending, other.Alike) ↔
      ∃ after, defer? pending (pair.leftChildren.zip pair.rightChildren) = some after ∧
        ∀ other ∈ after, other.Alike := by
  obtain ⟨hheader, hlength⟩ := sameFrame_iff.mp hframe
  rw [exists_defer?_iff hlength, List.forall_mem_cons]
  exact and_congr_left' ⟨Alike.children, fun hchildren ↦ ⟨hheader, hchildren⟩⟩

theorem allEqual_iff (pending : List LoopPair) :
    allEqual pending = true ↔ ∀ pair ∈ pending, pair.Alike := by
  fun_induction allEqual pending with
  | case1 => simp
  | case2 pair pending hframe hdefer =>
    rw [forall_alike_cons_iff hframe, hdefer]
    simp
  | case3 pair pending hframe after hdefer ih =>
    rw [forall_alike_cons_iff hframe, hdefer, ih]
    simp
  | case4 pair pending hframe =>
    exact iff_of_false Bool.false_ne_true fun h ↦ hframe (h pair List.mem_cons_self).sameFrame

end LoopPair

/-! ## Nodes and documents -/

theorem Node.isEqv_iff {as bs : List Node} : as.isEqv bs equal = true ↔ Alike as bs := by
  induction as generalizing bs with
  | nil =>
    cases bs with
    | nil => exact iff_of_true rfl .nil
    | cons b bs => exact iff_of_false Bool.false_ne_true (by rintro ⟨⟩)
  | cons a as ih =>
    cases bs with
    | nil => exact iff_of_false Bool.false_ne_true (by rintro ⟨⟩)
    | cons b bs =>
      rw [List.isEqv, Bool.and_eq_true, ih]
      cases a with
      | text s =>
        cases b with
        | text t => rw [equal, beq_iff_eq, alike_text_iff]
        | _ => exact iff_of_false (by simp [equal]) (by rintro ⟨⟩)
      | echo es =>
        cases b with
        | echo fs => rw [equal, Element.equalLists_iff, alike_echo_iff]
        | _ => exact iff_of_false (by simp [equal]) (by rintro ⟨⟩)
      | loop h cs =>
        cases b with
        | loop k ds =>
          rw [equal, LoopPair.allEqual_iff, alike_loop_iff, List.forall_mem_singleton]
          exact and_congr_left' ⟨fun h ↦ ⟨h.header, h.children⟩, fun h ↦ ⟨h.1, h.2⟩⟩
        | _ => exact iff_of_false (by simp [equal]) (by rintro ⟨⟩)

/-- **Equal documents.** Documents are equal when their nodes are alike. -/
theorem Document.equal_iff {d e : Document} :
    d.equal e = true ↔ Node.Alike d.children e.children := Node.isEqv_iff

end TagTemplate
