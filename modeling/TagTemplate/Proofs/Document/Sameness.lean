import TagTemplate.Proofs.Document.Equality
import TagTemplate.Proofs.Number.Nearest

/-!
# Equality is structural

That equal documents are alike node by node leaves the question which elements are equal. They are
those of the same value (`Element.SameValue`): numbers of the binary format when both have a value
and the values agree, whatever their bits, and all other elements when they are the same. Values
agree as rational numbers do, so equality of elements, and with it that of headers, nodes and
documents, is symmetric and transitive. It is not reflexive, and the one reason is a number without
a value: a document is equal to itself if and only if there is none among its elements
(`Node.alike_self_iff`).
-/

namespace TagTemplate

/-! ## Numbers -/

namespace Binary64

/-- The number that a bit pattern stands for, with its sign; both zeros stand for zero. -/
def signedValue (x : Binary64) : ℚ :=
  if x.negative then -value x.magnitude else value x.magnitude

/-- Whether two bit patterns stand for the same number. What is not a number is the same as
nothing, itself included. -/
structure SameNumber (x y : Binary64) : Prop where
  /-- The one is a number. -/
  left : x.isNaN = false
  /-- The other is a number. -/
  right : y.isNaN = false
  /-- They are the same number. -/
  value : x.signedValue = y.signedValue

theorem SameNumber.symm {x y : Binary64} (h : x.SameNumber y) : y.SameNumber x :=
  ⟨h.right, h.left, h.value.symm⟩

theorem SameNumber.trans {x y z : Binary64} (hxy : x.SameNumber y) (hyz : y.SameNumber z) :
    x.SameNumber z :=
  ⟨hxy.left, hyz.right, hxy.value.trans hyz.value⟩

theorem sameNumber_self_iff {x : Binary64} : x.SameNumber x ↔ x.isNaN = false :=
  ⟨SameNumber.left, fun h ↦ ⟨h, h, rfl⟩⟩

theorem value_nonneg (m : ℕ) : 0 ≤ value m := by
  unfold value
  positivity

theorem value_eq_zero_iff {m : ℕ} : value m = 0 ↔ m = 0 := by
  rw [← value_zero, strictMono_value.injective.eq_iff]

/-- Only the zeros stand for the same number with different bits. -/
theorem signedValue_eq_iff {x y : Binary64} :
    x.signedValue = y.signedValue ↔ x = y ∨ x.magnitude = 0 ∧ y.magnitude = 0 := by
  constructor
  · intro h
    have hx := value_nonneg x.magnitude
    have hy := value_nonneg y.magnitude
    rw [← value_eq_zero_iff, ← value_eq_zero_iff (m := y.magnitude)]
    by_cases hsign : x.negative = y.negative
    · left
      rw [signedValue, signedValue, hsign] at h
      refine Binary64.ext hsign (strictMono_value.injective ?_)
      split at h
      · exact neg_inj.mp h
      · exact h
    · -- A number that is neither negative nor positive.
      right
      rw [signedValue, signedValue, Bool.eq_not_of_ne hsign] at h
      cases hneg : y.negative <;> simp only [hneg, Bool.not_false, Bool.not_true, if_true,
        Bool.false_eq_true, if_false] at h
      · exact ⟨by linarith, by linarith⟩
      · exact ⟨by linarith, by linarith⟩
  · rintro (rfl | ⟨hx, hy⟩)
    · rfl
    · rw [signedValue, signedValue, hx, hy, value_zero, neg_zero, ite_self, ite_self]

theorem equal_iff {x y : Binary64} : x.equal y = true ↔ x.SameNumber y := by
  rw [equal, Bool.and_eq_true, Bool.not_eq_true', Bool.or_eq_true, Bool.and_eq_true, beq_iff_eq,
    beq_iff_eq, beq_iff_eq, ← signedValue_eq_iff]
  constructor
  · rintro ⟨hx, hvalue⟩
    refine ⟨hx, ?_, hvalue⟩
    rcases signedValue_eq_iff.mp hvalue with rfl | ⟨-, hzero⟩
    · exact hx
    · rw [isNaN, hzero]
      decide
  · exact fun h ↦ ⟨h.left, h.value⟩

end Binary64

/-! ## Elements -/

namespace Element

/-- Whether two elements are of the same kind and value. -/
inductive SameValue : Element → Element → Prop
  | double {x y : Binary64} : x.SameNumber y → SameValue (.double x) (.double y)
  | other {e : Element} : (∀ x, e ≠ .double x) → SameValue e e

theorem equal_iff {e f : Element} : e.equal f = true ↔ e.SameValue f := by
  constructor
  · intro h
    cases e with
    | double x =>
      cases f with
      | double y => exact .double (Binary64.equal_iff.mp h)
      | _ => contradiction
    | _ =>
      obtain rfl := beq_iff_eq.mp h
      exact .other (by rintro x ⟨⟩)
  · rintro (hxy | hne)
    · exact Binary64.equal_iff.mpr hxy
    · rw [equal]
      · exact beq_self_eq_true e
      · exact fun x _ hx _ ↦ hne x hx

theorem SameValue.symm {e f : Element} (h : e.SameValue f) : f.SameValue e := by
  cases h with
  | double hxy => exact .double hxy.symm
  | other hne => exact .other hne

theorem SameValue.trans {e f g : Element} (hef : e.SameValue f) (hfg : f.SameValue g) :
    e.SameValue g := by
  cases hef with
  | double hxy =>
    cases hfg with
    | double hyz => exact .double (hxy.trans hyz)
    | other hne => exact .double hxy
  | other hne => exact hfg

/-- Whether an element is a number of the binary format that is not a number. -/
def isNaN : Element → Bool
  | double x => x.isNaN
  | _ => false

theorem equal_self_iff {e : Element} : e.equal e = true ↔ e.isNaN = false := by
  cases e with
  | double x => exact Binary64.equal_iff.trans Binary64.sameNumber_self_iff
  | _ => exact iff_of_true (beq_self_eq_true _) rfl

theorem allEqual_self_iff {es : List Element} : AllEqual es es ↔ ∀ e ∈ es, e.isNaN = false := by
  rw [AllEqual, List.forall₂_same]
  exact forall₂_congr fun _ _ ↦ equal_self_iff

theorem AllEqual.symm {es fs : List Element} (h : AllEqual es fs) : AllEqual fs es :=
  h.flip.imp fun _ _ hef ↦ equal_iff.mpr (equal_iff.mp hef).symm

theorem AllEqual.trans {es fs gs : List Element} (hef : AllEqual es fs) (hfg : AllEqual fs gs) :
    AllEqual es gs := by
  induction hef generalizing gs with
  | nil => exact hfg
  | cons hequal _ ih =>
    cases hfg with
    | cons hequal' hfg =>
      exact .cons (equal_iff.mpr ((equal_iff.mp hequal).trans (equal_iff.mp hequal'))) (ih hfg)

end Element

/-! ## Headers -/

namespace LoopHeader

theorem equal_iff_sameValue {h k : LoopHeader} : h.equal k = true ↔ h.counter = k.counter ∧
    h.start.SameValue k.start ∧ h.stop.SameValue k.stop ∧
      Option.Rel Element.SameValue h.step k.step := by
  obtain ⟨counter, start, stop, step⟩ := h
  obtain ⟨counter', start', stop', step'⟩ := k
  cases step <;> cases step' <;>
    simp [equal_iff, bounds, Element.equal_iff, Option.rel_none_none, Option.rel_some_some]

theorem equal_symm {h k : LoopHeader} (hequal : h.equal k = true) : k.equal h = true := by
  obtain ⟨hcounter, hbounds⟩ := equal_iff.mp hequal
  exact equal_iff.mpr ⟨hcounter.symm, hbounds.symm⟩

theorem equal_trans {h k l : LoopHeader} (hk : h.equal k = true) (hl : k.equal l = true) :
    h.equal l = true := by
  obtain ⟨hcounter, hbounds⟩ := equal_iff.mp hk
  obtain ⟨hcounter', hbounds'⟩ := equal_iff.mp hl
  exact equal_iff.mpr ⟨hcounter.trans hcounter', hbounds.trans hbounds'⟩

end LoopHeader

/-! ## Nodes -/

namespace Node

theorem Alike.symm {as bs : List Node} (h : Alike as bs) : Alike bs as := by
  induction h with
  | nil => exact .nil
  | text _ ih => exact .text ih
  | echo hequal _ ih => exact .echo hequal.symm ih
  | loop hheader _ _ ihchildren ih => exact .loop (LoopHeader.equal_symm hheader) ihchildren ih

theorem Alike.trans {as bs cs : List Node} (hab : Alike as bs) (hbc : Alike bs cs) :
    Alike as cs := by
  induction hab generalizing cs with
  | nil => exact hbc
  | text _ ih =>
    cases hbc with
    | text hbc => exact .text (ih hbc)
  | echo hequal _ ih =>
    cases hbc with
    | echo hequal' hbc => exact .echo (hequal.trans hequal') (ih hbc)
  | loop hheader _ _ ihchildren ih =>
    cases hbc with
    | loop hheader' hchildren hbc =>
      exact .loop (LoopHeader.equal_trans hheader hheader') (ihchildren hchildren) (ih hbc)

/-- The elements of nodes at every depth: those of echo tags, and the bounds in headers. -/
def elements : List Node → List Element
  | [] => []
  | .text _ :: nodes => elements nodes
  | .echo es :: nodes => es ++ elements nodes
  | .loop header children :: nodes => header.bounds ++ elements children ++ elements nodes

/-- Nodes are alike themselves unless there is an element among them that is not a number. -/
theorem alike_self_iff {nodes : List Node} :
    Alike nodes nodes ↔ ∀ e ∈ elements nodes, e.isNaN = false := by
  induction nodes using Node.induction with
  | nil => exact iff_of_true .nil (by simp [elements])
  | text content nodes ih => rw [alike_text_iff, ih, eq_self, true_and, elements]
  | echo es nodes ih =>
    rw [alike_echo_iff, ih, Element.allEqual_self_iff, elements, List.forall_mem_append]
  | loop header children nodes ihchildren ih =>
    rw [alike_loop_iff, ihchildren, ih, LoopHeader.equal_iff, Element.allEqual_self_iff, eq_self,
      true_and, elements, List.forall_mem_append, List.forall_mem_append]

end Node

/-! ## Documents -/

/-- **Equality is structural.** Two documents, of whatever depth and from wherever they come, are
equal if and only if their nodes are alike: of the same kinds in the same order and with the same
nesting, with the same texts, with equal elements one by one, and with equal headers. Headers are
equal when they count the same variable from and to bounds of the same value, in steps of the same
value or both without a step. Elements are equal when they are of the same kind and value, where
numbers of the binary format are compared as numbers: what is not a number differs from itself, and
the two zeros agree. Equality of documents is symmetric and transitive, and the documents equal to
themselves are those in which no element is without a value. -/
theorem equality_is_structural (d e f : Document) :
    (d.equal e = true ↔ Node.Alike d.children e.children) ∧
    (∀ h k : LoopHeader, h.equal k = true ↔ h.counter = k.counter ∧
      h.start.SameValue k.start ∧ h.stop.SameValue k.stop ∧
        Option.Rel Element.SameValue h.step k.step) ∧
    (∀ a b : Element, a.equal b = true ↔ a.SameValue b) ∧
    d.equal e = e.equal d ∧
    (d.equal e = true → e.equal f = true → d.equal f = true) ∧
    (d.equal d = true ↔ ∀ a ∈ Node.elements d.children, a.isNaN = false) := by
  refine ⟨Document.equal_iff, fun _ _ ↦ LoopHeader.equal_iff_sameValue,
    fun _ _ ↦ Element.equal_iff, ?_, fun hde hef ↦ ?_,
    Document.equal_iff.trans Node.alike_self_iff⟩
  · rw [Bool.eq_iff_iff, Document.equal_iff, Document.equal_iff]
    exact ⟨Node.Alike.symm, Node.Alike.symm⟩
  · rw [Document.equal_iff] at hde hef ⊢
    exact hde.trans hef

/-- The two zeros are equal, and what is not a number is not equal to itself. -/
example : Document.equal ⟨[.echo [.double (.ofBits 0)]]⟩
      ⟨[.echo [.double (.ofBits 0x8000000000000000)]]⟩ = true ∧
    Document.equal ⟨[.echo [.double (.ofBits 0x7ff8000000000000)]]⟩
      ⟨[.echo [.double (.ofBits 0x7ff8000000000000)]]⟩ = false := by
  decide

end TagTemplate
