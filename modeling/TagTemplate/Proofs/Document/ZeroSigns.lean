import TagTemplate.Proofs.Document.Rendering

/-!
# What equal documents are written as

Documents are read back from what they are written as with all their bits, so documents that are
written as one text are the same (`Document.WellFormed.render_eq_iff`). Equality is coarser than
that, but only by the signs of zeros. A document is equal to what becomes of it when every negative
zero in it is made the positive one (`Document.dropZeroSigns`), provided that its numbers are
numbers, and equal documents become the same one. So two documents are equal if and only if they are
written as one text without the signs of zeros (`Document.WellFormed.equal_iff_render_eq`).

Where the signs of zeros can be seen is said by the fragments that a document is written as
(`Document.fragments`). Each element is a fragment of its own, and what stands around the elements
depends on no number. Fragments that differ but are the same without the signs of zeros are zeros
(`Fragment.dropZeroSign_eq_iff`).
-/

namespace TagTemplate

/-! ## Zeros -/

namespace Binary64

/-- The zero with the given sign. -/
def zero (negative : Bool) : Binary64 := ⟨negative, 0, Nat.zero_lt_of_lt infinity_lt_signPlace⟩

/-- A number, but the positive zero for the negative one. -/
def dropZeroSign (x : Binary64) : Binary64 := if x = zero true then zero false else x

theorem eq_zero_of_magnitude {x : Binary64} (h : x.magnitude = 0) : x = zero x.negative :=
  Binary64.ext rfl h

theorem dropZeroSign_zero (negative : Bool) : (zero negative).dropZeroSign = zero false := by
  cases negative <;> rfl

theorem dropZeroSign_eq_iff {x y : Binary64} :
    x.dropZeroSign = y.dropZeroSign ↔ x = y ∨ ∃ m n, x = zero m ∧ y = zero n := by
  constructor
  · intro h
    rw [dropZeroSign, dropZeroSign] at h
    split at h
    · next hx =>
      split at h
      · next hy => exact .inr ⟨true, true, hx, hy⟩
      · exact .inr ⟨true, false, hx, h.symm⟩
    · split at h
      · next hy => exact .inr ⟨false, true, h, hy⟩
      · exact .inl h
  · rintro (rfl | ⟨m, n, rfl, rfl⟩)
    · rfl
    · rw [dropZeroSign_zero, dropZeroSign_zero]

/-- Where there is a number, the comparison of the format does without the signs of zeros. -/
theorem equal_iff_dropZeroSign {x y : Binary64} (hx : x.isNaN = false) :
    x.equal y = true ↔ x.dropZeroSign = y.dropZeroSign := by
  rw [equal, hx, Bool.not_false, Bool.true_and, Bool.or_eq_true, Bool.and_eq_true, beq_iff_eq,
    beq_iff_eq, beq_iff_eq, dropZeroSign_eq_iff]
  refine or_congr_right ⟨?_, ?_⟩
  · rintro ⟨hx, hy⟩
    exact ⟨_, _, eq_zero_of_magnitude hx, eq_zero_of_magnitude hy⟩
  · rintro ⟨m, n, rfl, rfl⟩
    exact ⟨rfl, rfl⟩

theorem dropZeroSign_dropZeroSign (x : Binary64) :
    x.dropZeroSign.dropZeroSign = x.dropZeroSign := by
  rw [dropZeroSign_eq_iff]
  by_cases h : x = zero true
  · exact .inr ⟨false, true, if_pos h, h⟩
  · exact .inl (if_neg h)

end Binary64

/-! ## Documents without the signs of zeros -/

namespace Element

/-- An element without the sign of a zero. -/
def dropZeroSign : Element → Element
  | double x => double x.dropZeroSign
  | e => e

theorem equal_dropZeroSign {e : Element} (h : e.isNaN = false) : e.equal e.dropZeroSign = true := by
  cases e with
  | double x =>
    exact (Binary64.equal_iff_dropZeroSign h).mpr x.dropZeroSign_dropZeroSign.symm
  | _ => exact beq_self_eq_true _

theorem dropZeroSign_eq_of_equal {e f : Element} (h : e.equal f = true) :
    e.dropZeroSign = f.dropZeroSign := by
  cases equal_iff.mp h with
  | double hxy =>
    have hequal := Binary64.equal_iff.mpr hxy
    exact congrArg double ((Binary64.equal_iff_dropZeroSign hxy.left).mp hequal)
  | other _ => rfl

theorem dropZeroSign_eq_iff {e f : Element} : e.dropZeroSign = f.dropZeroSign ↔
    e = f ∨ ∃ m n, e = double (.zero m) ∧ f = double (.zero n) := by
  constructor
  · intro h
    cases e with
    | double x =>
      cases f with
      | double y =>
        rcases Binary64.dropZeroSign_eq_iff.mp (double.inj h) with rfl | ⟨m, n, rfl, rfl⟩
        · exact .inl rfl
        · exact .inr ⟨m, n, rfl, rfl⟩
      | _ => cases h
    | _ =>
      cases f with
      | double y => cases h
      | _ => exact .inl h
  · rintro (rfl | ⟨m, n, rfl, rfl⟩)
    · rfl
    · exact congrArg double (Binary64.dropZeroSign_eq_iff.mpr (.inr ⟨m, n, rfl, rfl⟩))

theorem allEqual_dropZeroSign {es : List Element} (h : ∀ e ∈ es, e.isNaN = false) :
    AllEqual es (es.map dropZeroSign) := by
  rw [AllEqual, List.forall₂_map_right_iff, List.forall₂_same]
  exact fun e he ↦ equal_dropZeroSign (h e he)

theorem AllEqual.map_dropZeroSign_eq {es fs : List Element} (h : AllEqual es fs) :
    es.map dropZeroSign = fs.map dropZeroSign := by
  induction h with
  | nil => rfl
  | cons hequal _ ih => rw [List.map_cons, List.map_cons, dropZeroSign_eq_of_equal hequal, ih]

end Element

namespace LoopHeader

/-- A header without the signs of zeros. -/
def dropZeroSigns (header : LoopHeader) : LoopHeader where
  counter := header.counter
  start := header.start.dropZeroSign
  stop := header.stop.dropZeroSign
  step := header.step.map Element.dropZeroSign

theorem bounds_dropZeroSigns (header : LoopHeader) :
    header.dropZeroSigns.bounds = header.bounds.map Element.dropZeroSign := by
  obtain ⟨counter, start, stop, step⟩ := header
  cases step <;> rfl

theorem ext_bounds {h k : LoopHeader} (hcounter : h.counter = k.counter)
    (hbounds : h.bounds = k.bounds) : h = k := by
  refine elements_inj ?_
  rw [elements, elements, hcounter, hbounds]

theorem equal_dropZeroSigns {header : LoopHeader} (h : ∀ e ∈ header.bounds, e.isNaN = false) :
    header.equal header.dropZeroSigns = true := by
  rw [equal_iff, bounds_dropZeroSigns]
  exact ⟨rfl, Element.allEqual_dropZeroSign h⟩

theorem dropZeroSigns_eq_of_equal {h k : LoopHeader} (hequal : h.equal k = true) :
    h.dropZeroSigns = k.dropZeroSigns := by
  obtain ⟨hcounter, hbounds⟩ := equal_iff.mp hequal
  refine ext_bounds hcounter ?_
  rw [bounds_dropZeroSigns, bounds_dropZeroSigns, hbounds.map_dropZeroSign_eq]

end LoopHeader

namespace Node

/-- Nodes without the signs of zeros, at every depth. -/
def dropZeroSigns : List Node → List Node
  | [] => []
  | .text content :: nodes => .text content :: dropZeroSigns nodes
  | .echo elements :: nodes => .echo (elements.map Element.dropZeroSign) :: dropZeroSigns nodes
  | .loop header children :: nodes =>
    .loop header.dropZeroSigns (dropZeroSigns children) :: dropZeroSigns nodes

theorem alike_dropZeroSigns {nodes : List Node} (h : ∀ e ∈ elements nodes, e.isNaN = false) :
    Alike nodes (dropZeroSigns nodes) := by
  induction nodes using Node.induction with
  | nil =>
    rw [dropZeroSigns]
    exact .nil
  | text content nodes ih =>
    rw [elements] at h
    rw [dropZeroSigns]
    exact .text (ih h)
  | echo es nodes ih =>
    rw [elements, List.forall_mem_append] at h
    rw [dropZeroSigns]
    exact .echo (Element.allEqual_dropZeroSign h.1) (ih h.2)
  | loop header children nodes ihchildren ih =>
    rw [elements, List.forall_mem_append, List.forall_mem_append] at h
    rw [dropZeroSigns]
    exact .loop (LoopHeader.equal_dropZeroSigns h.1.1) (ihchildren h.1.2) (ih h.2)

/-- Nodes that are alike become the same without the signs of zeros. -/
theorem Alike.dropZeroSigns_eq {as bs : List Node} (h : Alike as bs) :
    dropZeroSigns as = dropZeroSigns bs := by
  induction h with
  | nil => rfl
  | text _ ih => rw [dropZeroSigns, dropZeroSigns, ih]
  | echo hequal _ ih => rw [dropZeroSigns, dropZeroSigns, hequal.map_dropZeroSign_eq, ih]
  | loop hheader _ _ ihchildren ih =>
    rw [dropZeroSigns, dropZeroSigns, LoopHeader.dropZeroSigns_eq_of_equal hheader, ihchildren, ih]

theorem WellFormed.alike_dropZeroSigns {nodes : List Node} (h : WellFormed nodes) :
    Alike nodes (dropZeroSigns nodes) :=
  Node.alike_dropZeroSigns fun e he ↦ (h.forall_mem_elements e he).isNaN_eq_false

end Node

namespace Document

/-- A document without the signs of zeros, at every depth. -/
def dropZeroSigns (doc : Document) : Document := ⟨Node.dropZeroSigns doc.children⟩

variable {d e : Document}

theorem WellFormed.dropZeroSigns (h : d.WellFormed) : d.dropZeroSigns.WellFormed :=
  (Node.WellFormed.alike_dropZeroSigns h).wellFormed h

theorem WellFormed.equal_iff_dropZeroSigns (hd : d.WellFormed) (he : e.WellFormed) :
    d.equal e = true ↔ d.dropZeroSigns = e.dropZeroSigns := by
  rw [Document.equal_iff, Document.dropZeroSigns, Document.dropZeroSigns, mk.injEq]
  refine ⟨Node.Alike.dropZeroSigns_eq, fun h ↦ ?_⟩
  have hdrop := Node.WellFormed.alike_dropZeroSigns hd
  rw [h] at hdrop
  exact hdrop.trans (Node.WellFormed.alike_dropZeroSigns he).symm

theorem WellFormed.render_eq_iff (hd : d.WellFormed) (he : e.WellFormed) :
    d.render = e.render ↔ d = e := by
  refine ⟨fun h ↦ ?_, congrArg _⟩
  obtain ⟨text, hrender, hparse⟩ := hd.parse_render
  obtain ⟨text', hrender', hparse'⟩ := he.parse_render
  obtain rfl : text = text' := Except.ok.inj (hrender.symm.trans (h.trans hrender'))
  exact Except.ok.inj (hparse.symm.trans hparse')

/-- Equality is whether two documents are written as one text without the signs of zeros. -/
theorem WellFormed.equal_iff_render_eq (hd : d.WellFormed) (he : e.WellFormed) :
    d.equal e = true ↔ d.dropZeroSigns.render = e.dropZeroSigns.render := by
  rw [hd.equal_iff_dropZeroSigns he, hd.dropZeroSigns.render_eq_iff he.dropZeroSigns]

end Document

/-! ## Fragments -/

private theorem map_intersperse {α β : Type} (f : α → β) (sep : α) (l : List α) :
    (l.intersperse sep).map f = (l.map f).intersperse (f sep) := by
  induction l with
  | nil => rfl
  | cons a l ih =>
    cases l with
    | nil => rfl
    | cons b l => exact congrArg (f a :: f sep :: ·) ih

private theorem join_intersperse (sep : String) (l : List String) :
    String.join (l.intersperse sep) = sep.intercalate l := by
  induction l with
  | nil => rfl
  | cons a l ih =>
    cases l with
    | nil => simp
    | cons b l =>
      rw [List.intersperse_cons_cons, String.join_cons, String.join_cons, ih,
        String.intercalate_cons_cons, String.append_assoc]

/-- A fragment of what a document is written as. -/
inductive Fragment where
  /-- What stands around elements, or where there are none. -/
  | mark (text : String)
  /-- An element. -/
  | element (e : Element)

namespace Fragment

/-- What a fragment is written as. -/
def text : Fragment → String
  | mark text => text
  | element e => e.text

/-- A fragment without the sign of a zero. -/
def dropZeroSign : Fragment → Fragment
  | mark text => mark text
  | element e => element e.dropZeroSign

/-- Whether fragments are the same or are both zeros of the binary format, of whatever signs. -/
inductive SameButForZeroSign : Fragment → Fragment → Prop
  | same (p : Fragment) : SameButForZeroSign p p
  | zeros (m n : Bool) :
    SameButForZeroSign (element (.double (.zero m))) (element (.double (.zero n)))

theorem dropZeroSign_eq_iff {p q : Fragment} :
    p.dropZeroSign = q.dropZeroSign ↔ p.SameButForZeroSign q := by
  constructor
  · intro h
    cases p with
    | mark text =>
      cases q with
      | mark text' =>
        obtain rfl := mark.inj h
        exact .same _
      | element f => cases h
    | element e =>
      cases q with
      | mark text' => cases h
      | element f =>
        rcases Element.dropZeroSign_eq_iff.mp (element.inj h) with rfl | ⟨m, n, rfl, rfl⟩
        · exact .same _
        · exact .zeros m n
  · rintro (_ | ⟨m, n⟩)
    · rfl
    · exact congrArg element (Element.dropZeroSign_eq_iff.mpr (.inr ⟨m, n, rfl, rfl⟩))

/-- Elements with one space between neighbours. -/
def ofElements (es : List Element) : List Fragment := (es.map element).intersperse (mark " ")

/-- The fragments that nodes are written as. -/
def ofNodes : List Node → List Fragment
  | [] => []
  | .text content :: nodes => mark (escapeText content) :: ofNodes nodes
  | .echo es :: nodes => mark "\x7b$=" :: (ofElements es ++ mark "$\x7d" :: ofNodes nodes)
  | .loop header children :: nodes =>
    mark ("\x7b$FOR " ++ header.counter ++ " ") :: (ofElements header.bounds ++
      mark "$\x7d" :: (ofNodes children ++ mark endTag :: ofNodes nodes))

theorem join_ofElements (es : List Element) :
    String.join ((ofElements es).map text) = Element.joinTexts es := by
  rw [ofElements, map_intersperse, List.map_map, join_intersperse]
  rfl

theorem join_ofNodes (nodes : List Node) :
    String.join ((ofNodes nodes).map text) = String.ofList (Node.rendering nodes) := by
  induction nodes using Node.induction with
  | nil => rw [ofNodes, Node.rendering]; rfl
  | text content nodes ih =>
    rw [ofNodes, Node.rendering, List.map_cons, String.join_cons, ih, String.ofList_append]
    rfl
  | echo es nodes ih =>
    rw [ofNodes, Node.rendering, List.map_cons, List.map_append, List.map_cons, String.join_cons,
      String.join_append, String.join_cons, join_ofElements, ih, String.ofList_append,
      String.ofList_toList, echoTag]
    simp only [text, String.append_assoc]
  | loop header children nodes ihchildren ih =>
    rw [ofNodes, Node.rendering, List.map_cons, List.map_append, List.map_cons, List.map_append,
      List.map_cons, String.join_cons, String.join_append, String.join_cons, String.join_append,
      String.join_cons, join_ofElements, ihchildren, ih, String.ofList_append,
      String.ofList_append, String.ofList_append, String.ofList_toList, String.ofList_toList,
      LoopHeader.tag]
    simp only [text, String.append_assoc]

theorem ofElements_map_dropZeroSign (es : List Element) :
    ofElements (es.map Element.dropZeroSign) = (ofElements es).map dropZeroSign := by
  rw [ofElements, ofElements, map_intersperse, List.map_map, List.map_map]
  rfl

theorem ofNodes_dropZeroSigns (nodes : List Node) :
    ofNodes (Node.dropZeroSigns nodes) = (ofNodes nodes).map dropZeroSign := by
  induction nodes using Node.induction with
  | nil => rw [Node.dropZeroSigns, ofNodes]; rfl
  | text content nodes ih =>
    rw [Node.dropZeroSigns, ofNodes, ofNodes, ih]
    rfl
  | echo es nodes ih =>
    rw [Node.dropZeroSigns, ofNodes, ofNodes, ih, ofElements_map_dropZeroSign, List.map_cons,
      List.map_append]
    rfl
  | loop header children nodes ihchildren ih =>
    rw [Node.dropZeroSigns, ofNodes, ofNodes, ih, ihchildren, LoopHeader.bounds_dropZeroSigns,
      ofElements_map_dropZeroSign, List.map_cons, List.map_append, List.map_cons, List.map_append]
    rfl

end Fragment

namespace Document

/-- The fragments that a document is written as. -/
def fragments (doc : Document) : List Fragment := Fragment.ofNodes doc.children

theorem render_eq_join (doc : Document) :
    doc.render = .ok (String.join (doc.fragments.map Fragment.text)) := by
  rw [render_eq, fragments, Fragment.join_ofNodes]

variable {d e : Document}

theorem WellFormed.equal_iff_fragments (hd : d.WellFormed) (he : e.WellFormed) :
    d.equal e = true ↔ List.Forall₂ Fragment.SameButForZeroSign d.fragments e.fragments := by
  have hdrop : List.Forall₂ Fragment.SameButForZeroSign d.fragments e.fragments ↔
      d.dropZeroSigns.fragments = e.dropZeroSigns.fragments := by
    rw [fragments, fragments, fragments, fragments, Document.dropZeroSigns,
      Document.dropZeroSigns, Fragment.ofNodes_dropZeroSigns, Fragment.ofNodes_dropZeroSigns,
      ← List.forall₂_eq_eq_eq, List.forall₂_map_left_iff, List.forall₂_map_right_iff]
    simp only [Fragment.dropZeroSign_eq_iff]
  rw [hdrop]
  constructor
  · intro h
    rw [(hd.equal_iff_dropZeroSigns he).mp h]
  · intro h
    rw [hd.equal_iff_render_eq he, render_eq_join, render_eq_join, h]

end Document

/-- **Equality and rendering.** Two documents that have been read are equal if and only if they are
written as one text when every negative zero in them is made the positive one, at every depth. When
they are written as one text as they are, they are equal, and not only that but the same. And they
are equal if and only if the fragments that they are written as, which are the elements and what
stands around them, are the same one by one, or else zeros, which are written with a minus sign or
without one. -/
theorem rendering_decides_equality {source source' : String} {d e : Document}
    (hd : Document.parse source = .ok d) (he : Document.parse source' = .ok e) :
    (d.equal e = true ↔
      ∃ text, d.dropZeroSigns.render = .ok text ∧ e.dropZeroSigns.render = .ok text) ∧
    (d.render = e.render → d = e ∧ d.equal e = true) ∧
    d.render = .ok (String.join (d.fragments.map Fragment.text)) ∧
    e.render = .ok (String.join (e.fragments.map Fragment.text)) ∧
    (d.equal e = true ↔ List.Forall₂ Fragment.SameButForZeroSign d.fragments e.fragments) ∧
    ∀ negative, (Fragment.element (.double (.zero negative))).text
      = (if negative then "-" else "") ++ "0.0" := by
  have hd := Document.wellFormed_of_parse hd
  have he := Document.wellFormed_of_parse he
  refine ⟨?_, fun h ↦ ?_, d.render_eq_join, e.render_eq_join, hd.equal_iff_fragments he, ?_⟩
  · rw [hd.equal_iff_render_eq he]
    constructor
    · exact fun h ↦ ⟨_, Document.render_eq _, h ▸ Document.render_eq _⟩
    · rintro ⟨text, hdrop, hdrop'⟩
      rw [hdrop, hdrop']
  · obtain rfl := (hd.render_eq_iff he).mp h
    exact ⟨rfl, Document.equal_iff.mpr (Node.WellFormed.alike hd)⟩
  · intro negative
    cases negative <;> decide

/-- A loop from zero, in which zero is shown. -/
def zeroLoop (negative : Bool) : Document where
  children := [.loop ⟨"i", .double (.zero negative), .integer 1, none⟩
    [.echo [.double (.zero negative), .variableName "x"]]]

/-- The loop from the negative zero is written with minus signs, and the other one without, but they
are equal. -/
theorem renderings_of_zeroLoop :
    Document.parse "\x7b$FOR i -0.0 1$\x7d\x7b$= -0e0 x$\x7d\x7b$END$\x7d" = .ok (zeroLoop true) ∧
    Document.parse "\x7b$FOR i 0.0 1$\x7d\x7b$=0.0 x$\x7d\x7b$END$\x7d" = .ok (zeroLoop false) ∧
    (zeroLoop true).equal (zeroLoop false) = true ∧
    (∃ text, (zeroLoop true).dropZeroSigns.render = .ok text ∧
      (zeroLoop false).dropZeroSigns.render = .ok text) ∧
    List.Forall₂ Fragment.SameButForZeroSign (zeroLoop true).fragments
      (zeroLoop false).fragments ∧
    (zeroLoop true).render ≠ (zeroLoop false).render := by
  have hparse : Document.parse "\x7b$FOR i -0.0 1$\x7d\x7b$= -0e0 x$\x7d\x7b$END$\x7d"
      = .ok (zeroLoop true) := by
    decide +kernel
  have hparse' : Document.parse "\x7b$FOR i 0.0 1$\x7d\x7b$=0.0 x$\x7d\x7b$END$\x7d"
      = .ok (zeroLoop false) := by
    decide +kernel
  obtain ⟨hdrop, hsame, -, -, hfragments, -⟩ := rendering_decides_equality hparse hparse'
  have hheader : LoopHeader.equal ⟨"i", .double (.zero true), .integer 1, none⟩
      ⟨"i", .double (.zero false), .integer 1, none⟩ = true := by
    decide
  have hechoes : Element.AllEqual [.double (.zero true), .variableName "x"]
      [.double (.zero false), .variableName "x"] :=
    .cons (by decide) (.cons (by decide) .nil)
  have hequal : (zeroLoop true).equal (zeroLoop false) = true :=
    Document.equal_iff.mpr (.loop hheader (.echo hechoes .nil) .nil)
  refine ⟨hparse, hparse', hequal, hdrop.mp hequal, hfragments.mp hequal, fun h ↦ ?_⟩
  exact absurd (hsame h).1 (by simp [zeroLoop, Binary64.zero])

end TagTemplate
