import TagTemplate.Document.Render
import TagTemplate.Proofs.Document.Spelling
import TagTemplate.Proofs.Number.Printing

/-!
# Documents are read as they were written

What a document is written as follows its structure (`Node.rendering`, `Document.render_eq`), and of
a well-formed document that is one of the ways in which it may be spelled: the one with FOR and END
in capitals (`Derivation.inCapitals`), with no blanks but those that have to be there, with every
brace protected, and with each element as it is always written (`Derivation.spelling_rendering`). An
element that is not well-formed is never read back.

What is spelled is read, so the document is read back, and not just an equal one: numbers come back
with all their bits (`Document.WellFormed.parse_render`).
-/

namespace TagTemplate

/-! ## What documents are written as -/

/-- What nodes are written as. -/
def Node.rendering : List Node → List Char
  | [] => []
  | .text content :: nodes =>
    Escaping.documentText.escape content.toList ++ rendering nodes
  | .echo elements :: nodes => (echoTag elements).toList ++ rendering nodes
  | .loop header children :: nodes =>
    header.tag.toList ++ (rendering children ++ (endTag.toList ++ rendering nodes))

theorem renderer_traverse (nodes : List Node) (written : String) :
    (renderer.traverse nodes).run written
      = .ok () (written ++ String.ofList (Node.rendering nodes)) := by
  induction nodes using Node.induction generalizing written with
  | nil =>
    rw [Visitor.traverse, Node.rendering, String.ofList_nil, String.append_empty]
    rfl
  | text content nodes ih =>
    rw [Visitor.traverse, Node.rendering, String.ofList_append, ← String.append_assoc]
    exact ih _
  | echo elements nodes ih =>
    rw [Visitor.traverse, Node.rendering, String.ofList_append, ← String.append_assoc,
      String.ofList_toList]
    exact ih _
  | loop header children nodes ihchildren ih =>
    rw [Visitor.traverse, Node.rendering, String.ofList_append, String.ofList_append,
      String.ofList_append, String.ofList_toList, String.ofList_toList]
    simp only [← String.append_assoc]
    have hchildren := ihchildren (written ++ header.tag)
    have hnodes := ih (written ++ header.tag ++ String.ofList (Node.rendering children) ++ endTag)
    calc _ = (do renderer.traverse children; renderer.leave header children
                 renderer.traverse nodes : EStateM WalkError String Unit).run
              (written ++ header.tag) := rfl
      _ = _ := by
        rw [EStateM.run_bind, hchildren]
        exact hnodes

theorem Document.render_eq (doc : Document) :
    doc.render = .ok (String.ofList (Node.rendering doc.children)) := by
  have h := renderer_traverse doc.children ""
  rw [String.empty_append] at h
  have hdocument :
      (renderer.walkDocument doc).run "" = (renderer.traverse doc.children).run "" := by
    rw [Visitor.walkDocument, Visitor.walkNodes_eq_traverse]
    rfl
  rw [Document.render, finalState, hdocument, h]

/-! ## The spelling with nothing to choose -/

theorem Element.WellFormed.spelled_text {e : Element} (he : e.WellFormed) :
    Spelled Exponent.size (.element e) e.text.toList := by
  cases he with
  | integer value =>
    obtain ⟨n, hwritten, hdenotes⟩ := written_integerText Exponent.size value
    rw [Element.text, String.toList_ofList]
    exact .number hwritten hdenotes
  | double hx =>
    obtain ⟨n, hwritten, hdenotes⟩ := Binary64.exists_written_text hx
    rw [Element.text, String.toList_ofList]
    exact .number hwritten hdenotes
  | string content =>
    have h : Spelled Exponent.size _ _ := .string
      (Escaping.written_escape (e := Escaping.quotedText) content.toList)
      (Escaping.unclosed_escape _ _)
    rw [String.ofList_toList] at h
    rw [Element.text, String.toList_ofList]
    exact h
  | @variableName name hname =>
    have h : Spelled Exponent.size _ _ := .variableName hname
    rwa [String.ofList_toList] at h
  | @functionName name hname =>
    have h : Spelled Exponent.size _ _ := .functionName hname
    rw [String.ofList_toList] at h
    rw [Element.text, String.toList_append]
    exact h
  | operator op =>
    rw [Element.text, String.toList_singleton]
    exact .operator op

/-- An element is known by what it is written as, and it is seen where it ends if what stands behind
it begins with a character that is in no name and in no number. -/
theorem Element.WellFormed.text_append_inj {e f : Element} (he : e.WellFormed) (hf : f.WellFormed)
    {r s : List Char}
    (hr : ∀ c ∈ r.head?, isNameChar c = false ∧ Numeral.isNumeralChar c = false)
    (hs : ∀ c ∈ s.head?, isNameChar c = false ∧ Numeral.isNumeralChar c = false)
    (h : e.text.toList ++ r = f.text.toList ++ s) : e = f ∧ r = s := by
  have hne : e.text.toList ≠ [] := he.spelled_text.ne_nil nofun
  obtain ⟨c, cs, hcs⟩ := List.exists_cons_of_ne_nil (List.append_ne_nil_of_left_ne_nil hne r)
  have hfound : Lexeme.insideTag false c cs = .found (.element e) e.text.toList.length :=
    Lexeme.insideTag_eq_found_iff.mpr ⟨_, r, hcs.symm, rfl, .bodyElement e, he.spelled_text,
      he.endsBefore_of_head hr⟩
  have hfound' : Lexeme.insideTag false c cs = .found (.element f) f.text.toList.length :=
    Lexeme.insideTag_eq_found_iff.mpr ⟨_, s, hcs.symm.trans h, rfl, .bodyElement f,
      hf.spelled_text, hf.endsBefore_of_head hs⟩
  obtain ⟨hkind, hlength⟩ := Lexeme.found.inj (hfound.symm.trans hfound')
  exact ⟨TokenKind.element.inj hkind, (List.append_inj h hlength).2⟩

/-- **Elements.** What an element is written as is read back as that element, with all its bits, if
and only if the element is well-formed: an integer, an operator, any string, a finite number, or a
variable or function with a name that is one. So a finite number is always read as one number of the
binary format, and never as an integer or in pieces. -/
theorem element_read_back_iff (e : Element) :
    (∃ tokens, tokenize ("\x7b$= " ++ e.text ++ " $\x7d") = .ok tokens ∧
      tokens.map Token.kind
        = [.tagStart, .tagHead "=", .element e, .tagEnd, .endOfInput]) ↔ e.WellFormed := by
  constructor
  · rintro ⟨tokens, htokens, hkinds⟩
    have h := (tokenize_eq_ok_iff_scans.mp htokens).kindsWellFormed
    rw [hkinds] at h
    exact h.element e (by simp)
  · intro he
    have htag : TagSpelling "=" [e] _ := .full isBlanks_nil isBlanks_space (fun _ ↦ rfl)
      (.single he.spelled_text) isBlanks_space
    have hlexes := Lexes.tag htag (Or.inl rfl) .endOfInput
    refine exists_tokenize_of_lexes ?_
    simpa [tagKinds] using hlexes

theorem forall₂_spelled_text {es : List Element} (hes : ∀ e ∈ es, e.WellFormed) :
    List.Forall₂ (fun e text ↦ Spelled Exponent.size (.element e) text.toList) es
      (es.map Element.text) := by
  rw [List.forall₂_map_right_iff, List.forall₂_same]
  exact fun e he ↦ (hes e he).spelled_text

theorem tagSpelling_echoTag {es : List Element} (hne : es ≠ []) (hes : ∀ e ∈ es, e.WellFormed) :
    TagSpelling "=" es (echoTag es).toList := by
  have htag : TagSpelling "=" es _ := .full isBlanks_nil isBlanks_nil (fun _ ↦ rfl)
    (.intercalate (forall₂_spelled_text hes) hne) isBlanks_nil
  simpa [echoTag, Element.joinTexts] using htag

theorem LoopHeader.intercalate_elements (header : LoopHeader) (written : Element → String) :
    " ".intercalate (header.elements.map written)
      = written (.variableName header.counter) ++ " "
        ++ " ".intercalate (header.bounds.map written) := by
  rw [elements, bounds, List.map_cons, List.map_cons, String.intercalate_cons_cons]

theorem tagSpelling_tag {header : LoopHeader} (h : header.WellFormed) :
    TagSpelling "FOR" header.elements header.tag.toList := by
  have htag := TagSpelling.loopTag (forall₂_spelled_text h.elements) (List.cons_ne_nil _ _)
  rw [header.intercalate_elements] at htag
  simpa [LoopHeader.tag, Element.joinTexts, Element.text] using htag

theorem tagSpelling_endTag : TagSpelling "END" [] endTag.toList := by
  have htag : TagSpelling "END" [] _ := .bare isBlanks_nil isBlanks_nil
  simpa [endTag] using htag

namespace Derivation

/-- A derivation with FOR and END in capitals. -/
def inCapitals : Derivation → Derivation
  | done => done
  | text content rest => text content rest.inCapitals
  | echo elements ne_nil rest => echo elements ne_nil rest.inCapitals
  | loop _ _ header isBound body _ _ rest =>
    loop "FOR" rfl header isBound body.inCapitals "END" rfl rest.inCapitals

@[simp] theorem nodes_inCapitals (t : Derivation) : t.inCapitals.nodes = t.nodes := by
  induction t with
  | done => rfl
  | text _ _ ih => rw [inCapitals, nodes, nodes, ih]
  | echo _ _ _ ih => rw [inCapitals, nodes, nodes, ih]
  | loop _ _ _ _ _ _ _ _ ihbody ih => simp only [inCapitals, nodes, ihbody, ih]

/-- Well-formed nodes are written as a derivation of them in capitals is spelled. -/
theorem spelling_rendering {t : Derivation} (h : Node.WellFormed t.nodes) (rest : List Char) :
    t.inCapitals.Spelling (Node.rendering t.nodes) rest := by
  induction t generalizing rest with
  | done =>
    rw [inCapitals, nodes, Node.rendering]
    exact .done rest
  | text content t ih =>
    rw [inCapitals, nodes, Node.rendering]
    cases h with
    | text _ _ h => exact .text (TextSpelling.escape _ _) (ih h rest)
  | echo elements ne_nil t ih =>
    rw [inCapitals, nodes, Node.rendering]
    cases h with
    | echo _ helements h => exact .echo (tagSpelling_echoTag ne_nil helements) (ih h rest)
  | loop _ _ header _ body _ _ t ihbody ih =>
    rw [inCapitals, nodes, Node.rendering]
    cases h with
    | loop hheader hchildren h =>
      exact .loop (tagSpelling_tag hheader) (ihbody hchildren _) tagSpelling_endTag (ih h rest)

end Derivation

/-! ## Whole documents -/

theorem Node.WellFormed.exists_derivation {nodes : List Node} (h : WellFormed nodes) :
    ∃ t : Derivation, t.nodes = nodes := by
  induction h with
  | nil => exact ⟨.done, rfl⟩
  | text _ _ _ ih =>
    obtain ⟨t, rfl⟩ := ih
    exact ⟨.text _ t, rfl⟩
  | echo hne _ _ ih =>
    obtain ⟨t, rfl⟩ := ih
    exact ⟨.echo _ hne t, rfl⟩
  | loop hheader _ _ ihchildren ih =>
    obtain ⟨body, rfl⟩ := ihchildren
    obtain ⟨t, rfl⟩ := ih
    have hbound : ∀ e ∈ LoopHeader.bounds _, IsBound e := fun e he ↦
      isBound_iff.mpr (hheader.isLoopBound e he)
    exact ⟨.loop "FOR" rfl _ hbound body "END" rfl t, rfl⟩

namespace Document

variable {doc : Document}

theorem WellFormed.exists_spelling_render (h : doc.WellFormed) {t : Derivation}
    (ht : t.nodes = doc.children) :
    ∃ text, doc.render = .ok text ∧ t.inCapitals.Spelling text.toList [] := by
  refine ⟨_, doc.render_eq, ?_⟩
  rw [WellFormed, ← ht] at h
  rw [String.toList_ofList, ← ht]
  exact t.spelling_rendering h []

theorem WellFormed.spelledAs_render (h : doc.WellFormed) :
    ∃ text, doc.render = .ok text ∧ doc.SpelledAs text := by
  obtain ⟨t, ht⟩ := h.exists_derivation
  obtain ⟨text, hrender, hspelling⟩ := h.exists_spelling_render ht
  exact ⟨text, hrender, t.inCapitals, t.nodes_inCapitals.trans ht, hspelling⟩

theorem WellFormed.parse_render (h : doc.WellFormed) :
    ∃ text, doc.render = .ok text ∧ Document.parse text = .ok doc := by
  obtain ⟨text, hrender, hspelled⟩ := h.spelledAs_render
  exact ⟨text, hrender, hspelled.parse h⟩

end Document

end TagTemplate
