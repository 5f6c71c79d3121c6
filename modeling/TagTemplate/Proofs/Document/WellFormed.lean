import TagTemplate.Proofs.Document.Grammar
import TagTemplate.Proofs.Document.Sameness

/-!
# Well-formed documents

Not every document can be written as a template: names may be any text, numbers need not have a
value, and texts side by side would run together. A document is well-formed when nothing of that
kind is in it at any depth (`Document.WellFormed`).

Every document that is read is well-formed (`Document.wellFormed_of_parse`). The conditions on
elements and texts are conditions on single tokens, which their spelling ensures, and two texts are
never side by side because text goes on up to the next tag. Well-formedness does not tell equal
documents apart (`Node.Alike.wellFormed`), and on well-formed documents equality is reflexive
(`Node.WellFormed.alike`), which it is not where a number is not a number.
-/

namespace TagTemplate

/-! ## Well-formed elements, nodes and documents -/

/-- Whether an element can be written: names are names, and numbers have a value. -/
inductive Element.WellFormed : Element → Prop
  | integer (value : Int64) : WellFormed (.integer value)
  | double {value : Binary64} : value.isFinite = true → WellFormed (.double value)
  | string (content : String) : WellFormed (.string content)
  | variableName {name : String} : IsName name.toList → WellFormed (.variableName name)
  | functionName {name : String} : IsName name.toList → WellFormed (.functionName name)
  | operator (op : Operator) : WellFormed (.operator op)

/-- Whether the header of a loop can be written and read again. -/
structure LoopHeader.WellFormed (header : LoopHeader) : Prop where
  /-- It counts a variable. -/
  counter : IsName header.counter.toList
  /-- Start, stop and step can be bounds. -/
  isLoopBound : ∀ e ∈ header.bounds, e.isLoopBound = true
  /-- Start, stop and step can be written. -/
  bounds : ∀ e ∈ header.bounds, e.WellFormed

theorem LoopHeader.WellFormed.elements {header : LoopHeader} (h : header.WellFormed) :
    ∀ e ∈ header.elements, e.WellFormed :=
  List.forall_mem_cons.mpr ⟨.variableName h.counter, h.bounds⟩

/-- Whether nodes side by side are well-formed, at every depth: no text is empty or next to another
one, no echo is empty, and headers and elements are well-formed. -/
inductive Node.WellFormed : List Node → Prop
  | nil : WellFormed []
  | text {content : String} {nodes : List Node} : content ≠ "" →
    (∀ content', nodes.head? ≠ some (.text content')) → WellFormed nodes →
    WellFormed (.text content :: nodes)
  | echo {elements : List Element} {nodes : List Node} : elements ≠ [] →
    (∀ e ∈ elements, e.WellFormed) → WellFormed nodes → WellFormed (.echo elements :: nodes)
  | loop {header : LoopHeader} {children nodes : List Node} : header.WellFormed →
    WellFormed children → WellFormed nodes → WellFormed (.loop header children :: nodes)

/-- Whether a document is well-formed. -/
def Document.WellFormed (doc : Document) : Prop := Node.WellFormed doc.children

/-! ## Equality -/

theorem Binary64.SameNumber.isFinite {x y : Binary64} (h : x.SameNumber y)
    (hx : x.isFinite = true) : y.isFinite = true := by
  rcases signedValue_eq_iff.mp h.value with rfl | ⟨-, hzero⟩
  · exact hx
  · rw [Binary64.isFinite, hzero]
    decide

namespace Element

theorem WellFormed.of_equal {e f : Element} (h : e.equal f = true) (he : e.WellFormed) :
    f.WellFormed := by
  cases equal_iff.mp h with
  | double hxy =>
    cases he with
    | double hx => exact .double (hxy.isFinite hx)
  | other _ => exact he

theorem isLoopBound_of_equal {e f : Element} (h : e.equal f = true) :
    f.isLoopBound = e.isLoopBound := by
  cases equal_iff.mp h with
  | double _ => rfl
  | other _ => rfl

theorem WellFormed.isNaN_eq_false {e : Element} (he : e.WellFormed) : e.isNaN = false := by
  cases he with
  | double hx => exact decide_eq_false (Nat.lt_asymm (of_decide_eq_true hx))
  | _ => rfl

end Element

theorem LoopHeader.WellFormed.of_equal {h k : LoopHeader} (heq : h.equal k = true)
    (hh : h.WellFormed) : k.WellFormed := by
  obtain ⟨hcounter, hbounds⟩ := LoopHeader.equal_iff.mp heq
  refine ⟨hcounter ▸ hh.counter, hbounds.forall (fun e f hef he ↦ ?_) hh.isLoopBound,
    hbounds.forall (fun e f ↦ .of_equal) hh.bounds⟩
  rw [Element.isLoopBound_of_equal hef, he]

namespace Node

theorem Alike.wellFormed {as bs : List Node} (h : Alike as bs) (has : WellFormed as) :
    WellFormed bs := by
  induction h with
  | nil => exact .nil
  | text h ih =>
    cases has with
    | text hne hhead has =>
      refine .text hne (fun content' hb ↦ ?_) (ih has)
      cases h with
      | text _ => exact hhead _ rfl
      | nil | echo _ _ | loop _ _ _ => cases hb
  | echo hequal _ ih =>
    cases has with
    | echo hne helements has =>
      refine .echo ?_ (Element.AllEqual.forall hequal (fun e f ↦ .of_equal) helements) (ih has)
      rintro rfl
      cases hequal
      exact hne rfl
  | loop hheader _ _ ihchildren ih =>
    cases has with
    | loop hh hchildren has =>
      exact .loop (hh.of_equal hheader) (ihchildren hchildren) (ih has)

theorem WellFormed.forall_mem_elements {nodes : List Node} (h : WellFormed nodes) :
    ∀ e ∈ elements nodes, e.WellFormed := by
  induction h with
  | nil => simp [elements]
  | text _ _ _ ih =>
    rw [elements]
    exact ih
  | echo _ helements _ ih =>
    rw [elements, List.forall_mem_append]
    exact ⟨helements, ih⟩
  | loop hheader _ _ ihchildren ih =>
    rw [elements, List.forall_mem_append, List.forall_mem_append]
    exact ⟨⟨hheader.bounds, ihchildren⟩, ih⟩

theorem WellFormed.alike {nodes : List Node} (h : WellFormed nodes) : Alike nodes nodes :=
  alike_self_iff.mpr fun e he ↦ (h.forall_mem_elements e he).isNaN_eq_false

end Node

/-! ## What is read is well-formed -/

section Tokens

variable {size : List Char → ℕ}

theorem Element.wellFormed_of_spelled {e : Element} {written : List Char}
    (h : Spelled size (.element e) written) : e.WellFormed := by
  cases h with
  | variableName hname => exact .variableName (by rwa [String.toList_ofList])
  | functionName hname => exact .functionName (by rwa [String.toList_ofList])
  | operator op => exact .operator op
  | string _ _ => exact .string _
  | number _ hdenotes =>
    cases hdenotes with
    | integer _ _ _ => exact .integer _
    | double _ _ hfinite _ => exact .double hfinite

/-- What holds of the tokens that a source consists of, whatever they make: texts are not empty or
next to each other, and elements are well-formed. -/
structure KindsWellFormed (kinds : List TokenKind) : Prop where
  /-- No text is empty. -/
  text : ∀ content, .text content ∈ kinds → content ≠ ""
  /-- The elements are well-formed. -/
  element : ∀ e, .element e ∈ kinds → e.WellFormed
  /-- No text comes right after another. -/
  separate : ∀ content content', ¬[.text content, .text content'] <:+: kinds

theorem KindsWellFormed.of_within {kinds more : List TokenKind} (h : KindsWellFormed more)
    (hwithin : kinds <:+: more) : KindsWellFormed kinds where
  text content hmem := h.text content (hwithin.subset hmem)
  element e hmem := h.element e (hwithin.subset hmem)
  separate content content' htexts := h.separate content content' (htexts.trans hwithin)

/-- Behind text comes a tag or the end of the input. -/
private theorem not_text_after_text {p : Position} {content content' : String}
    {written rest : List Char} {tokens : List Token} {token : Token}
    (h : (TokenKind.text content).EndsBefore written rest)
    (hscans : Scans size p .text rest (token :: tokens)) : token.kind ≠ .text content' := by
  rintro hkind
  generalize htokens : token :: tokens = all at hscans
  cases hscans with
  | endOfInput p =>
    obtain ⟨rfl, -⟩ := List.cons.inj htokens
    contradiction
  | @token _ _ gap written' rest' _ _ hgap _ hpiece _ =>
    obtain ⟨rfl, -⟩ := List.cons.inj htokens
    obtain rfl : _ = TokenKind.text content' := hkind
    obtain rfl := hgap.eq_nil rfl
    have hne := hpiece.spelled.ne_nil (by simp)
    -- The first text ends where a tag opens, and there the second cannot begin.
    rcases h.1 with hnil | hopens
    · rw [List.nil_append] at hnil
      exact hne (List.append_eq_nil_iff.mp hnil).1
    · have hopen := hpiece.ends.2 [] written' rfl hne ⟨[], .nil⟩
      rw [List.nil_append] at hopens
      exact absurd (hopens.symm.trans hopen) (by decide)

theorem Scans.kindsWellFormed {p : Position} {mode : Mode} {cs : List Char}
    {tokens : List Token} (h : Scans size p mode cs tokens) :
    KindsWellFormed (tokens.map Token.kind) := by
  induction h with
  | endOfInput p => exact ⟨by simp, by simp, fun _ _ h ↦ by simpa using h.length_le⟩
  | @token p mode gap written rest kind tokens hgap hkind hpiece hscans ih =>
    refine ⟨fun content hmem ↦ ?_, fun e hmem ↦ ?_, fun content content' htexts ↦ ?_⟩
    · rcases List.mem_cons.mp hmem with rfl | hmem
      · exact ne_empty_of_spelled hpiece.spelled
      · exact ih.text content hmem
    · rcases List.mem_cons.mp hmem with rfl | hmem
      · exact Element.wellFormed_of_spelled hpiece.spelled
      · exact ih.element e hmem
    · -- Two texts side by side begin with this token, or are among the later ones.
      rcases List.infix_cons_iff.mp htexts with hbegins | hwithin
      · obtain ⟨hfirst, hsecond⟩ := List.cons_prefix_cons.mp hbegins
        obtain rfl : _ = kind := hfirst
        obtain ⟨more, hmore⟩ := hsecond
        obtain ⟨token, tokens, rfl, htoken, -⟩ := List.map_eq_cons_iff.mp hmore.symm
        exact not_text_after_text hpiece.ends hscans htoken
      · exact ih.separate content content' hwithin

end Tokens

private theorem element_mem_tagKinds {name : String} {elements : List Element} {e : Element}
    (he : e ∈ elements) (more : List TokenKind) :
    .element e ∈ tagKinds name elements ++ more := by
  refine List.mem_append_left _ (List.mem_cons_of_mem _ (List.mem_cons_of_mem _ ?_))
  exact List.mem_append_left _ (List.mem_map_of_mem he)

/-- A derivation from the tokens of a source derives well-formed nodes. -/
theorem Derivation.wellFormed_nodes {t : Derivation} (h : KindsWellFormed t.kinds) :
    Node.WellFormed t.nodes := by
  induction t with
  | done => exact .nil
  | text content rest ih =>
    refine .text (h.text content List.mem_cons_self) (fun content' hhead ↦ ?_)
      (ih (h.of_within (List.suffix_cons _ _).isInfix))
    cases rest with
    | text content'' rest => exact h.separate content content'' ⟨[], rest.kinds, rfl⟩
    | done | echo _ _ _ | loop _ _ _ _ _ _ _ _ => cases hhead
  | echo elements ne_nil rest ih =>
    refine .echo ne_nil (fun e he ↦ h.element e (element_mem_tagKinds he _)) (ih (h.of_within ?_))
    exact (List.suffix_append _ _).isInfix
  | loop opener spellsFor header isBound body closer spellsEnd rest ihbody ihrest =>
    have helements : ∀ e ∈ header.elements, e.WellFormed := fun e he ↦
      h.element e (element_mem_tagKinds he _)
    have hheader : header.WellFormed := by
      refine ⟨?_, fun e he ↦ isBound_iff.mp (isBound e he), fun e he ↦
        helements e (List.mem_cons_of_mem _ he)⟩
      cases helements _ List.mem_cons_self with
      | variableName hname => exact hname
    have hinner := h.of_within (List.suffix_append (tagKinds opener header.elements) _).isInfix
    refine .loop hheader (ihbody (hinner.of_within (List.prefix_append _ _).isInfix))
      (ihrest ((hinner.of_within (List.suffix_append _ _).isInfix).of_within ?_))
    exact (List.suffix_append _ _).isInfix

/-- **What is read.** A document that is read from a source is well-formed. -/
theorem Document.wellFormed_of_parse {source : String} {doc : Document}
    (h : Document.parse source = .ok doc) : doc.WellFormed := by
  obtain ⟨tokens, htokens, t, hkinds, rfl⟩ := Document.exists_derivation_of_parse h
  have hscans := (tokenize_eq_ok_iff_scans.mp htokens).kindsWellFormed
  rw [hkinds] at hscans
  exact Derivation.wellFormed_nodes (hscans.of_within (List.prefix_append _ _).isInfix)

end TagTemplate
