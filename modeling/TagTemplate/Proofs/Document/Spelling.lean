import TagTemplate.Proofs.Document.WellFormed
import TagTemplate.Proofs.Token.Lexing

/-!
# How documents may be spelled

A template has more freedom than a document. There may be blanks around the parts of a tag, elements
may be spelled in any way that their kind allows, FOR and END may be in small letters, and a brace
in text need not be protected where it opens no tag. (A blank between quotes is a part of the string
and no matter of choice.) How a document may be spelled is stated here along its structure. Which
letters FOR and END are made of is something that a derivation already says, so it is derivations
that are spelled (`Derivation.Spelling`): the choices left are the runs of blanks, the elements
(`TagSpelling`) and the braces (`TextSpelling`).

None of these choices matters to the reader. Each piece of a spelling is one token, wherever it
stands, because a blank or the end of a tag comes behind an element, and behind a text a tag or the
end of the template. So what is spelled has the kinds of tokens of the derivation
(`Derivation.Spelling.lexes`), and the document is read from it (`Document.SpelledAs.parse`).
-/

namespace TagTemplate

/-! ## Text -/

/-- The ways in which text may be written before the rest of a template: a brace or a backslash
behind a backslash, and every other character as it is. So may be a brace, if no dollar sign comes
next. -/
inductive TextSpelling (rest : List Char) : List Char → List Char → Prop
  | nil : TextSpelling rest [] []
  | plain {c : Char} {content written : List Char} : c ≠ '\\' →
    (c = '{' → (written ++ rest).head? ≠ some '$') → TextSpelling rest content written →
    TextSpelling rest (c :: content) (c :: written)
  | escaped {c : Char} {content written : List Char} : c = '{' ∨ c = '\\' →
    TextSpelling rest content written → TextSpelling rest (c :: content) ('\\' :: c :: written)

namespace TextSpelling

variable {rest content cs : List Char}

theorem written (h : TextSpelling rest content cs) :
    Escaping.documentText.Written content cs := by
  induction h with
  | nil => exact .nil
  | plain hc _ _ ih => exact .plain hc ih
  | escaped hc _ ih => exact .escaped (Escaping.escapable_documentText_iff.mpr hc) ih

theorem unclosed (h : TextSpelling rest content cs) :
    Escaping.documentText.Unclosed cs rest := by
  induction h with
  | nil => exact Escaping.unclosed_nil rest
  | plain hc hbrace _ ih =>
    refine (Escaping.unclosed_plain_iff hc).mpr ⟨Bool.eq_false_iff.mpr fun hopens ↦ ?_, ih⟩
    obtain ⟨rfl, hdollar⟩ := Escaping.opensTag_cons_iff.mp hopens
    exact hbrace rfl hdollar
  | escaped hc _ ih =>
    exact (Escaping.unclosed_escaped_iff (Escaping.escapable_documentText_iff.mpr hc)).mpr ih

theorem ne_nil (h : TextSpelling rest content cs) (hne : content ≠ []) : cs ≠ [] := by
  cases h with
  | nil => exact absurd rfl hne
  | plain _ _ _ => exact List.cons_ne_nil _ _
  | escaped _ _ => exact List.cons_ne_nil _ _

/-- Text may be written with every brace protected, whatever comes behind it. -/
theorem escape (content rest : List Char) :
    TextSpelling rest content (Escaping.documentText.escape content) := by
  induction content with
  | nil => exact .nil
  | cons c content ih =>
    rw [Escaping.escape_cons]
    by_cases hc : Escaping.documentText.escapable c = true
    · rw [if_pos hc]
      exact .escaped (Escaping.escapable_documentText_iff.mp hc) ih
    · rw [if_neg hc]
      rw [Escaping.escapable_documentText_iff, not_or] at hc
      exact .plain hc.2 (fun hbrace ↦ absurd hbrace hc.1) ih

end TextSpelling

/-! ## Tags -/

/-- The ways in which the elements of a tag may be written: each as its kind is spelled, with one
blank or more between neighbours. -/
inductive ElementsSpelling : List Element → List Char → Prop
  | single {e : Element} {written : List Char} : Spelled Exponent.size (.element e) written →
    ElementsSpelling [e] written
  | cons {e : Element} {es : List Element} {written gap more : List Char} :
    Spelled Exponent.size (.element e) written → IsBlanks gap → gap ≠ [] →
    ElementsSpelling es more → ElementsSpelling (e :: es) (written ++ (gap ++ more))

namespace ElementsSpelling

theorem cons_space {e : Element} {es : List Element} {written more : List Char}
    (he : Spelled Exponent.size (.element e) written) (hes : ElementsSpelling es more) :
    ElementsSpelling (e :: es) (written ++ ' ' :: more) :=
  .cons he isBlanks_space (List.cons_ne_nil _ _) hes

theorem intercalate {es : List Element} {texts : List String}
    (h : List.Forall₂ (fun e text ↦ Spelled Exponent.size (.element e) text.toList) es texts)
    (hne : es ≠ []) : ElementsSpelling es (" ".intercalate texts).toList := by
  induction h with
  | nil => exact absurd rfl hne
  | @cons e text es texts he hes ih =>
    cases hes with
    | nil =>
      rw [String.intercalate_singleton]
      exact .single he
    | cons he' hes' =>
      rw [String.intercalate_cons_cons, String.toList_append, String.toList_append,
        List.append_assoc]
      exact cons_space he (ih (List.cons_ne_nil _ _))

end ElementsSpelling

/-- The ways in which a tag may be written: with blanks behind its opening, behind its head and
before its end, of which only those between a word for a head and an element have to be there. -/
inductive TagSpelling (name : String) : List Element → List Char → Prop
  | bare {front behind : List Char} : IsBlanks front → IsBlanks behind →
    TagSpelling name [] (['{', '$'] ++ (front ++ (name.toList ++ (behind ++ ['$', '}']))))
  | full {front gap written behind : List Char} {elements : List Element} : IsBlanks front →
    IsBlanks gap → (gap = [] → name = "=") → ElementsSpelling elements written →
    IsBlanks behind → TagSpelling name elements
      (['{', '$'] ++ (front ++ (name.toList ++ (gap ++ (written ++ (behind ++ ['$', '}']))))))

/-- A FOR tag may be written with single spaces and no other blanks. -/
theorem TagSpelling.loopTag {elements : List Element} {texts : List String}
    (h : List.Forall₂ (fun e text ↦ Spelled Exponent.size (.element e) text.toList) elements texts)
    (hne : elements ≠ []) : TagSpelling "FOR" elements
      ("\x7b$FOR " ++ " ".intercalate texts ++ "$\x7d").toList := by
  have htag : TagSpelling "FOR" elements _ := .full isBlanks_nil isBlanks_space nofun
    (.intercalate h hne) isBlanks_nil
  simpa using htag

theorem TagSpelling.opensTag {name : String} {elements : List Element} {tag : List Char}
    (h : TagSpelling name elements tag) (cs : List Char) :
    Escaping.opensTag (tag ++ cs) = true := by
  cases h with
  | bare _ _ => rfl
  | full _ _ _ _ _ => rfl

private theorem eq_false_of_stops {p : Char → Bool}
    (hp : [' ', '\t', '\r', '\n', '$'].any p = false) {c : Char}
    (hc : isBlank c = true ∨ c = '$') : p c = false := by
  refine Bool.eq_false_iff.mpr (List.any_eq_false.mp hp c ?_)
  simpa [isBlank, or_assoc] using hc

theorem Element.WellFormed.endsBefore_of_head {e : Element} (he : e.WellFormed)
    {written rest : List Char}
    (hrest : ∀ c ∈ rest.head?, isNameChar c = false ∧ Numeral.isNumeralChar c = false) :
    (TokenKind.element e).EndsBefore written rest := by
  cases he with
  | integer _ | double _ => exact Numeral.longest_of_head fun c hc ↦ (hrest c hc).2
  | string _ => exact trivial
  | variableName _ | functionName _ => exact fun c hc ↦ (hrest c hc).1
  | operator _ =>
    intro _ c hc
    have hname := (hrest c hc).1
    rw [isNameChar, Char.isAlphanum] at hname
    exact (Bool.or_eq_false_iff.mp (Bool.or_eq_false_iff.mp hname).1).2

/-- An element ends before a blank and before the end of the tag. -/
theorem Element.WellFormed.endsBefore {e : Element} (he : e.WellFormed) {written rest : List Char}
    (hrest : ∀ c ∈ rest.head?, isBlank c = true ∨ c = '$') :
    (TokenKind.element e).EndsBefore written rest :=
  he.endsBefore_of_head fun c hc ↦
    ⟨eq_false_of_stops (by decide) (hrest c hc), eq_false_of_stops (by decide) (hrest c hc)⟩

private theorem head?_gap_append {gap : List Char} (hgap : IsBlanks gap) (cs : List Char) :
    ∀ c ∈ (gap ++ '$' :: cs).head?, isBlank c = true ∨ c = '$' := by
  cases gap with
  | nil => exact forall_mem_head?_cons.mpr (Or.inr rfl)
  | cons d gap => exact forall_mem_head?_cons.mpr (Or.inl (hgap d List.mem_cons_self))

namespace Lexes

variable {cs : List Char} {kinds : List TokenKind}

private theorem element {e : Element} {written : List Char}
    (hspelled : Spelled Exponent.size (.element e) written)
    (hcs : ∀ c ∈ cs.head?, isBlank c = true ∨ c = '$') (h : Lexes .body cs kinds) :
    Lexes .body (written ++ cs) (.element e :: kinds) :=
  piece written
    ⟨.bodyElement e, hspelled, (Element.wellFormed_of_spelled hspelled).endsBefore hcs⟩ nofun h

theorem elements {es : List Element} {written gap : List Char} (hes : ElementsSpelling es written)
    (hgap : IsBlanks gap) (h : Lexes .text cs kinds) :
    Lexes .body (written ++ (gap ++ '$' :: '}' :: cs)) (es.map .element ++ .tagEnd :: kinds) := by
  induction hes with
  | single hspelled =>
    exact element hspelled (head?_gap_append hgap _) (blanks hgap nofun h.tagEnd)
  | @cons e es written between more hspelled hbetween hne _ ih =>
    rw [List.append_assoc, List.append_assoc]
    refine element hspelled ?_ (blanks hbetween nofun ih)
    obtain ⟨c, between, rfl⟩ := List.exists_cons_of_ne_nil hne
    exact forall_mem_head?_cons.mpr (Or.inl (hbetween c List.mem_cons_self))

private theorem opening {name : String} {front : List Char}
    (hname : name = "=" ∨ IsName name.toList) (hfront : IsBlanks front)
    (hcs : name = "=" ∨ ∀ c ∈ cs.head?, isNameChar c = false) (h : Lexes .body cs kinds) :
    Lexes .text (['{', '$'] ++ (front ++ (name.toList ++ cs)))
      (.tagStart :: .tagHead name :: kinds) := by
  have hspelled : Spelled Exponent.size (.tagHead name) name.toList := by
    rcases hname with rfl | hname
    · exact .equalsSign
    · have hword : Spelled Exponent.size _ _ := .tagHead hname
      rwa [String.ofList_toList] at hword
  have hhead : Lexes .head (name.toList ++ cs) (.tagHead name :: kinds) :=
    piece name.toList ⟨.tagHead name, hspelled, hcs⟩ nofun h
  exact piece ['{', '$'] ⟨.tagStart, .tagStart, trivial⟩ nofun (blanks hfront nofun hhead)

/-- A tag, and then whatever comes behind it. -/
theorem tag {name : String} {es : List Element} {tag : List Char}
    (htag : TagSpelling name es tag) (hname : name = "=" ∨ IsName name.toList)
    (h : Lexes .text cs kinds) : Lexes .text (tag ++ cs) (tagKinds name es ++ kinds) := by
  cases htag with
  | @bare front behind hfront hbehind =>
    have hends : ∀ c ∈ (behind ++ '$' :: '}' :: cs).head?, isNameChar c = false := fun c hc ↦
      eq_false_of_stops (by decide) (head?_gap_append hbehind _ c hc)
    have hend : Lexes .body (behind ++ '$' :: '}' :: cs) (.tagEnd :: kinds) :=
      blanks hbehind nofun h.tagEnd
    simpa [tagKinds] using opening hname hfront (Or.inr hends) hend
  | @full front gap written behind _ hfront hgap hequals hes hbehind =>
    have hrest := blanks hgap Mode.noConfusion (elements hes hbehind h)
    have hends : name = "=" ∨
        ∀ c ∈ (gap ++ (written ++ (behind ++ '$' :: '}' :: cs))).head?, isNameChar c = false := by
      cases gap with
      | nil => exact Or.inl (hequals rfl)
      | cons c gap =>
        have hc := hgap c List.mem_cons_self
        exact Or.inr (forall_mem_head?_cons.mpr (eq_false_of_stops (by decide) (Or.inl hc)))
    simpa [tagKinds] using opening hname hfront hends hrest

end Lexes

/-! ## Words in any mixture of capital and small letters -/

private theorem isNameStart_of_toLower {c : Char} (h : isNameStart c.toLower = true) :
    isNameStart c = true := by
  unfold Char.toLower at h
  split at h
  · rename_i hupper
    exact Bool.or_eq_true_iff.mpr (Or.inl (decide_eq_true hupper))
  · exact h

private theorem isName_of_map_toLower {name word : List Char} (h : name.map Char.toLower = word)
    (hne : word ≠ []) (hword : word.all isNameStart = true) : IsName name := by
  subst h
  have hname : ∀ c ∈ name, isNameStart c = true := fun c hc ↦
    isNameStart_of_toLower (List.all_eq_true.mp hword _ (List.mem_map_of_mem hc))
  obtain ⟨c, cs, rfl⟩ := List.exists_cons_of_ne_nil (List.map_eq_nil_iff.not.mp hne)
  exact .intro (hname c List.mem_cons_self) fun d hd ↦
    isNameChar_of_isNameStart (hname d (List.mem_cons_of_mem c hd))

theorem SpellsFor.isName {name : String} (h : SpellsFor name) : IsName name.toList :=
  isName_of_map_toLower h (List.cons_ne_nil _ _) (by decide)

theorem SpellsEnd.isName {name : String} (h : SpellsEnd name) : IsName name.toList :=
  isName_of_map_toLower h (List.cons_ne_nil _ _) (by decide)

/-! ## Derivations -/

namespace Derivation

/-- The ways in which a derivation may be written before the rest of a template. -/
inductive Spelling : Derivation → List Char → List Char → Prop
  | done (rest : List Char) : Spelling done [] rest
  | text {content : String} {t : Derivation} {written more rest : List Char} :
    TextSpelling (more ++ rest) content.toList written → Spelling t more rest →
    Spelling (text content t) (written ++ more) rest
  | echo {elements : List Element} {ne_nil : elements ≠ []} {t : Derivation}
    {tag more rest : List Char} : TagSpelling "=" elements tag → Spelling t more rest →
    Spelling (echo elements ne_nil t) (tag ++ more) rest
  | loop {opener : String} {spellsFor : SpellsFor opener} {header : LoopHeader}
    {isBound : ∀ e ∈ header.bounds, IsBound e} {body : Derivation} {closer : String}
    {spellsEnd : SpellsEnd closer} {t : Derivation} {first inner last more rest : List Char} :
    TagSpelling opener header.elements first → Spelling body inner (last ++ (more ++ rest)) →
    TagSpelling closer [] last → Spelling t more rest →
    Spelling (loop opener spellsFor header isBound body closer spellsEnd t)
      (first ++ (inner ++ (last ++ more))) rest

namespace Spelling

variable {t : Derivation} {written rest : List Char}

/-- Where text may end, what does not begin with text may follow. -/
private theorem opensTag (h : t.Spelling written rest)
    (hhead : ∀ content, t.nodes.head? ≠ some (.text content))
    (hrest : rest = [] ∨ Escaping.opensTag rest = true) :
    written ++ rest = [] ∨ Escaping.opensTag (written ++ rest) = true := by
  cases h with
  | done => exact hrest
  | text _ _ => exact absurd rfl (hhead _)
  | echo htag _ =>
    rw [List.append_assoc]
    exact Or.inr (htag.opensTag _)
  | loop hfirst _ _ _ =>
    rw [List.append_assoc]
    exact Or.inr (hfirst.opensTag _)

/-- **Spellings.** What a derivation of well-formed nodes is spelled as has the tokens of the
derivation. -/
theorem lexes (h : t.Spelling written rest) (hnodes : Node.WellFormed t.nodes)
    (hrest : rest = [] ∨ Escaping.opensTag rest = true) {kinds : List TokenKind}
    (hkinds : Lexes .text rest kinds) : Lexes .text (written ++ rest) (t.kinds ++ kinds) := by
  induction h generalizing kinds with
  | done rest => exact hkinds
  | @text content t written more rest hwritten hmore ih =>
    cases hnodes with
    | text hne hhead hnodes =>
      have hcontent : content.toList ≠ [] := fun hnil ↦ hne (String.toList_eq_nil_iff.mp hnil)
      have hspelled : Spelled Exponent.size _ _ :=
        .text (hwritten.ne_nil hcontent) hwritten.written
      rw [String.ofList_toList] at hspelled
      rw [List.append_assoc]
      -- No text comes next, so a tag or the end does, and there this text ends.
      exact Lexes.piece _ ⟨.text content, hspelled, hmore.opensTag hhead hrest, hwritten.unclosed⟩
        nofun (ih hnodes hrest hkinds)
  | echo htag _ ih =>
    cases hnodes with
    | echo _ _ hnodes =>
      rw [Derivation.kinds, List.append_assoc, List.append_assoc]
      exact Lexes.tag htag (Or.inl rfl) (ih hnodes hrest hkinds)
  | @loop _ spellsFor _ _ _ _ spellsEnd _ _ _ _ _ _ hfirst _ hlast _ ihbody ih =>
    cases hnodes with
    | loop _ hchildren hnodes =>
      -- The children are followed by the END tag, the loop by what follows the nodes.
      have hend := Lexes.tag hlast (Or.inr spellsEnd.isName) (ih hnodes hrest hkinds)
      have hbody := ihbody hchildren (Or.inr (hlast.opensTag _)) hend
      simp only [Derivation.kinds, List.append_assoc]
      exact Lexes.tag hfirst (Or.inr spellsFor.isName) hbody

end Spelling

end Derivation

/-! ## Whole templates -/

theorem Document.parse_of_lexes {source : String} {t : Derivation}
    (h : Lexes .text source.toList (t.kinds ++ [.endOfInput])) :
    Document.parse source = .ok ⟨t.nodes⟩ := by
  obtain ⟨tokens, htokens, hkinds⟩ := exists_tokenize_of_lexes h
  exact Document.parse_of_derivation htokens hkinds

theorem Derivation.Spelling.lexes_source {t : Derivation} {source : String}
    (h : t.Spelling source.toList []) (hnodes : Node.WellFormed t.nodes) :
    Lexes .text source.toList (t.kinds ++ [.endOfInput]) := by
  have hlexes := h.lexes hnodes (Or.inl rfl) .endOfInput
  rwa [List.append_nil] at hlexes

/-- Whether a document may be spelled as a template, with its FOR and END in any mixture of capital
and small letters. -/
def Document.SpelledAs (doc : Document) (source : String) : Prop :=
  ∃ t : Derivation, t.nodes = doc.children ∧ t.Spelling source.toList []

theorem Document.SpelledAs.parse {doc : Document} {source : String} (h : doc.SpelledAs source)
    (hdoc : doc.WellFormed) : Document.parse source = .ok doc := by
  obtain ⟨t, ht, hspelling⟩ := h
  rw [Document.WellFormed, ← ht] at hdoc
  rw [Document.parse_of_lexes (hspelling.lexes_source hdoc), ht]

end TagTemplate
