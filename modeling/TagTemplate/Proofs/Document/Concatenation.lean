import TagTemplate.Proofs.Document.Rendering
import TagTemplate.Proofs.Token.Seam

/-!
# Documents side by side

Two templates, one after the other, are the template of two documents, one after the other: the
nodes of the first are followed by those of the second, and of a text at the end of the first and
one at the beginning of the second comes one text (`Node.join`). Only where an open brace meets a
dollar sign is the whole another template than its parts (`EndsInOpenBrace`).

The grammar sees to the rest. Derivations are joined like nodes (`Derivation.join`), which joins the
tokens that they are from and the nodes that they derive (`Derivation.kinds_join`,
`Derivation.nodes_join`), and a derivation between a FOR tag and an END tag is one of a loop.
-/

namespace TagTemplate

/-! ## Nodes and derivations -/

namespace Node

/-- The text that two texts are together. -/
def merge? : Node → Node → Option Node
  | text content, text content' => some (text (content ++ content'))
  | _, _ => none

/-- Nodes followed by others: a text at the end of the first and one at the beginning of the second
are one. -/
def join (nodes more : List Node) : List Node := joinEnds merge? nodes more

end Node

/-- A tag is no text, so what is joined behind it is joined behind its end. -/
theorem join_tagKinds (before : List TokenKind) (name : String) (elements : List Element)
    (kinds more : List TokenKind) :
    TokenKind.join (before ++ (tagKinds name elements ++ kinds)) more
      = before ++ (tagKinds name elements ++ TokenKind.join kinds more) := by
  have hend : ∀ kind, TokenKind.merge? .tagEnd kind = none := fun _ ↦ rfl
  have h := joinEnds_append hend
    (before ++ .tagStart :: .tagHead name :: elements.map .element) kinds more
  simpa [tagKinds, TokenKind.join] using h

namespace Derivation

/-- A derivation followed by another: a text at the end of the first and one at the beginning of the
second are one. -/
def join : Derivation → Derivation → Derivation
  | done, more => more
  | text content done, text content' more => text (content ++ content') more
  | text content rest, more => text content (rest.join more)
  | echo elements ne_nil rest, more => echo elements ne_nil (rest.join more)
  | loop opener spellsFor header isBound body closer spellsEnd rest, more =>
    loop opener spellsFor header isBound body closer spellsEnd (rest.join more)

private theorem merge?_head {u : Derivation} (h : ∀ content more, u ≠ text content more)
    (content : String) :
    (∀ kind ∈ u.kinds.head?, TokenKind.merge? (.text content) kind = none) ∧
      ∀ node ∈ u.nodes.head?, Node.merge? (.text content) node = none := by
  cases u with
  | done => exact ⟨nofun, nofun⟩
  | text content' more => exact absurd rfl (h content' more)
  | echo _ _ _ =>
    constructor
    · rintro _ ⟨⟩
      rfl
    · rintro _ ⟨⟩
      rfl
  | loop _ _ _ _ _ _ _ _ =>
    constructor
    · rintro _ ⟨⟩
      rfl
    · rintro _ ⟨⟩
      rfl

private theorem eq_done_of_nodes_eq_nil {t : Derivation} (h : t.nodes = []) : t = done := by
  cases t with
  | done => rfl
  | text _ _ | echo _ _ _ | loop _ _ _ _ _ _ _ _ => contradiction

theorem kinds_join (t u : Derivation) : (t.join u).kinds = TokenKind.join t.kinds u.kinds := by
  fun_induction join t u with
  | case1 u => rfl
  | case2 content content' u => rfl
  | case3 content t u hends ih =>
    have hmerge : t.kinds = [] → ∀ kind ∈ u.kinds.head?,
        TokenKind.merge? (.text content) kind = none := by
      intro hnil
      obtain rfl : t = done := kinds_injective hnil
      exact (merge?_head (fun content' more heq ↦ hends content' more heq rfl) content).1
    rw [kinds, kinds, ih]
    exact (joinEnds_cons hmerge).symm
  | case4 elements ne_nil t u ih =>
    rw [kinds, kinds, ih]
    exact (join_tagKinds [] "=" elements t.kinds u.kinds).symm
  | case5 opener spellsFor header isBound body closer spellsEnd t u ih =>
    have hjoin := join_tagKinds (tagKinds opener header.elements ++ body.kinds) closer []
      t.kinds u.kinds
    rw [List.append_assoc, List.append_assoc] at hjoin
    rw [kinds, kinds, ih]
    exact hjoin.symm

theorem nodes_join (t u : Derivation) : (t.join u).nodes = Node.join t.nodes u.nodes := by
  fun_induction join t u with
  | case1 u => rfl
  | case2 content content' u => rfl
  | case3 content t u hends ih =>
    have hmerge : t.nodes = [] → ∀ node ∈ u.nodes.head?,
        Node.merge? (.text content) node = none := by
      intro hnil
      obtain rfl := eq_done_of_nodes_eq_nil hnil
      exact (merge?_head (fun content' more heq ↦ hends content' more heq rfl) content).2
    rw [nodes, nodes, ih]
    exact (joinEnds_cons hmerge).symm
  | case4 elements ne_nil t u ih =>
    rw [nodes, nodes, ih]
    exact (joinEnds_cons fun _ _ _ ↦ rfl).symm
  | case5 opener spellsFor header isBound body closer spellsEnd t u ih =>
    rw [nodes, nodes, ih]
    exact (joinEnds_cons fun _ _ _ ↦ rfl).symm

end Derivation

/-! ## Documents -/

theorem Document.exists_scans_of_parse {source : String} {doc : Document}
    (h : Document.parse source = .ok doc) :
    ∃ (t : Derivation) (tokens : List Token), doc = ⟨t.nodes⟩ ∧
      Scans Exponent.size .origin .text source.toList tokens ∧
      tokens.map Token.kind = t.kinds ++ [.endOfInput] := by
  obtain ⟨tokens, htokens, t, hkinds, rfl⟩ := Document.exists_derivation_of_parse h
  exact ⟨t, tokens, rfl, tokenize_eq_ok_iff_scans.mp htokens, hkinds⟩

theorem Document.parse_append {source source' : String} {doc doc' : Document}
    (h : Document.parse source = .ok doc) (h' : Document.parse source' = .ok doc')
    (hseam : ¬(EndsInOpenBrace source.toList ∧ source'.toList.head? = some '$')) :
    Document.parse (source ++ source') = .ok ⟨Node.join doc.children doc'.children⟩ := by
  obtain ⟨t, tokens, rfl, hscans, hkinds⟩ := exists_scans_of_parse h
  obtain ⟨u, tokens', rfl, hscans', hkinds'⟩ := exists_scans_of_parse h'
  have hlexes' := hscans'.lexes
  have hlexes := hscans.lexes_append hkinds hlexes' hseam
  have hend : ∀ content, TokenKind.endOfInput ≠ .text content := nofun
  rw [hkinds', TokenKind.join_append hend, ← Derivation.kinds_join, ← String.toList_append]
    at hlexes
  rw [Document.parse_of_lexes hlexes, Derivation.nodes_join]

theorem Document.parse_loop {source : String} {doc : Document}
    (h : Document.parse source = .ok doc) {header : LoopHeader}
    (hbound : ∀ e ∈ header.bounds, IsBound e) {opener : String}
    (hopener : TagSpelling "FOR" header.elements opener.toList) :
    Document.parse (opener ++ source ++ endTag) = .ok ⟨[.loop header doc.children]⟩ := by
  obtain ⟨t, tokens, rfl, hscans, hkinds⟩ := exists_scans_of_parse h
  have hend := Lexes.tag tagSpelling_endTag (Or.inr (SpellsEnd.isName rfl)) .endOfInput
  have hseam : ¬(EndsInOpenBrace source.toList ∧ (endTag.toList ++ []).head? = some '$') :=
    fun hdollar ↦ absurd hdollar.2 (by decide)
  have hinner := hscans.lexes_append hkinds hend hseam
  have hall := Lexes.tag hopener (Or.inr (SpellsFor.isName rfl)) hinner
  have hjoin : TokenKind.join t.kinds (tagKinds "END" [] ++ [.endOfInput])
      = t.kinds ++ (tagKinds "END" [] ++ [.endOfInput]) :=
    TokenKind.join_of_head_ne_text fun _ ↦ nofun
  have htokens : Lexes .text (opener ++ source ++ endTag).toList
      ((Derivation.loop "FOR" rfl header hbound t "END" rfl .done).kinds ++ [.endOfInput]) := by
    rw [hjoin] at hall
    simpa [Derivation.kinds] using hall
  exact Document.parse_of_lexes htokens

/-- **Concatenation.** Sources that are read as documents, one after the other, are read as the
nodes of both, unless an open brace meets a dollar sign; and such a source between the FOR tag of
any header and an END tag is read as the loop over its nodes. -/
theorem parse_of_parts :
    (∀ source source' doc doc', Document.parse source = .ok doc →
      Document.parse source' = .ok doc' →
      ¬(EndsInOpenBrace source.toList ∧ source'.toList.head? = some '$') →
      Document.parse (source ++ source') = .ok ⟨Node.join doc.children doc'.children⟩) ∧
    ∀ source doc (header : LoopHeader) texts, Document.parse source = .ok doc →
      (∀ e ∈ header.bounds, IsBound e) →
      List.Forall₂ (fun e text ↦ Spelled Exponent.size (.element e) text.toList)
        header.elements texts →
      Document.parse ("\x7b$FOR " ++ " ".intercalate texts ++ "$\x7d" ++ source ++ "\x7b$END$\x7d")
        = .ok ⟨[.loop header doc.children]⟩ := by
  refine ⟨fun source source' doc doc' h h' hseam ↦ Document.parse_append h h' hseam, ?_⟩
  intro source doc header texts h hbound htexts
  exact Document.parse_loop h hbound (TagSpelling.loopTag htexts (List.cons_ne_nil _ _))

/-- Two texts meet at a dollar sign, the brace before which is protected; then a text is put into a
loop. -/
theorem parse_of_texts_that_meet :
    Document.parse ("\x7b$=x$\x7da\\\x7b" ++ "$b\x7b$=y$\x7d")
      = .ok ⟨[.echo [.variableName "x"], .text "a\x7b$b", .echo [.variableName "y"]]⟩ ∧
    Document.parse ("\x7b$FOR " ++ " ".intercalate ["i", "1", "-2"] ++ "$\x7d" ++ "a" ++
      "\x7b$END$\x7d") = .ok ⟨[.loop ⟨"i", .integer 1, .integer (-2), none⟩ [.text "a"]]⟩ := by
  have hfirst : Document.parse "\x7b$=x$\x7da\\\x7b"
      = .ok ⟨[.echo [.variableName "x"], .text "a\x7b"]⟩ := by
    decide +kernel
  have hsecond : Document.parse "$b\x7b$=y$\x7d"
      = .ok ⟨[.text "$b", .echo [.variableName "y"]]⟩ := by
    decide +kernel
  have hinner : Document.parse "a" = .ok ⟨[.text "a"]⟩ := by
    decide +kernel
  have hseam : ¬(EndsInOpenBrace "\x7b$=x$\x7da\\\x7b".toList ∧
      "$b\x7b$=y$\x7d".toList.head? = some '$') := by
    rintro ⟨⟨before, hbefore, heven⟩, -⟩
    have hfront := congrArg List.dropLast hbefore
    rw [List.dropLast_concat] at hfront
    rw [← hfront, EvenBackslashes] at heven
    exact absurd heven (by decide)
  have hbounds : ∀ e ∈ LoopHeader.bounds ⟨"i", .integer 1, .integer (-2), none⟩, IsBound e :=
    List.forall_mem_cons.mpr ⟨.integer 1, List.forall_mem_singleton.mpr (.integer (-2))⟩
  have hname : IsName ['i'] := .intro rfl (List.forall_mem_nil _)
  have hheader : ∀ e ∈ LoopHeader.elements ⟨"i", .integer 1, .integer (-2), none⟩, e.WellFormed :=
    List.forall_mem_cons.mpr ⟨.variableName hname,
      List.forall_mem_cons.mpr ⟨.integer 1, List.forall_mem_singleton.mpr (.integer (-2))⟩⟩
  have htexts := forall₂_spelled_text hheader
  obtain ⟨hjoin, hloop⟩ := parse_of_parts
  exact ⟨hjoin _ _ _ _ hfirst hsecond hseam, hloop _ _ _ _ hinner hbounds htexts⟩

end TagTemplate
