import TagTemplate.Proofs.Document.Rendering
import TagTemplate.Source

/-!
# Formatting

To format a template is to read it as a document and to write that. Seen from the tokens nothing
happens: those of the formatted template are those of the template, one by one and in the same
order, but for FOR and END, which are now in capitals (`tokenize_render_of_parse`). What is lost is
what tokens do not show: blanks, and how an element or a text was spelled.

Seen from the document formatting is a choice. All templates that a document may be spelled as are
read as this document, and are formatted as the same one of them (`format_of_spelledAs`).
-/

namespace TagTemplate

/-! ## A loop behind a brace -/

/-- A brace, and then a loop with an echo tag in it. -/
def braceAndLoop : Document where
  children := [.text "\x7b", .loop ⟨"i", .integer 1, .variableName "n", none⟩
    [.echo [.variableName "x", .operator .sub, .string "a b"]]]

/-- A source for it, with blanks of every sort, and with nothing in capitals or protected that need
not be. -/
def braceAndLoopSource : String :=
  "\x7b\x7b$ fOr\ti 1\r\nn $\x7d\x7b$\n= x - \"a b\"$\x7d\x7b$End $\x7d"

private theorem isName_singleton {c : Char} (h : isNameStart c = true) : IsName [c] :=
  .intro h (List.forall_mem_nil _)

theorem wellFormed_braceAndLoop : braceAndLoop.WellFormed := by
  have hbounds : ∀ e ∈ [Element.integer 1, .variableName "n"], e.WellFormed :=
    List.forall_mem_cons.mpr ⟨.integer 1,
      List.forall_mem_singleton.mpr (.variableName (isName_singleton rfl))⟩
  have hheader : LoopHeader.WellFormed ⟨"i", .integer 1, .variableName "n", none⟩ :=
    ⟨isName_singleton rfl, by decide, hbounds⟩
  have helements : ∀ e ∈ [Element.variableName "x", .operator .sub, .string "a b"],
      e.WellFormed :=
    List.forall_mem_cons.mpr ⟨.variableName (isName_singleton rfl),
      List.forall_mem_cons.mpr ⟨.operator _, List.forall_mem_singleton.mpr (.string _)⟩⟩
  have hecho : Node.WellFormed [.echo [.variableName "x", .operator .sub, .string "a b"]] :=
    .echo (List.cons_ne_nil _ _) helements .nil
  exact .text (by decide) (by simp) (.loop hheader hecho .nil)

theorem spelledAs_braceAndLoopSource : braceAndLoop.SpelledAs braceAndLoopSource := by
  have hname : ∀ c, isNameStart c = true →
      Spelled Exponent.size (.element (.variableName (String.ofList [c]))) [c] :=
    fun c hc ↦ .variableName (isName_singleton hc)
  have hone : Spelled Exponent.size (.element (.integer 1)) ['1'] :=
    (Element.WellFormed.integer 1).spelled_text
  have hstring : Spelled Exponent.size (.element (.string "a b")) ['"', 'a', ' ', 'b', '"'] :=
    (Element.WellFormed.string "a b").spelled_text
  have hnewline : IsBlanks ['\r', '\n'] :=
    List.forall_mem_cons.mpr ⟨rfl, isBlanks_singleton rfl⟩
  have hfor : TagSpelling "fOr" [.variableName "i", .integer 1, .variableName "n"] _ :=
    .full isBlanks_space (isBlanks_singleton (c := '\t') rfl) nofun
      (.cons_space (hname 'i' rfl)
        (.cons hone hnewline (List.cons_ne_nil _ _) (.single (hname 'n' rfl))))
      isBlanks_space
  have hecho : TagSpelling "=" [.variableName "x", .operator .sub, .string "a b"] _ :=
    .full (isBlanks_singleton (c := '\n') rfl) isBlanks_space nofun
      (.cons_space (hname 'x' rfl) (.cons_space (.operator .sub) (.single hstring))) isBlanks_nil
  have hend : TagSpelling "End" [] _ := .bare isBlanks_nil isBlanks_space
  have hbrace : ∀ rest, TextSpelling ('{' :: rest) ['{'] ['{'] := fun rest ↦
    .plain (by decide) (fun _ ↦ by simp) .nil
  have hbound : ∀ e ∈ LoopHeader.bounds ⟨"i", .integer 1, .variableName "n", none⟩, IsBound e :=
    List.forall_mem_cons.mpr ⟨.integer 1, List.forall_mem_singleton.mpr (.variableName "n")⟩
  have hspelling : Derivation.Spelling (.text "\x7b" (.loop "fOr" rfl _ hbound
      (.echo _ (List.cons_ne_nil _ _) .done) "End" rfl .done)) _ [] :=
    .text (hbrace _) (.loop hfor (.echo hecho (.done _)) hend (.done _))
  exact ⟨_, rfl, hspelling⟩

/-! ## Tokens -/

/-- The head of a tag with FOR and END in capitals. -/
def capitalHead (name : String) : String :=
  if SpellsFor name then "FOR" else if SpellsEnd name then "END" else name

theorem capitalHead_equals : capitalHead "=" = "=" := by decide

theorem capitalHead_of_spellsFor {name : String} (h : SpellsFor name) : capitalHead name = "FOR" :=
  if_pos h

theorem capitalHead_of_spellsEnd {name : String} (h : SpellsEnd name) :
    capitalHead name = "END" := by
  rw [capitalHead, if_neg fun hfor ↦ not_spellsEnd_of_spellsFor hfor h, if_pos h]

/-- The kind of a token with FOR and END in capitals. -/
def TokenKind.inCapitals : TokenKind → TokenKind
  | tagHead name => tagHead (capitalHead name)
  | kind => kind

theorem map_inCapitals_tagKinds (name : String) (elements : List Element) :
    (tagKinds name elements).map TokenKind.inCapitals = tagKinds (capitalHead name) elements := by
  have helements : (elements.map TokenKind.element).map TokenKind.inCapitals
      = elements.map TokenKind.element := by
    rw [List.map_map]
    rfl
  rw [tagKinds, List.map_cons, List.map_cons, List.map_append, helements]
  rfl

theorem Derivation.kinds_inCapitals (t : Derivation) :
    t.inCapitals.kinds = t.kinds.map TokenKind.inCapitals := by
  induction t with
  | done => rfl
  | text content t ih =>
    rw [inCapitals, kinds, kinds, ih, List.map_cons]
    rfl
  | echo elements ne_nil t ih =>
    rw [inCapitals, kinds, kinds, ih, List.map_append, map_inCapitals_tagKinds, capitalHead_equals]
  | loop opener spellsFor header isBound body closer spellsEnd t ihbody ih =>
    simp only [inCapitals, kinds, ihbody, ih, List.map_append, map_inCapitals_tagKinds,
      capitalHead_of_spellsFor spellsFor, capitalHead_of_spellsEnd spellsEnd]

/-- **Formatting keeps the tokens.** A source that is read as a document has tokens, and what the
document is written as has the same ones with FOR and END in capitals. -/
theorem tokenize_render_of_parse {source : String} {doc : Document}
    (h : Document.parse source = .ok doc) :
    ∃ tokens text rewritten, tokenize source = .ok tokens ∧ doc.render = .ok text ∧
      tokenize text = .ok rewritten ∧
      rewritten.map Token.kind = tokens.map fun token ↦ token.kind.inCapitals := by
  have hdoc := Document.wellFormed_of_parse h
  obtain ⟨tokens, htokens, t, hkinds, rfl⟩ := Document.exists_derivation_of_parse h
  obtain ⟨text, hrender, hspelling⟩ := hdoc.exists_spelling_render rfl
  have hlexes := hspelling.lexes_source (by rwa [Derivation.nodes_inCapitals])
  obtain ⟨rewritten, hrewritten, hrewrittenKinds⟩ := exists_tokenize_of_lexes hlexes
  refine ⟨tokens, text, rewritten, htokens, hrender, hrewritten, ?_⟩
  calc rewritten.map Token.kind
      = (t.kinds ++ [TokenKind.endOfInput]).map TokenKind.inCapitals := by
        rw [hrewrittenKinds, t.kinds_inCapitals, List.map_append]
        rfl
    _ = tokens.map fun token ↦ token.kind.inCapitals := by
        rw [← hkinds, List.map_map]
        rfl

theorem tokenize_render_braceAndLoop :
    Document.parse braceAndLoopSource = .ok braceAndLoop ∧
      ∃ tokens text rewritten, tokenize braceAndLoopSource = .ok tokens ∧
        braceAndLoop.render = .ok text ∧ tokenize text = .ok rewritten ∧
        rewritten.map Token.kind = tokens.map fun token ↦ token.kind.inCapitals := by
  have hparse := spelledAs_braceAndLoopSource.parse wellFormed_braceAndLoop
  exact ⟨hparse, tokenize_render_of_parse hparse⟩

/-! ## Spellings -/

/-- **Spellings.** A well-formed document is read from every source that it may be spelled as, and
all these sources are formatted alike, as what the document is written as. -/
theorem format_of_spelledAs {doc : Document} (hdoc : doc.WellFormed) {source : String}
    (h : doc.SpelledAs source) :
    Document.parse source = .ok doc ∧
      ∃ text, doc.render = .ok text ∧ Source.format source = .ok text := by
  have hparse := h.parse hdoc
  refine ⟨hparse, _, doc.render_eq, ?_⟩
  have hformat : Source.format source = doc.render.mapError .walk := by
    rw [Source.format, hparse]
    rfl
  rw [hformat, doc.render_eq]
  rfl

theorem format_braceAndLoopSource :
    braceAndLoop.WellFormed ∧ braceAndLoop.SpelledAs braceAndLoopSource ∧
      Document.parse braceAndLoopSource = .ok braceAndLoop ∧
      Source.format braceAndLoopSource
        = .ok "\\\x7b\x7b$FOR i 1 n$\x7d\x7b$=x - \"a b\"$\x7d\x7b$END$\x7d" := by
  obtain ⟨hparse, text, hrender, hformat⟩ :=
    format_of_spelledAs wellFormed_braceAndLoop spelledAs_braceAndLoopSource
  have htext : braceAndLoop.render
      = .ok "\\\x7b\x7b$FOR i 1 n$\x7d\x7b$=x - \"a b\"$\x7d\x7b$END$\x7d" := by
    decide +kernel
  obtain rfl := Except.ok.inj (hrender.symm.trans htext)
  exact ⟨wellFormed_braceAndLoop, spelledAs_braceAndLoopSource, hparse, hformat⟩

end TagTemplate
