import TagTemplate.Proofs.Command.Agreement
import TagTemplate.Proofs.Document.OutlineLines

/-!
# Tokens are known by their listing

A listing of tokens has a line for each token, with the line and the column where the token starts
and then the token itself. Unlike an outline it never has more lines than that: strings are quoted
in it as texts are, names and numbers have no line breaks, and so a listing consists of its lines
(`ConsistsOfLines`), whatever is in the source.

A line loses nothing of what it shows. A display is a word and what is behind the word, the first
blank parts the two, and no two kinds of token share a word (`TokenKind.display_inj`). What is
behind the word is a quoted text or an element as a template would have it, and both are known by
how they are written. The place is known as well, since it is digits up to the colon and digits up
to the gap (`Source.tokenLine_inj`).

What a line does not show is where a token stops, and how far into the source it starts.
-/

namespace TagTemplate

theorem toDigits_ten_injective : Function.Injective (Nat.toDigits 10) :=
  Function.LeftInverse.injective (g := fun digits ↦ Nat.ofDigitChars 10 digits 0) fun _ ↦
    Nat.ofDigitChars_ten_toDigits

/-! ## Displays of elements -/

namespace Element

/-- The word that the display of an element begins with. -/
def word : Element → String
  | integer _ => "INTEGER"
  | double _ => "DOUBLE"
  | string _ => "STRING"
  | variableName _ => "VARIABLE"
  | functionName _ => "FUNCTION"
  | operator _ => "OPERATOR"

/-- What the display of an element has behind the word. -/
def shown : Element → String
  | string content => Quoted.quote content
  | e => e.text

theorem toList_display (e : Element) :
    e.display.toList = e.word.toList ++ ' ' :: e.shown.toList := by
  cases e <;> simp [display, word, shown, text]

theorem shown_cases (e : Element) :
    (∃ content, e = string content) ∨ (e.word ≠ "STRING" ∧ e.shown = e.text) := by
  cases e with
  | string content => exact Or.inl ⟨content, rfl⟩
  | integer _ | double _ | variableName _ | functionName _ | operator _ =>
    exact Or.inr ⟨by simp [word], rfl⟩

theorem WellFormed.eq_of_shown_eq {e f : Element} (he : e.WellFormed) (hf : f.WellFormed)
    (hword : e.word = f.word) (h : e.shown = f.shown) : e = f := by
  rcases e.shown_cases with ⟨content, rfl⟩ | ⟨hne, hshown⟩
  · rcases f.shown_cases with ⟨content', rfl⟩ | ⟨hne, -⟩
    · rw [Quoted.quote_inj.mp h]
    · exact absurd hword.symm hne
  · rcases f.shown_cases with ⟨content', rfl⟩ | ⟨-, hshown'⟩
    · exact absurd hword hne
    · have htext : e.text.toList ++ [] = f.text.toList ++ [] := by rw [← hshown, h, hshown']
      exact (he.text_append_inj hf (by simp) (by simp) htext).1

theorem WellFormed.lineFeed_notMem_shown {e : Element} (he : e.WellFormed) :
    '\n' ∉ e.shown.toList := by
  rcases e.shown_cases with ⟨content, rfl⟩ | ⟨hne, hshown⟩
  · exact Quoted.lineFeed_notMem_quote content
  · rw [hshown, ← lineFeeds_eq_zero_iff, he.lineFeeds_text, stringLineFeeds_eq_zero_iff]
    rintro content rfl
    exact absurd rfl hne

end Element

/-! ## Displays of tokens -/

namespace TokenKind

/-- The word that the display of a token begins with. -/
def word : TokenKind → String
  | text _ => "TEXT"
  | tagStart => "TAG_START"
  | tagHead _ => "TAG_NAME"
  | tagEnd => "TAG_END"
  | element e => e.word
  | endOfInput => "EOF"

/-- What the display of a token has behind the word. -/
def behindWord : TokenKind → List Char
  | text content => ' ' :: (Quoted.quote content).toList
  | tagHead name => ' ' :: name.toList
  | element e => ' ' :: e.shown.toList
  | tagStart | tagEnd | endOfInput => []

theorem toList_display (kind : TokenKind) :
    kind.display.toList = kind.word.toList ++ kind.behindWord := by
  cases kind with
  | element e => exact e.toList_display
  | _ => simp [display, word, behindWord]

theorem space_notMem_word (kind : TokenKind) : ∀ c ∈ kind.word.toList, (c != ' ') = true := by
  cases kind with
  | element e => cases e <;> simp [word, Element.word]
  | _ => simp [word]

theorem head?_behindWord (kind : TokenKind) : ∀ c ∈ kind.behindWord.head?, (c != ' ') = false := by
  cases kind <;> simp [behindWord]

theorem element_of_word_eq {kind : TokenKind} {e : Element} (h : kind.word = e.word) :
    ∃ f, kind = element f := by
  cases kind with
  | element f => exact ⟨f, rfl⟩
  | _ => cases e <;> simp [word, Element.word] at h

/-- A token as it may be in a source is known by its display. -/
theorem display_inj {size : List Char → ℕ} {kind kind' : TokenKind} {written written' : List Char}
    (hspelled : Spelled size kind written) (hspelled' : Spelled size kind' written')
    (h : kind.display = kind'.display) : kind = kind' := by
  have hlists := congrArg String.toList h
  rw [toList_display, toList_display] at hlists
  obtain ⟨hchars, hbehind⟩ := eq_and_eq_of_append_eq kind.space_notMem_word
    kind'.space_notMem_word kind.head?_behindWord kind'.head?_behindWord hlists
  have hword : kind.word = kind'.word := String.toList_inj.mp hchars
  by_cases helement : ∃ e, kind = element e
  · obtain ⟨e, rfl⟩ := helement
    obtain ⟨f, rfl⟩ := element_of_word_eq hword.symm
    have hshown := String.toList_inj.mp (List.cons.inj hbehind).2
    rw [(Element.wellFormed_of_spelled hspelled).eq_of_shown_eq
      (Element.wellFormed_of_spelled hspelled') hword hshown]
  · have helement' : ¬∃ f, kind' = element f := by
      rintro ⟨f, rfl⟩
      exact helement (element_of_word_eq hword)
    -- The words of the other kinds differ, so only tokens of one kind are left to compare.
    cases kind <;> cases kind' <;> simp_all [word, behindWord, String.toList_inj, Quoted.quote_inj]

theorem lineFeed_notMem_display {size : List Char → ℕ} {kind : TokenKind} {written : List Char}
    (h : Spelled size kind written) : '\n' ∉ kind.display.toList := by
  have hword : '\n' ∉ kind.word.toList := by
    cases kind with
    | element e => cases e <;> simp [word, Element.word]
    | _ => simp [word]
  have hbehind : '\n' ∉ kind.behindWord := by
    cases kind with
    | text content => simpa [behindWord] using Quoted.lineFeed_notMem_quote content
    | element e =>
      simpa [behindWord] using (Element.wellFormed_of_spelled h).lineFeed_notMem_shown
    | tagHead name =>
      cases h with
      | tagHead hname => simpa [behindWord] using Element.lineFeed_notMem_of_isName hname
      | equalsSign => simp [behindWord]
    | tagStart | tagEnd | endOfInput => simp [behindWord]
  rw [toList_display, List.mem_append, not_or]
  exact ⟨hword, hbehind⟩

end TokenKind

/-! ## Lines -/

/-- Whether two tokens are the same and start at the same line and column. -/
structure Token.Alike (token other : Token) : Prop where
  /-- They are of the same kind, with the same text, name or element. -/
  kind : token.kind = other.kind
  /-- They start on the same line. -/
  line : token.start.line = other.start.line
  /-- They start in the same column. -/
  column : token.start.column = other.start.column

namespace Source

variable {size : List Char → ℕ} {gap : String} {token other : Token}

theorem toList_tokenLine (gap : String) (token : Token) :
    (tokenLine gap token).toList = Nat.toDigits 10 token.start.line ++ ':' ::
      (Nat.toDigits 10 token.start.column ++ (gap.toList ++ token.kind.display.toList)) := by
  simp [tokenLine]

theorem tokenLine_eq_of_alike (h : token.Alike other) :
    tokenLine gap token = tokenLine gap other := by
  rw [tokenLine, tokenLine, h.kind, h.line, h.column]

theorem tokenLine_inj {c : Char} {cs written written' : List Char}
    (hgap : gap.toList = c :: cs) (hc : c.isDigit = false)
    (hspelled : Spelled size token.kind written) (hspelled' : Spelled size other.kind written')
    (h : tokenLine gap token = tokenLine gap other) : token.Alike other := by
  have hdigits : ∀ n, ∀ d ∈ Nat.toDigits 10 n, d.isDigit = true := fun n d hd ↦
    Nat.isDigit_of_mem_toDigits (by decide) (by decide) hd
  have hends : ∀ rest : List Char, ∀ d ∈ (gap.toList ++ rest).head?, d.isDigit = false := by
    intro rest
    rw [hgap]
    exact forall_mem_head?_cons.mpr hc
  have hlists := congrArg String.toList h
  rw [toList_tokenLine, toList_tokenLine] at hlists
  obtain ⟨hline, hrest⟩ := eq_and_eq_of_append_cons_eq (hdigits _) (hdigits _) rfl hlists
  obtain ⟨hcolumn, hrest⟩ := eq_and_eq_of_append_eq (hdigits _) (hdigits _) (hends _) (hends _)
    hrest
  have hdisplay := String.toList_inj.mp (List.append_cancel_left hrest)
  exact ⟨TokenKind.display_inj hspelled hspelled' hdisplay, toDigits_ten_injective hline,
    toDigits_ten_injective hcolumn⟩

theorem lineFeed_notMem_tokenLine {written : List Char} (hgap : '\n' ∉ gap.toList)
    (hspelled : Spelled size token.kind written) : '\n' ∉ (tokenLine gap token).toList := by
  have hdigits : ∀ n, '\n' ∉ Nat.toDigits 10 n := fun n hmem ↦
    absurd (Nat.isDigit_of_mem_toDigits (by decide) (by decide) hmem) (by decide)
  have hdisplay := TokenKind.lineFeed_notMem_display hspelled
  rw [toList_tokenLine]
  simp [hdigits, hgap, hdisplay]

theorem map_tokenLine_eq_iff {c : Char} {cs : List Char} {tokens others : List Token}
    (hgap : gap.toList = c :: cs) (hc : c.isDigit = false)
    (htokens : ∀ token ∈ tokens, ∃ written, Spelled size token.kind written)
    (hothers : ∀ other ∈ others, ∃ written, Spelled size other.kind written) :
    tokens.map (tokenLine gap) = others.map (tokenLine gap) ↔
      List.Forall₂ Token.Alike tokens others := by
  constructor
  · intro h
    induction tokens generalizing others with
    | nil =>
      rw [List.map_nil] at h
      rw [List.map_eq_nil_iff.mp h.symm]
      exact .nil
    | cons token tokens ih =>
      obtain ⟨other, others, rfl, hline, hlines⟩ := List.map_eq_cons_iff.mp h.symm
      rw [List.forall_mem_cons] at htokens hothers
      obtain ⟨⟨written, hspelled⟩, htokens⟩ := htokens
      obtain ⟨⟨written', hspelled'⟩, hothers⟩ := hothers
      exact .cons (tokenLine_inj hgap hc hspelled hspelled' hline.symm)
        (ih htokens hothers hlines.symm)
  · intro h
    induction h with
    | nil => rfl
    | cons halike _ ih =>
      rw [List.forall_mem_cons] at htokens hothers
      rw [List.map_cons, List.map_cons, tokenLine_eq_of_alike halike, ih htokens.2 hothers.2]

end Source

/-! ## Whole listings -/

theorem forall_spelled_of_tokenize {source : String} {tokens : List Token}
    (h : tokenize source = .ok tokens) :
    ∀ token ∈ tokens, ∃ written, Spelled Exponent.size token.kind written :=
  (tokenize_eq_ok_iff_scans.mp h).spelled

theorem Command.report_tokens_of_tokenize (path : String) {source : String} {tokens : List Token}
    (h : tokenize source = .ok tokens) :
    ∃ text, (Command.tokens path).report (.file source.toUTF8) = { output := text } ∧
      ConsistsOfLines text (tokens.map (Source.tokenLine "\t")) := by
  refine ⟨_, by rw [Command.report_tokens, h], ?_, ?_⟩
  · rw [List.map_map]
    rfl
  · refine List.forall_mem_map.mpr fun token htoken ↦ ?_
    obtain ⟨written, hspelled⟩ := forall_spelled_of_tokenize h token htoken
    exact Source.lineFeed_notMem_tokenLine (by decide) hspelled

/-- **Listings.** The tokens of a source are listed in lines, one for each token, with a line feed
at the end of each and no other line feed. And two sources have the same listing if and only if
they have as many tokens, and the tokens are the same in order and start on the same lines and in
the same columns; whether a source is in a file or by itself makes no difference to that. -/
theorem listing_identifies_tokens {source : String} {tokens : List Token}
    (h : tokenize source = .ok tokens) :
    (∀ path, ∃ text, (Command.tokens path).report (.file source.toUTF8) = { output := text } ∧
      ConsistsOfLines text (tokens.map (Source.tokenLine "\t")) ∧
      lineFeeds text = tokens.length) ∧
    ∀ source' tokens', tokenize source' = .ok tokens' →
      (∀ path path', ((Command.tokens path).report (.file source.toUTF8)).output
          = ((Command.tokens path').report (.file source'.toUTF8)).output ↔
        List.Forall₂ Token.Alike tokens tokens') ∧
      (Source.tokenLines " " source = Source.tokenLines " " source' ↔
        List.Forall₂ Token.Alike tokens tokens') := by
  refine ⟨fun path ↦ ?_, fun source' tokens' h' ↦ ⟨fun path path' ↦ ?_, ?_⟩⟩
  · obtain ⟨text, hreport, hlines⟩ := Command.report_tokens_of_tokenize path h
    exact ⟨text, hreport, hlines, hlines.lineFeeds_eq.trans (List.length_map _)⟩
  · obtain ⟨text, hreport, hlines⟩ := Command.report_tokens_of_tokenize path h
    obtain ⟨text', hreport', hlines'⟩ := Command.report_tokens_of_tokenize path' h'
    have htexts : text = text' ↔
        tokens.map (Source.tokenLine "\t") = tokens'.map (Source.tokenLine "\t") := by
      constructor
      · rintro rfl
        exact hlines.unique hlines'
      · intro hmap
        rw [hlines.text_eq, hlines'.text_eq, hmap]
    have htab : "\t".toList = ['\t'] := rfl
    rw [hreport, hreport', htexts, Source.map_tokenLine_eq_iff htab rfl
      (forall_spelled_of_tokenize h) (forall_spelled_of_tokenize h')]
  · have hspace : " ".toList = [' '] := rfl
    rw [Source.tokenLines_eq, Source.tokenLines_eq, h, h', ← Source.map_tokenLine_eq_iff hspace rfl
      (forall_spelled_of_tokenize h) (forall_spelled_of_tokenize h')]
    exact ⟨Except.ok.inj, congrArg Except.ok⟩

/-- A text that holds the end of one line of a listing and the whole of another makes one line of
its own, and is not listed as what it pretends to be. -/
theorem listing_of_forged_line :
    tokenize "x\"\n1:2\tEOF" = .ok [⟨.text "x\"\n1:2\tEOF", ⟨0, 1, 1⟩, ⟨10, 2, 8⟩⟩,
      ⟨.endOfInput, ⟨10, 2, 8⟩, ⟨10, 2, 8⟩⟩] ∧
    tokenize "x" = .ok [⟨.text "x", ⟨0, 1, 1⟩, ⟨1, 1, 2⟩⟩,
      ⟨.endOfInput, ⟨1, 1, 2⟩, ⟨1, 1, 2⟩⟩] ∧
    ∃ text, (Command.tokens "a").report (.file "x\"\n1:2\tEOF".toUTF8) = { output := text } ∧
      ConsistsOfLines text ["1:1\tTEXT \"x\\\"\\n1:2\\tEOF\"", "2:8\tEOF"] ∧
      lineFeeds text = 2 ∧ ((Command.tokens "b").report (.file "x".toUTF8)).output ≠ text := by
  have hforged : tokenize "x\"\n1:2\tEOF"
      = .ok [⟨.text "x\"\n1:2\tEOF", ⟨0, 1, 1⟩, ⟨10, 2, 8⟩⟩,
        ⟨.endOfInput, ⟨10, 2, 8⟩, ⟨10, 2, 8⟩⟩] := by
    decide +kernel
  have hplain : tokenize "x" = .ok [⟨.text "x", ⟨0, 1, 1⟩, ⟨1, 1, 2⟩⟩,
      ⟨.endOfInput, ⟨1, 1, 2⟩, ⟨1, 1, 2⟩⟩] := by
    decide +kernel
  obtain ⟨hlisted, hidentified⟩ := listing_identifies_tokens hforged
  obtain ⟨text, hreport, hlines, hcount⟩ := hlisted "a"
  refine ⟨hforged, hplain, text, hreport, ?_, hcount, fun heq ↦ ?_⟩
  · have hshown : [(⟨.text "x\"\n1:2\tEOF", ⟨0, 1, 1⟩, ⟨10, 2, 8⟩⟩ : Token),
        ⟨.endOfInput, ⟨10, 2, 8⟩, ⟨10, 2, 8⟩⟩].map (Source.tokenLine "\t")
          = ["1:1\tTEXT \"x\\\"\\n1:2\\tEOF\"", "2:8\tEOF"] := by
      decide +kernel
    rwa [hshown] at hlines
  · have hsame := ((hidentified _ _ hplain).1 "a" "b").mp (by rw [heq, hreport])
    cases hsame with
    | cons halike _ => exact absurd halike.kind (by decide)

end TagTemplate
