import TagTemplate.Proofs.Number.Literal
import TagTemplate.Proofs.Text.Run

/-!
# How tokens are spelled

The lexical grammar has three parts. What a kind of token is written as is `Spelled`; where it
ends, since every token goes on for as long as it can, is `TokenKind.EndsBefore`; and which tokens
may come at all is a matter of the place, text between tags, the head of a tag or what comes behind
that (`Mode.Admits`). The place in turn follows from the token before (`TokenKind.mode`).

`IsPiece` puts the three together, and the two functions that look for the next token find exactly
the pieces (`Lexeme.betweenTags_eq_found_iff`, `Lexeme.insideTag_eq_found_iff`).

How much the digits of an exponent count is left open, as it is for number literals. The functions
count them as `Exponent.size` does.
-/

namespace TagTemplate

/-! ## Names -/

/-- A letter, followed by letters, digits and underscores. -/
inductive IsName : List Char → Prop
  | intro {c : Char} {cs : List Char} : isNameStart c = true → (∀ d ∈ cs, isNameChar d = true) →
    IsName (c :: cs)

theorem isNameChar_of_isNameStart {c : Char} (h : isNameStart c = true) : isNameChar c = true := by
  rw [isNameStart] at h
  rw [isNameChar, Char.isAlphanum, h, Bool.true_or, Bool.true_or]

theorem IsName.isNameChar {cs : List Char} (h : IsName cs) : ∀ c ∈ cs, isNameChar c = true := by
  obtain ⟨hc, hcs⟩ := h
  intro d hd
  rcases List.mem_cons.mp hd with rfl | hd
  · exact isNameChar_of_isNameStart hc
  · exact hcs d hd

theorem isNameStart_of_isDigit {c : Char} (h : c.isDigit = true) : isNameStart c = false := by
  have hc : c.val.toNat ≤ 57 := of_decide_eq_true (Bool.and_eq_true_iff.mp h).2
  refine Bool.or_eq_false_iff.mpr ⟨decide_eq_false ?_, Bool.and_eq_false_imp.mpr ?_⟩
  · rintro ⟨hupper, -⟩
    have : 65 ≤ c.val.toNat := hupper
    omega
  · intro hlower
    have : 97 ≤ c.val.toNat := of_decide_eq_true hlower
    omega

/-! ## Places -/

/-- What is being read. -/
inductive Mode where
  /-- Text between tags. -/
  | text
  /-- A tag of which nothing has been read. -/
  | head
  /-- A tag of which something has been read. -/
  | body
deriving DecidableEq

/-- What may come in a place: a name is the head of a tag where a tag has just been opened, and a
variable anywhere else in a tag. -/
inductive Mode.Admits : Mode → TokenKind → Prop
  | text (content : String) : Admits .text (.text content)
  | endOfInput : Admits .text .endOfInput
  | tagStart : Admits .text .tagStart
  | tagHead (name : String) : Admits .head (.tagHead name)
  | headElement {e : Element} : (∀ name, e ≠ .variableName name) → Admits .head (.element e)
  | bodyElement (e : Element) : Admits .body (.element e)
  | tagEnd {mode : Mode} : mode ≠ .text → Admits mode .tagEnd

/-- The place behind a token. -/
def TokenKind.mode : TokenKind → Mode
  | text _ | tagEnd | endOfInput => .text
  | tagStart => .head
  | tagHead _ | element _ => .body

/-! ## Spelling -/

/-- What a token is written as. -/
inductive Spelled (size : List Char → ℕ) : TokenKind → List Char → Prop
  | endOfInput : Spelled size .endOfInput []
  | text {content written : List Char} : written ≠ [] →
    Escaping.documentText.Written content written →
    Spelled size (.text (String.ofList content)) written
  | tagStart : Spelled size .tagStart ['{', '$']
  | tagEnd : Spelled size .tagEnd ['$', '}']
  | tagHead {name : List Char} : IsName name → Spelled size (.tagHead (String.ofList name)) name
  | equalsSign : Spelled size (.tagHead "=") ['=']
  | variableName {name : List Char} : IsName name →
    Spelled size (.element (.variableName (String.ofList name))) name
  | functionName {name : List Char} : IsName name →
    Spelled size (.element (.functionName (String.ofList name))) ('@' :: name)
  | operator (op : Operator) : Spelled size (.element (.operator op)) [op.symbol]
  | string {content written : List Char} : Escaping.quotedText.Written content written →
    Escaping.quotedText.Unclosed written ['"'] →
    Spelled size (.element (.string (String.ofList content))) ('"' :: (written ++ ['"']))
  | number {n : Numeral} {e : Element} {written : List Char} : n.Written written →
    n.Denotes size e → Spelled size (.element e) written

/-- Where a token ends because it goes on for as long as it can: text up to where the next tag
opens or to the end, a name with its last letter, digit or underscore, a number where no longer
piece is one, and an operator right away, unless it is the minus of a number. -/
def TokenKind.EndsBefore (kind : TokenKind) (written rest : List Char) : Prop :=
  match kind with
  | .text _ =>
    (rest = [] ∨ Escaping.opensTag rest = true) ∧ Escaping.documentText.Unclosed written rest
  | .tagHead name => name = "=" ∨ ∀ c ∈ rest.head?, isNameChar c = false
  | .element (.variableName _) | .element (.functionName _) =>
    ∀ c ∈ rest.head?, isNameChar c = false
  | .element (.integer _) | .element (.double _) => Numeral.Longest written rest
  | .element (.operator op) => op = .sub → ∀ c ∈ rest.head?, c.isDigit = false
  | .endOfInput => rest = []
  | .tagStart | .tagEnd | .element (.string _) => True

/-- Whether a token of the given kind, written so, stands in the given place and ends before the
given characters. -/
structure IsPiece (size : List Char → ℕ) (mode : Mode) (kind : TokenKind)
    (written rest : List Char) : Prop where
  /-- Such tokens come there. -/
  admits : mode.Admits kind
  /-- It is written so. -/
  spelled : Spelled size kind written
  /-- It ends there. -/
  ends : kind.EndsBefore written rest

/-! ## Between tags -/

namespace Lexeme

private theorem ofTextRun_endingBefore (content rest : List Char) (width : ℕ) :
    ofTextRun ⟨content, width, Escaping.endingBefore rest⟩
      = .found (.text (String.ofList content)) width := by
  cases rest <;> rfl

private theorem betweenTags_of_isPiece {size : List Char → ℕ} {kind : TokenKind}
    {written rest : List Char} (h : IsPiece size .text kind written rest) :
    betweenTags (written ++ rest) = .found kind written.length := by
  obtain ⟨hadmits, hspelled, hends⟩ := h
  cases hspelled with
  | endOfInput =>
    obtain rfl : rest = [] := hends
    rfl
  | tagStart => rfl
  | @text content written hne hwritten =>
    obtain ⟨hrest, hopen⟩ := hends
    have hfirst : Escaping.opensTag (written ++ rest) = false :=
      hopen [] written rfl hne ⟨[], .nil⟩
    have hempty : (written ++ rest).isEmpty = false := by
      rw [List.isEmpty_eq_false_iff]
      exact List.append_ne_nil_of_left_ne_nil hne rest
    rw [betweenTags, hempty, hfirst, if_neg Bool.false_ne_true, if_neg Bool.false_ne_true,
      Escaping.read_of_written hwritten hopen hrest, ofTextRun_endingBefore]
  -- The others come only inside tags.
  | tagEnd => cases hadmits; contradiction
  | tagHead _ => cases hadmits
  | equalsSign => cases hadmits
  | variableName _ => cases hadmits
  | functionName _ => cases hadmits
  | operator _ => cases hadmits
  | string _ _ => cases hadmits
  | number _ _ => cases hadmits

private theorem isPiece_of_betweenTags {size : List Char → ℕ} {cs : List Char} {kind : TokenKind}
    {width : ℕ} (h : betweenTags cs = .found kind width) :
    ∃ written rest, cs = written ++ rest ∧ width = written.length ∧
      IsPiece size .text kind written rest := by
  rw [betweenTags] at h
  split at h
  · rename_i hempty
    obtain ⟨rfl, rfl⟩ := found.inj h
    exact ⟨[], cs, rfl, rfl, .endOfInput, .endOfInput, List.isEmpty_iff.mp hempty⟩
  rename_i hempty
  split at h
  · rename_i hopens
    obtain ⟨rfl, rfl⟩ := found.inj h
    unfold Escaping.opensTag at hopens
    split at hopens
    · rename_i rest
      exact ⟨['{', '$'], rest, rfl, rfl, .tagStart, .tagStart, trivial⟩
    · contradiction
  rename_i hopens
  have hgood : ∀ next, (Escaping.documentText.read cs).ending ≠ .badEscape next := by
    intro next hbad
    rw [ofTextRun, hbad] at h
    contradiction
  -- The text is not empty, since neither the end nor a tag is here.
  obtain ⟨content, written, rest, rfl, hwritten, hopen, hrest, hread⟩ :=
    Escaping.exists_written_of_read hgood
  have hne : written ≠ [] := by
    rintro rfl
    rcases hrest with rfl | hclose
    · exact hempty rfl
    · exact hopens hclose
  rw [hread, ofTextRun_endingBefore] at h
  obtain ⟨rfl, rfl⟩ := found.inj h
  exact ⟨written, rest, rfl, rfl, .text _, .text hne hwritten, hrest, hopen⟩

theorem betweenTags_eq_found_iff {cs : List Char} {kind : TokenKind} {width : ℕ} :
    betweenTags cs = .found kind width ↔ ∃ written rest, cs = written ++ rest ∧
      width = written.length ∧ IsPiece Exponent.size .text kind written rest := by
  refine ⟨isPiece_of_betweenTags, ?_⟩
  rintro ⟨written, rest, rfl, rfl, h⟩
  exact betweenTags_of_isPiece h

/-! ## Inside a tag -/

/-- The place inside a tag, given whether its head is still to come. -/
def placeInTag (atHead : Bool) : Mode := if atHead then .head else .body

private theorem ne_of_isNameStart {c d : Char} (h : isNameStart c = true)
    (hd : isNameStart d = false) : c ≠ d := by
  rintro rfl
  rw [h] at hd
  contradiction

private theorem insideTag_name (atHead : Bool) {c : Char} (h : isNameStart c = true)
    (cs : List Char) : insideTag atHead c cs = ofName (nameKind atHead) 0 (c :: cs) := by
  have h1 : c ≠ '$' := ne_of_isNameStart h rfl
  have h2 : c ≠ '=' := ne_of_isNameStart h rfl
  rw [insideTag, if_neg (fun heq ↦ h1 heq.1), if_neg (fun heq ↦ h2 heq.1), if_pos h]

private theorem ofName_append (kind : String → TokenKind) (extra : ℕ) {name rest : List Char}
    (hname : IsName name) (hrest : ∀ c ∈ rest.head?, isNameChar c = false) :
    ofName kind extra (name ++ rest)
      = .found (kind (String.ofList name)) (name.length + extra) := by
  rw [ofName, takeWhile_append_of_stops hname.isNameChar hrest]

private theorem insideTag_of_isName (atHead : Bool) {c : Char} {cs name rest : List Char}
    (heq : c :: cs = name ++ rest) (hname : IsName name)
    (hrest : ∀ d ∈ rest.head?, isNameChar d = false) :
    insideTag atHead c cs = .found (nameKind atHead (String.ofList name)) name.length := by
  have hfound := ofName_append (nameKind atHead) 0 hname hrest
  rw [← heq] at hfound
  obtain ⟨hc, -⟩ := hname
  obtain ⟨rfl, -⟩ := List.cons.inj heq
  rw [insideTag_name atHead hc, hfound]
  rfl

/-- Only the character that comes next ends a quoted string. -/
private theorem unclosed_quotedText {written rest : List Char}
    (h : Escaping.quotedText.Unclosed written rest) (rest' : List Char) :
    Escaping.quotedText.Unclosed written rest' := by
  intro before behind heq hne hbefore
  have := h before behind heq hne hbefore
  obtain ⟨c, behind, rfl⟩ := List.exists_cons_of_ne_nil hne
  exact this

private theorem insideTag_function (atHead : Bool) (cs : List Char) :
    insideTag atHead '@' cs = ofFunction cs := by
  cases atHead <;> rfl

private theorem insideTag_quote (atHead : Bool) (cs : List Char) :
    insideTag atHead '"' cs = ofQuotedRun (Escaping.quotedText.read cs) := by
  cases atHead <;> rfl

theorem isDigit_or_minus_of_startsAt {c : Char} {cs : List Char}
    (h : Numeral.startsAt (c :: cs) = true) : c.isDigit = true ∨ c = '-' := by
  unfold Numeral.startsAt at h
  split at h
  · rename_i heq
    exact Or.inr (List.cons.inj heq).1
  · rename_i heq
    rw [(List.cons.inj heq).1]
    exact Or.inl h
  · contradiction

theorem insideTag_number (atHead : Bool) {c : Char} {cs : List Char}
    (h : Numeral.startsAt (c :: cs) = true) :
    insideTag atHead c cs = ofNumeral (Numeral.read (c :: cs)) := by
  have hclass : ∀ d : Char, d.isDigit = false → d ≠ '-' → c ≠ d := by
    rintro d hdigit hminus rfl
    rcases isDigit_or_minus_of_startsAt h with hc | hc
    · rw [hc] at hdigit
      contradiction
    · exact hminus hc
  have hname : isNameStart c = false := by
    rcases isDigit_or_minus_of_startsAt h with hc | rfl
    · exact isNameStart_of_isDigit hc
    · rfl
  rw [insideTag, if_neg (fun heq ↦ hclass '$' rfl (by decide) heq.1),
    if_neg (fun heq ↦ hclass '=' rfl (by decide) heq.1), hname, if_neg Bool.false_ne_true,
    if_neg (hclass '@' rfl (by decide)), if_neg (hclass '"' rfl (by decide)), if_pos h]

private theorem startsAt_symbol {op : Operator} {rest : List Char}
    (h : op = .sub → ∀ c ∈ rest.head?, c.isDigit = false) :
    Numeral.startsAt (op.symbol :: rest) = false := by
  cases op with
  | sub =>
    cases rest with
    | nil => rfl
    | cons c rest => exact h rfl c rfl
  | add => rfl
  | mul => rfl
  | div => rfl
  | pow => rfl

private theorem insideTag_operator (atHead : Bool) {op : Operator} {rest : List Char}
    (h : op = .sub → ∀ c ∈ rest.head?, c.isDigit = false) :
    insideTag atHead op.symbol rest = .found (.element (.operator op)) 1 := by
  have hstart := startsAt_symbol h
  have hop : ofOperator op.symbol = .found (.element (.operator op)) 1 := by
    rw [ofOperator, Operator.ofSymbol?_eq_some_iff.mpr rfl]
  rw [insideTag, hstart, if_neg (by cases op <;> simp [Operator.symbol]),
    if_neg (by cases op <;> simp [Operator.symbol]), if_neg (by cases op <;> decide),
    if_neg (by cases op <;> decide), if_neg (by cases op <;> decide), if_neg Bool.false_ne_true,
    hop]

/-- Only where the head of a tag is still to come does a name stand for one. -/
private theorem eq_true_of_admits {atHead : Bool} {name : String}
    (h : (placeInTag atHead).Admits (.tagHead name)) : atHead = true := by
  cases atHead with
  | true => rfl
  | false => cases h

private theorem eq_false_of_admits {atHead : Bool} {name : String}
    (h : (placeInTag atHead).Admits (.element (.variableName name))) : atHead = false := by
  cases atHead with
  | false => rfl
  | true =>
    cases h with
    | headElement hne => exact absurd rfl (hne name)

private theorem not_isName_equals : ¬IsName "=".toList := by
  rintro ⟨hc, -⟩
  contradiction

private theorem insideTag_of_isPiece {atHead : Bool} {c : Char} {cs : List Char}
    {kind : TokenKind} {written rest : List Char} (heq : c :: cs = written ++ rest)
    (h : IsPiece Exponent.size (placeInTag atHead) kind written rest) :
    insideTag atHead c cs = .found kind written.length := by
  obtain ⟨hadmits, hspelled, hends⟩ := h
  cases hspelled with
  -- The first three come only between tags.
  | endOfInput => cases atHead <;> cases hadmits
  | text _ _ => cases atHead <;> cases hadmits
  | tagStart => cases atHead <;> cases hadmits
  | tagEnd =>
    obtain ⟨rfl, rfl⟩ := List.cons.inj heq
    rfl
  | tagHead hname =>
    obtain rfl := eq_true_of_admits hadmits
    rcases hends with hequals | hrest
    · rw [← String.toList_ofList (l := written), hequals] at hname
      exact absurd hname not_isName_equals
    · exact insideTag_of_isName true heq hname hrest
  | equalsSign =>
    obtain rfl := eq_true_of_admits hadmits
    obtain ⟨rfl, rfl⟩ := List.cons.inj heq
    rfl
  | variableName hname =>
    obtain rfl := eq_false_of_admits hadmits
    exact insideTag_of_isName false heq hname hends
  | @functionName name hname =>
    obtain ⟨rfl, rfl⟩ : c = '@' ∧ cs = name ++ rest := List.cons.inj heq
    have hstart : (name ++ rest).head?.any isNameStart = true := by
      obtain ⟨hc, -⟩ := hname
      exact hc
    rw [insideTag_function, ofFunction, if_pos hstart, ofName_append _ 1 hname hends,
      List.length_cons]
  | operator op =>
    obtain ⟨rfl, rfl⟩ := List.cons.inj heq
    exact insideTag_operator atHead hends
  | @string content written hwritten hopen =>
    obtain ⟨rfl, rfl⟩ : c = '"' ∧ cs = written ++ '"' :: rest := by
      rwa [List.cons_append, List.append_assoc, List.singleton_append, List.cons.injEq] at heq
    rw [insideTag_quote, Escaping.read_of_written hwritten (unclosed_quotedText hopen _)
      (Or.inr rfl), Escaping.endingBefore, if_neg (List.cons_ne_nil _ _), ofQuotedRun]
    simp
  | number hwritten hdenotes =>
    have hlongest : Numeral.Longest written rest := by
      cases hdenotes <;> exact hends
    obtain ⟨hstart, hread⟩ := Numeral.read_of_longest hwritten hlongest
    rw [← heq] at hstart hread
    rw [insideTag_number atHead hstart, hread, ofNumeral,
      Numeral.numeralElement?_eq_some_iff.mpr hdenotes, Numeral.text_length_of_written hwritten]

private theorem exists_name_of_ofName {kind : String → TokenKind} {extra width : ℕ} {c : Char}
    {cs : List Char} {piece : TokenKind} (hc : isNameStart c = true)
    (h : ofName kind extra (c :: cs) = .found piece width) :
    ∃ name rest, c :: cs = name ++ rest ∧ IsName name ∧
      (∀ d ∈ rest.head?, isNameChar d = false) ∧ piece = kind (String.ofList name) ∧
      width = name.length + extra := by
  have hsplit := List.takeWhile_append_dropWhile (p := isNameChar) (l := c :: cs)
  have hname : IsName ((c :: cs).takeWhile isNameChar) := by
    rw [List.takeWhile_cons_of_pos (isNameChar_of_isNameStart hc)]
    exact .intro hc fun d hd ↦ List.mem_takeWhile_imp hd
  obtain ⟨rfl, rfl⟩ := found.inj h
  exact ⟨_, _, hsplit.symm, hname, head?_dropWhile_eq_false, rfl, rfl⟩

private theorem exists_written_of_ofQuotedRun {cs : List Char} {kind : TokenKind} {width : ℕ}
    (h : ofQuotedRun (Escaping.quotedText.read cs) = .found kind width) :
    ∃ content written rest, cs = written ++ '"' :: rest ∧
      Escaping.quotedText.Written content written ∧
      Escaping.quotedText.Unclosed written ('"' :: rest) ∧
      kind = .element (.string (String.ofList content)) ∧ width = written.length + 2 := by
  have hgood : ∀ next, (Escaping.quotedText.read cs).ending ≠ .badEscape next := by
    intro next hbad
    rw [ofQuotedRun, hbad] at h
    cases next <;> contradiction
  obtain ⟨content, written, rest, rfl, hwritten, hopen, hrest, hread⟩ :=
    Escaping.exists_written_of_read hgood
  rw [hread] at h
  rcases hrest with rfl | hclose
  · contradiction
  · obtain ⟨rest, rfl⟩ := List.head?_eq_some_iff.mp (beq_iff_eq.mp hclose)
    obtain ⟨rfl, rfl⟩ := found.inj h
    exact ⟨content, written, rest, rfl, hwritten, hopen, rfl, rfl⟩

private theorem isPiece_name (atHead : Bool) {name rest : List Char} (hname : IsName name)
    (hrest : ∀ c ∈ rest.head?, isNameChar c = false) :
    IsPiece Exponent.size (placeInTag atHead) (nameKind atHead (String.ofList name)) name rest := by
  cases atHead with
  | true => exact ⟨.tagHead _, .tagHead hname, Or.inr hrest⟩
  | false => exact ⟨.bodyElement _, .variableName hname, hrest⟩

private theorem admits_element (atHead : Bool) {e : Element} (h : ∀ name, e ≠ .variableName name) :
    (placeInTag atHead).Admits (.element e) := by
  cases atHead with
  | true => exact .headElement h
  | false => exact .bodyElement e

private theorem isPiece_of_ofFunction (atHead : Bool) {cs : List Char} {kind : TokenKind}
    {width : ℕ} (h : ofFunction cs = .found kind width) :
    ∃ written rest, '@' :: cs = written ++ rest ∧ width = written.length ∧
      IsPiece Exponent.size (placeInTag atHead) kind written rest := by
  rw [ofFunction] at h
  split at h
  · rename_i hstart
    obtain ⟨d, hd, hdstart⟩ := (Option.any_eq_true _ _).mp hstart
    obtain ⟨ds, rfl⟩ := List.head?_eq_some_iff.mp hd
    obtain ⟨name, rest, heq, hname, hrest, rfl, rfl⟩ := exists_name_of_ofName hdstart h
    rw [heq]
    exact ⟨'@' :: name, rest, rfl, rfl, admits_element atHead (by simp), .functionName hname, hrest⟩
  · contradiction

private theorem isPiece_of_ofQuotedRun (atHead : Bool) {cs : List Char} {kind : TokenKind}
    {width : ℕ} (h : ofQuotedRun (Escaping.quotedText.read cs) = .found kind width) :
    ∃ written rest, '"' :: cs = written ++ rest ∧ width = written.length ∧
      IsPiece Exponent.size (placeInTag atHead) kind written rest := by
  obtain ⟨content, written, rest, rfl, hwritten, hopen, rfl, rfl⟩ :=
    exists_written_of_ofQuotedRun h
  exact ⟨'"' :: (written ++ ['"']), rest, by simp, by simp, admits_element atHead (by simp),
    .string hwritten (unclosed_quotedText hopen _), trivial⟩

private theorem isPiece_of_ofNumeral (atHead : Bool) {cs : List Char} {kind : TokenKind}
    {width : ℕ} (hstart : Numeral.startsAt cs = true)
    (h : ofNumeral (Numeral.read cs) = .found kind width) :
    ∃ written rest, cs = written ++ rest ∧ width = written.length ∧
      IsPiece Exponent.size (placeInTag atHead) kind written rest := by
  rw [ofNumeral] at h
  split at h
  · rename_i e he
    obtain ⟨rfl, rfl⟩ := found.inj h
    obtain ⟨written, rest, rfl, hwritten⟩ := Numeral.exists_written_read hstart
    have hdenotes := Numeral.numeralElement?_eq_some_iff.mp he
    have hlongest := Numeral.longest_read hwritten
    refine ⟨written, rest, rfl, Numeral.text_length_of_written hwritten, ?_,
      .number hwritten hdenotes, ?_⟩
    · cases hdenotes <;> exact admits_element atHead (by simp)
    · cases hdenotes <;> exact hlongest
  · contradiction

private theorem isPiece_of_ofOperator (atHead : Bool) {c : Char} {cs : List Char}
    {kind : TokenKind} {width : ℕ} (hstart : ¬Numeral.startsAt (c :: cs) = true)
    (h : ofOperator c = .found kind width) :
    ∃ written rest, c :: cs = written ++ rest ∧ width = written.length ∧
      IsPiece Exponent.size (placeInTag atHead) kind written rest := by
  rw [ofOperator] at h
  split at h
  · rename_i op hop
    obtain ⟨rfl, rfl⟩ := found.inj h
    obtain rfl := Operator.ofSymbol?_eq_some_iff.mp hop
    refine ⟨[op.symbol], cs, rfl, rfl, admits_element atHead (by simp), .operator op, ?_⟩
    -- A minus before a digit would have been the beginning of a number.
    rintro rfl d hd
    obtain ⟨ds, rfl⟩ := List.head?_eq_some_iff.mp hd
    exact Bool.eq_false_iff.mpr hstart
  · contradiction

private theorem isPiece_of_insideTag {atHead : Bool} {c : Char} {cs : List Char}
    {kind : TokenKind} {width : ℕ} (h : insideTag atHead c cs = .found kind width) :
    ∃ written rest, c :: cs = written ++ rest ∧ width = written.length ∧
      IsPiece Exponent.size (placeInTag atHead) kind written rest := by
  rw [insideTag] at h
  split at h
  · rename_i hclose
    obtain ⟨rfl, hhead⟩ := hclose
    obtain ⟨rest, rfl⟩ := List.head?_eq_some_iff.mp hhead
    obtain ⟨rfl, rfl⟩ := found.inj h
    refine ⟨['$', '}'], rest, rfl, rfl, .tagEnd ?_, .tagEnd, trivial⟩
    cases atHead <;> exact Mode.noConfusion
  split at h
  · rename_i hequals
    obtain ⟨rfl, rfl⟩ := hequals
    obtain ⟨rfl, rfl⟩ := found.inj h
    exact ⟨['='], cs, rfl, rfl, .tagHead _, .equalsSign, Or.inl rfl⟩
  split at h
  · rename_i hc
    obtain ⟨name, rest, heq, hname, hrest, rfl, rfl⟩ := exists_name_of_ofName hc h
    exact ⟨name, rest, heq, rfl, isPiece_name atHead hname hrest⟩
  split at h
  · rename_i hat
    exact hat ▸ isPiece_of_ofFunction atHead h
  split at h
  · rename_i hquote
    exact hquote ▸ isPiece_of_ofQuotedRun atHead h
  split at h
  · exact isPiece_of_ofNumeral atHead ‹_› h
  · exact isPiece_of_ofOperator atHead ‹_› h

theorem insideTag_eq_found_iff {atHead : Bool} {c : Char} {cs : List Char} {kind : TokenKind}
    {width : ℕ} : insideTag atHead c cs = .found kind width ↔
      ∃ written rest, c :: cs = written ++ rest ∧ width = written.length ∧
        IsPiece Exponent.size (placeInTag atHead) kind written rest := by
  refine ⟨isPiece_of_insideTag, ?_⟩
  rintro ⟨written, rest, heq, rfl, h⟩
  exact insideTag_of_isPiece heq h

end Lexeme

end TagTemplate
