import TagTemplate.Proofs.Token.Scan

/-!
# Steps of the stream, errors included

A call of the stream finds the piece that stands next or answers an error, and in either case the
stream goes on from a place further down the source. What pieces there are is the lexical grammar;
this file has the other half, what is wrong where no piece stands (`IsFault`), and puts the two
together in a relation that says all that a call can do (`TokenStream.Step`). It has four cases: a
piece, a fault, a tag in which the input is over, and the end of the input passed already.

A call does what the relation says (`TokenStream.step_next`). Whatever is to hold of all calls is
proved of the four cases, and nobody has to look into the stream again.
-/

namespace TagTemplate

/-! ## Faults -/

/-- What is wrong in a place where no piece stands. The lists are the characters before the one to
look at, those that are used up, and those that come behind. -/
inductive IsFault : Mode → ScanFault → List Char → List Char → List Char → Prop
  /-- In text a backslash protects nothing that it may protect. -/
  | textEscape {content written rest : List Char} :
    Escaping.documentText.Written content written →
    Escaping.documentText.Unclosed written ('\\' :: rest) →
    (∀ c ∈ rest.head?, Escaping.documentText.escapable c = false) →
    IsFault .text (.badEscape rest.head?) written (written ++ ['\\']) rest
  /-- In a string a backslash protects a character that it may not protect. -/
  | quotedEscape {mode : Mode} {content written rest : List Char} {c : Char} : mode ≠ .text →
    Escaping.quotedText.Written content written →
    Escaping.quotedText.Unclosed written ('\\' :: c :: rest) →
    Escaping.quotedText.escapable c = false →
    IsFault mode (.badEscape (some c)) ('"' :: written) ('"' :: (written ++ ['\\'])) (c :: rest)
  /-- Behind a quote the input is over, perhaps with a backslash, before another quote. -/
  | unterminatedString {mode : Mode} {content written last : List Char} : mode ≠ .text →
    Escaping.quotedText.Written content written → Escaping.quotedText.Unclosed written last →
    last = [] ∨ last = ['\\'] →
    IsFault mode .unterminatedString [] ('"' :: (written ++ last)) []
  /-- A number literal stands for no number of its format. -/
  | numberOutOfRange {mode : Mode} {n : Numeral} {written rest : List Char} : mode ≠ .text →
    n.Written written → Numeral.Longest written rest → Lexeme.numeralElement? n = none →
    IsFault mode (.numberOutOfRange n) [] written rest
  /-- A character begins nothing, whether or not the head of the tag is still to come. -/
  | unexpectedCharacter {mode : Mode} {c : Char} {cs : List Char} : mode ≠ .text →
    isBlank c = false → Lexeme.insideTag false c cs = .faulty (.unexpectedCharacter c) 0 0 →
    IsFault mode (.unexpectedCharacter c) [] [] (c :: cs)

theorem IsFault.isPrefix {mode : Mode} {cause : ScanFault} {before used rest : List Char}
    (h : IsFault mode cause before used rest) : before <+: used := by
  cases h with
  | textEscape _ _ _ => exact List.prefix_append _ _
  | quotedEscape _ _ _ _ => exact List.cons_prefix_cons.mpr ⟨rfl, List.prefix_append _ _⟩
  | unterminatedString _ _ _ _ => exact List.nil_prefix
  | numberOutOfRange _ _ _ _ => exact List.nil_prefix
  | unexpectedCharacter _ _ _ => exact List.nil_prefix

namespace Lexeme

theorem isFault_of_betweenTags {cs : List Char} {cause : ScanFault} {offset width : ℕ}
    (h : betweenTags cs = .faulty cause offset width) :
    ∃ before used rest, cs = used ++ rest ∧ offset = before.length ∧ width = used.length ∧
      IsFault .text cause before used rest := by
  rw [betweenTags] at h
  split at h
  · contradiction
  split at h
  · contradiction
  rw [ofTextRun] at h
  split at h
  · rename_i next hbad
    obtain ⟨content, written, rest, rfl, hwritten, hopen, rfl, hrest, hwidth⟩ :=
      Escaping.exists_written_of_badEscape hbad
    obtain ⟨rfl, rfl, rfl⟩ := faulty.inj h
    refine ⟨written, written ++ ['\\'], rest, by simp, hwidth, ?_, .textEscape hwritten hopen hrest⟩
    rw [hwidth, List.length_append, List.length_singleton]
  · contradiction
  · contradiction

private theorem isFault_of_ofQuotedRun {mode : Mode} (hmode : mode ≠ .text) {cs : List Char}
    {cause : ScanFault} {offset width : ℕ}
    (h : ofQuotedRun (Escaping.quotedText.read cs) = .faulty cause offset width) :
    ∃ before used rest, '"' :: cs = used ++ rest ∧ offset = before.length ∧
      width = used.length ∧ IsFault mode cause before used rest := by
  rw [ofQuotedRun] at h
  split at h
  · contradiction
  · rename_i hend
    have hgood : ∀ next, (Escaping.quotedText.read cs).ending ≠ .badEscape next := by simp [hend]
    obtain ⟨content, written, rest, rfl, hwritten, hopen, -, hread⟩ :=
      Escaping.exists_written_of_read hgood
    obtain rfl : rest = [] := by
      by_contra hne
      rw [hread, Escaping.endingBefore, if_neg hne] at hend
      contradiction
    obtain ⟨rfl, rfl, rfl⟩ := faulty.inj h
    refine ⟨[], _, [], by simp, rfl, ?_, .unterminatedString hmode hwritten hopen (Or.inl rfl)⟩
    rw [hread]
    simp
  · rename_i hbad
    obtain ⟨content, written, rest, rfl, hwritten, hopen, hnext, -, hwidth⟩ :=
      Escaping.exists_written_of_badEscape hbad
    obtain rfl := List.head?_eq_none_iff.mp hnext.symm
    obtain ⟨rfl, rfl, rfl⟩ := faulty.inj h
    refine ⟨[], _, [], by simp, rfl, ?_, .unterminatedString hmode hwritten hopen (Or.inr rfl)⟩
    rw [hwidth]
    simp
  · rename_i c hbad
    obtain ⟨content, written, rest, rfl, hwritten, hopen, hnext, hc, hwidth⟩ :=
      Escaping.exists_written_of_badEscape hbad
    obtain ⟨rest, rfl⟩ := List.head?_eq_some_iff.mp hnext.symm
    obtain ⟨rfl, rfl, rfl⟩ := faulty.inj h
    refine ⟨'"' :: written, '"' :: (written ++ ['\\']), c :: rest, by simp, ?_, ?_,
      .quotedEscape hmode hwritten hopen (hc c rfl)⟩ <;> rw [hwidth] <;> simp

private theorem isFault_of_ofNumeral {mode : Mode} (hmode : mode ≠ .text) {cs : List Char}
    {cause : ScanFault} {offset width : ℕ} (hstart : Numeral.startsAt cs = true)
    (h : ofNumeral (Numeral.read cs) = .faulty cause offset width) :
    ∃ before used rest, cs = used ++ rest ∧ offset = before.length ∧ width = used.length ∧
      IsFault mode cause before used rest := by
  rw [ofNumeral] at h
  split at h
  · contradiction
  · rename_i hnone
    obtain ⟨written, rest, rfl, hwritten⟩ := Numeral.exists_written_read hstart
    obtain ⟨rfl, rfl, rfl⟩ := faulty.inj h
    exact ⟨[], written, rest, rfl, rfl, Numeral.text_length_of_written hwritten,
      .numberOutOfRange hmode hwritten (Numeral.longest_read hwritten) hnone⟩

private theorem eq_unexpected_of_ofFunction {cs : List Char} {cause : ScanFault}
    {offset width : ℕ} (h : ofFunction cs = .faulty cause offset width) :
    cause = .unexpectedCharacter '@' ∧ offset = 0 ∧ width = 0 := by
  rw [ofFunction] at h
  split at h
  · contradiction
  · obtain ⟨rfl, rfl, rfl⟩ := faulty.inj h
    exact ⟨rfl, rfl, rfl⟩

private theorem eq_unexpected_of_ofOperator {c : Char} {cause : ScanFault} {offset width : ℕ}
    (h : ofOperator c = .faulty cause offset width) :
    cause = .unexpectedCharacter c ∧ offset = 0 ∧ width = 0 := by
  rw [ofOperator] at h
  split at h
  · contradiction
  · obtain ⟨rfl, rfl, rfl⟩ := faulty.inj h
    exact ⟨rfl, rfl, rfl⟩

/-- A fault at the head of a tag is the same fault behind it. -/
private theorem insideTag_false_of_faulty {atHead : Bool} {c : Char} {cs : List Char}
    {cause : ScanFault} {offset width : ℕ}
    (h : insideTag atHead c cs = .faulty cause offset width) :
    insideTag false c cs = .faulty cause offset width := by
  rw [insideTag] at h ⊢
  split at h
  · contradiction
  rename_i hend
  split at h
  · contradiction
  split at h
  · contradiction
  rename_i hname
  rw [if_neg hend, if_neg (fun heq ↦ Bool.false_ne_true heq.2), if_neg hname]
  exact h

theorem isFault_of_insideTag {atHead : Bool} {c : Char} {cs : List Char} {cause : ScanFault}
    {offset width : ℕ} (hc : isBlank c = false)
    (h : insideTag atHead c cs = .faulty cause offset width) :
    ∃ before used rest, c :: cs = used ++ rest ∧ offset = before.length ∧ width = used.length ∧
      IsFault (placeInTag atHead) cause before used rest := by
  have hmode : placeInTag atHead ≠ .text := by cases atHead <;> exact Mode.noConfusion
  have hbody := insideTag_false_of_faulty h
  rw [insideTag] at h
  split at h
  · contradiction
  split at h
  · contradiction
  split at h
  · contradiction
  split at h
  · rename_i hat
    subst hat
    obtain ⟨rfl, rfl, rfl⟩ := eq_unexpected_of_ofFunction h
    exact ⟨[], [], _, rfl, rfl, rfl, .unexpectedCharacter hmode hc hbody⟩
  split at h
  · rename_i hquote
    exact hquote ▸ isFault_of_ofQuotedRun hmode h
  split at h
  · exact isFault_of_ofNumeral hmode ‹_› h
  · obtain ⟨rfl, rfl, rfl⟩ := eq_unexpected_of_ofOperator h
    exact ⟨[], [], _, rfl, rfl, rfl, .unexpectedCharacter hmode hc hbody⟩

end Lexeme

/-! ## Steps -/

namespace TokenStream

/-- All that a call can do: from a stream to an answer, and the stream after it. -/
inductive Step : TokenStream → Except ScanError Token → TokenStream → Prop
  /-- It finds the piece that stands next, behind blanks inside a tag. -/
  | found {p opening : Position} {mode : Mode} {gap written rest : List Char} {kind : TokenKind} :
    mode.Gap gap → IsPiece Exponent.size mode kind written rest →
    Step ⟨⟨gap ++ (written ++ rest), p⟩, mode.context opening⟩
      (.ok ⟨kind, p.after gap, (p.after gap).after written⟩)
      ⟨⟨rest, (p.after gap).after written⟩, (mode.context opening).after
        ⟨kind, p.after gap, (p.after gap).after written⟩⟩
  /-- There is a fault next, behind blanks inside a tag. -/
  | faulty {p opening : Position} {mode : Mode} {gap before used rest : List Char}
    {cause : ScanFault} : mode.Gap gap → IsFault mode cause before used rest →
    Step ⟨⟨gap ++ (used ++ rest), p⟩, mode.context opening⟩
      (.error ⟨cause, (p.after gap).after before⟩)
      ⟨⟨rest, (p.after gap).after used⟩, (mode.context opening).pastHead⟩
  /-- In a tag there are only blanks up to the end of the input. -/
  | unterminatedTag {p opening : Position} {mode : Mode} {gap : List Char} : mode ≠ .text →
    mode.Gap gap →
    Step ⟨⟨gap, p⟩, mode.context opening⟩ (.error ⟨.unterminatedTag, opening⟩)
      ⟨⟨[], p.after gap⟩, mode.context opening⟩
  /-- The end of the input has been passed. -/
  | exhausted (cursor : Cursor) :
    Step ⟨cursor, .finished⟩ (.error ⟨.exhausted, cursor.position⟩) ⟨cursor, .finished⟩

private theorem step_settle {p : Position} (opening : Position) {mode : Mode} {gap cs : List Char}
    {lexeme : Lexeme} (hgap : mode.Gap gap)
    (hfound : ∀ kind width, lexeme = .found kind width → ∃ written rest, cs = written ++ rest ∧
      width = written.length ∧ IsPiece Exponent.size mode kind written rest)
    (hfaulty : ∀ cause offset width, lexeme = .faulty cause offset width →
      ∃ before used rest, cs = used ++ rest ∧ offset = before.length ∧ width = used.length ∧
        IsFault mode cause before used rest) :
    Step ⟨⟨gap ++ cs, p⟩, mode.context opening⟩
      (settle ⟨cs, p.after gap⟩ (mode.context opening) lexeme).1
      (settle ⟨cs, p.after gap⟩ (mode.context opening) lexeme).2 := by
  cases lexeme with
  | found kind width =>
    obtain ⟨written, rest, rfl, rfl, hpiece⟩ := hfound _ _ rfl
    rw [settle, Cursor.advance_append]
    exact .found hgap hpiece
  | faulty cause offset width =>
    obtain ⟨before, used, rest, rfl, rfl, rfl, hfault⟩ := hfaulty _ _ _ rfl
    obtain ⟨behind, rfl⟩ := hfault.isPrefix
    have hplace : (⟨before ++ behind ++ rest, p.after gap⟩ : Cursor).advance before.length
        = ⟨behind ++ rest, (p.after gap).after before⟩ := by
      rw [List.append_assoc, Cursor.advance_append]
    rw [settle, hplace, Cursor.advance_append]
    exact .faulty hgap hfault

/-- **Steps.** A call does one of the things that a call can do. -/
theorem step_next (stream : TokenStream) : Step stream stream.next.1 stream.next.2 := by
  obtain ⟨⟨cs, p⟩, context⟩ := stream
  cases context with
  | finished => exact .exhausted _
  | text =>
    have hgap : Mode.text.Gap [] := ⟨by simp, fun _ ↦ rfl⟩
    exact step_settle .origin hgap
      (fun _ _ h ↦ Lexeme.betweenTags_eq_found_iff.mp h)
      (fun _ _ _ h ↦ Lexeme.isFault_of_betweenTags h)
  | tag opening atHead =>
    have hmode : Lexeme.placeInTag atHead ≠ .text := by cases atHead <;> exact Mode.noConfusion
    obtain ⟨gap, ds, rfl, hgap, hds⟩ : ∃ gap ds, cs = gap ++ ds ∧
        (∀ c ∈ gap, isBlank c = true) ∧ ∀ c ∈ ds.head?, isBlank c = false :=
      ⟨_, _, List.takeWhile_append_dropWhile.symm, fun _ hc ↦ List.mem_takeWhile_imp hc,
        head?_dropWhile_eq_false⟩
    have hskip : skipBlanks ⟨gap ++ ds, p⟩ = ⟨ds, p.after gap⟩ := skipBlanks_append hgap hds p
    have hgap' : (Lexeme.placeInTag atHead).Gap gap := ⟨hgap, fun h ↦ absurd h hmode⟩
    rw [next]
    dsimp only
    rw [hskip, ← Mode.context_placeInTag opening atHead]
    cases ds with
    | nil =>
      rw [List.append_nil]
      exact .unterminatedTag hmode hgap'
    | cons c ds =>
      exact step_settle opening hgap' (fun _ _ h ↦ Lexeme.insideTag_eq_found_iff.mp h)
        (fun _ _ _ h ↦ Lexeme.isFault_of_insideTag (hds c rfl) h)

end TokenStream

end TagTemplate
