import TagTemplate.Proofs.Number.Reading
import TagTemplate.Proofs.Token.Contract
import TagTemplate.Proofs.Token.Decomposition
import TagTemplate.Proofs.Token.Places
import TagTemplate.Proofs.Token.Seam

/-!
# Errors are reported at their cause

An error names a place, and what is wrong stands there in the source: the backslash of an escape
that is not allowed, the quote that opens a string without an end, the first character of a number
that does not fit, the character that begins nothing, the opening of a tag without an end, or the
end of the input when more is asked for. `TokenStream.CausedAt` says so of an offset of the source,
with no mention of how far a call has got in its own reading.

Most places are found by the very call that answers the error, and `IsFault` has what is there
(`TokenStream.causedAt_of_isFault`). Two are found long before. A tag without an end is noticed at
the end of the input, where the stream only remembers the opening. That it is the opening of the
last tag goes by induction on the calls, since nothing but another opening replaces it and errors
leave it alone (`TokenStream.hasOpen_of_opening?`). And that the input is over when the end has been
answered has to last for all later calls (`TokenStream.rest_afterCalls_eq_nil`).
-/

namespace TagTemplate

/-! ## Offsets -/

section Offsets

variable (before between behind : List Char)

theorem getElem?_length_append : (before ++ behind)[before.length]? = behind.head? := by
  rw [List.getElem?_append_right le_rfl, Nat.sub_self, List.head?_eq_getElem?]

theorem getElem?_length_append_succ (c : Char) :
    (before ++ c :: behind)[before.length + 1]? = behind.head? := by
  rw [List.getElem?_append_right (Nat.le_succ _), Nat.succ_sub le_rfl, Nat.sub_self,
    List.getElem?_cons_succ, List.head?_eq_getElem?]

theorem extract_append :
    (before ++ (between ++ behind)).extract before.length (before ++ between).length = between := by
  simp [List.extract]

end Offsets

/-! ## Escapes and quotes in a source -/

/-- Whether the character at an offset of a source is the backslash of an escape, in a run of
escaped text that began at another: what lies between is written in full and does not end the
run. -/
structure Escaping.EscapesAt (e : Escaping) (cs : List Char) (start p : ℕ) : Prop where
  /-- The run has begun. -/
  start_le : start ≤ p
  /-- All escapes before it are complete. -/
  exists_content : ∃ content, e.Written content (cs.extract start p)
  /-- The run goes on up to there. -/
  unclosed : e.Unclosed (cs.extract start p) (cs.drop p)
  /-- It is a backslash. -/
  backslash : cs[p]? = some '\\'

theorem Escaping.Written.escapesAt {e : Escaping} {content written rest : List Char}
    (h : e.Written content written) (hopen : e.Unclosed written ('\\' :: rest))
    (before : List Char) :
    e.EscapesAt (before ++ (written ++ '\\' :: rest)) before.length (before ++ written).length := by
  refine ⟨by simp, ⟨content, ?_⟩, ?_, ?_⟩
  · rwa [extract_append]
  · rwa [extract_append, ← List.append_assoc, List.drop_left]
  · rw [← List.append_assoc, getElem?_length_append, List.head?_cons]

/-- A quote behind an opening one closes the string unless a backslash protects it, so where the
input is over before the string is, every quote is protected. -/
theorem Escaping.Written.not_evenBackslashes {content written last : List Char}
    (h : Escaping.quotedText.Written content written)
    (hopen : Escaping.quotedText.Unclosed written last) (hlast : last = [] ∨ last = ['\\'])
    {before behind : List Char} (heq : written ++ last = before ++ '"' :: behind) :
    ¬EvenBackslashes before := by
  induction h generalizing before with
  | nil =>
    have hquote : '"' ∈ last := by
      rw [← List.nil_append last, heq]
      simp
    rcases hlast with rfl | rfl <;> simp at hquote
  | @plain c _ written hc _ ih =>
    rw [unclosed_plain_iff hc] at hopen
    cases before with
    | nil =>
      obtain ⟨rfl, -⟩ := List.cons.inj heq
      exact absurd hopen.1 (by simp [quotedText])
    | cons _ before =>
      obtain ⟨rfl, htail⟩ := List.cons.inj heq
      intro heven
      have hfirst : EvenBackslashes [c] := evenBackslashes_concat hc []
      exact ih hopen.2 htail ((evenBackslashes_append_iff hfirst before).mp heven)
  | @escaped c _ written hc _ ih =>
    rw [unclosed_escaped_iff hc] at hopen
    rcases before with - | ⟨_, - | ⟨_, before⟩⟩
    · exact absurd (List.cons.inj heq).1 (by decide)
    · obtain ⟨rfl, -⟩ := List.cons.inj heq
      exact fun heven ↦ evenBackslashes_backslash_iff.mp heven evenBackslashes_nil
    · obtain ⟨rfl, htail⟩ := List.cons.inj heq
      obtain ⟨rfl, hrest⟩ := List.cons.inj htail
      intro heven
      have hfirst : EvenBackslashes ['\\', c] := (Written.nil.escaped hc).evenBackslashes
      exact ih hopen hrest ((evenBackslashes_append_iff hfirst before).mp heven)

/-! ## One call -/

namespace Context

variable {context : Context}

/-- The place where the tag that is being read was opened, if one is being read. -/
def opening? : Context → Option Position
  | tag opening _ => some opening
  | text | finished => none

@[simp] theorem opening?_pastHead : context.pastHead.opening? = context.opening? := by
  cases context <;> rfl

theorem of_opening?_after {token : Token} {opening : Position}
    (h : (context.after token).opening? = some opening) :
    token.kind = .tagStart ∧ token.start = opening ∨
      context.opening? = some opening ∧ token.kind ≠ .tagStart ∧ token.kind ≠ .tagEnd := by
  rw [after] at h
  split at h
  · rename_i hkind
    exact Or.inl ⟨hkind, Option.some_inj.mp h⟩
  · contradiction
  · contradiction
  all_goals
    rename_i hkind
    rw [opening?_pastHead] at h
    simp [h, hkind]

end Context

namespace TokenStream

namespace Step

variable {stream after : TokenStream} {answer : Except ScanError Token}

/-- An opening that is known after a call has been answered by it, or it was known before and the
call has neither opened nor closed a tag. -/
theorem of_opening? (h : Step stream answer after) {opening : Position}
    (hopening : after.context.opening? = some opening) :
    (∃ opener, answer = .ok opener ∧ opener.kind = .tagStart ∧ opener.start = opening) ∨
      stream.context.opening? = some opening ∧
        kindOf? answer ≠ some .tagStart ∧ kindOf? answer ≠ some .tagEnd := by
  cases h with
  | found _ _ =>
    rcases Context.of_opening?_after hopening with hnew | ⟨hold, hstart, hend⟩
    · exact Or.inl ⟨_, rfl, hnew⟩
    · exact Or.inr ⟨hold, fun heq ↦ hstart (Option.some_inj.mp heq),
        fun heq ↦ hend (Option.some_inj.mp heq)⟩
  | faulty _ _ =>
    rw [Context.opening?_pastHead] at hopening
    exact Or.inr ⟨hopening, nofun, nofun⟩
  | unterminatedTag _ _ => exact Or.inr ⟨hopening, nofun, nofun⟩
  | exhausted _ => contradiction

theorem rest_eq_nil (h : Step stream answer after)
    (hbefore : stream.context = .finished → stream.cursor.rest = [])
    (hafter : after.context = .finished) : after.cursor.rest = [] := by
  rcases h.context_eq_finished_iff.mp hafter with hfinished | hend
  · rw [(h.of_finished hfinished).2]
    exact hbefore hfinished
  · obtain ⟨_, _, _, _, -, -, -, hpiece⟩ := h.exists_piece hend
    exact hpiece.ends

/-- An error is a fault that is next, a tag whose opening is remembered, or the end of the input. -/
theorem error_cases {e : ScanError} (h : Step stream (.error e) after) :
    (∃ mode opening gap before used, stream.context = Mode.context opening mode ∧
      stream.cursor.rest = gap ++ (used ++ after.cursor.rest) ∧ mode.Gap gap ∧
      IsFault mode e.fault before used after.cursor.rest ∧
      e.position = stream.cursor.position.after (gap ++ before) ∧
      after.cursor.position = stream.cursor.position.after (gap ++ used)) ∨
    (e.fault = .unterminatedTag ∧ stream.context.opening? = some e.position) ∨
    e.fault = .exhausted ∧ stream.context = .finished ∧ e.position = stream.cursor.position := by
  cases h with
  | @faulty p opening mode gap before used rest cause hgap hfault =>
    exact Or.inl ⟨mode, opening, gap, before, used, rfl, rfl, hgap, hfault,
      (p.after_append gap before).symm, (p.after_append gap used).symm⟩
  | @unterminatedTag p opening mode gap hmode hgap =>
    refine Or.inr (Or.inl ⟨rfl, ?_⟩)
    cases mode with
    | text => exact absurd rfl hmode
    | head | body => rfl
  | exhausted _ => exact Or.inr (Or.inr ⟨rfl, rfl, rfl⟩)

end Step

/-! ## Causes -/

/-- Whether a call looks for a piece of a tag at an offset of the source: it is made inside a tag,
and only blanks come before. -/
structure LooksAt (stream : TokenStream) (cs : List Char) (p : ℕ) : Prop where
  /-- It is made inside a tag. -/
  isTag : stream.context.isTag = true
  /-- The place has not been passed. -/
  offset_le : stream.offset ≤ p
  /-- Only blanks come before. -/
  isBlank : ∀ c ∈ cs.extract stream.offset p, isBlank c = true

/-- Whether some calls have opened a tag in a place and not closed it: it is the last opening that
they have answered, and no closing has been answered since. -/
def HasOpen (stream : TokenStream) (k : ℕ) (opening : Position) : Prop :=
  ∃ i < k, (∃ opener, stream.answer i = .ok opener ∧ opener.kind = .tagStart ∧
      opener.start = opening) ∧
    ∀ j, i < j → j < k →
      kindOf? (stream.answer j) ≠ some .tagStart ∧ kindOf? (stream.answer j) ≠ some .tagEnd

/-- Whether at an offset of the source stands what is wrong, when the call that comes after `k`
others answers a fault. -/
inductive CausedAt (stream : TokenStream) (cs : List Char) (k p : ℕ) : ScanFault → Prop
  /-- In text it is the backslash of an escape with neither a brace nor a backslash behind it. -/
  | textEscape : (stream.afterCalls k).context = .text →
    Escaping.documentText.EscapesAt cs (stream.afterCalls k).offset p →
    (∀ c ∈ cs[p + 1]?, c ≠ '{' ∧ c ≠ '\\') → CausedAt stream cs k p (.badEscape cs[p + 1]?)
  /-- Behind the quote that opens a string it is the backslash of an escape with some character
  behind it that is neither a quote nor a backslash. -/
  | quotedEscape {quote : ℕ} {c : Char} : (stream.afterCalls k).LooksAt cs quote →
    cs[quote]? = some '"' → Escaping.quotedText.EscapesAt cs (quote + 1) p →
    cs[p + 1]? = some c → c ≠ '"' → c ≠ '\\' → CausedAt stream cs k p (.badEscape (some c))
  /-- It is the quote that opens a string, and all quotes behind it are protected. -/
  | unterminatedString : (stream.afterCalls k).LooksAt cs p → cs[p]? = some '"' →
    (∀ before behind, cs.drop (p + 1) = before ++ '"' :: behind → ¬EvenBackslashes before) →
    CausedAt stream cs k p .unterminatedString
  /-- It is the first character of a number literal that stands for no number of its format. -/
  | numberOutOfRange {n : Numeral} {written rest : List Char} :
    (stream.afterCalls k).LooksAt cs p → cs.drop p = written ++ rest → n.Written written →
    Numeral.Longest written rest → n.ReadAs Exponent.size none →
    CausedAt stream cs k p (.numberOutOfRange n)
  /-- It is the character that is named, which no piece begins with, and the stream stays there. -/
  | unexpectedCharacter {c : Char} : (stream.afterCalls k).LooksAt cs p → cs[p]? = some c →
    (∀ kind written rest, cs.drop p = written ++ rest →
      ¬IsPiece Exponent.size .body kind written rest) →
    (stream.afterCalls (k + 1)).offset = p → CausedAt stream cs k p (.unexpectedCharacter c)
  /-- It is what opens the tag that is open. -/
  | unterminatedTag : stream.HasOpen k (placeAt cs p) → cs[p]? = some '{' →
    cs[p + 1]? = some '$' → CausedAt stream cs k p .unterminatedTag
  /-- It is the end of the source. -/
  | exhausted : p = cs.length → CausedAt stream cs k p .exhausted

variable {stream : TokenStream} {k : ℕ}

theorem causedAt_of_isFault {mode : Mode} {cause : ScanFault} {front before used rest : List Char}
    (hfault : IsFault mode cause before used rest)
    (htext : mode = .text →
      (stream.afterCalls k).context = .text ∧ (stream.afterCalls k).offset = front.length)
    (hlooks : mode ≠ .text →
      (stream.afterCalls k).LooksAt (front ++ (used ++ rest)) front.length)
    (hafter : (stream.afterCalls (k + 1)).offset = (front ++ used).length) :
    CausedAt stream (front ++ (used ++ rest)) k (front ++ before).length cause := by
  cases hfault with
  | textEscape hwritten hopen hrest =>
    obtain ⟨hcontext, hoffset⟩ := htext rfl
    have hescapes := hoffset ▸ hwritten.escapesAt hopen front
    have hnext : (front ++ (before ++ '\\' :: rest))[(front ++ before).length + 1]?
        = rest.head? := by
      rw [← List.append_assoc, getElem?_length_append_succ]
    rw [List.append_assoc before, List.singleton_append, ← hnext]
    refine .textEscape hcontext hescapes fun c hc ↦ ?_
    have hnot := hrest c (hnext ▸ hc)
    simpa [Escaping.documentText] using hnot
  | @quotedEscape _ content written rest c hmode hwritten hopen hc =>
    have hescapes := hwritten.escapesAt hopen (front ++ ['"'])
    have hnext := getElem?_length_append_succ (front ++ '"' :: written) (c :: rest) '\\'
    have hne : c ≠ '"' ∧ c ≠ '\\' := by simpa [Escaping.quotedText] using hc
    refine .quotedEscape (hlooks hmode) ?_ ?_ ?_ hne.1 hne.2
    · exact getElem?_length_append _ _
    · simpa using hescapes
    · simpa using hnext
  | @unterminatedString _ content written last hmode hwritten hopen hlast =>
    simp only [List.append_nil] at hlooks ⊢
    refine .unterminatedString (hlooks hmode) (getElem?_length_append _ _) ?_
    intro before behind heq
    rw [List.drop_length_add_append] at heq
    exact hwritten.not_evenBackslashes hopen hlast heq
  | numberOutOfRange hmode hwritten hlongest hnone =>
    rw [List.append_nil]
    refine .numberOutOfRange (hlooks hmode) List.drop_left hwritten hlongest ?_
    exact hnone ▸ Numeral.readAs_numeralElement? _
  | unexpectedCharacter hmode _ hbody =>
    rw [List.append_nil] at hafter ⊢
    refine .unexpectedCharacter (hlooks hmode) (getElem?_length_append _ _) ?_ hafter
    intro kind written rest heq hpiece
    rw [List.drop_left, List.nil_append] at heq
    have hfound := (@Lexeme.insideTag_eq_found_iff false _ _ _ _).mpr
      ⟨written, rest, heq, rfl, hpiece⟩
    cases hbody.symm.trans hfound

/-! ## Many calls -/

/-- The opening that a stream remembers is that of the last tag that it has opened and not
closed. -/
theorem hasOpen_of_opening? (hstart : stream.context.opening? = none) {opening : Position}
    (h : (stream.afterCalls k).context.opening? = some opening) : stream.HasOpen k opening := by
  induction k with
  | zero => exact nomatch hstart.symm.trans h
  | succ k ih =>
    have hstep := (stream.step_afterCalls k).of_opening? h
    exact exists_since_succ_iff.mpr (hstep.imp_right fun hold ↦ ⟨ih hold.1, hold.2⟩)

theorem HasOpen.exists_passed {source : String} {opening : Position}
    (h : (ofSource source).HasOpen k opening) : ∃ passed rest,
      source.toList = passed ++ '{' :: '$' :: rest ∧
        opening = placeAt source.toList passed.length := by
  obtain ⟨i, -, ⟨opener, hopener, hkind, rfl⟩, -⟩ := h
  have hstep := hopener ▸ step_afterCalls (ofSource source) i
  obtain ⟨hplace, rest, hrest⟩ := hstep.of_tagStart hkind
  obtain ⟨passed, hsource, hposition⟩ := (standsIn_afterCalls source i).exists_passed
  rw [hrest] at hsource
  exact ⟨passed, rest, hsource, by rw [hplace, hposition, hsource, Position.after_origin_append]⟩

theorem rest_afterCalls_eq_nil (hstart : stream.context ≠ .finished)
    (h : (stream.afterCalls k).context = .finished) : (stream.afterCalls k).cursor.rest = [] := by
  induction k with
  | zero => exact absurd h hstart
  | succ k ih => exact (stream.step_afterCalls k).rest_eq_nil ih h

/-! ## Causes of all errors -/

/-- Whether an error that is answered after some calls has the place of an offset of the source
where what is wrong stands. -/
def HasCause (source : String) (k : ℕ) (e : ScanError) : Prop :=
  ∃ p ≤ source.toList.length, e.position = placeAt source.toList p ∧
    CausedAt (ofSource source) source.toList k p e.fault

section HasCause

variable {source : String} {e : ScanError}

theorem hasCause_of_isFault {mode : Mode} {opening : Position} {gap before used : List Char}
    (hcontext : ((ofSource source).afterCalls k).context = mode.context opening)
    (hrest : ((ofSource source).afterCalls k).cursor.rest
      = gap ++ (used ++ ((ofSource source).afterCalls (k + 1)).cursor.rest))
    (hgap : mode.Gap gap)
    (hfault : IsFault mode e.fault before used ((ofSource source).afterCalls (k + 1)).cursor.rest)
    (hplace : e.position = ((ofSource source).afterCalls k).cursor.position.after (gap ++ before))
    (hstop : ((ofSource source).afterCalls (k + 1)).cursor.position
      = ((ofSource source).afterCalls k).cursor.position.after (gap ++ used)) :
    HasCause source k e := by
  obtain ⟨passed, hsource, hposition⟩ := (standsIn_afterCalls source k).exists_passed
  have hoffset : ((ofSource source).afterCalls k).offset = passed.length := by
    rw [offset, hposition, Position.offset_after_origin]
  generalize ((ofSource source).afterCalls (k + 1)).cursor.rest = rest at hrest hfault
  obtain ⟨behind, rfl⟩ := hfault.isPrefix
  have hfront : source.toList = passed ++ gap ++ (before ++ behind ++ rest) := by
    rw [hsource, hrest, List.append_assoc passed]
  refine ⟨(passed ++ gap ++ before).length, ?_, ?_, ?_⟩
  · rw [hfront]
    simp only [List.length_append]
    omega
  · rw [hplace, hposition, ← Position.after_append, ← List.append_assoc, hfront,
      List.append_assoc before, ← List.append_assoc _ before, Position.after_origin_append]
  · rw [hfront]
    refine causedAt_of_isFault hfault (fun hmode ↦ ?_) (fun hmode ↦ ⟨?_, ?_, ?_⟩) ?_
    · obtain rfl := hgap.eq_nil hmode
      exact ⟨hcontext.trans (by rw [hmode]; rfl), by rw [hoffset, List.append_nil]⟩
    · rw [hcontext]
      exact Context.isTag_context_iff.mpr hmode
    · rw [hoffset, List.length_append]
      exact Nat.le_add_right _ _
    · rw [hoffset, List.append_assoc, extract_append]
      exact hgap.isBlank
    · rw [offset, hstop, hposition, ← Position.after_append, Position.offset_after_origin,
        List.append_assoc]

theorem hasCause_of_opening? (hfault : e.fault = .unterminatedTag)
    (hopening : ((ofSource source).afterCalls k).context.opening? = some e.position) :
    HasCause source k e := by
  have hopen := hasOpen_of_opening? rfl hopening
  obtain ⟨passed, rest, hsource, hplace⟩ := hopen.exists_passed
  refine ⟨passed.length, ?_, hplace, ?_⟩
  · rw [hsource, List.length_append]
    exact Nat.le_add_right _ _
  · rw [hfault]
    refine .unterminatedTag (hplace ▸ hopen) ?_ ?_
    · rw [hsource, getElem?_length_append, List.head?_cons]
    · rw [hsource, getElem?_length_append_succ, List.head?_cons]

theorem hasCause_of_finished (hfault : e.fault = .exhausted)
    (hfinished : ((ofSource source).afterCalls k).context = .finished)
    (hplace : e.position = ((ofSource source).afterCalls k).cursor.position) :
    HasCause source k e := by
  obtain ⟨passed, hsource, hposition⟩ := (standsIn_afterCalls source k).exists_passed
  have hnil := rest_afterCalls_eq_nil (context_ofSource_ne_finished source) hfinished
  rw [hnil, List.append_nil] at hsource
  refine ⟨source.toList.length, le_rfl, ?_, hfault ▸ .exhausted rfl⟩
  rw [hplace, hposition, hsource, Position.after_origin]

end HasCause

/-- **Causes.** However many calls there have been and whatever they have answered, an error of the
next one has the line and column of an offset of the source, and what is wrong stands there. -/
theorem errors_are_reported_at_their_cause (source : String) (k : ℕ) {e : ScanError}
    (h : (ofSource source).answer k = .error e) :
    ∃ p ≤ source.toList.length, e.position = placeAt source.toList p ∧
      CausedAt (ofSource source) source.toList k p e.fault := by
  have hstep := h ▸ step_afterCalls (ofSource source) k
  rcases hstep.error_cases with
    ⟨mode, opening, gap, before, used, hcontext, hrest, hgap, hfault, hplace, hstop⟩ |
    ⟨hfault, hopening⟩ | ⟨hfault, hfinished, hplace⟩
  · exact hasCause_of_isFault hcontext hrest hgap hfault hplace hstop
  · exact hasCause_of_opening? hfault hopening
  · exact hasCause_of_finished hfault hfinished hplace

/-- A tag without an end is reported where it was opened, however many errors there have been
since. -/
theorem unterminatedTag_is_reported_at_its_opening :
    (ofSource "\\a\x7b$= \"x").answer 5 = .error ⟨.unterminatedTag, ⟨2, 1, 3⟩⟩ ∧
      CausedAt (ofSource "\\a\x7b$= \"x") "\\a\x7b$= \"x".toList 5 2 .unterminatedTag := by
  have hanswer : (ofSource "\\a\x7b$= \"x").answer 5
      = .error ⟨.unterminatedTag, ⟨2, 1, 3⟩⟩ := by
    decide +kernel
  obtain ⟨p, -, hplace, hcause⟩ := errors_are_reported_at_their_cause _ 5 hanswer
  obtain rfl : 2 = p := congrArg Position.offset hplace
  exact ⟨hanswer, hcause⟩

end TokenStream

end TagTemplate
