import TagTemplate.Proofs.Document.Reading
import TagTemplate.Proofs.Token.Contract

/-!
# What is reported when reading fails

A document is read while its tokens are taken, so a source that has an error in its tokens may have
another error before it. What reading all tokens and reading a document report is tied together by
the tokens that come before the error (`TokenStream.Yields`). As long as the machine that reads
documents takes these tokens, it comes to the same error; and if it does not, its own error comes of
these tokens and of nothing behind them (`Reading.drive_of_yields`).

Neither of the two ever asks for a token behind the end of the input, and this is why that is never
reported.
-/

namespace TagTemplate

namespace TokenStream

/-! ## Tokens before an error -/

/-- Whether the first calls of a stream answer the given tokens, and the stream after them. -/
inductive Yields : TokenStream → List Token → TokenStream → Prop
  | nil (stream : TokenStream) : Yields stream [] stream
  | cons {stream next after : TokenStream} {token : Token} {tokens : List Token} :
    stream.next = (.ok token, next) → Yields next tokens after →
    Yields stream (token :: tokens) after

theorem exists_yields_of_collect {stream : TokenStream} {done : List Token} {e : ScanError}
    (h : stream.collect done = .error e) :
    ∃ tokens after, stream.Yields tokens after ∧ (∀ token ∈ tokens, token.kind ≠ .endOfInput) ∧
      after.next.1 = .error e := by
  fun_induction collect stream done with
  | case1 stream done e' next hnext =>
    exact ⟨[], stream, .nil stream, List.forall_mem_nil _, by rw [hnext, Except.error.inj h]⟩
  | case2 => contradiction
  | case3 stream done token next hnext hkind ih =>
    obtain ⟨tokens, after, hyields, htokens, herror⟩ := ih h
    exact ⟨token :: tokens, after, .cons hnext hyields,
      List.forall_mem_cons.mpr ⟨hkind, htokens⟩, herror⟩

theorem exists_yields_of_collect_ok {stream : TokenStream} {tokens more : List Token}
    (h : stream.collect [] = .ok (tokens ++ more)) (hmore : more ≠ []) :
    ∃ after, stream.Yields tokens after ∧ (∀ token ∈ tokens, token.kind ≠ .endOfInput) ∧
      after.collect [] = .ok more := by
  induction tokens generalizing stream with
  | nil => exact ⟨stream, .nil stream, List.forall_mem_nil _, h⟩
  | cons token tokens ih =>
    obtain ⟨first, next, hnext, ⟨-, heq⟩ | ⟨hkind, rest, hrest, heq⟩⟩ :=
      TokenStream.collect_eq_ok_iff.mp h
    · exact absurd (List.append_eq_nil_iff.mp (List.cons.inj heq).2).2 hmore
    · obtain ⟨rfl, rfl⟩ := List.cons.inj heq
      obtain ⟨after, hyields, htokens, hcollect⟩ := ih hrest
      exact ⟨after, .cons hnext hyields, List.forall_mem_cons.mpr ⟨hkind, htokens⟩, hcollect⟩

/-- A stream comes to its end by answering it, and in no other way. -/
theorem Yields.context_ne_finished {stream after : TokenStream} {tokens : List Token}
    (h : stream.Yields tokens after) (htokens : ∀ token ∈ tokens, token.kind ≠ .endOfInput)
    (hstart : stream.context ≠ .finished) : after.context ≠ .finished := by
  induction h with
  | nil stream => exact hstart
  | @cons stream next after token tokens hnext _ ih =>
    rw [List.forall_mem_cons] at htokens
    have hstep := stream.step_next
    rw [hnext] at hstep
    refine ih htokens.2 fun hfinished ↦ ?_
    rcases hstep.context_eq_finished_iff.mp hfinished with hbefore | hkind
    · exact hstart hbefore
    · exact htokens.1 (Option.some_inj.mp hkind)

end TokenStream

theorem tokenize_ne_exhausted (source : String) (p : Position) :
    tokenize source ≠ .error ⟨.exhausted, p⟩ := by
  intro h
  obtain ⟨tokens, after, hyields, htokens, herror⟩ := TokenStream.exists_yields_of_collect h
  have hfinished := after.step_next.exhausted_iff.mp ⟨p, herror⟩
  exact hyields.context_ne_finished htokens
    (TokenStream.context_ofSource_ne_finished source) hfinished

/-! ## The errors of the machine itself -/

/-- Whether a fault lies in a token. -/
def ParseFault.isScan : ParseFault → Bool
  | scan _ => true
  | _ => false

namespace TagHead

variable {head : TagHead} {opening : Position} {elements : List Element} {builder : Builder}
  {fault : ParseFault}

theorem apply_eq_error_iff : head.apply opening elements builder = .error fault ↔
    head = echo ∧ elements = [] ∧ fault = .emptyEcho ∨
    head = loop ∧ (∃ f, LoopHeader.ofElements elements = .error f ∧ fault = .invalidHeader f) ∨
    head = close ∧ (∃ e es, elements = e :: es ∧ fault = .elementAfterEnd e) ∨
    head = close ∧ elements = [] ∧ builder.openLoops = [] ∧ fault = .unexpectedEnd := by
  cases head with
  | echo => cases elements <;> simp [apply, eq_comm]
  | loop => cases h : LoopHeader.ofElements elements <;> simp [apply, h, eq_comm]
  | close =>
    cases elements with
    | cons e es => simp [apply, eq_comm]
    | nil => cases h : builder.openLoops <;> simp [apply, Builder.closeLoop?, h, eq_comm]

theorem isScan_eq_false_of_apply (h : head.apply opening elements builder = .error fault) :
    fault.isScan = false := by
  rcases apply_eq_error_iff.mp h with ⟨-, -, rfl⟩ | ⟨-, f, -, rfl⟩ | ⟨-, e, es, -, rfl⟩ |
    ⟨-, -, -, rfl⟩ <;> rfl

end TagHead

namespace Reading

variable {reading : Reading} {error : ParseError}

theorem isScan_eq_false_of_step {token : Token} (h : reading.step token = .error error) :
    error.fault.isScan = false := by
  cases reading with
  | between builder =>
    rw [step] at h
    split at h
    · contradiction
    · contradiction
    · obtain rfl := Except.error.inj h
      rfl
  | opened opening builder =>
    rw [step] at h
    split at h
    · obtain rfl := Except.error.inj h
      rfl
    · contradiction
  | inside opening head done builder =>
    rw [step] at h
    split at h
    · split at h
      · rename_i happly
        obtain rfl := Except.error.inj h
        exact TagHead.isScan_eq_false_of_apply happly
      · contradiction
    · contradiction
    · obtain rfl := Except.error.inj h
      rfl

theorem isScan_eq_false_of_finish {token : Token} (h : reading.finish token = .error error) :
    error.fault.isScan = false := by
  cases reading with
  | between builder =>
    rw [finish, Builder.toDocument] at h
    split at h
    · contradiction
    · obtain rfl := Except.error.inj h
      rfl
  | opened _ _ =>
    obtain rfl := Except.error.inj h
    rfl
  | inside _ _ _ _ =>
    obtain rfl := Except.error.inj h
    rfl

theorem isScan_eq_false_of_run {tokens : List Token} (h : reading.run tokens = .error error) :
    error.fault.isScan = false := by
  induction tokens generalizing reading with
  | nil => contradiction
  | cons token tokens ih =>
    rw [run] at h
    cases hstep : reading.step token with
    | error e =>
      rw [hstep] at h
      obtain rfl := Except.error.inj h
      exact isScan_eq_false_of_step hstep
    | ok next =>
      rw [hstep] at h
      exact ih h

/-! ## The machine and the stream -/

/-- The machine that is driven by a stream takes the tokens that the stream yields, whatever comes
behind them. -/
theorem drive_of_yields {stream after : TokenStream} {tokens : List Token}
    (h : stream.Yields tokens after) (htokens : ∀ token ∈ tokens, token.kind ≠ .endOfInput)
    (reading : Reading) :
    drive stream reading =
      match reading.run tokens with
      | .error e => .error e
      | .ok reached => drive after reached := by
  induction h generalizing reading with
  | nil stream => rfl
  | @cons stream next after token tokens hnext _ ih =>
    rw [List.forall_mem_cons] at htokens
    rw [drive_of_next_eq_ok hnext htokens.1, run]
    cases reading.step token with
    | error e => rfl
    | ok reached => exact ih htokens.2 reached

theorem collect_of_drive {stream : TokenStream} {reading : Reading} {fault : ScanFault}
    {p : Position} (h : drive stream reading = .error ⟨.scan fault, p⟩) :
    stream.collect [] = .error ⟨fault, p⟩ := by
  fun_induction drive stream reading with
  | case1 stream reading e after hnext =>
    obtain ⟨hfault, rfl⟩ := ParseError.mk.inj (Except.error.inj h)
    obtain rfl := ParseFault.scan.inj hfault
    exact TokenStream.collect_of_next_eq_error hnext
  | case2 stream reading token after hnext hkind => cases isScan_eq_false_of_finish h
  | case3 stream reading token after hnext hkind error hstep =>
    obtain rfl := Except.error.inj h
    cases isScan_eq_false_of_step hstep
  | case4 stream reading token after hnext hkind next hstep ih =>
    rw [TokenStream.collect_of_next_eq_ok hnext hkind, TokenStream.collect_eq_map, ih h]
    rfl

end Reading

/-! ## Sources -/

theorem tokenize_of_parse_scan {source : String} {fault : ScanFault} {p : Position}
    (h : Document.parse source = .error ⟨.scan fault, p⟩) :
    tokenize source = .error ⟨fault, p⟩ := by
  rw [Document.parse_eq_drive] at h
  exact Reading.collect_of_drive h

namespace Document

theorem parse_of_yields {source : String} {tokens : List Token} {after : TokenStream}
    (h : (TokenStream.ofSource source).Yields tokens after)
    (htokens : ∀ token ∈ tokens, token.kind ≠ .endOfInput) :
    Document.parse source = match (Reading.between .empty).run tokens with
      | .error e => .error e
      | .ok reached => reached.drive after := by
  rw [Document.parse_eq_drive, Reading.drive_of_yields h htokens]

theorem parse_of_tokenize {source : String} {tokens : List Token} {last : Token}
    (h : tokenize source = .ok (tokens ++ [last])) (hlast : last.kind = .endOfInput) :
    Document.parse source = match (Reading.between .empty).run tokens with
      | .error e => .error e
      | .ok reached => reached.finish last := by
  obtain ⟨after, hyields, htokens, hcollect⟩ :=
    TokenStream.exists_yields_of_collect_ok h (List.cons_ne_nil _ _)
  rw [parse_of_yields hyields htokens]
  obtain ⟨token, _, hnext, ⟨-, heq⟩ | ⟨hkind, _, -, heq⟩⟩ :=
    TokenStream.collect_eq_ok_iff.mp hcollect
  · obtain rfl := (List.cons.inj heq).1
    cases (Reading.between .empty).run tokens with
    | error e => rfl
    | ok reached => exact Reading.drive_of_next_eq_end hnext hlast reached
  · obtain rfl := (List.cons.inj heq).1
    exact absurd hlast hkind

end Document

/-- An error in the tokens is reported when a document is read, unless the tokens before it are
reason enough for another error. -/
theorem parse_of_tokenize_error {source : String} {e : ScanError}
    (h : tokenize source = .error e) :
    ∃ tokens after, (TokenStream.ofSource source).Yields tokens after ∧
      after.next.1 = .error e ∧
      (Document.parse source = .error e.toParseError ∨
        ∃ error : ParseError, error.fault.isScan = false ∧
          Document.parse source = .error error ∧
          ∀ other after', (TokenStream.ofSource other).Yields tokens after' →
            Document.parse other = .error error) := by
  obtain ⟨tokens, after, hyields, htokens, herror⟩ := TokenStream.exists_yields_of_collect h
  refine ⟨tokens, after, hyields, herror, ?_⟩
  cases hrun : (Reading.between .empty).run tokens with
  | error error =>
    have hparse (other : String) (after' : TokenStream)
        (hother : (TokenStream.ofSource other).Yields tokens after') :
        Document.parse other = .error error := by
      rw [Document.parse_of_yields hother htokens, hrun]
    exact Or.inr ⟨error, Reading.isScan_eq_false_of_run hrun, hparse source after hyields, hparse⟩
  | ok reached =>
    have hnext : after.next = (.error e, after.next.2) := Prod.ext herror rfl
    refine Or.inl ?_
    rw [Document.parse_of_yields hyields htokens, hrun]
    exact Reading.drive_of_next_eq_error hnext reached

/-- **Failures.** What is reported when reading fails is the same whether all tokens are read or a
document is: a source that is read as a document has tokens; a fault in a token that is reported of
a document is reported of the tokens, at the same place; and an error in the tokens is reported of
the document, unless there is another error that comes of the tokens before it alone. Neither ever
asks for a token behind the end of the input. -/
theorem failures_agree (source : String) :
    (∀ doc, Document.parse source = .ok doc → ∃ tokens, tokenize source = .ok tokens) ∧
    (∀ fault p, Document.parse source = .error ⟨.scan fault, p⟩ →
      tokenize source = .error ⟨fault, p⟩) ∧
    (∀ e, tokenize source = .error e →
      ∃ tokens after, (TokenStream.ofSource source).Yields tokens after ∧
        after.next.1 = .error e ∧
        (Document.parse source = .error ⟨.scan e.fault, e.position⟩ ∨
          ∃ error : ParseError, error.fault.isScan = false ∧
            Document.parse source = .error error ∧
            ∀ other after', (TokenStream.ofSource other).Yields tokens after' →
              Document.parse other = .error error)) ∧
    ∀ p, tokenize source ≠ .error ⟨.exhausted, p⟩ ∧
      Document.parse source ≠ .error ⟨.scan .exhausted, p⟩ := by
  refine ⟨fun doc h ↦ ?_, fun fault p ↦ tokenize_of_parse_scan, fun e ↦ parse_of_tokenize_error,
    fun p ↦ ⟨tokenize_ne_exhausted source p, fun h ↦ ?_⟩⟩
  · obtain ⟨tokens, last, htokens, -⟩ := Document.parse_eq_ok_iff_run.mp h
    exact ⟨_, htokens⟩
  · exact tokenize_ne_exhausted source p (tokenize_of_parse_scan h)

/-- A bad escape is reported of both, unless an END tag before it is reason enough for another error
of the document. -/
theorem failures_agree_on_badEscape :
    tokenize "a\\x" = .error ⟨.badEscape (some 'x'), ⟨1, 1, 2⟩⟩ ∧
    ∃ tokens after, (TokenStream.ofSource "\x7b$END$\x7d\\x").Yields tokens after ∧
      ∃ error : ParseError, error.fault.isScan = false ∧
        Document.parse "\x7b$END$\x7d\\x" = .error error ∧
        ∀ other after', (TokenStream.ofSource other).Yields tokens after' →
          Document.parse other = .error error := by
  have hscan : Document.parse "a\\x" = .error ⟨.scan (.badEscape (some 'x')), ⟨1, 1, 2⟩⟩ := by
    decide +kernel
  have htokens : tokenize "\x7b$END$\x7d\\x" = .error ⟨.badEscape (some 'x'), ⟨7, 1, 8⟩⟩ := by
    decide +kernel
  have hparse : Document.parse "\x7b$END$\x7d\\x" = .error ⟨.unexpectedEnd, .origin⟩ := by
    decide +kernel
  obtain ⟨-, hagree, -, -⟩ := failures_agree "a\\x"
  obtain ⟨-, -, hbefore, -⟩ := failures_agree "\x7b$END$\x7d\\x"
  obtain ⟨tokens, after, hyields, -, hsame | hother⟩ := hbefore _ htokens
  · rw [hparse] at hsame
    cases hsame
  · exact ⟨hagree _ _ hscan, tokens, after, hyields, hother⟩

end TagTemplate
