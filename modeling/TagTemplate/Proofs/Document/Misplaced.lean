import TagTemplate.Proofs.Document.Failures
import TagTemplate.Proofs.Document.Grammar

/-!
# No token is misplaced

The functions that read a document are prepared for tokens that make no sense where they come: the
head of a tag between tags, say, or text inside one. The stream never brings such a token, because
it follows the tags just as the functions do. `Builder.readFrom` only ever asks for a token in text,
`readTag` where a tag has just been opened, and `readElements` behind the head of one. Each of them
hands on a stream in the context in which the next one asks, and that is the invariant here: the
calls that reading a source leads to (`ReadsFrom`, `ReadsElements`) all find their context.

What can be wrong with a source is therefore less than there are faults. None says that a token is
misplaced, and a tag is unknown for one of a few heads only (`ParseFault.Arises`).
-/

namespace TagTemplate

/-! ## What comes in a context -/

namespace Mode

variable {kind : TokenKind}

theorem eq_of_context_eq {mode mode' : Mode} {opening opening' : Position}
    (h : mode.context opening = mode'.context opening') : mode = mode' := by
  cases mode <;> cases mode' <;> simp_all [context]

theorem Admits.of_text (h : Admits .text kind) :
    (∃ content, kind = .text content) ∨ kind = .tagStart ∨ kind = .endOfInput := by
  cases h with
  | text content => exact Or.inl ⟨content, rfl⟩
  | tagStart => exact Or.inr (Or.inl rfl)
  | endOfInput => exact Or.inr (Or.inr rfl)
  | tagEnd hne => exact absurd rfl hne

theorem Admits.of_head (h : Admits .head kind) :
    kind = .tagEnd ∨ (∃ e, kind = .element e ∧ ∀ name, e ≠ .variableName name) ∨
      ∃ name, kind = .tagHead name := by
  cases h with
  | tagEnd _ => exact Or.inl rfl
  | headElement hne => exact Or.inr (Or.inl ⟨_, rfl, hne⟩)
  | tagHead name => exact Or.inr (Or.inr ⟨name, rfl⟩)

theorem Admits.of_body (h : Admits .body kind) : kind = .tagEnd ∨ ∃ e, kind = .element e := by
  cases h with
  | tagEnd _ => exact Or.inl rfl
  | bodyElement e => exact Or.inr ⟨e, rfl⟩

end Mode

namespace TokenStream

variable {stream after : TokenStream} {token : Token}

/-- The context follows the tokens. -/
theorem context_of_next (h : stream.next = (.ok token, after)) :
    after.context = stream.context.after token := by
  have hstep := stream.step_next
  rw [h] at hstep
  cases hstep with
  | found _ _ => rfl

theorem exists_isPiece_of_next {mode : Mode} {opening : Position}
    (hcontext : stream.context = mode.context opening) (h : stream.next = (.ok token, after)) :
    ∃ written, IsPiece Exponent.size mode token.kind written after.cursor.rest := by
  have hstep := stream.step_next
  rw [h] at hstep
  cases hstep with
  | found _ hpiece =>
    obtain rfl := Mode.eq_of_context_eq hcontext
    exact ⟨_, hpiece⟩

theorem kind_of_next_in_text (hcontext : stream.context = .text)
    (h : stream.next = (.ok token, after)) :
    (∃ content, token.kind = .text content) ∨ token.kind = .tagStart ∨
      token.kind = .endOfInput := by
  have hmode : stream.context = Mode.text.context .origin := hcontext
  obtain ⟨written, hpiece⟩ := exists_isPiece_of_next hmode h
  exact hpiece.admits.of_text

theorem kind_of_next_in_body {opening : Position} (hcontext : stream.context = .tag opening false)
    (h : stream.next = (.ok token, after)) :
    token.kind = .tagEnd ∨ ∃ e, token.kind = .element e := by
  have hmode : stream.context = Mode.body.context opening := hcontext
  obtain ⟨written, hpiece⟩ := exists_isPiece_of_next hmode h
  exact hpiece.admits.of_body

end TokenStream

/-! ## The calls that reading leads to -/

/-- A stream and a document under construction with which `Builder.readFrom` is called when a source
is read. -/
inductive ReadsFrom (source : String) : TokenStream → Builder → Prop
  /-- It is called with the whole source first. -/
  | start : ReadsFrom source (.ofSource source) .empty
  /-- It is called again behind a text. -/
  | text {stream after : TokenStream} {builder : Builder} {token : Token} {content : String} :
    ReadsFrom source stream builder → stream.next = (.ok token, after) →
    token.kind = .text content → ReadsFrom source after (builder.append (.text content))
  /-- It is called again behind a tag that has been read. -/
  | tag {stream after rest : TokenStream} {builder changed : Builder} {token : Token} :
    ReadsFrom source stream builder → stream.next = (.ok token, after) →
    token.kind = .tagStart → readTag token.start after builder = .ok (changed, rest) →
    ReadsFrom source rest changed

/-- A stream and elements with which `readElements` is called when a source is read. -/
inductive ReadsElements (source : String) : TokenStream → List Element → Prop
  /-- It is called behind the head of a tag. -/
  | head {stream after rest : TokenStream} {builder : Builder} {token first : Token}
    {head : TagHead} : ReadsFrom source stream builder → stream.next = (.ok token, after) →
    token.kind = .tagStart → after.next = (.ok first, rest) →
    TagHead.ofToken? first.kind = some head → ReadsElements source rest []
  /-- It is called again behind an element. -/
  | element {stream after : TokenStream} {done : List Element} {token : Token} {e : Element} :
    ReadsElements source stream done → stream.next = (.ok token, after) →
    token.kind = .element e → ReadsElements source after (e :: done)

theorem context_of_readElements {stream rest : TokenStream} {done elements : List Element}
    (h : readElements stream done = .ok (elements, rest)) : rest.context = .text := by
  fun_induction readElements stream done with
  | case1 => contradiction
  | case2 stream done token after hnext hkind =>
    obtain ⟨-, rfl⟩ := Prod.mk.inj (Except.ok.inj h)
    rw [TokenStream.context_of_next hnext, Context.after, hkind]
  | case3 stream done token after hnext e hkind ih => exact ih h
  | case4 => contradiction

section ReadTag

variable {opening : Position} {stream rest : TokenStream} {builder changed : Builder}

theorem exists_apply_of_readTag (h : readTag opening stream builder = .ok (changed, rest)) :
    ∃ first after head elements, stream.next = (.ok first, after) ∧
      TagHead.ofToken? first.kind = some head ∧ readElements after [] = .ok (elements, rest) ∧
      head.apply opening elements builder = .ok changed := by
  rw [readTag] at h
  split at h
  · contradiction
  rename_i first after hnext
  split at h
  · contradiction
  rename_i head hhead
  split at h
  · contradiction
  rename_i elements stop hread
  split at h
  · contradiction
  rename_i happly
  obtain ⟨rfl, rfl⟩ := Prod.mk.inj (Except.ok.inj h)
  exact ⟨first, after, head, elements, hnext, hhead, hread, happly⟩

/-- An error in a tag is one in its first token, or this is no head, or it is one in the elements,
or the tag is refused. -/
theorem readTag_error_cases {error : ParseError}
    (h : readTag opening stream builder = .error error) :
    (∃ e : ScanError, error = e.toParseError) ∨
    (∃ first after, stream.next = (.ok first, after) ∧ TagHead.ofToken? first.kind = none ∧
      error = ⟨.unknownTag first.kind, first.start⟩) ∨
    ∃ first after head, stream.next = (.ok first, after) ∧
      TagHead.ofToken? first.kind = some head ∧
      (readElements after [] = .error error ∨ ∃ elements fault,
        head.apply opening elements builder = .error fault ∧ error = ⟨fault, opening⟩) := by
  rw [readTag] at h
  split at h
  · exact Or.inl ⟨_, (Except.error.inj h).symm⟩
  rename_i first after hnext
  split at h
  · rename_i hhead
    exact Or.inr (Or.inl ⟨first, after, hnext, hhead, (Except.error.inj h).symm⟩)
  rename_i head hhead
  refine Or.inr (Or.inr ⟨first, after, head, hnext, hhead, ?_⟩)
  split at h
  · rename_i hread
    obtain rfl := Except.error.inj h
    exact Or.inl hread
  split at h
  · rename_i happly
    exact Or.inr ⟨_, _, happly, (Except.error.inj h).symm⟩
  · contradiction

theorem context_of_readTag (h : readTag opening stream builder = .ok (changed, rest)) :
    rest.context = .text := by
  obtain ⟨_, _, _, _, -, -, hread, -⟩ := exists_apply_of_readTag h
  exact context_of_readElements hread

end ReadTag

theorem context_of_head {stream after : TokenStream} {token : Token} {opening : Position}
    {head : TagHead} (hcontext : stream.context = .tag opening true)
    (hnext : stream.next = (.ok token, after)) (hhead : TagHead.ofToken? token.kind = some head) :
    after.context = .tag opening false := by
  obtain ⟨name, hkind, -⟩ := TagHead.ofToken?_eq_some_iff.mp hhead
  rw [TokenStream.context_of_next hnext, Context.after, hkind, hcontext]
  rfl

theorem context_of_element {stream after : TokenStream} {token : Token} {opening : Position}
    {e : Element} (hcontext : stream.context = .tag opening false)
    (hnext : stream.next = (.ok token, after)) (hkind : token.kind = .element e) :
    after.context = .tag opening false := by
  rw [TokenStream.context_of_next hnext, Context.after, hkind, hcontext]
  rfl

theorem ReadsFrom.context {source : String} {stream : TokenStream} {builder : Builder}
    (h : ReadsFrom source stream builder) : stream.context = .text := by
  induction h with
  | start => rfl
  | text _ hnext hkind ih =>
    rw [TokenStream.context_of_next hnext, Context.after, hkind, ih]
    rfl
  | tag _ _ _ htag _ => exact context_of_readTag htag

theorem ReadsElements.exists_context {source : String} {stream : TokenStream}
    {done : List Element} (h : ReadsElements source stream done) :
    ∃ opening, stream.context = .tag opening false := by
  induction h with
  | @head _ after _ _ token _ _ hfrom hnext hkind hfirst hhead =>
    have hopened : after.context = .tag token.start true := by
      rw [TokenStream.context_of_next hnext, Context.after, hkind]
    exact ⟨token.start, context_of_head hopened hfirst hhead⟩
  | element _ hnext hkind ih =>
    obtain ⟨opening, hcontext⟩ := ih
    exact ⟨opening, context_of_element hcontext hnext hkind⟩

/-! ## The faults that arise -/

/-- Whether a tag that begins with a token is unknown: its end, an element that is no variable, or a
name that is neither FOR nor END. -/
inductive TokenKind.IsUnknownHead : TokenKind → Prop
  | tagEnd : IsUnknownHead .tagEnd
  | element {e : Element} : (∀ name, e ≠ .variableName name) → IsUnknownHead (.element e)
  | name {name : String} : IsName name.toList → ¬SpellsFor name → ¬SpellsEnd name →
    IsUnknownHead (.tagHead name)

/-- Whether a fault can be found in a source. -/
def ParseFault.Arises : ParseFault → Prop
  | unknownTag head => head.IsUnknownHead
  | misplacedToken _ => False
  | scan _ | invalidHeader _ | emptyEcho | unexpectedEnd | unclosedLoop _ | elementAfterEnd _ =>
    True

theorem TagHead.arises_of_apply {head : TagHead} {opening : Position} {elements : List Element}
    {builder : Builder} {fault : ParseFault}
    (h : head.apply opening elements builder = .error fault) : fault.Arises := by
  rcases apply_eq_error_iff.mp h with ⟨-, -, rfl⟩ | ⟨-, f, -, rfl⟩ | ⟨-, e, es, -, rfl⟩ |
    ⟨-, -, -, rfl⟩ <;> trivial

theorem isUnknownHead_of_next {stream after : TokenStream} {token : Token} {opening : Position}
    (hcontext : stream.context = .tag opening true) (hnext : stream.next = (.ok token, after))
    (hhead : TagHead.ofToken? token.kind = none) : token.kind.IsUnknownHead := by
  have hmode : stream.context = Mode.head.context opening := hcontext
  obtain ⟨written, hadmits, hspelled, -⟩ := TokenStream.exists_isPiece_of_next hmode hnext
  rcases hadmits.of_head with hend | ⟨e, helement, hne⟩ | ⟨name, hname⟩
  · rw [hend]
    exact .tagEnd
  · rw [helement]
    exact .element hne
  · rw [hname] at hhead hspelled ⊢
    replace hhead : TagHead.ofName? name = none := hhead
    have hfor : ¬SpellsFor name := by
      intro hspells
      rw [TagHead.ofName?_eq_loop_iff.mpr hspells] at hhead
      contradiction
    have hclose : ¬SpellsEnd name := by
      intro hspells
      rw [TagHead.ofName?_eq_close_iff.mpr hspells] at hhead
      contradiction
    cases hspelled with
    | tagHead hisName => exact .name (by rwa [String.toList_ofList]) hfor hclose
    | equalsSign => contradiction

theorem arises_of_readElements {stream : TokenStream} {done : List Element} {error : ParseError}
    {opening : Position} (hcontext : stream.context = .tag opening false)
    (h : readElements stream done = .error error) : error.fault.Arises := by
  fun_induction readElements stream done with
  | case1 stream done e after hnext =>
    obtain rfl := Except.error.inj h
    trivial
  | case2 => contradiction
  | case3 stream done token after hnext e hkind ih =>
    exact ih (context_of_element hcontext hnext hkind) h
  | case4 stream done token after hnext hend helement =>
    rcases TokenStream.kind_of_next_in_body hcontext hnext with hkind | ⟨e, hkind⟩
    · exact absurd hkind hend
    · exact absurd hkind (helement e)

theorem arises_of_readTag {opening opening' : Position} {stream : TokenStream} {builder : Builder}
    {error : ParseError} (hcontext : stream.context = .tag opening' true)
    (h : readTag opening stream builder = .error error) : error.fault.Arises := by
  rcases readTag_error_cases h with ⟨e, rfl⟩ | ⟨first, after, hnext, hhead, rfl⟩ |
    ⟨first, after, head, hnext, hhead, hread | ⟨elements, fault, happly, rfl⟩⟩
  · trivial
  · exact isUnknownHead_of_next hcontext hnext hhead
  · exact arises_of_readElements (context_of_head hcontext hnext hhead) hread
  · exact TagHead.arises_of_apply happly

theorem arises_of_readFrom {stream : TokenStream} {builder : Builder} {error : ParseError}
    (hcontext : stream.context = .text) (h : Builder.readFrom stream builder = .error error) :
    error.fault.Arises := by
  fun_induction Builder.readFrom stream builder with
  | case1 stream builder e after hnext =>
    obtain rfl := Except.error.inj h
    trivial
  | case2 stream builder token after hnext content hkind ih =>
    refine ih ?_ h
    rw [TokenStream.context_of_next hnext, Context.after, hkind, hcontext]
    rfl
  | case3 stream builder token after hnext hkind e htag =>
    obtain rfl := Except.error.inj h
    have hopened : after.context = .tag token.start true := by
      rw [TokenStream.context_of_next hnext, Context.after, hkind]
    exact arises_of_readTag hopened htag
  | case4 stream builder token after hnext hkind changed rest htag ih =>
    exact ih (context_of_readTag htag) h
  | case5 stream builder token after hnext hkind =>
    rw [Builder.toDocument] at h
    split at h
    · contradiction
    · obtain rfl := Except.error.inj h
      trivial
  | case6 stream builder token after hnext htext hstart hend =>
    rcases TokenStream.kind_of_next_in_text hcontext hnext with ⟨content, hkind⟩ | hkind | hkind
    · exact absurd hkind (htext content)
    · exact absurd hkind hstart
    · exact absurd hkind hend

/-- Whatever is wrong with a source is a fault that arises. -/
theorem arises_of_parse {source : String} {error : ParseError}
    (h : Document.parse source = .error error) : error.fault.Arises :=
  arises_of_readFrom rfl h

/-- **Misplaced tokens.** Wherever reading a source asks for a token, the token makes sense there:
between tags it is a text, what opens a tag or the end of the input, and in a tag behind its head it
is an element or what closes the tag. So the one thing that is ever reported to stand in the wrong
place is an element behind END, and an unknown tag is one without a head, or with an element that is
no variable in place of the head, or with a name that is neither FOR nor END. -/
theorem tokens_come_where_asked (source : String) :
    (∀ stream builder token after, ReadsFrom source stream builder →
      stream.next = (.ok token, after) →
      (∃ content, token.kind = .text content) ∨ token.kind = .tagStart ∨
        token.kind = .endOfInput) ∧
    (∀ stream done token after, ReadsElements source stream done →
      stream.next = (.ok token, after) →
      token.kind = .tagEnd ∨ ∃ e, token.kind = .element e) ∧
    ∀ error, Document.parse source = .error error →
      (∀ payload, error.fault.misplaced? = some payload →
        ∃ e, error.fault = .elementAfterEnd e ∧ payload = "'" ++ e.text ++ "' after END") ∧
      ∀ head, error.fault = .unknownTag head →
        head = .tagEnd ∧ head.asHead = "" ∨
        (∃ e, head = .element e ∧ (∀ name, e ≠ .variableName name) ∧ head.asHead = e.display) ∨
        ∃ name, head = .tagHead name ∧ head.asHead = name ∧ IsName name.toList ∧
          ¬SpellsFor name ∧ ¬SpellsEnd name := by
  refine ⟨fun stream builder token after hfrom hnext ↦ ?_,
    fun stream done token after helements hnext ↦ ?_, fun error herror ↦ ?_⟩
  · exact TokenStream.kind_of_next_in_text hfrom.context hnext
  · obtain ⟨opening, hcontext⟩ := helements.exists_context
    exact TokenStream.kind_of_next_in_body hcontext hnext
  obtain ⟨fault, p⟩ := error
  have harises : fault.Arises := arises_of_parse herror
  refine ⟨fun payload hpayload ↦ ?_, fun head hhead ↦ ?_⟩
  · cases fault with
    | elementAfterEnd e => exact ⟨e, rfl, (Option.some_inj.mp hpayload).symm⟩
    | misplacedToken kind => exact harises.elim
    | _ => contradiction
  · obtain rfl : fault = .unknownTag head := hhead
    cases (show head.IsUnknownHead from harises) with
    | tagEnd => exact Or.inl ⟨rfl, rfl⟩
    | element hne => exact Or.inr (Or.inl ⟨_, rfl, hne, rfl⟩)
    | name hname hfor hend => exact Or.inr (Or.inr ⟨_, rfl, rfl, hname, hfor, hend⟩)

end TagTemplate
