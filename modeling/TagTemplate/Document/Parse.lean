import TagTemplate.Document.Tag

/-!
# Documents read from templates

A template is read in one pass. Tokens are taken from the stream only when they are needed, so of
two faults the one that comes first in the template is reported, whether it lies in a token or in
the way tokens are put together. Text is added to the document under construction, a tag is read
to its end and then takes effect, and at the end of the input the document has to be finished.

Each of the functions hands on a stream with less left than it was given, which is why reading
ends.
-/

namespace TagTemplate

/-! ## One tag -/

/-- The elements from here to the end of the tag, behind those already read, latest first. -/
def readElements (stream : TokenStream) (done : List Element) :
    Except ParseError (List Element × TokenStream) :=
  match _hnext : stream.next with
  | (.error e, _) => .error e.toParseError
  | (.ok token, after) =>
    match _hkind : token.kind with
    | .tagEnd => .ok (done.reverse, after)
    | .element e => readElements after (e :: done)
    | kind => .error ⟨.misplacedToken kind, token.start⟩
termination_by stream.remaining
decreasing_by exact TokenStream.remaining_lt_of_next ‹_› (by simp [*])

/-- Reads a tag that was opened at a place, and lets it take effect. -/
def readTag (opening : Position) (stream : TokenStream) (builder : Builder) :
    Except ParseError (Builder × TokenStream) :=
  match stream.next with
  | (.error e, _) => .error e.toParseError
  | (.ok token, after) =>
    match TagHead.ofToken? token.kind with
    | none => .error ⟨.unknownTag token.kind, token.start⟩
    | some head =>
      match readElements after [] with
      | .error e => .error e
      | .ok (elements, rest) =>
        match head.apply opening elements builder with
        | .error fault => .error ⟨fault, opening⟩
        | .ok builder => .ok (builder, rest)

/-! ## Less is left after a tag -/

theorem remaining_lt_of_readElements {stream rest : TokenStream} {done elements : List Element}
    (h : readElements stream done = .ok (elements, rest)) : rest.remaining < stream.remaining := by
  fun_induction readElements stream done with
  | case1 => simp at h
  | case2 stream done token after hnext hkind =>
    simp only [Except.ok.injEq, Prod.mk.injEq] at h
    exact h.2 ▸ TokenStream.remaining_lt_of_next hnext (by simp [hkind])
  | case3 stream done token after hnext e hkind ih =>
    exact Nat.lt_trans (ih h) (TokenStream.remaining_lt_of_next hnext (by simp [hkind]))
  | case4 => simp at h

theorem remaining_lt_of_readTag {opening : Position} {stream rest : TokenStream}
    {builder after : Builder} (h : readTag opening stream builder = .ok (after, rest)) :
    rest.remaining < stream.remaining := by
  unfold readTag at h
  split at h
  · simp at h
  rename_i token next hnext
  split at h
  · simp at h
  rename_i head hhead
  have hkind : token.kind ≠ .endOfInput := by
    intro heq
    simp [heq, TagHead.ofToken?] at hhead
  split at h
  · simp at h
  rename_i elements stop hread
  split at h
  · simp at h
  simp only [Except.ok.injEq, Prod.mk.injEq] at h
  exact h.2 ▸ Nat.lt_trans (remaining_lt_of_readElements hread)
    (TokenStream.remaining_lt_of_next hnext hkind)

/-! ## Whole templates -/

namespace Builder

/-- The finished document; a loop that is still open is an error at the tag that opened it. -/
def toDocument (builder : Builder) : Except ParseError Document :=
  match builder.finish with
  | .ok doc => .ok doc
  | .error frame => .error ⟨.unclosedLoop frame.header.counter, frame.opening⟩

/-- Reads on from here to the end of the input. -/
def readFrom (stream : TokenStream) (builder : Builder) : Except ParseError Document :=
  match _hnext : stream.next with
  | (.error e, _) => .error e.toParseError
  | (.ok token, after) =>
    match _hkind : token.kind with
    | .text content => readFrom after (builder.append (.text content))
    | .tagStart =>
      match _htag : readTag token.start after builder with
      | .error e => .error e
      | .ok (builder, rest) => readFrom rest builder
    | .endOfInput => builder.toDocument
    | kind => .error ⟨.misplacedToken kind, token.start⟩
termination_by stream.remaining
decreasing_by
  · exact TokenStream.remaining_lt_of_next ‹_› (by simp [*])
  · exact Nat.lt_trans (remaining_lt_of_readTag ‹_›)
      (TokenStream.remaining_lt_of_next ‹_› (by simp [*]))

end Builder

/-- The document that a template is. -/
def Document.parse (source : String) : Except ParseError Document :=
  Builder.readFrom (.ofSource source) .empty

end TagTemplate
