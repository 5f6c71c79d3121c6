import TagTemplate.Token.Lexeme

/-!
# The stream of tokens

A `TokenStream` is a place in a template together with what is being read there: text, the inside
of a tag, or nothing any more. `TokenStream.next` takes one token. It answers a token or an error
and, in either case, the stream to go on with, so that reading can be resumed after an error; the
stream then stands where the fault left it.

The context follows the tokens (`Context.after`): what opens a tag enters it and remembers where,
what closes it leaves it, and any other token only ends the head of a tag, as a fault in the place
of one does. Inside a tag blanks are passed over first. The end of the input is a token once, in
text; inside a tag it is an error that points back at where the tag was opened.

Every token but the last uses up at least one character (`TokenStream.remaining_lt_of_next`),
which is why reading a whole template ends.
-/

namespace TagTemplate

/-- A fault and where it is reported. -/
structure ScanError where
  /-- What is wrong. -/
  fault : ScanFault
  /-- The place to look at. -/
  position : Position
deriving DecidableEq, Repr

/-- What is being read. -/
inductive Context where
  /-- Text between tags. -/
  | text
  /-- The inside of a tag that was opened at a place; `atHead` until its first word is read. -/
  | tag (opening : Position) (atHead : Bool)
  /-- Nothing: the end of the input has been read. -/
  | finished
deriving DecidableEq, Repr

namespace Context

/-- The context in which the head of a tag is no longer to come. -/
def pastHead : Context → Context
  | tag opening _ => tag opening false
  | context => context

/-- The context after a token. -/
def after (context : Context) (token : Token) : Context :=
  match token.kind with
  | .tagStart => tag token.start true
  | .tagEnd => text
  | .endOfInput => finished
  | .text _ | .tagHead _ | .element _ => context.pastHead

/-- Whether it is the inside of a tag. -/
def isTag : Context → Bool
  | tag _ _ => true
  | text | finished => false

end Context

/-- A template that is being read. -/
structure TokenStream where
  /-- The place that has been reached. -/
  cursor : Cursor
  /-- What is being read there. -/
  context : Context
deriving DecidableEq

namespace TokenStream

/-- A template that has not been read yet. -/
def ofSource (source : String) : TokenStream := ⟨.atStart source, .text⟩

/-- How many characters are left. -/
def remaining (stream : TokenStream) : Nat := stream.cursor.rest.length

/-- What a lexeme found at a cursor comes to: a token or an error, and the stream after it. -/
def settle (cursor : Cursor) (context : Context) : Lexeme → Except ScanError Token × TokenStream
  | .found kind width =>
    let stop := cursor.advance width
    let token : Token := ⟨kind, cursor.position, stop.position⟩
    (.ok token, ⟨stop, context.after token⟩)
  | .faulty cause offset width =>
    (.error ⟨cause, (cursor.advance offset).position⟩, ⟨cursor.advance width, context.pastHead⟩)

/-- The cursor behind any blanks. -/
def skipBlanks (cursor : Cursor) : Cursor :=
  cursor.advance (cursor.rest.takeWhile isBlank).length

/-- The next token, and the stream after it. -/
def next (stream : TokenStream) : Except ScanError Token × TokenStream :=
  match stream.context with
  | .finished => (.error ⟨.exhausted, stream.cursor.position⟩, stream)
  | .text => settle stream.cursor .text (.betweenTags stream.cursor.rest)
  | .tag opening atHead =>
    let cursor := skipBlanks stream.cursor
    match cursor.rest with
    | [] => (.error ⟨.unterminatedTag, opening⟩, { stream with cursor })
    | c :: cs => settle cursor (.tag opening atHead) (.insideTag atHead c cs)

/-! ## Every token but the last uses up a character -/

private theorem length_rest_skipBlanks_le (cursor : Cursor) :
    (skipBlanks cursor).rest.length ≤ cursor.rest.length := by
  simp [skipBlanks]

private theorem remaining_settle {cursor : Cursor} {context : Context} {lexeme : Lexeme}
    {token : Token} {after : TokenStream} (h : settle cursor context lexeme = (.ok token, after)) :
    ∃ width, lexeme = .found token.kind width ∧ after.remaining = cursor.rest.length - width := by
  cases lexeme with
  | found kind width =>
    simp only [settle, Prod.mk.injEq, Except.ok.injEq] at h
    obtain ⟨rfl, rfl⟩ := h
    exact ⟨width, rfl, by simp [remaining]⟩
  | faulty cause offset width => simp [settle] at h

/-- A token that is not the end of the input uses up at least one character. -/
theorem remaining_lt_of_next {stream after : TokenStream} {token : Token}
    (h : stream.next = (.ok token, after)) (hkind : token.kind ≠ .endOfInput) :
    after.remaining < stream.remaining := by
  unfold next at h
  split at h
  · simp at h
  · obtain ⟨width, hfound, hafter⟩ := remaining_settle h
    obtain ⟨hne, hpos⟩ := Lexeme.width_pos_of_betweenTags hfound hkind
    have := List.length_pos_iff.mpr hne
    rw [hafter, remaining]
    omega
  · rename_i opening atHead _
    have hle := length_rest_skipBlanks_le stream.cursor
    simp only at h
    split at h
    · simp at h
    · rename_i c cs hrest
      obtain ⟨width, hfound, hafter⟩ := remaining_settle h
      have hpos := Lexeme.width_pos_of_insideTag hfound
      rw [hafter, remaining]
      rw [hrest, List.length_cons] at hle ⊢
      omega

/-! ## Whole templates -/

/-- All tokens from here to the end of the input, behind those already read, latest first. -/
def collect (stream : TokenStream) (done : List Token) : Except ScanError (List Token) :=
  match _hnext : stream.next with
  | (.error e, _) => .error e
  | (.ok token, after) =>
    if _hkind : token.kind = .endOfInput then .ok (token :: done).reverse
    else collect after (token :: done)
termination_by stream.remaining
decreasing_by exact remaining_lt_of_next ‹_› ‹_›

end TokenStream

/-- The tokens of a template, up to and including the end of the input. -/
def tokenize (source : String) : Except ScanError (List Token) :=
  (TokenStream.ofSource source).collect []

/-! ## Messages -/

/-- What is wrong, in words. -/
def ScanFault.message : ScanFault → String
  | badEscape next => "invalid escape sequence '" ++ String.ofList ('\\' :: next.toList) ++ "'"
  | unterminatedString => "unterminated string"
  | unexpectedCharacter c => "unexpected character '" ++ String.singleton c ++ "'"
  | numberOutOfRange written => "invalid number '" ++ String.ofList written.text ++ "'"
  | unterminatedTag => "unterminated tag, expected '$\x7d'"
  | exhausted => "token requested after end of input"

/-- A place as it is named in messages. -/
def Position.message (p : Position) : String :=
  "line " ++ String.ofList (Nat.toDigits 10 p.line)
    ++ ", column " ++ String.ofList (Nat.toDigits 10 p.column)

/-- An error in words. -/
def ScanError.message (e : ScanError) : String :=
  "Lexer error at " ++ e.position.message ++ ": " ++ e.fault.message

end TagTemplate
