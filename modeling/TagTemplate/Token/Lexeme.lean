import TagTemplate.Token

/-!
# One piece at a time

Two functions say what comes next in a template, one for the text between tags and one for the
inside of a tag. Each looks at the characters that are left and answers either a piece with the
number of characters it takes, or a fault. A fault says two more things: how far from the start
the character lies that a reader should look at, and how many characters are used up all the same,
for reading can go on after a fault. A character that cannot begin anything is not used up; a bad
escape is left right behind its backslash; a number that does not fit is used up whole.

Every piece is as long as can be. Inside a tag a minus belongs to a number when a digit follows
immediately and is an operator otherwise, and the first word of a tag is its head, whereas the
same word later on is a variable.
-/

namespace TagTemplate

/-- Why no piece could be read. -/
inductive ScanFault where
  /-- A backslash before a character that it may not protect, or before the end of the input. -/
  | badEscape (next : Option Char)
  /-- A quote that is never closed. -/
  | unterminatedString
  /-- A character that cannot begin anything inside a tag. -/
  | unexpectedCharacter (c : Char)
  /-- A number that does not fit its format. -/
  | numberOutOfRange (written : Numeral)
  /-- A tag that is never closed. -/
  | unterminatedTag
  /-- Another piece was asked for after the end of the input. -/
  | exhausted
deriving DecidableEq, Repr

/-- What comes next in a template. -/
inductive Lexeme where
  /-- A piece that takes `width` characters. -/
  | found (kind : TokenKind) (width : Nat)
  /-- A fault at the character `offset` places on, after which `width` characters are used up. -/
  | faulty (cause : ScanFault) (offset width : Nat)
deriving DecidableEq, Repr

/-! ## Character classes -/

/-- Whether a character can begin a name. -/
def isNameStart (c : Char) : Bool := c.isAlpha

/-- Whether a character can stand inside a name. -/
def isNameChar (c : Char) : Bool := c.isAlphanum || c == '_'

/-- Whether a character may stand between the elements of a tag. -/
def isBlank (c : Char) : Bool := c == ' ' || c == '\t' || c == '\r' || c == '\n'

namespace Lexeme

/-! ## Text between tags -/

/-- A run of text as a piece; it ends where a tag opens or with the input. -/
def ofTextRun (run : Escaping.Run) : Lexeme :=
  match run.ending with
  | .badEscape next => faulty (.badEscape next) run.width (run.width + 1)
  | .closed | .endOfInput => found (.text (String.ofList run.content)) run.width

/-- What comes next between tags: the end, a tag, or text. -/
def betweenTags (cs : List Char) : Lexeme :=
  if cs.isEmpty then found .endOfInput 0
  else if Escaping.opensTag cs then found .tagStart 2
  else ofTextRun (Escaping.documentText.read cs)

/-! ## The inside of a tag -/

/-- A run of text behind an opening quote as a piece; it needs a closing quote. -/
def ofQuotedRun (run : Escaping.Run) : Lexeme :=
  match run.ending with
  | .closed => found (.element (.string (String.ofList run.content))) (run.width + 2)
  | .endOfInput => faulty .unterminatedString 0 (run.width + 1)
  | .badEscape none => faulty .unterminatedString 0 (run.width + 2)
  | .badEscape (some c) => faulty (.badEscape (some c)) (run.width + 1) (run.width + 2)

/-- The element that a numeral stands for: an integer without a point or exponent, a number of the
binary format with one. -/
def numeralElement? (n : Numeral) : Option Element :=
  if n.isWhole then n.int64?.map .integer else n.binary64?.map .double

/-- A numeral as a piece. -/
def ofNumeral (n : Numeral) : Lexeme :=
  match numeralElement? n with
  | some e => found (.element e) n.text.length
  | none => faulty (.numberOutOfRange n) 0 n.text.length

/-- The name at the start of the given characters, as a piece of the given kind that takes `extra`
more characters. -/
def ofName (kind : String → TokenKind) (extra : Nat) (cs : List Char) : Lexeme :=
  let name := cs.takeWhile isNameChar
  found (kind (String.ofList name)) (name.length + extra)

/-- What an unquoted name stands for: the head of a tag, or a variable. -/
def nameKind (atHead : Bool) (name : String) : TokenKind :=
  if atHead then .tagHead name else .element (.variableName name)

/-- The function that starts behind an `@`. -/
def ofFunction (cs : List Char) : Lexeme :=
  if cs.head?.any isNameStart then ofName (fun name ↦ .element (.functionName name)) 1 cs
  else faulty (.unexpectedCharacter '@') 0 0

/-- The operator that a character is the symbol of. -/
def ofOperator (c : Char) : Lexeme :=
  match Operator.ofSymbol? c with
  | some op => found (.element (.operator op)) 1
  | none => faulty (.unexpectedCharacter c) 0 0

/-- What comes next inside a tag, where the characters left are `c` and then `cs`, and `c` is no
blank; `atHead` says that the tag has only just been opened. -/
def insideTag (atHead : Bool) (c : Char) (cs : List Char) : Lexeme :=
  if c = '$' ∧ cs.head? = some '}' then found .tagEnd 2
  else if c = '=' ∧ atHead = true then found (.tagHead "=") 1
  else if isNameStart c then ofName (nameKind atHead) 0 (c :: cs)
  else if c = '@' then ofFunction cs
  else if c = '"' then ofQuotedRun (Escaping.quotedText.read cs)
  else if Numeral.startsAt (c :: cs) then ofNumeral (Numeral.read (c :: cs))
  else ofOperator c

/-! ## Every piece but the end takes a character -/

private theorem isNameChar_of_isNameStart {c : Char} (h : isNameStart c = true) :
    isNameChar c = true := by
  simp_all [isNameStart, isNameChar, Char.isAlphanum]

private theorem ofName_width_pos {kind : String → TokenKind} {extra : Nat} {c : Char}
    {cs : List Char} (h : isNameStart c = true) {k : TokenKind} {width : Nat}
    (hf : ofName kind extra (c :: cs) = found k width) : 0 < width := by
  simp only [ofName, List.takeWhile_cons, isNameChar_of_isNameStart h, if_true, found.injEq,
    List.length_cons] at hf
  omega

theorem width_pos_of_betweenTags {cs : List Char} {kind : TokenKind} {width : Nat}
    (h : betweenTags cs = found kind width) (hkind : kind ≠ .endOfInput) :
    cs ≠ [] ∧ 0 < width := by
  unfold betweenTags at h
  cases cs with
  | nil => simp_all
  | cons c cs =>
    refine ⟨List.cons_ne_nil c cs, ?_⟩
    simp only [List.isEmpty_cons, Bool.false_eq_true, if_false] at h
    split at h
    · grind
    · rename_i hopen
      have hclose : Escaping.documentText.closes (c :: cs) = false := by
        simpa [Escaping.documentText] using hopen
      have hpos := Escaping.documentText.width_read_pos hclose
      unfold ofTextRun at h
      split at h <;> grind

private theorem text_length_pos_of_startsAt {cs : List Char} (h : Numeral.startsAt cs = true) :
    0 < (Numeral.read cs).text.length := by
  unfold Numeral.startsAt at h
  split at h
  · simp [Numeral.read, Numeral.readUnsigned, Numeral.text]
  · rename_i c ds hne
    have hc : c ≠ '-' := by
      rintro rfl
      exact absurd h (by decide)
    unfold Numeral.read
    split
    · simp_all
    · simp [Numeral.readUnsigned, Numeral.text, h]
  · simp at h

theorem width_pos_of_insideTag {atHead : Bool} {c : Char} {cs : List Char} {kind : TokenKind}
    {width : Nat} (h : insideTag atHead c cs = found kind width) : 0 < width := by
  unfold insideTag at h
  split at h
  · grind
  split at h
  · grind
  split at h
  · rename_i hc
    exact ofName_width_pos hc h
  split at h
  · unfold ofFunction ofName at h
    grind
  split at h
  · unfold ofQuotedRun at h
    split at h <;> grind
  split at h
  · rename_i hn
    have := text_length_pos_of_startsAt hn
    unfold ofNumeral at h
    split at h <;> grind
  · unfold ofOperator at h
    split at h <;> grind

end Lexeme

end TagTemplate
