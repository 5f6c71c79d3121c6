import TagTemplate.Proofs.Token.Spelling
import TagTemplate.Token.Stream

/-!
# Scanning token by token

A template scans as a list of tokens (`Scans`) when the first of them stands at its beginning,
behind blanks if that is inside a tag, and what comes behind it scans as the others. The relation
follows the characters from one token to the next and counts the positions along the way; it knows
nothing of cursors and streams.

The stream takes the tokens of this relation and no others. One step of it takes the token that
stands next (`TokenStream.next_eq_ok_iff`), where the mode is the part of its context that matters
for what is found, and by induction over the steps all of them (`tokenize_eq_ok_iff_scans`).
-/

namespace TagTemplate

/-! ## The relation -/

/-- What may come before a token: nothing in text, and blanks inside a tag. -/
structure Mode.Gap (mode : Mode) (gap : List Char) : Prop where
  /-- There are only blanks in it. -/
  isBlank : ∀ c ∈ gap, isBlank c = true
  /-- There is nothing in it between tags. -/
  eq_nil : mode = .text → gap = []

/-- The tokens that the given characters consist of, at a position and in a mode. -/
inductive Scans (size : List Char → ℕ) : Position → Mode → List Char → List Token → Prop
  | endOfInput (p : Position) : Scans size p .text [] [⟨.endOfInput, p, p⟩]
  | token {p : Position} {mode : Mode} {gap written rest : List Char} {kind : TokenKind}
    {tokens : List Token} : mode.Gap gap → kind ≠ .endOfInput →
    IsPiece size mode kind written rest →
    Scans size ((p.after gap).after written) kind.mode rest tokens →
    Scans size p mode (gap ++ (written ++ rest))
      (⟨kind, p.after gap, (p.after gap).after written⟩ :: tokens)

theorem Scans.adjacent {size : List Char → ℕ} {p : Position} {mode : Mode}
    {written rest : List Char} {kind : TokenKind} {tokens : List Token}
    (hpiece : IsPiece size mode kind written rest) (hkind : kind ≠ .endOfInput)
    (h : Scans size (p.after written) kind.mode rest tokens) :
    Scans size p mode (written ++ rest) (⟨kind, p, p.after written⟩ :: tokens) :=
  .token (p := p) ⟨by simp, fun _ ↦ rfl⟩ hkind hpiece h

theorem Scans.exists_last {size : List Char → ℕ} {p : Position} {mode : Mode} {cs : List Char}
    {tokens : List Token} (h : Scans size p mode cs tokens) :
    ∃ others last, tokens = others ++ [last] ∧ last.kind = .endOfInput ∧
      ∀ token ∈ others, token.kind ≠ .endOfInput := by
  induction h with
  | endOfInput p => exact ⟨[], _, rfl, rfl, by simp⟩
  | token _ hkind _ _ ih =>
    obtain ⟨others, last, rfl, hlast, hothers⟩ := ih
    exact ⟨_ :: others, last, rfl, hlast, List.forall_mem_cons.mpr ⟨hkind, hothers⟩⟩

theorem Scans.spelled {size : List Char → ℕ} {p : Position} {mode : Mode} {cs : List Char}
    {tokens : List Token} (h : Scans size p mode cs tokens) :
    ∀ token ∈ tokens, ∃ written, Spelled size token.kind written := by
  induction h with
  | endOfInput p => exact List.forall_mem_singleton.mpr ⟨[], .endOfInput⟩
  | token _ _ hpiece _ ih => exact List.forall_mem_cons.mpr ⟨⟨_, hpiece.spelled⟩, ih⟩

/-! ## Cursors -/

namespace Cursor

theorem advance_append (written rest : List Char) (p : Position) :
    (⟨written ++ rest, p⟩ : Cursor).advance written.length = ⟨rest, p.after written⟩ := by
  induction written generalizing p with
  | nil => rfl
  | cons c written ih => exact ih (p.next c)

end Cursor

/-! ## The beginning of a piece -/

theorem Spelled.ne_nil {size : List Char → ℕ} {kind : TokenKind} {written : List Char}
    (h : Spelled size kind written) (hkind : kind ≠ .endOfInput) : written ≠ [] := by
  cases h with
  | endOfInput => exact absurd rfl hkind
  | text hne _ => exact hne
  | tagHead hname => obtain ⟨-, -⟩ := hname; exact List.cons_ne_nil _ _
  | variableName hname => obtain ⟨-, -⟩ := hname; exact List.cons_ne_nil _ _
  | number hwritten _ =>
    rintro rfl
    exact absurd (hwritten.length_le_read []).1 (by decide)
  | tagStart => exact List.cons_ne_nil _ _
  | tagEnd => exact List.cons_ne_nil _ _
  | equalsSign => exact List.cons_ne_nil _ _
  | functionName _ => exact List.cons_ne_nil _ _
  | operator _ => exact List.cons_ne_nil _ _
  | string _ _ => exact List.cons_ne_nil _ _

theorem ne_empty_of_spelled {size : List Char → ℕ} {content : String}
    {written : List Char} (h : Spelled size (.text content) written) : content ≠ "" := by
  cases h with
  | @text content _ hne hwritten =>
    intro hempty
    have hcontent := congrArg String.toList hempty
    rw [String.toList_ofList] at hcontent
    cases hwritten with
    | nil => exact hne rfl
    | plain _ _ => contradiction
    | escaped _ _ => contradiction

private theorem insideTag_blank (atHead : Bool) {c : Char} (h : isBlank c = true)
    (cs : List Char) : Lexeme.insideTag atHead c cs = .faulty (.unexpectedCharacter c) 0 0 := by
  simp only [isBlank, Bool.or_eq_true, beq_iff_eq] at h
  rcases h with ((rfl | rfl) | rfl) | rfl <;> cases atHead <;> rfl

theorem isBlank_head_of_isPiece {atHead : Bool} {kind : TokenKind} {written rest : List Char}
    (h : IsPiece Exponent.size (Lexeme.placeInTag atHead) kind written rest) :
    ∀ c ∈ (written ++ rest).head?, isBlank c = false := by
  intro c hc
  obtain ⟨cs, heq⟩ := List.head?_eq_some_iff.mp hc
  have hfound := Lexeme.insideTag_eq_found_iff.mpr ⟨written, rest, heq.symm, rfl, h⟩
  by_contra hblank
  rw [Bool.not_eq_false] at hblank
  rw [insideTag_blank atHead hblank] at hfound
  contradiction

/-! ## One step -/

/-- The context of a mode, with the place where the tag was opened, if it is a tag. -/
def Mode.context (opening : Position) : Mode → Context
  | .text => .text
  | .head => .tag opening true
  | .body => .tag opening false

theorem Mode.context_placeInTag (opening : Position) (atHead : Bool) :
    (Lexeme.placeInTag atHead).context opening = .tag opening atHead := by
  cases atHead <;> rfl

/-- The mode follows the tokens as the context does. -/
theorem Mode.exists_context_after {mode : Mode} (token : Token) (opening : Position)
    (h : mode.Admits token.kind) (hkind : token.kind ≠ .endOfInput) :
    ∃ opening', (mode.context opening).after token = token.kind.mode.context opening' := by
  obtain ⟨kind, start, stop⟩ := token
  cases h with
  | endOfInput => exact absurd rfl hkind
  | tagStart => exact ⟨start, rfl⟩
  | text _ => exact ⟨opening, rfl⟩
  | tagHead _ => exact ⟨opening, rfl⟩
  | headElement _ => exact ⟨opening, rfl⟩
  | bodyElement _ => exact ⟨opening, rfl⟩
  | tagEnd _ => exact ⟨opening, rfl⟩

namespace TokenStream

private theorem settle_eq_ok_iff {cs : List Char} {p : Position} {context : Context} {mode : Mode}
    {lexeme : Lexeme} {token : Token} {after : TokenStream}
    (hlexeme : ∀ kind width, lexeme = .found kind width ↔ ∃ written rest, cs = written ++ rest ∧
      width = written.length ∧ IsPiece Exponent.size mode kind written rest) :
    settle ⟨cs, p⟩ context lexeme = (.ok token, after) ↔
      ∃ written rest, cs = written ++ rest ∧ IsPiece Exponent.size mode token.kind written rest ∧
        token = ⟨token.kind, p, p.after written⟩ ∧
        after = ⟨⟨rest, p.after written⟩, context.after token⟩ := by
  have hsettle : ∀ (kind : TokenKind) (written rest : List Char), cs = written ++ rest →
      settle ⟨cs, p⟩ context (.found kind written.length) = (.ok ⟨kind, p, p.after written⟩,
        ⟨⟨rest, p.after written⟩, context.after ⟨kind, p, p.after written⟩⟩) := by
    rintro kind written rest rfl
    rw [settle, Cursor.advance_append]
  constructor
  · intro h
    cases lexeme with
    | faulty cause offset width => cases congrArg Prod.fst h
    | found kind width =>
      obtain ⟨written, rest, rfl, rfl, hpiece⟩ := (hlexeme kind width).mp rfl
      rw [hsettle _ _ _ rfl] at h
      obtain ⟨hok, rfl⟩ := Prod.mk.inj h
      obtain rfl := Except.ok.inj hok
      exact ⟨written, rest, rfl, hpiece, rfl, rfl⟩
  · rintro ⟨written, rest, heq, hpiece, htoken, hafter⟩
    rw [(hlexeme _ _).mpr ⟨written, rest, heq, rfl, hpiece⟩, hsettle _ _ _ heq, ← htoken, hafter]

theorem skipBlanks_append {gap cs : List Char} (hgap : ∀ c ∈ gap, isBlank c = true)
    (hcs : ∀ c ∈ cs.head?, isBlank c = false) (p : Position) :
    skipBlanks ⟨gap ++ cs, p⟩ = ⟨cs, p.after gap⟩ := by
  rw [skipBlanks, takeWhile_append_of_stops hgap hcs, Cursor.advance_append]

private theorem next_text {cs : List Char} {p : Position} {token : Token} {after : TokenStream} :
    (⟨⟨cs, p⟩, .text⟩ : TokenStream).next = (.ok token, after) ↔
      ∃ written rest, cs = written ++ rest ∧ IsPiece Exponent.size .text token.kind written rest ∧
        token = ⟨token.kind, p, p.after written⟩ ∧
        after = ⟨⟨rest, p.after written⟩, Context.text.after token⟩ :=
  settle_eq_ok_iff fun _ _ ↦ Lexeme.betweenTags_eq_found_iff

private theorem next_tag {gap cs : List Char} {p opening : Position} {atHead : Bool}
    {token : Token} {after : TokenStream} (hgap : ∀ c ∈ gap, isBlank c = true)
    (hcs : ∀ c ∈ cs.head?, isBlank c = false) :
    (⟨⟨gap ++ cs, p⟩, .tag opening atHead⟩ : TokenStream).next = (.ok token, after) ↔
      ∃ written rest, cs = written ++ rest ∧
        IsPiece Exponent.size (Lexeme.placeInTag atHead) token.kind written rest ∧
        token = ⟨token.kind, p.after gap, (p.after gap).after written⟩ ∧
        after = ⟨⟨rest, (p.after gap).after written⟩,
          (Context.tag opening atHead).after token⟩ := by
  rw [next]
  dsimp only
  rw [skipBlanks_append hgap hcs]
  cases cs with
  | nil =>
    constructor
    · intro h
      cases congrArg Prod.fst h
    · rintro ⟨written, rest, heq, hpiece, -⟩
      obtain ⟨rfl, rfl⟩ := List.append_eq_nil_iff.mp heq.symm
      have hend : token.kind = .endOfInput := by
        by_contra hne
        exact hpiece.spelled.ne_nil hne rfl
      have hadmits := hpiece.admits
      rw [hend] at hadmits
      cases atHead <;> cases hadmits
  | cons c cs => exact settle_eq_ok_iff fun _ _ ↦ Lexeme.insideTag_eq_found_iff

/-- **One step.** The stream takes the token that stands next, behind blanks inside a tag. -/
theorem next_eq_ok_iff (opening : Position) {mode : Mode} {p : Position} {cs : List Char}
    {token : Token} {after : TokenStream} :
    (⟨⟨cs, p⟩, mode.context opening⟩ : TokenStream).next = (.ok token, after) ↔
      ∃ gap written rest, cs = gap ++ (written ++ rest) ∧ mode.Gap gap ∧
        IsPiece Exponent.size mode token.kind written rest ∧
        token = ⟨token.kind, p.after gap, (p.after gap).after written⟩ ∧
        after = ⟨⟨rest, (p.after gap).after written⟩, (mode.context opening).after token⟩ := by
  rcases eq_or_ne mode .text with rfl | hmode
  · rw [Mode.context, next_text]
    constructor
    · rintro ⟨written, rest, heq, h⟩
      exact ⟨[], written, rest, heq, ⟨by simp, fun _ ↦ rfl⟩, h⟩
    · rintro ⟨gap, written, rest, rfl, hgap, h⟩
      rw [hgap.eq_nil rfl] at h ⊢
      exact ⟨written, rest, rfl, h⟩
  · obtain ⟨atHead, rfl⟩ : ∃ atHead, mode = Lexeme.placeInTag atHead := by
      cases mode with
      | text => exact absurd rfl hmode
      | head => exact ⟨true, rfl⟩
      | body => exact ⟨false, rfl⟩
    rw [Mode.context_placeInTag]
    constructor
    · intro h
      -- The gap is the longest run of blanks, since no piece begins with one.
      have hsplit := List.takeWhile_append_dropWhile (p := isBlank) (l := cs)
      have hblank : ∀ c ∈ cs.takeWhile isBlank, isBlank c = true :=
        fun _ hc ↦ List.mem_takeWhile_imp hc
      rw [← hsplit, next_tag hblank head?_dropWhile_eq_false] at h
      obtain ⟨written, rest, heq, h⟩ := h
      rw [heq] at hsplit
      exact ⟨_, written, rest, hsplit.symm, ⟨hblank, fun h ↦ absurd h hmode⟩, h⟩
    · rintro ⟨gap, written, rest, rfl, hgap, hpiece, h⟩
      rw [next_tag hgap.isBlank (isBlank_head_of_isPiece hpiece)]
      exact ⟨written, rest, rfl, hpiece, h⟩

/-! ## All steps -/

theorem collect_of_next_eq_error {stream after : TokenStream} {e : ScanError} {done : List Token}
    (h : stream.next = (.error e, after)) : stream.collect done = .error e := by
  rw [collect]
  split <;> simp_all

theorem collect_of_next_eq_end {stream after : TokenStream} {token : Token} {done : List Token}
    (h : stream.next = (.ok token, after)) (hkind : token.kind = .endOfInput) :
    stream.collect done = .ok (token :: done).reverse := by
  rw [collect]
  split <;> simp_all

theorem collect_of_next_eq_ok {stream after : TokenStream} {token : Token} {done : List Token}
    (h : stream.next = (.ok token, after)) (hkind : token.kind ≠ .endOfInput) :
    stream.collect done = after.collect (token :: done) := by
  rw [collect]
  split <;> simp_all

/-- The tokens already read only stand before the others. -/
theorem collect_eq_map (stream : TokenStream) (done : List Token) :
    stream.collect done = (stream.collect []).map (done.reverse ++ ·) := by
  induction hsize : stream.remaining using Nat.strong_induction_on generalizing stream done with
  | _ size ih =>
    subst hsize
    obtain ⟨result, after, hnext⟩ : ∃ result after, stream.next = (result, after) := ⟨_, _, rfl⟩
    cases result with
    | error e => rw [collect_of_next_eq_error hnext, collect_of_next_eq_error hnext]; rfl
    | ok token =>
      by_cases hkind : token.kind = .endOfInput
      · rw [collect_of_next_eq_end hnext hkind, collect_of_next_eq_end hnext hkind]
        simp [Except.map]
      · have hlt := remaining_lt_of_next hnext hkind
        rw [collect_of_next_eq_ok hnext hkind, collect_of_next_eq_ok hnext hkind,
          ih _ hlt after (token :: done) rfl, ih _ hlt after [token] rfl]
        cases after.collect [] <;> simp [Except.map]

theorem collect_eq_ok_iff {stream : TokenStream} {tokens : List Token} :
    stream.collect [] = .ok tokens ↔ ∃ token after, stream.next = (.ok token, after) ∧
      (token.kind = .endOfInput ∧ tokens = [token] ∨
        token.kind ≠ .endOfInput ∧
          ∃ more, after.collect [] = .ok more ∧ tokens = token :: more) := by
  obtain ⟨result, after, hnext⟩ : ∃ result after, stream.next = (result, after) := ⟨_, _, rfl⟩
  cases result with
  | error e =>
    rw [collect_of_next_eq_error hnext, hnext]
    simp
  | ok token =>
    rw [hnext]
    by_cases hkind : token.kind = .endOfInput
    · rw [collect_of_next_eq_end hnext hkind]
      simp [hkind, eq_comm]
    · rw [collect_of_next_eq_ok hnext hkind, collect_eq_map after [token]]
      cases hmore : after.collect [] with
      | error e => simp [Except.map, hkind, hmore]
      | ok more =>
        constructor
        · intro h
          exact ⟨token, after, rfl, Or.inr ⟨hkind, more, hmore, (Except.ok.inj h).symm⟩⟩
        · rintro ⟨_, _, heq, ⟨hend, -⟩ | ⟨-, _, hmore', rfl⟩⟩
          · cases heq
            exact absurd hend hkind
          · cases heq
            cases hmore.symm.trans hmore'
            rfl

private theorem scans_of_collect {stream : TokenStream} {done tokens : List Token}
    (h : stream.collect done = .ok tokens) {mode : Mode} {opening : Position}
    (hcontext : stream.context = mode.context opening) :
    ∃ more, tokens = done.reverse ++ more ∧
      Scans Exponent.size stream.cursor.position mode stream.cursor.rest more := by
  fun_induction collect stream done generalizing mode opening with
  | case1 stream done e after hnext => contradiction
  | case2 stream done token after hnext hkind =>
    obtain ⟨⟨cs, p⟩, context⟩ := stream
    obtain rfl : context = mode.context opening := hcontext
    obtain ⟨gap, written, rest, rfl, hgap, hpiece, htoken, -⟩ := (next_eq_ok_iff opening).mp hnext
    -- The end of the input comes only between tags, so there is no gap before it.
    obtain ⟨hadmits, hspelled, hends⟩ := hpiece
    rw [hkind] at hadmits hspelled hends htoken
    cases hadmits
    obtain rfl : rest = [] := hends
    obtain rfl : gap = [] := hgap.eq_nil rfl
    cases hspelled
    refine ⟨[token], ?_, ?_⟩
    · rw [← Except.ok.inj h, List.reverse_cons]
    · rw [htoken]
      exact .endOfInput p
  | case3 stream done token after hnext hkind ih =>
    obtain ⟨⟨cs, p⟩, context⟩ := stream
    obtain rfl : context = mode.context opening := hcontext
    obtain ⟨gap, written, rest, rfl, hgap, hpiece, htoken, rfl⟩ := (next_eq_ok_iff opening).mp hnext
    obtain ⟨opening', hafter⟩ := Mode.exists_context_after token opening hpiece.admits hkind
    obtain ⟨more, rfl, hmore⟩ := ih h hafter
    refine ⟨token :: more, by simp, ?_⟩
    rw [htoken]
    exact .token hgap hkind hpiece hmore

private theorem collect_of_scans {p : Position} {mode : Mode} {cs : List Char}
    {tokens : List Token} (h : Scans Exponent.size p mode cs tokens) (opening : Position)
    (done : List Token) :
    (⟨⟨cs, p⟩, mode.context opening⟩ : TokenStream).collect done
      = .ok (done.reverse ++ tokens) := by
  induction h generalizing opening done with
  | endOfInput p =>
    rw [collect_of_next_eq_end rfl rfl, List.reverse_cons]
    rfl
  | @token p mode gap written rest kind tokens hgap hkind hpiece _ ih =>
    obtain ⟨token, htoken⟩ : ∃ token : Token,
        token = ⟨kind, p.after gap, (p.after gap).after written⟩ := ⟨_, rfl⟩
    obtain rfl : token.kind = kind := congrArg Token.kind htoken
    obtain ⟨opening', hafter⟩ := mode.exists_context_after token opening hpiece.admits hkind
    have hnext := (next_eq_ok_iff opening (p := p)).mpr
      ⟨gap, written, rest, rfl, hgap, hpiece, htoken, rfl⟩
    rw [← htoken, collect_of_next_eq_ok hnext hkind, hafter, ih, List.reverse_cons,
      List.append_assoc, List.singleton_append]

end TokenStream

/-- **Scanning.** A source is read as the tokens that it scans as. -/
theorem tokenize_eq_ok_iff_scans {source : String} {tokens : List Token} :
    tokenize source = .ok tokens ↔
      Scans Exponent.size .origin .text source.toList tokens := by
  constructor
  · intro h
    obtain ⟨more, rfl, hmore⟩ := TokenStream.scans_of_collect h
      (show _ = Mode.text.context .origin from rfl)
    exact hmore
  · intro h
    exact TokenStream.collect_of_scans h .origin []

end TagTemplate
