import TagTemplate.Proofs.Token.Calls

/-!
# What the calls of a stream have to do with each other

The answers of a stream come in an order that errors do not disturb. The stream is inside a tag as
long as the last tag that was opened has not been closed, the head of a tag comes right behind what
opens it, texts do not come one after the other, and the end of the input comes once. This is
`TokenStream.Contract`, and the stream of every source keeps it.

Each part is a fact about one call: what the answer says about the stream before, and what it has
led to in the stream after. The parts that look back further go by induction on the number of calls.
-/

namespace TagTemplate

/-! ## Places and kinds -/

/-- Whether a piece comes between tags. -/
def TokenKind.isBetweenTags : TokenKind → Bool
  | text _ | tagStart | endOfInput => true
  | tagHead _ | tagEnd | element _ => false

theorem Mode.Admits.isBetweenTags_iff {mode : Mode} {kind : TokenKind} (h : mode.Admits kind) :
    kind.isBetweenTags = true ↔ mode = .text := by
  cases h with
  | tagEnd hmode => exact iff_of_false Bool.false_ne_true hmode
  | text _ | endOfInput | tagStart => exact iff_of_true rfl rfl
  | tagHead _ | headElement _ | bodyElement _ =>
    exact iff_of_false Bool.false_ne_true Mode.noConfusion

namespace Context

variable {context : Context}

/-- Whether it is the inside of a tag of which nothing has been read yet. -/
def atHead : Context → Bool
  | tag _ atHead => atHead
  | text | finished => false

theorem isTag_context_iff {mode : Mode} {opening : Position} :
    (mode.context opening).isTag = true ↔ mode ≠ .text := by
  cases mode <;> simp [Mode.context, isTag]

theorem atHead_context_iff {mode : Mode} {opening : Position} :
    (mode.context opening).atHead = true ↔ mode = .head := by
  cases mode <;> simp [Mode.context, atHead]

@[simp] theorem isTag_pastHead : context.pastHead.isTag = context.isTag := by
  cases context <;> rfl

@[simp] theorem atHead_pastHead : context.pastHead.atHead = false := by
  cases context <;> rfl

theorem atHead_after_iff {token : Token} :
    (context.after token).atHead = true ↔ token.kind = .tagStart := by
  rw [after]
  cases token.kind with
  | tagStart => exact iff_of_true rfl rfl
  | tagEnd | endOfInput => exact iff_of_false Bool.false_ne_true TokenKind.noConfusion
  | text _ | tagHead _ | element _ => simp

theorem isTag_after_iff {token : Token} (hend : token.kind = .endOfInput → context.isTag = false) :
    (context.after token).isTag = true ↔
      token.kind = .tagStart ∨ context.isTag = true ∧ token.kind ≠ .tagEnd := by
  rw [after]
  cases hkind : token.kind with
  | tagStart => exact iff_of_true rfl (Or.inl rfl)
  | tagEnd => exact iff_of_false Bool.false_ne_true (by simp)
  | endOfInput => exact iff_of_false Bool.false_ne_true (by simp [hend hkind])
  | text _ | tagHead _ | element _ => simp

end Context

/-! ## One call -/

namespace TokenStream.Step

variable {stream after : TokenStream} {answer : Except ScanError Token} {token : Token}

theorem isBetweenTags_iff (h : Step stream (.ok token) after) :
    token.kind.isBetweenTags = true ↔ stream.context.isTag = false := by
  cases h with
  | found _ hpiece =>
    rw [hpiece.admits.isBetweenTags_iff, ← Bool.not_eq_true, Context.isTag_context_iff, not_not]

/-- The stream gets inside a tag when one is opened, and stays there until it is closed. -/
theorem isTag_iff (h : Step stream answer after) :
    after.context.isTag = true ↔ kindOf? answer = some .tagStart ∨
      stream.context.isTag = true ∧ kindOf? answer ≠ some .tagEnd := by
  cases answer with
  | ok token =>
    have hbetween := h.isBetweenTags_iff
    cases h with
    | found _ _ =>
      rw [kindOf?, Option.some_inj, Ne, Option.some_inj]
      exact Context.isTag_after_iff fun hend ↦ hbetween.mp (hend ▸ rfl)
  | error e =>
    cases h with
    | faulty _ _ => simp [kindOf?]
    | unterminatedTag _ _ => simp [kindOf?]
    | exhausted _ => simp [kindOf?]

/-- The head of a tag is still to come where the tag has just been opened, and otherwise only where
nothing comes any more. -/
theorem eq_tagStart_of_atHead (h : Step stream answer after) (hhead : after.context.atHead = true)
    (hrest : after.cursor.rest ≠ []) : kindOf? answer = some .tagStart := by
  cases h with
  | found _ _ => exact congrArg some (Context.atHead_after_iff.mp hhead)
  | faulty _ _ => simp at hhead
  | unterminatedTag _ _ => exact absurd rfl hrest
  | exhausted _ => exact absurd hhead Bool.false_ne_true

theorem atHead_of_eq_tagStart (h : Step stream answer after)
    (hkind : kindOf? answer = some .tagStart) : after.context.atHead = true := by
  cases h with
  | found _ _ => exact Context.atHead_after_iff.mpr (Option.some_inj.mp hkind)
  | faulty _ _ => contradiction
  | unterminatedTag _ _ => contradiction
  | exhausted _ => contradiction

theorem exists_piece (h : Step stream answer after) {kind : TokenKind}
    (hkind : kindOf? answer = some kind) :
    ∃ mode opening gap written, stream.context = Mode.context opening mode ∧
      stream.cursor.rest = gap ++ (written ++ after.cursor.rest) ∧ mode.Gap gap ∧
      IsPiece Exponent.size mode kind written after.cursor.rest := by
  cases h with
  | found hgap hpiece =>
    obtain rfl := Option.some_inj.mp hkind
    exact ⟨_, _, _, _, rfl, rfl, hgap, hpiece⟩
  | faulty _ _ => contradiction
  | unterminatedTag _ _ => contradiction
  | exhausted _ => contradiction

theorem atHead_of_tagHead (h : Step stream answer after) {name : String}
    (hkind : kindOf? answer = some (.tagHead name)) :
    stream.context.atHead = true ∧ stream.cursor.rest ≠ [] := by
  obtain ⟨mode, opening, gap, written, hcontext, hrest, -, hpiece⟩ := h.exists_piece hkind
  have hne := hpiece.spelled.ne_nil (by simp)
  constructor
  · rw [hcontext, Context.atHead_context_iff]
    cases hpiece.admits
    rfl
  · rw [hrest]
    exact List.append_ne_nil_of_right_ne_nil _ (List.append_ne_nil_of_left_ne_nil hne _)

theorem not_atHead_of_variable (h : Step stream answer after) {name : String}
    (hkind : kindOf? answer = some (.element (.variableName name))) :
    stream.context.atHead ≠ true := by
  obtain ⟨mode, opening, gap, written, hcontext, -, -, hpiece⟩ := h.exists_piece hkind
  rw [hcontext, Ne, Context.atHead_context_iff]
  rintro rfl
  cases hpiece.admits with
  | headElement hne => exact hne name rfl

theorem of_text (h : Step stream answer after) {content : String}
    (hkind : kindOf? answer = some (.text content)) :
    content ≠ "" ∧ (stream.cursor.rest ≠ [] ∧ Escaping.opensTag stream.cursor.rest = false) ∧
      (after.cursor.rest = [] ∨ Escaping.opensTag after.cursor.rest = true) := by
  obtain ⟨mode, opening, gap, written, -, hrest, hgap, hpiece⟩ := h.exists_piece hkind
  have hne := hpiece.spelled.ne_nil (by simp)
  obtain rfl := hgap.eq_nil (hpiece.admits.isBetweenTags_iff.mp rfl)
  rw [hrest]
  exact ⟨ne_empty_of_spelled hpiece.spelled, ⟨List.append_ne_nil_of_left_ne_nil hne _,
    hpiece.ends.2 [] written rfl hne ⟨[], .nil⟩⟩, hpiece.ends.1⟩

theorem of_tagStart (h : Step stream (.ok token) after) (hkind : token.kind = .tagStart) :
    token.start = stream.cursor.position ∧
      ∃ rest, stream.cursor.rest = '{' :: '$' :: rest := by
  cases h with
  | @found p _ mode gap written rest kind hgap hpiece =>
    obtain rfl : kind = .tagStart := hkind
    obtain rfl := hgap.eq_nil (hpiece.admits.isBetweenTags_iff.mp rfl)
    cases hpiece.spelled
    exact ⟨rfl, rest, rfl⟩

theorem exhausted_iff (h : Step stream answer after) :
    (∃ p, answer = .error ⟨.exhausted, p⟩) ↔ stream.context = .finished := by
  refine ⟨?_, fun hfinished ↦ ⟨_, (h.of_finished hfinished).1⟩⟩
  rintro ⟨p, rfl⟩
  cases h with
  | faulty _ hfault => cases hfault
  | exhausted _ => rfl

end TokenStream.Step

/-! ## Many calls -/

namespace TokenStream

/-- What a user of the stream can rely on, however many calls there are and whatever errors. -/
structure Contract (stream : TokenStream) : Prop where
  /-- The end of the input is answered once at most. -/
  end_unique : ∀ i j, kindOf? (stream.answer i) = some .endOfInput →
    kindOf? (stream.answer j) = some .endOfInput → i = j
  /-- That more was asked for is answered if the end has been answered before, and only then. -/
  exhausted : ∀ k, (∃ p, stream.answer k = .error ⟨.exhausted, p⟩) ↔
    ∃ j < k, kindOf? (stream.answer j) = some .endOfInput
  /-- It is inside a tag as long as the last one that was opened has not been closed. -/
  isTag : ∀ k, (stream.afterCalls k).context.isTag = true ↔
    ∃ i < k, kindOf? (stream.answer i) = some .tagStart ∧ ∀ j, i < j → j < k →
      kindOf? (stream.answer j) ≠ some .tagStart ∧ kindOf? (stream.answer j) ≠ some .tagEnd
  /-- An error leads neither into a tag nor out of one. -/
  error : ∀ k e, stream.answer k = .error e →
    (stream.afterCalls (k + 1)).context.isTag = (stream.afterCalls k).context.isTag
  /-- Texts, what opens a tag and the end of the input are found between tags, and everything else
  inside one. -/
  isBetweenTags : ∀ k token, stream.answer k = .ok token →
    (token.kind.isBetweenTags = true ↔ (stream.afterCalls k).context.isTag = false)
  /-- The head of a tag is found right behind what opens it. -/
  tagHead : ∀ k name, kindOf? (stream.answer k) = some (.tagHead name) →
    ∃ j, k = j + 1 ∧ kindOf? (stream.answer j) = some .tagStart
  /-- A variable is never found there. -/
  no_variable : ∀ k name, kindOf? (stream.answer k) = some .tagStart →
    kindOf? (stream.answer (k + 1)) ≠ some (.element (.variableName name))
  /-- Text is never found right behind text. -/
  separate : ∀ k content content', kindOf? (stream.answer k) = some (.text content) →
    kindOf? (stream.answer (k + 1)) ≠ some (.text content')
  /-- No text is empty. -/
  text : ∀ k content, kindOf? (stream.answer k) = some (.text content) → content ≠ ""

variable {stream : TokenStream}

/-- What there was, and what has been so ever since, is there now or was before. -/
theorem exists_since_succ_iff {p q : ℕ → Prop} {k : ℕ} :
    (∃ i < k + 1, p i ∧ ∀ j, i < j → j < k + 1 → q j) ↔
      p k ∨ (∃ i < k, p i ∧ ∀ j, i < j → j < k → q j) ∧ q k := by
  rw [Nat.exists_lt_succ_right]
  constructor
  · rintro (⟨i, hi, hp, hq⟩ | ⟨hp, -⟩)
    · exact Or.inr ⟨⟨i, hi, hp, fun j hij hj ↦ hq j hij (Nat.lt_succ_of_lt hj)⟩,
        hq k hi (Nat.lt_succ_self k)⟩
    · exact Or.inl hp
  · rintro (hp | ⟨⟨i, hi, hp, hq⟩, hk⟩)
    · exact Or.inr ⟨hp, fun j hkj hj ↦ absurd hkj (by omega)⟩
    · refine Or.inl ⟨i, hi, hp, fun j hij hj ↦ ?_⟩
      rcases Nat.lt_succ_iff_lt_or_eq.mp hj with hj | rfl
      · exact hq j hij hj
      · exact hk

/-- The stream is inside a tag as long as the last one that was opened has not been closed. -/
theorem isTag_afterCalls_iff (hstart : stream.context.isTag = false) (k : ℕ) :
    (stream.afterCalls k).context.isTag = true ↔
      ∃ i < k, kindOf? (stream.answer i) = some .tagStart ∧ ∀ j, i < j → j < k →
        kindOf? (stream.answer j) ≠ some .tagStart ∧ kindOf? (stream.answer j) ≠ some .tagEnd := by
  induction k with
  | zero => exact iff_of_false (Bool.eq_false_iff.mp hstart) (by simp)
  | succ k ih =>
    rw [(stream.step_afterCalls k).isTag_iff, exists_since_succ_iff, ← ih]
    tauto

theorem exists_tagStart_of_tagHead (hstart : stream.context.atHead = false) {k : ℕ} {name : String}
    (h : kindOf? (stream.answer k) = some (.tagHead name)) :
    ∃ j, k = j + 1 ∧ kindOf? (stream.answer j) = some .tagStart := by
  obtain ⟨hhead, hrest⟩ := (stream.step_afterCalls k).atHead_of_tagHead h
  cases k with
  | zero => exact absurd (hstart.symm.trans hhead) Bool.false_ne_true
  | succ j => exact ⟨j, rfl, (stream.step_afterCalls j).eq_tagStart_of_atHead hhead hrest⟩

theorem kindOf?_ne_text_of_text {k : ℕ} {content : String}
    (h : kindOf? (stream.answer k) = some (.text content)) (content' : String) :
    kindOf? (stream.answer (k + 1)) ≠ some (.text content') := by
  intro hnext
  obtain ⟨-, -, hbehind⟩ := (stream.step_afterCalls k).of_text h
  obtain ⟨-, ⟨hne, hopens⟩, -⟩ := (stream.step_afterCalls (k + 1)).of_text hnext
  -- The first text ends where a tag opens, and there the second cannot begin.
  rcases hbehind with hnil | htag
  · exact hne hnil
  · exact absurd (htag.symm.trans hopens) (by decide)

/-- **The contract.** The stream of every source keeps it. -/
theorem contract_ofSource (source : String) : (ofSource source).Contract where
  end_unique i j hi hj := by
    have hstart := context_ofSource_ne_finished source
    rcases Nat.lt_trichotomy i j with hij | rfl | hji
    · exact nomatch hj.symm.trans (kindOf?_eq_none_of_lt hstart hi hij)
    · rfl
    · exact nomatch hi.symm.trans (kindOf?_eq_none_of_lt hstart hj hji)
  exhausted k := (step_afterCalls _ k).exhausted_iff.trans
    (context_afterCalls_eq_finished_iff (context_ofSource_ne_finished source) k)
  isTag := isTag_afterCalls_iff rfl
  error k e he := by
    have hiff := (step_afterCalls (ofSource source) k).isTag_iff
    rw [he] at hiff
    simpa [kindOf?, ← Bool.eq_iff_iff] using hiff
  isBetweenTags k token htoken := (htoken ▸ step_afterCalls (ofSource source) k).isBetweenTags_iff
  tagHead k name := exists_tagStart_of_tagHead rfl
  no_variable k name hkind hvariable := (step_afterCalls _ (k + 1)).not_atHead_of_variable hvariable
    ((step_afterCalls _ k).atHead_of_eq_tagStart hkind)
  separate k content content' h := kindOf?_ne_text_of_text h content'
  text k content h := ((step_afterCalls _ k).of_text h).1

end TokenStream

end TagTemplate
