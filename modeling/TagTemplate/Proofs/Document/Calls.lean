import TagTemplate.Proofs.Document.Reading
import TagTemplate.Proofs.Token.Calls

/-!
# How many calls reading takes

The functions that read tokens and documents are given a second time here, each with a count of the
calls of the stream that it has made so far (`TokenStream.collectCounted`,
`Builder.readFromCounted`). They come to the same results.

A count would say nothing of the stream if it were not the number of answers that the result comes
from. For tokens it is: the answers to so many calls are the tokens, or the tokens before an error
and the error (`TokenStream.exists_answers_collect`). What becomes of a document is decided by the
answers: from another stream that answers as many calls in the same way the same is read
(`exists_decidedBy_readFrom`). And all calls but the last use up a character, so there are no more
calls than characters and one.

Calls that go on after errors use up characters as well, up to the first fault that is final.
Together this is what can be said of the progress of a stream.
-/

namespace TagTemplate

open TokenStream

/-! ## Reading with a count -/

/-- `TokenStream.collect`, and the number of calls when it is done. -/
def TokenStream.collectCounted (stream : TokenStream) (done : List Token) (calls : ℕ) :
    Except ScanError (List Token) × ℕ :=
  match _hnext : stream.next with
  | (.error e, _) => (.error e, calls + 1)
  | (.ok token, after) =>
    if _hkind : token.kind = .endOfInput then (.ok (token :: done).reverse, calls + 1)
    else collectCounted after (token :: done) (calls + 1)
termination_by stream.remaining
decreasing_by exact remaining_lt_of_next ‹_› ‹_›

/-- `readElements`, and the number of calls when it is done. -/
def readElementsCounted (stream : TokenStream) (done : List Element) (calls : ℕ) :
    Except ParseError (List Element × TokenStream) × ℕ :=
  match _hnext : stream.next with
  | (.error e, _) => (.error e.toParseError, calls + 1)
  | (.ok token, after) =>
    match _hkind : token.kind with
    | .tagEnd => (.ok (done.reverse, after), calls + 1)
    | .element e => readElementsCounted after (e :: done) (calls + 1)
    | kind => (.error ⟨.misplacedToken kind, token.start⟩, calls + 1)
termination_by stream.remaining
decreasing_by exact TokenStream.remaining_lt_of_next ‹_› (by simp [*])

/-- `readTag`, and the number of calls when it is done. -/
def readTagCounted (opening : Position) (stream : TokenStream) (builder : Builder) (calls : ℕ) :
    Except ParseError (Builder × TokenStream) × ℕ :=
  match stream.next with
  | (.error e, _) => (.error e.toParseError, calls + 1)
  | (.ok token, after) =>
    match TagHead.ofToken? token.kind with
    | none => (.error ⟨.unknownTag token.kind, token.start⟩, calls + 1)
    | some head =>
      match readElementsCounted after [] (calls + 1) with
      | (.error e, calls) => (.error e, calls)
      | (.ok (elements, rest), calls) =>
        match head.apply opening elements builder with
        | .error fault => (.error ⟨fault, opening⟩, calls)
        | .ok builder => (.ok (builder, rest), calls)

theorem fst_readElementsCounted (stream : TokenStream) (done : List Element) (calls : ℕ) :
    (readElementsCounted stream done calls).1 = readElements stream done := by
  fun_induction readElementsCounted stream done calls <;> grind [readElements]

theorem fst_readTagCounted (opening : Position) (stream : TokenStream) (builder : Builder)
    (calls : ℕ) :
    (readTagCounted opening stream builder calls).1 = readTag opening stream builder := by
  fun_cases readTagCounted opening stream builder calls <;>
    grind [readTag, fst_readElementsCounted]

/-- `Builder.readFrom`, and the number of calls when it is done. -/
def Builder.readFromCounted (stream : TokenStream) (builder : Builder) (calls : ℕ) :
    Except ParseError Document × ℕ :=
  match _hnext : stream.next with
  | (.error e, _) => (.error e.toParseError, calls + 1)
  | (.ok token, after) =>
    match _hkind : token.kind with
    | .text content => readFromCounted after (builder.append (.text content)) (calls + 1)
    | .tagStart =>
      match _htag : readTagCounted token.start after builder (calls + 1) with
      | (.error e, calls) => (.error e, calls)
      | (.ok (builder, rest), calls) => readFromCounted rest builder calls
    | .endOfInput => (builder.toDocument, calls + 1)
    | kind => (.error ⟨.misplacedToken kind, token.start⟩, calls + 1)
termination_by stream.remaining
decreasing_by
  · exact TokenStream.remaining_lt_of_next ‹_› (by simp [*])
  · exact Nat.lt_trans
      (remaining_lt_of_readTag (by rw [← fst_readTagCounted, _htag]))
      (TokenStream.remaining_lt_of_next ‹_› (by simp [*]))

theorem fst_collectCounted (stream : TokenStream) (done : List Token) (calls : ℕ) :
    (stream.collectCounted done calls).1 = stream.collect done := by
  fun_induction TokenStream.collectCounted stream done calls <;> grind [TokenStream.collect]

theorem fst_readFromCounted (stream : TokenStream) (builder : Builder) (calls : ℕ) :
    (Builder.readFromCounted stream builder calls).1 = Builder.readFrom stream builder := by
  fun_induction Builder.readFromCounted stream builder calls <;>
    grind [Builder.readFrom, fst_readTagCounted]

/-! ## The count -/

theorem snd_collectCounted_le (stream : TokenStream) (done : List Token) (calls : ℕ) :
    (stream.collectCounted done calls).2 ≤ calls + stream.remaining + 1 := by
  fun_induction TokenStream.collectCounted stream done calls with
  | case1 stream done calls e after hnext => omega
  | case2 stream done calls token after hnext hkind => omega
  | case3 stream done calls token after hnext hkind ih =>
    have hlt := TokenStream.remaining_lt_of_next hnext hkind
    omega

/-! ## The answers that are counted -/

/-- The calls that reading all tokens makes answer these tokens, or those before an error and then
the error. -/
theorem TokenStream.exists_answers_collect (stream : TokenStream) (done : List Token)
    (calls : ℕ) :
    ∃ k, (stream.collectCounted done calls).2 = calls + k ∧
      ∃ tokens last, (List.range k).map stream.answer = tokens.map .ok ++ [last] ∧
        (∀ token ∈ tokens, token.kind ≠ .endOfInput) ∧
        (∀ token, last = .ok token → token.kind = .endOfInput) ∧
        stream.collect done = last.map fun token ↦ done.reverse ++ tokens ++ [token] := by
  fun_induction TokenStream.collectCounted stream done calls with
  | case1 stream done calls e after hnext =>
    refine ⟨1, rfl, [], .error e, ?_, List.forall_mem_nil _, nofun,
      collect_of_next_eq_error hnext⟩
    rw [map_answer_range_succ, hnext]
    rfl
  | case2 stream done calls token after hnext hkind =>
    refine ⟨1, rfl, [], .ok token, ?_, List.forall_mem_nil _, ?_, ?_⟩
    · rw [map_answer_range_succ, hnext]
      rfl
    · rintro _ ⟨⟩
      exact hkind
    · rw [collect_of_next_eq_end hnext hkind, List.reverse_cons, Except.map, List.append_nil]
  | case3 stream done calls token after hnext hkind ih =>
    obtain ⟨k, hcount, tokens, last, hanswers, htokens, hlast, hcollect⟩ := ih
    refine ⟨k + 1, by omega, token :: tokens, last, ?_,
      List.forall_mem_cons.mpr ⟨hkind, htokens⟩, hlast, ?_⟩
    · rw [map_answer_range_succ, hnext, hanswers]
      rfl
    · rw [collect_of_next_eq_ok hnext hkind, hcollect, List.reverse_cons, List.append_assoc,
        List.singleton_append]

section Deciding

variable {ε α β γ : Type} {stream after : TokenStream} {answer : Except ScanError Token} {j k : ℕ}

/-- Whether the answers to the first calls decide what is read from a stream, and those before the
last are tokens that use up characters. -/
structure DecidedBy (read : TokenStream → β) (stream : TokenStream) (k : ℕ) : Prop where
  /-- The same is read from a stream with the same answers. -/
  eq : ∀ other, AgreesFor k stream other → read other = read stream
  /-- Calls before the last. -/
  uses : ∀ i, i + 1 < k → usesCharacters (stream.answer i) = true

/-- Whether the answers to the first calls decide what is read from a stream, and the stream that
is handed on is the one after these calls. -/
structure ReadBy (read : TokenStream → Except ε (α × TokenStream)) (stream : TokenStream) (k : ℕ) :
    Prop where
  /-- The same is read from a stream with the same answers. -/
  eq : ∀ other, AgreesFor k stream other →
    read other = (read stream).map fun r ↦ (r.1, other.afterCalls k)
  /-- Calls before the last. -/
  uses : ∀ i, i + 1 < k → usesCharacters (stream.answer i) = true
  /-- All calls, if a stream is handed on. -/
  usesAll : ∀ r, read stream = .ok r → ∀ i < k, usesCharacters (stream.answer i) = true

private theorem usesCharacters_of_next (hnext : stream.next = (answer, after))
    (huses : usesCharacters answer = true) {i : ℕ}
    (h : ∀ j, i = j + 1 → usesCharacters (after.answer j) = true) :
    usesCharacters (stream.answer i) = true := by
  cases i with
  | zero => rwa [TokenStream.answer, afterCalls, Function.iterate_zero, id_eq, hnext]
  | succ i =>
    rw [answer_succ, hnext]
    exact h i rfl

namespace DecidedBy

theorem call {read read' : TokenStream → β} (h : DecidedBy read' after k)
    (hnext : stream.next = (answer, after)) (huses : usesCharacters answer = true)
    (hread : ∀ other rest, other.next = (answer, rest) → read other = read' rest) :
    DecidedBy read stream (k + 1) where
  eq other hagrees := by
    obtain ⟨rest, hother, hrest⟩ := hagrees.next hnext
    rw [hread other rest hother, hread stream after hnext, h.eq rest hrest]
  uses i hi := usesCharacters_of_next hnext huses fun j hj ↦ h.uses j (by omega)

theorem of_next {read : TokenStream → β} (result : β) (hnext : stream.next = (answer, after))
    (hread : ∀ other rest, other.next = (answer, rest) → read other = result) :
    DecidedBy read stream 1 where
  eq other hagrees := by
    obtain ⟨rest, hother, -⟩ := hagrees.next hnext
    rw [hread other rest hother, hread stream after hnext]
  uses i hi := by omega

end DecidedBy

namespace ReadBy

variable {read read' : TokenStream → Except ε (α × TokenStream)}

theorem call (h : ReadBy read' after k) (hnext : stream.next = (answer, after))
    (huses : usesCharacters answer = true)
    (hread : ∀ other rest, other.next = (answer, rest) → read other = read' rest) :
    ReadBy read stream (k + 1) where
  eq other hagrees := by
    obtain ⟨rest, hother, hrest⟩ := hagrees.next hnext
    rw [hread other rest hother, hread stream after hnext, h.eq rest hrest,
      afterCalls_succ_eq_next, hother]
  uses i hi := usesCharacters_of_next hnext huses fun j hj ↦ h.uses j (by omega)
  usesAll r hr i hi := by
    rw [hread stream after hnext] at hr
    exact usesCharacters_of_next hnext huses fun j hj ↦ h.usesAll r hr j (by omega)

theorem error_of_next (e : ε) (hnext : stream.next = (answer, after))
    (hread : ∀ other rest, other.next = (answer, rest) → read other = .error e) :
    ReadBy read stream 1 where
  eq other hagrees := by
    obtain ⟨rest, hother, -⟩ := hagrees.next hnext
    rw [hread other rest hother, hread stream after hnext]
    rfl
  uses i hi := by omega
  usesAll r hr := by
    rw [hread stream after hnext] at hr
    contradiction

theorem ok_of_next (a : α) (hnext : stream.next = (answer, after))
    (huses : usesCharacters answer = true)
    (hread : ∀ other rest, other.next = (answer, rest) → read other = .ok (a, rest)) :
    ReadBy read stream 1 :=
  have h : ReadBy (fun rest ↦ .ok (a, rest)) after 0 :=
    ⟨fun _ _ ↦ rfl, by omega, by omega⟩
  h.call hnext huses hread

theorem rest_eq (h : ReadBy read stream k) {a : α} {rest : TokenStream}
    (hread : read stream = .ok (a, rest)) : rest = stream.afterCalls k := by
  have hself := h.eq stream fun _ _ ↦ rfl
  rw [hread] at hself
  exact (Prod.mk.inj (Except.ok.inj hself)).2

theorem map (h : ReadBy read stream k) (f : α → Except ε γ) :
    ReadBy (fun stream ↦ match read stream with
      | .error e => .error e
      | .ok (a, rest) => match f a with
        | .error e => .error e
        | .ok b => .ok (b, rest)) stream k where
  eq other hagrees := by
    rw [h.eq other hagrees]
    cases read stream with
    | error e => rfl
    | ok r =>
      dsimp only [Except.map]
      cases f r.1 <;> rfl
  uses := h.uses
  usesAll r hr := by
    cases hread : read stream with
    | error e =>
      rw [hread] at hr
      contradiction
    | ok r => exact h.usesAll r hread

theorem bind_of_error (h : ReadBy read stream k) (next : TokenStream → α → Except ε β) {e : ε}
    (hread : read stream = .error e) :
    DecidedBy (fun stream ↦ match read stream with
      | .error e => Except.error e
      | .ok (a, rest) => next rest a) stream k where
  eq other hagrees := by
    rw [h.eq other hagrees, hread]
    rfl
  uses := h.uses

/-- Reading goes on with the stream that is handed on. -/
theorem bind_of_ok (h : ReadBy read stream j) {next : TokenStream → α → Except ε β} {a : α}
    {rest : TokenStream} (hread : read stream = .ok (a, rest))
    (hnext : DecidedBy (next · a) rest k) :
    DecidedBy (fun stream ↦ match read stream with
      | .error e => Except.error e
      | .ok (a, rest) => next rest a) stream (j + k) where
  eq other hagrees := by
    obtain ⟨hfirst, hrest⟩ := hagrees.split
    obtain rfl := h.rest_eq hread
    rw [h.eq other hfirst, hread]
    exact hnext.eq _ hrest
  uses i hi := by
    obtain hlt | hle := Nat.lt_or_ge i j
    · exact h.usesAll _ hread i hlt
    · obtain ⟨i, rfl⟩ := Nat.exists_eq_add_of_le hle
      rw [← answer_afterCalls, ← h.rest_eq hread]
      exact hnext.uses i (by omega)

end ReadBy

end Deciding

theorem exists_readBy_readElements (stream : TokenStream) (done : List Element) (calls : ℕ) :
    ∃ k, (readElementsCounted stream done calls).2 = calls + k ∧
      ReadBy (readElements · done) stream k := by
  fun_induction readElementsCounted stream done calls with
  | case1 stream done calls e after hnext =>
    exact ⟨1, rfl, .error_of_next e.toParseError hnext fun other rest h ↦ by
      grind [readElements]⟩
  | case2 stream done calls token after hnext hkind =>
    exact ⟨1, rfl, .ok_of_next done.reverse hnext (by simp [usesCharacters, hkind])
      fun other rest h ↦ by grind [readElements]⟩
  | case3 stream done calls token after hnext e hkind ih =>
    obtain ⟨k, hcount, hk⟩ := ih
    exact ⟨k + 1, by omega, hk.call hnext (by simp [usesCharacters, hkind])
      fun other rest h ↦ by grind [readElements]⟩
  | case4 stream done calls token after hnext hend helement =>
    exact ⟨1, rfl, .error_of_next ⟨.misplacedToken token.kind, token.start⟩ hnext
      fun other rest h ↦ by grind [readElements]⟩

private theorem usesCharacters_of_ofToken? {token : Token} {head : TagHead}
    (h : TagHead.ofToken? token.kind = some head) : usesCharacters (.ok token) = true := by
  refine bne_iff_ne.mpr fun hkind ↦ ?_
  rw [hkind] at h
  contradiction

private theorem readBy_readTag {opening : Position} {stream after : TokenStream}
    {builder : Builder} {token : Token} {head : TagHead} {k : ℕ}
    (hnext : stream.next = (.ok token, after))
    (hhead : TagHead.ofToken? token.kind = some head) (h : ReadBy (readElements · []) after k) :
    ReadBy (readTag opening · builder) stream (k + 1) := by
  have hbehind := h.map fun elements ↦
    (head.apply opening elements builder).mapError fun fault ↦ ParseError.mk fault opening
  exact hbehind.call hnext (usesCharacters_of_ofToken? hhead) fun other rest hother ↦ by
    grind [readTag, Except.mapError]

theorem exists_readBy_readTag (opening : Position) (stream : TokenStream) (builder : Builder)
    (calls : ℕ) :
    ∃ k, (readTagCounted opening stream builder calls).2 = calls + k ∧
      ReadBy (readTag opening · builder) stream k := by
  fun_cases readTagCounted opening stream builder calls with
  | case1 e after hnext =>
    exact ⟨1, rfl, .error_of_next e.toParseError hnext fun other rest h ↦ by grind [readTag]⟩
  | case2 token after hnext hhead =>
    exact ⟨1, rfl, .error_of_next ⟨.unknownTag token.kind, token.start⟩ hnext
      fun other rest h ↦ by grind [readTag]⟩
  | case3 token after hnext head hhead e calls' helements
  | case4 token after hnext head hhead elements rest calls' helements fault happly
  | case5 token after hnext head hhead elements rest calls' helements changed happly =>
    obtain ⟨k, hcount, hk⟩ := exists_readBy_readElements after [] (calls + 1)
    rw [helements] at hcount
    exact ⟨k + 1, by omega, readBy_readTag hnext hhead hk⟩

/-- The calls that reading a document makes decide what comes of it. -/
theorem exists_decidedBy_readFrom (stream : TokenStream) (builder : Builder) (calls : ℕ) :
    ∃ k, (Builder.readFromCounted stream builder calls).2 = calls + k ∧
      DecidedBy (Builder.readFrom · builder) stream k := by
  fun_induction Builder.readFromCounted stream builder calls with
  | case1 stream builder calls e after hnext =>
    exact ⟨1, rfl, .of_next (.error e.toParseError) hnext fun other rest h ↦ by
      grind [Builder.readFrom]⟩
  | case2 stream builder calls token after hnext content hkind ih =>
    obtain ⟨k, hcount, hk⟩ := ih
    exact ⟨k + 1, by omega, hk.call hnext (by simp [usesCharacters, hkind])
      fun other rest h ↦ by grind [Builder.readFrom]⟩
  | case3 stream builder calls token after hnext hkind e calls' htag =>
    obtain ⟨j, hcount, hj⟩ := exists_readBy_readTag token.start after builder (calls + 1)
    have hread := fst_readTagCounted token.start after builder (calls + 1)
    rw [htag] at hcount hread
    have hbehind := hj.bind_of_error Builder.readFrom hread.symm
    exact ⟨j + 1, by omega, hbehind.call hnext (by simp [usesCharacters, hkind])
      fun other rest h ↦ by grind [Builder.readFrom]⟩
  | case4 stream builder calls token after hnext hkind changed rest calls' htag ih =>
    obtain ⟨k, hcount, hk⟩ := ih
    obtain ⟨j, hcount', hj⟩ := exists_readBy_readTag token.start after builder (calls + 1)
    have hread := fst_readTagCounted token.start after builder (calls + 1)
    rw [htag] at hcount' hread
    have hbehind := hj.bind_of_ok hread.symm hk
    exact ⟨j + k + 1, by omega, hbehind.call hnext (by simp [usesCharacters, hkind])
      fun other rest h ↦ by grind [Builder.readFrom]⟩
  | case5 stream builder calls token after hnext hkind =>
    exact ⟨1, rfl, .of_next builder.toDocument hnext fun other rest h ↦ by
      grind [Builder.readFrom]⟩
  | case6 stream builder calls token after hnext htext hstart hend =>
    exact ⟨1, rfl, .of_next (.error ⟨.misplacedToken token.kind, token.start⟩) hnext
      fun other rest h ↦ by grind [Builder.readFrom]⟩

/-! ## Progress -/

/-- **Progress.** Calls never go back, nor beyond the last of the characters of a source. Each uses
up a character, unless it answers the end of the input or a fault that is final; after a final fault
nothing changes and every call answers that very fault. So there are at most as many other answers
as characters and one, and as many calls are enough for reading all tokens and for reading a
document: those that are made for all tokens answer the tokens, or those before the first error and
that error; those that are made for a document decide what comes of it, and all but the last of them
use up characters. -/
theorem calls_use_characters_or_repeat (source : String) :
    let stream := ofSource source
    (∀ k, (stream.afterCalls k).offset ≤ (stream.afterCalls (k + 1)).offset ∧
      (stream.afterCalls k).offset ≤ source.length) ∧
    (∀ k, usesCharacters (stream.answer k) = true →
      (stream.afterCalls k).offset < (stream.afterCalls (k + 1)).offset) ∧
    (∀ k e, stream.answer k = .error e → e.fault.isFinal = true → ∀ j, k < j →
      stream.afterCalls j = stream.afterCalls (k + 1) ∧ stream.answer j = .error e) ∧
    (∀ m, Nat.count (fun k ↦ isFinalFault (stream.answer k) = false) m ≤ source.length + 1) ∧
    ((stream.collectCounted [] 0).1 = tokenize source ∧
      (stream.collectCounted [] 0).2 ≤ source.length + 1 ∧
      ∃ tokens last,
        (List.range (stream.collectCounted [] 0).2).map stream.answer = tokens.map .ok ++ [last] ∧
        (∀ token ∈ tokens, token.kind ≠ .endOfInput) ∧
        (∀ token, last = .ok token → token.kind = .endOfInput) ∧
        tokenize source = last.map fun token ↦ tokens ++ [token]) ∧
    ((Builder.readFromCounted stream .empty 0).1 = Document.parse source ∧
      (Builder.readFromCounted stream .empty 0).2 ≤ source.length + 1 ∧
      (∀ i, i + 1 < (Builder.readFromCounted stream .empty 0).2 →
        usesCharacters (stream.answer i) = true) ∧
      ∀ other, (∀ i < (Builder.readFromCounted stream .empty 0).2,
          (ofSource other).answer i = stream.answer i) →
        Document.parse other = Document.parse source) := by
  intro stream
  have hremaining : stream.remaining = source.length := String.length_toList
  have hbudget : stream.budget = source.length + 1 := by
    rw [budget, hremaining]
    rfl
  have hoffset (k : ℕ) : (stream.afterCalls k).offset ≤ source.length := by
    have hall := stream.offset_add_remaining_afterCalls k
    have hzero : stream.offset = 0 := rfl
    omega
  obtain ⟨j, hj, hanswers⟩ := exists_answers_collect stream [] 0
  obtain ⟨k, hk, hdecided⟩ := exists_decidedBy_readFrom stream .empty 0
  rw [Nat.zero_add] at hj hk
  rw [hj, hk]
  refine ⟨fun m ↦ ⟨(stream.step_afterCalls m).offset_le, hoffset m⟩,
    fun m ↦ (stream.step_afterCalls m).offset_lt,
    fun m e h hfinal j ↦ answer_of_isFinal h hfinal, fun m ↦ ?_,
    ⟨fst_collectCounted _ _ _, ?_, hanswers⟩,
    ⟨fst_readFromCounted _ _ _, ?_, hdecided.uses, fun other ↦ hdecided.eq _⟩⟩
  · have hcount := stream.count_add_budget_le m
    omega
  · have hcalls := snd_collectCounted_le stream [] 0
    omega
  · -- All calls but the last use up a character.
    have hlt := offset_add_le_offset_afterCalls (m := k - 1) fun i hi ↦
      hdecided.uses i (Nat.add_lt_of_lt_sub hi)
    have hle := hoffset (k - 1)
    omega

/-- What stands behind a tag that is refused makes no difference, and that a tag is left open is
answered again and again. -/
theorem calls_end_at_refusedTag :
    Document.parse "\x7b$END$\x7d\x7b$=1" = Document.parse "\x7b$END$\x7da" ∧
      ∀ j, 3 < j → (ofSource "\x7b$=1").answer j = .error ⟨.unterminatedTag, .origin⟩ := by
  have hcount : (Builder.readFromCounted (ofSource "\x7b$END$\x7da") .empty 0).2 = 3 := by
    decide +kernel
  obtain ⟨-, -, -, -, -, -, -, -, hdecided⟩ := calls_use_characters_or_repeat "\x7b$END$\x7da"
  obtain ⟨-, -, hfinal, -⟩ := calls_use_characters_or_repeat "\x7b$=1"
  refine ⟨hdecided _ ?_, fun j hj ↦ (hfinal 3 _ (by decide) rfl j hj).2⟩
  rw [hcount]
  decide

end TagTemplate
