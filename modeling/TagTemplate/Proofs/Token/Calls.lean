import Mathlib.Data.Nat.Count
import TagTemplate.Proofs.Token.Step

/-!
# Calls of the stream

Reading can go on after an error, so a stream may be called any number of times
(`TokenStream.afterCalls`, `TokenStream.answer`). Every call either uses up characters or comes to
an end of its own: the end of the input, or a fault that is final. A final fault leaves the stream
where the same call has the same answer (`TokenStream.Step.next_of_isFinal`), and so have all that
follow.

How many answers there can be before a final fault is a matter of a budget, one for each character
that is left and one for the end of the input (`TokenStream.budget`). A call whose answer is not a
final fault costs one at least (`TokenStream.Step.budget_le`).
-/

namespace TagTemplate

/-- Whether it is reported again whenever another piece is asked for. -/
def ScanFault.isFinal : ScanFault → Bool
  | unexpectedCharacter _ | unterminatedTag | exhausted => true
  | badEscape _ | unterminatedString | numberOutOfRange _ => false

theorem IsFault.used_ne_nil {mode : Mode} {cause : ScanFault} {before used rest : List Char}
    (h : IsFault mode cause before used rest) (hcause : cause.isFinal = false) : used ≠ [] := by
  cases h with
  | textEscape _ _ _ => exact List.append_ne_nil_of_right_ne_nil _ (List.cons_ne_nil _ _)
  | quotedEscape _ _ _ _ => exact List.cons_ne_nil _ _
  | unterminatedString _ _ _ _ => exact List.cons_ne_nil _ _
  | numberOutOfRange _ hwritten _ _ =>
    rintro rfl
    exact absurd (hwritten.length_le_read []).1 (by decide)
  | unexpectedCharacter _ _ _ => contradiction

/-! ## Contexts -/

theorem Mode.context_ne_finished (mode : Mode) (opening : Position) :
    mode.context opening ≠ .finished := by
  cases mode <;> exact Context.noConfusion

namespace Context

variable {context : Context}

theorem pastHead_eq_finished_iff : context.pastHead = .finished ↔ context = .finished := by
  cases context <;> simp [pastHead]

theorem after_eq_finished_iff (h : context ≠ .finished) {token : Token} :
    context.after token = .finished ↔ token.kind = .endOfInput := by
  rw [after]
  cases token.kind <;> simp [pastHead_eq_finished_iff, h]

end Context

namespace TokenStream

/-! ## Many calls -/

/-- The stream after some calls, whatever they answer. -/
def afterCalls (stream : TokenStream) (k : ℕ) : TokenStream := (fun s ↦ s.next.2)^[k] stream

/-- What is answered to the call that comes after some others. -/
def answer (stream : TokenStream) (k : ℕ) : Except ScanError Token := (stream.afterCalls k).next.1

/-- The kind of the token that an answer is, if it is one. -/
def kindOf? : Except ScanError Token → Option TokenKind
  | .ok token => some token.kind
  | .error _ => none

/-- The number of characters that have been used up. -/
def offset (stream : TokenStream) : ℕ := stream.cursor.position.offset

theorem afterCalls_succ (stream : TokenStream) (k : ℕ) :
    stream.afterCalls (k + 1) = (stream.afterCalls k).next.2 :=
  Function.iterate_succ_apply' _ _ _

theorem step_afterCalls (stream : TokenStream) (k : ℕ) :
    Step (stream.afterCalls k) (stream.answer k) (stream.afterCalls (k + 1)) := by
  rw [afterCalls_succ]
  exact step_next _

theorem afterCalls_succ_eq_next (stream : TokenStream) (k : ℕ) :
    stream.afterCalls (k + 1) = stream.next.2.afterCalls k :=
  Function.iterate_succ_apply _ _ _

theorem afterCalls_afterCalls (stream : TokenStream) (j k : ℕ) :
    (stream.afterCalls j).afterCalls k = stream.afterCalls (j + k) := by
  rw [afterCalls, afterCalls, ← Function.iterate_add_apply, Nat.add_comm, afterCalls]

theorem answer_succ (stream : TokenStream) (k : ℕ) :
    stream.answer (k + 1) = stream.next.2.answer k := by
  rw [answer, afterCalls_succ_eq_next, answer]

theorem answer_afterCalls (stream : TokenStream) (j k : ℕ) :
    (stream.afterCalls j).answer k = stream.answer (j + k) := by
  rw [answer, afterCalls_afterCalls, answer]

theorem map_answer_range_succ (stream : TokenStream) (k : ℕ) :
    (List.range (k + 1)).map stream.answer
      = stream.next.1 :: (List.range k).map stream.next.2.answer := by
  rw [List.range_succ_eq_map, List.map_cons, List.map_map]
  exact congrArg _ (List.map_congr_left fun i _ ↦ stream.answer_succ i)

/-! ## Streams that agree -/

/-- Whether another stream answers the first calls as a stream does. -/
def AgreesFor (k : ℕ) (stream other : TokenStream) : Prop :=
  ∀ i < k, other.answer i = stream.answer i

theorem AgreesFor.split {j k : ℕ} {stream other : TokenStream}
    (h : AgreesFor (j + k) stream other) :
    AgreesFor j stream other ∧ AgreesFor k (stream.afterCalls j) (other.afterCalls j) := by
  refine ⟨fun i hi ↦ h i (Nat.lt_add_right k hi), fun i hi ↦ ?_⟩
  rw [answer_afterCalls, answer_afterCalls]
  exact h _ (Nat.add_lt_add_left hi j)

theorem AgreesFor.next {k : ℕ} {stream other after : TokenStream}
    {answer : Except ScanError Token} (h : AgreesFor (k + 1) stream other)
    (hnext : stream.next = (answer, after)) :
    ∃ rest, other.next = (answer, rest) ∧ AgreesFor k after rest := by
  have hfirst : other.next.1 = answer :=
    (h 0 (Nat.succ_pos k)).trans (congrArg Prod.fst hnext)
  refine ⟨other.next.2, Prod.ext hfirst rfl, fun i hi ↦ ?_⟩
  have hi' := h (i + 1) (Nat.succ_lt_succ hi)
  rwa [answer_succ, answer_succ, congrArg Prod.snd hnext] at hi'

/-! ## What a call uses up -/

/-- Whether an answer is one that characters are used up for. -/
def usesCharacters : Except ScanError Token → Bool
  | .ok token => token.kind != .endOfInput
  | .error e => !e.fault.isFinal

namespace Step

variable {stream after : TokenStream} {answer : Except ScanError Token}

/-- A call passes over characters, and over at least one for an answer that is not an end. -/
theorem exists_passed (h : Step stream answer after) :
    ∃ passed, stream.cursor.rest = passed ++ after.cursor.rest ∧
      after.cursor.position = stream.cursor.position.after passed ∧
      (usesCharacters answer = true → passed ≠ []) := by
  cases h with
  | @found p _ _ gap written rest kind hgap hpiece =>
    refine ⟨gap ++ written, (List.append_assoc _ _ _).symm, (p.after_append _ _).symm, fun h ↦ ?_⟩
    have hkind : kind ≠ .endOfInput := by simpa [usesCharacters] using h
    exact List.append_ne_nil_of_right_ne_nil _ (hpiece.spelled.ne_nil hkind)
  | @faulty p _ _ gap _ used rest cause hgap hfault =>
    refine ⟨gap ++ used, (List.append_assoc _ _ _).symm, (p.after_append _ _).symm, fun h ↦ ?_⟩
    have hcause : cause.isFinal = false := by simpa [usesCharacters] using h
    exact List.append_ne_nil_of_right_ne_nil _ (hfault.used_ne_nil hcause)
  | @unterminatedTag p _ _ gap _ _ =>
    exact ⟨gap, (List.append_nil _).symm, rfl, fun h ↦ absurd h Bool.false_ne_true⟩
  | exhausted cursor => exact ⟨[], rfl, rfl, fun h ↦ absurd h Bool.false_ne_true⟩

theorem offset_add_remaining (h : Step stream answer after) :
    after.offset + after.remaining = stream.offset + stream.remaining := by
  obtain ⟨passed, hrest, hposition, -⟩ := h.exists_passed
  rw [offset, hposition, Position.offset_after, remaining, remaining, hrest, List.length_append,
    offset]
  omega

theorem offset_le (h : Step stream answer after) : stream.offset ≤ after.offset := by
  obtain ⟨passed, -, hposition, -⟩ := h.exists_passed
  rw [offset, offset, hposition, Position.offset_after]
  exact Nat.le_add_right _ _

theorem offset_lt (h : Step stream answer after) (huses : usesCharacters answer = true) :
    stream.offset < after.offset := by
  obtain ⟨passed, -, hposition, hpassed⟩ := h.exists_passed
  have hpos := List.length_pos_iff.mpr (hpassed huses)
  rw [offset, offset, hposition, Position.offset_after]
  omega

/-! ## Final faults -/

/-- After a final fault the same call has the same answer. -/
theorem next_of_isFinal {e : ScanError} (h : Step stream (.error e) after)
    (hfinal : e.fault.isFinal = true) : after.next = (.error e, after) := by
  cases h with
  | @faulty p opening mode gap _ _ _ _ hgap hfault =>
    cases hfault with
    | @unexpectedCharacter _ c cs hmode hc hbody =>
      have hcontext : (mode.context opening).pastHead = .tag opening false := by
        cases mode with
        | text => exact absurd rfl hmode
        | head => rfl
        | body => rfl
      have hskip : skipBlanks ⟨c :: cs, p.after gap⟩ = ⟨c :: cs, p.after gap⟩ :=
        @skipBlanks_append [] _ (by simp) (forall_mem_head?_cons.mpr hc) _
      rw [hcontext, Position.after_nil, next]
      dsimp only
      rw [hskip]
      dsimp only
      rw [hbody]
      rfl
    | textEscape _ _ _ => contradiction
    | quotedEscape _ _ _ _ => contradiction
    | unterminatedString _ _ _ _ => contradiction
    | numberOutOfRange _ _ _ _ => contradiction
  | @unterminatedTag p _ mode gap hmode hgap =>
    cases mode with
    | text => exact absurd rfl hmode
    | head => rfl
    | body => rfl
  | exhausted cursor => rfl

/-! ## The end of the input -/

theorem of_finished (h : Step stream answer after) (hfinished : stream.context = .finished) :
    answer = .error ⟨.exhausted, stream.cursor.position⟩ ∧ after = stream := by
  cases h with
  | found _ _ => exact absurd hfinished (Mode.context_ne_finished _ _)
  | faulty _ _ => exact absurd hfinished (Mode.context_ne_finished _ _)
  | unterminatedTag _ _ => exact absurd hfinished (Mode.context_ne_finished _ _)
  | exhausted cursor => exact ⟨rfl, rfl⟩

/-- A stream is at its end when it was before, or when the end of the input is answered. -/
theorem context_eq_finished_iff (h : Step stream answer after) :
    after.context = .finished ↔
      stream.context = .finished ∨ kindOf? answer = some .endOfInput := by
  cases h with
  | @found _ opening mode _ _ _ kind _ _ =>
    have hmode := mode.context_ne_finished opening
    rw [or_iff_right hmode, Context.after_eq_finished_iff hmode, kindOf?, Option.some_inj]
  | faulty _ _ => simp [kindOf?, Context.pastHead_eq_finished_iff]
  | unterminatedTag _ _ => simp [kindOf?]
  | exhausted cursor => simp [kindOf?]

end Step

theorem context_afterCalls_eq_finished_iff {stream : TokenStream}
    (hstart : stream.context ≠ .finished) (k : ℕ) :
    (stream.afterCalls k).context = .finished ↔
      ∃ j < k, kindOf? (stream.answer j) = some .endOfInput := by
  induction k with
  | zero => exact iff_of_false hstart (by simp)
  | succ k ih =>
    rw [(stream.step_afterCalls k).context_eq_finished_iff, ih, Nat.exists_lt_succ_right]

/-- Behind the end of the input there are no tokens. -/
theorem kindOf?_eq_none_of_lt {stream : TokenStream} (hstart : stream.context ≠ .finished)
    {i j : ℕ} (hi : kindOf? (stream.answer i) = some .endOfInput) (hij : i < j) :
    kindOf? (stream.answer j) = none := by
  have hfinished := (context_afterCalls_eq_finished_iff hstart j).mpr ⟨i, hij, hi⟩
  rw [((stream.step_afterCalls j).of_finished hfinished).1, kindOf?]

theorem context_ofSource_ne_finished (source : String) : (ofSource source).context ≠ .finished :=
  Context.noConfusion

/-! ## The budget -/

/-- Whether an answer is a final fault. -/
def isFinalFault : Except ScanError Token → Bool
  | .ok _ => false
  | .error e => e.fault.isFinal

/-- How many answers there can be that are not a final fault: one for each character that is left,
and one for the end of the input. -/
def budget (stream : TokenStream) : ℕ :=
  stream.remaining + if stream.context = .finished then 0 else 1

/-- **One call.** An answer costs one of the budget, unless it is a final fault. -/
theorem Step.budget_le {stream after : TokenStream} {answer : Except ScanError Token}
    (h : Step stream answer after) :
    after.budget + (if isFinalFault answer = false then 1 else 0) ≤ stream.budget := by
  have hremaining := h.offset_add_remaining
  have hle := h.offset_le
  have hfinished := h.context_eq_finished_iff
  rw [budget, budget]
  cases answer with
  | ok token =>
    rw [if_pos (show isFinalFault (.ok token) = false from rfl)]
    by_cases hkind : token.kind = .endOfInput
    · have hnot : stream.context ≠ .finished := fun hcontext ↦ nomatch (h.of_finished hcontext).1
      rw [if_pos (hfinished.mpr (Or.inr (congrArg some hkind))), if_neg hnot]
      omega
    · have hlt := h.offset_lt (bne_iff_ne.mpr hkind)
      rw [kindOf?, Option.some_inj, or_iff_left hkind] at hfinished
      simp only [hfinished]
      omega
  | error e =>
    simp only [kindOf?, reduceCtorEq, or_false] at hfinished
    simp only [hfinished]
    by_cases hfinal : isFinalFault (.error e) = false
    · have hlt := h.offset_lt (congrArg not hfinal)
      rw [if_pos hfinal]
      omega
    · rw [if_neg hfinal]
      omega

/-- **Many calls.** There are at most as many answers that are not a final fault as the budget
allows. -/
theorem count_add_budget_le (stream : TokenStream) (m : ℕ) :
    Nat.count (fun k ↦ isFinalFault (stream.answer k) = false) m + (stream.afterCalls m).budget
      ≤ stream.budget := by
  induction m with
  | zero => rw [Nat.count_zero, Nat.zero_add, afterCalls, Function.iterate_zero, id_eq]
  | succ m ih =>
    have hstep := (stream.step_afterCalls m).budget_le
    rw [Nat.count_succ]
    omega

theorem offset_add_remaining_afterCalls (stream : TokenStream) (k : ℕ) :
    (stream.afterCalls k).offset + (stream.afterCalls k).remaining
      = stream.offset + stream.remaining := by
  induction k with
  | zero => rfl
  | succ k ih => rw [(stream.step_afterCalls k).offset_add_remaining, ih]

theorem offset_add_le_offset_afterCalls {stream : TokenStream} {m : ℕ}
    (h : ∀ i < m, usesCharacters (stream.answer i) = true) :
    stream.offset + m ≤ (stream.afterCalls m).offset := by
  induction m with
  | zero => exact Nat.le_refl _
  | succ m ih =>
    have hlt := (stream.step_afterCalls m).offset_lt (h m (Nat.lt_succ_self m))
    have hle := ih fun i hi ↦ h i (Nat.lt_succ_of_lt hi)
    omega

theorem answer_of_isFinal {stream : TokenStream} {k : ℕ} {e : ScanError}
    (h : stream.answer k = .error e) (hfinal : e.fault.isFinal = true) {j : ℕ} (hj : k < j) :
    stream.afterCalls j = stream.afterCalls (k + 1) ∧ stream.answer j = .error e := by
  have hnext := (h ▸ stream.step_afterCalls k).next_of_isFinal hfinal
  obtain ⟨i, rfl⟩ := Nat.exists_eq_add_of_lt hj
  have hstream : stream.afterCalls (k + i + 1) = stream.afterCalls (k + 1) := by
    rw [afterCalls, Nat.add_right_comm, Nat.add_comm (k + 1), Function.iterate_add_apply]
    exact Function.iterate_fixed (congrArg Prod.snd hnext) i
  refine ⟨hstream, ?_⟩
  rw [answer, hstream, hnext]

end TokenStream

end TagTemplate
