import Mathlib.Data.List.DropRight
import TagTemplate.Proofs.Token.Calls

/-!
# Places and spans

A stream counts its place as it goes, one character after the other. The place can also be read off
the source: behind a number of characters, the line is one more than the line feeds among them, and
the column one more than the characters behind the last of these (`placeAt`).

The two agree wherever a stream gets, after errors too, since all that a call does is to pass over
characters (`Cursor.StandsIn`, `TokenStream.Step.standsIn`). A token spans some of what its call
passes over, so its span is right as well (`Token.SpansIn`), and the spans of later tokens lie
further down.
-/

namespace TagTemplate

/-! ## Places in a source -/

/-- The place in a source behind a number of its characters. -/
def placeAt (cs : List Char) (offset : ℕ) : Position where
  offset := offset
  line := 1 + (cs.take offset).count '\n'
  column := 1 + ((cs.take offset).rtakeWhile fun c ↦ c != '\n').length

example : placeAt "a\nbc".toList 3 = ⟨3, 2, 2⟩ := by decide

theorem Position.after_origin (cs : List Char) : origin.after cs = placeAt cs cs.length := by
  induction cs using List.reverseRecOn with
  | nil => rfl
  | append_singleton cs c ih =>
    rw [after_append, ih, after_cons, after_nil, next, placeAt, placeAt, List.take_length,
      List.take_length, List.count_append, List.rtakeWhile_concat, List.length_append]
    by_cases hc : c = '\n'
    · subst hc
      rfl
    · have hcount : List.count '\n' [c] = 0 :=
        List.count_eq_zero_of_not_mem fun hmem ↦ hc (List.mem_singleton.mp hmem).symm
      rw [if_neg hc, if_pos (bne_iff_ne.mpr hc), hcount, List.length_append]
      rfl

theorem Position.after_origin_append (passed rest : List Char) :
    origin.after passed = placeAt (passed ++ rest) passed.length := by
  rw [after_origin, placeAt, placeAt, List.take_length, List.take_left]

/-! ## Cursors in a source -/

namespace Cursor

/-- Whether a cursor stands in a source. -/
structure StandsIn (cs : List Char) (cursor : Cursor) : Prop where
  /-- It is not beyond the end. -/
  offset_le : cursor.position.offset ≤ cs.length
  /-- What is left for it is what is left of the source there. -/
  rest_eq : cursor.rest = cs.drop cursor.position.offset
  /-- Its line and column are those of the characters before it. -/
  position_eq : cursor.position = placeAt cs cursor.position.offset

variable {cs : List Char} {cursor : Cursor}

theorem standsIn_append (passed rest : List Char) :
    StandsIn (passed ++ rest) ⟨rest, Position.origin.after passed⟩ := by
  rw [Position.after_origin_append passed rest]
  refine ⟨?_, List.drop_left.symm, rfl⟩
  rw [placeAt, List.length_append]
  exact Nat.le_add_right _ _

theorem StandsIn.exists_passed (h : StandsIn cs cursor) : ∃ passed,
    cs = passed ++ cursor.rest ∧ cursor.position = Position.origin.after passed := by
  have hsplit : cs = cs.take cursor.position.offset ++ cursor.rest := by
    rw [h.rest_eq, List.take_append_drop]
  refine ⟨cs.take cursor.position.offset, hsplit, ?_⟩
  rw [Position.after_origin_append _ cursor.rest, ← hsplit, List.length_take,
    Nat.min_eq_left h.offset_le]
  exact h.position_eq

theorem StandsIn.after {used rest : List Char} {p : Position} (h : StandsIn cs ⟨used ++ rest, p⟩) :
    StandsIn cs ⟨rest, p.after used⟩ := by
  obtain ⟨passed, rfl, hposition⟩ := h.exists_passed
  obtain rfl : p = Position.origin.after passed := hposition
  rw [← Position.after_append, ← List.append_assoc]
  exact standsIn_append _ _

end Cursor

/-! ## Spans in a source -/

/-- Whether the span of a token is right in a source. -/
structure Token.SpansIn (cs : List Char) (token : Token) : Prop where
  /-- Its start is the place with that offset. -/
  start_eq : token.start = placeAt cs token.start.offset
  /-- Its stop is the place with that offset. -/
  stop_eq : token.stop = placeAt cs token.stop.offset
  /-- It is not turned round. -/
  start_le_stop : token.start.offset ≤ token.stop.offset
  /-- It is not empty, except at the end of the input. -/
  start_lt_stop : token.kind ≠ .endOfInput → token.start.offset < token.stop.offset
  /-- It lies in the source. -/
  stop_le_length : token.stop.offset ≤ cs.length

namespace TokenStream

/-! ## One call -/

namespace Step

variable {stream after : TokenStream} {answer : Except ScanError Token} {token : Token}
  {cs : List Char}

theorem standsIn (h : Step stream answer after) (hcursor : stream.cursor.StandsIn cs) :
    after.cursor.StandsIn cs := by
  obtain ⟨passed, hrest, hposition, -⟩ := h.exists_passed
  have hstream : Cursor.StandsIn cs ⟨passed ++ after.cursor.rest, stream.cursor.position⟩ :=
    hrest ▸ hcursor
  have hafter := hstream.after
  rwa [← hposition] at hafter

/-- A token that is found has its span between the places before and after the call. -/
theorem spansIn (h : Step stream (.ok token) after) (hcursor : stream.cursor.StandsIn cs) :
    token.SpansIn cs ∧ stream.offset ≤ token.start.offset ∧ token.stop.offset = after.offset := by
  cases h with
  | @found p _ _ gap written rest kind hgap hpiece =>
    have hstart := Cursor.StandsIn.after hcursor
    have hstop := hstart.after
    have hoffset := Position.offset_after (p.after gap) written
    refine ⟨⟨hstart.position_eq, hstop.position_eq, ?_, fun hkind ↦ ?_, hstop.offset_le⟩, ?_, rfl⟩
    · dsimp only
      omega
    · have hpos := List.length_pos_iff.mpr (hpiece.spelled.ne_nil hkind)
      dsimp only
      omega
    · rw [offset, Position.offset_after]
      exact Nat.le_add_right _ _

end Step

/-! ## Many calls -/

theorem offset_afterCalls_mono (stream : TokenStream) :
    Monotone fun k ↦ (stream.afterCalls k).offset :=
  monotone_nat_of_le_succ fun k ↦ (stream.step_afterCalls k).offset_le

theorem standsIn_afterCalls (source : String) (k : ℕ) :
    ((ofSource source).afterCalls k).cursor.StandsIn source.toList := by
  induction k with
  | zero => exact Cursor.standsIn_append [] _
  | succ k ih => exact ((ofSource source).step_afterCalls k).standsIn ih

/-- **Places.** Wherever the calls of a stream have led, its place is that of the characters that it
has passed. Every token that is answered has the span of some characters, of none only at the end of
the input, and later tokens have theirs further down. -/
theorem places_are_those_of_passed_characters (source : String) :
    let stream := ofSource source
    (∀ k, (stream.afterCalls k).cursor.StandsIn source.toList) ∧
    (∀ k token, stream.answer k = .ok token → token.SpansIn source.toList) ∧
    ∀ i j token later, i < j → stream.answer i = .ok token → stream.answer j = .ok later →
      token.stop.offset ≤ later.start.offset ∧ token.start.offset < later.start.offset := by
  intro stream
  have hstands := standsIn_afterCalls source
  have hspans : ∀ k token, stream.answer k = .ok token → token.SpansIn source.toList ∧
      (stream.afterCalls k).offset ≤ token.start.offset ∧
      token.stop.offset = (stream.afterCalls (k + 1)).offset :=
    fun k token hk ↦ (hk ▸ stream.step_afterCalls k).spansIn (hstands k)
  refine ⟨hstands, fun k token hk ↦ (hspans k token hk).1, fun i j token later hij hi hj ↦ ?_⟩
  obtain ⟨htoken, -, hstop⟩ := hspans i token hi
  obtain ⟨-, hstart, -⟩ := hspans j later hj
  have hle : (stream.afterCalls (i + 1)).offset ≤ (stream.afterCalls j).offset :=
    stream.offset_afterCalls_mono hij
  have hkind : token.kind ≠ .endOfInput := by
    intro hend
    have hnone := kindOf?_eq_none_of_lt (context_ofSource_ne_finished source)
      (by rw [hi, kindOf?, hend]) hij
    rw [hj] at hnone
    contradiction
  have hlt := htoken.start_lt_stop hkind
  omega

end TokenStream

end TagTemplate
