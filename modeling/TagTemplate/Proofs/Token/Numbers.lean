import TagTemplate.Proofs.Number.Reading
import TagTemplate.Proofs.Token.Decomposition

/-!
# Numbers inside a tag

Where a number literal starts inside a tag, a call of the stream takes the longest one. It answers
the element that the literal is read as, or that the number is out of range, and either way the
stream goes on behind the literal. `NumberRead` is that condition on the answer of a call and the
stream after it, and only one result meets it (`NumberRead.unique`).

How the digits of exponents count makes a difference only where tens of thousands of digits stand on
one side of the point (`Numeral.readAs_size_iff`). There a number can be read that is far from what
is written (`not_denotes_shiftedOne`).
-/

namespace TagTemplate

/-! ## Answers -/

/-- What is answered about a literal that is read as the given element, if anything: the element
with its span, or where the literal starts and what it is. -/
def numberAnswer (n : Numeral) (start stop : Position) :
    Option Element → Except ScanError Token
  | some e => .ok ⟨.element e, start, stop⟩
  | none => .error ⟨.numberOutOfRange n, start⟩

/-- What a call of the stream has to answer where the given characters come and begin with a number
literal, when the digits of exponents count as `size` says, and how the stream goes on. -/
inductive NumberRead (size : List Char → ℕ) (start opening : Position) :
    List Char → Except ScanError Token × TokenStream → Prop
  /-- The literal is the longest one; in messages it has a small mark before its exponent. -/
  | intro {n : Numeral} {written rest : List Char} {element : Option Element} :
    n.Written written → Numeral.Longest written rest → n.text = written.map Numeral.smallMark →
    n.ReadAs size element →
    NumberRead size start opening (written ++ rest)
      (numberAnswer n start (start.after written) element,
        ⟨⟨rest, start.after written⟩, .tag opening false⟩)

section Answers

variable {size : List Char → ℕ} {start opening : Position} {cs : List Char}
  {result : Except ScanError Token × TokenStream}

theorem NumberRead.exists_readAs (h : NumberRead size start opening cs result) :
    ∃ element, (Numeral.read cs).ReadAs size element ∧
      result.1 = numberAnswer (Numeral.read cs) start result.2.cursor.position element := by
  obtain ⟨hwritten, hlongest, -, hread⟩ := h
  rw [(Numeral.read_of_longest hwritten hlongest).2]
  exact ⟨_, hread, rfl⟩

theorem NumberRead.unique {result' : Except ScanError Token × TokenStream}
    (h : NumberRead size start opening cs result)
    (h' : NumberRead size start opening cs result') : result = result' := by
  obtain @⟨n, written, rest, element, hwritten, hlongest, -, hread⟩ := h
  generalize hcs : written ++ rest = cs at h'
  obtain @⟨n', written', rest', element', hwritten', hlongest', -, hread'⟩ := h'
  have hn := (Numeral.read_of_longest hwritten hlongest).2
  rw [hcs, (Numeral.read_of_longest hwritten' hlongest').2] at hn
  subst hn
  obtain ⟨rfl, rfl⟩ := List.append_inj hcs
    ((Numeral.text_length_of_written hwritten).symm.trans
      (Numeral.text_length_of_written hwritten'))
  rw [hread.unique hread']

theorem numberAnswer_injective (n : Numeral) (start stop : Position) :
    Function.Injective (numberAnswer n start stop) := by
  intro element element' h
  cases element <;> cases element' <;> simp_all [numberAnswer]

end Answers

/-! ## A call -/

theorem isBlank_head_of_startsAt {cs : List Char} (h : Numeral.startsAt cs = true) :
    ∀ c ∈ cs.head?, isBlank c = false := by
  cases cs with
  | nil => simp
  | cons c cs =>
    refine forall_mem_head?_cons.mpr (Bool.eq_false_iff.mpr fun hblank ↦ ?_)
    rw [isBlank, Bool.or_eq_true, Bool.or_eq_true, Bool.or_eq_true, beq_iff_eq, beq_iff_eq,
      beq_iff_eq, beq_iff_eq] at hblank
    rcases hblank with ((rfl | rfl) | rfl) | rfl <;>
      exact absurd (Lexeme.isDigit_or_minus_of_startsAt h) (by decide)

theorem settle_ofNumeral {n : Numeral} {written : List Char} (hwritten : n.Written written)
    (rest : List Char) (start opening : Position) (atHead : Bool) :
    TokenStream.settle ⟨written ++ rest, start⟩ (.tag opening atHead) (Lexeme.ofNumeral n)
      = (numberAnswer n start (start.after written) (Lexeme.numeralElement? n),
        ⟨⟨rest, start.after written⟩, .tag opening false⟩) := by
  rw [Lexeme.ofNumeral, Numeral.text_length_of_written hwritten]
  split
  · rename_i e he
    rw [TokenStream.settle, Cursor.advance_append, he]
    rfl
  · rename_i he
    rw [TokenStream.settle, Cursor.advance_append, he]
    rfl

theorem next_of_startsAt (gap : List Char) {cs : List Char} (p opening : Position) (atHead : Bool)
    (hgap : ∀ c ∈ gap, isBlank c = true) (hcs : Numeral.startsAt cs = true) :
    (⟨⟨gap ++ cs, p⟩, .tag opening atHead⟩ : TokenStream).next
      = TokenStream.settle ⟨cs, p.after gap⟩ (.tag opening atHead)
          (Lexeme.ofNumeral (Numeral.read cs)) := by
  rw [TokenStream.next]
  dsimp only
  rw [TokenStream.skipBlanks_append hgap (isBlank_head_of_startsAt hcs)]
  cases cs with
  | nil => contradiction
  | cons c cs =>
    dsimp only
    rw [Lexeme.insideTag_number atHead hcs]

theorem numberRead_next (gap : List Char) {cs : List Char} (p opening : Position) (atHead : Bool)
    (hgap : ∀ c ∈ gap, isBlank c = true) (hcs : Numeral.startsAt cs = true) :
    NumberRead Exponent.size (p.after gap) opening cs
      (⟨⟨gap ++ cs, p⟩, .tag opening atHead⟩ : TokenStream).next := by
  rw [next_of_startsAt gap p opening atHead hgap hcs]
  obtain ⟨written, rest, rfl, hwritten⟩ := Numeral.exists_written_read hcs
  rw [settle_ofNumeral hwritten]
  exact .intro hwritten (Numeral.longest_read hwritten) (Numeral.text_of_written hwritten)
    (Numeral.readAs_numeralElement? _)

/-- **Numbers.** Where a number literal starts inside a tag, behind blanks or not, the longest one
is read, its digits before the point as an integer of 64 bits or, with a point or exponent, all of
it as the nearest number of the binary format. The digits of exponents count one after the other
until they have made `Exponent.enough`. What is read is what is written, all digits of the exponent
included, if the exponent is below ten times that or there are at most 65000 digits on either side
of the point. -/
theorem numbers_are_read (gap : List Char) {cs : List Char} (p opening : Position) (atHead : Bool)
    (hgap : ∀ c ∈ gap, isBlank c = true) (hcs : Numeral.startsAt cs = true) :
    NumberRead Exponent.size (p.after gap) opening cs
      (⟨⟨gap ++ cs, p⟩, .tag opening atHead⟩ : TokenStream).next ∧
    (∀ digits, ∃ counted, Exponent.IsCounted counted digits ∧
      Exponent.size digits = Exponent.fullSize counted) ∧
    ((∀ e ∈ (Numeral.read cs).exponent, Exponent.fullSize e.digits < 10 * Exponent.enough) ∨
        (Numeral.read cs).whole.length ≤ 65000 ∧ (Numeral.read cs).fraction.length ≤ 65000 →
      NumberRead Exponent.fullSize (p.after gap) opening cs
        (⟨⟨gap ++ cs, p⟩, .tag opening atHead⟩ : TokenStream).next) := by
  have hread := numberRead_next gap p opening atHead hgap hcs
  refine ⟨hread, Exponent.exists_isCounted, fun hlength ↦ ?_⟩
  generalize (⟨⟨gap ++ cs, p⟩, .tag opening atHead⟩ : TokenStream).next = result at hread
  obtain ⟨hwritten, hlongest, htext, helement⟩ := hread
  rw [(Numeral.read_of_longest hwritten hlongest).2] at hlength
  exact .intro hwritten hlongest htext ((Numeral.readAs_size_iff hwritten hlength).mp helement)

/-- A number behind a blank, with an exponent that has a large mark. -/
theorem numbers_are_read_half :
    NumberRead Exponent.fullSize ⟨4, 1, 5⟩ .origin ['-', '5', 'E', '-', '1', '$', '}']
      (⟨⟨[' ', '-', '5', 'E', '-', '1', '$', '}'], ⟨3, 1, 4⟩⟩, .tag .origin false⟩ :
        TokenStream).next :=
  (numbers_are_read [' '] ⟨3, 1, 4⟩ .origin false (List.forall_mem_singleton.mpr rfl) rfl).2.2
    (Or.inr (by decide))

/-! ## Numbers that are not what is written -/

theorem startsAt_shiftedOne (zeros : ℕ) : Numeral.startsAt (shiftedOneText zeros) = true := rfl

/-- A number that is a one when its exponent is taken in full is read as a zero. -/
theorem exponent_not_read_in_full : Numeral.startsAt (shiftedOneText 655360) = true ∧
    ¬NumberRead Exponent.fullSize (Position.origin.after ['{', '$', '=']) .origin
      (shiftedOneText 655360)
      (⟨⟨shiftedOneText 655360, Position.origin.after ['{', '$', '=']⟩, .tag .origin false⟩ :
        TokenStream).next := by
  refine ⟨startsAt_shiftedOne 655360, fun hfull ↦ ?_⟩
  have hwritten := written_shiftedOne 655360
  have hnext := next_of_startsAt [] (Position.origin.after ['{', '$', '=']) .origin false
    (by simp) (startsAt_shiftedOne 655360)
  have hsettle := settle_ofNumeral hwritten [] (Position.origin.after ['{', '$', '=']) .origin false
  rw [List.append_nil, Numeral.numeralElement?_eq_some_iff.mpr denotes_shiftedOne] at hsettle
  rw [List.nil_append, Position.after_nil, Numeral.read_of_written hwritten, hsettle] at hnext
  rw [hnext] at hfull
  obtain ⟨element, helement, hanswer⟩ := hfull.exists_readAs
  rw [Numeral.read_of_written hwritten] at helement hanswer
  dsimp only at hanswer
  obtain rfl := numberAnswer_injective _ _ _ hanswer
  exact not_denotes_shiftedOne (Numeral.readAs_some_iff.mp helement)

end TagTemplate
