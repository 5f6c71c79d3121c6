import Mathlib.Data.List.TakeWhile
import TagTemplate.Proofs.Number.Nearest
import TagTemplate.Token.Lexeme

/-!
# Number literals

The grammar of number literals, an optional minus, digits, digits after a point and an exponent,
is stated here on its own (`Numeral.Written`), together with the element that a literal denotes
(`Numeral.Denotes`). The reader is compared with both. From a place where a literal starts it
takes one (`Numeral.exists_written_read`), no longer piece of the text is a literal
(`Numeral.Written.length_le_read`), and where a literal ends because nothing longer is one, the
reader takes exactly that (`Numeral.read_of_longest`).

## Values

A literal without point and exponent denotes an integer of 64 bits, if it is in range, and any
other the nearest number of the binary format, if that is finite. The digits of an exponent are
taken as a parameter of `Numeral.Denotes`: the reader stops counting them once they make
`Exponent.enough`, which leaves every exponent of at most five digits as it is.
-/

namespace TagTemplate

/-! ## Runs of characters of one class -/

section Runs

variable {α : Type} {p : α → Bool} {xs ys : List α}

theorem takeWhile_append_of_stops (hxs : ∀ x ∈ xs, p x = true)
    (hys : ∀ y ∈ ys.head?, p y = false) : (xs ++ ys).takeWhile p = xs := by
  rw [List.takeWhile_append_of_pos hxs]
  cases ys with
  | nil => rw [List.takeWhile_nil, List.append_nil]
  | cons y ys => rw [List.takeWhile_cons_of_neg (by simp [hys y rfl]), List.append_nil]

theorem dropWhile_append_of_stops (hxs : ∀ x ∈ xs, p x = true)
    (hys : ∀ y ∈ ys.head?, p y = false) : (xs ++ ys).dropWhile p = ys := by
  rw [List.dropWhile_append_of_pos hxs]
  cases ys with
  | nil => rfl
  | cons y ys => rw [List.dropWhile_cons_of_neg (by simp [hys y rfl])]

theorem head?_dropWhile_eq_false : ∀ y ∈ (xs.dropWhile p).head?, p y = false := by
  intro y hy
  have := List.head?_dropWhile_not p xs
  rw [Option.mem_def] at hy
  rw [hy] at this
  simpa using this

theorem forall_mem_head?_cons {P : α → Prop} {x : α} : (∀ y ∈ (x :: xs).head?, P y) ↔ P x := by
  rw [List.head?_cons]
  simp

end Runs

/-! ## The grammar -/

/-- Decimal digits, at least one. -/
structure IsDigits (cs : List Char) : Prop where
  ne_nil : cs ≠ []
  isDigit : ∀ c ∈ cs, c.isDigit = true

theorem isDigit_replicate (n : ℕ) : ∀ c ∈ List.replicate n '0', c.isDigit = true := by
  intro c hc
  rw [List.eq_of_mem_replicate hc]
  rfl

namespace Numeral

/-- How the digits after the point are written. -/
inductive WrittenFraction : List Char → List Char → Prop
  | none : WrittenFraction [] []
  | some {digits : List Char} : IsDigits digits → WrittenFraction digits ('.' :: digits)

/-- How an exponent is written. -/
inductive WrittenExponent : Option Exponent → List Char → Prop
  | none : WrittenExponent none []
  | some {mark : Char} {sign : Option ExponentSign} {digits : List Char} :
    mark = 'e' ∨ mark = 'E' → IsDigits digits →
    WrittenExponent (some ⟨sign, digits⟩)
      (mark :: ((sign.map ExponentSign.text).toList ++ digits))

/-- The minus of a literal, if it has one. -/
def signText (negative : Bool) : List Char := if negative then ['-'] else []

/-- How a number literal is written. -/
inductive Written : Numeral → List Char → Prop
  | intro (negative : Bool) {whole fraction fractionText exponentText : List Char}
    {exponent : Option Exponent} : IsDigits whole → WrittenFraction fraction fractionText →
    WrittenExponent exponent exponentText →
    Written ⟨negative, whole, fraction, exponent⟩
      (signText negative ++ (whole ++ (fractionText ++ exponentText)))

/-- Whether a literal ends before the given characters because no longer piece of the text is a
literal. -/
def Longest (written rest : List Char) : Prop :=
  ∀ more, more ≠ [] → more <+: rest → ∀ n : Numeral, ¬n.Written (written ++ more)

/-! ## The parts of a literal are read -/

private theorem isDigits_takeWhile {cs : List Char} (h : cs.takeWhile Char.isDigit ≠ []) :
    IsDigits (cs.takeWhile Char.isDigit) :=
  ⟨h, fun _ hc ↦ (List.mem_takeWhile_imp hc)⟩

private theorem splitFraction_cases (cs : List Char) :
    (∃ rest, splitFraction cs = ([], rest) ∧ rest = cs) ∨
      ∃ digits rest, IsDigits digits ∧ cs = '.' :: (digits ++ rest) ∧
        splitFraction cs = (digits, rest) := by
  unfold splitFraction
  split
  · rename_i cs
    split
    · exact Or.inl ⟨_, rfl, rfl⟩
    · rename_i hdigits
      refine Or.inr ⟨cs.takeWhile Char.isDigit, cs.dropWhile Char.isDigit,
        isDigits_takeWhile hdigits, ?_, rfl⟩
      rw [List.takeWhile_append_dropWhile]
  · exact Or.inl ⟨_, rfl, rfl⟩

private theorem splitFraction_digits {digits cs : List Char} (h : IsDigits digits) :
    splitFraction ('.' :: (digits ++ cs))
      = (digits ++ cs.takeWhile Char.isDigit, cs.dropWhile Char.isDigit) := by
  have hne : digits ++ cs.takeWhile Char.isDigit ≠ [] := fun hnil ↦
    h.ne_nil (List.append_eq_nil_iff.mp hnil).1
  rw [splitFraction, List.takeWhile_append_of_pos h.isDigit, List.dropWhile_append_of_pos h.isDigit]
  split
  · rename_i hnil
    exact absurd hnil hne
  · rfl

private theorem split_sign (sign : Option ExponentSign) {digits : List Char} (h : IsDigits digits)
    (cs : List Char) :
    ExponentSign.split ((sign.map ExponentSign.text).toList ++ (digits ++ cs))
      = (sign, digits ++ cs) := by
  cases sign with
  | some sign => cases sign <;> rfl
  | none =>
    obtain ⟨c, ds, rfl⟩ := List.exists_cons_of_ne_nil h.ne_nil
    have hc := h.isDigit c List.mem_cons_self
    rw [Option.map_none, Option.toList_none, List.nil_append, List.cons_append, ExponentSign.split]
    · rintro cs heq
      rw [(List.cons.inj heq).1] at hc
      exact absurd hc (by decide)
    · rintro cs heq
      rw [(List.cons.inj heq).1] at hc
      exact absurd hc (by decide)

private theorem sign_of_split (cs : List Char) :
    ((ExponentSign.split cs).1.map ExponentSign.text).toList ++ (ExponentSign.split cs).2 = cs := by
  unfold ExponentSign.split
  split <;> rfl

private theorem read?_digits {mark : Char} (hmark : mark = 'e' ∨ mark = 'E')
    (sign : Option ExponentSign) {digits : List Char} (h : IsDigits digits) (cs : List Char) :
    Exponent.read? (mark :: ((sign.map ExponentSign.text).toList ++ (digits ++ cs)))
      = some ⟨sign, digits ++ cs.takeWhile Char.isDigit⟩ := by
  have hne : digits ++ cs.takeWhile Char.isDigit ≠ [] := fun hnil ↦
    h.ne_nil (List.append_eq_nil_iff.mp hnil).1
  rw [Exponent.read?, if_pos hmark, split_sign sign h]
  dsimp only
  rw [List.takeWhile_append_of_pos h.isDigit]
  split
  · rename_i hnil
    exact absurd hnil hne
  · rfl

private theorem read?_cases (cs : List Char) :
    Exponent.read? cs = none ∨
      ∃ mark sign digits rest, (mark = 'e' ∨ mark = 'E') ∧ IsDigits digits ∧
        cs = mark :: ((sign.map ExponentSign.text).toList ++ (digits ++ rest)) ∧
        Exponent.read? cs = some ⟨sign, digits⟩ := by
  cases cs with
  | nil => exact Or.inl rfl
  | cons c cs =>
    rw [Exponent.read?]
    by_cases hmark : c = 'e' ∨ c = 'E'
    · rw [if_pos hmark]
      have hsplit := sign_of_split cs
      generalize ExponentSign.split cs = parts at hsplit
      obtain ⟨sign, ds⟩ := parts
      dsimp only at hsplit ⊢
      split
      · exact Or.inl rfl
      · rename_i hdigits
        refine Or.inr ⟨c, sign, ds.takeWhile Char.isDigit, ds.dropWhile Char.isDigit, hmark,
          isDigits_takeWhile hdigits, ?_, rfl⟩
        rw [List.takeWhile_append_dropWhile, hsplit]
    · exact Or.inl (if_neg hmark)

private theorem read_signText (negative : Bool) {cs : List Char} (h : ∀ c ∈ cs.head?, c ≠ '-') :
    read (signText negative ++ cs) = readUnsigned negative cs := by
  cases negative with
  | true => rfl
  | false =>
    rw [signText, if_neg (by decide), List.nil_append]
    cases cs with
    | nil => rfl
    | cons c cs =>
      rw [read]
      rintro cs' heq
      exact h c rfl (List.cons.inj heq).1

private theorem head_ne_minus {digits cs : List Char} (h : IsDigits digits) :
    ∀ c ∈ (digits ++ cs).head?, c ≠ '-' := by
  obtain ⟨d, ds, rfl⟩ := List.exists_cons_of_ne_nil h.ne_nil
  refine forall_mem_head?_cons.mpr ?_
  rintro rfl
  exact absurd (h.isDigit _ List.mem_cons_self) (by decide)

private theorem startsAt_signText (negative : Bool) {digits cs : List Char} (h : IsDigits digits) :
    startsAt (signText negative ++ (digits ++ cs)) = true := by
  obtain ⟨d, ds, rfl⟩ := List.exists_cons_of_ne_nil h.ne_nil
  have hd := h.isDigit d List.mem_cons_self
  cases negative with
  | true => exact hd
  | false =>
    rw [signText, if_neg (by decide), List.nil_append, List.cons_append]
    unfold startsAt
    split
    · rename_i heq
      rw [(List.cons.inj heq).1] at hd
      exact absurd hd (by decide)
    · rename_i heq
      rwa [(List.cons.inj heq).1] at hd
    · rename_i heq
      exact absurd heq (List.cons_ne_nil _ _)

private theorem readUnsigned_eq (negative : Bool) {whole cs : List Char} (h : IsDigits whole)
    (hcs : ∀ c ∈ cs.head?, c.isDigit = false) :
    readUnsigned negative (whole ++ cs)
      = ⟨negative, whole, (splitFraction cs).1, Exponent.read? (splitFraction cs).2⟩ := by
  rw [readUnsigned, takeWhile_append_of_stops h.isDigit hcs,
    dropWhile_append_of_stops h.isDigit hcs]

private theorem isDigit_mark {mark : Char} (h : mark = 'e' ∨ mark = 'E') :
    mark.isDigit = false := by
  rcases h with rfl | rfl <;> rfl

private theorem splitFraction_mark {mark : Char} (h : mark = 'e' ∨ mark = 'E') (cs : List Char) :
    splitFraction (mark :: cs) = ([], mark :: cs) := by
  rcases h with rfl | rfl <;> rfl

/-! ## A literal is read -/

private theorem text_length (n : Numeral) : n.text.length
    = (signText n.negative).length + n.whole.length
      + (if n.fraction = [] then 0 else n.fraction.length + 1)
      + (n.exponent.map (·.text.length)).getD 0 := by
  obtain ⟨negative, whole, fraction, exponent⟩ := n
  cases fraction <;> cases exponent <;> simp [text, signText] <;> omega

private theorem Exponent.text_length (sign : Option ExponentSign) (digits : List Char) :
    (Exponent.text ⟨sign, digits⟩).length
      = (sign.map ExponentSign.text).toList.length + digits.length + 1 := by
  simp [Exponent.text, Nat.add_comm, Nat.add_left_comm]

/-- The case of the mark before an exponent makes no difference to the length. -/
theorem text_length_of_written {n : Numeral} {cs : List Char} (h : n.Written cs) :
    n.text.length = cs.length := by
  obtain ⟨_, -, hfraction, hexponent⟩ := h
  rw [text_length]
  cases hfraction with
  | none =>
    cases hexponent with
    | none => simp
    | some hmark hdigits =>
      simp [Exponent.text_length]
      omega
  | some hfrac =>
    cases hexponent with
    | none =>
      simp [hfrac.ne_nil]
      omega
    | some hmark hdigits =>
      simp [Exponent.text_length, hfrac.ne_nil]
      omega

/-- What follows the whole part is a fraction or not, and then an exponent or not. -/
private theorem exists_written_tail (cs : List Char) :
    ∃ fractionText exponentText rest, cs = fractionText ++ (exponentText ++ rest) ∧
      WrittenFraction (splitFraction cs).1 fractionText ∧
      WrittenExponent (Exponent.read? (splitFraction cs).2) exponentText := by
  obtain ⟨fractionText, tail, hfraction, hcs, htail⟩ : ∃ fractionText tail,
      WrittenFraction (splitFraction cs).1 fractionText ∧ cs = fractionText ++ tail ∧
        (splitFraction cs).2 = tail := by
    rcases splitFraction_cases cs with ⟨_, h, heq⟩ | ⟨digits, rest, hdigits, heq, h⟩
    · rw [h]
      exact ⟨[], _, .none, heq.symm, rfl⟩
    · rw [h]
      exact ⟨'.' :: digits, rest, .some hdigits, heq, rfl⟩
  rw [htail]
  rcases read?_cases tail with h | ⟨mark, sign, digits, rest, hmark, hdigits, rfl, h⟩
  · rw [h]
    exact ⟨fractionText, [], tail, hcs, hfraction, .none⟩
  · rw [h]
    refine ⟨fractionText, _, rest, ?_, hfraction, .some hmark hdigits⟩
    simpa using hcs

theorem exists_written_read {cs : List Char} (h : startsAt cs = true) :
    ∃ written rest, cs = written ++ rest ∧ (read cs).Written written := by
  obtain ⟨negative, ds, rfl, c, es, rfl, hc⟩ : ∃ negative ds, cs = signText negative ++ ds ∧
      ∃ c es, ds = c :: es ∧ c.isDigit = true := by
    unfold startsAt at h
    split at h
    · exact ⟨true, _, rfl, _, _, rfl, h⟩
    · exact ⟨false, _, rfl, _, _, rfl, h⟩
    · exact absurd h (by decide)
  have hwhole : IsDigits ((c :: es).takeWhile Char.isDigit) :=
    isDigits_takeWhile (by rw [List.takeWhile_cons_of_pos hc]; exact List.cons_ne_nil _ _)
  have hread := readUnsigned_eq negative hwhole (@head?_dropWhile_eq_false _ _ (c :: es))
  have hsplit := List.takeWhile_append_dropWhile (p := Char.isDigit) (l := c :: es)
  have hminus : ∀ d ∈ (c :: es).head?, d ≠ '-' := by
    refine forall_mem_head?_cons.mpr ?_
    rintro rfl
    exact absurd hc (by decide)
  obtain ⟨fractionText, exponentText, rest, hafter, hfraction, hexponent⟩ :=
    exists_written_tail ((c :: es).dropWhile Char.isDigit)
  rw [hsplit] at hread
  rw [read_signText negative hminus, hread]
  refine ⟨_, rest, ?_, .intro negative hwhole hfraction hexponent⟩
  rw [List.append_assoc, List.append_assoc, List.append_assoc, ← hafter, hsplit]

/-- A literal alone is read as itself, so what is written determines the literal. -/
theorem read_of_written {n : Numeral} {cs : List Char} (h : n.Written cs) : read cs = n := by
  obtain ⟨_, hwhole, hfraction, hexponent⟩ := h
  rw [read_signText _ (head_ne_minus hwhole)]
  cases hfraction with
  | none =>
    cases hexponent with
    | none => rw [readUnsigned_eq _ hwhole (by rintro _ ⟨⟩)]; rfl
    | @some mark sign digits hmark hdigits =>
      have hread := read?_digits hmark sign hdigits []
      rw [List.append_nil, List.takeWhile_nil, List.append_nil] at hread
      rw [List.nil_append, readUnsigned_eq _ hwhole (by rintro _ ⟨⟩; exact isDigit_mark hmark),
        splitFraction_mark hmark, hread]
  | some hfrac =>
    rw [List.cons_append, readUnsigned_eq _ hwhole (by rintro _ ⟨⟩; rfl),
      splitFraction_digits hfrac]
    cases hexponent with
    | none => rw [List.takeWhile_nil, List.append_nil]; rfl
    | @some mark sign digits hmark hdigits =>
      have hread := read?_digits hmark sign hdigits []
      rw [List.append_nil, List.takeWhile_nil, List.append_nil] at hread
      have hmark' : ¬mark.isDigit = true := by rw [isDigit_mark hmark]; decide
      rw [List.takeWhile_cons_of_neg hmark', List.dropWhile_cons_of_neg hmark', List.append_nil,
        hread]

/-- No literal at the start of a text is longer than the one that is read there. -/
theorem Written.length_le_read {n : Numeral} {written : List Char} (h : n.Written written)
    (rest : List Char) : startsAt (written ++ rest) = true ∧
      written.length ≤ (read (written ++ rest)).text.length := by
  obtain ⟨_, hwhole, hfraction, hexponent⟩ := h
  rw [List.append_assoc, List.append_assoc, List.append_assoc]
  refine ⟨startsAt_signText _ hwhole, ?_⟩
  rw [read_signText _ (head_ne_minus hwhole), List.length_append, text_length]
  cases hfraction with
  | none =>
    rw [List.nil_append, List.nil_append]
    cases hexponent with
    | none =>
      -- The reader may go on behind the literal, with digits or anything else.
      rw [List.nil_append, readUnsigned, List.takeWhile_append_of_pos hwhole.isDigit]
      simp
      omega
    | @some mark sign digits hmark hdigits =>
      rw [List.cons_append, readUnsigned_eq _ hwhole (by rintro _ ⟨⟩; exact isDigit_mark hmark),
        splitFraction_mark hmark, List.append_assoc, read?_digits hmark sign hdigits]
      simp [Exponent.text_length]
      omega
  | some hfrac =>
    rw [List.cons_append, List.cons_append, readUnsigned_eq _ hwhole (by rintro _ ⟨⟩; rfl),
      splitFraction_digits hfrac]
    cases hexponent with
    | none =>
      simp [hfrac.ne_nil]
      omega
    | @some mark sign digits hmark hdigits =>
      have hmark' : ¬mark.isDigit = true := by rw [isDigit_mark hmark]; decide
      rw [List.cons_append, List.takeWhile_cons_of_neg hmark', List.dropWhile_cons_of_neg hmark',
        List.append_nil, List.append_assoc, read?_digits hmark sign hdigits]
      simp [Exponent.text_length, hfrac.ne_nil]
      omega

/-- **Longest literals.** A literal that is not the beginning of a longer one is read as itself. -/
theorem read_of_longest {n : Numeral} {written rest : List Char} (h : n.Written written)
    (hlongest : Longest written rest) :
    startsAt (written ++ rest) = true ∧ read (written ++ rest) = n := by
  obtain ⟨hstarts, hlength⟩ := h.length_le_read rest
  refine ⟨hstarts, ?_⟩
  -- What is read goes on for at least as long, and if it went on for longer it would be no literal.
  obtain ⟨written', rest', heq, hread⟩ := exists_written_read hstarts
  rw [text_length_of_written hread] at hlength
  obtain ⟨more, rfl⟩ := List.prefix_of_prefix_length_le ⟨rest, rfl⟩ ⟨rest', heq.symm⟩ hlength
  rw [List.append_assoc, List.append_cancel_left_eq] at heq
  rcases eq_or_ne more [] with rfl | hne
  · rw [List.append_nil] at hread
    rw [← read_of_written hread, read_of_written h]
  · exact absurd hread (hlongest more hne ⟨rest', heq.symm⟩ _)

theorem longest_read {written rest : List Char}
    (h : (read (written ++ rest)).Written written) : Longest written rest := by
  rintro more hne ⟨rest', rfl⟩ n hn
  have hlength := (hn.length_le_read rest').2
  rw [List.append_assoc, text_length_of_written h, List.length_append] at hlength
  have := List.length_pos_iff.mpr hne
  omega

/-- The characters that stand in literals. -/
def isNumeralChar (c : Char) : Bool :=
  c.isDigit || c == '.' || c == 'e' || c == 'E' || c == '+' || c == '-'

theorem Written.isNumeralChar {n : Numeral} {cs : List Char} (h : n.Written cs) :
    ∀ c ∈ cs, isNumeralChar c = true := by
  obtain ⟨negative, hwhole, hfraction, hexponent⟩ := h
  have hdigit : ∀ {digits : List Char}, IsDigits digits →
      ∀ c ∈ digits, Numeral.isNumeralChar c = true := by
    intro digits hdigits c hc
    rw [Numeral.isNumeralChar, hdigits.isDigit c hc]
    rfl
  intro c hc
  rw [List.mem_append, List.mem_append, List.mem_append] at hc
  rcases hc with hc | hc | hc | hc
  · cases negative with
    | true => rw [List.mem_singleton.mp hc]; rfl
    | false => contradiction
  · exact hdigit hwhole c hc
  · cases hfraction with
    | none => contradiction
    | some hdigits =>
      rcases List.mem_cons.mp hc with rfl | hc
      · rfl
      · exact hdigit hdigits c hc
  · cases hexponent with
    | none => contradiction
    | @some mark sign digits hmark hdigits =>
      rcases List.mem_cons.mp hc with rfl | hc
      · rcases hmark with rfl | rfl <;> rfl
      rcases List.mem_append.mp hc with hc | hc
      · cases sign with
        | none => contradiction
        | some sign =>
          rw [List.mem_singleton.mp hc]
          cases sign <;> rfl
      · exact hdigit hdigits c hc

theorem longest_of_head {written rest : List Char}
    (h : ∀ c ∈ rest.head?, isNumeralChar c = false) : Longest written rest := by
  rintro more hne ⟨rest', rfl⟩ n hn
  obtain ⟨c, more, rfl⟩ := List.exists_cons_of_ne_nil hne
  have hc := hn.isNumeralChar c (List.mem_append_right _ List.mem_cons_self)
  rw [h c rfl] at hc
  contradiction

/-! ## What a literal denotes -/

/-- The power of ten of an exponent whose digits count as `size` says. -/
def exponentWith (size : List Char → ℕ) (e : Exponent) : ℤ :=
  if e.sign = some .minus then -(size e.digits : ℤ) else size e.digits

/-- The decimal of a literal, its minus left aside, when the digits of exponents count as `size`
says. -/
def decimalWith (size : List Char → ℕ) (n : Numeral) : Decimal where
  digits := Nat.ofDigitChars 10 (n.whole ++ n.fraction) 0
  scale := (n.exponent.map (exponentWith size)).getD 0 - n.fraction.length

/-- What a number literal denotes: without point and exponent the integer, if it has 64 bits, and
otherwise the nearest number of the binary format, if that is finite. A minus is kept before a
zero of the binary format. -/
inductive Denotes (size : List Char → ℕ) (n : Numeral) : Element → Prop
  | integer {value : Int64} : n.fraction = [] → n.exponent = none →
    value.toInt = (if n.negative then -1 else 1) * (Nat.ofDigitChars 10 n.whole 0 : ℤ) →
    Denotes size n (.integer value)
  | double {x : Binary64} : (n.fraction ≠ [] ∨ n.exponent ≠ none) → x.negative = n.negative →
    x.isFinite = true → Binary64.Nearest x.magnitude (n.decimalWith size).value →
    Denotes size n (.double x)

theorem isWhole_iff {n : Numeral} : n.isWhole = true ↔ n.fraction = [] ∧ n.exponent = none := by
  rw [isWhole, Bool.and_eq_true, List.isEmpty_iff, Option.isNone_iff_eq_none]

theorem int64?_eq_some_iff {n : Numeral} (h : n.fraction = []) {value : Int64} :
    n.int64? = some value ↔
      value.toInt = (if n.negative then -1 else 1) * (Nat.ofDigitChars 10 n.whole 0 : ℤ) := by
  have htarget : (if n.negative then -1 else 1) * (Nat.ofDigitChars 10 n.whole 0 : ℤ)
      = if n.negative then -(n.decimal.digits : ℤ) else n.decimal.digits := by
    rw [decimal, h, List.append_nil]
    split <;> simp
  have hcheck : n.int64? = some value ↔
      value.toInt = if n.negative then -(n.decimal.digits : ℤ) else n.decimal.digits := by
    rw [int64?]
    by_cases hrange : Int64.minValue.toInt
        ≤ (if n.negative then -(n.decimal.digits : ℤ) else n.decimal.digits) ∧
        (if n.negative then -(n.decimal.digits : ℤ) else n.decimal.digits) ≤ Int64.maxValue.toInt
    · rw [dif_pos hrange, Option.some_inj, ← Int64.toInt_inj, Int64.toInt_ofIntLE, eq_comm]
    · rw [dif_neg hrange]
      refine iff_of_false (by simp) fun heq ↦ hrange ?_
      rw [← heq]
      exact ⟨value.minValue_le_toInt, value.toInt_le⟩
  rw [hcheck, htarget]

theorem binary64?_eq_some_iff {n : Numeral} {x : Binary64} :
    n.binary64? = some x ↔ x.negative = n.negative ∧ x.isFinite = true ∧
      Binary64.Nearest x.magnitude n.decimal.value := by
  rw [binary64?, Binary64.ofDecimal?, Binary64.isFinite, decide_eq_true_eq,
    ← Binary64.magnitudeOfDecimal_eq_iff]
  split
  · rename_i hfinite
    rw [Option.some_inj, Binary64.ext_iff]
    constructor
    · rintro ⟨hnegative, hmagnitude⟩
      exact ⟨hnegative.symm, hmagnitude ▸ hfinite, hmagnitude⟩
    · rintro ⟨hnegative, -, hmagnitude⟩
      exact ⟨hnegative.symm, hmagnitude⟩
  · rename_i hfinite
    simp only [reduceCtorEq, false_iff]
    rintro ⟨-, hlt, heq⟩
    exact hfinite (heq ▸ hlt)

private theorem decimalWith_size (n : Numeral) : n.decimalWith Exponent.size = n.decimal := by
  obtain ⟨negative, whole, fraction, exponent⟩ := n
  cases exponent <;> rfl

/-- The reader takes a literal for what it denotes, the digits of exponents being counted until
they make `Exponent.enough`. -/
theorem numeralElement?_eq_some_iff {n : Numeral} {e : Element} :
    Lexeme.numeralElement? n = some e ↔ n.Denotes Exponent.size e := by
  rw [Lexeme.numeralElement?]
  by_cases hwhole : n.isWhole = true
  · obtain ⟨hfraction, hexponent⟩ := isWhole_iff.mp hwhole
    rw [if_pos hwhole, Option.map_eq_some_iff]
    constructor
    · rintro ⟨value, hvalue, rfl⟩
      exact .integer hfraction hexponent ((int64?_eq_some_iff hfraction).mp hvalue)
    · rintro (⟨-, -, hvalue⟩ | ⟨hpart, -⟩)
      · exact ⟨_, (int64?_eq_some_iff hfraction).mpr hvalue, rfl⟩
      · rcases hpart with h | h <;> contradiction
  · rw [if_neg hwhole, Option.map_eq_some_iff]
    rw [isWhole_iff, not_and_or] at hwhole
    constructor
    · rintro ⟨x, hx, rfl⟩
      obtain ⟨hnegative, hfinite, hnearest⟩ := binary64?_eq_some_iff.mp hx
      exact .double hwhole hnegative hfinite (by rwa [decimalWith_size])
    · rintro (⟨hfraction, hexponent, -⟩ | ⟨-, hnegative, hfinite, hnearest⟩)
      · rcases hwhole with h | h <;> contradiction
      · rw [decimalWith_size] at hnearest
        exact ⟨_, binary64?_eq_some_iff.mpr ⟨hnegative, hfinite, hnearest⟩, rfl⟩

/-! ## Exponents that are counted to their end -/

theorem le_ofDigitChars (cs : List Char) (n : ℕ) : n ≤ Nat.ofDigitChars 10 cs n := by
  induction cs generalizing n with
  | nil => rw [Nat.ofDigitChars_nil]
  | cons c cs ih =>
    rw [Nat.ofDigitChars_cons]
    exact le_trans (by omega) (ih _)

private theorem foldl_size_eq (cs : List Char) (n : ℕ)
    (h : Nat.ofDigitChars 10 cs n < 10 * Exponent.enough) :
    cs.foldl (fun n c ↦ if n < Exponent.enough then 10 * n + (c.toNat - '0'.toNat) else n) n
      = Nat.ofDigitChars 10 cs n := by
  induction cs generalizing n with
  | nil => rw [List.foldl_nil, Nat.ofDigitChars_nil]
  | cons c cs ih =>
    rw [Nat.ofDigitChars_cons] at h ⊢
    -- More digits never make less, so there is not enough yet while there is not in the end.
    have hle := le_ofDigitChars cs (10 * n + (c.toNat - '0'.toNat))
    rw [List.foldl_cons, if_pos (by omega), ih _ h]

theorem size_eq_ofDigitChars {cs : List Char}
    (h : Nat.ofDigitChars 10 cs 0 < 10 * Exponent.enough) :
    Exponent.size cs = Nat.ofDigitChars 10 cs 0 := foldl_size_eq cs 0 h

end Numeral

end TagTemplate
