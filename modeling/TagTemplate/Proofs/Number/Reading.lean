import TagTemplate.Proofs.Number.Literal

/-!
# What number literals are read as

Which element a literal denotes, if any, is a matter of ranges. A literal without point and exponent
is an integer of 64 bits or none. Any other is the nearest number of the binary format, and there is
one below `2 ^ 1024 - 2 ^ 970`: that is half a step beyond the largest finite number, and there the
tie goes to infinity (`Binary64.Nearest.lt_infinity_iff`). `Numeral.ReadAs` says so in four cases,
with none left out, and the reader does what it says (`Numeral.readAs_numeralElement?`).

## Exponents

How the digits of an exponent count is a parameter again. The reader counts them one after the other
until they have made `Exponent.enough` (`Exponent.exists_isCounted`). Where that is less than all of
them make, it is still so much that a literal with up to 65000 digits on either side of the point is
out of range or rounded to zero whichever way its exponent counts. Only a literal that is longer
than that can be read as something other than what is written (`Numeral.readAs_size_iff`).
-/

namespace TagTemplate

/-! ## The end of the range -/

namespace Binary64

theorem value_largest : value (infinity - 1) = 2 ^ 1024 - 2 ^ 971 := by
  rw [show infinity - 1 = 2045 * binadeSize + (2 ^ 53 - 1) from by decide,
    value_grid (Or.inr (by norm_num)) (by norm_num), div_eq_iff (pow_ne_zero _ two_ne_zero),
    sub_mul, ← pow_add, ← pow_add, Nat.cast_sub (by norm_num), sub_mul, Nat.cast_pow,
    Nat.cast_ofNat, ← pow_add, Nat.cast_one, one_mul]

/-- A number is rounded to a finite one up to half a step beyond the largest of them; the largest is
odd, so from there on it is rounded to infinity. -/
theorem Nearest.lt_infinity_iff {m : ℕ} {q : ℚ} (h : Nearest m q) :
    m < infinity ↔ q < 2 ^ 1024 - 2 ^ 970 := by
  obtain ⟨half, hpos, hlargest, hend⟩ : ∃ half : ℚ, 0 < half ∧
      value (infinity - 1) = value infinity - 2 * half ∧
        2 ^ 1024 - 2 ^ 970 = value infinity - half := by
    refine ⟨2 ^ 970, by positivity, ?_, by rw [value_infinity]⟩
    rw [value_largest, value_infinity, ← pow_succ']
  rw [hend]
  constructor
  · intro hm
    by_contra hlt
    have hge := le_of_not_gt hlt
    have hle : value m ≤ value (infinity - 1) :=
      strictMono_value.monotone (Nat.le_sub_one_of_lt hm)
    have hnear := h.abs_le infinity le_rfl
    rw [abs_of_nonpos (by linarith)] at hnear
    rcases le_or_gt (value infinity) q with hq | hq
    · rw [abs_of_nonpos (by linarith)] at hnear
      linarith
    · -- Half a step beyond the largest number there is a tie, and that number is odd.
      rw [abs_of_nonneg (by linarith)] at hnear
      obtain rfl : m = infinity - 1 := strictMono_value.injective (by linarith)
      have htie : |value (infinity - 1) - q| = |value infinity - q| := by
        rw [abs_of_nonpos (by linarith), abs_of_nonneg (by linarith)]
        linarith
      exact absurd (h.even_of_tie infinity le_rfl hm.ne' htie) (by decide)
  · intro hq
    by_contra hm
    obtain rfl := Nat.le_antisymm h.le_infinity (Nat.le_of_not_lt hm)
    have hnear := h.abs_le (infinity - 1) (Nat.sub_le _ _)
    rw [abs_of_nonneg (by linarith), hlargest] at hnear
    rcases abs_cases (value infinity - 2 * half - q) with ⟨habs, -⟩ | ⟨habs, -⟩ <;> linarith

/-- Of a number below the tenth part of the smallest unit nothing is left. -/
theorem magnitudeOfDecimal_eq_zero {d : Decimal} (h : d.value ≤ (10 : ℚ) ^ (-325 : ℤ)) :
    magnitudeOfDecimal d = 0 := by
  refine magnitudeOfDecimal_eq_iff.mpr (nearest_zero d.value_nonneg (h.trans_lt ?_))
  have htenth : (10 : ℚ) ^ (-325 : ℤ) = 10 ^ (-324 : ℤ) / 10 := by
    rw [div_eq_mul_inv, ← zpow_neg_one, ← zpow_add₀ (by norm_num)]
    norm_num
  have hunit : (0 : ℚ) < 10 ^ (-324 : ℤ) := by positivity
  have := le_value_one
  rw [htenth]
  linarith

end Binary64

namespace Numeral

/-! ## Ranges -/

/-- The integer that the minus and the digits before the point stand for. -/
def integerValue (n : Numeral) : ℤ :=
  (if n.negative then -1 else 1) * (Nat.ofDigitChars 10 n.whole 0 : ℤ)

/-- What a number literal is read as, if anything, when the digits of exponents count as `size`
says. -/
inductive ReadAs (size : List Char → ℕ) (n : Numeral) : Option Element → Prop
  /-- Without point and exponent it is an integer in the range of 64 bits. -/
  | integer {value : Int64} : n.fraction = [] → n.exponent = none →
    -2 ^ 63 ≤ n.integerValue → n.integerValue ≤ 2 ^ 63 - 1 → value.toInt = n.integerValue →
    ReadAs size n (some (.integer value))
  /-- No integer beyond that range is read. -/
  | integerOutOfRange : n.fraction = [] → n.exponent = none →
    n.integerValue < -2 ^ 63 ∨ 2 ^ 63 - 1 < n.integerValue → ReadAs size n none
  /-- With a point or exponent it is the nearest number of the binary format, with the minus kept
  before a zero. -/
  | double {x : Binary64} : (n.fraction ≠ [] ∨ n.exponent ≠ none) →
    (n.decimalWith size).value < 2 ^ 1024 - 2 ^ 970 → x.negative = n.negative →
    x.isFinite = true → Binary64.Nearest x.magnitude (n.decimalWith size).value →
    ReadAs size n (some (.double x))
  /-- Nothing that would be rounded to infinity is read. -/
  | doubleOutOfRange : (n.fraction ≠ [] ∨ n.exponent ≠ none) →
    2 ^ 1024 - 2 ^ 970 ≤ (n.decimalWith size).value → ReadAs size n none

variable {size : List Char → ℕ} {n : Numeral}

theorem readAs_some_iff {e : Element} : n.ReadAs size (some e) ↔ n.Denotes size e := by
  constructor
  · rintro (⟨hfraction, hexponent, -, -, hvalue⟩ | _ | ⟨hpart, -, hnegative, hfinite, hnearest⟩)
    · exact .integer hfraction hexponent hvalue
    · exact .double hpart hnegative hfinite hnearest
  · rintro (⟨hfraction, hexponent, hvalue⟩ | ⟨hpart, hnegative, hfinite, hnearest⟩)
    · rename_i value
      have hlow := value.minValue_le_toInt
      have hhigh := value.toInt_le
      rw [hvalue] at hlow hhigh
      exact .integer hfraction hexponent hlow (Int.le_sub_one_of_lt (Int.lt_of_le_sub_one hhigh))
        hvalue
    · exact .double hpart (hnearest.lt_infinity_iff.mp (of_decide_eq_true hfinite)) hnegative
        hfinite hnearest

theorem readAs_none_iff : n.ReadAs size none ↔ ∀ e, ¬n.Denotes size e := by
  constructor
  · intro h e he
    rcases readAs_some_iff.mpr he with
      ⟨hfraction, hexponent, hlow, hhigh, -⟩ | _ | ⟨hpart, hlt, -, -, -⟩
    · rcases h with _ | ⟨-, -, hout⟩ | _ | ⟨hpart, -⟩
      · omega
      · exact not_and_or.mpr hpart ⟨hfraction, hexponent⟩
    · rcases h with _ | ⟨hfraction, hexponent, -⟩ | _ | ⟨-, hge⟩
      · exact not_and_or.mpr hpart ⟨hfraction, hexponent⟩
      · exact not_le.mpr hlt hge
  · intro h
    by_cases hpart : n.fraction = [] ∧ n.exponent = none
    · refine .integerOutOfRange hpart.1 hpart.2 ?_
      by_contra hrange
      rw [not_or, not_lt, not_lt] at hrange
      have hhigh : n.integerValue ≤ Int64.maxValue.toInt := hrange.2
      exact h (.integer (Int64.ofIntLE n.integerValue hrange.1 hhigh))
        (.integer hpart.1 hpart.2 Int64.toInt_ofIntLE)
    · rw [not_and_or] at hpart
      refine .doubleOutOfRange hpart ?_
      by_contra hrange
      have hnearest := Binary64.nearest_magnitudeOfDecimal (n.decimalWith size)
      have hfinite := hnearest.lt_infinity_iff.mpr (not_le.mp hrange)
      exact h (.double ⟨n.negative, _, hfinite.trans Binary64.infinity_lt_signPlace⟩)
        (.double hpart rfl (decide_eq_true hfinite) hnearest)

theorem Denotes.unique {e e' : Element} (h : n.Denotes size e) (h' : n.Denotes size e') :
    e = e' := by
  rcases h with ⟨hfraction, hexponent, hvalue⟩ | ⟨hpart, hnegative, -, hnearest⟩
  · rcases h' with ⟨-, -, hvalue'⟩ | ⟨hpart, -⟩
    · rw [Int64.toInt_inj.mp (hvalue.trans hvalue'.symm)]
    · exact absurd ⟨hfraction, hexponent⟩ (not_and_or.mpr hpart)
  · rcases h' with ⟨hfraction, hexponent, -⟩ | ⟨-, hnegative', -, hnearest'⟩
    · exact absurd ⟨hfraction, hexponent⟩ (not_and_or.mpr hpart)
    · rw [Binary64.ext (hnegative.trans hnegative'.symm) (hnearest.unique hnearest')]

theorem ReadAs.unique {element element' : Option Element} (h : n.ReadAs size element)
    (h' : n.ReadAs size element') : element = element' := by
  cases element with
  | none =>
    cases element' with
    | none => rfl
    | some e' => exact absurd (readAs_some_iff.mp h') (readAs_none_iff.mp h e')
  | some e =>
    cases element' with
    | none => exact absurd (readAs_some_iff.mp h) (readAs_none_iff.mp h' e)
    | some e' => rw [(readAs_some_iff.mp h).unique (readAs_some_iff.mp h')]

theorem readAs_numeralElement? (n : Numeral) :
    n.ReadAs Exponent.size (Lexeme.numeralElement? n) := by
  cases helement : Lexeme.numeralElement? n with
  | some e => exact readAs_some_iff.mpr (numeralElement?_eq_some_iff.mp helement)
  | none =>
    refine readAs_none_iff.mpr fun e he ↦ ?_
    rw [← numeralElement?_eq_some_iff, helement] at he
    contradiction

end Numeral

/-! ## How the digits of an exponent count -/

namespace Exponent

/-- The number that all digits of an exponent make. -/
def fullSize (digits : List Char) : ℕ := Nat.ofDigitChars 10 digits 0

theorem fullSize_concat (digits : List Char) (c : Char) :
    fullSize (digits ++ [c]) = 10 * fullSize digits + (c.toNat - '0'.toNat) := by
  rw [fullSize, Nat.ofDigitChars_append, Nat.ofDigitChars_cons, Nat.ofDigitChars_nil, fullSize]

theorem size_concat (digits : List Char) (c : Char) : size (digits ++ [c]) =
    if size digits < enough then 10 * size digits + (c.toNat - '0'.toNat) else size digits := by
  rw [size, List.foldl_append, List.foldl_cons, List.foldl_nil, size]

/-- Whether the given digits, the first of all, are those that count: one after the other does until
they have made `enough`. -/
structure IsCounted (counted digits : List Char) : Prop where
  /-- They come first. -/
  isPrefix : counted <+: digits
  /-- Up to each of them there was not enough. -/
  lt_enough : ∀ before c, counted = before ++ [c] → fullSize before < enough
  /-- There is enough then, or nothing more. -/
  eq_or_enough_le : counted = digits ∨ enough ≤ fullSize counted

theorem exists_isCounted (digits : List Char) :
    ∃ counted, IsCounted counted digits ∧ size digits = fullSize counted := by
  induction digits using List.reverseRecOn with
  | nil => exact ⟨[], ⟨List.nil_prefix, by simp, Or.inl rfl⟩, rfl⟩
  | append_singleton digits c ih =>
    obtain ⟨counted, hcounted, hsize⟩ := ih
    rw [size_concat, hsize]
    split
    · rename_i hlt
      obtain rfl := hcounted.eq_or_enough_le.resolve_right (Nat.not_le_of_lt hlt)
      refine ⟨counted ++ [c], ⟨List.prefix_rfl, fun before d heq ↦ ?_, Or.inl rfl⟩,
        (fullSize_concat counted c).symm⟩
      rwa [← List.append_inj_left' heq rfl]
    · exact ⟨counted, ⟨hcounted.isPrefix.trans (List.prefix_append _ _), hcounted.lt_enough,
        Or.inr (Nat.le_of_not_lt ‹_›)⟩, rfl⟩

theorem size_eq_fullSize_or (digits : List Char) :
    size digits = fullSize digits ∨ enough ≤ size digits ∧ enough ≤ fullSize digits := by
  obtain ⟨counted, hcounted, hsize⟩ := exists_isCounted digits
  rw [hsize]
  rcases hcounted.eq_or_enough_le with rfl | hend
  · exact Or.inl rfl
  · obtain ⟨ignored, rfl⟩ := hcounted.isPrefix
    refine Or.inr ⟨hend, hend.trans ?_⟩
    rw [fullSize, fullSize, Nat.ofDigitChars_append]
    exact Numeral.le_ofDigitChars _ _

end Exponent

namespace Numeral

variable {size : List Char → ℕ} {n : Numeral}

/-! ## Literals that are not long -/

theorem ofDigitChars_lt {cs : List Char} (h : ∀ c ∈ cs, c.isDigit = true) :
    Nat.ofDigitChars 10 cs 0 < 10 ^ cs.length := by
  induction cs using List.reverseRecOn with
  | nil => exact Nat.one_pos
  | append_singleton cs c ih =>
    rw [List.forall_mem_append, List.forall_mem_singleton] at h
    have hc : c.toNat ≤ 57 := of_decide_eq_true (Bool.and_eq_true_iff.mp h.2).2
    have hzero : '0'.toNat = 48 := rfl
    have := ih h.1
    rw [Nat.ofDigitChars_append, Nat.ofDigitChars_cons, Nat.ofDigitChars_nil, List.length_append,
      List.length_singleton, pow_succ]
    omega

theorem Written.isDigit {written : List Char} (h : n.Written written) :
    ∀ c ∈ n.whole ++ n.fraction, c.isDigit = true := by
  obtain ⟨_, hwhole, hfraction, -⟩ := h
  refine List.forall_mem_append.mpr ⟨hwhole.isDigit, ?_⟩
  cases hfraction with
  | none => simp
  | some hdigits => exact hdigits.isDigit

/-- With up to 65000 digits on either side of the point an exponent of `Exponent.enough` decides
what a literal is rounded to, and larger ones make no difference. -/
private theorem magnitudeOfDecimal_of_enough {written : List Char} (hwritten : n.Written written)
    (hwhole : n.whole.length ≤ 65000) (hfraction : n.fraction.length ≤ 65000) {e : Exponent}
    (he : n.exponent = some e) (hsize : Exponent.enough ≤ size e.digits) :
    Binary64.magnitudeOfDecimal (n.decimalWith size)
      = if (n.decimalWith size).digits = 0 ∨ e.sign = some .minus then 0
        else Binary64.infinity := by
  have hscale : (n.decimalWith size).scale = exponentWith size e - n.fraction.length := by
    rw [decimalWith, he]
    rfl
  rw [Exponent.enough] at hsize
  rcases eq_or_ne (n.decimalWith size).digits 0 with hzero | hzero
  · rw [if_pos (Or.inl hzero), Binary64.magnitudeOfDecimal, if_pos hzero]
  rcases eq_or_ne e.sign (some .minus) with hsign | hsign
  · rw [if_pos (Or.inr hsign)]
    refine Binary64.magnitudeOfDecimal_eq_zero ?_
    have hdigits : ((n.decimalWith size).digits : ℚ)
        ≤ 10 ^ ((n.whole.length + n.fraction.length : ℕ) : ℤ) := by
      rw [zpow_natCast, ← List.length_append]
      exact_mod_cast (ofDigitChars_lt hwritten.isDigit).le
    rw [exponentWith, if_pos hsign] at hscale
    calc (n.decimalWith size).value
        ≤ 10 ^ ((n.whole.length + n.fraction.length : ℕ) : ℤ) * 10 ^ (n.decimalWith size).scale :=
          mul_le_mul_of_nonneg_right hdigits (by positivity)
      _ ≤ 10 ^ (-325 : ℤ) := by
          rw [← zpow_add₀ (by norm_num)]
          exact zpow_le_zpow_right₀ (by norm_num) (by push_cast; omega)
  · rw [exponentWith, if_neg hsign] at hscale
    rw [if_neg (not_or.mpr ⟨hzero, hsign⟩), Binary64.magnitudeOfDecimal, if_neg hzero,
      if_pos (by omega)]

private theorem ReadAs.congr {size' : List Char → ℕ} {element : Option Element}
    (h : n.ReadAs size element) (heq : Binary64.magnitudeOfDecimal (n.decimalWith size)
      = Binary64.magnitudeOfDecimal (n.decimalWith size')) : n.ReadAs size' element := by
  have hnearest := Binary64.nearest_magnitudeOfDecimal (n.decimalWith size)
  have hnearest' := Binary64.nearest_magnitudeOfDecimal (n.decimalWith size')
  rw [← heq] at hnearest'
  have hrange := hnearest.lt_infinity_iff.symm.trans hnearest'.lt_infinity_iff
  cases h with
  | integer hfraction hexponent hlow hhigh hvalue =>
    exact .integer hfraction hexponent hlow hhigh hvalue
  | integerOutOfRange hfraction hexponent hout => exact .integerOutOfRange hfraction hexponent hout
  | double hpart hlt hnegative hfinite hnear =>
    exact .double hpart (hrange.mp hlt) hnegative hfinite (hnear.unique hnearest ▸ hnearest')
  | doubleOutOfRange hpart hout =>
    exact .doubleOutOfRange hpart (not_lt.mp fun hlt ↦ not_lt.mpr hout (hrange.mpr hlt))

/-- A literal is read as what is written unless its exponent is `10 * Exponent.enough` or more and
there are more than 65000 digits on one side of the point. -/
theorem readAs_size_iff {written : List Char} (hwritten : n.Written written)
    (h : (∀ e ∈ n.exponent, Exponent.fullSize e.digits < 10 * Exponent.enough) ∨
      n.whole.length ≤ 65000 ∧ n.fraction.length ≤ 65000) {element : Option Element} :
    n.ReadAs Exponent.size element ↔ n.ReadAs Exponent.fullSize element := by
  have heq : Binary64.magnitudeOfDecimal (n.decimalWith Exponent.size)
      = Binary64.magnitudeOfDecimal (n.decimalWith Exponent.fullSize) := by
    cases he : n.exponent with
    | none => rw [decimalWith, decimalWith, he]; rfl
    | some e =>
      have hsame : Exponent.size e.digits = Exponent.fullSize e.digits →
          n.decimalWith Exponent.size = n.decimalWith Exponent.fullSize := fun hsize ↦ by
        rw [decimalWith, decimalWith, he, Option.map_some, Option.map_some, exponentWith,
          exponentWith, hsize]
      rcases Exponent.size_eq_fullSize_or e.digits with hsize | ⟨hsize, hfull⟩
      · rw [hsame hsize]
      rcases h with hexponent | ⟨hwhole, hfraction⟩
      · rw [hsame (size_eq_ofDigitChars (hexponent e he))]
      · rw [magnitudeOfDecimal_of_enough hwritten hwhole hfraction he hsize,
          magnitudeOfDecimal_of_enough hwritten hwhole hfraction he hfull]
        rfl
  exact ⟨fun hread ↦ hread.congr heq, fun hread ↦ hread.congr heq.symm⟩

/-! ## The text of a literal -/

/-- The mark before an exponent as a small letter. -/
def smallMark (c : Char) : Char := if c = 'E' then 'e' else c

private theorem map_smallMark {digits : List Char} (h : ∀ c ∈ digits, c.isDigit = true) :
    digits.map smallMark = digits := by
  conv_rhs => rw [← List.map_id digits]
  refine List.map_congr_left fun c hc ↦ if_neg ?_
  rintro rfl
  exact absurd (h _ hc) (by decide)

theorem text_of_written {written : List Char} (h : n.Written written) :
    n.text = written.map smallMark := by
  obtain ⟨negative, hwhole, hfraction, hexponent⟩ := h
  rw [text, List.map_append, List.map_append, List.map_append, map_smallMark hwhole.isDigit,
    List.append_assoc, List.append_assoc]
  congr 1
  · cases negative <;> rfl
  congr 1
  congr 1
  · cases hfraction with
    | none => rfl
    | @some digits hdigits =>
      obtain ⟨c, cs, rfl⟩ := List.exists_cons_of_ne_nil hdigits.ne_nil
      rw [List.map_cons, map_smallMark hdigits.isDigit]
      rfl
  · cases hexponent with
    | none => rfl
    | @some mark sign digits hmark hdigits =>
      have hsmall : smallMark mark = 'e' := by rcases hmark with rfl | rfl <;> rfl
      rw [List.map_cons, List.map_append, map_smallMark hdigits.isDigit, hsmall]
      cases sign with
      | none => rfl
      | some sign => cases sign <;> rfl

end Numeral

end TagTemplate
