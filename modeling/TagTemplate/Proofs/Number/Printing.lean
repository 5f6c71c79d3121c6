import TagTemplate.Number.Layout
import TagTemplate.Proofs.Number.Literal

/-!
# Numbers are read as they were written

What is written for an integer, or for a finite number of the binary format, is a literal that
denotes it again (`written_integerText`, `Binary64.exists_written_text`), the sign of a zero
included.

For the binary format there are two steps. The decimal that is chosen for a magnitude is one that
is read as that magnitude: the search tries its candidates with the reader, and where it finds none
it falls back on the exact value, which is nearest to itself
(`Binary64.magnitudeOfDecimal_shortest`). And each layout of a decimal is a literal of the same
value (`Binary64.exists_written_plainLayout`, `Binary64.exists_written_exponentLayout`), so the
reader gives the same magnitude for it, since it depends on the value alone. The exponent of the
second layout is short enough to be counted to its end, because the number is neither too large nor
too small to be in the format.
-/

namespace TagTemplate

/-! ## Integers -/

private theorem isDigits_toDigits (n : ℕ) : IsDigits (Nat.toDigits 10 n) :=
  ⟨Nat.toDigits_ne_nil, fun _ hc ↦ Nat.isDigit_of_mem_toDigits (by norm_num) (le_refl _) hc⟩

theorem written_integerText (size : List Char → ℕ) (value : Int64) :
    ∃ n : Numeral, n.Written (integerText value.toInt) ∧ n.Denotes size (.integer value) := by
  refine ⟨⟨value.toInt < 0, Nat.toDigits 10 value.toInt.natAbs, [], none⟩, ?_, ?_⟩
  · have hwritten := Numeral.Written.intro (value.toInt < 0)
      (isDigits_toDigits value.toInt.natAbs) .none .none
    rw [List.append_nil, List.append_nil, Numeral.signText] at hwritten
    simpa only [decide_eq_true_eq, integerText] using hwritten
  · refine .integer rfl rfl ?_
    dsimp only
    rw [Nat.ofDigitChars_ten_toDigits]
    split
    · rename_i h
      have := of_decide_eq_true h
      omega
    · rename_i h
      have := of_decide_eq_false (Bool.eq_false_iff.mpr h)
      omega

namespace Binary64

/-! ## The decimal that is chosen -/

theorem value_exactDecimal (magnitude : ℕ) : (exactDecimal magnitude).value = value magnitude := by
  rw [exactDecimal, Decimal.value, value, units]
  dsimp only
  generalize hb : binade magnitude = b
  obtain ⟨places, doublings, hplaces, hdoublings, hsum⟩ : ∃ places doublings : ℕ,
      1074 - b = places ∧ b - 1074 = doublings ∧ 1074 + doublings = b + places :=
    ⟨_, _, rfl, rfl, by omega⟩
  have hpow : (2 : ℚ) ^ 1074 * 2 ^ doublings = 2 ^ b * 2 ^ places := by
    rw [← pow_add, ← pow_add, hsum]
  have hunit : (2 : ℚ) ^ 1074 ≠ 0 := pow_ne_zero _ two_ne_zero
  have hten : (10 : ℚ) ^ places = 2 ^ places * 5 ^ places := by
    rw [← mul_pow]
    norm_num
  rw [hplaces, hdoublings, zpow_neg, zpow_natCast, hten, Nat.pow_eq, Nat.pow_eq]
  push_cast
  generalize (2 : ℚ) ^ 1074 = unit at hpow hunit ⊢
  calc (steps magnitude : ℚ) * 5 ^ places * 2 ^ doublings * (2 ^ places * 5 ^ places)⁻¹
      = steps magnitude * (unit * 2 ^ doublings) / (unit * 2 ^ places) := by field_simp
    _ = steps magnitude * (2 ^ b * 2 ^ places) / (unit * 2 ^ places) := by rw [hpow]
    _ = steps magnitude * 2 ^ b / unit := by field_simp

private theorem magnitudeOfDecimal_neighbour? {magnitude dropped : ℕ} {d : Decimal}
    (h : neighbour? magnitude dropped = some d) : magnitudeOfDecimal d = magnitude := by
  rw [neighbour?] at h
  rcases eq_of_pick?_eq_some h with ⟨hreads, rfl⟩ | ⟨hreads, rfl⟩ <;>
  · rw [readsAs, decide_eq_true_eq] at hreads
    exact hreads

/-- The decimal that is chosen for a finite magnitude is read as that magnitude. -/
theorem magnitudeOfDecimal_shortest {magnitude : ℕ} (h : magnitude ≤ infinity) :
    magnitudeOfDecimal (shortest magnitude) = magnitude := by
  -- Every candidate of the search has been tried with the reader, except for the exact decimal.
  have hcoarsest : ∀ dropped : ℕ, magnitudeOfDecimal (coarsest magnitude dropped) = magnitude := by
    intro dropped
    induction dropped with
    | zero => exact magnitudeOfDecimal_eq_iff.mpr (value_exactDecimal magnitude ▸ nearest_value h)
    | succ dropped ih =>
      rw [coarsest]
      cases hneighbour : neighbour? magnitude (dropped + 1) with
      | none => exact ih
      | some d => exact magnitudeOfDecimal_neighbour? hneighbour
  exact hcoarsest _

/-! ## The place of the point -/

/-- The value of digits of which the leading one counts a power of ten. -/
def valueAt (digits : List Char) (power : ℤ) : ℚ :=
  Nat.ofDigitChars 10 digits 0 * (10 : ℚ) ^ (power + 1 - digits.length)

private theorem exists_zeros (cs : List Char) : ∃ zeros : ℕ,
    cs = (cs.reverse.dropWhile (· == '0')).reverse ++ List.replicate zeros '0' := by
  refine ⟨(cs.reverse.takeWhile (· == '0')).length, ?_⟩
  have hzeros : cs.reverse.takeWhile (· == '0')
      = List.replicate (cs.reverse.takeWhile (· == '0')).length '0' :=
    List.eq_replicate_iff.mpr ⟨rfl, fun c hc ↦ by simpa using List.mem_takeWhile_imp hc⟩
  have hsplit := List.takeWhile_append_dropWhile (p := (· == '0')) (l := cs.reverse)
  calc cs = (cs.reverse.takeWhile (· == '0') ++ cs.reverse.dropWhile (· == '0')).reverse := by
        rw [hsplit, List.reverse_reverse]
    _ = _ := by rw [List.reverse_append, hzeros, List.reverse_replicate, List.length_replicate]

theorem valueAt_significantDigits (d : Decimal) :
    valueAt (significantDigits d) (leadingPower d) = d.value := by
  obtain ⟨zeros, hzeros⟩ := exists_zeros (Nat.toDigits 10 d.digits)
  rw [← significantDigits] at hzeros
  have hdigits : d.digits = Nat.ofDigitChars 10 (significantDigits d) 0 * 10 ^ zeros := by
    conv_lhs => rw [← Nat.ofDigitChars_ten_toDigits (n := d.digits), hzeros]
    rw [Nat.ofDigitChars_append, Nat.ofDigitChars_replicate_zero, Nat.mul_comm]
  have hlength := congrArg List.length hzeros
  rw [List.length_append, List.length_replicate] at hlength
  rw [valueAt, Decimal.value, leadingPower, hlength]
  conv_rhs => rw [hdigits]
  rw [Nat.cast_mul, Nat.cast_pow, mul_assoc, ← zpow_natCast, Nat.cast_ofNat,
    ← zpow_add₀ (by norm_num)]
  congr 2
  push_cast
  ring

theorem isDigits_significantDigits {d : Decimal} (h : d.digits ≠ 0) :
    IsDigits (significantDigits d) := by
  obtain ⟨zeros, hzeros⟩ := exists_zeros (Nat.toDigits 10 d.digits)
  rw [← significantDigits] at hzeros
  refine ⟨fun hnil ↦ h ?_, fun c hc ↦ ?_⟩
  · rw [hnil, List.nil_append] at hzeros
    rw [← Nat.ofDigitChars_ten_toDigits (n := d.digits), hzeros, Nat.ofDigitChars_replicate_zero,
      Nat.mul_zero]
  · refine (isDigits_toDigits d.digits).isDigit c ?_
    rw [hzeros]
    exact List.mem_append_left _ hc

theorem zpow_leadingPower_le {d : Decimal} (h : d.digits ≠ 0) :
    (10 : ℚ) ^ leadingPower d ≤ d.value ∧ d.value < 10 ^ (leadingPower d + 1) := by
  have hpos := Nat.length_toDigits_pos (b := 10) (n := d.digits)
  have hhigh : d.digits < 10 ^ (Nat.toDigits 10 d.digits).length :=
    (Nat.length_toDigits_le_iff (by norm_num) hpos).mp (le_refl _)
  have hlow : 10 ^ ((Nat.toDigits 10 d.digits).length - 1) ≤ d.digits := by
    rcases Nat.eq_zero_or_pos ((Nat.toDigits 10 d.digits).length - 1) with h0 | h1
    · rw [h0, pow_zero]
      omega
    · by_contra hlt
      rw [not_le] at hlt
      have := (Nat.length_toDigits_le_iff (b := 10) (by norm_num) h1).mpr hlt
      omega
  have hscale : (0 : ℚ) < 10 ^ d.scale := by positivity
  rw [leadingPower, Decimal.value]
  generalize (Nat.toDigits 10 d.digits).length = length at *
  constructor
  · rw [zpow_add₀ (by norm_num)]
    refine mul_le_mul_of_nonneg_right ?_ hscale.le
    rw [show (length : ℤ) - 1 = (length - 1 : ℕ) from by omega, zpow_natCast]
    exact_mod_cast hlow
  · rw [show (length : ℤ) - 1 + d.scale + 1 = length + d.scale from by ring,
      zpow_add₀ (by norm_num), zpow_natCast]
    refine mul_lt_mul_of_pos_right ?_ hscale
    exact_mod_cast hhigh

/-- The format has no number with an exponent of more than three digits. -/
theorem natAbs_leadingPower_lt {d : Decimal} (h0 : magnitudeOfDecimal d ≠ 0)
    (h1 : magnitudeOfDecimal d < infinity) : (leadingPower d).natAbs < 1000 := by
  have hnearest := nearest_magnitudeOfDecimal d
  have hdigits : d.digits ≠ 0 := by
    rintro hzero
    rw [magnitudeOfDecimal, if_pos hzero] at h0
    exact h0 rfl
  obtain ⟨hlow, hhigh⟩ := zpow_leadingPower_le hdigits
  -- Too large a value would be nearest to infinity, and too small a one to zero.
  have hupper : d.value < value infinity := by
    by_contra hle
    exact h1.ne (hnearest.unique (nearest_infinity (not_lt.mp hle)))
  have hlower : value 1 / 2 ≤ d.value := by
    by_contra hlt
    exact h0 (hnearest.unique (nearest_zero d.value_nonneg (not_le.mp hlt)))
  have hlt : leadingPower d < 310 :=
    (zpow_lt_zpow_iff_right₀ (by norm_num)).mp (hlow.trans_lt (hupper.trans_le value_infinity_le))
  have hgt : -325 < leadingPower d + 1 := by
    refine (zpow_lt_zpow_iff_right₀ (by norm_num)).mp (lt_of_le_of_lt ?_ hhigh)
    rw [show (-325 : ℤ) = -324 + -1 from rfl, zpow_add₀ (by norm_num), zpow_neg_one]
    have := le_value_one
    have : (0 : ℚ) < 10 ^ (-324 : ℤ) := by positivity
    linarith
  omega

/-! ## The two layouts -/

variable (size : List Char → ℕ) (negative : Bool) {digits : List Char} (power : ℤ)

private theorem value_decimalWith (whole fraction : List Char) (exponent : Option Exponent) :
    (Numeral.decimalWith size ⟨negative, whole, fraction, exponent⟩).value
      = Nat.ofDigitChars 10 (whole ++ fraction) 0
        * (10 : ℚ) ^ ((exponent.map (Numeral.exponentWith size)).getD 0 - fraction.length) := rfl

private theorem isDigits_zero : IsDigits ['0'] := ⟨by simp, by simp⟩

/-- Digits, a point and digits are a literal of the value that all the digits have with the point
moved back. -/
private theorem exists_written_point {whole fraction : List Char} (hwhole : IsDigits whole)
    (hfraction : IsDigits fraction) : ∃ n : Numeral,
    n.Written (Numeral.signText negative ++ (whole ++ '.' :: fraction)) ∧ n.negative = negative ∧
      (n.fraction ≠ [] ∨ n.exponent ≠ none) ∧ (n.decimalWith size).value
        = Nat.ofDigitChars 10 (whole ++ fraction) 0 * (10 : ℚ) ^ (-fraction.length : ℤ) := by
  refine ⟨⟨negative, whole, fraction, none⟩, ?_, rfl, Or.inl hfraction.ne_nil, ?_⟩
  · have hwritten := Numeral.Written.intro negative hwhole (.some hfraction) .none
    rwa [List.append_nil] at hwritten
  · rw [value_decimalWith, Option.map_none, Option.getD_none, zero_sub]

theorem exists_written_plainLayout (h : IsDigits digits) : ∃ n : Numeral,
    n.Written (Numeral.signText negative ++ plainLayout digits power) ∧ n.negative = negative ∧
      (n.fraction ≠ [] ∨ n.exponent ≠ none) ∧
      (n.decimalWith size).value = valueAt digits power := by
  rw [plainLayout]
  by_cases hpower : power < 0
  · -- Zeros between the point and the digits.
    rw [if_pos hpower]
    generalize hzeros : (-power - 1).toNat = zeros
    have hfraction : IsDigits (List.replicate zeros '0' ++ digits) :=
      ⟨List.append_ne_nil_of_right_ne_nil _ h.ne_nil,
        List.forall_mem_append.mpr ⟨isDigit_replicate zeros, h.isDigit⟩⟩
    obtain ⟨n, hwritten, hnegative, hpart, hvalue⟩ :=
      exists_written_point size negative isDigits_zero hfraction
    refine ⟨n, hwritten, hnegative, hpart, hvalue.trans ?_⟩
    rw [valueAt, Nat.ofDigitChars_append, Nat.ofDigitChars_append,
      show Nat.ofDigitChars 10 ['0'] 0 = 0 from rfl, Nat.ofDigitChars_replicate_zero, Nat.mul_zero,
      List.length_append, List.length_replicate]
    congr 2
    omega
  · rw [if_neg hpower]
    dsimp only
    generalize hbefore : power.toNat + 1 = before
    rcases Nat.lt_or_ge before digits.length with hlt | hge
    · -- The point stands among the digits.
      rw [Nat.sub_eq_zero_of_le hlt.le, List.replicate_zero, List.append_nil]
      have hwhole : IsDigits (digits.take before) := by
        refine ⟨?_, fun c hc ↦ h.isDigit c (List.mem_of_mem_take hc)⟩
        rw [Ne, List.take_eq_nil_iff, not_or]
        exact ⟨by omega, h.ne_nil⟩
      have hfraction : IsDigits (digits.drop before) :=
        ⟨by rw [Ne, List.drop_eq_nil_iff, not_le]; exact hlt,
          fun c hc ↦ h.isDigit c (List.mem_of_mem_drop hc)⟩
      rw [if_neg (by rw [List.isEmpty_iff]; exact hfraction.ne_nil)]
      obtain ⟨n, hwritten, hnegative, hpart, hvalue⟩ :=
        exists_written_point size negative hwhole hfraction
      refine ⟨n, by simpa using hwritten, hnegative, hpart, hvalue.trans ?_⟩
      rw [valueAt, List.take_append_drop, List.length_drop]
      congr 2
      omega
    · -- Zeros between the digits and the point, and one behind it.
      have hwhole : IsDigits (digits ++ List.replicate (before - digits.length) '0') :=
        ⟨List.append_ne_nil_of_left_ne_nil h.ne_nil _,
          List.forall_mem_append.mpr ⟨h.isDigit, isDigit_replicate _⟩⟩
      have hlength : (digits ++ List.replicate (before - digits.length) '0').length = before := by
        rw [List.length_append, List.length_replicate]
        omega
      rw [List.drop_of_length_le hlength.le, List.take_of_length_le hlength.le]
      obtain ⟨n, hwritten, hnegative, hpart, hvalue⟩ :=
        exists_written_point size negative hwhole isDigits_zero
      refine ⟨n, by simpa using hwritten, hnegative, hpart, hvalue.trans ?_⟩
      have hexponent : power + 1 - (digits.length : ℤ) = (before - digits.length : ℕ) := by omega
      rw [valueAt, Nat.ofDigitChars_append, Nat.ofDigitChars_append,
        Nat.ofDigitChars_replicate_zero, Nat.ofDigitChars_cons, Nat.ofDigitChars_nil, hexponent,
        zpow_natCast]
      simp
      ring

theorem exists_written_exponentLayout (h : IsDigits digits)
    (hsize : size (Nat.toDigits 10 power.natAbs) = power.natAbs) : ∃ n : Numeral,
    n.Written (Numeral.signText negative ++ exponentLayout digits power) ∧ n.negative = negative ∧
      (n.fraction ≠ [] ∨ n.exponent ≠ none) ∧
      (n.decimalWith size).value = valueAt digits power := by
  obtain ⟨c, ds, rfl⟩ := List.exists_cons_of_ne_nil h.ne_nil
  have hwhole : IsDigits [c] :=
    ⟨List.cons_ne_nil _ _, by simpa using h.isDigit c List.mem_cons_self⟩
  let sign : Option ExponentSign := if power < 0 then some .minus else none
  have hexponent : Numeral.WrittenExponent (some ⟨sign, Nat.toDigits 10 power.natAbs⟩)
      ('e' :: integerText power) := by
    have hsign : (sign.map ExponentSign.text).toList = if power < 0 then ['-'] else [] := by
      dsimp only [sign]
      split <;> rfl
    rw [integerText, ← hsign]
    exact .some (Or.inl rfl) (isDigits_toDigits _)
  have hvalue : Numeral.exponentWith size ⟨sign, Nat.toDigits 10 power.natAbs⟩ = power := by
    rw [Numeral.exponentWith, hsize]
    by_cases hpower : power < 0
    · simp only [sign, if_pos hpower, if_true]
      omega
    · simp only [sign, if_neg hpower, reduceCtorEq, if_false]
      omega
  refine ⟨⟨negative, [c], ds, some ⟨sign, Nat.toDigits 10 power.natAbs⟩⟩, ?_, rfl,
    Or.inr (by simp), ?_⟩
  · have hfraction : Numeral.WrittenFraction ds (if ds = [] then [] else '.' :: ds) := by
      split
      · rename_i hnil
        rw [hnil]
        exact .none
      · rename_i hne
        exact .some ⟨hne, fun d hd ↦ h.isDigit d (List.mem_cons_of_mem _ hd)⟩
    have hwritten := Numeral.Written.intro negative hwhole hfraction hexponent
    rw [exponentLayout]
    cases ds <;> simpa using hwritten
  · rw [value_decimalWith, valueAt, Option.map_some, Option.getD_some, hvalue,
      List.singleton_append, List.length_cons]
    congr 2
    push_cast
    ring

/-! ## All finite numbers -/

/-- **Printed numbers are read back.** A finite number is written as a literal that denotes it. -/
theorem exists_written_text {x : Binary64} (h : x.isFinite = true) :
    ∃ n : Numeral, n.Written x.text ∧ n.Denotes Exponent.size (.double x) := by
  rw [isFinite, decide_eq_true_eq] at h
  have hnan : x.isNaN = false := decide_eq_false (by omega)
  -- The sign is written and read apart from the magnitude.
  suffices hmagnitude : ∃ n : Numeral,
      n.Written (Numeral.signText x.negative ++ magnitudeText x.magnitude) ∧
        n.negative = x.negative ∧ (n.fraction ≠ [] ∨ n.exponent ≠ none) ∧
        Nearest x.magnitude (n.decimalWith Exponent.size).value by
    obtain ⟨n, hwritten, hnegative, hpart, hnearest⟩ := hmagnitude
    refine ⟨n, ?_, .double hpart hnegative.symm (decide_eq_true h) hnearest⟩
    rwa [text, hnan, if_neg (by decide), ← Numeral.signText]
  rw [magnitudeText, if_neg h.ne]
  by_cases hzero : x.magnitude = 0
  · rw [if_pos hzero, hzero]
    obtain ⟨n, hwritten, hnegative, hpart, hvalue⟩ :=
      exists_written_point Exponent.size x.negative isDigits_zero isDigits_zero
    refine ⟨n, hwritten, hnegative, hpart, ?_⟩
    rw [hvalue, show Nat.ofDigitChars 10 (['0'] ++ ['0']) 0 = 0 from rfl, Nat.cast_zero, zero_mul,
      ← value_zero]
    exact nearest_value (Nat.zero_le _)
  · rw [if_neg hzero, layout]
    have hread := magnitudeOfDecimal_shortest h.le
    have hdigits : (shortest x.magnitude).digits ≠ 0 := by
      intro h0
      rw [magnitudeOfDecimal, if_pos h0] at hread
      exact hzero hread.symm
    have hpower := natAbs_leadingPower_lt (d := shortest x.magnitude) (by rwa [hread])
      (by rwa [hread])
    have hnearest : Nearest x.magnitude (shortest x.magnitude).value :=
      magnitudeOfDecimal_eq_iff.mp hread
    rw [← valueAt_significantDigits] at hnearest
    have hsignificant := isDigits_significantDigits hdigits
    split
    · obtain ⟨n, hwritten, hnegative, hpart, hvalue⟩ := exists_written_plainLayout Exponent.size
        x.negative (leadingPower (shortest x.magnitude)) hsignificant
      exact ⟨n, hwritten, hnegative, hpart, hvalue ▸ hnearest⟩
    · -- Three digits of an exponent are few enough to be counted in full.
      have hsize : Exponent.size (Nat.toDigits 10 (leadingPower (shortest x.magnitude)).natAbs)
          = (leadingPower (shortest x.magnitude)).natAbs := by
        rw [Numeral.size_eq_ofDigitChars, Nat.ofDigitChars_ten_toDigits]
        rw [Nat.ofDigitChars_ten_toDigits, Exponent.enough]
        omega
      obtain ⟨n, hwritten, hnegative, hpart, hvalue⟩ := exists_written_exponentLayout Exponent.size
        x.negative _ hsignificant hsize
      exact ⟨n, hwritten, hnegative, hpart, hvalue ▸ hnearest⟩

end Binary64

end TagTemplate
