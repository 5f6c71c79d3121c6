import Mathlib.Algebra.Order.Field.Power
import Mathlib.Algebra.Order.Group.Unbundled.Int
import Mathlib.Data.Nat.Log
import Mathlib.Order.Monotone.Basic
import Mathlib.Tactic.FieldSimp
import Mathlib.Tactic.Linarith
import Mathlib.Tactic.NormNum
import Mathlib.Tactic.Positivity
import Mathlib.Tactic.Ring
import TagTemplate.Number.Rounding

/-!
# Decimals are read as the nearest binary number

The reader of `Binary64.magnitudeOfDecimal` works on natural numbers and never forms a fraction.
Here its result is compared with what it stands for: `Decimal.value` and `Binary64.value` are the
rational numbers that a decimal and a magnitude mean, and `Binary64.Nearest` says that no other
magnitude is nearer to a rational number and that of two equally near ones the even one is meant.
The reader gives the nearest magnitude (`Binary64.nearest_magnitudeOfDecimal`), and there is only
one (`Binary64.Nearest.unique`), so the two together say what the reader gives for a decimal
without a word about how it finds it (`Binary64.magnitudeOfDecimal_eq_iff`).

## The grid

Counted in the smallest unit, the magnitudes from `k * binadeSize` on are the multiples of `2 ^ k`
up to `2 ^ (53 + k)`, and every later magnitude is a multiple of `2 ^ k` too. A number of at least
`2 ^ (52 + k)` units is therefore rounded as if all multiples of `2 ^ k` were magnitudes: those
below that bound which are not are further away than the bound itself. That is the whole argument
(`Binary64.abs_units_le`), and it makes no difference whether the rounding moves into the next
binade.
-/

namespace TagTemplate

/-- The number that a decimal stands for. -/
def Decimal.value (d : Decimal) : ℚ := d.digits * (10 : ℚ) ^ d.scale

theorem Decimal.value_nonneg (d : Decimal) : 0 ≤ d.value := by
  unfold value
  positivity

namespace Binary64

/-! ## Values -/

/-- A magnitude counted in the smallest unit. -/
def units (magnitude : ℕ) : ℕ := steps magnitude * 2 ^ binade magnitude

/-- The number that a magnitude stands for. Infinity counts as the power of two that comes after
the finite numbers, as it does when numbers are rounded. -/
def value (magnitude : ℕ) : ℚ := units magnitude / 2 ^ 1074

/-- The magnitude nearest to a number; of two that are equally near, the even one. -/
structure Nearest (magnitude : ℕ) (q : ℚ) : Prop where
  /-- It is finite or infinite, but it is a number. -/
  le_infinity : magnitude ≤ infinity
  /-- No magnitude is nearer. -/
  abs_le : ∀ m ≤ infinity, |value magnitude - q| ≤ |value m - q|
  /-- If another one is equally near, this one is even. -/
  even_of_tie : ∀ m ≤ infinity, m ≠ magnitude → |value magnitude - q| = |value m - q| →
    Even magnitude

/-! ## The grid of magnitudes -/

theorem units_succ (m : ℕ) : units (m + 1) = units m + 2 ^ binade m := by
  have hbin : binade m = m / 0x10000000000000 - 1 := rfl
  have hbin' : binade (m + 1) = (m + 1) / 0x10000000000000 - 1 := rfl
  by_cases h : binade (m + 1) = binade m
  · rw [units, units, h, steps, steps, h, ← Nat.succ_mul]
    congr 1
    rw [binadeSize]
    omega
  · -- The last magnitude of a binade: twice as many steps, each half as wide, lead up to the next.
    have hsucc : binade (m + 1) = binade m + 1 := by omega
    have hlast : m + 1 = (binade m + 2) * 0x10000000000000 := by omega
    have hsteps : steps m = 0x20000000000000 - 1 := by
      rw [steps, binadeSize]
      omega
    have hsteps' : steps (m + 1) = 0x10000000000000 := by
      rw [steps, hsucc, binadeSize]
      omega
    rw [units, units, hsteps, hsteps', hsucc, Nat.pow_succ]
    omega

theorem strictMono_units : StrictMono units :=
  strictMono_nat_of_lt_succ fun m ↦ by
    rw [units_succ]
    exact Nat.lt_add_of_pos_right (Nat.two_pow_pos _)

theorem strictMono_value : StrictMono value := fun m n h ↦ by
  unfold value
  exact div_lt_div_of_pos_right (Nat.cast_lt.mpr (strictMono_units h)) (by positivity)

/-- The magnitudes of one binade, its upper end included, are the multiples of its step. -/
theorem units_grid {k j : ℕ} (hlow : k = 0 ∨ 2 ^ 52 ≤ j) (hhigh : j ≤ 2 ^ 53) :
    units (k * binadeSize + j) = j * 2 ^ k := by
  rcases Nat.lt_or_eq_of_le hhigh with hlt | rfl
  · have hbin : binade (k * binadeSize + j) = k := by
      rw [binade, binadeSize]
      omega
    rw [units, steps, hbin, Nat.add_sub_cancel_left]
  · have hbin : binade (k * binadeSize + 2 ^ 53) = k + 1 := by
      rw [binade, binadeSize]
      omega
    have hsteps : k * binadeSize + 2 ^ 53 - (k + 1) * binadeSize = 2 ^ 52 := by
      rw [binadeSize]
      omega
    rw [units, steps, hbin, hsteps]
    ring

theorem lt_or_dvd_units (k m : ℕ) : units m < 2 ^ 52 * 2 ^ k ∨ 2 ^ k ∣ units m := by
  rcases Nat.lt_or_ge m (k * binadeSize + 2 ^ 52) with h | h
  · left
    rw [← units_grid (k := k) (Or.inr (le_refl (2 ^ 52))) (by norm_num)]
    exact strictMono_units h
  · right
    refine Dvd.dvd.mul_left (Nat.pow_dvd_pow 2 ?_) _
    rw [binade, binadeSize] at *
    omega

/-! ## Rounding a ratio -/

private theorem abs_halfEven_le (num : ℕ) {den : ℕ} (hden : 0 < den) (c : ℤ) :
    |(halfEven num den * den - num : ℤ)| ≤ |c * den - num| ∧
      (c ≠ halfEven num den → |(halfEven num den * den - num : ℤ)| = |c * den - num| →
        Even (halfEven num den)) := by
  have hnum : (num : ℤ) = den * (num / den : ℕ) + (num % den : ℕ) := by
    exact_mod_cast (Nat.div_add_mod num den).symm
  have hrest : num % den < den := Nat.mod_lt num hden
  rw [hnum, halfEven]
  generalize num / den = quotient
  generalize num % den = rest at hrest
  -- How far the other candidate is from the quotient, in steps of the denominator.
  obtain ⟨t, rfl⟩ : ∃ t : ℤ, c = quotient + t := ⟨c - quotient, by ring⟩
  have hc : (quotient + t) * den - (den * quotient + rest) = t * den - rest := by ring
  have hlow : (quotient : ℤ) * den - (den * quotient + rest) = -rest := by ring
  have hhigh : ((quotient + 1 : ℕ) : ℤ) * den - (den * quotient + rest) = den - rest := by
    push_cast
    ring
  have ht : t = 0 ∨ t = 1 ∨ t * den ≤ -den ∨ 2 * (den : ℤ) ≤ t * den := by
    rcases lt_trichotomy t 0 with h | h | h
    · right; right; left
      nlinarith
    · exact Or.inl h
    · rcases eq_or_lt_of_le (Int.add_one_le_iff.mpr h) with h1 | h1
      · exact Or.inr (Or.inl h1.symm)
      · right; right; right
        nlinarith
  rw [hc]
  split
  · rename_i h
    rw [hlow, abs_neg, Nat.abs_cast]
    rcases ht with rfl | rfl | ht | ht
    · refine ⟨?_, fun hne ↦ absurd (add_zero _) hne⟩
      rw [zero_mul, zero_sub, abs_neg, Nat.abs_cast]
    · rw [one_mul, abs_of_nonneg (by omega)]
      refine ⟨by omega, fun _ heq ↦ Nat.even_iff.mpr ?_⟩
      rcases h with h | h <;> omega
    · rw [abs_of_nonpos (by omega)]
      exact ⟨by omega, fun _ heq ↦ by omega⟩
    · rw [abs_of_nonneg (by omega)]
      exact ⟨by omega, fun _ heq ↦ by omega⟩
  · rename_i h
    rw [hhigh, abs_of_nonneg (by omega)]
    rcases ht with rfl | rfl | ht | ht
    · rw [zero_mul, zero_sub, abs_neg, Nat.abs_cast]
      refine ⟨by omega, fun _ heq ↦ Nat.even_iff.mpr ?_⟩
      omega
    · refine ⟨?_, fun hne ↦ absurd (by push_cast; rfl) hne⟩
      rw [one_mul, abs_of_nonneg (by omega)]
    · rw [abs_of_nonpos (by omega)]
      exact ⟨by omega, fun _ heq ↦ by omega⟩
    · rw [abs_of_nonneg (by omega)]
      exact ⟨by omega, fun _ heq ↦ by omega⟩

private theorem le_halfEven {num den a : ℕ} (hden : 0 < den) (h : a * den ≤ num) :
    a ≤ halfEven num den := by
  have := (Nat.le_div_iff_mul_le hden).mpr h
  rw [halfEven]
  split <;> omega

private theorem halfEven_le {num den b : ℕ} (hden : 0 < den) (h : num < b * den) :
    halfEven num den ≤ b := by
  have := (Nat.div_lt_iff_lt_mul hden).mpr h
  rw [halfEven]
  split <;> omega

/-- The magnitude of a ratio before it is cut off at infinity. -/
private def unboundedMagnitude (num den : ℕ) : ℕ :=
  let doublings := (num / den).log2 - 52
  doublings * binadeSize + halfEven num (den * 2 ^ doublings)

private theorem magnitudeOfRatio_eq (num den : ℕ) :
    magnitudeOfRatio num den = min infinity (unboundedMagnitude num den) := rfl

/-- A ratio lies in the binade that its doublings say, or below all others if there are none. -/
private theorem bounds_of_doublings {num den k : ℕ} (hden : 0 < den)
    (hk : (num / den).log2 - 52 = k) :
    num < 2 ^ 53 * (den * 2 ^ k) ∧ (k = 0 ∨ 2 ^ 52 * (den * 2 ^ k) ≤ num) := by
  constructor
  · have hlog : num / den < 2 ^ (53 + k) :=
      Nat.lt_of_lt_of_le Nat.lt_log2_self (Nat.pow_le_pow_right (by norm_num) (by omega))
    have := (Nat.div_lt_iff_lt_mul hden).mp hlog
    rwa [Nat.pow_add, Nat.mul_assoc, Nat.mul_comm (2 ^ k)] at this
  · rcases Nat.eq_zero_or_pos k with h0 | hpos
    · exact Or.inl h0
    · right
      have hne : num / den ≠ 0 := by
        rintro h
        rw [h, Nat.log2_zero] at hk
        omega
      have hlog : 2 ^ (52 + k) ≤ num / den := by
        rw [← hk, Nat.add_sub_of_le (by omega)]
        exact Nat.log2_self_le hne
      have := (Nat.le_div_iff_mul_le hden).mp hlog
      rwa [Nat.pow_add, Nat.mul_assoc, Nat.mul_comm (2 ^ k)] at this

/-- The rounded magnitude is nearest to the ratio among all natural numbers, taken as magnitudes
without an upper end, and a tie makes it even. -/
private theorem abs_units_le (num : ℕ) {den : ℕ} (hden : 0 < den) (m : ℕ) :
    |(units (unboundedMagnitude num den) * den - num : ℤ)| ≤ |(units m * den - num : ℤ)| ∧
      (m ≠ unboundedMagnitude num den →
        |(units (unboundedMagnitude num den) * den - num : ℤ)| = |(units m * den - num : ℤ)| →
        Even (unboundedMagnitude num den)) := by
  rw [unboundedMagnitude]
  generalize hk : (num / den).log2 - 52 = k
  have hstep : 0 < den * 2 ^ k := Nat.mul_pos hden (Nat.two_pow_pos k)
  obtain ⟨hhigh, hlow⟩ := bounds_of_doublings hden hk
  have hle := halfEven_le hstep hhigh
  have hge : k = 0 ∨ 2 ^ 52 ≤ halfEven num (den * 2 ^ k) :=
    hlow.imp_right fun h ↦ le_halfEven hstep h
  have hunits := units_grid hge hle
  have hscale : ∀ c : ℕ, ((c * 2 ^ k : ℕ) * den - num : ℤ) = (c : ℤ) * (den * 2 ^ k : ℕ) - num := by
    intro c
    push_cast
    ring
  rw [hunits, hscale]
  have hgrid := abs_halfEven_le num hstep
  have heven : Even (halfEven num (den * 2 ^ k)) →
      Even (k * binadeSize + halfEven num (den * 2 ^ k)) := fun h ↦
    (Even.mul_left (by decide) k).add h
  have hplace : 2 ^ k ∣ units m ∨ 2 ^ 52 * (den * 2 ^ k) ≤ num ∧ units m < 2 ^ 52 * 2 ^ k := by
    rcases hlow with rfl | hnum
    · exact Or.inl (one_dvd _)
    · exact (lt_or_dvd_units k m).symm.imp_right fun h ↦ ⟨hnum, h⟩
  rcases hplace with ⟨c, hc⟩ | ⟨hnum, hbelow⟩
  · rw [Nat.mul_comm] at hc
    rw [hc, hscale]
    refine ⟨(hgrid c).1, fun hne heq ↦ heven ((hgrid c).2 ?_ heq)⟩
    intro heq'
    refine hne (strictMono_units.injective ?_)
    rw [hunits, hc]
    congr 1
    exact_mod_cast heq'
  · -- Below the binade nothing is as near as its lower end, which is a multiple of the step.
    have hend := (hgrid (2 ^ 52)).1
    have hlt : units m * den < 2 ^ 52 * (den * 2 ^ k) := by
      calc units m * den < 2 ^ 52 * 2 ^ k * den := Nat.mul_lt_mul_of_pos_right hbelow hden
        _ = 2 ^ 52 * (den * 2 ^ k) := by ring
    have habs : |(2 ^ 52 : ℤ) * (den * 2 ^ k : ℕ) - num| < |(units m * den - num : ℤ)| := by
      zify at hlt hnum
      rw [abs_of_nonpos (by push_cast; linarith), abs_of_nonpos (by linarith)]
      push_cast
      linarith
    exact ⟨(hend.trans_lt habs).le, fun _ heq ↦ absurd heq (hend.trans_lt habs).ne⟩

/-! ## Uniqueness -/

private theorem value_lt_value {m n : ℕ} (h : m < n) : value m < value n := strictMono_value h

private theorem Nearest.not_lt {m n : ℕ} {q : ℚ} (hm : Nearest m q) (hn : Nearest n q) :
    ¬m < n := by
  intro hlt
  have heq : |value m - q| = |value n - q| :=
    le_antisymm (hm.abs_le n hn.le_infinity) (hn.abs_le m hm.le_infinity)
  have hmid : q - value m = value n - q := by
    rcases abs_eq_abs.mp heq with h | h
    · exact absurd (sub_left_inj.mp h) (value_lt_value hlt).ne
    · linarith
  -- Both are even, so there is a magnitude between them, and it is nearer than either.
  have hmeven := Nat.even_iff.mp (hm.even_of_tie n hn.le_infinity hlt.ne' heq)
  have hneven := Nat.even_iff.mp (hn.even_of_tie m hm.le_infinity hlt.ne heq.symm)
  have hbetween := hm.abs_le (m + 1) (by have := hn.le_infinity; omega)
  have h1 := value_lt_value (Nat.lt_succ_self m)
  have h2 := value_lt_value (show m + 1 < n by omega)
  rw [Nat.succ_eq_add_one] at h1
  have hpos : |value m - q| = q - value m := by
    rw [abs_of_nonpos (by linarith)]
    ring
  rw [hpos] at hbetween
  rcases abs_cases (value (m + 1) - q) with ⟨h, _⟩ | ⟨h, _⟩ <;> linarith

theorem Nearest.unique {m n : ℕ} {q : ℚ} (hm : Nearest m q) (hn : Nearest n q) : m = n :=
  Nat.le_antisymm (Nat.le_of_not_lt (hn.not_lt hm)) (Nat.le_of_not_lt (hm.not_lt hn))

theorem nearest_value {m : ℕ} (h : m ≤ infinity) : Nearest m (value m) where
  le_infinity := h
  abs_le n _ := by
    rw [sub_self, abs_zero]
    exact abs_nonneg _
  even_of_tie n _ hne heq := by
    rw [sub_self, abs_zero, eq_comm, abs_eq_zero, sub_eq_zero] at heq
    exact absurd (strictMono_value.injective heq) hne

/-! ## The ends of the range -/

/-- Infinity is nearest to whatever is not below it. -/
theorem nearest_infinity {q : ℚ} (h : value infinity ≤ q) : Nearest infinity q where
  le_infinity := le_refl infinity
  abs_le m hm := by
    have := strictMono_value.monotone hm
    rw [abs_of_nonpos (by linarith), abs_of_nonpos (by linarith)]
    linarith
  even_of_tie _ _ _ _ := by decide

@[simp] theorem value_zero : value 0 = 0 := by
  rw [value, units, steps, Nat.zero_sub, Nat.zero_mul, Nat.cast_zero, zero_div]

theorem nearest_zero {q : ℚ} (h0 : 0 ≤ q) (h : q < value 1 / 2) : Nearest 0 q where
  le_infinity := Nat.zero_le _
  abs_le m _ := by
    rcases Nat.eq_zero_or_pos m with rfl | hpos
    · exact le_refl _
    · have := strictMono_value.monotone (Nat.succ_le_of_lt hpos)
      rw [Nat.succ_eq_add_one, zero_add] at this
      rw [value_zero, zero_sub, abs_neg, abs_of_nonneg h0, abs_of_nonneg (by linarith)]
      linarith
  even_of_tie _ _ _ _ := Even.zero

theorem value_grid {k j : ℕ} (hlow : k = 0 ∨ 2 ^ 52 ≤ j) (hhigh : j ≤ 2 ^ 53) :
    value (k * binadeSize + j) = j * 2 ^ k / 2 ^ 1074 := by
  rw [value, units_grid hlow hhigh, Nat.cast_mul, Nat.cast_pow, Nat.cast_ofNat]

theorem value_infinity : value infinity = 2 ^ 1024 := by
  rw [show infinity = 2046 * binadeSize + 2 ^ 52 from by decide,
    value_grid (Or.inr (le_refl _)) (by norm_num), Nat.cast_pow, Nat.cast_ofNat,
    div_eq_iff (pow_ne_zero _ two_ne_zero), ← pow_add, ← pow_add]

theorem value_one : value 1 = 1 / 2 ^ 1074 := by
  rw [show 1 = 0 * binadeSize + 1 from by decide,
    value_grid (Or.inl rfl) (by norm_num), Nat.cast_one, pow_zero, mul_one]

/-! ## Reading decimals -/

private theorem nearest_magnitudeOfRatio (num : ℕ) {den : ℕ} (hden : 0 < den) {q : ℚ}
    (hq : q * 2 ^ 1074 = num / den) : Nearest (magnitudeOfRatio num den) q := by
  have hpos : (0 : ℚ) < den * 2 ^ 1074 := by positivity
  have hdist : ∀ m : ℕ, |value m - q| = (|(units m * den - num : ℤ)| : ℤ) / (den * 2 ^ 1074) := by
    intro m
    have hq' : q = num / (den * 2 ^ 1074) := by
      rw [← div_div, ← hq, mul_div_cancel_right₀]
      positivity
    rw [value, hq', Int.cast_abs, ← abs_of_pos hpos, ← abs_div, abs_of_pos hpos]
    congr 1
    push_cast
    field_simp
  have hbest : ∀ m : ℕ, |value (unboundedMagnitude num den) - q| ≤ |value m - q| ∧
      (m ≠ unboundedMagnitude num den →
        |value (unboundedMagnitude num den) - q| = |value m - q| →
        Even (unboundedMagnitude num den)) := by
    intro m
    obtain ⟨hle, htie⟩ := abs_units_le num hden m
    rw [hdist, hdist, div_le_div_iff_of_pos_right hpos, div_left_inj' hpos.ne']
    exact ⟨by exact_mod_cast hle, fun hne heq ↦ htie hne (by exact_mod_cast heq)⟩
  rw [magnitudeOfRatio_eq]
  rcases Nat.lt_or_ge infinity (unboundedMagnitude num den) with hlt | hge
  · -- Nearer to a magnitude beyond infinity than to infinity is only what lies beyond infinity.
    rw [min_eq_left hlt.le]
    refine nearest_infinity ?_
    by_contra hbelow
    rw [not_le] at hbelow
    have hle := (hbest infinity).1
    have := value_lt_value hlt
    rw [abs_of_nonneg (by linarith), abs_of_nonneg (by linarith)] at hle
    linarith
  · rw [min_eq_right hge]
    exact ⟨hge, fun m _ ↦ (hbest m).1, fun m _ ↦ (hbest m).2⟩

theorem value_infinity_le : value infinity ≤ (10 : ℚ) ^ (310 : ℤ) := by
  have hpow : (2 : ℚ) ^ 1025 ≤ 10 ^ 310 := by
    calc (2 : ℚ) ^ 1025 = (2 ^ 205) ^ 5 := by rw [← pow_mul]
      _ ≤ (10 ^ 62) ^ 5 := pow_le_pow_left₀ (by norm_num) (by norm_num) 5
      _ = 10 ^ 310 := by rw [← pow_mul]
  rw [value_infinity]
  calc (2 : ℚ) ^ 1024 ≤ 2 ^ 1025 := pow_le_pow_right₀ (by norm_num) (Nat.le_succ 1024)
    _ ≤ 10 ^ (310 : ℤ) := by exact_mod_cast hpow

theorem le_value_one : (10 : ℚ) ^ (-324 : ℤ) ≤ value 1 := by
  have hpow : (2 : ℚ) ^ 1074 ≤ 10 ^ 324 := by
    calc (2 : ℚ) ^ 1074 = (2 ^ 179) ^ 6 := by rw [← pow_mul]
      _ ≤ (10 ^ 54) ^ 6 := pow_le_pow_left₀ (by norm_num) (by norm_num) 6
      _ = 10 ^ 324 := by rw [← pow_mul]
  rw [value_one, zpow_neg, ← one_div]
  exact one_div_le_one_div_of_le (by positivity) (by exact_mod_cast hpow)

private theorem nearest_of_large_scale {d : Decimal} (h0 : d.digits ≠ 0) (h : 310 ≤ d.scale) :
    Nearest infinity d.value := by
  refine nearest_infinity (value_infinity_le.trans ?_)
  have hdigits : (1 : ℚ) ≤ d.digits := Nat.one_le_cast.mpr (Nat.one_le_iff_ne_zero.mpr h0)
  have hscale : (10 : ℚ) ^ (310 : ℤ) ≤ 10 ^ d.scale := zpow_le_zpow_right₀ (by norm_num) h
  calc (10 : ℚ) ^ (310 : ℤ) = 1 * 10 ^ (310 : ℤ) := (one_mul _).symm
    _ ≤ d.digits * 10 ^ d.scale := mul_le_mul hdigits hscale (by positivity) (by positivity)

private theorem nearest_of_small_scale {d : Decimal}
    (h : d.scale < -(325 + d.digits.log2 : ℕ)) : Nearest 0 d.value := by
  refine nearest_zero d.value_nonneg ?_
  have hdigits : (d.digits : ℚ) < 2 ^ (d.digits.log2 + 1) := by
    exact_mod_cast Nat.lt_log2_self
  have hscale : (10 : ℚ) ^ d.scale ≤ 10 ^ (-324 + -2 + -(d.digits.log2 : ℤ)) :=
    zpow_le_zpow_right₀ (by norm_num) (by push_cast at h; omega)
  have htwo : (2 : ℚ) ^ d.digits.log2 ≤ 10 ^ d.digits.log2 :=
    pow_le_pow_left₀ (by norm_num) (by norm_num) _
  have hunit : (0 : ℚ) < 10 ^ (-324 : ℤ) := by positivity
  calc d.value ≤ 2 ^ (d.digits.log2 + 1) * 10 ^ (-324 + -2 + -(d.digits.log2 : ℤ)) :=
        mul_le_mul hdigits.le hscale (by positivity) (by positivity)
    _ = 10 ^ (-324 : ℤ) * (1 / 50) * (2 ^ d.digits.log2 / 10 ^ d.digits.log2) := by
        rw [zpow_add₀ (by norm_num), zpow_add₀ (by norm_num), zpow_neg _ (d.digits.log2 : ℤ),
          zpow_natCast, pow_succ]
        ring
    _ ≤ 10 ^ (-324 : ℤ) * (1 / 50) * 1 :=
        mul_le_mul_of_nonneg_left ((div_le_one (by positivity)).mpr htwo) (by positivity)
    _ < value 1 / 2 := by
        have := le_value_one
        linarith

/-- **Correct rounding.** A decimal is read as the nearest magnitude. -/
theorem nearest_magnitudeOfDecimal (d : Decimal) : Nearest (magnitudeOfDecimal d) d.value := by
  unfold magnitudeOfDecimal
  split
  · rename_i h
    rw [Decimal.value, h, Nat.cast_zero, zero_mul, ← value_zero]
    exact nearest_value (Nat.zero_le _)
  rename_i hdigits
  split
  · exact nearest_of_large_scale hdigits ‹_›
  split
  · exact nearest_of_small_scale ‹_›
  refine nearest_magnitudeOfRatio _ (Nat.pow_pos (by norm_num)) ?_
  have hscale : d.scale = d.scale.toNat - (-d.scale).toNat := by omega
  have hpow : (10 : ℚ) ^ d.scale = 10 ^ d.scale.toNat / 10 ^ (-d.scale).toNat := by
    conv_lhs => rw [hscale]
    rw [zpow_sub₀ (by norm_num), zpow_natCast, zpow_natCast]
  simp only [Nat.pow_eq, Nat.cast_mul, Nat.cast_pow, Nat.cast_ofNat]
  rw [Decimal.value, hpow, mul_div_right_comm, mul_div_assoc]

theorem magnitudeOfDecimal_eq_iff {d : Decimal} {m : ℕ} :
    magnitudeOfDecimal d = m ↔ Nearest m d.value :=
  ⟨fun h ↦ h ▸ nearest_magnitudeOfDecimal d, fun h ↦ (nearest_magnitudeOfDecimal d).unique h⟩

end Binary64

end TagTemplate
