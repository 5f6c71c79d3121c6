/-!
# The 64-bit binary format

A `Binary64` is a number of the IEEE 754 format of 64 bits: a sign, and a magnitude of 63 bits in
which the exponent stands above the fraction. Read as a natural number the magnitude orders the
values: zero is least, each step up is the next representable number, then comes infinity, and
what lies above is not a number. All arithmetic here is on that natural number. The finite
magnitudes are multiples of one smallest unit, 2 ^ (-1074): neighbours are `2 ^ binade` units
apart, and a magnitude is worth `steps` of those distances.

Two notions of sameness matter. `=` tells all bit patterns apart; `Binary64.equal` is the
comparison of the format, for which the two zeros agree and nothing agrees with what is not a
number.
-/

namespace TagTemplate

/-- The place value of the sign bit, two to the 63rd. -/
def Binary64.signPlace : Nat := 0x8000000000000000

/-- How many magnitudes have one exponent, two to the 52nd. -/
def Binary64.binadeSize : Nat := 0x10000000000000

/-- A number of the IEEE 754 binary format of 64 bits. -/
@[ext] structure Binary64 where
  /-- Whether the sign bit is set. -/
  negative : Bool
  /-- The exponent and fraction fields as one number. -/
  magnitude : Nat
  /-- They have 63 bits. -/
  magnitude_lt : magnitude < Binary64.signPlace
deriving DecidableEq, Repr

namespace Binary64

/-! ## Bits -/

/-- The number with the given bit pattern. -/
def ofBits (bits : UInt64) : Binary64 where
  negative := signPlace ≤ bits.toNat
  magnitude := bits.toNat % signPlace
  magnitude_lt := Nat.mod_lt _ (by decide)

/-- The bit pattern of a number. -/
def toBits (x : Binary64) : UInt64 :=
  .ofNat ((if x.negative then signPlace else 0) + x.magnitude)

@[simp] theorem ofBits_toBits (x : Binary64) : ofBits x.toBits = x := by
  obtain ⟨negative, magnitude, h⟩ := x
  simp only [signPlace] at h
  ext1 <;> cases negative <;> simp [ofBits, toBits, signPlace] <;> omega

@[simp] theorem toBits_ofBits (bits : UInt64) : (ofBits bits).toBits = bits := by
  have h := bits.toNat_lt
  rw [← UInt64.toNat_inj]
  by_cases hs : signPlace ≤ bits.toNat
  · simp [ofBits, toBits, hs]
    simp only [signPlace] at hs ⊢
    omega
  · simp [ofBits, toBits, hs]
    simp only [signPlace] at hs ⊢
    omega

/-! ## Kinds of numbers -/

/-- The magnitude of infinity: the exponent field is full and the fraction empty. -/
def infinity : Nat := 2047 * binadeSize

theorem infinity_lt_signPlace : infinity < signPlace := by decide

/-- Neither infinite nor without a value. -/
def isFinite (x : Binary64) : Bool := x.magnitude < infinity

/-- Not a number. -/
def isNaN (x : Binary64) : Bool := infinity < x.magnitude

/-- The comparison of the format: the two zeros are equal, and what is not a number is equal to
nothing. -/
def equal (x y : Binary64) : Bool :=
  !x.isNaN && (x == y || (x.magnitude == 0 && y.magnitude == 0))

/-! ## Values -/

/-- How many times the smallest unit is doubled between neighbours at a magnitude. -/
def binade (magnitude : Nat) : Nat := magnitude / binadeSize - 1

/-- How many steps between neighbours a finite magnitude amounts to. -/
def steps (magnitude : Nat) : Nat := magnitude - binade magnitude * binadeSize

end Binary64

end TagTemplate
