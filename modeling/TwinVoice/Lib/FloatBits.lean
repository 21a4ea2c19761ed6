import TwinVoice.Lib.FloatFormat

/-! # The bits of a number

An interchange format lays a number of a binary format out as a sign, a biased
exponent and a fraction. Whatever the format represents comes back from its
bits; a number that is none has one layout of many. -/

namespace TwinVoice.Lib

/-- A format whose exponents fill a field of bits, the largest value of which marks what is not finite. -/
structure Interchange extends FloatFormat where
  exponentBits : Nat
  fractional : 2 ≤ precision
  wide : minExp + precision ≤ maxExp
  fills : maxExp - precision - minExp + 3 = 2 ^ exponentBits

def single : Interchange where
  toFloatFormat := binary32
  exponentBits := 8
  fractional := by decide
  wide := by decide
  fills := by decide

namespace Interchange
variable (f : Interchange)

def fractionBits : Nat := f.precision - 1

/-- The bits below the sign. -/
def magnitudeWidth : Nat := f.exponentBits + f.fractionBits

/-- The number of units of the last place. -/
def units (x : ℚ≥0) : Nat := ⌊x / unit (f.lastPlace x)⌋₊

def magnitudeBits (x : ℚ≥0) : Nat :=
  if x = 0 then 0 else (f.lastPlace x - f.minExp).toNat * 2 ^ f.fractionBits + f.units x

def bits : Number → Nat
  | .nan => (2 ^ f.exponentBits - 1) * 2 ^ f.fractionBits + 2 ^ (f.fractionBits - 1)
  | .infinite negative => negative.toNat * 2 ^ f.magnitudeWidth + (2 ^ f.exponentBits - 1) * 2 ^ f.fractionBits
  | .finite negative x => negative.toNat * 2 ^ f.magnitudeWidth + f.magnitudeBits x

/-- The number that the bits below the sign stand for. -/
def ofMagnitudeBits (negative : Bool) (b : Nat) : Number :=
  let exponent := b / 2 ^ f.fractionBits
  let fraction := b % 2 ^ f.fractionBits
  if exponent = 2 ^ f.exponentBits - 1 then if fraction = 0 then .infinite negative else .nan
  else if exponent = 0 then .finite negative (fraction * unit f.minExp)
  else .finite negative ((2 ^ f.fractionBits + fraction : Nat) * unit (f.minExp + (exponent - 1 : Nat)))

def ofBits (b : Nat) : Number := f.ofMagnitudeBits (b / 2 ^ f.magnitudeWidth % 2 = 1) (b % 2 ^ f.magnitudeWidth)

theorem two_le_exponents : 2 ≤ 2 ^ f.exponentBits := by
  have hwide := f.wide
  have hfills := f.fills
  have hcast : (2 : Int) ≤ ((2 ^ f.exponentBits : Nat) : Int) := by
    push_cast
    omega
  exact_mod_cast hcast

/-- A sign and the bits below it are told apart. -/
theorem ofBits_signed (negative : Bool) {b : Nat} (hb : b < 2 ^ f.magnitudeWidth) :
    f.ofBits (negative.toNat * 2 ^ f.magnitudeWidth + b) = f.ofMagnitudeBits negative b := by
  have hpos : 0 < 2 ^ f.magnitudeWidth := Nat.two_pow_pos _
  have hdiv : (negative.toNat * 2 ^ f.magnitudeWidth + b) / 2 ^ f.magnitudeWidth = negative.toNat := by
    rw [Nat.add_comm, Nat.add_mul_div_right _ _ hpos, Nat.div_eq_of_lt hb, Nat.zero_add]
  have hmod : (negative.toNat * 2 ^ f.magnitudeWidth + b) % 2 ^ f.magnitudeWidth = b := by
    rw [Nat.add_comm, Nat.add_mul_mod_self_right, Nat.mod_eq_of_lt hb]
  rw [ofBits, hdiv, hmod]
  cases negative <;> rfl

/-- An exponent and a fraction are told apart. -/
theorem fields (exponent : Nat) {fraction : Nat} (hfraction : fraction < 2 ^ f.fractionBits) :
    (exponent * 2 ^ f.fractionBits + fraction) / 2 ^ f.fractionBits = exponent ∧
      (exponent * 2 ^ f.fractionBits + fraction) % 2 ^ f.fractionBits = fraction := by
  have hpos : 0 < 2 ^ f.fractionBits := Nat.two_pow_pos _
  constructor
  · rw [Nat.add_comm, Nat.add_mul_div_right _ _ hpos, Nat.div_eq_of_lt hfraction, Nat.zero_add]
  · rw [Nat.add_comm, Nat.add_mul_mod_self_right, Nat.mod_eq_of_lt hfraction]

theorem fields_lt {exponent fraction : Nat} (hexponent : exponent < 2 ^ f.exponentBits)
    (hfraction : fraction < 2 ^ f.fractionBits) :
    exponent * 2 ^ f.fractionBits + fraction < 2 ^ f.magnitudeWidth := by
  calc exponent * 2 ^ f.fractionBits + fraction < (exponent + 1) * 2 ^ f.fractionBits := by
        rw [Nat.add_mul, Nat.one_mul]
        exact Nat.add_lt_add_left hfraction _
    _ ≤ 2 ^ f.exponentBits * 2 ^ f.fractionBits := Nat.mul_le_mul_right _ hexponent
    _ = 2 ^ f.magnitudeWidth := (Nat.pow_add _ _ _).symm

/-! ## Finite numbers -/

section
variable {f} {x : ℚ≥0}

/-- A magnitude of the format is its units of the last place. -/
theorem units_mul (hround : f.roundMagnitude x = x) : (f.units x : ℚ≥0) * 2 ^ f.lastPlace x = x := by
  have hunit : (2 : ℚ≥0) ^ f.lastPlace x ≠ 0 := zpow_ne_zero _ two_ne_zero
  have hwhole : x / 2 ^ f.lastPlace x = (roundToEven (x / 2 ^ f.lastPlace x) : ℚ≥0) := by
    rw [div_eq_iff hunit]
    exact hround.symm
  rw [units, unit, hwhole, Nat.floor_natCast, ← hwhole, div_mul_cancel₀ _ hunit]

theorem units_lt (hround : f.roundMagnitude x = x) : f.units x < 2 ^ f.precision := by
  have hunit : (0 : ℚ≥0) < 2 ^ f.lastPlace x := zpow_pos two_pos _
  have hplace : Int.log 2 x - (f.precision - 1) ≤ f.lastPlace x := le_max_left _ _
  have hlt : (f.units x : ℚ≥0) * 2 ^ f.lastPlace x < (2 ^ f.precision : Nat) * 2 ^ f.lastPlace x := by
    rw [units_mul hround]
    calc x < 2 ^ (Int.log 2 x + 1) := by exact_mod_cast Int.lt_zpow_succ_log_self (by decide) x
      _ ≤ 2 ^ ((f.precision : Int) + f.lastPlace x) := zpow_le_zpow_right₀ one_le_two (by omega)
      _ = ((2 ^ f.precision : Nat) : ℚ≥0) * 2 ^ f.lastPlace x := by
          rw [zpow_add₀ two_ne_zero, zpow_natCast]
          push_cast
          rfl
  exact_mod_cast lt_of_mul_lt_mul_right hlt hunit.le

/-- Above the least exponent the leading bit is set. -/
theorem le_units (hx : x ≠ 0) (hround : f.roundMagnitude x = x) (hplace : f.minExp < f.lastPlace x) :
    2 ^ f.fractionBits ≤ f.units x := by
  have hunit : (0 : ℚ≥0) < 2 ^ f.lastPlace x := zpow_pos two_pos _
  have hpos : 0 < x := pos_iff_ne_zero.mpr hx
  have hp := f.fractional
  have hlog : ((f.fractionBits : Nat) : Int) + f.lastPlace x = Int.log 2 x := by
    unfold FloatFormat.lastPlace fractionBits at *
    omega
  have hle : ((2 ^ f.fractionBits : Nat) : ℚ≥0) * 2 ^ f.lastPlace x ≤ (f.units x : ℚ≥0) * 2 ^ f.lastPlace x := by
    rw [units_mul hround]
    calc ((2 ^ f.fractionBits : Nat) : ℚ≥0) * 2 ^ f.lastPlace x
        = 2 ^ (((f.fractionBits : Nat) : Int) + f.lastPlace x) := by
          rw [zpow_add₀ two_ne_zero, zpow_natCast]
          push_cast
          rfl
      _ = 2 ^ Int.log 2 x := by rw [hlog]
      _ ≤ x := by exact_mod_cast Int.zpow_log_le_self (by decide) hpos
  exact_mod_cast le_of_mul_le_mul_right hle hunit

/-- A magnitude below the bound of the format has an exponent below the largest one. -/
theorem lastPlace_le (hx : x ≠ 0) (hbound : x < 2 ^ f.maxExp) : f.lastPlace x ≤ f.maxExp - f.precision := by
  have hpos : 0 < x := pos_iff_ne_zero.mpr hx
  have hlog : Int.log 2 x < f.maxExp := (Int.lt_zpow_iff_log_lt (by decide) hpos).mp (by exact_mod_cast hbound)
  have hwide := f.wide
  unfold FloatFormat.lastPlace
  omega

end

theorem ofMagnitudeBits_of_small (negative : Bool) {fraction : Nat} (hfraction : fraction < 2 ^ f.fractionBits) :
    f.ofMagnitudeBits negative fraction = .finite negative (fraction * 2 ^ f.minExp) := by
  obtain ⟨hexponent, hrest⟩ := f.fields 0 hfraction
  have hlargest := f.two_le_exponents
  have hne : 0 ≠ 2 ^ f.exponentBits - 1 := by omega
  rw [Nat.zero_mul, Nat.zero_add] at hexponent hrest
  unfold ofMagnitudeBits
  simp only [hexponent, hrest]
  rw [if_neg hne]
  rfl

theorem ofMagnitudeBits_of_normal (negative : Bool) {k fraction : Nat} (hk : k + 1 < 2 ^ f.exponentBits - 1)
    (hfraction : fraction < 2 ^ f.fractionBits) :
    f.ofMagnitudeBits negative ((k + 1) * 2 ^ f.fractionBits + fraction) =
      .finite negative ((2 ^ f.fractionBits + fraction : Nat) * 2 ^ (f.minExp + k)) := by
  obtain ⟨hexponent, hrest⟩ := f.fields (k + 1) hfraction
  unfold ofMagnitudeBits
  simp only [hexponent, hrest]
  rw [if_neg hk.ne, if_neg (Nat.succ_ne_zero k)]
  rfl

/-- A magnitude of the format comes back from its bits. -/
theorem magnitudeBits_spec (negative : Bool) {x : ℚ≥0} (hround : f.roundMagnitude x = x) (hbound : x < 2 ^ f.maxExp) :
    f.magnitudeBits x < 2 ^ f.magnitudeWidth ∧
      f.ofMagnitudeBits negative (f.magnitudeBits x) = .finite negative x := by
  have hlargest := f.two_le_exponents
  have hunits := units_mul hround
  by_cases hx : x = 0
  · have hzero : f.magnitudeBits x = 0 := if_pos hx
    rw [hzero, f.ofMagnitudeBits_of_small negative (Nat.two_pow_pos _), hx]
    exact ⟨Nat.two_pow_pos _, by simp⟩
  have hbits : f.magnitudeBits x = (f.lastPlace x - f.minExp).toNat * 2 ^ f.fractionBits + f.units x := if_neg hx
  have hleast : f.minExp ≤ f.lastPlace x := le_max_right _ _
  rcases Nat.lt_or_ge (f.units x) (2 ^ f.fractionBits) with hsmall | hnormal
  · -- the leading bit is not set, so the exponent is the least one
    have hplace : f.lastPlace x = f.minExp :=
      le_antisymm (not_lt.mp fun hlt => absurd hsmall (not_lt.mpr (le_units hx hround hlt))) hleast
    have hsame : f.magnitudeBits x = f.units x := by rw [hbits, hplace, sub_self, Int.toNat_zero, Nat.zero_mul, Nat.zero_add]
    rw [hsame, f.ofMagnitudeBits_of_small negative hsmall, ← hplace, hunits]
    exact ⟨hsmall.trans_le (Nat.pow_le_pow_right two_pos (Nat.le_add_left _ _)), rfl⟩
  · have hplace := lastPlace_le hx hbound
    have hlt := units_lt hround
    obtain ⟨fraction, hfraction⟩ := Nat.exists_eq_add_of_le hnormal
    obtain ⟨k, hk⟩ := Int.eq_ofNat_of_zero_le (sub_nonneg.mpr hleast)
    have hfits : k + 1 < 2 ^ f.exponentBits - 1 := by
      have hfills := f.fills
      have hcast : (k : Int) + 3 ≤ ((2 ^ f.exponentBits : Nat) : Int) := by
        push_cast
        omega
      have hnat : k + 3 ≤ 2 ^ f.exponentBits := by exact_mod_cast hcast
      omega
    have hshort : fraction < 2 ^ f.fractionBits := by
      have hdouble : 2 ^ f.precision = 2 ^ f.fractionBits + 2 ^ f.fractionBits := by
        have hp : f.precision = f.fractionBits + 1 := (Nat.sub_add_cancel f.precise).symm
        rw [hp, Nat.pow_succ, Nat.mul_two]
      omega
    have hnumber : f.magnitudeBits x = (k + 1) * 2 ^ f.fractionBits + fraction := by
      rw [hbits, hk, Int.toNat_natCast, hfraction, Nat.add_mul, Nat.one_mul, Nat.add_assoc]
    have hexponent : f.minExp + k = f.lastPlace x := by omega
    rw [hnumber, f.ofMagnitudeBits_of_normal negative hfits hshort, ← hfraction, hexponent, hunits]
    exact ⟨f.fields_lt (by omega) hshort, rfl⟩

/-! ## All numbers -/

theorem round_finite {negative : Bool} {x : ℚ≥0} (h : f.round (.finite negative x) = .finite negative x) :
    f.roundMagnitude x = x ∧ x < 2 ^ f.maxExp := by
  rw [FloatFormat.round] at h
  split at h
  · cases h
  · rename_i hbig
    injection h with _ hround
    rw [hround] at hbig
    exact ⟨hround, not_le.mp hbig⟩

/-- What the format represents comes back from its bits. -/
theorem ofBits_bits {x : Number} (h : f.round x = x) : f.ofBits (f.bits x) = x ∧ f.bits x < 2 ^ (f.magnitudeWidth + 1) := by
  have hlargest := f.two_le_exponents
  have hmark : 2 ^ f.exponentBits - 1 < 2 ^ f.exponentBits := by omega
  have hsigned : ∀ (negative : Bool) {b : Nat}, b < 2 ^ f.magnitudeWidth →
      negative.toNat * 2 ^ f.magnitudeWidth + b < 2 ^ (f.magnitudeWidth + 1) := by
    intro negative b hb
    rw [Nat.pow_succ, Nat.mul_two]
    cases negative <;> simp <;> omega
  cases x with
  | nan =>
    have hquiet : 2 ^ (f.fractionBits - 1) < 2 ^ f.fractionBits :=
      Nat.pow_lt_pow_right one_lt_two (by have hp := f.fractional; unfold fractionBits; omega)
    have hlt := f.fields_lt hmark hquiet
    obtain ⟨hexponent, hfraction⟩ := f.fields (2 ^ f.exponentBits - 1) hquiet
    have hbits : f.bits .nan = false.toNat * 2 ^ f.magnitudeWidth +
        ((2 ^ f.exponentBits - 1) * 2 ^ f.fractionBits + 2 ^ (f.fractionBits - 1)) := by
      simp [bits]
    rw [hbits]
    refine ⟨?_, hsigned false hlt⟩
    rw [f.ofBits_signed false hlt, ofMagnitudeBits]
    simp only [hexponent, hfraction]
    rw [if_pos trivial, if_neg (Nat.two_pow_pos _).ne']
  | infinite negative =>
    have hlt := f.fields_lt hmark (Nat.two_pow_pos f.fractionBits)
    obtain ⟨hexponent, hfraction⟩ := f.fields (2 ^ f.exponentBits - 1) (Nat.two_pow_pos f.fractionBits)
    rw [Nat.add_zero] at hlt hexponent hfraction
    refine ⟨?_, hsigned negative hlt⟩
    rw [bits, f.ofBits_signed negative hlt, ofMagnitudeBits]
    simp only [hexponent, hfraction]
    rw [if_pos trivial, if_pos trivial]
  | finite negative x =>
    obtain ⟨hround, hbound⟩ := f.round_finite h
    obtain ⟨hlt, hnumber⟩ := f.magnitudeBits_spec negative hround hbound
    exact ⟨(f.ofBits_signed negative hlt).trans hnumber, hsigned negative hlt⟩

end Interchange

end TwinVoice.Lib
