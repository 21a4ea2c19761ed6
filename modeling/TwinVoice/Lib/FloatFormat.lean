import Mathlib.Data.Int.Log
import Mathlib.Data.NNRat.Floor
import Mathlib.Tactic.Ring

/-! # Binary floating-point formats

A number is a sign and a magnitude, an infinity or not a number. A format has
a precision, a least exponent and a bound; it rounds a number to the nearest
it can represent, ties to even. What a format represents is a fixed point of
its rounding, so a value of a format carries the proof that it is one, and
converting to a format that represents at least as much changes nothing. -/

namespace TwinVoice.Lib

inductive Number
  | nan
  | infinite (negative : Bool)
  | finite (negative : Bool) (magnitude : ℚ≥0)
  deriving DecidableEq

/-- Significands of at most `precision` bits, units from `2 ^ minExp` on,
magnitudes below `2 ^ maxExp`. -/
structure FloatFormat where
  precision : Nat
  minExp : Int
  maxExp : Int
  precise : 0 < precision

def binary32 : FloatFormat := ⟨24, -149, 128, by decide⟩

def binary64 : FloatFormat := ⟨53, -1074, 1024, by decide⟩

/-- The nearest natural number, ties to even. -/
def roundToEven (x : ℚ≥0) : Nat :=
  let below := ⌊x⌋₊
  if 2 * x < 2 * below + 1 then below
  else if 2 * (below : ℚ≥0) + 1 < 2 * x then below + 1
  else if below % 2 = 0 then below
  else below + 1

theorem roundToEven_natCast (n : Nat) : roundToEven n = n := by
  have hlt : 2 * (n : ℚ≥0) < 2 * n + 1 := lt_add_one _
  simp [roundToEven, hlt]

theorem roundToEven_le {x : ℚ≥0} {n : Nat} (h : x ≤ n) : roundToEven x ≤ n := by
  have hfloor : ⌊x⌋₊ ≤ n := Nat.floor_le_of_le h
  rcases Nat.lt_or_eq_of_le hfloor with hlt | heq
  · unfold roundToEven
    dsimp only
    split
    · omega
    · split
      · omega
      · split <;> omega
  · have hx : x = n := le_antisymm h (heq ▸ Nat.floor_le zero_le)
    rw [hx, roundToEven_natCast]

/-- The unit of an exponent. -/
def unit (e : Int) : ℚ≥0 := 2 ^ e

namespace FloatFormat
variable (f : FloatFormat)

/-- The exponent of the last place of a magnitude. -/
def lastPlace (x : ℚ≥0) : Int := max (Int.log 2 x - (f.precision - 1)) f.minExp

/-- The magnitude rounded to the last place. -/
def roundMagnitude (x : ℚ≥0) : ℚ≥0 :=
  roundToEven (x / 2 ^ f.lastPlace x) * 2 ^ f.lastPlace x

def round : Number → Number
  | .nan => .nan
  | .infinite negative => .infinite negative
  | .finite negative x =>
    if 2 ^ f.maxExp ≤ f.roundMagnitude x then .infinite negative
    else .finite negative (f.roundMagnitude x)

/-- A whole number of units of the last place is not rounded. -/
theorem roundMagnitude_of_lastPlace_le {x : ℚ≥0} {n : Nat} {e : Int} (hx : x = n * 2 ^ e)
    (he : f.lastPlace x ≤ e) : f.roundMagnitude x = x := by
  obtain ⟨k, hk⟩ := Int.eq_ofNat_of_zero_le (Int.sub_nonneg.mpr he)
  have hunit : (2 : ℚ≥0) ^ f.lastPlace x ≠ 0 := zpow_ne_zero _ two_ne_zero
  have hwhole : x / 2 ^ f.lastPlace x = ((n * 2 ^ k : Nat) : ℚ≥0) := by
    rw [div_eq_iff hunit]
    calc x = n * 2 ^ e := hx
      _ = n * (2 ^ (k : Int) * 2 ^ f.lastPlace x) := by
          rw [← zpow_add₀ two_ne_zero]
          congr 2
          omega
      _ = ((n * 2 ^ k : Nat) : ℚ≥0) * 2 ^ f.lastPlace x := by
          push_cast
          rw [zpow_natCast]
          ring
  rw [roundMagnitude, hwhole, roundToEven_natCast, ← hwhole, div_mul_cancel₀ _ hunit]

/-- A significand and an exponent that the format has, whatever the size of the product. -/
theorem roundMagnitude_eq_self {n : Nat} {e : Int} (hn : n ≤ 2 ^ f.precision) (he : f.minExp ≤ e) :
    f.roundMagnitude (n * 2 ^ e) = n * 2 ^ e := by
  have hunit : (0 : ℚ≥0) < 2 ^ e := zpow_pos two_pos e
  rcases Nat.eq_zero_or_pos n with rfl | hpos
  · have hzero : roundToEven 0 = 0 := by simpa using roundToEven_natCast 0
    simp [roundMagnitude, hzero]
  · have hy : (0 : ℚ≥0) < n * 2 ^ e := mul_pos (by exact_mod_cast hpos) hunit
    rcases Nat.lt_or_eq_of_le hn with hlt | heq
    · -- the leading bit is below the precision
      refine f.roundMagnitude_of_lastPlace_le rfl (max_le ?_ he)
      have hless : (n : ℚ≥0) * 2 ^ e < (2 : Nat) ^ ((f.precision : Int) + e) := by
        rw [Nat.cast_ofNat, zpow_add₀ two_ne_zero, zpow_natCast]
        exact mul_lt_mul_of_pos_right (by exact_mod_cast hlt) hunit
      have hlog := (Int.lt_zpow_iff_log_lt (by decide) hy).mp hless
      omega
    · -- a power of two, which has a shorter significand one place up
      obtain ⟨p, hp⟩ := Nat.exists_eq_succ_of_ne_zero (Nat.pos_iff_ne_zero.mp f.precise)
      have hvalue : (n : ℚ≥0) * 2 ^ e = ((2 ^ p : Nat) : ℚ≥0) * 2 ^ (e + 1) := by
        rw [heq, hp, zpow_add₀ two_ne_zero, pow_succ]
        push_cast
        ring
      have hpower : (n : ℚ≥0) * 2 ^ e = (2 : Nat) ^ ((f.precision : Int) + e) := by
        rw [heq, Nat.cast_ofNat, zpow_add₀ two_ne_zero, zpow_natCast]
        push_cast
        rfl
      refine f.roundMagnitude_of_lastPlace_le hvalue (max_le ?_ (by omega))
      rw [hpower, Int.log_zpow (by decide)]
      omega

/-- What rounding gives is such a product. -/
theorem roundMagnitude_spec (x : ℚ≥0) : ∃ (n : Nat) (e : Int), n ≤ 2 ^ f.precision ∧ f.minExp ≤ e ∧
    f.roundMagnitude x = n * 2 ^ e := by
  refine ⟨_, f.lastPlace x, roundToEven_le ?_, le_max_right _ _, rfl⟩
  have hunit : (0 : ℚ≥0) < 2 ^ f.lastPlace x := zpow_pos two_pos _
  rw [div_le_iff₀ hunit]
  have hplace : Int.log 2 x - (f.precision - 1) ≤ f.lastPlace x := le_max_left _ _
  calc x ≤ 2 ^ (Int.log 2 x + 1) := by exact_mod_cast (Int.lt_zpow_succ_log_self (by decide) x).le
    _ ≤ 2 ^ ((f.precision : Int) + f.lastPlace x) := zpow_le_zpow_right₀ one_le_two (by omega)
    _ = ((2 ^ f.precision : Nat) : ℚ≥0) * 2 ^ f.lastPlace x := by
        rw [zpow_add₀ two_ne_zero, zpow_natCast]
        push_cast
        rfl

/-- Rounding does not pass a power of two. -/
theorem roundMagnitude_le {x : ℚ≥0} {k : Int} (hx : x ≤ 2 ^ k) (hk : f.minExp ≤ k) : f.roundMagnitude x ≤ 2 ^ k := by
  have hunit : (0 : ℚ≥0) < 2 ^ f.lastPlace x := zpow_pos two_pos _
  rcases eq_or_ne x 0 with rfl | hpos
  · have hzero : roundToEven 0 = 0 := by simpa using roundToEven_natCast 0
    simp [roundMagnitude, hzero]
  · have hplace : f.lastPlace x ≤ k := by
      refine max_le ?_ hk
      have hprecise := f.precise
      have hlog : Int.log 2 x ≤ k := by
        have hmono := Int.log_mono_right (b := 2) (pos_iff_ne_zero.mpr hpos) hx
        have hself : Int.log 2 ((2 : ℚ≥0) ^ k) = k := by simpa using Int.log_zpow (R := ℚ≥0) (b := 2) (by decide) k
        rwa [hself] at hmono
      omega
    obtain ⟨j, hj⟩ := Int.eq_ofNat_of_zero_le (Int.sub_nonneg.mpr hplace)
    have hsplit : (2 : ℚ≥0) ^ k = ((2 ^ j : Nat) : ℚ≥0) * 2 ^ f.lastPlace x := by
      rw [show k = (j : Int) + f.lastPlace x by omega, zpow_add₀ two_ne_zero, zpow_natCast]
      push_cast
      rfl
    have hround : roundToEven (x / 2 ^ f.lastPlace x) ≤ 2 ^ j := by
      refine roundToEven_le ?_
      rw [div_le_iff₀ hunit, ← hsplit]
      exact hx
    rw [roundMagnitude, hsplit]
    exact mul_le_mul_of_nonneg_right (by exact_mod_cast hround) hunit.le

theorem roundMagnitude_idem (x : ℚ≥0) : f.roundMagnitude (f.roundMagnitude x) = f.roundMagnitude x := by
  obtain ⟨n, e, hn, he, hx⟩ := f.roundMagnitude_spec x
  rw [hx, f.roundMagnitude_eq_self hn he]

theorem round_idem (x : Number) : f.round (f.round x) = f.round x := by
  cases x with
  | nan => rfl
  | infinite negative => rfl
  | finite negative x =>
    simp only [round]
    by_cases hbig : 2 ^ f.maxExp ≤ f.roundMagnitude x
    · simp [hbig]
    · simp [hbig, roundMagnitude_idem]

/-- The other format represents at least as much. -/
structure Within (f g : FloatFormat) : Prop where
  precision : f.precision ≤ g.precision
  minExp : g.minExp ≤ f.minExp
  maxExp : f.maxExp ≤ g.maxExp

variable {f} in
/-- What a format represents a wider one represents too. -/
theorem Within.round_eq {g : FloatFormat} (h : f.Within g) {x : Number} (hx : f.round x = x) :
    g.round x = x := by
  cases x with
  | nan => rfl
  | infinite negative => rfl
  | finite negative x =>
    simp only [round] at hx ⊢
    by_cases hbig : 2 ^ f.maxExp ≤ f.roundMagnitude x
    · rw [if_pos hbig] at hx
      cases hx
    · rw [if_neg hbig] at hx
      have hx : f.roundMagnitude x = x := by injection hx
      obtain ⟨n, e, hn, he, hvalue⟩ := f.roundMagnitude_spec x
      rw [hx] at hvalue hbig
      have hround : g.roundMagnitude x = x := by
        rw [hvalue]
        exact g.roundMagnitude_eq_self (hn.trans (Nat.pow_le_pow_right (by decide) h.precision))
          (h.minExp.trans he)
      have hless : ¬(2 : ℚ≥0) ^ g.maxExp ≤ x := fun hle =>
        hbig ((zpow_le_zpow_right₀ one_le_two h.maxExp).trans hle)
      rw [hround, if_neg hless]

end FloatFormat

/-- A value of a format. -/
structure Floating (f : FloatFormat) where
  number : Number
  exact : f.round number = number

namespace Floating
variable {f g : FloatFormat}

@[ext] theorem ext {x y : Floating f} (h : x.number = y.number) : x = y := by
  cases x
  cases y
  cases h
  rfl

def ofNumber (f : FloatFormat) (x : Number) : Floating f := ⟨f.round x, f.round_idem x⟩

/-- The nearest value of another format. -/
def convert (g : FloatFormat) (x : Floating f) : Floating g := ofNumber g x.number

def ofInt (f : FloatFormat) (n : Int) : Floating f := ofNumber f (.finite (decide (n < 0)) n.natAbs)

def isInfinite (x : Floating f) : Bool :=
  match x.number with
  | .infinite _ => true
  | _ => false

/-- An integer that is a value of the format is not rounded. -/
theorem ofInt_eq {n : Int} {x : Floating f} (h : x.number = .finite (decide (n < 0)) n.natAbs) :
    ofInt f n = x :=
  Floating.ext (by
    show f.round (.finite (decide (n < 0)) n.natAbs) = x.number
    rw [← h]
    exact x.exact)

/-- Below the largest exponent an integer is no infinity. -/
theorem isInfinite_ofInt {n : Int} {k : Nat} (hn : n.natAbs ≤ 2 ^ k) (hmin : f.minExp ≤ k)
    (hmax : (k : Int) < f.maxExp) : (ofInt f n).isInfinite = false := by
  have hx : ((n.natAbs : Nat) : ℚ≥0) ≤ 2 ^ (k : Int) := by
    rw [zpow_natCast]
    exact_mod_cast hn
  have hround := f.roundMagnitude_le hx hmin
  have hlt : ¬ (2 : ℚ≥0) ^ f.maxExp ≤ f.roundMagnitude n.natAbs :=
    not_le.mpr (lt_of_le_of_lt hround (zpow_lt_zpow_right₀ one_lt_two hmax))
  show (match f.round (.finite (decide (n < 0)) n.natAbs) with | .infinite _ => true | _ => false) = false
  rw [FloatFormat.round, if_neg hlt]

/-- An integer of the precision is not rounded. -/
theorem number_ofInt {n : Int} (hn : n.natAbs ≤ 2 ^ f.precision) (hmin : f.minExp ≤ 0)
    (hmax : (f.precision : Int) < f.maxExp) : (ofInt f n).number = .finite (decide (n < 0)) n.natAbs := by
  have hself : f.roundMagnitude n.natAbs = n.natAbs := by simpa using f.roundMagnitude_eq_self hn hmin
  have hfinite := isInfinite_ofInt (f := f) hn (by omega) hmax
  show f.round (.finite (decide (n < 0)) n.natAbs) = _
  rw [FloatFormat.round, hself, if_neg]
  intro hbig
  have hround : (ofInt f n).number = .infinite (decide (n < 0)) := by
    show f.round (.finite (decide (n < 0)) n.natAbs) = _
    rw [FloatFormat.round, hself, if_pos hbig]
  simp [isInfinite, hround] at hfinite

theorem convert_number (h : f.Within g) (x : Floating f) : (x.convert g).number = x.number :=
  h.round_eq x.exact

/-- To a wider format and back. -/
theorem convert_convert (h : f.Within g) (x : Floating f) : (x.convert g).convert f = x :=
  Floating.ext (by rw [convert, ofNumber, convert_number h]; exact x.exact)

end Floating

theorem binary32_within_binary64 : binary32.Within binary64 := ⟨by decide, by decide, by decide⟩

end TwinVoice.Lib
