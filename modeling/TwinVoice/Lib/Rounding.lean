import Mathlib.Algebra.Order.Floor.Ring

/-! # Rounding to a number of decimals

The nearest integer, the even one of two that are as near, and the nearest
multiple of a decimal place. Rounding keeps the order, and what rounds to zero
is no more than half a place from it. -/

namespace TwinVoice.Lib.Rounding

variable {K : Type*} [Field K] [LinearOrder K] [FloorRing K]

/-- The nearest integer; of two the even one. -/
def roundHalfEven (x : K) : Int :=
  let n := ⌊x⌋
  if x - n < 0.5 then n
  else if 0.5 < x - n then n + 1
  else if n % 2 = 0 then n
  else n + 1

/-- `round(x, d)`. -/
def roundTo (d : Nat) (x : K) : K := roundHalfEven (x * 10 ^ d) / 10 ^ d

theorem roundHalfEven_def (x : K) : roundHalfEven x =
    if x - ⌊x⌋ < 1 / 2 then ⌊x⌋
    else if 1 / 2 < x - ⌊x⌋ then ⌊x⌋ + 1
    else if ⌊x⌋ % 2 = 0 then ⌊x⌋
    else ⌊x⌋ + 1 := by
  have hhalf : (0.5 : K) = 1 / 2 := by norm_num
  rw [roundHalfEven, hhalf]

variable [IsStrictOrderedRing K]

theorem abs_sub_roundHalfEven_le (x : K) : |x - roundHalfEven x| ≤ 1 / 2 := by
  have hlow : (⌊x⌋ : K) ≤ x := Int.floor_le x
  have hhigh : x < ⌊x⌋ + 1 := Int.lt_floor_add_one x
  rw [roundHalfEven_def]
  split
  · rw [abs_le]
    constructor <;> linarith
  · split
    · push_cast
      rw [abs_le]
      constructor <;> linarith
    · split
      · rw [abs_le]
        constructor <;> linarith
      · push_cast
        rw [abs_le]
        constructor <;> linarith

theorem sub_le_roundHalfEven (x : K) : x - 1 / 2 ≤ roundHalfEven x := by
  have := (abs_le.mp (abs_sub_roundHalfEven_le x)).2
  linarith

theorem roundHalfEven_le_add (x : K) : (roundHalfEven x : K) ≤ x + 1 / 2 := by
  have := (abs_le.mp (abs_sub_roundHalfEven_le x)).1
  linarith

/-- What is not further than one half from an even integer rounds to it. -/
theorem roundHalfEven_eq_of_even {x : K} {n : Int} (hn : n % 2 = 0) (h : |x - n| ≤ 1 / 2) : roundHalfEven x = n := by
  obtain ⟨hlow, hhigh⟩ := abs_le.mp h
  have hfloor : ⌊x⌋ = n ∨ ⌊x⌋ = n - 1 := by
    by_cases hx : (n : K) ≤ x
    · refine .inl (Int.floor_eq_iff.mpr ⟨hx, ?_⟩)
      linarith
    · refine .inr (Int.floor_eq_iff.mpr ?_)
      push_cast
      constructor <;> linarith
  rw [roundHalfEven_def]
  rcases hfloor with hfloor | hfloor
  · rw [hfloor, if_neg (by linarith : ¬ (1 : K) / 2 < x - n)]
    simp [hn]
  · rw [hfloor]
    push_cast
    rw [if_neg (by linarith : ¬ x - ((n : K) - 1) < 1 / 2)]
    split
    · omega
    · rw [if_neg (by omega)]
      omega

theorem roundTo_inj {d : Nat} {x y : K} : roundTo d x = roundTo d y ↔ roundHalfEven (x * 10 ^ d) = roundHalfEven (y * 10 ^ d) := by
  have hplace : (10 ^ d : K) ≠ 0 := pow_ne_zero d (by norm_num)
  rw [roundTo, roundTo, div_left_inj' hplace, Int.cast_inj]

theorem roundHalfEven_intCast (n : Int) : roundHalfEven (n : K) = n := by
  rw [roundHalfEven_def, Int.floor_intCast, sub_self, if_pos (by norm_num)]

theorem roundHalfEven_mono {x y : K} (h : x ≤ y) : roundHalfEven x ≤ roundHalfEven y := by
  rcases (Int.floor_le_floor h).eq_or_lt with hfloor | hfloor
  · rw [roundHalfEven_def, roundHalfEven_def, hfloor]
    have hsub : x - ⌊y⌋ ≤ y - ⌊y⌋ := sub_le_sub_right h _
    split
    · split
      · exact le_refl _
      · split
        · omega
        · split <;> omega
    · rename_i hx
      rw [if_neg (by linarith : ¬ y - ⌊y⌋ < 1 / 2)]
      split
      · rename_i hx
        rw [if_pos (by linarith : 1 / 2 < y - ⌊y⌋)]
      · split
        · split
          · omega
          · rfl
        · split <;> rfl
  · have hlow : roundHalfEven x ≤ ⌊x⌋ + 1 := by
      rw [roundHalfEven_def]
      split
      · omega
      · split
        · omega
        · split <;> omega
    have hhigh : ⌊y⌋ ≤ roundHalfEven y := by
      rw [roundHalfEven_def]
      split
      · omega
      · split
        · omega
        · split <;> omega
    omega

theorem roundTo_mono (d : Nat) {x y : K} (h : x ≤ y) : roundTo d x ≤ roundTo d y := by
  have hplace : (0 : K) ≤ 10 ^ d := by positivity
  refine div_le_div_of_nonneg_right ?_ hplace
  exact_mod_cast roundHalfEven_mono (mul_le_mul_of_nonneg_right h hplace)

/-- A multiple of the place stays. -/
theorem roundTo_div (d : Nat) (n : Int) : roundTo d (n / 10 ^ d : K) = n / 10 ^ d := by
  have hplace : (10 ^ d : K) ≠ 0 := pow_ne_zero d (by norm_num)
  rw [roundTo, div_mul_cancel₀ _ hplace, roundHalfEven_intCast]

theorem roundTo_intCast (d : Nat) (n : Int) : roundTo d (n : K) = n := by
  have h := roundTo_div (K := K) d (n * 10 ^ d)
  have hplace : (10 ^ d : K) ≠ 0 := pow_ne_zero d (by norm_num)
  push_cast at h
  rwa [mul_div_cancel_right₀ _ hplace] at h

theorem roundHalfEven_eq_zero {x : K} : roundHalfEven x = 0 ↔ |x| ≤ 1 / 2 := by
  constructor
  · intro h
    have hnear := abs_sub_roundHalfEven_le x
    rwa [h, Int.cast_zero, sub_zero] at hnear
  · intro h
    exact roundHalfEven_eq_of_even rfl (by rwa [Int.cast_zero, sub_zero])

theorem roundTo_eq_zero {d : Nat} {x : K} : roundTo d x = 0 ↔ |x| ≤ 1 / (2 * 10 ^ d) := by
  have hplace : (0 : K) < 10 ^ d := by positivity
  rw [roundTo, div_eq_zero_iff, or_iff_left hplace.ne', Int.cast_eq_zero, roundHalfEven_eq_zero, abs_mul,
    abs_of_pos hplace, ← le_div_iff₀ hplace, div_div]

theorem roundTo_nonneg {d : Nat} {x : K} (h : 0 ≤ x) : 0 ≤ roundTo d x := by
  have hzero := roundTo_intCast (K := K) d 0
  rw [Int.cast_zero] at hzero
  exact hzero ▸ roundTo_mono d h

/-- What is added up of rounded numbers is rounded. -/
theorem roundTo_sum (d : Nat) (xs : List K) : roundTo d (xs.map (roundTo d)).sum = (xs.map (roundTo d)).sum := by
  have hsum : (xs.map (roundTo d)).sum = (((xs.map fun x => roundHalfEven (x * 10 ^ d)).sum : Int) : K) / 10 ^ d := by
    induction xs with
    | nil => simp
    | cons x xs ih =>
      rw [List.map_cons, List.sum_cons, ih, List.map_cons, List.sum_cons, Int.cast_add, add_div]
      rfl
  rw [hsum, roundTo_div]

end TwinVoice.Lib.Rounding
