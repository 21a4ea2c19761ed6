import Mathlib.Analysis.SpecialFunctions.Pow.Real

/-! # Power laws of two factors

`x ^ a * y ^ b` for exponents that are numbers like any other. A power may
have no value; over the reals it has none where zero is raised to a negative
exponent, and there a law is determined by its values. Divided by its exponent
a power grows with its base, and takes every value between two of its own. -/

namespace TwinVoice.Lib

/-- The functions that formulas take from the platform. -/
structure Powers (K : Type) where
  exp : K → K
  pow : K → K → Option K

/-- The exponents of the two factors. -/
@[ext] structure PowerLaw (K : Type) where
  first : K
  second : K

def PowerLaw.factor {K : Type} [Mul K] (f : Powers K) (l : PowerLaw K) (x y : K) : Option K := do
  let u ← f.pow x l.first
  let v ← f.pow y l.second
  return u * v

namespace Powers

noncomputable def real : Powers ℝ := ⟨Real.exp, fun x y => if x = 0 ∧ y < 0 then none else some (x ^ y)⟩

theorem real_pow_of_pos {x : ℝ} (hx : 0 < x) (y : ℝ) : real.pow x y = some (x ^ y) :=
  if_neg fun h => hx.ne' h.1

@[simp] theorem real_pow_zero (x : ℝ) : real.pow x 0 = some 1 := by
  simp [real]

@[simp] theorem real_pow_one (x : ℝ) : real.pow x 1 = some x := by
  have hone : ¬(1 : ℝ) < 0 := not_lt.mpr zero_le_one
  simp [real, hone]

@[simp] theorem real_one_pow (y : ℝ) : real.pow 1 y = some 1 := by
  rw [real_pow_of_pos one_pos, Real.one_rpow]

/-- A power of two determines its exponent. -/
theorem real_two_pow_inj {a b : ℝ} : real.pow 2 a = real.pow 2 b ↔ a = b := by
  rw [real_pow_of_pos two_pos, real_pow_of_pos two_pos, Option.some_inj]
  exact Real.rpow_right_inj two_pos (by norm_num)

end Powers

/-! ## A power divided by its exponent -/

noncomputable def scaledPow (k x : ℝ) : ℝ := x ^ k / k

section
variable {k : ℝ}

/-- It grows with the base whatever the sign of the exponent. -/
theorem strictMonoOn_scaledPow (hk : k ≠ 0) : StrictMonoOn (scaledPow k) (Set.Ioi 0) := by
  intro x hx y _ hxy
  rcases lt_or_gt_of_ne hk with hneg | hpos
  · exact div_lt_div_of_neg_of_lt hneg (Real.rpow_lt_rpow_of_neg hx hxy hneg)
  · exact div_lt_div_of_pos_right (Real.rpow_lt_rpow (le_of_lt hx) hxy hpos) hpos

theorem div_le_div_iff_ite (hk : k ≠ 0) {x y : ℝ} : x / k ≤ y / k ↔ if k < 0 then y ≤ x else x ≤ y := by
  split
  · exact div_le_div_right_of_neg ‹_›
  · rename_i hnot
    exact div_le_div_iff_of_pos_right (lt_of_le_of_ne (not_lt.mp hnot) hk.symm)

/-- A value between two that it takes. -/
theorem mul_pos_of_scaledPow (hk : k ≠ 0) {a b y : ℝ} (ha : 0 < a) (hb : 0 < b) (hay : scaledPow k a ≤ y)
    (hyb : y < scaledPow k b) : 0 < k * y := by
  rcases lt_or_gt_of_ne hk with hneg | hpos
  · exact mul_pos_of_neg_of_neg hneg (hyb.trans (div_neg_of_pos_of_neg (Real.rpow_pos_of_pos hb k) hneg))
  · exact mul_pos hpos (lt_of_lt_of_le (div_pos (Real.rpow_pos_of_pos ha k) hpos) hay)

theorem scaledPow_root (hk : k ≠ 0) {y : ℝ} (hy : 0 < k * y) : scaledPow k ((k * y) ^ (1 / k)) = y := by
  rw [scaledPow, one_div, Real.rpow_inv_rpow hy.le hk, mul_div_cancel_left₀ y hk]

end

namespace PowerLaw

@[simp] theorem factor_real_left (l : PowerLaw ℝ) (x : ℝ) : l.factor .real x 1 = Powers.real.pow x l.first := by
  simp [factor]

@[simp] theorem factor_real_right (l : PowerLaw ℝ) (y : ℝ) : l.factor .real 1 y = Powers.real.pow y l.second := by
  simp [factor]

/-- Two laws that agree wherever one factor is two and the other one are one law. -/
theorem eq_of_factor_eq {a b : PowerLaw ℝ} (hfirst : a.factor .real 2 1 = b.factor .real 2 1)
    (hsecond : a.factor .real 1 2 = b.factor .real 1 2) : a = b := by
  rw [factor_real_left, factor_real_left] at hfirst
  rw [factor_real_right, factor_real_right] at hsecond
  exact PowerLaw.ext (Powers.real_two_pow_inj.mp hfirst) (Powers.real_two_pow_inj.mp hsecond)

end PowerLaw

end TwinVoice.Lib
