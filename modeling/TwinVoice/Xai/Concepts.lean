import Mathlib.Analysis.Real.Sqrt
import Mathlib.Data.Sign.Basic
import TwinVoice.Lib.LeastSquares
import TwinVoice.Lib.Samples

/-! # Concepts

The shape of a window of numbers. Negating the numbers negates their median and
their mean and leaves every distance, so all the tests but the last come out
the same. The last one asks whether most of the steps go up, and a window whose
steps go down is left out by it. -/

namespace TwinVoice.Xai

open TwinVoice.Lib.Grouping TwinVoice.Lib.LeastSquares TwinVoice.Lib.Samples

inductive Concept
  | trend
  | spike
  | levelShift
  | steady
  deriving DecidableEq, Repr

section
variable {K : Type*} [Field K] [LinearOrder K]

def deviations (series : List K) : List K := series.map fun x => |x - median series|

def robustSigma (series : List K) : K := 1.4826 * median (deviations series)

def maxDeviation (series : List K) : K := (deviations series).max?.getD 0

/-- How far the mean of the second half is from that of the first. -/
def shift (series : List K) : K :=
  |mean (series.drop (series.length / 2)) - mean (series.take (series.length / 2))|

def diff (series : List K) : List K := List.zipWith (fun a b => b - a) series series.tail

/-- The steps up less the steps down, for each step. -/
def stepBalance (series : List K) : K :=
  ((diff series).map fun step => (SignType.sign step : K)).sum / (diff series).length

variable (sqrt : K → K)

def std (series : List K) : K := sqrt (squares series (mean series) / series.length)

def conceptSegments (spikeSigma shiftRatio : K) (series : List K) : Concept :=
  if series.length < 4 then .steady
  else if std sqrt series = 0 then .steady
  else if robustSigma series = 0 then
    if 0 < maxDeviation series then .spike else .steady
  else if spikeSigma * robustSigma series < maxDeviation series then .spike
  else if shiftRatio * std sqrt series < shift series then
    if 0.6 < stepBalance series then .trend else .levelShift
  else .steady

/-- The last test is reached. -/
structure Shifted (spikeSigma shiftRatio : K) (series : List K) : Prop where
  long : 4 ≤ series.length
  varies : std sqrt series ≠ 0
  spread : robustSigma series ≠ 0
  smooth : maxDeviation series ≤ spikeSigma * robustSigma series
  shifts : shiftRatio * std sqrt series < shift series

end

section
variable {K : Type*} [Field K]

@[simp] theorem mean_neg (xs : List K) : mean (xs.map (- ·)) = - mean xs := by
  rw [mean, mean, ← List.sum_neg, List.length_map, neg_div]

theorem squares_neg (xs : List K) (c : K) : squares (xs.map (- ·)) (- c) = squares xs c := by
  rw [squares, squares, List.map_map]
  refine congrArg List.sum (List.map_congr_left fun x _ => ?_)
  change (- x - - c) ^ 2 = (x - c) ^ 2
  ring

@[simp] theorem diff_neg (series : List K) : diff (series.map (- ·)) = (diff series).map (- ·) := by
  rw [diff, diff, ← List.map_tail, List.zipWith_map, List.map_zipWith]
  congr 1
  funext a b
  ring

@[simp] theorem std_neg (sqrt : K → K) (series : List K) : std sqrt (series.map (- ·)) = std sqrt series := by
  rw [std, std, mean_neg, squares_neg, List.length_map]

end

section
variable {K : Type*} [Field K] [LinearOrder K]

@[simp] theorem shift_neg (series : List K) : shift (series.map (- ·)) = shift series := by
  rw [shift, shift, List.length_map, ← List.map_drop, ← List.map_take, mean_neg, mean_neg, neg_sub_neg, abs_sub_comm]

theorem conceptSegments_of_shifted {sqrt : K → K} {spikeSigma shiftRatio : K} {series : List K}
    (h : Shifted sqrt spikeSigma shiftRatio series) :
    conceptSegments sqrt spikeSigma shiftRatio series = if 0.6 < stepBalance series then .trend else .levelShift := by
  unfold conceptSegments
  rw [if_neg (not_lt.mpr h.long), if_neg h.varies, if_neg h.spread, if_neg (not_lt.mpr h.smooth), if_pos h.shifts]

end

section
variable {K : Type*} [Field K] [LinearOrder K] [IsStrictOrderedRing K]

@[simp] theorem deviations_neg (series : List K) : deviations (series.map (- ·)) = deviations series := by
  rw [deviations, deviations, median_neg, List.map_map]
  refine List.map_congr_left fun x _ => ?_
  change |- x - - median series| = |x - median series|
  rw [neg_sub_neg, abs_sub_comm]

@[simp] theorem robustSigma_neg (series : List K) : robustSigma (series.map (- ·)) = robustSigma series := by
  rw [robustSigma, robustSigma, deviations_neg]

@[simp] theorem maxDeviation_neg (series : List K) : maxDeviation (series.map (- ·)) = maxDeviation series := by
  rw [maxDeviation, maxDeviation, deviations_neg]

@[simp] theorem stepBalance_neg (series : List K) : stepBalance (series.map (- ·)) = - stepBalance series := by
  have hsigns : ((diff series).map (- ·)).map (fun step => (SignType.sign step : K)) =
      ((diff series).map fun step => (SignType.sign step : K)).map (- ·) := by
    rw [List.map_map, List.map_map]
    refine List.map_congr_left fun step _ => ?_
    change ((SignType.sign (- step) : SignType) : K) = - (SignType.sign step : K)
    rw [Left.sign_neg, SignType.coe_neg]
  rw [stepBalance, stepBalance, diff_neg, hsigns, ← List.sum_neg, List.length_map, neg_div]

variable {sqrt : K → K} {spikeSigma shiftRatio : K} {series : List K}

theorem Shifted.neg (h : Shifted sqrt spikeSigma shiftRatio series) :
    Shifted sqrt spikeSigma shiftRatio (series.map (- ·)) := by
  constructor
  · rw [List.length_map]
    exact h.long
  · rw [std_neg]
    exact h.varies
  · rw [robustSigma_neg]
    exact h.spread
  · rw [maxDeviation_neg, robustSigma_neg]
    exact h.smooth
  · rw [std_neg, shift_neg]
    exact h.shifts

theorem conceptSegments_neg_of_not_shifted (h : ¬ Shifted sqrt spikeSigma shiftRatio series) :
    conceptSegments sqrt spikeSigma shiftRatio (series.map (- ·)) = conceptSegments sqrt spikeSigma shiftRatio series := by
  unfold conceptSegments
  rw [List.length_map, std_neg, robustSigma_neg, maxDeviation_neg, shift_neg]
  by_cases hshort : series.length < 4
  · rw [if_pos hshort, if_pos hshort]
  rw [if_neg hshort, if_neg hshort]
  by_cases hflat : std sqrt series = 0
  · rw [if_pos hflat, if_pos hflat]
  rw [if_neg hflat, if_neg hflat]
  by_cases hspread : robustSigma series = 0
  · rw [if_pos hspread, if_pos hspread]
  rw [if_neg hspread, if_neg hspread]
  by_cases hspike : spikeSigma * robustSigma series < maxDeviation series
  · rw [if_pos hspike, if_pos hspike]
  rw [if_neg hspike, if_neg hspike]
  have hshift : ¬ shiftRatio * std sqrt series < shift series :=
    fun hshift => h ⟨not_lt.mp hshort, hflat, hspread, not_lt.mp hspike, hshift⟩
  rw [if_neg hshift, if_neg hshift]

/-! ## Ramps -/

theorem stepBalance_of_rising (hlong : 2 ≤ series.length) (h : series.IsChain (· < ·)) : stepBalance series = 1 := by
  have hsigns : ∀ step ∈ diff series, 0 < step := by
    intro step hstep
    obtain ⟨i, hi, rfl⟩ := List.mem_iff_getElem.mp hstep
    have hi' : i + 1 < series.length := by
      simp only [diff, List.length_zipWith, List.length_tail] at hi
      omega
    simpa [diff] using List.isChain_iff_getElem.mp h i hi'
  have hones : (diff series).map (fun step => (SignType.sign step : K)) = (diff series).map fun _ => 1 :=
    List.map_congr_left fun step hstep => by rw [sign_pos (hsigns step hstep), SignType.coe_one]
  have hlength : ((diff series).length : K) ≠ 0 := by
    rw [Nat.cast_ne_zero, diff, List.length_zipWith, List.length_tail]
    omega
  rw [stepBalance, hones, List.map_const', List.sum_replicate, nsmul_eq_mul, mul_one, div_self hlength]

/-- A rising ramp is a trend. -/
theorem conceptSegments_of_rising (h : Shifted sqrt spikeSigma shiftRatio series) (hrising : series.IsChain (· < ·)) :
    conceptSegments sqrt spikeSigma shiftRatio series = .trend := by
  rw [conceptSegments_of_shifted h, stepBalance_of_rising (le_trans (by omega) h.long) hrising, if_pos (by norm_num)]

/-- A falling ramp is a shift of the level. -/
theorem conceptSegments_of_falling (h : Shifted sqrt spikeSigma shiftRatio series) (hfalling : series.IsChain (· > ·)) :
    conceptSegments sqrt spikeSigma shiftRatio series = .levelShift := by
  have hrising : (series.map (- ·)).IsChain (· < ·) := by
    rw [List.isChain_map]
    exact hfalling.imp fun _ _ h => neg_lt_neg h
  have hbalance := stepBalance_of_rising (by rw [List.length_map]; exact le_trans (by omega) h.long) hrising
  rw [stepBalance_neg] at hbalance
  rw [conceptSegments_of_shifted h, if_neg (by linarith)]

/-- Only a window that reaches the last test with most of its steps one way is told from its negation. -/
theorem conceptSegments_neg_iff :
    conceptSegments sqrt spikeSigma shiftRatio (series.map (- ·)) = conceptSegments sqrt spikeSigma shiftRatio series ↔
      ¬ (Shifted sqrt spikeSigma shiftRatio series ∧ 0.6 < |stepBalance series|) := by
  by_cases h : Shifted sqrt spikeSigma shiftRatio series
  · rw [conceptSegments_of_shifted h, conceptSegments_of_shifted h.neg, stepBalance_neg, lt_abs]
    by_cases hup : 0.6 < stepBalance series
    · have hdown : ¬ 0.6 < - stepBalance series := by linarith
      simp [h, hup, hdown]
    · by_cases hdown : 0.6 < - stepBalance series
      · simp [h, hup, hdown]
      · simp [h, hup, hdown]
  · rw [conceptSegments_neg_of_not_shifted h]
    simp [h]

end

/-! A ramp and a step of four numbers. -/

def ramp : List ℝ := [1.0, 2.0, 3.0, 4.0]

theorem median_ramp : median ramp = 5 / 2 := by
  norm_num [median, sorted, ramp]

theorem deviations_ramp : deviations ramp = [3 / 2, 1 / 2, 1 / 2, 3 / 2] := by
  rw [deviations, median_ramp, ramp]
  norm_num [abs_of_nonneg, abs_of_neg]

theorem robustSigma_ramp : robustSigma ramp = 1.4826 := by
  rw [robustSigma, deviations_ramp]
  norm_num [median, sorted]

theorem maxDeviation_ramp : maxDeviation ramp = 3 / 2 := by
  rw [maxDeviation, deviations_ramp]
  norm_num [List.max?]

theorem std_ramp : std Real.sqrt ramp = √(5 / 4) := by
  norm_num [std, squares, mean, ramp]

theorem shift_ramp : shift ramp = 2 := by
  norm_num [shift, mean, ramp]

theorem shifted_ramp : Shifted Real.sqrt 3 0.5 ramp := by
  have hroot : √(5 / 4 : ℝ) < 4 := by
    rw [Real.sqrt_lt' (by norm_num)]
    norm_num
  constructor
  · exact le_rfl
  · rw [std_ramp]
    exact Real.sqrt_ne_zero'.mpr (by norm_num)
  · rw [robustSigma_ramp]
    norm_num
  · rw [maxDeviation_ramp, robustSigma_ramp]
    norm_num
  · rw [std_ramp, shift_ramp]
    linarith

theorem rising_ramp : ramp.IsChain (· < ·) := by
  norm_num [ramp]

/-- The ramp is a trend, and the same ramp downwards a shift of the level. -/
theorem falling_ramp_no_trend :
    conceptSegments Real.sqrt 3 0.5 ramp = .trend ∧
      conceptSegments Real.sqrt 3 0.5 (ramp.map (- ·)) = .levelShift := by
  have hfalling : (ramp.map (- ·)).IsChain (· > ·) := by
    rw [List.isChain_map]
    exact rising_ramp.imp fun _ _ h => neg_lt_neg h
  exact ⟨conceptSegments_of_rising shifted_ramp rising_ramp, conceptSegments_of_falling shifted_ramp.neg hfalling⟩

/-- A step of the level is one both ways. -/
theorem step_label_kept :
    conceptSegments Real.sqrt 3 0.5 (([0, 0, 1, 1] : List ℝ).map (- ·)) = conceptSegments Real.sqrt 3 0.5 [0, 0, 1, 1] := by
  refine conceptSegments_neg_iff.mpr fun h => absurd h.2 ?_
  have hbalance : stepBalance ([0, 0, 1, 1] : List ℝ) = 1 / 3 := by
    norm_num [stepBalance, diff]
  rw [hbalance]
  norm_num [abs_of_nonneg]

end TwinVoice.Xai
