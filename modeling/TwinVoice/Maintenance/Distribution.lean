import TwinVoice.Maintenance.Risk

/-! # The risk as a distribution

Whatever an estimate says, the shape is clamped and the scale follows it, so
that the fitted distribution has its median on the estimate and grows with the
time. The risk before a slot is a distribution function of the slot, and
`risk_delta` shows a planner one that does not fall with the shift. -/

namespace TwinVoice.Maintenance

open TwinVoice.Lib Rounding

section
variable {K : Type} [Field K] [LinearOrder K] [IsStrictOrderedRing K] [FloorRing K] (f : Elementary K)

/-- What `risk_delta` returns. -/
structure RiskDelta (K : Type) where
  risk : K
  riskEarlier : K
  riskLater : K
  shiftHours : K

/-- `timedelta(hours=hours)`, which is a whole number of microseconds. -/
def timedeltaHours (hours : K) : Duration := roundHalfEven (hours * 3600.0 * 1000000.0)

def riskDelta (rulPoint rulLow rulHigh : Option K) (now slotStart : Instant) (shiftHours : K) (rulUnit : String)
    (cyclesPerHour : K) : RiskDelta K :=
  let riskAt := fun slot => riskBefore f rulPoint rulLow rulHigh now slot rulUnit cyclesPerHour
  { risk := riskAt slotStart
    riskEarlier := riskAt (slotStart - timedeltaHours shiftHours)
    riskLater := riskAt (slotStart + timedeltaHours shiftHours)
    shiftHours := shiftHours }

end

/-! ## The fitted distribution -/

section
variable (point : ℝ) (low high : Option ℝ)

/-- The fitted distribution over the reals. -/
noncomputable def fittedCdf (t : ℝ) : ℝ := (fitWeibull realFunctions point low high).cdf realFunctions t

theorem fittedCdf_of_nonpos {t : ℝ} (ht : t ≤ 0) : fittedCdf point low high t = 0 := if_pos ht

theorem fittedCdf_of_pos {t : ℝ} (ht : 0 < t) :
    fittedCdf point low high t = 1 - Real.exp (-((t / floored point) ^ shapeOf low high * Real.log 2)) :=
  cdf_fitWeibull point low high ht

theorem shapeOf_pos : 0 < shapeOf low high := by linarith [half_le_shapeOf low high]

theorem fittedCdf_nonneg (t : ℝ) : 0 ≤ fittedCdf point low high t := by
  rcases le_or_gt t 0 with ht | ht
  · rw [fittedCdf_of_nonpos point low high ht]
  · have hlog : 0 ≤ Real.log 2 := Real.log_nonneg (by norm_num)
    have hpow : 0 ≤ (t / floored point) ^ shapeOf low high := Real.rpow_nonneg (div_pos ht (floored_pos point)).le _
    rw [fittedCdf_of_pos point low high ht, sub_nonneg, Real.exp_le_one_iff, neg_nonpos]
    exact mul_nonneg hpow hlog

theorem fittedCdf_le_one (t : ℝ) : fittedCdf point low high t ≤ 1 := by
  rcases le_or_gt t 0 with ht | ht
  · rw [fittedCdf_of_nonpos point low high ht]
    exact zero_le_one
  · rw [fittedCdf_of_pos point low high ht]
    exact sub_le_self _ (Real.exp_pos _).le

theorem fittedCdf_mono : Monotone (fittedCdf point low high) := by
  intro s t hst
  rcases le_or_gt s 0 with hs | hs
  · rw [fittedCdf_of_nonpos point low high hs]
    exact fittedCdf_nonneg point low high t
  · have hpoint := floored_pos point
    have hlog : 0 ≤ Real.log 2 := Real.log_nonneg (by norm_num)
    have hpow : (s / floored point) ^ shapeOf low high ≤ (t / floored point) ^ shapeOf low high :=
      Real.rpow_le_rpow (div_pos hs hpoint).le (div_le_div_of_nonneg_right hst hpoint.le) (shapeOf_pos low high).le
    rw [fittedCdf_of_pos point low high hs, fittedCdf_of_pos point low high (hs.trans_le hst)]
    exact sub_le_sub_left (Real.exp_le_exp.mpr (neg_le_neg (mul_le_mul_of_nonneg_right hpow hlog))) 1

/-- An estimate that is not floored is the median. -/
theorem fittedCdf_median {point : ℝ} (h : 1 / 10 ^ 6 ≤ point) : fittedCdf point low high point = 1 / 2 := by
  have hpos : 0 < point := lt_of_lt_of_le (by norm_num) h
  rw [fittedCdf_of_pos point low high hpos, floored_of_le h, div_self hpos.ne', Real.one_rpow, one_mul, Real.exp_neg,
    Real.exp_log two_pos]
  norm_num

end

/-! ## The risk before a slot -/

section
variable (rulPoint rulLow rulHigh : Option ℝ) (now : Instant) (rulUnit : String) (cyclesPerHour : ℝ)

/-- The time until a slot in the unit of the estimate. -/
noncomputable def elapsed (slotStart : Instant) : ℝ :=
  if rulUnit = "hours" then hoursUntil now slotStart else hoursUntil now slotStart * cyclesPerHour

/-- The risk as a function of the slot. -/
noncomputable def riskOf (slotStart : Instant) : ℝ :=
  riskBefore realFunctions rulPoint rulLow rulHigh now slotStart rulUnit cyclesPerHour

theorem riskOf_of_not_ahead {slotStart : Instant} (h : slotStart ≤ now) :
    riskOf rulPoint rulLow rulHigh now rulUnit cyclesPerHour slotStart = 0 := riskBefore_of_not_ahead h

theorem riskOf_of_ahead {point : ℝ} {slotStart : Instant} (h : now < slotStart) :
    riskOf (some point) rulLow rulHigh now rulUnit cyclesPerHour slotStart =
      roundTo 6 (fittedCdf point rulLow rulHigh (elapsed now rulUnit cyclesPerHour slotStart)) :=
  if_neg (mt hoursUntil_nonpos_iff.mp (not_le.mpr h))

/-- Six decimals of a probability are one. -/
theorem roundTo_mem {x : ℝ} (hlow : 0 ≤ x) (hhigh : x ≤ 1) : 0 ≤ roundTo 6 x ∧ roundTo 6 x ≤ 1 := by
  have hone := roundTo_intCast (K := ℝ) 6 1
  rw [Int.cast_one] at hone
  exact ⟨roundTo_nonneg hlow, (roundTo_mono 6 hhigh).trans_eq hone⟩

theorem riskOf_mem (slotStart : Instant) :
    0 ≤ riskOf rulPoint rulLow rulHigh now rulUnit cyclesPerHour slotStart ∧
      riskOf rulPoint rulLow rulHigh now rulUnit cyclesPerHour slotStart ≤ 1 := by
  cases rulPoint with
  | none => exact ⟨le_refl _, zero_le_one⟩
  | some point =>
    rcases le_or_gt slotStart now with h | h
    · rw [riskOf_of_not_ahead _ _ _ _ _ _ h]
      exact ⟨le_refl _, zero_le_one⟩
    · rw [riskOf_of_ahead _ _ _ _ _ h]
      exact roundTo_mem (fittedCdf_nonneg _ _ _ _) (fittedCdf_le_one _ _ _ _)

theorem hoursUntil_mono : Monotone (hoursUntil now : Instant → ℝ) := by
  intro s t hst
  have hcast : ((s - now : Int) : ℝ) ≤ ((t - now : Int) : ℝ) := Int.cast_le.mpr (Int.sub_le_sub_right hst now)
  exact div_le_div_of_nonneg_right (div_le_div_of_nonneg_right hcast (by norm_num)) (by norm_num)

theorem riskOf_mono : Monotone (riskOf rulPoint rulLow rulHigh now rulUnit cyclesPerHour) := by
  intro s t hst
  cases rulPoint with
  | none => exact le_refl _
  | some point =>
    rcases le_or_gt s now with hs | hs
    · rw [riskOf_of_not_ahead _ _ _ _ _ _ hs]
      exact (riskOf_mem _ _ _ _ _ _ t).1
    · have ht : now < t := lt_of_lt_of_le hs hst
      rw [riskOf_of_ahead _ _ _ _ _ hs, riskOf_of_ahead _ _ _ _ _ ht]
      refine roundTo_mono 6 ?_
      have hhours := hoursUntil_mono now hst
      have hpos : ∀ slot, now < slot → (0 : ℝ) < hoursUntil now slot :=
        fun slot h => not_le.mp (mt hoursUntil_nonpos_iff.mp (not_le.mpr h))
      unfold elapsed
      split
      · exact fittedCdf_mono _ _ _ hhours
      · rcases le_total 0 cyclesPerHour with hrate | hrate
        · exact fittedCdf_mono _ _ _ (mul_le_mul_of_nonneg_right hhours hrate)
        · -- time that runs backwards is never ahead
          rw [fittedCdf_of_nonpos _ _ _ (mul_nonpos_of_nonneg_of_nonpos (hpos s hs).le hrate)]
          exact fittedCdf_nonneg _ _ _ _

theorem riskOf_median {point : ℝ} (hpoint : 1 / 10 ^ 6 ≤ point) {slotStart : Instant} (h : now < slotStart)
    (helapsed : elapsed now rulUnit cyclesPerHour slotStart = point) :
    riskOf (some point) rulLow rulHigh now rulUnit cyclesPerHour slotStart = 1 / 2 := by
  have hhalf := roundTo_div (K := ℝ) 6 500000
  rw [riskOf_of_ahead _ _ _ _ _ h, helapsed, fittedCdf_median _ _ hpoint]
  norm_num at hhalf ⊢
  exact hhalf

end

theorem timedeltaHours_nonneg {hours : ℝ} (h : 0 < hours) : 0 ≤ timedeltaHours hours := by
  have hpos : ((0 : Int) : ℝ) ≤ hours * 3600.0 * 1000000.0 := by
    rw [Int.cast_zero]
    positivity
  have hzero := roundHalfEven_mono hpos
  rwa [roundHalfEven_intCast] at hzero

/-- The risk is a distribution function of the slot. -/
structure DistributionFunction (risk : Instant → ℝ) (now : Instant) : Prop where
  nonneg : ∀ slot, 0 ≤ risk slot
  le_one : ∀ slot, risk slot ≤ 1
  mono : Monotone risk
  zero : ∀ slot ≤ now, risk slot = 0

/-- For every estimate in a fixed unit: a distribution function, with its median where the elapsed time is the
estimate, and no less risk for a later slot. -/
theorem riskBefore_distribution (rulPoint rulLow rulHigh : Option ℝ) (now : Instant) (rulUnit : String) (cyclesPerHour : ℝ) :
    DistributionFunction (fun slot => riskBefore realFunctions rulPoint rulLow rulHigh now slot rulUnit cyclesPerHour) now ∧
    (∀ point slot, rulPoint = some point → 1 / 10 ^ 6 ≤ point → now < slot →
      elapsed now rulUnit cyclesPerHour slot = point →
        riskBefore realFunctions rulPoint rulLow rulHigh now slot rulUnit cyclesPerHour = 1 / 2) ∧
    ∀ slot shiftHours, 0 < shiftHours →
      let delta := riskDelta realFunctions rulPoint rulLow rulHigh now slot shiftHours rulUnit cyclesPerHour
      delta.riskEarlier ≤ delta.risk ∧ delta.risk ≤ delta.riskLater := by
  have hmono := riskOf_mono rulPoint rulLow rulHigh now rulUnit cyclesPerHour
  refine ⟨?_, ?_, ?_⟩
  · exact
      { nonneg := fun slot => (riskOf_mem rulPoint rulLow rulHigh now rulUnit cyclesPerHour slot).1
        le_one := fun slot => (riskOf_mem rulPoint rulLow rulHigh now rulUnit cyclesPerHour slot).2
        mono := hmono
        zero := fun slot => riskOf_of_not_ahead rulPoint rulLow rulHigh now rulUnit cyclesPerHour }
  · rintro point slot rfl hpoint hslot helapsed
    exact riskOf_median rulLow rulHigh now rulUnit cyclesPerHour hpoint hslot helapsed
  · intro slot shiftHours hshift
    have hnonneg := timedeltaHours_nonneg hshift
    exact ⟨hmono (Int.sub_le_self slot hnonneg), hmono (Int.le_add_of_nonneg_right hnonneg)⟩

end TwinVoice.Maintenance
