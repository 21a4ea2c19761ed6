import Mathlib.Analysis.Complex.ExponentialBounds
import Mathlib.Analysis.SpecialFunctions.Pow.Real
import Mathlib.Tactic.Linarith
import TwinVoice.Basic
import TwinVoice.Lib.Rounding

/-! # Failure risk before a slot

A Weibull distribution whose median is the estimate of the remaining life and
whose shape comes of its interval. The formulas are generic in the numbers and
in the functions taken from the platform; their meaning is that over the reals. -/

namespace TwinVoice.Maintenance

open TwinVoice.Lib Rounding

/-- The functions of `math`. -/
structure Elementary (K : Type) where
  exp : K → K
  log : K → K
  pow : K → K → K

/-- What a prediction says of the remaining life. -/
structure Estimate (K : Type) where
  point : Option K
  low : Option K
  high : Option K
  unit : Option String

structure Weibull (K : Type) where
  shape : K
  scale : K

section
variable {K : Type} [Field K] [LinearOrder K] [IsStrictOrderedRing K] [FloorRing K] (f : Elementary K)

/-- `COVERAGE_Z`. -/
def coverageZ : K := 1.645

/-- `MIN_SHAPE`. -/
def minShape : K := 0.5

/-- `MAX_SHAPE`. -/
def maxShape : K := 20

/-- No estimate counts as less than this. -/
def floored (x : K) : K := max x 1e-6

/-- `P(failure by time t)`. -/
def Weibull.cdf (w : Weibull K) (t : K) : K :=
  if t ≤ 0 then 0 else 1 - f.exp (-f.pow (t / w.scale) w.shape)

/-- The shape that the interval asks for, 4 where there is none. -/
def intervalShape (low high : Option K) : K :=
  match low, high with
  | some low, some high =>
    if high ≤ low then 4.0
    else
      let logWidth := f.log (floored high) - f.log (floored low)
      if 0 < logWidth then 2.0 * coverageZ / logWidth else maxShape
  | _, _ => 4.0

def fitWeibull (point : K) (low high : Option K) : Weibull K :=
  let shape := min (max (intervalShape f low high) minShape) maxShape
  ⟨shape, floored point / f.pow (f.log 2.0) (1 / shape)⟩

/-- `(slot_start - now).total_seconds() / 3600.0`. -/
def hoursUntil (now slotStart : Instant) : K := ((slotStart - now : Int) : K) / 1000000 / 3600

def riskBefore (rulPoint rulLow rulHigh : Option K) (now slotStart : Instant) (rulUnit : String) (cyclesPerHour : K) : K :=
  match rulPoint with
  | none => 0
  | some point =>
    let hours : K := hoursUntil now slotStart
    if hours ≤ 0 then 0
    else
      let elapsed := if rulUnit = "hours" then hours else hours * cyclesPerHour
      roundTo 6 ((fitWeibull f point rulLow rulHigh).cdf f elapsed)

/-- The risk of an order before a slot, as the optimiser, the drag of an item and the risk
endpoint ask for it: with the unit of the prediction, and one cycle an hour. -/
def Estimate.riskAt (e : Estimate K) (now slotStart : Instant) : K :=
  riskBefore f e.point e.low e.high now slotStart ((e.unit.filter (· ≠ "")).getD "cycles") 1

/-- An estimate in hours. -/
def Estimate.inHours (point low high : Option K) : Estimate K := ⟨point, low, high, some "hours"⟩

/-- The same estimate in days, the unit of the trained models. -/
def Estimate.inDays (point low high : Option K) : Estimate K :=
  ⟨point.map (· / 24), low.map (· / 24), high.map (· / 24), some "d"⟩

end

/-! ## Over the reals -/

noncomputable def realFunctions : Elementary ℝ := ⟨Real.exp, Real.log, fun x y => x ^ y⟩

/-- The shape fitted to an estimate. -/
noncomputable def shapeOf (low high : Option ℝ) : ℝ := min (max (intervalShape realFunctions low high) minShape) maxShape

theorem two_eq : (2.0 : ℝ) = 2 := by norm_num

theorem minShape_eq : (minShape : ℝ) = 1 / 2 := by norm_num [minShape]

theorem maxShape_eq : (maxShape : ℝ) = 20 := by norm_num [maxShape]

theorem floored_eq (x : ℝ) : floored x = max x (1 / 10 ^ 6) := by norm_num [floored]

theorem half_le_shapeOf (low high : Option ℝ) : 1 / 2 ≤ shapeOf low high := by
  rw [shapeOf, minShape_eq, maxShape_eq]
  exact le_min (le_max_right _ _) (by norm_num)

theorem floored_pos (x : ℝ) : 0 < floored x := lt_max_of_lt_right (by norm_num)

theorem floored_of_le {x : ℝ} (h : 1 / 10 ^ 6 ≤ x) : floored x = x := (floored_eq x).trans (max_eq_left h)

/-- Half of the fitted distribution lies before the estimate. -/
theorem cdf_fitWeibull (point : ℝ) (low high : Option ℝ) {t : ℝ} (ht : 0 < t) :
    (fitWeibull realFunctions point low high).cdf realFunctions t =
      1 - Real.exp (-((t / floored point) ^ shapeOf low high * Real.log 2)) := by
  have hshape : shapeOf low high ≠ 0 := by linarith [half_le_shapeOf low high]
  have hlog : 0 < Real.log 2 := Real.log_pos (by norm_num)
  have hpoint := floored_pos point
  have hroot : (Real.log 2 ^ (1 / shapeOf low high)) ^ shapeOf low high = Real.log 2 := by
    rw [← Real.rpow_mul hlog.le, one_div_mul_cancel hshape, Real.rpow_one]
  have hexponent : (t / (floored point / Real.log 2 ^ (1 / shapeOf low high))) ^ shapeOf low high =
      (t / floored point) ^ shapeOf low high * Real.log 2 := by
    rw [div_div_eq_mul_div, mul_div_right_comm, Real.mul_rpow (div_pos ht hpoint).le (Real.rpow_nonneg hlog.le _), hroot]
  unfold Weibull.cdf
  rw [if_neg (not_le.mpr ht)]
  show 1 - Real.exp (-(t / (floored point / Real.log 2.0 ^ (1 / shapeOf low high))) ^ shapeOf low high) = _
  rw [two_eq, hexponent]

theorem hoursUntil_nonpos_iff {now slotStart : Instant} : (hoursUntil now slotStart : ℝ) ≤ 0 ↔ slotStart ≤ now := by
  unfold hoursUntil
  rw [div_le_iff₀ (by norm_num), div_le_iff₀ (by norm_num), zero_mul, zero_mul, Int.cast_nonpos]
  exact sub_nonpos

/-! ## When the six decimals agree -/

/-- A number whose fourth power counts and that is not all leaves a gap to it. -/
theorem gap_to_fourth {y : ℝ} (hlow : 1 / (2 * 10 ^ 6) ≤ y ^ 4) (hpos : 0 < y) (hhigh : y ≤ 1 - 1 / (2 * 10 ^ 6)) :
    1 / 10 ^ 6 < y - y ^ 4 := by
  have hfactor : y - y ^ 4 = y * (1 - y) * (1 + y + y ^ 2) := by ring
  have hlarge : 1 / 50 < y := by
    by_contra hsmall
    have hpow : y ^ 4 ≤ (1 / 50) ^ 4 := pow_le_pow_left₀ hpos.le (not_lt.mp hsmall) 4
    norm_num at hlow hpow
    linarith
  rw [hfactor]
  by_cases hmiddle : y ≤ 9 / 10
  · have hproduct : (1 / 50) * (1 / 10) ≤ y * (1 - y) := mul_le_mul hlarge.le (by linarith) (by norm_num) hpos.le
    nlinarith
  · have hproduct : (9 / 10) * (1 / (2 * 10 ^ 6)) ≤ y * (1 - y) :=
      mul_le_mul (by linarith) (by linarith) (by norm_num) hpos.le
    nlinarith

/-- Two probabilities, the one of which has at least four times the exponent of the other, have the
same six decimals only if they come to nothing or to certainty. -/
theorem roundTo_eq_iff {u v : ℝ} (hu : 0 < u) (h : 4 * u ≤ v) :
    roundTo 6 (1 - Real.exp (-u)) = roundTo 6 (1 - Real.exp (-v)) ↔
      1 - Real.exp (-v) ≤ 1 / (2 * 10 ^ 6) ∨ Real.exp (-u) ≤ 1 / (2 * 10 ^ 6) := by
  have hy : 0 < Real.exp (-u) := Real.exp_pos _
  have hy1 : Real.exp (-u) < 1 := Real.exp_lt_one_iff.mpr (by linarith)
  have hz : 0 < Real.exp (-v) := Real.exp_pos _
  have hle : Real.exp (-v) ≤ Real.exp (-u) := Real.exp_le_exp.mpr (by linarith)
  have hpow : Real.exp (-v) ≤ Real.exp (-u) ^ 4 := by
    rw [← Real.exp_nat_mul]
    refine Real.exp_le_exp.mpr ?_
    push_cast
    linarith
  rw [roundTo_inj]
  constructor
  · intro hround
    by_contra hapart
    obtain ⟨hv, hu⟩ := not_or.mp hapart
    have hu := not_le.mp hu
    have hv := not_le.mp hv
    have hover := roundHalfEven_le_add ((1 - Real.exp (-u)) * 10 ^ 6)
    have hunder := sub_le_roundHalfEven ((1 - Real.exp (-v)) * 10 ^ 6)
    rw [← hround] at hunder
    generalize roundHalfEven ((1 - Real.exp (-u)) * 10 ^ 6) = n at hover hunder
    norm_num at hu hv hover hunder
    have hbelow : n ≤ 10 ^ 6 - 1 := by
      have hlt : (n : ℝ) < ((10 ^ 6 : Int) : ℝ) := by
        push_cast
        linarith
      exact Int.le_sub_one_of_lt (Int.cast_lt.mp hlt)
    have habove : 1 ≤ n := by
      have hlt : ((0 : Int) : ℝ) < n := by
        push_cast
        linarith
      exact Int.cast_lt.mp hlt
    have hbelow : (n : ℝ) ≤ 10 ^ 6 - 1 := by exact_mod_cast hbelow
    have habove : (1 : ℝ) ≤ n := by exact_mod_cast habove
    have hgap := gap_to_fourth (by norm_num; linarith) hy (by norm_num; linarith)
    norm_num at hgap
    linarith
  · intro hends
    rcases hends with hnothing | hcertain
    · have hzero : ∀ x : ℝ, 0 ≤ x → x ≤ 1 / (2 * 10 ^ 6) → roundHalfEven (x * 10 ^ 6) = 0 := by
        intro x hx hsmall
        refine roundHalfEven_eq_of_even rfl ?_
        rw [abs_le]
        norm_num at hsmall ⊢
        constructor <;> linarith
      rw [hzero _ (by linarith) (by linarith), hzero _ (by linarith) hnothing]
    · have hone : ∀ x : ℝ, 0 < x → x ≤ 1 / (2 * 10 ^ 6) → roundHalfEven ((1 - x) * 10 ^ 6) = 10 ^ 6 := by
        intro x hx hsmall
        refine roundHalfEven_eq_of_even (by norm_num) ?_
        rw [abs_le]
        norm_num at hsmall ⊢
        constructor <;> linarith
      rw [hone _ hy hcertain, hone _ hz (hle.trans hcertain)]

/-! ## Estimates in hours and in days -/

/-- The estimate is not within a moment of the failure: neither floor of one millionth touches the
point, and none the interval, unless the interval is as wide as the shape admits in any case. -/
structure Regular (point : ℝ) (low high : Option ℝ) : Prop where
  point : 24 / 10 ^ 6 ≤ point
  interval : ∀ l h, low = some l → high = some h → l < h → 24 / 10 ^ 6 ≤ l ∨ 1 / 50 ≤ h

theorem exp_le_of_wide : Real.exp (658 / 100) ≤ 833 := by
  have hexp : Real.exp (658 / 100) = Real.exp 1 ^ 6 * Real.exp (58 / 100) := by
    rw [← Real.exp_nat_mul, ← Real.exp_add]
    norm_num
  have hone : Real.exp 1 ^ 6 ≤ 2.7182818286 ^ 6 := pow_le_pow_left₀ (Real.exp_pos 1).le Real.exp_one_lt_d9.le 6
  have htwo : Real.exp (58 / 100) ≤ 2 := by
    rw [← Real.le_log_iff_exp_le (by norm_num)]
    linarith [Real.log_two_gt_d9]
  calc Real.exp (658 / 100) = Real.exp 1 ^ 6 * Real.exp (58 / 100) := hexp
    _ ≤ 2.7182818286 ^ 6 * 2 := mul_le_mul hone htwo (Real.exp_pos _).le (by norm_num)
    _ ≤ 833 := by norm_num

/-- An interval this wide asks for less than the smallest shape. -/
theorem shapeOf_of_wide {l h : ℝ} (hlh : l < h) (hwide : 833 * floored l ≤ floored h) :
    shapeOf (some l) (some h) = 1 / 2 := by
  have hlog : 658 / 100 ≤ Real.log (floored h) - Real.log (floored l) := by
    rw [← Real.log_div (floored_pos h).ne' (floored_pos l).ne', Real.le_log_iff_exp_le (div_pos (floored_pos h) (floored_pos l)),
      le_div_iff₀ (floored_pos l)]
    exact (mul_le_mul_of_nonneg_right exp_le_of_wide (floored_pos l).le).trans hwide
  have hpos : 0 < Real.log (floored h) - Real.log (floored l) := by linarith
  have hsmall : 2.0 * coverageZ / (Real.log (floored h) - Real.log (floored l)) ≤ 1 / 2 := by
    rw [div_le_iff₀ hpos]
    norm_num [coverageZ]
    linarith
  have hshape : intervalShape realFunctions (some l) (some h) =
      2.0 * coverageZ / (Real.log (floored h) - Real.log (floored l)) := by
    unfold intervalShape
    dsimp only
    rw [if_neg (not_le.mpr hlh)]
    exact if_pos hpos
  rw [shapeOf, hshape, minShape_eq, maxShape_eq, max_eq_right hsmall]
  norm_num

/-- Where the interval is narrow its ends are large enough for the floor to leave them as they are. -/
theorem shapeOf_of_far {l u : ℝ} (hlu : l < u) (hfar : 24 / 10 ^ 6 ≤ l) :
    shapeOf (some (l / 24)) (some (u / 24)) = shapeOf (some l) (some u) := by
  have hl : floored l = l := floored_of_le (by linarith)
  have hu : floored u = u := floored_of_le (by linarith)
  have hl' : floored (l / 24) = l / 24 := floored_of_le (by linarith)
  have hu' : floored (u / 24) = u / 24 := floored_of_le (by linarith)
  have hlpos : 0 < l := by linarith
  have hlog : Real.log (u / 24) - Real.log (l / 24) = Real.log u - Real.log l := by
    rw [Real.log_div (hlpos.trans hlu).ne' (by norm_num), Real.log_div hlpos.ne' (by norm_num)]
    exact sub_sub_sub_cancel_right _ _ _
  have hshape : intervalShape realFunctions (some (l / 24)) (some (u / 24)) = intervalShape realFunctions (some l) (some u) := by
    unfold intervalShape
    dsimp only
    rw [if_neg (not_le.mpr hlu), if_neg (by linarith : ¬ u / 24 ≤ l / 24), hl, hu, hl', hu']
    show (if 0 < Real.log (u / 24) - Real.log (l / 24) then 2.0 * coverageZ / (Real.log (u / 24) - Real.log (l / 24)) else maxShape) = _
    rw [hlog]
    rfl
  rw [shapeOf, hshape, shapeOf]

/-- The shape is the same in hours and in days. -/
theorem Regular.shapeOf_days {point : ℝ} {low high : Option ℝ} (h : Regular point low high) :
    shapeOf (low.map (· / 24)) (high.map (· / 24)) = shapeOf low high := by
  cases hlow : low with
  | none => rfl
  | some l =>
    cases hhigh : high with
    | none => rfl
    | some u =>
      show shapeOf (some (l / 24)) (some (u / 24)) = shapeOf (some l) (some u)
      by_cases hlu : u ≤ l
      · have hdays : u / 24 ≤ l / 24 := by linarith
        simp [shapeOf, intervalShape, hlu, hdays]
      · have hlt := not_le.mp hlu
        by_cases hfar : 24 / 10 ^ 6 ≤ l
        · exact shapeOf_of_far hlt hfar
        · have hwide : 1 / 50 ≤ u := (h.interval l u hlow hhigh hlt).resolve_left hfar
          have hnear := not_le.mp hfar
          have hl : floored l ≤ 24 / 10 ^ 6 := (floored_eq l).trans_le (max_le hnear.le (by norm_num))
          have hl' : floored (l / 24) = 1 / 10 ^ 6 := (floored_eq _).trans (max_eq_right (by linarith))
          have hu : floored u = u := floored_of_le (by linarith)
          have hu' : floored (u / 24) = u / 24 := floored_of_le (by linarith)
          rw [shapeOf_of_wide hlt (by rw [hu]; linarith),
            shapeOf_of_wide (by linarith) (by rw [hl', hu']; linarith)]

/-! ## The risk in either unit -/

/-- So soon that the six decimals of the risk are zero, even when every hour counts as a day. -/
structure TooSoon (hours point shape : ℝ) : Prop where
  bound : (24 * hours / point) ^ shape * Real.log 2 ≤ -Real.log (1 - 1 / (2 * 10 ^ 6))

/-- So late that the six decimals of the risk are those of certainty, when hours count as hours. -/
structure TooLate (hours point shape : ℝ) : Prop where
  bound : Real.log (2 * 10 ^ 6) ≤ (hours / point) ^ shape * Real.log 2

theorem tooSoon_iff {hours point shape : ℝ} : TooSoon hours point shape ↔
    (24 * hours / point) ^ shape * Real.log 2 ≤ -Real.log (1 - 1 / (2 * 10 ^ 6)) :=
  ⟨TooSoon.bound, TooSoon.mk⟩

theorem tooLate_iff {hours point shape : ℝ} :
    TooLate hours point shape ↔ Real.log (2 * 10 ^ 6) ≤ (hours / point) ^ shape * Real.log 2 :=
  ⟨TooLate.bound, TooLate.mk⟩

/-- The unit of the estimate does not matter: there is none, the slot is not ahead, or it is so soon
or so late that the risk comes to nothing or to certainty. -/
def UnitFree (point low high : Option ℝ) (now slotStart : Instant) : Prop :=
  point = none ∨ slotStart ≤ now ∨
    ∃ p, point = some p ∧ Regular p low high ∧
      (TooSoon (hoursUntil now slotStart) p (shapeOf low high) ∨ TooLate (hoursUntil now slotStart) p (shapeOf low high))

theorem riskBefore_of_not_ahead {point low high : Option ℝ} {now slotStart : Instant} {unit : String} {rate : ℝ}
    (h : slotStart ≤ now) : riskBefore realFunctions point low high now slotStart unit rate = 0 := by
  unfold riskBefore
  cases point with
  | none => rfl
  | some p => exact if_pos (hoursUntil_nonpos_iff.mpr h)

theorem riskAt_inHours {p : ℝ} (low high : Option ℝ) {now slotStart : Instant} (h : ¬ slotStart ≤ now) :
    (Estimate.inHours (some p) low high).riskAt realFunctions now slotStart =
      roundTo 6 (1 - Real.exp (-((hoursUntil now slotStart / floored p) ^ shapeOf low high * Real.log 2))) := by
  have hahead : ¬ (hoursUntil now slotStart : ℝ) ≤ 0 := mt hoursUntil_nonpos_iff.mp h
  rw [← cdf_fitWeibull p low high (not_le.mp hahead)]
  exact if_neg hahead

theorem riskAt_inDays {p : ℝ} (low high : Option ℝ) {now slotStart : Instant} (h : ¬ slotStart ≤ now) :
    (Estimate.inDays (some p) low high).riskAt realFunctions now slotStart =
      roundTo 6 (1 - Real.exp (-((hoursUntil now slotStart / floored (p / 24)) ^
        shapeOf (low.map (· / 24)) (high.map (· / 24)) * Real.log 2))) := by
  have hahead : ¬ (hoursUntil now slotStart : ℝ) ≤ 0 := mt hoursUntil_nonpos_iff.mp h
  rw [← cdf_fitWeibull (p / 24) (low.map (· / 24)) (high.map (· / 24)) (not_le.mp hahead)]
  refine (if_neg hahead).trans ?_
  show roundTo 6 ((fitWeibull realFunctions (p / 24) _ _).cdf realFunctions (hoursUntil now slotStart * 1)) = _
  rw [mul_one]
  rfl

theorem four_le_rpow {shape : ℝ} (h : 1 / 2 ≤ shape) : (4 : ℝ) ≤ 24 ^ shape := by
  have hsixteen : (16 : ℝ) ^ (1 / 2 : ℝ) = 4 := by
    rw [show (16 : ℝ) = 4 ^ (2 : ℝ) by norm_num, ← Real.rpow_mul (by norm_num)]
    norm_num
  calc (4 : ℝ) = 16 ^ (1 / 2 : ℝ) := hsixteen.symm
    _ ≤ 24 ^ (1 / 2 : ℝ) := Real.rpow_le_rpow (by norm_num) (by norm_num) (by norm_num)
    _ ≤ 24 ^ shape := Real.rpow_le_rpow_of_exponent_le (by norm_num) h

/-- Of a regular estimate the two risks are the same exactly if they come to nothing or to certainty. -/
theorem Regular.riskAt_eq_iff {p : ℝ} {low high : Option ℝ} (hregular : Regular p low high) {now slotStart : Instant}
    (h : ¬ slotStart ≤ now) :
    (Estimate.inHours (some p) low high).riskAt realFunctions now slotStart =
        (Estimate.inDays (some p) low high).riskAt realFunctions now slotStart ↔
      TooSoon (hoursUntil now slotStart) p (shapeOf low high) ∨ TooLate (hoursUntil now slotStart) p (shapeOf low high) := by
  have hpoint := hregular.point
  have hp : 0 < p := by linarith
  have hahead : 0 < (hoursUntil now slotStart : ℝ) := not_le.mp (mt hoursUntil_nonpos_iff.mp h)
  rw [riskAt_inHours low high h, riskAt_inDays low high h, hregular.shapeOf_days, floored_of_le (by linarith : 1 / 10 ^ 6 ≤ p),
    floored_of_le (by linarith : 1 / 10 ^ 6 ≤ p / 24)]
  rw [tooSoon_iff, tooLate_iff]
  generalize (hoursUntil now slotStart : ℝ) = t at hahead ⊢
  have hshape := half_le_shapeOf low high
  generalize shapeOf low high = k at hshape ⊢
  have hlog : 0 < Real.log 2 := Real.log_pos (by norm_num)
  have hbase : 0 < t / p := div_pos hahead hp
  have hhours : 0 < (t / p) ^ k * Real.log 2 := mul_pos (Real.rpow_pos_of_pos hbase k) hlog
  have hdays : t / (p / 24) = 24 * (t / p) := by rw [div_div_eq_mul_div, mul_comm t, mul_div_assoc]
  have hsoon : 24 * t / p = 24 * (t / p) := mul_div_assoc _ _ _
  rw [hsoon, hdays, Real.mul_rpow (by norm_num) hbase.le, mul_assoc]
  have hfour := mul_le_mul_of_nonneg_right (four_le_rpow hshape) hhours.le
  rw [roundTo_eq_iff hhours hfour]
  generalize (24 : ℝ) ^ k * ((t / p) ^ k * Real.log 2) = v
  generalize (t / p) ^ k * Real.log 2 = u
  refine or_congr ?_ ?_
  · -- less than half of the last decimal fails before the slot
    rw [sub_le_comm, ← Real.log_le_iff_le_exp (by norm_num)]
    exact le_neg
  · -- less than half of the last decimal is left
    rw [← Real.le_log_iff_exp_le (by norm_num), one_div, Real.log_inv]
    exact neg_le_neg_iff

end TwinVoice.Maintenance
