import Mathlib.Analysis.Real.Sqrt
import TwinVoice.Basic
import TwinVoice.Lib.LeastSquares
import TwinVoice.Lib.Rounding

/-! # Energy baselines

`fit_baseline` fits the hourly energy of a scope by its output, and
`find_anomalies` lists the hours that are too far above such a line. Before
the rounding at the end there is a baseline for eight points and more unless
the output is the same in all of them, and it is the line of least squares. -/

namespace TwinVoice.Analytics

open TwinVoice.Lib TwinVoice.Lib.Grouping TwinVoice.Lib.LeastSquares

/-- `ANOMALY_SIGMA`. -/
def anomalySigma : Nat := 3

/-- `MIN_BASELINE_POINTS`. -/
def minBaselinePoints : Nat := 8

structure Baseline (K : Type) where
  interceptKwh : K
  slopeKwhPerUnit : K
  r2 : Option K
  residualStd : K
  n : Nat

section
variable {K : Type} [Field K] [LinearOrder K]

def Baseline.expected (b : Baseline K) (units : K) : K := b.interceptKwh + b.slopeKwhPerUnit * units

/-- `residual_sigma`. -/
def Baseline.residualSigma (b : Baseline K) (units actualKwh : K) : K :=
  if b.residualStd ≤ 0 then 0 else (actualKwh - b.expected units) / b.residualStd

/-- `fit_baseline` on pairs of units and energy, before the numbers are rounded. -/
def fitted (sqrt : K → K) (points : List (K × K)) : Option (Baseline K) :=
  if points.length < minBaselinePoints then none
  else
    let n := points.length
    let meanX := mean (points.map Prod.fst)
    let meanY := mean (points.map Prod.snd)
    let sxx := squares (points.map Prod.fst) meanX
    if sxx ≤ 0 then none
    else
      let slope := products points meanX meanY / sxx
      let intercept := meanY - slope * meanX
      let ssRes := residuals points intercept slope
      let ssTot := squares (points.map Prod.snd) meanY
      some
        { interceptKwh := intercept
          slopeKwhPerUnit := slope
          r2 := if 0 < ssTot then some (1 - ssRes / ssTot) else none
          residualStd := if 2 < n then sqrt (ssRes / ((n : Int) - 2 : Int)) else 0
          n := n }

variable [FloorRing K]

def Baseline.rounded (b : Baseline K) : Baseline K :=
  { b with
    interceptKwh := Rounding.roundTo 6 b.interceptKwh
    slopeKwhPerUnit := Rounding.roundTo 6 b.slopeKwhPerUnit
    r2 := b.r2.map (Rounding.roundTo 4)
    residualStd := Rounding.roundTo 6 b.residualStd }

/-- `fit_baseline`. -/
def fitBaseline (sqrt : K → K) (points : List (K × K)) : Option (Baseline K) :=
  (fitted sqrt points).map Baseline.rounded

end

/-- The energy of an hour by its output. -/
structure Observation (K : Type) where
  time : Instant
  units : K
  energyKwh : K

structure EnergyAnomaly (K : Type) where
  time : Instant
  scopeId : Uuid
  energyKwh : K
  expectedKwh : K
  units : K
  sigma : K
  healthIndex : Option K

section
variable {K : Type} [Field K] [LinearOrder K] [FloorRing K]

/-- `find_anomalies`. -/
def findAnomalies (baseline : Baseline K) (observations : List (Observation K)) (scopeId : Uuid) (sigma : K) :
    List (EnergyAnomaly K) :=
  observations.filterMap fun o =>
    let deviation := baseline.residualSigma o.units o.energyKwh
    if sigma < deviation then
      some
        { time := o.time
          scopeId := scopeId
          energyKwh := Rounding.roundTo 3 o.energyKwh
          expectedKwh := Rounding.roundTo 3 (baseline.expected o.units)
          units := o.units
          sigma := Rounding.roundTo 3 deviation
          healthIndex := none }
    else none

end

/-! ## The line of least squares -/

/-- There are enough points, and the output is not the same in all of them. -/
def Determined (points : List (ℝ × ℝ)) : Prop :=
  minBaselinePoints ≤ points.length ∧ ∃ p ∈ points, ∃ q ∈ points, p.1 ≠ q.1

/-- The baseline is the line with the least residuals, and its figures are those of that line. -/
structure FitsBest (points : List (ℝ × ℝ)) (b : Baseline ℝ) : Prop where
  least : ∀ intercept slope, residuals points b.interceptKwh b.slopeKwhPerUnit ≤ residuals points intercept slope
  only : ∀ intercept slope,
    residuals points intercept slope ≤ residuals points b.interceptKwh b.slopeKwhPerUnit →
      intercept = b.interceptKwh ∧ slope = b.slopeKwhPerUnit
  r2 : (∃ p ∈ points, ∃ q ∈ points, p.2 ≠ q.2) →
    b.r2 = some (1 - residuals points b.interceptKwh b.slopeKwhPerUnit /
      squares (points.map Prod.snd) (mean (points.map Prod.snd)))
  flat : (∀ p ∈ points, ∀ q ∈ points, p.2 = q.2) → b.r2 = none
  residualStd : b.residualStd =
    √(residuals points b.interceptKwh b.slopeKwhPerUnit / (points.length - 2))
  n : b.n = points.length

theorem fitted_eq_none {points : List (ℝ × ℝ)} : fitted Real.sqrt points = none ↔ ¬ Determined points := by
  rw [Determined, ← squares_map_pos, fitted]
  by_cases hn : points.length < minBaselinePoints
  · simp [hn]
  · rw [if_neg hn, not_and_or, or_iff_right (not_not_intro (not_lt.mp hn)), not_lt]
    dsimp only
    split
    · exact iff_of_true rfl ‹_›
    · exact iff_of_false (Option.some_ne_none _) ‹_›

theorem fitted_fitsBest {points : List (ℝ × ℝ)} {b : Baseline ℝ} (h : fitted Real.sqrt points = some b) :
    FitsBest points b := by
  have hdetermined : Determined points := by
    by_contra hnot
    rw [fitted_eq_none.mpr hnot] at h
    cases h
  obtain ⟨hn, hvaries⟩ := hdetermined
  have hne : squares (points.map Prod.fst) (mean (points.map Prod.fst)) ≠ 0 := (squares_map_pos.mpr hvaries).ne'
  have hlong : 2 < points.length := lt_of_lt_of_le (by decide) hn
  rw [fitted, if_neg (not_lt.mpr hn)] at h
  dsimp only at h
  rw [if_neg (not_le.mpr (squares_map_pos.mpr hvaries)), if_pos hlong, Option.some_inj] at h
  subst h
  exact
    { least := residuals_best_le hne
      only := fun _ _ => best_unique hne
      r2 := fun henergy => if_pos (squares_map_pos.mpr henergy)
      flat := fun hflat => if_neg fun hpos => by
        obtain ⟨p, hp, q, hq, hpq⟩ := squares_map_pos.mp hpos
        exact hpq (hflat p hp q hq)
      residualStd := by
        push_cast
        rfl
      n := rfl }

/-- There is a baseline exactly for points that determine a line, and it is the line of least squares. -/
theorem fitted_spec (points : List (ℝ × ℝ)) :
    ((fitted Real.sqrt points).isSome ↔ Determined points) ∧ ∀ b ∈ fitted Real.sqrt points, FitsBest points b := by
  refine ⟨?_, fun b => fitted_fitsBest⟩
  rw [← not_iff_not, ← fitted_eq_none, Bool.not_eq_true, Option.isSome_eq_false_iff, Option.isNone_iff_eq_none]

end TwinVoice.Analytics
