import Mathlib.Algebra.Order.Field.Basic
import Mathlib.Data.List.Dedup
import Mathlib.Tactic.Linarith
import Mathlib.Tactic.NormNum
import Mathlib.Tactic.Positivity

/-! # Intervals of remaining life

The estimator of remaining life: a regression on capped labels and, where there
is enough to calibrate on, a conformal one around it. Each gives a point and an
interval; the conformal ones are clipped, the others are a share of the point. -/

namespace TwinVoice.Pdm.Rul

/-- `MIN_CONFORMAL_SAMPLES`. -/
def minConformalSamples : Nat := 10

/-- `RUL_CAP`. -/
def rulCap : Nat := 125

section
variable {K : Type} [LinearOrder K] [Zero K]

/-- `np.clip(x, 0, cap)`. -/
def clip (x cap : K) : K := min (max x 0) cap

theorem clip_nonneg {x cap : K} (hcap : 0 ≤ cap) : 0 ≤ clip x cap := le_min (le_max_right x 0) hcap

theorem clip_le (x cap : K) : clip x cap ≤ cap := min_le_right _ _

theorem clip_mono {x y : K} (h : x ≤ y) (cap : K) : clip x cap ≤ clip y cap :=
  min_le_min_right cap (max_le_max_right 0 h)

/-- With a cap below zero nothing else is left. -/
theorem clip_of_neg {x cap : K} (hcap : cap < 0) : clip x cap = cap := min_eq_right (hcap.le.trans (le_max_right x 0))

/-- What is clipped is out of order only where both ends of it are within the range. -/
theorem clip_le_clip_iff {x y cap : K} (hcap : 0 ≤ cap) :
    clip x cap ≤ clip y cap ↔ x ≤ y ∨ x ≤ 0 ∨ cap ≤ y ∨ cap = 0 := by
  constructor
  · intro h
    by_contra hnot
    simp only [not_or, not_le] at hnot
    obtain ⟨hyx, hx, hy, hne⟩ := hnot
    have hpos : 0 < cap := lt_of_le_of_ne hcap (Ne.symm hne)
    have hlow : clip y cap < clip x cap :=
      (min_le_left _ _).trans_lt (lt_min ((max_lt hyx hx).trans_le (le_max_left x 0)) (max_lt hy hpos))
    exact absurd h hlow.not_ge
  · rintro (h | h | h | h)
    · exact clip_mono h cap
    · rw [clip, max_eq_right h, min_eq_left hcap]
      exact clip_nonneg hcap
    · rw [clip, clip, min_eq_right (h.trans (le_max_left y 0))]
      exact min_le_right _ _
    · subst h
      rw [clip, clip, min_eq_right (le_max_right x 0), min_eq_right (le_max_right y 0)]

/-- `cap_rul`. -/
def capRul (rul : List K) (cap : K) : List K := rul.map (clip · cap)

end

/-! ## The estimator -/

/-- The splits that the calibration leaves out in turn. -/
inductive Folds
  | group (splits : Nat)
  | plain (splits : Nat)

/-- `_folds`. -/
def folds {G : Type} [DecidableEq G] (samples : Nat) (groups : Option (List G)) : Folds :=
  match groups with
  | some groups =>
    if 2 ≤ groups.dedup.length then .group (min 5 groups.dedup.length) else .plain (max 2 (min 5 samples))
  | none => .plain (max 2 (min 5 samples))

section
variable (X G K : Type)

/-- What a conformal regressor says of a vector. -/
structure Conformal [LE K] where
  point : X → K
  low : X → K
  high : X → K
  ordered : ∀ x, low x ≤ high x

/-- The regressors, fitted to vectors and labels; the conformal one may not be installed. -/
structure Libraries [LE K] where
  lgbmRegressor : List X → List K → X → K
  crossConformalRegressor : Option (K → Folds → List X → List K → Option (List G) → Conformal X K)

/-- A fitted `RulEstimator`. -/
structure RulEstimator [LE K] where
  cap : K
  coverage : K
  baseModel : X → K
  conformal : Option (Conformal X K)

/-- The columns of a prediction. -/
structure Prediction where
  point : List K
  low : List K
  high : List K

end

namespace RulEstimator
variable {X G K : Type} [Field K] [LinearOrder K] [DecidableEq G]

/-- `RulEstimator(coverage=…, cap=…).fit(X, y, conformal, groups)`. -/
def fit (libs : Libraries X G K) (cap coverage : K) (rows : List X) (y : List K) (conformal : Bool)
    (groups : Option (List G)) : RulEstimator X K :=
  let yCapped := capRul y cap
  { cap, coverage
    baseModel := libs.lgbmRegressor rows yCapped
    conformal :=
      if conformal = true ∧ minConformalSamples ≤ yCapped.length then
        libs.crossConformalRegressor.map fun regressor =>
          regressor coverage (folds yCapped.length groups) rows yCapped groups
      else none }

/-- `predict`. -/
def predict (e : RulEstimator X K) (rows : List X) : Prediction K :=
  match e.conformal with
  | some conformal =>
    { point := rows.map fun x => clip (conformal.point x) e.cap
      low := rows.map fun x => clip (conformal.low x) e.cap
      high := rows.map fun x => clip (conformal.high x) e.cap }
  | none =>
    let point := rows.map fun x => clip (e.baseModel x) e.cap
    { point
      low := point.map (· * 0.8)
      high := point.map (· * 1.2) }

end RulEstimator

/-! ## The order of an interval -/

/-- The interval of a row is around its point and within the cap. -/
def Prediction.OrderedAt {K : Type} [LE K] [Zero K] (p : Prediction K) (cap : K) (i : Nat) : Prop :=
  ∃ point low high, p.point[i]? = some point ∧ p.low[i]? = some low ∧ p.high[i]? = some high ∧
    0 ≤ low ∧ low ≤ point ∧ point ≤ high ∧ high ≤ cap

section
variable {X G K : Type} [Field K] [LinearOrder K]

/-- What the regressors say of a vector keeps its interval in order: around a conformal point lies the
conformal interval, as far as it is within the cap, and another point leaves room above it. -/
def RulEstimator.InOrder (e : RulEstimator X K) (x : X) : Prop :=
  0 ≤ e.cap ∧ match e.conformal with
    | some conformal =>
      (conformal.low x ≤ conformal.point x ∨ conformal.low x ≤ 0 ∨ e.cap ≤ conformal.point x ∨ e.cap = 0) ∧
        (conformal.point x ≤ conformal.high x ∨ conformal.point x ≤ 0 ∨ e.cap ≤ conformal.high x ∨ e.cap = 0)
    | none => e.baseModel x * 1.2 ≤ e.cap ∨ e.baseModel x ≤ 0 ∨ e.cap = 0

theorem orderedAt_predict_of_conformal {e : RulEstimator X K} {conformal : Conformal X K}
    (h : e.conformal = some conformal) {rows : List X} {i : Nat} {x : X} (hx : rows[i]? = some x) :
    (e.predict rows).OrderedAt e.cap i ↔ e.InOrder x := by
  have hpredict : (e.predict rows).OrderedAt e.cap i ↔ 0 ≤ clip (conformal.low x) e.cap ∧
      clip (conformal.low x) e.cap ≤ clip (conformal.point x) e.cap ∧
      clip (conformal.point x) e.cap ≤ clip (conformal.high x) e.cap ∧ clip (conformal.high x) e.cap ≤ e.cap := by
    simp [RulEstimator.predict, h, Prediction.OrderedAt, hx]
  rw [hpredict, RulEstimator.InOrder, h]
  rcases le_or_gt 0 e.cap with hcap | hcap
  · rw [clip_le_clip_iff hcap, clip_le_clip_iff hcap]
    exact ⟨fun ⟨_, hlow, hhigh, _⟩ => ⟨hcap, hlow, hhigh⟩,
      fun ⟨_, hlow, hhigh⟩ => ⟨clip_nonneg hcap, hlow, hhigh, clip_le _ _⟩⟩
  · rw [clip_of_neg hcap]
    exact iff_of_false (fun hall => absurd hall.1 hcap.not_ge) (fun hall => absurd hall.1 hcap.not_ge)

variable [IsStrictOrderedRing K]

/-- There is room above a clipped point just if it was not clipped from above, and small. -/
theorem clip_band_iff {x cap : K} (hcap : 0 ≤ cap) : clip x cap * 1.2 ≤ cap ↔ x * 1.2 ≤ cap ∨ x ≤ 0 ∨ cap = 0 := by
  have hband : (1.2 : K) = 6 / 5 := by norm_num
  rw [hband]
  rcases le_or_gt x 0 with hx | hx
  · rw [clip, max_eq_right hx, min_eq_left hcap, zero_mul]
    exact iff_of_true hcap (.inr (.inl hx))
  · rw [clip, max_eq_left hx.le]
    rcases le_total x cap with hle | hle
    · rw [min_eq_left hle]
      refine ⟨.inl, ?_⟩
      rintro (h | h | h)
      · exact h
      · exact absurd h hx.not_ge
      · exact absurd (hle.trans_eq h) hx.not_ge
    · rw [min_eq_right hle]
      constructor
      · intro h
        exact .inr (.inr (by linarith))
      · rintro (h | h | h)
        · linarith
        · exact absurd h hx.not_ge
        · rw [h, zero_mul]

theorem orderedAt_predict_of_base {e : RulEstimator X K} (h : e.conformal = none) {rows : List X} {i : Nat} {x : X}
    (hx : rows[i]? = some x) : (e.predict rows).OrderedAt e.cap i ↔ e.InOrder x := by
  have hpredict : (e.predict rows).OrderedAt e.cap i ↔ 0 ≤ clip (e.baseModel x) e.cap * 0.8 ∧
      clip (e.baseModel x) e.cap * 0.8 ≤ clip (e.baseModel x) e.cap ∧
      clip (e.baseModel x) e.cap ≤ clip (e.baseModel x) e.cap * 1.2 ∧ clip (e.baseModel x) e.cap * 1.2 ≤ e.cap := by
    simp [RulEstimator.predict, h, Prediction.OrderedAt, hx]
  have hlow : (0.8 : K) = 4 / 5 := by norm_num
  have hhigh : (1.2 : K) = 6 / 5 := by norm_num
  rw [hpredict, RulEstimator.InOrder, h]
  rcases le_or_gt 0 e.cap with hcap | hcap
  · rw [clip_band_iff hcap]
    have hpoint : 0 ≤ clip (e.baseModel x) e.cap := clip_nonneg hcap
    refine ⟨fun hall => ⟨hcap, hall.2.2.2⟩, fun hroom => ⟨?_, ?_, ?_, hroom.2⟩⟩
    · rw [hlow]
      positivity
    · rw [hlow]
      linarith
    · rw [hhigh]
      linarith
  · refine iff_of_false (fun hall => ?_) (fun hall => absurd hall.1 hcap.not_ge)
    have hneg := hall.1
    rw [clip_of_neg hcap, hlow] at hneg
    linarith

/-- Whatever the regressors say, an interval starts from zero on and does not end before it starts. -/
theorem predict_low_le_high {e : RulEstimator X K} (hcap : 0 ≤ e.cap) {rows : List X} {i : Nat} {x : X}
    (hx : rows[i]? = some x) : ∃ low high, (e.predict rows).low[i]? = some low ∧ (e.predict rows).high[i]? = some high ∧
      0 ≤ low ∧ low ≤ high := by
  have hlow : (0.8 : K) = 4 / 5 := by norm_num
  have hhigh : (1.2 : K) = 6 / 5 := by norm_num
  cases h : e.conformal with
  | some conformal =>
    refine ⟨clip (conformal.low x) e.cap, clip (conformal.high x) e.cap, ?_, ?_, clip_nonneg hcap,
      clip_mono (conformal.ordered x) e.cap⟩
    · simp [RulEstimator.predict, h, hx]
    · simp [RulEstimator.predict, h, hx]
  | none =>
    have hpoint : 0 ≤ clip (e.baseModel x) e.cap := clip_nonneg hcap
    refine ⟨clip (e.baseModel x) e.cap * 0.8, clip (e.baseModel x) e.cap * 1.2, ?_, ?_, ?_, ?_⟩
    · simp [RulEstimator.predict, h, hx]
    · simp [RulEstimator.predict, h, hx]
    · rw [hlow]
      positivity
    · rw [hlow, hhigh]
      linarith

variable [DecidableEq G]

/-- The interval of a vector, in whatever batch, is in order and within the cap of the labels just if what the
regressors say of it keeps it so. -/
theorem interval_ordered_iff (libs : Libraries X G K) (cap coverage : K) (rows : List X) (y : List K) (conformal : Bool)
    (groups : Option (List G)) (batch : List X) (i : Nat) (x : X) (hx : batch[i]? = some x) :
    ((RulEstimator.fit libs cap coverage rows y conformal groups).predict batch).OrderedAt cap i ↔
      (RulEstimator.fit libs cap coverage rows y conformal groups).InOrder x := by
  cases hconformal : (RulEstimator.fit libs cap coverage rows y conformal groups).conformal with
  | some regressor => exact orderedAt_predict_of_conformal hconformal hx
  | none => exact orderedAt_predict_of_base hconformal hx

/-- A regression that says the same of every vector, where no conformal one is installed. -/
def constant (life : K) : Libraries X G K := ⟨fun _ _ _ => life, none⟩

end

/-- A regression that says 100 leaves room for a fifth more. -/
theorem interval_ordered_of_room :
    ((RulEstimator.fit (constant 100 : Libraries Unit Nat ℚ) rulCap 0.9 [] [] true none).predict [()]).OrderedAt
      rulCap 0 := by
  refine (interval_ordered_iff _ _ _ _ _ _ _ _ _ () rfl).mpr ⟨Nat.cast_nonneg rulCap, ?_⟩
  show (100 : ℚ) * 1.2 ≤ (rulCap : ℚ) ∨ _
  norm_num [rulCap]

/-- Where too little is left to calibrate on, a regression at the cap has an interval that ends above it. -/
theorem interval_beyond_cap : ¬∀ (libs : Libraries Unit Nat ℚ) (cap coverage : ℚ) (rows : List Unit) (y : List ℚ)
    (conformal : Bool) (groups : Option (List Nat)) (batch : List Unit) (i : Nat), 0 ≤ cap → i < batch.length →
    ((RulEstimator.fit libs cap coverage rows y conformal groups).predict batch).OrderedAt cap i := by
  intro h
  obtain ⟨point, low, high, -, -, hhigh, -, -, -, hcap⟩ :=
    h (constant rulCap) rulCap 0.9 [()] [rulCap] true none [()] 0 (Nat.cast_nonneg rulCap) Nat.one_pos
  simp [RulEstimator.predict, RulEstimator.fit, constant, clip, rulCap, capRul, minConformalSamples] at hhigh hcap
  norm_num [← hhigh] at hcap

end TwinVoice.Pdm.Rul
