import Mathlib.Algebra.BigOperators.Fin
import TwinVoice.Lib.Quadratics
import TwinVoice.Xai.Attributions

/-! # Integrated gradients

Central differences at the midpoints of equal steps from the baseline to the
point. Both are exact for polynomials of degree at most two, so the
contributions add up to what the score gains. -/

namespace TwinVoice.Xai.Exact

open TwinVoice.Lib.Quadratics

/-- The time that it takes is left out. -/
structure ExplanationResult (K : Type) where
  method : String
  baseValue : K
  attributions : List (Attribution K)

section
variable {K : Type} [Field K] {n : Nat} (predict : (Fin n → K) → K)

/-- `eps`. -/
def probe : K := 1e-4

/-- The point of a step, halfway through it. -/
def pathPoint (baseline diff : Fin n → K) (steps step : Nat) : Fin n → K :=
  fun j => baseline j + (step + 0.5) / steps * diff j

/-- The central difference in one feature. -/
def slope (point : Fin n → K) (j : Fin n) : K :=
  let up := Function.update point j (point j + probe)
  let down := Function.update point j (point j - probe)
  (predict up - predict down) / ((2 : Nat) * probe)

/-- `grads` after all steps. -/
def gradients (baseline diff : Fin n → K) (steps : Nat) : Fin n → K :=
  (List.range steps).foldl (fun grads step j => grads j + slope predict (pathPoint baseline diff steps step) j) 0

def contributions (point baseline : Fin n → K) (steps : Nat) : Fin n → K :=
  let diff := fun j => point j - baseline j
  fun j => diff j * gradients predict baseline diff steps j / steps

variable [LinearOrder K]

def integratedGradients (t : Texts) (argsort : ∀ n, Argsort K n) (l : FeatureLabels) (point baseline : Fin n → K)
    (names : List String) (steps : Nat) : Except XaiError (ExplanationResult K) := do
  let attributions ← buildAttributions t argsort l names (List.ofFn point)
    (List.ofFn (contributions predict point baseline steps))
  return ⟨"integrated_gradients", predict baseline, attributions⟩

end

section
variable {K : Type} [Field K] {n : Nat} {predict : (Fin n → K) → K}

theorem slope_eq (point : Fin n → K) (j : Fin n) : slope predict point j =
    (predict (point + Pi.single j probe) - predict (point - Pi.single j probe)) / (2 * probe) := by
  have hmove : ∀ d, Function.update point j (point j + d) = point + Pi.single j d := by
    intro d
    funext i
    rcases eq_or_ne i j with rfl | hne
    · simp
    · simp [hne]
  have hdown : Function.update point j (point j - probe) = point - Pi.single j probe := by
    rw [sub_eq_add_neg, hmove, Pi.single_neg, ← sub_eq_add_neg]
  rw [slope, hmove, hdown, Nat.cast_ofNat]

theorem gradients_eq (baseline diff : Fin n → K) (steps : Nat) (j : Fin n) : gradients predict baseline diff steps j =
    ∑ step ∈ Finset.range steps, slope predict (pathPoint baseline diff steps step) j := by
  -- The fold over the first steps, with the points of all of them.
  have hfold : ∀ first, (List.range first).foldl
      (fun grads step j => grads j + slope predict (pathPoint baseline diff steps step) j) (0 : Fin n → K) j =
        ∑ step ∈ Finset.range first, slope predict (pathPoint baseline diff steps step) j := by
    intro first
    induction first with
    | zero => rfl
    | succ first ih => rw [List.range_succ, List.foldl_concat, ih, Finset.sum_range_succ]
  exact hfold steps

/-- The contributions to a quadratic score add up to its gain. -/
theorem sum_contributions [CharZero K] (hpredict : Quadratic predict) (point baseline : Fin n → K) {steps : Nat}
    (hsteps : 0 < steps) : ∑ j, contributions predict point baseline steps j = predict point - predict baseline := by
  have hprobe : (probe : K) ≠ 0 := by norm_num [probe]
  have hpath : ∀ step, pathPoint baseline (point - baseline) steps step =
      baseline + (((step : K) + 1 / 2) / steps) • (point - baseline) := by
    intro step
    funext j
    norm_num [pathPoint]
  have hgain := sum_gradients hpredict hprobe hsteps baseline (point - baseline) _ hpath
  rw [add_sub_cancel] at hgain
  rw [← hgain]
  refine Finset.sum_congr rfl fun j _ => ?_
  rw [contributions]
  simp only [gradients_eq, slope_eq]
  rfl

end

section
variable {K : Type} [Field K] [LinearOrder K] [IsStrictOrderedRing K] {n : Nat} (t : Texts)
  (argsort : ∀ n, Argsort K n) (l : FeatureLabels)

/-- The contributions to a polynomial of degree at most two add up to the score at the point less that at the
baseline. -/
theorem integratedGradients_complete {p : MvPolynomial (Fin n) K} (hp : p.totalDegree ≤ 2) (point baseline : Fin n → K)
    {names : List String} (hnames : names.length = n) {steps : Nat} (hsteps : 0 < steps) :
    ∃ result, integratedGradients (fun v => MvPolynomial.eval v p) t argsort l point baseline names steps = .ok result ∧
      (result.attributions.map Attribution.contribution).sum = MvPolynomial.eval point p - MvPolynomial.eval baseline p := by
  have hlengths : names.length = (List.ofFn point).length ∧ (List.ofFn point).length =
      (List.ofFn (contributions (fun v => MvPolynomial.eval v p) point baseline steps)).length := by
    simp [hnames]
  obtain ⟨out, hbuild, hlists⟩ := buildAttributions_lists hlengths
  refine ⟨⟨"integrated_gradients", MvPolynomial.eval baseline p, out⟩, ?_, ?_⟩
  · rw [integratedGradients, hbuild]
    rfl
  · change (out.map Attribution.contribution).sum = _
    rw [(hlists.contributions_perm hlengths).sum_eq, List.sum_ofFn]
    exact sum_contributions (quadratic_eval hp) point baseline hsteps

end

/-- A product of two features, in one step from the origin. -/
theorem product_complete : ∃ result,
    integratedGradients (fun v => MvPolynomial.eval v (MvPolynomial.X 0 * MvPolynomial.X 1 : MvPolynomial (Fin 2) ℚ))
        asciiTexts sorting FeatureLabels.shipped ![3, 4] ![0, 0] ["load_pct", "speed"] 1 = .ok result ∧
      (result.attributions.map Attribution.contribution).sum =
        MvPolynomial.eval ![3, 4] (MvPolynomial.X 0 * MvPolynomial.X 1) -
          MvPolynomial.eval ![0, 0] (MvPolynomial.X 0 * MvPolynomial.X 1 : MvPolynomial (Fin 2) ℚ) := by
  have hdegree : (MvPolynomial.X 0 * MvPolynomial.X 1 : MvPolynomial (Fin 2) ℚ).totalDegree ≤ 2 := by
    refine (MvPolynomial.totalDegree_mul _ _).trans ?_
    rw [MvPolynomial.totalDegree_X, MvPolynomial.totalDegree_X]
  exact integratedGradients_complete asciiTexts sorting FeatureLabels.shipped hdegree ![3, 4] ![0, 0] rfl Nat.one_pos

end TwinVoice.Xai.Exact
