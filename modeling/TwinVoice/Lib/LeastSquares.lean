import Mathlib.Algebra.BigOperators.Ring.List
import Mathlib.Algebra.Order.BigOperators.Group.List
import Mathlib.Algebra.Order.Ring.Basic
import Mathlib.Tactic.Linarith
import Mathlib.Tactic.LinearCombination
import TwinVoice.Lib.Grouping

/-! # Least squares

Deviations of numbers from their mean, and the line that fits points best. One
more number adds to the deviations by its distance from the others. The sum of
the squared residuals of any line is that of the best one plus the
squares of how far the two are apart at the points, so no line does better and
no other line as well. -/

namespace TwinVoice.Lib.LeastSquares

open TwinVoice.Lib.Grouping

variable {K : Type*} [Field K]

/-- The sum of the squared deviations from a number. -/
def squares (xs : List K) (c : K) : K := (xs.map fun x => (x - c) ^ 2).sum

/-- The sum of the products of the deviations from two numbers. -/
def products (points : List (K × K)) (c d : K) : K := (points.map fun p => (p.1 - c) * (p.2 - d)).sum

/-- The sum of the squared residuals of a line. -/
def residuals (points : List (K × K)) (intercept slope : K) : K :=
  (points.map fun p => (p.2 - (intercept + slope * p.1)) ^ 2).sum

theorem squares_perm {xs ys : List K} (h : xs.Perm ys) (c : K) : squares xs c = squares ys c :=
  (h.map _).sum_eq

theorem mean_perm {xs ys : List K} (h : xs.Perm ys) : mean xs = mean ys := by
  rw [mean, mean, h.sum_eq, h.length_eq]

theorem sum_sub (xs : List K) (c : K) : (xs.map fun x => x - c).sum = xs.sum - xs.length * c := by
  induction xs with
  | nil => simp
  | cons x xs ih =>
    rw [List.map_cons, List.sum_cons, ih, List.sum_cons, List.length_cons]
    push_cast
    ring

theorem squares_add (xs : List K) (c d : K) :
    squares xs c = squares xs d + 2 * (d - c) * (xs.map fun x => x - d).sum + xs.length * (d - c) ^ 2 := by
  unfold squares
  induction xs with
  | nil => simp
  | cons x xs ih =>
    simp only [List.map_cons, List.sum_cons, List.length_cons, ih]
    push_cast
    ring

/-- Expanding the residuals of any line around another one. -/
theorem residuals_expand (points : List (K × K)) (c d slope slope' e : K) :
    (points.map fun p => (p.2 - d - slope * (p.1 - c) + (slope - slope') * (p.1 - c) + e) ^ 2).sum =
      (points.map fun p => (p.2 - d - slope * (p.1 - c)) ^ 2).sum +
        (slope - slope') ^ 2 * squares (points.map Prod.fst) c + points.length * e ^ 2 +
        2 * (slope - slope') * (products points c d - slope * squares (points.map Prod.fst) c) +
        2 * e * ((points.map fun p => p.2 - d).sum - slope * (points.map fun p => p.1 - c).sum) +
        2 * e * (slope - slope') * (points.map fun p => p.1 - c).sum := by
  unfold squares products
  induction points with
  | nil => simp
  | cons p points ih =>
    simp only [List.map_cons, List.sum_cons, List.length_cons, ih]
    push_cast
    ring

def bestSlope (points : List (K × K)) : K :=
  products points (mean (points.map Prod.fst)) (mean (points.map Prod.snd)) /
    squares (points.map Prod.fst) (mean (points.map Prod.fst))

def bestIntercept (points : List (K × K)) : K :=
  mean (points.map Prod.snd) - bestSlope points * mean (points.map Prod.fst)

section
variable [CharZero K]

theorem sum_sub_mean (xs : List K) (h : xs ≠ []) : (xs.map fun x => x - mean xs).sum = 0 := by
  rw [sum_sub, length_mul_mean h, sub_self]

/-- One more number adds its distance from the others. -/
theorem squares_cons (x : K) {xs : List K} (h : xs ≠ []) :
    squares (x :: xs) (mean (x :: xs)) =
      squares xs (mean xs) + xs.length / (xs.length + 1) * (x - mean xs) ^ 2 := by
  have hmean : mean (x :: xs) = (x + xs.length * mean xs) / (xs.length + 1) := by
    rw [mean, List.sum_cons, List.length_cons, length_mul_mean h, Nat.cast_add_one]
  have hne : (xs.length : K) + 1 ≠ 0 := Nat.cast_add_one_ne_zero _
  have hcons : squares (x :: xs) (mean (x :: xs)) = (x - mean (x :: xs)) ^ 2 + squares xs (mean (x :: xs)) := by
    simp [squares]
  rw [hcons, squares_add xs _ (mean xs), sum_sub_mean xs h, hmean]
  field_simp
  ring

/-- The residuals of a line are those of the best line and how far it is from that one. -/
theorem residuals_eq {points : List (K × K)} (h : squares (points.map Prod.fst) (mean (points.map Prod.fst)) ≠ 0)
    (intercept slope : K) :
    residuals points intercept slope = residuals points (bestIntercept points) (bestSlope points) +
      ((bestSlope points - slope) ^ 2 * squares (points.map Prod.fst) (mean (points.map Prod.fst)) +
        points.length * (mean (points.map Prod.snd) - (intercept + slope * mean (points.map Prod.fst))) ^ 2) := by
  have hne : points ≠ [] := by
    rintro rfl
    exact h rfl
  have hx : (points.map fun p => p.1 - mean (points.map Prod.fst)).sum = 0 := by
    have hsum := sum_sub_mean (points.map Prod.fst) (by simpa using hne)
    rwa [List.map_map] at hsum
  have hy : (points.map fun p => p.2 - mean (points.map Prod.snd)).sum = 0 := by
    have hsum := sum_sub_mean (points.map Prod.snd) (by simpa using hne)
    rwa [List.map_map] at hsum
  have hslope : products points (mean (points.map Prod.fst)) (mean (points.map Prod.snd)) -
      bestSlope points * squares (points.map Prod.fst) (mean (points.map Prod.fst)) = 0 := by
    rw [bestSlope, div_mul_cancel₀ _ h, sub_self]
  have hexpand := residuals_expand points (mean (points.map Prod.fst)) (mean (points.map Prod.snd)) (bestSlope points)
    slope (mean (points.map Prod.snd) - (intercept + slope * mean (points.map Prod.fst)))
  rw [hx, hy, hslope, mul_zero, mul_zero, mul_zero, sub_self, mul_zero, add_zero, add_zero, add_zero,
    add_assoc] at hexpand
  have hline : ∀ p : K × K, p.2 - (intercept + slope * p.1) =
      p.2 - mean (points.map Prod.snd) - bestSlope points * (p.1 - mean (points.map Prod.fst)) +
        (bestSlope points - slope) * (p.1 - mean (points.map Prod.fst)) +
        (mean (points.map Prod.snd) - (intercept + slope * mean (points.map Prod.fst))) := by
    intro p
    ring
  have hbest : ∀ p : K × K, p.2 - (bestIntercept points + bestSlope points * p.1) =
      p.2 - mean (points.map Prod.snd) - bestSlope points * (p.1 - mean (points.map Prod.fst)) := by
    intro p
    rw [bestIntercept]
    ring
  simp only [residuals, hline, hbest, hexpand]

end

section
variable [LinearOrder K] [IsStrictOrderedRing K]

theorem squares_nonneg (xs : List K) (c : K) : 0 ≤ squares xs c :=
  List.sum_nonneg (List.forall_mem_map.mpr fun _ _ => sq_nonneg _)

theorem squares_eq_zero {xs : List K} {c : K} : squares xs c = 0 ↔ ∀ x ∈ xs, x = c := by
  have hnonneg : ∀ s ∈ xs.map fun x => (x - c) ^ 2, 0 ≤ s := List.forall_mem_map.mpr fun _ _ => sq_nonneg _
  constructor
  · intro h x hx
    have hzero := List.all_zero_of_le_zero_le_of_sum_eq_zero hnonneg h (List.mem_map_of_mem hx)
    exact sub_eq_zero.mp (pow_eq_zero_iff two_ne_zero |>.mp hzero)
  · intro h
    refine List.sum_eq_zero (List.forall_mem_map.mpr fun x hx => ?_)
    rw [h x hx, sub_self, zero_pow two_ne_zero]

theorem mean_eq {xs : List K} {c : K} (hne : xs ≠ []) (h : ∀ x ∈ xs, x = c) : mean xs = c := by
  rw [mean, List.sum_eq_card_nsmul xs c h, nsmul_eq_mul, mul_comm, mul_div_cancel_right₀]
  exact Nat.cast_ne_zero.mpr (mt List.length_eq_zero_iff.mp hne)

/-- Numbers deviate from their mean unless they are all equal. -/
theorem squares_mean_eq_zero {xs : List K} : squares xs (mean xs) = 0 ↔ ∀ x ∈ xs, ∀ y ∈ xs, x = y := by
  rw [squares_eq_zero]
  constructor
  · intro h x hx y hy
    rw [h x hx, h y hy]
  · intro h x hx
    exact (mean_eq (List.ne_nil_of_mem hx) fun y hy => h y hy x hx).symm

theorem squares_map_pos {α : Type*} {f : α → K} {rows : List α} :
    0 < squares (rows.map f) (mean (rows.map f)) ↔ ∃ p ∈ rows, ∃ q ∈ rows, f p ≠ f q := by
  rw [(squares_nonneg _ _).lt_iff_ne', Ne, squares_mean_eq_zero]
  simp only [List.forall_mem_map, not_forall, exists_prop]

variable {points : List (K × K)} (h : squares (points.map Prod.fst) (mean (points.map Prod.fst)) ≠ 0)
include h

/-- No line has less residuals. -/
theorem residuals_best_le (intercept slope : K) :
    residuals points (bestIntercept points) (bestSlope points) ≤ residuals points intercept slope := by
  rw [residuals_eq h intercept slope]
  refine le_add_of_nonneg_right (add_nonneg ?_ ?_)
  · exact mul_nonneg (sq_nonneg _) (squares_nonneg _ _)
  · exact mul_nonneg (Nat.cast_nonneg _) (sq_nonneg _)

/-- No other line has as little. -/
theorem best_unique {intercept slope : K}
    (hle : residuals points intercept slope ≤ residuals points (bestIntercept points) (bestSlope points)) :
    intercept = bestIntercept points ∧ slope = bestSlope points := by
  have hpos : 0 < squares (points.map Prod.fst) (mean (points.map Prod.fst)) := (squares_nonneg _ _).lt_of_ne' h
  have hlength : (0 : K) < points.length := by
    refine Nat.cast_pos.mpr (List.length_pos_iff.mpr ?_)
    rintro rfl
    exact h rfl
  have hslopes : 0 ≤ (bestSlope points - slope) ^ 2 * squares (points.map Prod.fst) (mean (points.map Prod.fst)) :=
    mul_nonneg (sq_nonneg _) hpos.le
  have hmeans : 0 ≤ (points.length : K) *
      (mean (points.map Prod.snd) - (intercept + slope * mean (points.map Prod.fst))) ^ 2 :=
    mul_nonneg hlength.le (sq_nonneg _)
  rw [residuals_eq h intercept slope] at hle
  have hslope : bestSlope points - slope = 0 := by
    have hzero : (bestSlope points - slope) ^ 2 * squares (points.map Prod.fst) (mean (points.map Prod.fst)) = 0 := by
      linarith
    exact pow_eq_zero_iff two_ne_zero |>.mp ((mul_eq_zero_iff_right hpos.ne').mp hzero)
  have hintercept : mean (points.map Prod.snd) - (intercept + slope * mean (points.map Prod.fst)) = 0 := by
    have hzero : (points.length : K) *
        (mean (points.map Prod.snd) - (intercept + slope * mean (points.map Prod.fst))) ^ 2 = 0 := by linarith
    exact pow_eq_zero_iff two_ne_zero |>.mp ((mul_eq_zero_iff_left hlength.ne').mp hzero)
  have heq : slope = bestSlope points := (sub_eq_zero.mp hslope).symm
  refine ⟨?_, heq⟩
  rw [bestIntercept, ← heq]
  linarith

end

end TwinVoice.Lib.LeastSquares
