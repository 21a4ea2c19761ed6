import Mathlib.Algebra.BigOperators.Field
import Mathlib.Algebra.BigOperators.Intervals
import Mathlib.Algebra.MvPolynomial.Degrees
import Mathlib.LinearAlgebra.Pi
import Mathlib.LinearAlgebra.BilinearMap
import Mathlib.Tactic.FieldSimp
import Mathlib.Tactic.LinearCombination
import Mathlib.Tactic.Ring

/-! # Quadratic functions

A constant, a linear and a bilinear part. Polynomials of total degree at most
two are such functions. For them the central difference is the derivative for
any distance, and the derivative is affine, so its mean over the midpoints of
equal steps along a segment is what the function gains on it. -/

namespace TwinVoice.Lib.Quadratics

section
variable {K V : Type*} [Field K] [AddCommGroup V] [Module K V]

def Quadratic (f : V → K) : Prop :=
  ∃ (c : K) (linear : V →ₗ[K] K) (bilinear : V →ₗ[K] V →ₗ[K] K), ∀ v, f v = c + linear v + bilinear v v

theorem quadratic_const (c : K) : Quadratic fun _ : V => c := ⟨c, 0, 0, fun v => by simp⟩

theorem quadratic_linear (linear : V →ₗ[K] K) : Quadratic fun v => linear v := ⟨0, linear, 0, fun v => by simp⟩

theorem quadratic_mul (linear linear' : V →ₗ[K] K) : Quadratic fun v => linear v * linear' v :=
  ⟨0, 0, linear.smulRight linear', fun v => by simp⟩

theorem Quadratic.add {f g : V → K} (hf : Quadratic f) (hg : Quadratic g) : Quadratic fun v => f v + g v := by
  obtain ⟨c, linear, bilinear, hf⟩ := hf
  obtain ⟨c', linear', bilinear', hg⟩ := hg
  refine ⟨c + c', linear + linear', bilinear + bilinear', fun v => ?_⟩
  dsimp only
  rw [hf, hg]
  simp only [LinearMap.add_apply]
  ring

theorem Quadratic.const_mul {f : V → K} (hf : Quadratic f) (a : K) : Quadratic fun v => a * f v := by
  obtain ⟨c, linear, bilinear, hf⟩ := hf
  refine ⟨a * c, a • linear, a • bilinear, fun v => ?_⟩
  dsimp only
  rw [hf]
  simp only [LinearMap.smul_apply, smul_eq_mul]
  ring

theorem quadratic_sum {ι : Type*} (s : Finset ι) {f : ι → V → K} (h : ∀ i ∈ s, Quadratic (f i)) :
    Quadratic fun v => ∑ i ∈ s, f i v := by
  classical
  induction s using Finset.induction_on with
  | empty => simpa using quadratic_const (V := V) (0 : K)
  | insert i s hi ih =>
    simp only [Finset.sum_insert hi]
    exact (h i (Finset.mem_insert_self i s)).add (ih fun j hj => h j (Finset.mem_insert_of_mem hj))

end

/-! ## Polynomials -/

section
variable {K σ : Type*} [Field K]

/-- A product of at most two coordinates. -/
theorem quadratic_coordinates (a : K) {coordinates : Multiset σ} (h : coordinates.card ≤ 2) :
    Quadratic fun v : σ → K => a * (coordinates.map v).prod := by
  refine Quadratic.const_mul ?_ a
  have hcases : coordinates.card = 0 ∨ coordinates.card = 1 ∨ coordinates.card = 2 := by omega
  rcases hcases with hzero | hone | htwo
  · rw [Multiset.card_eq_zero.mp hzero]
    simpa using quadratic_const (V := σ → K) (1 : K)
  · obtain ⟨i, rfl⟩ := Multiset.card_eq_one.mp hone
    simpa using quadratic_linear (LinearMap.proj i : (σ → K) →ₗ[K] K)
  · obtain ⟨i, j, rfl⟩ := Multiset.card_eq_two.mp htwo
    simpa using quadratic_mul (LinearMap.proj i : (σ → K) →ₗ[K] K) (LinearMap.proj j)

theorem quadratic_eval {p : MvPolynomial σ K} (h : p.totalDegree ≤ 2) : Quadratic fun v : σ → K => MvPolynomial.eval v p := by
  have hterms : ∀ v : σ → K, MvPolynomial.eval v p =
      ∑ d ∈ p.support, p.coeff d * ((Finsupp.toMultiset d).map v).prod := by
    intro v
    rw [MvPolynomial.eval_eq]
    refine Finset.sum_congr rfl fun d _ => ?_
    rw [Finsupp.toMultiset_map, Finsupp.prod_toMultiset, Finsupp.prod_mapDomain_index (fun _ => pow_zero _) fun _ _ _ => pow_add _ _ _]
    rfl
  simp only [hterms]
  refine quadratic_sum _ fun d hd => quadratic_coordinates _ ?_
  rw [Finsupp.card_toMultiset]
  exact (MvPolynomial.le_totalDegree hd).trans h

end

/-! ## Differences -/

section
variable {K : Type*} [Field K] {ι : Type*} [Fintype ι] [DecidableEq ι]

/-- The central differences of a quadratic function along the axes, weighted by a direction. -/
theorem sum_differences [NeZero (2 : K)] {f : (ι → K) → K} {c : K} {linear : (ι → K) →ₗ[K] K}
    {bilinear : (ι → K) →ₗ[K] (ι → K) →ₗ[K] K} (hf : ∀ v, f v = c + linear v + bilinear v v) {ε : K} (hε : ε ≠ 0)
    (p direction : ι → K) :
    ∑ j, direction j * ((f (p + Pi.single j ε) - f (p - Pi.single j ε)) / (2 * ε)) =
      linear direction + bilinear p direction + bilinear direction p := by
  have hquotient : ∀ j, (f (p + Pi.single j ε) - f (p - Pi.single j ε)) / (2 * ε) =
      linear (Pi.single j 1) + bilinear p (Pi.single j 1) + bilinear (Pi.single j 1) p := by
    intro j
    have haxis : (Pi.single j ε : ι → K) = ε • Pi.single j 1 := by
      rw [← Pi.single_smul, smul_eq_mul, mul_one]
    have htwo : (2 : K) ≠ 0 := NeZero.ne 2
    rw [hf, hf, haxis]
    simp only [map_add, map_sub, map_smul, LinearMap.add_apply, LinearMap.sub_apply, LinearMap.smul_apply, smul_eq_mul]
    field_simp
    ring
  have hdirection : direction = ∑ j, direction j • (Pi.single j 1 : ι → K) := by
    funext i
    simp [Finset.sum_apply, Pi.single_apply]
  calc ∑ j, direction j * ((f (p + Pi.single j ε) - f (p - Pi.single j ε)) / (2 * ε))
      = ∑ j, (direction j * linear (Pi.single j 1) + direction j * bilinear p (Pi.single j 1) +
          direction j * bilinear (Pi.single j 1) p) :=
        Finset.sum_congr rfl fun j _ => by rw [hquotient, mul_add, mul_add]
    _ = linear (∑ j, direction j • Pi.single j 1) + bilinear p (∑ j, direction j • Pi.single j 1) +
          bilinear (∑ j, direction j • Pi.single j 1) p := by
        simp only [map_sum, map_smul, LinearMap.sum_apply, LinearMap.smul_apply, smul_eq_mul, Finset.sum_add_distrib]
    _ = _ := by rw [← hdirection]

/-- The midpoints of equal steps lie in the middle on average. -/
theorem sum_midpoints [CharZero K] {n : Nat} (h : 0 < n) : ∑ k ∈ Finset.range n, ((k : K) + 1 / 2) / n = n / 2 := by
  have hsum : ∀ m : Nat, ∑ k ∈ Finset.range m, ((k : K) + 1 / 2) = m ^ 2 / 2 := by
    intro m
    induction m with
    | zero => simp
    | succ m ih =>
      rw [Finset.sum_range_succ, ih, Nat.cast_succ]
      ring
  have hn : (n : K) ≠ 0 := Nat.cast_ne_zero.mpr h.ne'
  rw [← Finset.sum_div, hsum]
  field_simp

/-- The weighted central differences, averaged over the midpoints of a segment, add up to the gain on it. -/
theorem sum_gradients [CharZero K] {f : (ι → K) → K} (hf : Quadratic f) {ε : K} (hε : ε ≠ 0) {n : Nat} (h : 0 < n)
    (start direction : ι → K) (path : Nat → ι → K)
    (hpath : ∀ k, path k = start + (((k : K) + 1 / 2) / n) • direction) :
    ∑ j, direction j *
        (∑ k ∈ Finset.range n, (f (path k + Pi.single j ε) - f (path k - Pi.single j ε)) / (2 * ε)) / n =
      f (start + direction) - f start := by
  obtain ⟨c, linear, bilinear, hf⟩ := hf
  have hn : (n : K) ≠ 0 := Nat.cast_ne_zero.mpr h.ne'
  have hpoint : ∀ k, ∑ j, direction j * ((f (path k + Pi.single j ε) - f (path k - Pi.single j ε)) / (2 * ε)) =
      linear direction + bilinear start direction + bilinear direction start +
        2 * bilinear direction direction * (((k : K) + 1 / 2) / n) := by
    intro k
    rw [sum_differences hf hε, hpath]
    simp only [map_add, map_smul, LinearMap.add_apply, LinearMap.smul_apply, smul_eq_mul]
    ring
  calc ∑ j, direction j * (∑ k ∈ Finset.range n, (f (path k + Pi.single j ε) - f (path k - Pi.single j ε)) / (2 * ε)) / n
      = (∑ k ∈ Finset.range n, ∑ j, direction j *
          ((f (path k + Pi.single j ε) - f (path k - Pi.single j ε)) / (2 * ε))) / n := by
        rw [Finset.sum_comm, Finset.sum_div]
        exact Finset.sum_congr rfl fun j _ => by rw [Finset.mul_sum]
    _ = linear direction + bilinear start direction + bilinear direction start + bilinear direction direction := by
        simp only [hpoint]
        rw [Finset.sum_add_distrib, ← Finset.mul_sum, sum_midpoints h, Finset.sum_const, Finset.card_range, nsmul_eq_mul]
        field_simp
    _ = f (start + direction) - f start := by
        rw [hf, hf]
        simp only [map_add, LinearMap.add_apply]
        ring

end

end TwinVoice.Lib.Quadratics
