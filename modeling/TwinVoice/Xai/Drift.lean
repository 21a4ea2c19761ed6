import Mathlib.Algebra.Order.Archimedean.Real.Basic
import Mathlib.Order.ConditionallyCompleteLattice.Indexed
import TwinVoice.Lib.Samples

/-! # Drift

How far the values of a feature have moved. The statistic reads the two
distributions at the pooled values only, and there they are furthest apart. -/

namespace TwinVoice.Xai

open TwinVoice.Lib.Samples

section
variable {α β : Type*} [LinearOrder α] [LinearOrder β]

/-- `searchsorted` of ordered values with the side `right`. -/
def searchsorted (values : List α) (t : α) : Nat := bisect (· ≤ t) values values.length 0 values.length

def ksStatistic (reference current : List α) : ℚ :=
  let reference := sorted reference
  let current := sorted current
  if reference.length = 0 ∨ current.length = 0 then 0
  else
    let grid := reference ++ current
    let cdfRef := grid.map fun t => (searchsorted reference t : ℚ) / reference.length
    let cdfCur := grid.map fun t => (searchsorted current t : ℚ) / current.length
    (List.zipWith (fun r c => |r - c|) cdfRef cdfCur).max?.getD 0

theorem searchsorted_sorted (xs : List α) (t : α) : searchsorted (sorted xs) t = xs.countP (· ≤ t) := by
  have hfirst : (sorted xs).Pairwise fun x y => decide (y ≤ t) = true → decide (x ≤ t) = true := by
    refine (pairwise_sorted xs).imp fun hxy hy => ?_
    exact decide_eq_true (hxy.trans (of_decide_eq_true hy))
  rw [searchsorted, bisect_length hfirst, (sorted_perm xs).countP_eq]

theorem searchsorted_div (xs : List α) (t : α) : (searchsorted (sorted xs) t : ℚ) / (sorted xs).length = ecdf xs t := by
  rw [searchsorted_sorted, length_sorted, ecdf]

variable {reference current : List α}

theorem ksStatistic_eq (hr : reference ≠ []) (hc : current ≠ []) :
    ksStatistic reference current =
      ((sorted reference ++ sorted current).map (gap reference current)).max?.getD 0 := by
  have hlengths : ¬ ((sorted reference).length = 0 ∨ (sorted current).length = 0) := by
    simp [hr, hc]
  unfold ksStatistic
  dsimp only
  rw [if_neg hlengths]
  simp only [searchsorted_div, List.zipWith_map, List.zipWith_self]
  rfl

/-- The statistic is the largest gap of all. -/
theorem isGreatest_ksStatistic (hr : reference ≠ []) (hc : current ≠ []) :
    IsGreatest (Set.range (gap reference current)) (ksStatistic reference current) := by
  rw [ksStatistic_eq hr hc]
  have hmem : ∀ t, t ∈ sorted reference ++ sorted current ↔ t ∈ reference ++ current := fun t => by
    rw [List.mem_append, List.mem_append, (sorted_perm _).mem_iff, (sorted_perm _).mem_iff]
  cases hlargest : ((sorted reference ++ sorted current).map (gap reference current)).max? with
  | none =>
    have hnil := List.map_eq_nil_iff.mp (List.max?_eq_none_iff.mp hlargest)
    obtain ⟨x, hx⟩ := List.exists_mem_of_ne_nil reference hr
    have hin := (hmem x).mpr (List.mem_append_left _ hx)
    rw [hnil] at hin
    cases hin
  | some largest =>
    obtain ⟨hin, hle⟩ := List.max?_eq_some_iff.mp hlargest
    constructor
    · obtain ⟨t, -, ht⟩ := List.mem_map.mp hin
      exact ⟨t, ht⟩
    · intro g hg
      obtain ⟨t, rfl⟩ := hg
      obtain ⟨s, hs, hts⟩ := exists_gap_le hr current t
      exact hts.trans (hle _ (List.mem_map_of_mem ((hmem s).mpr hs)))

theorem ksStatistic_mem_unit (hr : reference ≠ []) (hc : current ≠ []) :
    0 ≤ ksStatistic reference current ∧ ksStatistic reference current ≤ 1 := by
  obtain ⟨t, ht⟩ := (isGreatest_ksStatistic hr hc).1
  rw [← ht]
  exact ⟨gap_nonneg _ _ _, gap_le_one _ _ _⟩

theorem ksStatistic_comm (hr : reference ≠ []) (hc : current ≠ []) :
    ksStatistic current reference = ksStatistic reference current := by
  have hswap := isGreatest_ksStatistic hc hr
  rw [funext (gap_comm current reference)] at hswap
  exact hswap.unique (isGreatest_ksStatistic hr hc)

/-- Values in the same order are as far apart. -/
theorem ksStatistic_map {f : α → β} (hf : StrictMonoOn f {x | x ∈ reference ++ current}) (hr : reference ≠ [])
    (hc : current ≠ []) : ksStatistic (reference.map f) (current.map f) = ksStatistic reference current := by
  have hgap : ∀ t ∈ reference ++ current, gap (reference.map f) (current.map f) (f t) = gap reference current t := by
    intro t ht
    rw [gap, gap, ecdf_map fun x hx => hf.le_iff_le (List.mem_append_left _ hx) ht,
      ecdf_map fun x hx => hf.le_iff_le (List.mem_append_right _ hx) ht]
  have hr' : reference.map f ≠ [] := mt List.map_eq_nil_iff.mp hr
  have hc' : current.map f ≠ [] := mt List.map_eq_nil_iff.mp hc
  apply le_antisymm
  · obtain ⟨t, ht⟩ := (isGreatest_ksStatistic hr' hc').1
    obtain ⟨s, hs, hts⟩ := exists_gap_le hr' (current.map f) t
    rw [← List.map_append] at hs
    obtain ⟨x, hx, rfl⟩ := List.mem_map.mp hs
    rw [← ht]
    refine hts.trans ?_
    rw [hgap x hx]
    exact (isGreatest_ksStatistic hr hc).2 ⟨x, rfl⟩
  · obtain ⟨t, ht⟩ := (isGreatest_ksStatistic hr hc).1
    obtain ⟨x, hx, htx⟩ := exists_gap_le hr current t
    rw [← ht]
    refine htx.trans ?_
    rw [← hgap x hx]
    exact (isGreatest_ksStatistic hr' hc').2 ⟨f x, rfl⟩

end

/-- The statistic of rationals is the supremum over all real thresholds. -/
theorem ksStatistic_eq_iSup {reference current : List ℚ} (hr : reference ≠ []) (hc : current ≠ []) :
    ((ksStatistic reference current : ℝ) =
      ⨆ t : ℝ, |(ecdf (reference.map ((↑) : ℚ → ℝ)) t : ℝ) - ecdf (current.map ((↑) : ℚ → ℝ)) t|) ∧
    (0 ≤ ksStatistic reference current ∧ ksStatistic reference current ≤ 1) ∧
    ksStatistic current reference = ksStatistic reference current ∧
    ∀ (β : Type) (_ : LinearOrder β) (f : ℚ → β), StrictMonoOn f {x | x ∈ reference ++ current} →
      ksStatistic (reference.map f) (current.map f) = ksStatistic reference current := by
  refine ⟨?_, ksStatistic_mem_unit hr hc, ksStatistic_comm hr hc, fun β _ f hf => ksStatistic_map hf hr hc⟩
  have hcast : StrictMonoOn ((↑) : ℚ → ℝ) {x | x ∈ reference ++ current} := Rat.cast_strictMono.strictMonoOn _
  have hr' : reference.map ((↑) : ℚ → ℝ) ≠ [] := mt List.map_eq_nil_iff.mp hr
  have hc' : current.map ((↑) : ℚ → ℝ) ≠ [] := mt List.map_eq_nil_iff.mp hc
  have hgreatest := isGreatest_ksStatistic hr' hc'
  rw [ksStatistic_map hcast hr hc] at hgreatest
  obtain ⟨⟨t, ht⟩, hle⟩ := hgreatest
  have hgap : ∀ t : ℝ, |(ecdf (reference.map ((↑) : ℚ → ℝ)) t : ℝ) - ecdf (current.map ((↑) : ℚ → ℝ)) t| =
      (gap (reference.map ((↑) : ℚ → ℝ)) (current.map ((↑) : ℚ → ℝ)) t : ℚ) := fun t => by
    rw [gap, Rat.cast_abs, Rat.cast_sub]
  refine (IsLUB.ciSup_eq (IsGreatest.isLUB ⟨⟨t, ?_⟩, ?_⟩)).symm
  · rw [hgap, ht]
  · intro g hg
    obtain ⟨s, rfl⟩ := hg
    change |_| ≤ _
    rw [hgap]
    exact Rat.cast_le.mpr (hle ⟨s, rfl⟩)

/-- Two samples that share a value. -/
theorem ksStatistic_shared_value : ksStatistic ([1, 2, 2] : List ℚ) [2, 3, 3] = 2 / 3 ∧
    (ksStatistic ([1, 2, 2] : List ℚ) [2, 3, 3] : ℝ) =
      ⨆ t : ℝ, |(ecdf (([1, 2, 2] : List ℚ).map ((↑) : ℚ → ℝ)) t : ℝ) -
        ecdf (([2, 3, 3] : List ℚ).map ((↑) : ℚ → ℝ)) t| :=
  ⟨by decide +kernel, (ksStatistic_eq_iSup (by simp) (by simp)).1⟩

end TwinVoice.Xai
