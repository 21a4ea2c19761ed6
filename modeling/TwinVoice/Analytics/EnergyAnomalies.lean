import TwinVoice.Analytics.Baselines

/-! # Energy anomalies

`EnergyService.anomalies` measures the hours of a window against the stored
baseline, which keeps only its line: the spread of the residuals is taken from
the window itself, with the hour that is judged in it. More energy in an hour
widens that spread. From nine hours on the spread never catches up with the
hour, and below nine it does. -/

namespace TwinVoice.Analytics

open TwinVoice.Lib TwinVoice.Lib.Grouping TwinVoice.Lib.LeastSquares

/-- What a stored `EnergyBaseline` keeps of a fit. -/
structure EnergyBaseline (K : Type) where
  interceptKwh : K
  slopeKwhPerUnit : K
  r2 : Option K

section
variable {K : Type} [Field K] [LinearOrder K] (row : EnergyBaseline K)

/-- The energy of an hour above the stored line. -/
def EnergyBaseline.residual (o : Observation K) : K :=
  o.energyKwh - (row.interceptKwh + row.slopeKwhPerUnit * o.units)

/-- `_residual_std`. -/
def residualStd (sqrt : K → K) (observations : List (Observation K)) : K :=
  let residuals := observations.map row.residual
  let n := residuals.length
  if n < 3 then 0
  else sqrt (squares residuals (mean residuals) / (n - 1))

variable [FloorRing K]

/-- `EnergyService.anomalies`, for the latest baseline and the hours that are on record. -/
def anomalies (sqrt : K → K) (baselineRow : Option (EnergyBaseline K)) (observations : List (Observation K))
    (scopeId : Uuid) (health : Option K) : List (EnergyAnomaly K) :=
  match baselineRow with
  | none => []
  | some row =>
    if observations.isEmpty then []
    else
      let baseline : Baseline K :=
        { interceptKwh := row.interceptKwh
          slopeKwhPerUnit := row.slopeKwhPerUnit
          r2 := row.r2
          residualStd := residualStd row sqrt observations
          n := observations.length }
      (findAnomalies baseline observations scopeId anomalySigma).map fun a =>
        { a with scopeId := scopeId, healthIndex := health }

end

/-- Observations as the query returns them, one for each hour. -/
@[ext] structure Window where
  hours : List (Observation ℝ)
  nodup : (hours.map Observation.time).Nodup

/-- More energy in one hour. -/
noncomputable def Observation.raise (o : Observation ℝ) (extra : ℝ) : Observation ℝ :=
  { o with energyKwh := o.energyKwh + extra }

theorem map_time_raise (hours : List (Observation ℝ)) (t : Instant) (extra : ℝ) :
    (hours.map fun o => if o.time = t then o.raise extra else o).map Observation.time = hours.map Observation.time := by
  rw [List.map_map]
  refine List.map_congr_left fun o _ => ?_
  by_cases h : o.time = t <;> simp [h, Observation.raise]

/-- The window with more energy in the hour at `t`. -/
noncomputable def Window.raise (w : Window) (t : Instant) (extra : ℝ) : Window where
  hours := w.hours.map fun o => if o.time = t then o.raise extra else o
  nodup := (map_time_raise w.hours t extra).symm ▸ w.nodup

/-- The hour at `t` is among the anomalies. -/
def Flagged (row : EnergyBaseline ℝ) (scopeId : Uuid) (health : Option ℝ) (w : Window) (t : Instant) : Prop :=
  ∃ a ∈ anomalies Real.sqrt (some row) w.hours scopeId health, a.time = t

/-- All hours are as far from the line. -/
def Uniform (row : EnergyBaseline ℝ) (w : Window) : Prop :=
  ∀ o ∈ w.hours, ∀ o' ∈ w.hours, row.residual o = row.residual o'

/-! ## One number against the others -/

/-- The squared deviations of some numbers and one more. -/
noncomputable def spreadWith (others : List ℝ) (x : ℝ) : ℝ :=
  squares others (mean others) + others.length / (others.length + 1) * (x - mean others) ^ 2

/-- The number is positive and over three standard deviations of the numbers that it is one of. -/
def Exceeds (others : List ℝ) (x : ℝ) : Prop :=
  0 < x ∧ 0 < spreadWith others x ∧ 9 * spreadWith others x < others.length * x ^ 2

theorem spreadWith_nonneg (others : List ℝ) (x : ℝ) : 0 ≤ spreadWith others x :=
  add_nonneg (squares_nonneg _ _) (mul_nonneg (by positivity) (sq_nonneg _))

/-- Among nine and more the spread grows slower than the number. -/
theorem spread_behind {k a m x y : ℝ} (hk : 8 ≤ k) (ha : 0 ≤ a) (hx : 0 < x) (hxy : x < y)
    (h : 9 * (a + k / (k + 1) * (x - m) ^ 2) < k * x ^ 2) : 9 * (a + k / (k + 1) * (y - m) ^ 2) < k * y ^ 2 := by
  have hpos : 0 < k := by linarith
  -- `c` is the share of one of nine in the window
  obtain ⟨c, hc⟩ : ∃ c, c = 9 / (k + 1) := ⟨_, rfl⟩
  have hc0 : 0 < c := by
    rw [hc]
    positivity
  have hc1 : c ≤ 1 := by
    rw [hc, div_le_one (by linarith)]
    linarith
  have hform : ∀ z : ℝ, 9 * (a + k / (k + 1) * (z - m) ^ 2) = 9 * a + k * (c * (z - m) ^ 2) := by
    intro z
    rw [hc]
    ring
  rw [hform] at h ⊢
  have hgap : c * (x - m) ^ 2 < x ^ 2 := by
    have hscaled : k * (c * (x - m) ^ 2) < k * x ^ 2 := by linarith
    exact lt_of_mul_lt_mul_left hscaled hpos.le
  have hslope : 0 ≤ (1 - c) * x + c * m := by
    by_contra hneg
    rw [not_le] at hneg
    nlinarith [mul_pos hc0 hx, mul_nonneg (sub_nonneg.mpr hc1) hx.le, sq_nonneg m]
  have hgrowth : x ^ 2 - c * (x - m) ^ 2 ≤ y ^ 2 - c * (y - m) ^ 2 := by
    have hwide : 0 ≤ (1 - c) * (y - x) := mul_nonneg (sub_nonneg.mpr hc1) (sub_nonneg.mpr hxy.le)
    have hstep : 0 ≤ (y - x) * ((1 - c) * (y - x) + 2 * ((1 - c) * x + c * m)) :=
      mul_nonneg (sub_nonneg.mpr hxy.le) (by linarith)
    linarith
  have hscaled := mul_le_mul_of_nonneg_left hgrowth hpos.le
  linarith

/-- Among eight and fewer the spread is ahead of a number far above the others. -/
theorem spread_ahead {k a m y : ℝ} (hk0 : 0 ≤ k) (hk7 : k ≤ 7) (ha : 0 ≤ a) (hfar : 18 * |m| ≤ y) :
    k * y ^ 2 ≤ 9 * (a + k / (k + 1) * (y - m) ^ 2) := by
  have hm : 18 * m ≤ y := (mul_le_mul_of_nonneg_left (le_abs_self m) (by norm_num)).trans hfar
  have hy : 0 ≤ y := (by positivity : (0 : ℝ) ≤ 18 * |m|).trans hfar
  have hsquare : 8 * y ^ 2 ≤ 9 * (y - m) ^ 2 := by
    nlinarith [mul_nonneg hy (sub_nonneg.mpr hm), sq_nonneg m]
  have hshare : k * y ^ 2 ≤ 9 * (k / (k + 1) * (y - m) ^ 2) := by
    rw [div_mul_eq_mul_div, ← mul_div_assoc, le_div_iff₀ (by linarith)]
    have hk8 : (k + 1) * y ^ 2 ≤ 8 * y ^ 2 := mul_le_mul_of_nonneg_right (by linarith) (sq_nonneg y)
    have hscaled := mul_le_mul_of_nonneg_left (hk8.trans hsquare) hk0
    linarith
  linarith

theorem Exceeds.raise {others : List ℝ} {x y : ℝ} (h : Exceeds others x) (hlength : 8 ≤ others.length) (hxy : x < y)
    (hspread : 0 < spreadWith others y) : Exceeds others y := by
  obtain ⟨hx, -, hover⟩ := h
  have hk : (8 : ℝ) ≤ others.length := by exact_mod_cast hlength
  exact ⟨hx.trans hxy, hspread, spread_behind hk (squares_nonneg _ _) hx hxy hover⟩

theorem exists_not_exceeds {others : List ℝ} (hlength : others.length < 8) (x : ℝ) :
    ∃ extra, 0 < extra ∧ ¬ Exceeds others (x + extra) := by
  have hk : (others.length : ℝ) ≤ 7 := by exact_mod_cast Nat.le_of_lt_succ hlength
  have hfar : 18 * |mean others| ≤ x + (18 * |mean others| + |x| + 1) := by
    have := neg_abs_le x
    linarith
  refine ⟨18 * |mean others| + |x| + 1, by positivity, fun h => ?_⟩
  exact absurd h.2.2 (not_lt.mpr (spread_ahead (Nat.cast_nonneg _) hk (squares_nonneg _ _) hfar))

/-! ## An hour against the window -/

section
variable {row : EnergyBaseline ℝ} {scopeId : Uuid} {health : Option ℝ} {w : Window} {o : Observation ℝ}

/-- The spread and the hour are compared without a root. -/
theorem lt_residualSigma_iff (b : Baseline ℝ) (units kwh : ℝ) :
    3 < b.residualSigma units kwh ↔ 0 < b.residualStd ∧ 3 * b.residualStd < kwh - b.expected units := by
  unfold Baseline.residualSigma
  split
  · rename_i hle
    refine iff_of_false (by norm_num) fun h => absurd h.1 (not_lt.mpr hle)
  · rename_i hpos
    rw [not_le] at hpos
    rw [lt_div_iff₀ hpos]
    exact (and_iff_right hpos).symm

theorem flagged_iff {t : Instant} : Flagged row scopeId health w t ↔ ∃ o ∈ w.hours, o.time = t ∧
    0 < residualStd row Real.sqrt w.hours ∧ 3 * residualStd row Real.sqrt w.hours < row.residual o := by
  have hsigma : ((anomalySigma : ℕ) : ℝ) = 3 := by norm_num [anomalySigma]
  unfold Flagged anomalies findAnomalies
  dsimp only
  split
  · rename_i hempty
    simp [List.isEmpty_iff.mp hempty]
  · simp only [hsigma]
    constructor
    · rintro ⟨a, ha, rfl⟩
      obtain ⟨b, hb, rfl⟩ := List.mem_map.mp ha
      obtain ⟨o, ho, hflag⟩ := List.mem_filterMap.mp hb
      split at hflag
      · cases hflag
        exact ⟨o, ho, rfl, (lt_residualSigma_iff _ _ _).mp ‹_›⟩
      · cases hflag
    · rintro ⟨o, ho, rfl, hover⟩
      refine ⟨_, List.mem_map_of_mem (List.mem_filterMap.mpr ⟨o, ho, if_pos ?_⟩), rfl⟩
      exact (lt_residualSigma_iff _ _ _).mpr hover

theorem lt_sqrt_iff {q x : ℝ} (hq : 0 ≤ q) : (0 < √q ∧ 3 * √q < x) ↔ 0 < x ∧ 0 < q ∧ 9 * q < x ^ 2 := by
  have hsquare : (3 * √q) ^ 2 = 9 * q := by
    rw [mul_pow, Real.sq_sqrt hq]
    norm_num
  rw [Real.sqrt_pos, ← hsquare]
  constructor
  · rintro ⟨hpos, hlt⟩
    have hroot : 0 ≤ 3 * √q := by positivity
    exact ⟨hroot.trans_lt hlt, hpos, pow_lt_pow_left₀ hlt hroot two_ne_zero⟩
  · rintro ⟨hx, hpos, hlt⟩
    exact ⟨hpos, lt_of_pow_lt_pow_left₀ 2 hx.le hlt⟩

/-- The residuals of the other hours of a window. -/
noncomputable def otherResiduals (row : EnergyBaseline ℝ) (w : Window) (t : Instant) : List ℝ :=
  (w.hours.filter fun o => o.time ≠ t).map row.residual

theorem eq_of_time (ho : o ∈ w.hours) {x : Observation ℝ} (hx : x ∈ w.hours) (h : x.time = o.time) : x = o :=
  List.inj_on_of_nodup_map w.nodup hx ho h

theorem filter_time_eq (ho : o ∈ w.hours) : (w.hours.filter fun x => x.time = o.time) = [o] := by
  have hnodup : (w.hours.filter fun x => x.time = o.time).Nodup := (List.Nodup.of_map _ w.nodup).filter _
  refine List.perm_singleton.mp ((List.perm_ext_iff_of_nodup hnodup (List.nodup_singleton o)).mpr fun x => ?_)
  rw [List.mem_filter, List.mem_singleton]
  constructor
  · rintro ⟨hx, htime⟩
    exact eq_of_time ho hx (of_decide_eq_true htime)
  · rintro rfl
    exact ⟨ho, decide_eq_true rfl⟩

theorem residuals_perm (ho : o ∈ w.hours) :
    (w.hours.map row.residual).Perm (row.residual o :: otherResiduals row w o.time) := by
  have hsplit := (List.filter_append_perm (fun x => decide (x.time = o.time)) w.hours).symm.map row.residual
  rw [filter_time_eq ho] at hsplit
  simpa [otherResiduals] using hsplit

theorem length_eq (row : EnergyBaseline ℝ) (ho : o ∈ w.hours) :
    w.hours.length = (otherResiduals row w o.time).length + 1 := by
  have hperm : (w.hours.map row.residual).Perm (row.residual o :: otherResiduals row w o.time) := residuals_perm ho
  rw [← List.length_map row.residual, hperm.length_eq, List.length_cons]

/-- The deviations in a window of two hours and more. -/
theorem squares_window (ho : o ∈ w.hours) (hlength : 2 ≤ w.hours.length) :
    squares (w.hours.map row.residual) (mean (w.hours.map row.residual)) =
      spreadWith (otherResiduals row w o.time) (row.residual o) := by
  have hne : otherResiduals row w o.time ≠ [] := by
    intro hnil
    have := length_eq row ho
    rw [hnil] at this
    simp_all
  rw [squares_perm (residuals_perm ho), mean_perm (residuals_perm ho), squares_cons _ hne]
  rfl

theorem flagged_iff_exceeds (ho : o ∈ w.hours) : Flagged row scopeId health w o.time ↔
    3 ≤ w.hours.length ∧ Exceeds (otherResiduals row w o.time) (row.residual o) := by
  rw [flagged_iff]
  have honly : (∃ x ∈ w.hours, x.time = o.time ∧ 0 < residualStd row Real.sqrt w.hours ∧
      3 * residualStd row Real.sqrt w.hours < row.residual x) ↔
        0 < residualStd row Real.sqrt w.hours ∧ 3 * residualStd row Real.sqrt w.hours < row.residual o := by
    constructor
    · rintro ⟨x, hx, htime, hover⟩
      rwa [eq_of_time ho hx htime] at hover
    · intro hover
      exact ⟨o, ho, rfl, hover⟩
  rw [honly, residualStd, List.length_map]
  by_cases hlength : w.hours.length < 3
  · rw [if_pos hlength]
    exact iff_of_false (fun h => absurd h.1 (lt_irrefl 0)) fun h => absurd h.1 (not_le.mpr hlength)
  · rw [if_neg hlength, and_iff_right (not_lt.mp hlength), squares_window ho (by omega)]
    have hk : ((w.hours.length : ℕ) : ℝ) - 1 = (otherResiduals row w o.time).length := by
      rw [length_eq row ho]
      push_cast
      ring
    have hpos : (0 : ℝ) < (otherResiduals row w o.time).length := by
      have := length_eq row ho
      exact_mod_cast (by omega : 0 < (otherResiduals row w o.time).length)
    rw [hk, lt_sqrt_iff (div_nonneg (spreadWith_nonneg _ _) hpos.le), div_pos_iff_of_pos_right hpos, ← mul_div_assoc,
      div_lt_iff₀ hpos, mul_comm (row.residual o ^ 2)]
    rfl

theorem uniform_iff (ho : o ∈ w.hours) (hlength : 2 ≤ w.hours.length) :
    Uniform row w ↔ spreadWith (otherResiduals row w o.time) (row.residual o) = 0 := by
  rw [← squares_window ho hlength, squares_mean_eq_zero]
  simp only [List.forall_mem_map]
  rfl

section
variable (extra : ℝ)

theorem raise_mem (ho : o ∈ w.hours) : o.raise extra ∈ (w.raise o.time extra).hours :=
  List.mem_map.mpr ⟨o, ho, if_pos rfl⟩

@[simp] theorem length_raise (t : Instant) : (w.raise t extra).hours.length = w.hours.length := List.length_map _

@[simp] theorem residual_raise : row.residual (o.raise extra) = row.residual o + extra := by
  simp only [EnergyBaseline.residual, Observation.raise]
  ring

@[simp] theorem otherResiduals_raise (t : Instant) :
    otherResiduals row (w.raise t extra) t = otherResiduals row w t := by
  unfold otherResiduals Window.raise
  rw [List.filter_map, List.map_map]
  have hkeep : (w.hours.filter ((fun o => decide (o.time ≠ t)) ∘ fun o => if o.time = t then o.raise extra else o)) =
      w.hours.filter fun o => o.time ≠ t := by
    refine List.filter_congr fun o _ => ?_
    by_cases h : o.time = t <;> simp [h, Observation.raise]
  rw [hkeep]
  refine List.map_congr_left fun o ho => ?_
  have hother : o.time ≠ t := of_decide_eq_true (List.mem_filter.mp ho).2
  simp [hother]

end

end

/-- The start of the hour after `i` hours. -/
def hourAfter (i : ℕ) : Instant := ((i : ℤ) + 1) * seconds 3600

theorem hourAfter_ne (i : ℕ) : hourAfter i ≠ 0 :=
  mul_ne_zero (by omega : (i : ℤ) + 1 ≠ 0) (by decide)

theorem hourAfter_injective : Function.Injective hourAfter := by
  intro i j h
  have hsucc : (i : ℤ) + 1 = j + 1 := mul_right_cancel₀ (by decide : seconds 3600 ≠ 0) h
  omega

/-- An hour with this energy, and then some hours with ten, all without output. -/
noncomputable def steadyHours (energy : ℝ) (n : ℕ) : List (Observation ℝ) :=
  ⟨0, 0, energy⟩ :: (List.range n).map fun i => ⟨hourAfter i, 0, 10.0⟩

noncomputable def steadyWindow (energy : ℝ) (n : ℕ) : Window where
  hours := steadyHours energy n
  nodup := by
    rw [steadyHours, List.map_cons, List.map_map]
    refine List.nodup_cons.mpr ⟨?_, List.nodup_range.map hourAfter_injective⟩
    intro h
    obtain ⟨i, -, hi⟩ := List.mem_map.mp h
    exact hourAfter_ne i hi

/-- Consumption that does not depend on the output. -/
noncomputable def flatBaseline : EnergyBaseline ℝ := ⟨0, 0, none⟩

theorem otherResiduals_steadyWindow (energy : ℝ) (n : ℕ) :
    otherResiduals flatBaseline (steadyWindow energy n) 0 = List.replicate n 10 := by
  have hfilter : ((List.range n).map fun i : ℕ => (⟨hourAfter i, 0, 10.0⟩ : Observation ℝ)).filter
      (fun o => o.time ≠ 0) =
        (List.range n).map fun i : ℕ => (⟨hourAfter i, 0, 10.0⟩ : Observation ℝ) :=
    List.filter_eq_self.mpr (List.forall_mem_map.mpr fun i _ => decide_eq_true (hourAfter_ne i))
  change ((steadyHours energy n).filter fun o => o.time ≠ 0).map flatBaseline.residual = _
  rw [steadyHours, List.filter_cons_of_neg (by simp), hfilter, List.map_map]
  refine List.eq_replicate_iff.mpr ⟨by simp, List.forall_mem_map.mpr fun i _ => ?_⟩
  norm_num [EnergyBaseline.residual, flatBaseline]

/-- The first hour is flagged by its distance from ten. -/
theorem flagged_steadyWindow (energy : ℝ) (n : ℕ) :
    Flagged flatBaseline 0 none (steadyWindow energy (n + 2)) 0 ↔
      0 < energy ∧ 0 < (energy - 10) ^ 2 ∧ 9 * (energy - 10) ^ 2 < (n + 3) * energy ^ 2 := by
  have hfirst : (⟨0, 0, energy⟩ : Observation ℝ) ∈ (steadyWindow energy (n + 2)).hours := List.mem_cons_self
  have hiff : Flagged flatBaseline 0 none (steadyWindow energy (n + 2)) (⟨0, 0, energy⟩ : Observation ℝ).time ↔ _ :=
    flagged_iff_exceeds hfirst
  have hresidual : flatBaseline.residual ⟨0, 0, energy⟩ = energy := by simp [EnergyBaseline.residual, flatBaseline]
  have hlength : 3 ≤ (steadyWindow energy (n + 2)).hours.length := by simp [steadyWindow, steadyHours]
  have hten : ∀ x ∈ List.replicate (n + 2) (10 : ℝ), x = 10 := fun x => List.eq_of_mem_replicate
  have hk : (0 : ℝ) < n + 2 := by positivity
  have hspread : spreadWith (List.replicate (n + 2) 10) energy = (n + 2) / (n + 3) * (energy - 10) ^ 2 := by
    rw [spreadWith, mean_eq (by simp) hten, squares_eq_zero.mpr hten, zero_add, List.length_replicate]
    push_cast
    ring
  refine hiff.trans ?_
  rw [and_iff_right hlength, hresidual, otherResiduals_steadyWindow, Exceeds, hspread, List.length_replicate]
  push_cast
  refine and_congr Iff.rfl (and_congr ?_ ?_)
  · rw [mul_pos_iff_of_pos_left (by positivity)]
  · rw [div_mul_eq_mul_div, ← mul_div_assoc, div_lt_iff₀ (by positivity)]
    constructor
    · intro h
      refine lt_of_mul_lt_mul_left ?_ hk.le
      linarith
    · intro h
      have := mul_lt_mul_of_pos_left h hk
      linarith

theorem steadyWindow_raise (energy extra : ℝ) (n : ℕ) :
    (steadyWindow energy n).raise 0 extra = steadyWindow (energy + extra) n := by
  refine Window.ext ?_
  change (steadyHours energy n).map (fun o => if o.time = 0 then o.raise extra else o) = steadyHours (energy + extra) n
  rw [steadyHours, steadyHours, List.map_cons, if_pos rfl, List.map_map]
  refine congrArg _ (List.map_congr_left fun i _ => ?_)
  rw [Function.comp_apply, if_neg (hourAfter_ne i)]

end TwinVoice.Analytics
