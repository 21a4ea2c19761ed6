import TwinVoice.Lib.Rounding
import TwinVoice.Twin.WhatIf

/-! # The risk within a horizon

How long a component of the clone lasts at an operating point, as draws of a
first passage, and the share of the draws that fail within the horizon that a
request asks about. A stopped machine is given a long life instead of an
endless one. -/

namespace TwinVoice.Twin.WhatIf

open TwinVoice.Lib TwinVoice.Lib.Rounding

section
variable (K : Type) [Field K] [LinearOrder K]

/-- A generator of random numbers. -/
structure Generator where
  wald : K → K → Nat → List K
  wald_length : ∀ mean shape size, (wald mean shape size).length = size
  wald_nonneg : ∀ mean shape size, 0 < mean → 0 < shape → ∀ x ∈ wald mean shape size, 0 ≤ x

/-- What a request bounds. -/
structure WhatIfRequest where
  horizonH : K
  trials : Nat
  horizon_pos : 0 < horizonH
  horizon_le : horizonH ≤ 8760.0
  trials_ge : 50 ≤ trials
  trials_le : trials ≤ 5000

end

section
variable {K : Type} [Field K] [LinearOrder K]

/-- `HOUR_S`. -/
def hourS : K := 3600.0

/-- `MIN_REMAINING`. -/
def minRemaining : K := 1e-4

/-- `time_to_failure_h`: the hours that are left, once for each trial. -/
def ComponentState.timeToFailureH (f : Powers K) (g : Generator K) (component : ComponentState K) (cond : Conditions K)
    (trials : Nat) : Option (List K) :=
  let remaining := 1 - component.damage
  if component.lifeH ≤ 0 ∨ remaining ≤ minRemaining then some (List.replicate trials 0)
  else
    let lifeS := component.lifeH * hourS
    let meanRefS := remaining * lifeS
    let shapeRefS := remaining ^ 2 * lifeS / max component.cv 1e-6 ^ 2
    let referenceS := g.wald meanRefS shapeRefS trials
    (component.acceleration f cond).map fun acceleration =>
      if acceleration ≤ 0 then List.replicate trials (meanRefS / hourS * 1e3)
      else referenceS.map fun x => x / acceleration / hourS

/-- A component that is still good lasts as its acceleration has it. -/
theorem timeToFailureH_of_good {f : Powers K} {g : Generator K} {component : ComponentState K} {cond : Conditions K}
    (hlife : 0 < component.lifeH) (hdamage : minRemaining < 1 - component.damage)
    {a : K} (ha : component.acceleration f cond = some a) (trials : Nat) :
    component.timeToFailureH f g cond trials = some (if a ≤ 0 then
      List.replicate trials ((1 - component.damage) * (component.lifeH * hourS) / hourS * 1e3)
    else (g.wald ((1 - component.damage) * (component.lifeH * hourS))
      ((1 - component.damage) ^ 2 * (component.lifeH * hourS) / max component.cv 1e-6 ^ 2) trials).map
        fun x => x / a / hourS) := by
  rw [ComponentState.timeToFailureH, if_neg (by rintro (h | h); exacts [hlife.not_ge h, hdamage.not_ge h]), ha]
  rfl

variable [FloorRing K]

/-- `risk_within`. -/
def riskWithin (samples : List K) (horizonH : K) : K :=
  if samples.length = 0 ∨ horizonH ≤ 0 then 0
  else roundTo 4 ((samples.countP fun x => decide (x ≤ horizonH) : Nat) / (samples.length : K))

/-- What a request is told of a component. -/
def ComponentState.risk (f : Powers K) (g : Generator K) (request : WhatIfRequest K) (component : ComponentState K)
    (cond : Conditions K) : Option K :=
  (component.timeToFailureH f g cond request.trials).map fun samples => riskWithin samples request.horizonH

variable [IsStrictOrderedRing K]

/-! ## The share of the draws -/

/-- A risk does not fall when lives get shorter. -/
theorem riskWithin_mono {α : Type} {xs : List α} {long short : α → K} (h : ∀ x ∈ xs, short x ≤ long x) (horizonH : K) :
    riskWithin (xs.map long) horizonH ≤ riskWithin (xs.map short) horizonH := by
  have hcount : (xs.map long).countP (fun x => decide (x ≤ horizonH)) ≤
      (xs.map short).countP (fun x => decide (x ≤ horizonH)) := by
    rw [List.countP_map, List.countP_map]
    refine List.countP_mono_left fun x hx hlong => ?_
    simp only [Function.comp_apply, decide_eq_true_eq] at hlong ⊢
    exact (h x hx).trans hlong
  unfold riskWithin
  rw [List.length_map, List.length_map]
  split
  · exact le_refl 0
  · exact roundTo_mono 4 (div_le_div_of_nonneg_right (Nat.cast_le.mpr hcount) (Nat.cast_nonneg _))

/-- Where all draws are the same, either none or all of them fail. -/
theorem riskWithin_replicate {trials : Nat} (htrials : 0 < trials) {horizonH : K} (hhorizon : 0 < horizonH) (life : K) :
    riskWithin (List.replicate trials life) horizonH = if life ≤ horizonH then 1 else 0 := by
  have hne : (trials : K) ≠ 0 := Nat.cast_ne_zero.mpr htrials.ne'
  rw [riskWithin, List.length_replicate, if_neg (by rintro (h | h); exacts [htrials.ne' h, hhorizon.not_ge h]),
    List.countP_replicate]
  by_cases hlife : life ≤ horizonH
  · rw [if_pos (decide_eq_true hlife), if_pos hlife, div_self hne]
    exact_mod_cast roundTo_intCast (K := K) 4 1
  · rw [if_neg (by simpa using hlife), if_neg hlife, Nat.cast_zero, zero_div]
    exact_mod_cast roundTo_intCast (K := K) 4 0

/-! ## Stopped and running -/

section
variable {f : Powers K} {g : Generator K} {component : ComponentState K} {cond : Conditions K}
  {request : WhatIfRequest K}

theorem hourS_pos : (0 : K) < hourS := by
  norm_num [hourS]

theorem minRemaining_pos : (0 : K) < minRemaining := by
  norm_num [minRemaining]

theorem risk_of_stopped (hlife : 0 < component.lifeH) (hdamage : minRemaining < 1 - component.damage) {a : K}
    (ha : component.acceleration f cond = some a) (hstopped : a ≤ 0) :
    component.risk f g request cond =
      some (if (1 - component.damage) * component.lifeH * 1000.0 ≤ request.horizonH then 1 else 0) := by
  have hhour : (hourS : K) ≠ 0 := hourS_pos.ne'
  have hstand : (1 - component.damage) * (component.lifeH * hourS) / hourS * 1e3 =
      (1 - component.damage) * component.lifeH * 1000.0 := by
    rw [← mul_assoc, mul_div_cancel_right₀ _ hhour]
    norm_num
  have htrials : 0 < request.trials := lt_of_lt_of_le (by norm_num) request.trials_ge
  rw [ComponentState.risk, timeToFailureH_of_good hlife hdamage ha, if_pos hstopped, Option.map_some,
    riskWithin_replicate htrials request.horizon_pos, hstand]

/-- On the same draws a component that wears faster is at no less risk. -/
theorem risk_mono (hlife : 0 < component.lifeH) (hdamage : minRemaining < 1 - component.damage)
    {slow fast : Conditions K} {a b : K} (hslow : component.acceleration f slow = some a)
    (hfast : component.acceleration f fast = some b) (ha : 0 < a) (hab : a ≤ b) : ∃ r t, component.risk f g request slow = some r ∧
      component.risk f g request fast = some t ∧ r ≤ t := by
  have hremaining : 0 < 1 - component.damage := minRemaining_pos.trans hdamage
  have hlifeS : 0 < component.lifeH * hourS := mul_pos hlife hourS_pos
  have hcv : 0 < max component.cv 1e-6 := lt_max_of_lt_right (by norm_num)
  have hdraws := g.wald_nonneg _ ((1 - component.damage) ^ 2 * (component.lifeH * hourS) / max component.cv 1e-6 ^ 2)
    request.trials (mul_pos hremaining hlifeS) (by positivity)
  rw [ComponentState.risk, ComponentState.risk, timeToFailureH_of_good hlife hdamage hslow,
    timeToFailureH_of_good hlife hdamage hfast, if_neg ha.not_ge, if_neg (ha.trans_le hab).not_ge]
  refine ⟨_, _, rfl, rfl, riskWithin_mono (fun x hx => ?_) request.horizonH⟩
  exact div_le_div_of_nonneg_right (div_le_div_of_nonneg_left (hdraws x hx) ha hab) hourS_pos.le

end

/-- A good component of a stopped machine is at no risk, and one that wears faster at no less, just if a thousand of
the lives that are left to it end after the horizon. -/
theorem stopped_no_risk_iff (f : Powers K) (g : Generator K) (request : WhatIfRequest K) (component : ComponentState K)
    (hlife : 0 < component.lifeH) (hdamage : minRemaining < 1 - component.damage) (stopped slow fast : Conditions K)
    (a b c : K) (hstopped : component.acceleration f stopped = some a) (ha : a ≤ 0)
    (hslow : component.acceleration f slow = some b) (hb : 0 < b)
    (hfast : component.acceleration f fast = some c) (hbc : b ≤ c) :
    (component.risk f g request stopped = some 0 ∧ ∃ r t, component.risk f g request slow = some r ∧
        component.risk f g request fast = some t ∧ r ≤ t) ↔
      request.horizonH < (1 - component.damage) * component.lifeH * 1000.0 := by
  rw [risk_of_stopped hlife hdamage hstopped ha, and_iff_left (risk_mono hlife hdamage hslow hfast hb hbc), ← not_le]
  by_cases h : (1 - component.damage) * component.lifeH * 1000.0 ≤ request.horizonH
  · rw [if_pos h]
    exact iff_of_false (fun hone => one_ne_zero (Option.some_inj.mp hone)) (not_not_intro h)
  · rw [if_neg h]
    exact iff_of_true rfl h

end

/-- The draws of a generator that always gives the mean. -/
noncomputable def meanLives : Generator ℝ where
  wald mean _ size := List.replicate size mean
  wald_length _ _ _ := List.length_replicate
  wald_nonneg mean _ size hmean _ x hx := by
    rw [(List.mem_replicate.mp hx).2]
    exact hmean.le

/-- A spindle of a life of 1000 h that wears with the load. -/
noncomputable def spindle (damage : ℝ) : ComponentState ℝ :=
  ⟨"spindle", "Spindle", "wiener", damage, 1000.0, 0.15, 1, 0, none, none⟩

theorem acceleration_spindle (damage : ℝ) {load : ℝ} (hload : 0 ≤ load) :
    (spindle damage).acceleration .real ⟨load, 1, none⟩ = some load := by
  simp [spindle, ComponentState.acceleration, Powers.real, hload]

noncomputable def yearAhead : WhatIfRequest ℝ := ⟨8760, 500, by norm_num, by norm_num, by norm_num, by norm_num⟩

/-- Half of its life left, the spindle is at no risk within a year. -/
theorem stopped_no_risk_of_half_worn :
    (spindle 0.5).risk .real meanLives yearAhead ⟨0, 1, none⟩ = some 0 ∧
      ∃ r t, (spindle 0.5).risk .real meanLives yearAhead ⟨1, 1, none⟩ = some r ∧
        (spindle 0.5).risk .real meanLives yearAhead ⟨2, 1, none⟩ = some t ∧ r ≤ t := by
  refine (stopped_no_risk_iff .real meanLives yearAhead (spindle 0.5) ?_ ?_ ⟨0, 1, none⟩ ⟨1, 1, none⟩ ⟨2, 1, none⟩ 0 1 2
    (acceleration_spindle _ le_rfl) le_rfl (acceleration_spindle _ zero_le_one) one_pos
    (acceleration_spindle _ zero_le_two) one_le_two).mpr ?_
  · norm_num [spindle]
  · norm_num [spindle, minRemaining]
  · norm_num [spindle, yearAhead]

/-- With five of its hours left, the spindle of a stopped machine is said to fail within a year. -/
theorem stopped_at_risk : ¬∀ (g : Generator ℝ) (request : WhatIfRequest ℝ) (component : ComponentState ℝ),
    0 < component.lifeH → minRemaining < 1 - component.damage → ∀ (cond : Conditions ℝ) (a : ℝ),
      component.acceleration .real cond = some a → a ≤ 0 → component.risk .real g request cond = some 0 := by
  intro h
  have hlife : 0 < (spindle 0.995).lifeH := by norm_num [spindle]
  have hdamage : minRemaining < 1 - (spindle 0.995).damage := by norm_num [spindle, minRemaining]
  have hstopped := acceleration_spindle 0.995 le_rfl
  have hnone := h meanLives yearAhead (spindle 0.995) hlife hdamage ⟨0, 1, none⟩ 0 hstopped le_rfl
  rw [risk_of_stopped hlife hdamage hstopped le_rfl, if_pos (by norm_num [spindle, yearAhead])] at hnone
  exact one_ne_zero (Option.some_inj.mp hnone)

end TwinVoice.Twin.WhatIf
