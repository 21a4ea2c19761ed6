import TwinVoice.Sim.Base
import TwinVoice.Sim.Wearing

/-! # Damage, failure and the time that is left

Each class of degradation keeps the contract, although they measure their wear
each in its own way: a level, a sum of draws, the length of a crack, the width
of a tool's flank. So they are coupled in every run. A machine has these
processes, where nothing is divided by zero. -/

namespace TwinVoice.Sim.Wearing

open TwinVoice.Lib Usage Deterministic

section
variable {K : Type} [Field K] [LinearOrder K]

/-! ## The classes keep it -/

theorem whole_iff {damage : K} : whole damage ↔ 1 ≤ damage := decide_eq_true_iff

/-- A process with the parameters of `w` that has failed where its level is the last. -/
structure WienerProcess.Kept (w s : WienerProcess K) : Prop where
  same : s.resetState = w.resetState
  level_le : s.level ≤ 1
  failed_iff : s.failed ↔ 1 ≤ s.level

theorem WienerProcess.kept_setLevel {w s : WienerProcess K} (h : Kept w s) (level : K) : Kept w (s.setLevel level) where
  same := h.same
  level_le := min_le_right level 1
  failed_iff := by simp [setLevel]

/-- A process with the parameters of `g`. -/
structure GammaProcess.Kept (g s : GammaProcess K) : Prop where
  same : s.resetState = g.resetState
  x_le : s.x ≤ 1

theorem GammaProcess.kept_min {g s : GammaProcess K} (h : Kept g s) (x : K) : Kept g { s with x := min x 1 } :=
  ⟨h.same, min_le_right x 1⟩

section
variable [IsStrictOrderedRing K] {f : Platform K}

theorem fraction_nonneg (x : K) : 0 ≤ min (max x 0) 1 := le_min (le_max_right x 0) zero_le_one

theorem fraction_eq_one_iff (x : K) : min (max x 0) 1 = 1 ↔ 1 ≤ x := by
  rw [min_eq_right_iff, le_max_iff, or_iff_left (not_le.mpr zero_lt_one)]

/-- What never exceeds one and is never one. -/
theorem lt_one_of_ne {x : K} (hle : x ≤ 1) (hne : ¬ 1 ≤ x) : 0 < 1 - x := sub_pos.mpr (lt_of_le_of_ne hle fun heq => hne heq.ge)

theorem divided_of_pos {x y : K} (hx : 0 < x) (hy : 0 < y) : ∃ z, divided x y = some z ∧ 0 < z :=
  ⟨x / y, if_neg hy.ne', div_pos hx hy⟩

namespace WienerProcess
variable {w s : WienerProcess K}

theorem Kept.damage_eq (h : Kept w s) : s.damage = min (max s.level 0) 1 := by
  unfold damage
  split
  · rename_i hfailed
    exact ((fraction_eq_one_iff s.level).mpr (h.failed_iff.mp hfailed)).symm
  · rfl

theorem contract (hdrift : 0 < w.drift) : Contract f w.resetState (Kept w) where
  damage_nonneg s h := (fraction_nonneg s.level).trans_eq h.damage_eq.symm
  damage_le s h := h.damage_eq.trans_le (min_le_right _ _)
  failed_iff s h := by
    change s.failed ↔ s.damage = 1
    rw [h.failed_iff, h.damage_eq, fraction_eq_one_iff]
  advance draw s r h _ _ := ⟨_, rfl, kept_setLevel h _⟩
  remaining s h hrunning := by
    have hdrift' : s.resetState.drift = w.resetState.drift := congrArg drift h.same
    exact divided_of_pos (lt_one_of_ne h.level_le (mt h.failed_iff.mpr hrunning)) (hdrift.trans_eq hdrift'.symm)
  jump s amount h _ := kept_setLevel h _
  failed_jump s amount h hamount hfailed :=
    decide_eq_true (le_add_of_le_of_nonneg (h.failed_iff.mp hfailed) hamount)
  reset s h := h.same
  valid_fresh := ⟨rfl, zero_le_one, by simp [resetState]⟩
  damage_fresh := by simp [WearModel.damage, damage, resetState]

end WienerProcess

namespace GammaProcess
variable {g s : GammaProcess K}

theorem whole_damage (s : GammaProcess K) : whole s.damage ↔ 1 ≤ s.x := by
  rw [whole_iff, damage, le_min_iff, and_iff_left (le_refl 1), le_max_iff, or_iff_left (not_le.mpr zero_lt_one)]

theorem contract (hrate : 0 < g.meanRate) : Contract f g.resetState (Kept g) where
  damage_nonneg s _ := fraction_nonneg s.x
  damage_le s _ := min_le_right _ _
  failed_iff s _ := (whole_damage s).trans (fraction_eq_one_iff s.x).symm
  advance draw s r h _ _ := ⟨_, rfl, kept_min h _⟩
  remaining s h hrunning := by
    have hrate' : s.resetState.meanRate = g.resetState.meanRate := congrArg meanRate h.same
    exact divided_of_pos (lt_one_of_ne h.x_le (mt (whole_damage s).mpr hrunning)) (hrate.trans_eq hrate'.symm)
  jump s amount h _ := kept_min h _
  failed_jump s amount h hamount hfailed := by
    have hx : 1 ≤ s.x := (whole_damage s).mp hfailed
    exact (whole_damage (s.jump amount)).mpr (le_min (le_add_of_le_of_nonneg hx hamount) le_rfl)
  reset s h := h.same
  valid_fresh := ⟨rfl, zero_le_one⟩
  damage_fresh := by simp [WearModel.damage, damage, resetState]

end GammaProcess

/-- A motor with the parameters of `m`. -/
structure MotorEfficiencyLoss.Kept (m s : MotorEfficiencyLoss K) : Prop where
  gamma : GammaProcess.Kept m.toGammaProcess s.toGammaProcess
  eta0 : s.eta0 = m.eta0
  k : s.k = m.k

/-- A motor wears as the gamma process does that it is made of. -/
theorem MotorEfficiencyLoss.contract {m : MotorEfficiencyLoss K} (hrate : 0 < m.meanRate) :
    Contract f (WearModel.resetState m) (Kept m) where
  damage_nonneg s _ := fraction_nonneg s.x
  damage_le s _ := min_le_right _ _
  failed_iff s h := (GammaProcess.contract (f := f) hrate).failed_iff s.toGammaProcess h.gamma
  advance draw s r h _ _ := ⟨_, rfl, GammaProcess.kept_min h.gamma _, h.eta0, h.k⟩
  remaining s h hrunning := (GammaProcess.contract (f := f) hrate).remaining s.toGammaProcess h.gamma hrunning
  jump s amount h _ := ⟨GammaProcess.kept_min h.gamma _, h.eta0, h.k⟩
  failed_jump s amount h hamount hfailed :=
    (GammaProcess.contract (f := f) hrate).failed_jump s.toGammaProcess amount h.gamma hamount hfailed
  reset s h := by
    obtain ⟨⟨hsame, -⟩, heta0, hk⟩ := h
    cases s
    cases m
    cases heta0
    cases hk
    exact congrArg (fun g => MotorEfficiencyLoss.mk g _ _) hsame
  valid_fresh := ⟨⟨rfl, zero_le_one⟩, rfl, rfl⟩
  damage_fresh := (GammaProcess.contract (f := f) hrate).damage_fresh

end

end

/-- A tool of these parameters that is worn by a fraction. -/
structure PartlyWorn (args : TaylorArguments ℝ) (t : TaylorToolLife ℝ) : Prop extends Worn args t where
  wear_nonneg : 0 ≤ t.wear

theorem tool_contract {args : TaylorArguments ℝ} (hlife : 0 < args.lifeH) :
    Contract .real (⟨args, 0⟩ : TaylorToolLife ℝ) (PartlyWorn args) where
  damage_nonneg t h := h.wear_nonneg
  damage_le t h := h.wear_le
  failed_iff t h := whole_iff.trans ⟨fun hworn => le_antisymm h.wear_le hworn, fun heq => heq.ge⟩
  advance draw t r h _ hr := by
    have hlifeS : 0 < t.args.lifeRefS := h.args_eq ▸ lifeRefS_pos hlife
    obtain ⟨worn, hworn, hpos⟩ := divided_of_pos hr hlifeS
    refine ⟨_, congrArg (Option.bind · _) hworn, ⟨h.args_eq, min_le_right _ _⟩, ?_⟩
    exact le_min (add_nonneg h.wear_nonneg hpos.le) zero_le_one
  remaining t h hrunning := by
    have hlifeS : 0 < t.args.lifeRefS := h.args_eq ▸ lifeRefS_pos hlife
    exact ⟨_, rfl, mul_pos (lt_one_of_ne h.wear_le (mt whole_iff.mpr hrunning)) hlifeS⟩
  jump t amount h hamount :=
    ⟨⟨h.args_eq, min_le_right _ _⟩, le_min (add_nonneg h.wear_nonneg hamount) zero_le_one⟩
  failed_jump t amount h hamount hfailed :=
    whole_iff.mpr (le_min (le_add_of_le_of_nonneg (whole_iff.mp hfailed) hamount) le_rfl)
  reset t h := congrArg (TaylorToolLife.mk · 0) h.args_eq
  valid_fresh := ⟨⟨rfl, zero_le_one⟩, le_rfl⟩
  damage_fresh := rfl

/-- How far a crack has come of its way. -/
theorem damage_at {args : ParisArguments ℝ} (h : args.Sound) {damage : ℝ} (hleast : 0 ≤ damage) (hmost : damage ≤ 1) :
    (⟨args, args.a0 + damage * (args.aCrit - args.a0)⟩ : ParisLaw ℝ).damage = damage := by
  have hspan : args.aCrit - args.a0 ≠ 0 := (sub_pos.mpr h.a0_lt_aCrit).ne'
  rw [ParisLaw.damage, add_sub_cancel_left, mul_div_cancel_right₀ _ hspan, max_eq_left hleast, min_eq_left hmost]

theorem crack_contract {args : ParisArguments ℝ} (hsound : args.Sound) :
    Contract .real (⟨args, args.a0⟩ : ParisLaw ℝ) (Cracked args) where
  damage_nonneg p _ := fraction_nonneg _
  damage_le p _ := min_le_right _ _
  failed_iff p _ := whole_iff.trans ⟨fun hdamage => le_antisymm (min_le_right _ _) hdamage, fun heq => heq.ge⟩
  advance draw p r h _ hr := ⟨_, advance_of_cracked hsound h hr, cracked_crackAdvance hsound h hr⟩
  remaining p h hrunning := by
    refine ⟨_, remaining_of_cracked hsound h, not_le.mp fun hspent => hrunning (whole_iff.mpr ?_)⟩
    exact (damage_of_cracked hsound h).mpr ((crackLeft_nonpos_iff hsound h).mp hspent)
  jump p amount h hamount := cracked_jump hsound h hamount
  failed_jump p amount h hamount hfailed := by
    have hwhole : min (p.damage + amount) 1 = 1 := min_eq_right (le_add_of_le_of_nonneg (whole_iff.mp hfailed) hamount)
    obtain rfl := h.args_eq
    refine whole_iff.mpr (le_of_eq ?_)
    change 1 = (p.jump amount).damage
    rw [ParisLaw.jump, hwhole]
    exact (damage_at hsound zero_le_one le_rfl).symm
  reset p h := congrArg (fun args => ParisLaw.mk args args.a0) h.args_eq
  valid_fresh := ⟨rfl, le_rfl, hsound.a0_lt_aCrit.le⟩
  damage_fresh := by
    have hfresh := damage_at hsound le_rfl zero_le_one
    rwa [zero_mul, add_zero] at hfresh

/-! ## Processes that were just built -/

section
variable {K : Type} [Field K] [LinearOrder K]

theorem reciprocal_eq_some {x y : K} (h : reciprocal x = some y) : x ≠ 0 ∧ y = 1 / x := by
  obtain ⟨hx, hy⟩ := Option.ite_none_left_eq_some.mp h
  exact ⟨hx, (Option.some.inj hy).symm⟩

variable [IsStrictOrderedRing K] {initial : K}

theorem hourS_pos : 0 < (hourS : K) := by norm_num [hourS]

theorem WienerProcess.new_eq_some {f : Platform K} {args : WienerArguments K} {w : WienerProcess K}
    (h : new f args initial = some w) : 0 < w.drift ∧ w.level = initial ∧ w.failed = false := by
  obtain ⟨drift, hdrift, h⟩ := Option.bind_eq_some_iff.mp h
  obtain ⟨hlife, rfl⟩ := reciprocal_eq_some hdrift
  obtain ⟨hnonneg, h⟩ := Option.ite_none_left_eq_some.mp h
  obtain ⟨diffusion, -, hw⟩ := Option.bind_eq_some_iff.mp h
  cases hw
  exact ⟨one_div_pos.mpr (lt_of_le_of_ne (not_lt.mp hnonneg) hlife.symm), rfl, rfl⟩

theorem GammaProcess.new_eq_some {args : GammaArguments K} (hlife : 0 < args.lifeH) {g : GammaProcess K}
    (h : new args initial = some g) : 0 < g.meanRate ∧ g.x = initial := by
  have hlifeS : 0 < args.lifeH * hourS := mul_pos hlife hourS_pos
  obtain ⟨shapeRate, hshape, h⟩ := Option.bind_eq_some_iff.mp h
  obtain ⟨hvaries, rfl⟩ := reciprocal_eq_some hshape
  obtain ⟨scale, hscale, hg⟩ := Option.bind_eq_some_iff.mp h
  obtain ⟨-, rfl⟩ := reciprocal_eq_some hscale
  cases hg
  have hcv : 0 < args.cv ^ 2 := lt_of_le_of_ne (sq_nonneg args.cv) (left_ne_zero_of_mul hvaries).symm
  have hshapeRate : 0 < 1 / (args.cv ^ 2 * (args.lifeH * hourS)) := one_div_pos.mpr (mul_pos hcv hlifeS)
  exact ⟨mul_pos hshapeRate (one_div_pos.mpr (mul_pos hshapeRate hlifeS)), rfl⟩

/-- The constructor makes a process of every life and variation. -/
theorem GammaProcess.exists_new {args : GammaArguments K} (hlife : 0 < args.lifeH) (hcv : args.cv ≠ 0) (initial : K) :
    ∃ g, new args initial = some g := by
  have hlifeS : args.lifeH * hourS ≠ 0 := (mul_pos hlife hourS_pos).ne'
  have hvaries : args.cv ^ 2 * (args.lifeH * hourS) ≠ 0 := mul_ne_zero (pow_ne_zero 2 hcv) hlifeS
  have hscaled : 1 / (args.cv ^ 2 * (args.lifeH * hourS)) * (args.lifeH * hourS) ≠ 0 :=
    mul_ne_zero (one_div_ne_zero hvaries) hlifeS
  refine Option.isSome_iff_exists.mp ?_
  simp only [new, reciprocal, if_neg hvaries, if_neg hscaled, Option.bind_eq_bind, Option.bind_some]
  rfl

end

theorem WienerProcess.exists_new {args : WienerArguments ℝ} (hlife : 0 < args.lifeH) (initial : ℝ) :
    ∃ w, new .real args initial = some w := by
  have hlifeS : 0 < args.lifeH * hourS := mul_pos hlife hourS_pos
  have hroot : Platform.real.sqrt (args.lifeH * hourS) ≠ 0 := (Real.sqrt_pos.mpr hlifeS).ne'
  simp [new, reciprocal, hlifeS.ne', not_lt.mpr hlifeS.le, divided, hroot]

theorem paris_new_eq_some {args : ParisArguments ℝ} (h : args.Sound) {initial : ℝ} (hunworn : initial ≤ 1) {p : ParisLaw ℝ}
    (hp : ParisLaw.new .real args initial = some p) : p = ⟨args, args.a0 + initial * (args.aCrit - args.a0)⟩ := by
  have hfresh : (⟨args, args.a0⟩ : ParisLaw ℝ).damage = 0 := (crack_contract h).damage_fresh
  obtain ⟨-, hp⟩ := Option.ite_none_left_eq_some.mp hp
  obtain ⟨g, -, hp⟩ := Option.bind_eq_some_iff.mp hp
  obtain ⟨-, hp⟩ := Option.ite_none_left_eq_some.mp hp
  rw [← Option.some.inj hp, ParisLaw.jump, hfresh, zero_add, min_eq_left hunworn]

/-- A process of any class keeps damage, failure, the time that is left and its faults in step, whatever is drawn for it
and whatever happens to it. -/
theorem damage_coupled {initial : ℝ} (hnonneg : 0 ≤ initial) (hunworn : initial < 1)
    (arrhenius : Option (Arrhenius ℝ)) :
    (∀ args w, WienerProcess.new .real args initial = some w →
      w.damage = initial ∧ Coupled .real (.new w arrhenius)) ∧
    (∀ args g, 0 < args.lifeH → GammaProcess.new args initial = some g →
      g.damage = initial ∧ Coupled .real (.new g arrhenius)) ∧
    (∀ args p, args.Sound → ParisLaw.new .real args initial = some p →
      p.damage = initial ∧ Coupled .real (.new p arrhenius)) ∧
    (∀ args : TaylorArguments ℝ, 0 < args.lifeH →
      (TaylorToolLife.new args initial).wear = initial ∧ Coupled .real (.new (TaylorToolLife.new args initial) arrhenius)) ∧
    ∀ args m, 0 < args.lifeH → MotorEfficiencyLoss.new args initial = some m →
      m.damage = initial ∧ Coupled .real (.new m arrhenius) := by
  have hfraction : min (max initial 0) 1 = initial := by rw [max_eq_left hnonneg, min_eq_left hunworn.le]
  refine ⟨fun args w hw => ?_, fun args g hlife hg => ?_, fun args p hsound hp => ?_, fun args hlife => ?_,
    fun args m hlife hm => ?_⟩
  · obtain ⟨hdrift, rfl, hrunning⟩ := WienerProcess.new_eq_some hw
    have hkept : WienerProcess.Kept w w := ⟨rfl, hunworn.le, by simp [hrunning, hunworn]⟩
    exact ⟨hkept.damage_eq.trans hfraction, (WienerProcess.contract hdrift).coupled hkept⟩
  · obtain ⟨hrate, rfl⟩ := GammaProcess.new_eq_some hlife hg
    exact ⟨hfraction, (GammaProcess.contract hrate).coupled ⟨rfl, hunworn.le⟩⟩
  · have hspan : 0 < args.aCrit - args.a0 := sub_pos.mpr hsound.a0_lt_aCrit
    obtain rfl := paris_new_eq_some hsound hunworn.le hp
    refine ⟨damage_at hsound hnonneg hunworn.le, (crack_contract hsound).coupled ⟨rfl, ?_, ?_⟩⟩
    · exact le_add_of_nonneg_right (mul_nonneg hnonneg hspan.le)
    · have hway : initial * (args.aCrit - args.a0) ≤ args.aCrit - args.a0 := mul_le_of_le_one_left hspan.le hunworn.le
      change args.a0 + initial * (args.aCrit - args.a0) ≤ args.aCrit
      linarith
  · have hwear : min initial 1 = initial := min_eq_left hunworn.le
    refine ⟨hwear, (tool_contract hlife).coupled ⟨worn_new args initial, ?_⟩⟩
    exact le_min hnonneg zero_le_one
  · obtain ⟨g, hg, hm⟩ := Option.bind_eq_some_iff.mp hm
    cases hm
    obtain ⟨hrate, rfl⟩ := GammaProcess.new_eq_some hlife hg
    exact ⟨hfraction, (MotorEfficiencyLoss.contract hrate).coupled ⟨⟨rfl, hunworn.le⟩, rfl, rfl⟩⟩

/-- Of every class there is one that begins a quarter worn. -/
theorem damage_coupled_quarter :
    (∃ w, WienerProcess.new .real ⟨10.0, 0.1, 1, 0⟩ 0.25 = some w ∧ Coupled .real (.new w none)) ∧
    (∃ g : GammaProcess ℝ, GammaProcess.new ⟨10.0, 0.2, 1, 0⟩ 0.25 = some g ∧ Coupled .real (.new g none)) ∧
    (∃ p, ParisLaw.new .real newCrack.state.args 0.25 = some p ∧ Coupled .real (.new p none)) ∧
    Coupled .real (.new (TaylorToolLife.new newTool.state.args 0.25) none) ∧
    ∃ m : MotorEfficiencyLoss ℝ, MotorEfficiencyLoss.new ⟨10.0, 0.92, 0.12, 0.15, 1⟩ 0.25 = some m ∧
      Coupled .real (.new m none) := by
  have hten : (0 : ℝ) < 10.0 := by norm_num
  have hsound : newCrack.state.args.Sound := by constructor <;> norm_num [newCrack]
  have hclose : isClose newCrack.state.args.m 2.0 = false := by norm_num [isClose, newCrack]
  obtain ⟨hwiener, hgamma, hparis, htaylor, hmotor⟩ := damage_coupled (by norm_num : (0 : ℝ) ≤ 0.25) (by norm_num) none
  have hw : ∃ w, WienerProcess.new .real ⟨10.0, 0.1, 1, 0⟩ 0.25 = some w := WienerProcess.exists_new hten _
  have hg : ∃ g : GammaProcess ℝ, GammaProcess.new ⟨10.0, 0.2, 1, 0⟩ 0.25 = some g :=
    GammaProcess.exists_new hten (by norm_num) _
  have hg' : ∃ g : GammaProcess ℝ, GammaProcess.new ⟨10.0, 0.15, 1, 0⟩ 0.25 = some g :=
    GammaProcess.exists_new hten (by norm_num) _
  obtain ⟨w, hw⟩ := hw
  obtain ⟨g, hg⟩ := hg
  obtain ⟨g', hg'⟩ := hg'
  obtain ⟨p, hp, -⟩ := cracked_new hsound hclose (by norm_num : (0 : ℝ) ≤ 0.25)
  have hm : MotorEfficiencyLoss.new ⟨10.0, 0.92, 0.12, 0.15, 1⟩ 0.25 = some ⟨g', 0.92, 0.12⟩ := by
    rw [MotorEfficiencyLoss.new, hg']
    rfl
  exact ⟨⟨w, hw, (hwiener _ w hw).2⟩, ⟨g, hg, (hgamma _ g hten hg).2⟩, ⟨p, hp, (hparis _ p hsound hp).2⟩,
    (htaylor _ hten).2, ⟨_, hm, (hmotor _ _ hten hm).2⟩⟩

/-! ## The processes of a machine -/

def platformOf (math : Base.Math) : Platform Rat := ⟨powersOf math, math.sqrt⟩

def drawOf (draw : Base.Draw) : Draw Rat := ⟨draw.normal, draw.gamma⟩

/-- In a machine the class does what its constructor does there. -/
structure Renders {S : Type} [WearModel S Rat] (math : Base.Math) (R : S → Base.Degradation → Prop) : Prop where
  law : ∀ s d, R s d → WearModel.law s = lawOf d
  damage : ∀ s d, R s d → WearModel.damage s = d.damage
  failed : ∀ s d, R s d → WearModel.failed s = d.failed
  advance : ∀ s d draw r s', R s d → WearModel.advance (platformOf math) (drawOf draw) s r = some s' →
    R s' (d.advance math draw r)
  remaining : ∀ s d x, R s d → WearModel.remainingReferenceS (platformOf math) s = some x → d.remainingReferenceS math = x
  jump : ∀ s d amount, R s d → R (WearModel.jump s amount) (d.jump amount)
  reset : ∀ s d, R s d → R (WearModel.resetState s) d.resetState

def wienerOf (w : WienerProcess Rat) (d : Base.Degradation) : Prop :=
  d = .wiener w.drift w.diffusion w.loadExp w.speedExp w.level w.failed

def gammaOf (g : GammaProcess Rat) (d : Base.Degradation) : Prop := d = .gamma g.shapeRate g.scale g.loadExp g.speedExp g.x

def motorOf (m : MotorEfficiencyLoss Rat) (d : Base.Degradation) : Prop :=
  d = .motorEfficiency m.shapeRate m.scale m.loadExp m.eta0 m.k m.x

theorem renders_wiener (math : Base.Math) : Renders math wienerOf where
  law _ _ h := h ▸ rfl
  damage _ _ h := h ▸ rfl
  failed _ _ h := h ▸ rfl
  advance _ _ _ _ _ h h' := by
    cases h
    cases h'
    rfl
  remaining _ _ _ h hx := by
    cases h
    exact divided_eq_some hx
  jump _ _ _ h := h ▸ rfl
  reset _ _ h := h ▸ rfl

theorem renders_gamma (math : Base.Math) : Renders math gammaOf where
  law _ _ h := h ▸ rfl
  damage _ _ h := h ▸ rfl
  failed _ _ h := h ▸ rfl
  advance _ _ _ _ _ h h' := by
    cases h
    cases h'
    rfl
  remaining _ _ _ h hx := by
    cases h
    exact divided_eq_some hx
  jump _ _ _ h := h ▸ rfl
  reset _ _ h := h ▸ rfl

theorem renders_motor (math : Base.Math) : Renders math motorOf where
  law _ _ h := h ▸ rfl
  damage _ _ h := h ▸ rfl
  failed _ _ h := h ▸ rfl
  advance _ _ _ _ _ h h' := by
    cases h
    cases h'
    rfl
  remaining _ _ _ h hx := by
    cases h
    exact divided_eq_some hx
  jump _ _ _ h := h ▸ rfl
  reset _ _ h := h ▸ rfl

theorem renders_tool (math : Base.Math) : Renders math toolOf where
  law _ _ h := h ▸ rfl
  damage _ _ h := h ▸ rfl
  failed _ _ h := h ▸ rfl
  advance t d draw := (rendered_tool math).advance t d draw
  remaining := (rendered_tool math).remaining
  jump _ _ _ h := h ▸ rfl
  reset _ _ h := h ▸ rfl

theorem renders_crack (math : Base.Math) : Renders math (crackOf math) where
  law := (rendered_crack math).law
  damage _ _ h := by
    obtain ⟨g, grows, -, rfl⟩ := h
    rfl
  failed _ _ h := by
    obtain ⟨g, grows, -, rfl⟩ := h
    rfl
  advance p d draw := (rendered_crack math).advance p d draw
  remaining := (rendered_crack math).remaining
  jump _ _ _ h := by
    obtain ⟨g, grows, hg, rfl⟩ := h
    exact ⟨g, grows, hg, rfl⟩
  reset _ _ h := by
    obtain ⟨g, grows, hg, rfl⟩ := h
    exact ⟨g, grows, hg, rfl⟩

/-- A process of a machine that divides by zero nowhere. -/
structure InMachine {S : Type} [WearModel S Rat] (R : S → Base.Degradation → Prop) (p : Process S Rat) (q : Base.Process) :
    Prop where
  state : R p.state q.degradation
  arrhenius : p.arrhenius = q.arrhenius.map modifierOf
  multiplier : p.rateMultiplier = q.rateMultiplier
  exponents : (lawOf q.degradation).exponents ≠ none
  temperatures : ∀ a ∈ q.arrhenius, a.tRefC + kelvin ≠ 0

theorem lawOf_jump (d : Base.Degradation) (amount : Rat) : lawOf (d.jump amount) = lawOf d := by
  cases d <;> rfl

theorem lawOf_resetState (d : Base.Degradation) : lawOf d.resetState = lawOf d := by
  cases d <;> rfl

namespace InMachine
variable {S : Type} [WearModel S Rat] {math : Base.Math} {R : S → Base.Degradation → Prop} {p : Process S Rat}
  {q : Base.Process}

theorem rate_eq (hR : Renders math R) (h : InMachine R p q) (cond : Base.Conditions) :
    p.rate (platformOf math) (conditionsOf cond) = some (q.rate math cond) := by
  have hpos : 0 < q.rateMultiplier := h.multiplier ▸ p.positive
  have husage : p.usage = ⟨lawOf q.degradation, q.arrhenius.map modifierOf, q.rateMultiplier, hpos⟩ := by
    simp only [Process.usage, hR.law _ _ h.state, h.arrhenius, h.multiplier]
  rw [Process.rate, husage]
  exact rate_of_machine math h.exponents h.temperatures hpos cond

theorem failed_eq (hR : Renders math R) (h : InMachine R p q) : p.failed = q.failed := hR.failed _ _ h.state

theorem trueRul_eq (hR : Renders math R) (h : InMachine R p q) {cond : Base.Conditions} {rul : Option Rat}
    (hrul : p.trueRul (platformOf math) (conditionsOf cond) = some rul) : q.trueRul math cond = rul := by
  unfold Process.trueRul at hrul
  unfold Base.Process.trueRul
  rw [h.failed_eq hR, h.rate_eq hR] at hrul
  by_cases hfailed : q.failed
  · rw [if_pos hfailed] at hrul ⊢
    exact Option.some.inj hrul
  · rw [if_neg hfailed] at hrul ⊢
    simp only [Option.bind_eq_bind, Option.bind_some] at hrul
    by_cases hrate : q.rate math cond ≤ 0
    · rw [if_pos hrate] at hrul ⊢
      exact Option.some.inj hrul
    · rw [if_neg hrate] at hrul ⊢
      obtain ⟨x, hx, hrul⟩ := Option.bind_eq_some_iff.mp hrul
      rw [hR.remaining _ _ _ h.state hx]
      exact Option.some.inj hrul

theorem step (hR : Renders math R) (h : InMachine R p q) (draw : Base.Draw) {dt : Rat} {cond : Base.Conditions}
    {p' : Process S Rat} (hstep : p.step (platformOf math) dt (conditionsOf cond) (drawOf draw) = some p') :
    InMachine R p' (q.step math draw dt cond) := by
  unfold Process.step at hstep
  unfold Base.Process.step
  rw [h.failed_eq hR, h.rate_eq hR] at hstep
  by_cases hrun : dt ≤ 0 ∨ q.failed
  · rw [if_pos hrun] at hstep ⊢
    cases hstep
    exact h
  · rw [if_neg hrun] at hstep ⊢
    simp only [Option.bind_eq_bind, Option.bind_some] at hstep
    by_cases hreference : 0 < dt * q.rate math cond
    · rw [if_pos hreference] at hstep
      obtain ⟨s, hs, hp'⟩ := Option.bind_eq_some_iff.mp hstep
      cases hp'
      simp only [if_pos hreference]
      refine { h with state := hR.advance _ _ draw _ _ h.state hs, exponents := ?_ }
      rw [lawOf_advance]
      exact h.exponents
    · rw [if_neg hreference] at hstep
      cases hstep
      simp only [if_neg hreference]
      exact h

theorem jump (hR : Renders math R) (h : InMachine R p q) (amount : Rat) : InMachine R (p.jump amount) (q.jump amount) :=
  { h with
    state := hR.jump _ _ amount h.state
    exponents := (lawOf_jump q.degradation amount).symm ▸ h.exponents }

theorem reset (hR : Renders math R) (h : InMachine R p q) : InMachine R p.reset q.reset :=
  { h with
    state := hR.reset _ _ h.state
    multiplier := rfl
    exponents := (lawOf_resetState q.degradation).symm ▸ h.exponents }

/-- The gradual fault of `inject`. -/
theorem hasten (hR : Renders math R) (h : InMachine R p q) (m : Base.Machine) (c : Base.Component) {severity : Rat}
    (positive : 0 < (Base.Machine.gradualMaxH - (Base.Machine.gradualMaxH - Base.Machine.gradualMinH) * severity) * 3600) {p' : Process S Rat}
    (hgradual : p.gradual (platformOf math) (conditionsOf (m.conditions c true)) _ positive = some p') :
    InMachine R p' (m.hasten math c severity q) := by
  obtain ⟨rul, hrul, hp'⟩ := Option.bind_eq_some_iff.mp hgradual
  cases hp'
  unfold Base.Machine.hasten
  rw [h.trueRul_eq hR hrul]
  cases rul with
  | none => exact h
  | some rul =>
    dsimp only [Option.elim, Usage.Process.change]
    split
    · refine { h with multiplier := ?_ }
      rw [← h.multiplier]
      rfl
    · exact h

end InMachine

end TwinVoice.Sim.Wearing
