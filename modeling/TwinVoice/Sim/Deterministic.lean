import TwinVoice.Lib.Countdown
import TwinVoice.Sim.Usage

/-! # Deterministic wear

`DegradationProcess` over the classes that draw nothing: the crack that grows
by Paris's law and the tool that wears by Taylor's equation. Each of them
counts down the time that it would last at reference conditions, a crack in
powers of its length, so that it does not matter how its time is cut into
steps. -/

namespace TwinVoice.Sim.Deterministic

open TwinVoice.Lib Usage

/-- What a class defines; a formula that raises has no value. -/
class DegradationModel (S : Type) (K : outParam Type) where
  law : S → Law K
  damage : S → K
  advance : Powers K → S → K → Option S
  remainingReferenceS : Powers K → S → Option K

/-- `HOUR_S`. -/
def hourS {K : Type} [Field K] : K := 3600.0

section
variable {K : Type} [Field K]

/-- `x / y`. -/
def divided [DecidableEq K] (x y : K) : Option K := if y = 0 then none else some (x / y)

end

/-! ## Paris's law -/

/-- What the constructor is given, without what only `c` is made of. -/
structure ParisArguments (K : Type) where
  lifeH : K
  rpm : K
  m : K
  a0Mm : K
  aCritMm : K

/-- The attributes of a crack: those that the constructor computes never change. -/
structure ParisLaw (K : Type) where
  args : ParisArguments K
  a : K

section
variable {K : Type} [Field K] [LinearOrder K]

namespace ParisArguments
variable (args : ParisArguments K)

def k : K := 1 - args.m / 2.0

def a0 : K := args.a0Mm / 1000.0

def aCrit : K := args.aCritMm / 1000.0

def cyclesPerS : K := args.rpm / 60.0

def lifeCycles : K := args.lifeH * hourS * args.cyclesPerS

def g (f : Powers K) : Option K := do
  let crit ← f.pow args.aCrit args.k
  let start ← f.pow args.a0 args.k
  divided (crit - start) (args.k * args.lifeCycles)

end ParisArguments

namespace ParisLaw
variable (p : ParisLaw K)

def damage : K := min (max ((p.a - p.args.a0) / (p.args.aCrit - p.args.a0)) 0) 1

def jump (amount : K) : ParisLaw K :=
  let damage := min (p.damage + amount) 1
  { p with a := p.args.a0 + damage * (p.args.aCrit - p.args.a0) }

/-- The constructor: the exponent that the closed form excludes raises, and so do a life of no cycles and a crack that
begins at its critical length. -/
def new (f : Powers K) (args : ParisArguments K) (initial : K) : Option (ParisLaw K) :=
  if isClose args.m 2.0 then none
  else do
    let _ ← args.g f
    if args.aCrit = args.a0 then none else return (ParisLaw.mk args args.a0).jump initial

def remainingCycles (f : Powers K) : Option K := do
  let g ← p.args.g f
  let crit ← f.pow p.args.aCrit p.args.k
  let grown ← f.pow p.a p.args.k
  divided (crit - grown) (p.args.k * g)

/-- `_advance`. -/
def advance (f : Powers K) (referenceS : K) : Option (ParisLaw K) := do
  let g ← p.args.g f
  let grown ← f.pow p.a p.args.k
  let target := grown + p.args.k * g * referenceS * p.args.cyclesPerS
  let crit ← f.pow p.args.aCrit p.args.k
  let reached := if p.args.k < 0 then target ≤ crit else crit ≤ target
  if reached then return { p with a := p.args.aCrit }
  else
    let exponent ← reciprocal p.args.k
    let a ← f.pow target exponent
    return { p with a := min a p.args.aCrit }

/-- `_remaining_reference_s`. -/
def remainingReferenceS (f : Powers K) : Option K := do
  let cycles ← p.remainingCycles f
  divided cycles p.args.cyclesPerS

end ParisLaw

instance parisModel : DegradationModel (ParisLaw K) K where
  law p := .paris p.args.m
  damage := ParisLaw.damage
  advance f p := p.advance f
  remainingReferenceS f p := p.remainingReferenceS f

end

/-! ## Taylor's equation -/

/-- What the constructor is given, without what only `c` and the width of the wear are made of. -/
structure TaylorArguments (K : Type) where
  lifeH : K
  n : K
  feedExp : K

structure TaylorToolLife (K : Type) where
  args : TaylorArguments K
  wear : K

section
variable {K : Type} [Field K] [LinearOrder K]

def TaylorArguments.lifeRefS (args : TaylorArguments K) : K := args.lifeH * hourS

namespace TaylorToolLife
variable (t : TaylorToolLife K)

/-- The constructor. -/
def new (args : TaylorArguments K) (initial : K) : TaylorToolLife K := ⟨args, min initial 1⟩

/-- `_advance`. -/
def advance (referenceS : K) : Option (TaylorToolLife K) := do
  let worn ← divided referenceS t.args.lifeRefS
  return { t with wear := min (t.wear + worn) 1 }

/-- `_remaining_reference_s`. -/
def remainingReferenceS : K := (1 - t.wear) * t.args.lifeRefS

end TaylorToolLife

instance taylorModel : DegradationModel (TaylorToolLife K) K where
  law t := .taylor t.args.n t.args.feedExp
  damage := TaylorToolLife.wear
  advance _ t := t.advance
  remainingReferenceS _ t := some t.remainingReferenceS

end

/-! ## The process -/

section
variable {K : Type} [Field K] [LinearOrder K]

/-- A process of a class; its multiplier stays positive. -/
structure DegradationProcess (S K : Type) [Field K] [LinearOrder K] where
  state : S
  arrhenius : Option (Arrhenius K)
  rateMultiplier : K
  positive : 0 < rateMultiplier

namespace DegradationProcess
variable {S : Type} [DegradationModel S K] (f : Powers K) (p : DegradationProcess S K)

def damage : K := DegradationModel.damage p.state

def failed : Bool := 1 ≤ p.damage

/-- As far as its rate goes. -/
def usage : Usage.Process K := ⟨DegradationModel.law p.state, p.arrhenius, p.rateMultiplier, p.positive⟩

def rate (cond : Conditions K) : Option K := p.usage.rate f cond

def step (dt : K) (cond : Conditions K) : Option (DegradationProcess S K) :=
  if dt ≤ 0 ∨ p.failed then some p
  else do
    let rate ← p.rate f cond
    let referenceS := dt * rate
    if 0 < referenceS then
      let state ← DegradationModel.advance f p.state referenceS
      return { p with state := state }
    else return p

/-- `true_rul`; no number is `inf`. -/
def trueRul (cond : Conditions K) : Option (Option K) :=
  if p.failed then some (some 0)
  else do
    let rate ← p.rate f cond
    if rate ≤ 0 then return none
    else
      let remaining ← DegradationModel.remainingReferenceS f p.state
      return some (max remaining 0 / rate)

end DegradationProcess

end

/-! ## Classes that count down -/

/-- Over the reals the class does what the countdown does: it fails when that runs out. -/
structure CountsDown {S : Type} [DegradationModel S ℝ] (c : Countdown S ℝ) : Prop where
  law : ∀ s t, c.Valid s → c.Valid t → DegradationModel.law s = DegradationModel.law t
  spent : ∀ s, c.Valid s → (1 ≤ DegradationModel.damage s ↔ c.left s ≤ 0)
  advance : ∀ s r, c.Valid s → 0 < c.left s → 0 < r → DegradationModel.advance .real s r = some (c.advance s r)
  remaining : ∀ s, c.Valid s → DegradationModel.remainingReferenceS .real s = some (c.left s)

/-- Under constant conditions it does not matter how time is cut into steps, the time that is left falls by what has
passed, and the process fails in a step that is at least as long. -/
structure StepLaw {S : Type} [DegradationModel S ℝ] (p : DegradationProcess S ℝ) (cond : Conditions ℝ) : Prop where
  additive : ∀ dt₁ dt₂, 0 ≤ dt₁ → 0 ≤ dt₂ → ∃ q r, p.step .real dt₁ cond = some q ∧ q.step .real dt₂ cond = some r ∧
    p.step .real (dt₁ + dt₂) cond = some r
  remaining : ∀ dt, 0 ≤ dt → ∃ q, p.step .real dt cond = some q ∧ ∃ rul, p.trueRul .real cond = some (some rul) ∧
    (¬ q.failed → q.trueRul .real cond = some (some (rul - dt))) ∧ (q.failed ↔ rul ≤ dt)

section
variable {S : Type} [DegradationModel S ℝ] {c : Countdown S ℝ} {p : DegradationProcess S ℝ} {cond : Conditions ℝ}
  {rate : ℝ}

theorem CountsDown.failed_iff (h : CountsDown c) (hvalid : c.Valid p.state) : p.failed ↔ c.left p.state ≤ 0 := by
  rw [DegradationProcess.failed, decide_eq_true_iff]
  exact h.spent p.state hvalid

theorem CountsDown.rate_eq (h : CountsDown c) (hvalid : c.Valid p.state) {s : S} (hs : c.Valid s)
    (hrate : p.rate .real cond = some rate) : ({ p with state := s } : DegradationProcess S ℝ).rate .real cond = some rate := by
  have hlaw := h.law s p.state hs hvalid
  rw [← hrate, DegradationProcess.rate, DegradationProcess.rate, DegradationProcess.usage, DegradationProcess.usage]
  dsimp only
  rw [hlaw]

/-- A step lets the time pass that it is worth at reference conditions. -/
theorem CountsDown.step_eq (h : CountsDown c) (hvalid : c.Valid p.state) (hrate : p.rate .real cond = some rate)
    (hpos : 0 < rate) (dt : ℝ) : p.step .real dt cond = some { p with state := c.pass p.state (dt * rate) } := by
  have hworth : dt * rate ≤ 0 ↔ dt ≤ 0 := by rw [← not_lt, mul_pos_iff_of_pos_right hpos, not_lt]
  have hstill : (dt ≤ 0 ∨ p.failed) ↔ (dt * rate ≤ 0 ∨ c.left p.state ≤ 0) := by
    rw [h.failed_iff hvalid, hworth]
  unfold DegradationProcess.step Countdown.pass
  by_cases hrun : dt ≤ 0 ∨ p.failed
  · rw [if_pos hrun, if_pos (hstill.mp hrun)]
  · have hreference : 0 < dt * rate := not_le.mp (not_or.mp (hstill.not.mp hrun)).1
    have hleft : 0 < c.left p.state := not_le.mp (not_or.mp (hstill.not.mp hrun)).2
    rw [if_neg hrun, if_neg (hstill.not.mp hrun)]
    simp [hrate, hreference, h.advance p.state _ hvalid hleft hreference]

theorem CountsDown.trueRul_eq (h : CountsDown c) (hvalid : c.Valid p.state) (hrate : p.rate .real cond = some rate)
    (hpos : 0 < rate) : p.trueRul .real cond = some (some (c.left p.state / rate)) := by
  have hnonneg := c.left_nonneg p.state hvalid
  unfold DegradationProcess.trueRul
  split
  · rename_i hfailed
    have hleft : c.left p.state = 0 := le_antisymm ((h.failed_iff hvalid).mp hfailed) hnonneg
    rw [hleft, zero_div]
  · simp [hrate, not_le.mpr hpos, h.remaining p.state hvalid, hnonneg]

theorem CountsDown.stepLaw (h : CountsDown c) (hvalid : c.Valid p.state) (hrate : p.rate .real cond = some rate)
    (hpos : 0 < rate) : StepLaw p cond := by
  have hworth : ∀ dt, 0 ≤ dt → 0 ≤ dt * rate := fun dt hdt => mul_nonneg hdt hpos.le
  constructor
  · intro dt₁ dt₂ hdt₁ hdt₂
    have hpassed := c.valid_pass hvalid (dt₁ * rate)
    refine ⟨_, _, h.step_eq hvalid hrate hpos dt₁, h.step_eq hpassed (h.rate_eq hvalid hpassed hrate) hpos dt₂, ?_⟩
    rw [h.step_eq hvalid hrate hpos, c.pass_pass hvalid (hworth dt₁ hdt₁) (hworth dt₂ hdt₂), add_mul]
  · intro dt hdt
    have hpassed := c.valid_pass hvalid (dt * rate)
    refine ⟨_, h.step_eq hvalid hrate hpos dt, _, h.trueRul_eq hvalid hrate hpos, fun hrunning => ?_, ?_⟩
    · rw [h.trueRul_eq hpassed (h.rate_eq hvalid hpassed hrate) hpos]
      have hleft : 0 < c.left (c.pass p.state (dt * rate)) := not_le.mp fun hle => hrunning ((h.failed_iff hpassed).mpr hle)
      rw [c.left_pass_of_pos hvalid (hworth dt hdt) hleft, sub_div, mul_div_cancel_right₀ _ hpos.ne']
    · rw [h.failed_iff hpassed, c.left_pass_nonpos_iff hvalid (hworth dt hdt), div_le_iff₀ hpos]

end

/-! ## The crack -/

/-- The parameters of a crack that grows. -/
structure ParisArguments.Sound (args : ParisArguments ℝ) : Prop where
  life : 0 < args.lifeH
  speed : 0 < args.rpm
  start : 0 < args.a0Mm
  grows : args.a0Mm < args.aCritMm
  exponent : args.m ≠ 2

namespace ParisArguments.Sound
variable {args : ParisArguments ℝ}

theorem k_ne_zero (h : args.Sound) : args.k ≠ 0 := by
  intro hk
  unfold k at hk
  exact h.exponent (by linarith)

theorem a0_pos (h : args.Sound) : 0 < args.a0 := div_pos h.start (by norm_num)

theorem a0_lt_aCrit (h : args.Sound) : args.a0 < args.aCrit := div_lt_div_of_pos_right h.grows (by norm_num)

theorem aCrit_pos (h : args.Sound) : 0 < args.aCrit := h.a0_pos.trans h.a0_lt_aCrit

theorem cyclesPerS_pos (h : args.Sound) : 0 < args.cyclesPerS := div_pos h.speed (by norm_num)

theorem lifeCycles_pos (h : args.Sound) : 0 < args.lifeCycles :=
  mul_pos (mul_pos h.life (by norm_num [hourS])) h.cyclesPerS_pos

end ParisArguments.Sound

/-- `g`, where it has a value. -/
noncomputable def growth (args : ParisArguments ℝ) : ℝ :=
  (scaledPow args.k args.aCrit - scaledPow args.k args.a0) / args.lifeCycles

/-- How much a second at reference conditions adds to the length of a crack, scaled. -/
noncomputable def growthPerS (args : ParisArguments ℝ) : ℝ := growth args * args.cyclesPerS

section
variable {args : ParisArguments ℝ}

theorem scaledPow_lt (h : args.Sound) {a b : ℝ} (ha : args.a0 ≤ a) (hab : a < b) :
    scaledPow args.k a < scaledPow args.k b :=
  have hpos : 0 < a := lt_of_lt_of_le h.a0_pos ha
  strictMonoOn_scaledPow h.k_ne_zero hpos (hpos.trans hab) hab

theorem growthPerS_pos (h : args.Sound) : 0 < growthPerS args :=
  mul_pos (div_pos (sub_pos.mpr (scaledPow_lt h le_rfl h.a0_lt_aCrit)) h.lifeCycles_pos) h.cyclesPerS_pos

theorem g_eq (h : args.Sound) : args.g .real = some (growth args) := by
  have hk := h.k_ne_zero
  have hlife := h.lifeCycles_pos.ne'
  simp only [ParisArguments.g, Powers.real_pow_of_pos h.aCrit_pos, Powers.real_pow_of_pos h.a0_pos, divided,
    if_neg (mul_ne_zero hk hlife), growth, scaledPow]
  refine congrArg some ?_
  field_simp

/-- The time of a crack, by its scaled length. -/
noncomputable def crackLeft (p : ParisLaw ℝ) : ℝ :=
  (scaledPow p.args.k p.args.aCrit - scaledPow p.args.k p.a) / growthPerS p.args

/-- The scaled length after some time. -/
noncomputable def scaledAfter (p : ParisLaw ℝ) (referenceS : ℝ) : ℝ :=
  scaledPow p.args.k p.a + growthPerS p.args * referenceS

/-- `_advance`, where it has a value. -/
noncomputable def crackAdvance (p : ParisLaw ℝ) (referenceS : ℝ) : ParisLaw ℝ :=
  if scaledPow p.args.k p.args.aCrit ≤ scaledAfter p referenceS then { p with a := p.args.aCrit }
  else { p with a := (p.args.k * scaledAfter p referenceS) ^ (1 / p.args.k) }

/-- A crack of these parameters, no shorter than at first and no longer than critical. -/
structure Cracked (args : ParisArguments ℝ) (p : ParisLaw ℝ) : Prop where
  args_eq : p.args = args
  start_le : args.a0 ≤ p.a
  le_crit : p.a ≤ args.aCrit

theorem Cracked.pos (h : args.Sound) {p : ParisLaw ℝ} (hp : Cracked args p) : 0 < p.a := lt_of_lt_of_le h.a0_pos hp.start_le

theorem Cracked.scaledPow_le (h : args.Sound) {p : ParisLaw ℝ} (hp : Cracked args p) :
    scaledPow args.k p.a ≤ scaledPow args.k args.aCrit :=
  (strictMonoOn_scaledPow h.k_ne_zero).monotoneOn (hp.pos h) h.aCrit_pos hp.le_crit

theorem crackLeft_nonneg (h : args.Sound) {p : ParisLaw ℝ} (hp : Cracked args p) : 0 ≤ crackLeft p := by
  obtain rfl := hp.args_eq
  exact div_nonneg (sub_nonneg.mpr (hp.scaledPow_le h)) (growthPerS_pos h).le

theorem crackLeft_nonpos_iff (h : args.Sound) {p : ParisLaw ℝ} (hp : Cracked args p) :
    crackLeft p ≤ 0 ↔ args.aCrit ≤ p.a := by
  obtain rfl := hp.args_eq
  rw [crackLeft, div_le_iff₀ (growthPerS_pos h), zero_mul, sub_nonpos]
  exact (strictMonoOn_scaledPow h.k_ne_zero).le_iff_le h.aCrit_pos (hp.pos h)

/-- A crack that does not reach its critical length. -/
theorem root_spec (h : args.Sound) {p : ParisLaw ℝ} (hp : Cracked args p) {r : ℝ} (hr : 0 < r)
    (hshort : scaledAfter p r < scaledPow args.k args.aCrit) :
    0 < args.k * scaledAfter p r ∧ p.a ≤ (args.k * scaledAfter p r) ^ (1 / args.k) ∧
      (args.k * scaledAfter p r) ^ (1 / args.k) < args.aCrit ∧
        scaledPow args.k ((args.k * scaledAfter p r) ^ (1 / args.k)) = scaledAfter p r := by
  obtain rfl := hp.args_eq
  have hk := h.k_ne_zero
  have hgrown : scaledPow p.args.k p.a ≤ scaledAfter p r := le_add_of_nonneg_right (mul_pos (growthPerS_pos h) hr).le
  have hpos := mul_pos_of_scaledPow hk (hp.pos h) h.aCrit_pos hgrown hshort
  have hroot := scaledPow_root hk hpos
  have hlength : 0 < (p.args.k * scaledAfter p r) ^ (1 / p.args.k) := Real.rpow_pos_of_pos hpos _
  have hmono := strictMonoOn_scaledPow hk
  refine ⟨hpos, (hmono.le_iff_le (hp.pos h) hlength).mp ?_, (hmono.lt_iff_lt hlength h.aCrit_pos).mp ?_, hroot⟩
  · rw [hroot]
    exact hgrown
  · rw [hroot]
    exact hshort

theorem crackAdvance_of_reached {p : ParisLaw ℝ} {r : ℝ} (h : scaledPow p.args.k p.args.aCrit ≤ scaledAfter p r) :
    crackAdvance p r = { p with a := p.args.aCrit } :=
  if_pos h

theorem crackAdvance_of_short {p : ParisLaw ℝ} {r : ℝ} (h : scaledAfter p r < scaledPow p.args.k p.args.aCrit) :
    crackAdvance p r = { p with a := (p.args.k * scaledAfter p r) ^ (1 / p.args.k) } :=
  if_neg (not_le.mpr h)

theorem cracked_crackAdvance (h : args.Sound) {p : ParisLaw ℝ} (hp : Cracked args p) {r : ℝ} (hr : 0 < r) :
    Cracked args (crackAdvance p r) := by
  obtain rfl := hp.args_eq
  rcases le_or_gt (scaledPow p.args.k p.args.aCrit) (scaledAfter p r) with hreached | hshort
  · rw [crackAdvance_of_reached hreached]
    exact ⟨rfl, h.a0_lt_aCrit.le, le_rfl⟩
  · obtain ⟨-, hlonger, hcrit, -⟩ := root_spec h hp hr hshort
    rw [crackAdvance_of_short hshort]
    exact ⟨rfl, hp.start_le.trans hlonger, hcrit.le⟩

theorem crackLeft_crackAdvance (h : args.Sound) {p : ParisLaw ℝ} (hp : Cracked args p) {r : ℝ} (hr : 0 < r) :
    crackLeft (crackAdvance p r) = max (crackLeft p - r) 0 := by
  obtain rfl := hp.args_eq
  have hgrowth := growthPerS_pos h
  have hrest : crackLeft p - r = (scaledPow p.args.k p.args.aCrit - scaledAfter p r) / growthPerS p.args := by
    rw [crackLeft, scaledAfter]
    field_simp
    ring
  rw [hrest]
  rcases le_or_gt (scaledPow p.args.k p.args.aCrit) (scaledAfter p r) with hreached | hshort
  · rw [crackAdvance_of_reached hreached, crackLeft, sub_self, zero_div]
    exact (max_eq_right (div_nonpos_of_nonpos_of_nonneg (sub_nonpos.mpr hreached) hgrowth.le)).symm
  · obtain ⟨-, -, -, hroot⟩ := root_spec h hp hr hshort
    rw [crackAdvance_of_short hshort, crackLeft, hroot]
    exact (max_eq_left (div_nonneg (sub_nonneg.mpr hshort.le) hgrowth.le)).symm

theorem eq_of_crackLeft (h : args.Sound) {p q : ParisLaw ℝ} (hp : Cracked args p) (hq : Cracked args q)
    (heq : crackLeft p = crackLeft q) : p = q := by
  have hgrowth := growthPerS_pos h
  rw [crackLeft, crackLeft, hp.args_eq, hq.args_eq, div_left_inj' hgrowth.ne', sub_right_inj] at heq
  have ha : p.a = q.a := (strictMonoOn_scaledPow h.k_ne_zero).injOn (hp.pos h) (hq.pos h) heq
  have hargs : p.args = q.args := hp.args_eq.trans hq.args_eq.symm
  cases p
  cases q
  congr

noncomputable def crackCountdown (h : args.Sound) : Countdown (ParisLaw ℝ) ℝ where
  Valid := Cracked args
  left := crackLeft
  advance := crackAdvance
  left_nonneg _ hp := crackLeft_nonneg h hp
  valid_advance _ _ hp _ hr := cracked_crackAdvance h hp hr
  left_advance _ _ hp _ hr := crackLeft_crackAdvance h hp hr
  eq_of_left _ _ hp hq heq := eq_of_crackLeft h hp hq heq

theorem damage_of_cracked (h : args.Sound) {p : ParisLaw ℝ} (hp : Cracked args p) : 1 ≤ p.damage ↔ args.aCrit ≤ p.a := by
  obtain rfl := hp.args_eq
  have hspan : 0 < p.args.aCrit - p.args.a0 := sub_pos.mpr h.a0_lt_aCrit
  rw [ParisLaw.damage, le_min_iff, le_max_iff, le_div_iff₀ hspan, one_mul, sub_le_sub_iff_right]
  simp [zero_lt_one]

theorem advance_of_cracked (h : args.Sound) {p : ParisLaw ℝ} (hp : Cracked args p) {r : ℝ} (hr : 0 < r) :
    p.advance .real r = some (crackAdvance p r) := by
  obtain rfl := hp.args_eq
  have hk := h.k_ne_zero
  have htarget : p.a ^ p.args.k + p.args.k * growth p.args * r * p.args.cyclesPerS = p.args.k * scaledAfter p r := by
    rw [scaledAfter, scaledPow, growthPerS]
    field_simp
  have hreached : (if p.args.k < 0 then p.args.k * scaledAfter p r ≤ p.args.aCrit ^ p.args.k
      else p.args.aCrit ^ p.args.k ≤ p.args.k * scaledAfter p r) ↔
      scaledPow p.args.k p.args.aCrit ≤ scaledAfter p r := by
    rw [← div_le_div_iff_ite hk, mul_div_cancel_left₀ _ hk, scaledPow]
  unfold ParisLaw.advance
  simp only [g_eq h, Powers.real_pow_of_pos (hp.pos h), Powers.real_pow_of_pos h.aCrit_pos, Option.bind_eq_bind,
    Option.bind_some, htarget, hreached]
  rcases le_or_gt (scaledPow p.args.k p.args.aCrit) (scaledAfter p r) with hlong | hshort
  · rw [if_pos hlong, crackAdvance_of_reached hlong]
    rfl
  · obtain ⟨hpos, -, hcrit, -⟩ := root_spec h hp hr hshort
    rw [if_neg (not_le.mpr hshort), crackAdvance_of_short hshort, reciprocal, if_neg hk, Option.bind_some,
      Powers.real_pow_of_pos hpos, Option.bind_some, min_eq_left hcrit.le]
    rfl

theorem remaining_of_cracked (h : args.Sound) {p : ParisLaw ℝ} (hp : Cracked args p) :
    p.remainingReferenceS .real = some (crackLeft p) := by
  obtain rfl := hp.args_eq
  have hk := h.k_ne_zero
  have hgrowth := growthPerS_pos h
  have hspeed := h.cyclesPerS_pos
  have hg : growth p.args ≠ 0 := (pos_of_mul_pos_left hgrowth hspeed.le).ne'
  simp only [ParisLaw.remainingReferenceS, ParisLaw.remainingCycles, g_eq h, Powers.real_pow_of_pos (hp.pos h),
    Powers.real_pow_of_pos h.aCrit_pos, Option.bind_eq_bind, Option.bind_some, divided, if_neg (mul_ne_zero hk hg),
    if_neg hspeed.ne', crackLeft, scaledPow, growthPerS]
  refine congrArg some ?_
  field_simp

theorem crack_countsDown (h : args.Sound) : CountsDown (crackCountdown h) where
  law _ _ hp hq := congrArg (fun args => Law.paris args.m) (hp.args_eq.trans hq.args_eq.symm)
  spent _ hp := (damage_of_cracked h hp).trans (crackLeft_nonpos_iff h hp).symm
  advance _ _ hp _ hr := advance_of_cracked h hp hr
  remaining _ hp := remaining_of_cracked h hp

end

theorem cracked_jump {args : ParisArguments ℝ} (h : args.Sound) {p : ParisLaw ℝ} (hp : Cracked args p) {amount : ℝ}
    (hamount : 0 ≤ amount) : Cracked args (p.jump amount) := by
  obtain rfl := hp.args_eq
  have hspan : 0 ≤ p.args.aCrit - p.args.a0 := (sub_pos.mpr h.a0_lt_aCrit).le
  have hdamage : 0 ≤ p.damage := le_min (le_max_right _ _) zero_le_one
  have hleast : 0 ≤ min (p.damage + amount) 1 := le_min (add_nonneg hdamage hamount) zero_le_one
  have hmost : min (p.damage + amount) 1 * (p.args.aCrit - p.args.a0) ≤ p.args.aCrit - p.args.a0 :=
    mul_le_of_le_one_left hspan (min_le_right _ _)
  refine ⟨rfl, le_add_of_nonneg_right (mul_nonneg hleast hspan), ?_⟩
  change p.args.a0 + min (p.damage + amount) 1 * (p.args.aCrit - p.args.a0) ≤ p.args.aCrit
  linarith

/-- The constructor makes a crack, unless the exponent is one that it takes for 2. -/
theorem cracked_new {args : ParisArguments ℝ} (h : args.Sound) (hm : isClose args.m 2.0 = false) {initial : ℝ}
    (hinitial : 0 ≤ initial) : ∃ p, ParisLaw.new .real args initial = some p ∧ Cracked args p := by
  have hfirst : Cracked args ⟨args, args.a0⟩ := ⟨rfl, le_rfl, h.a0_lt_aCrit.le⟩
  refine ⟨_, ?_, cracked_jump h hfirst hinitial⟩
  simp [ParisLaw.new, hm, g_eq h, h.a0_lt_aCrit.ne']

/-! ## The tool -/

section
variable {args : TaylorArguments ℝ}

/-- A tool of these parameters that is not worn more than out. -/
structure Worn (args : TaylorArguments ℝ) (t : TaylorToolLife ℝ) : Prop where
  args_eq : t.args = args
  wear_le : t.wear ≤ 1

theorem worn_new (args : TaylorArguments ℝ) (initial : ℝ) : Worn args (.new args initial) := ⟨rfl, min_le_right _ _⟩

theorem lifeRefS_pos (h : 0 < args.lifeH) : 0 < args.lifeRefS := mul_pos h (by norm_num [hourS])

noncomputable def toolAdvance (t : TaylorToolLife ℝ) (referenceS : ℝ) : TaylorToolLife ℝ :=
  { t with wear := min (t.wear + referenceS / t.args.lifeRefS) 1 }

theorem toolLeft_toolAdvance (h : 0 < args.lifeH) {t : TaylorToolLife ℝ} (ht : Worn args t) (r : ℝ) :
    (toolAdvance t r).remainingReferenceS = max (t.remainingReferenceS - r) 0 := by
  obtain rfl := ht.args_eq
  have hlife := lifeRefS_pos h
  have hrest : t.remainingReferenceS - r = (1 - (t.wear + r / t.args.lifeRefS)) * t.args.lifeRefS := by
    rw [TaylorToolLife.remainingReferenceS]
    field_simp
    ring
  rw [hrest, TaylorToolLife.remainingReferenceS, toolAdvance]
  rcases le_total (t.wear + r / t.args.lifeRefS) 1 with hworn | hout
  · rw [min_eq_left hworn]
    exact (max_eq_left (mul_nonneg (sub_nonneg.mpr hworn) hlife.le)).symm
  · rw [min_eq_right hout, sub_self, zero_mul]
    exact (max_eq_right (mul_nonpos_of_nonpos_of_nonneg (sub_nonpos.mpr hout) hlife.le)).symm

theorem eq_of_toolLeft (h : 0 < args.lifeH) {t u : TaylorToolLife ℝ} (ht : Worn args t) (hu : Worn args u)
    (heq : t.remainingReferenceS = u.remainingReferenceS) : t = u := by
  have hargs : t.args = u.args := ht.args_eq.trans hu.args_eq.symm
  rw [TaylorToolLife.remainingReferenceS, TaylorToolLife.remainingReferenceS, ht.args_eq, hu.args_eq] at heq
  have hwear : t.wear = u.wear := sub_right_injective (mul_right_cancel₀ (lifeRefS_pos h).ne' heq)
  cases t
  cases u
  congr

noncomputable def toolCountdown (h : 0 < args.lifeH) : Countdown (TaylorToolLife ℝ) ℝ where
  Valid := Worn args
  left := TaylorToolLife.remainingReferenceS
  advance := toolAdvance
  left_nonneg t ht := by
    obtain rfl := ht.args_eq
    exact mul_nonneg (sub_nonneg.mpr ht.wear_le) (lifeRefS_pos h).le
  valid_advance _ _ ht _ _ := ⟨ht.args_eq, min_le_right _ _⟩
  left_advance _ r ht _ _ := toolLeft_toolAdvance h ht r
  eq_of_left _ _ ht hu heq := eq_of_toolLeft h ht hu heq

theorem tool_countsDown (h : 0 < args.lifeH) : CountsDown (toolCountdown h) where
  law _ _ ht hu := congrArg (fun args => Law.taylor args.n args.feedExp) (ht.args_eq.trans hu.args_eq.symm)
  spent t ht := by
    obtain rfl := ht.args_eq
    change 1 ≤ t.wear ↔ (1 - t.wear) * t.args.lifeRefS ≤ 0
    rw [← not_lt, ← not_lt, mul_pos_iff_of_pos_right (lifeRefS_pos h), sub_pos]
  advance t r ht _ _ := by
    obtain rfl := ht.args_eq
    have hlife : divided r t.args.lifeRefS = some (r / t.args.lifeRefS) := if_neg (lifeRefS_pos h).ne'
    change t.advance r = _
    rw [TaylorToolLife.advance, hlife]
    rfl
  remaining _ _ := rfl

end

/-! ## The processes of a machine -/

/-- The class computes what a machine's process does, where it has a value. -/
structure Rendered {S : Type} [DegradationModel S Rat] (math : Base.Math) (R : S → Base.Degradation → Prop) : Prop where
  law : ∀ s d, R s d → DegradationModel.law s = lawOf d
  failed : ∀ s d, R s d → (1 ≤ DegradationModel.damage s ↔ d.failed)
  advance : ∀ s d draw r s', R s d → DegradationModel.advance (powersOf math) s r = some s' → R s' (d.advance math draw r)
  remaining : ∀ s d x, R s d → DegradationModel.remainingReferenceS (powersOf math) s = some x →
    d.remainingReferenceS math = x

/-- The same process, in a machine that divides by zero nowhere. -/
structure SameProcess {S : Type} [DegradationModel S Rat] (R : S → Base.Degradation → Prop) (p : DegradationProcess S Rat)
    (q : Base.Process) : Prop where
  state : R p.state q.degradation
  arrhenius : p.arrhenius = q.arrhenius.map modifierOf
  multiplier : p.rateMultiplier = q.rateMultiplier
  exponents : (lawOf q.degradation).exponents ≠ none
  temperatures : ∀ a ∈ q.arrhenius, a.tRefC + kelvin ≠ 0

section
variable {S : Type} [DegradationModel S Rat] {math : Base.Math} {R : S → Base.Degradation → Prop}
  {p : DegradationProcess S Rat} {q : Base.Process}

theorem SameProcess.rate_eq (hR : Rendered math R) (h : SameProcess R p q) (cond : Base.Conditions) :
    p.rate (powersOf math) (conditionsOf cond) = some (q.rate math cond) := by
  have hpos : 0 < q.rateMultiplier := h.multiplier ▸ p.positive
  have husage : p.usage = ⟨lawOf q.degradation, q.arrhenius.map modifierOf, q.rateMultiplier, hpos⟩ := by
    simp only [DegradationProcess.usage, hR.law _ _ h.state, h.arrhenius, h.multiplier]
  rw [DegradationProcess.rate, husage]
  exact rate_of_machine math h.exponents h.temperatures hpos cond

theorem SameProcess.failed_iff (hR : Rendered math R) (h : SameProcess R p q) : p.failed ↔ q.failed := by
  rw [DegradationProcess.failed, decide_eq_true_iff]
  exact hR.failed _ _ h.state

theorem lawOf_advance (math : Base.Math) (draw : Base.Draw) (d : Base.Degradation) (referenceS : Rat) :
    lawOf (d.advance math draw referenceS) = lawOf d := by
  cases d <;> rfl

theorem SameProcess.step (hR : Rendered math R) (h : SameProcess R p q) (draw : Base.Draw) {dt : Rat}
    {cond : Base.Conditions} {p' : DegradationProcess S Rat}
    (hstep : p.step (powersOf math) dt (conditionsOf cond) = some p') : SameProcess R p' (q.step math draw dt cond) := by
  have hstill : (dt ≤ 0 ∨ p.failed) ↔ (dt ≤ 0 ∨ q.failed) := or_congr_right (h.failed_iff hR)
  unfold DegradationProcess.step at hstep
  unfold Base.Process.step
  by_cases hrun : dt ≤ 0 ∨ p.failed
  · rw [if_pos hrun] at hstep
    cases hstep
    rw [if_pos (hstill.mp hrun)]
    exact h
  · rw [if_neg hrun, h.rate_eq hR cond] at hstep
    rw [if_neg (hstill.not.mp hrun)]
    simp only [Option.bind_eq_bind, Option.bind_some] at hstep
    by_cases hreference : 0 < dt * q.rate math cond
    · rw [if_pos hreference] at hstep
      obtain ⟨s, hs, hp'⟩ := Option.bind_eq_some_iff.mp hstep
      cases hp'
      simp only [if_pos hreference]
      refine { h with state := hR.advance _ _ draw _ _ h.state hs, exponents := ?_ }
      rw [lawOf_advance]
      exact h.exponents
    · rw [if_neg hreference] at hstep
      cases hstep
      simp only [if_neg hreference]
      exact h

theorem SameProcess.trueRul (hR : Rendered math R) (h : SameProcess R p q) {cond : Base.Conditions} {rul : Option Rat}
    (hrul : p.trueRul (powersOf math) (conditionsOf cond) = some rul) : q.trueRul math cond = rul := by
  unfold DegradationProcess.trueRul at hrul
  unfold Base.Process.trueRul
  by_cases hfailed : p.failed
  · rw [if_pos hfailed] at hrul
    rw [if_pos ((h.failed_iff hR).mp hfailed)]
    exact Option.some.inj hrul
  · rw [if_neg hfailed, h.rate_eq hR cond] at hrul
    rw [if_neg ((h.failed_iff hR).not.mp hfailed)]
    simp only [Option.bind_eq_bind, Option.bind_some] at hrul
    by_cases hrate : q.rate math cond ≤ 0
    · rw [if_pos hrate] at hrul ⊢
      exact Option.some.inj hrul
    · rw [if_neg hrate] at hrul ⊢
      obtain ⟨x, hx, hrul⟩ := Option.bind_eq_some_iff.mp hrul
      rw [hR.remaining _ _ _ h.state hx]
      exact Option.some.inj hrul

end

/-- A crack in a machine. -/
def crackOf (math : Base.Math) (p : ParisLaw Rat) (d : Base.Degradation) : Prop :=
  ∃ g grows, p.args.g (powersOf math) = some g ∧
    d = .paris p.args.m p.args.k g p.args.cyclesPerS p.args.a0 p.args.aCrit grows p.a

/-- A tool in a machine. -/
def toolOf (t : TaylorToolLife Rat) (d : Base.Degradation) : Prop := d = .taylor t.args.n t.args.lifeRefS t.args.feedExp t.wear

theorem divided_eq_some {K : Type} [Field K] [DecidableEq K] {x y z : K} (h : divided x y = some z) : x / y = z :=
  Option.some.inj (Option.ite_none_left_eq_some.mp h).2

theorem rendered_tool (math : Base.Math) : Rendered math toolOf where
  law t d h := by
    cases h
    rfl
  failed t d h := by
    cases h
    exact decide_eq_true_iff.symm
  advance t d draw r t' h ht' := by
    cases h
    obtain ⟨worn, hworn, ht'⟩ := Option.bind_eq_some_iff.mp ht'
    cases ht'
    rw [← divided_eq_some hworn]
    rfl
  remaining t d x h hx := by
    cases h
    exact Option.some.inj hx

theorem powersOf_pow (math : Base.Math) (x y : Rat) : (powersOf math).pow x y = some (math.pow x y) := rfl

theorem rendered_crack (math : Base.Math) : Rendered math (crackOf math) where
  law p d h := by
    obtain ⟨g, grows, -, rfl⟩ := h
    rfl
  failed p d h := by
    obtain ⟨g, grows, -, rfl⟩ := h
    exact decide_eq_true_iff.symm
  advance p d draw r p' h hp' := by
    obtain ⟨g, grows, hg, rfl⟩ := h
    change p.advance (powersOf math) r = some p' at hp'
    unfold ParisLaw.advance at hp'
    simp only [hg, powersOf_pow, Option.bind_eq_bind, Option.bind_some] at hp'
    unfold Base.Degradation.advance
    refine ⟨g, ?_⟩
    by_cases hreached : if p.args.k < 0 then math.pow p.a p.args.k + p.args.k * g * r * p.args.cyclesPerS ≤
        math.pow p.args.aCrit p.args.k
      else math.pow p.args.aCrit p.args.k ≤ math.pow p.a p.args.k + p.args.k * g * r * p.args.cyclesPerS
    · rw [if_pos hreached] at hp'
      cases hp'
      refine ⟨grows, hg, ?_⟩
      dsimp only
      rw [if_pos hreached]
    · rw [if_neg hreached] at hp'
      obtain ⟨exponent, hexponent, hp'⟩ := Option.bind_eq_some_iff.mp hp'
      cases hp'
      refine ⟨grows, hg, ?_⟩
      dsimp only
      rw [if_neg hreached, Option.some.inj (Option.ite_none_left_eq_some.mp hexponent).2]
  remaining p d x h hx := by
    obtain ⟨g, grows, hg, rfl⟩ := h
    obtain ⟨cycles, hcycles, hx⟩ := Option.bind_eq_some_iff.mp hx
    simp only [ParisLaw.remainingCycles, hg, powersOf_pow, Option.bind_eq_bind, Option.bind_some] at hcycles
    rw [← divided_eq_some hx, ← divided_eq_some hcycles]
    rfl

/-! ## Every parameter set -/

/-- A crack of any length from the first to the critical one and a tool of any wear up to the last obey the law, at any
operating point where they wear. -/
theorem deterministic_stepLaw :
    (∀ (p : DegradationProcess (ParisLaw ℝ) ℝ) (cond : Conditions ℝ) (rate : ℝ), p.state.args.Sound →
      p.state.args.a0 ≤ p.state.a → p.state.a ≤ p.state.args.aCrit → p.rate .real cond = some rate → 0 < rate →
        StepLaw p cond) ∧
    ∀ (p : DegradationProcess (TaylorToolLife ℝ) ℝ) (cond : Conditions ℝ) (rate : ℝ), 0 < p.state.args.lifeH →
      p.state.wear ≤ 1 → p.rate .real cond = some rate → 0 < rate → StepLaw p cond := by
  constructor
  · intro p cond rate hsound hstart hcrit hrate hpos
    exact (crack_countsDown hsound).stepLaw ⟨rfl, hstart, hcrit⟩ hrate hpos
  · intro p cond rate hlife hworn hrate hpos
    exact (tool_countsDown hlife).stepLaw ⟨rfl, hworn⟩ hrate hpos

/-- A crack of the default lengths under an exponent of 4. -/
noncomputable def newCrack : DegradationProcess (ParisLaw ℝ) ℝ := ⟨⟨⟨10.0, 3000.0, 4.0, 0.1, 2.0⟩, 0.0001⟩, none, 1, one_pos⟩

noncomputable def newTool : DegradationProcess (TaylorToolLife ℝ) ℝ := ⟨⟨⟨10.0, 0.25, 0.5⟩, 0⟩, none, 1, one_pos⟩

/-- At the conditions that their lives were calibrated at. -/
theorem deterministic_stepLaw_reference : StepLaw newCrack .reference ∧ StepLaw newTool .reference := by
  have hsound : newCrack.state.args.Sound := by constructor <;> norm_num [newCrack]
  have hcrack : newCrack.rate .real .reference = some 1 := by
    rw [DegradationProcess.rate, Usage.Process.rate, Law.acceleration_reference]
    simp [newCrack, DegradationProcess.usage, DegradationModel.law, Law.exponents, heated]
  have hexponent : (0.25 : ℝ) ≠ 0 := by norm_num
  have htool : newTool.rate .real .reference = some 1 := by
    rw [DegradationProcess.rate, Usage.Process.rate, Law.acceleration_reference]
    simp [newTool, DegradationProcess.usage, DegradationModel.law, Law.exponents, reciprocal, hexponent, heated]
  refine ⟨deterministic_stepLaw.1 newCrack .reference 1 hsound ?_ ?_ hcrack one_pos,
    deterministic_stepLaw.2 newTool .reference 1 ?_ ?_ htool one_pos⟩
  · norm_num [newCrack, ParisArguments.a0]
  · norm_num [newCrack, ParisArguments.aCrit]
  · norm_num [newTool]
  · norm_num [newTool]

end TwinVoice.Sim.Deterministic
