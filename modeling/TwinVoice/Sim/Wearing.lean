import TwinVoice.Sim.Deterministic

/-! # Wear and its faults

`DegradationProcess` over all of its classes, with what the generator draws,
and the faults that are injected into it. What the classes have in common is a
contract: damage is a fraction, the process has failed when it is whole, and
time is left to every other. A process keeps the contract through every run of
its events, and a reset leaves nothing of what happened to it. -/

namespace TwinVoice.Sim.Wearing

open TwinVoice.Lib Usage Deterministic

/-- The functions that the formulas take from the platform. -/
structure Platform (K : Type) extends Powers K where
  sqrt : K → K

noncomputable def Platform.real : Platform ℝ := ⟨.real, Real.sqrt⟩

/-- What the generator draws for one process in one step. -/
structure Draw (K : Type) where
  normal : K
  gamma : K → K → K

/-- What a class defines; a formula that raises has no value. -/
class WearModel (S : Type) (K : outParam Type) where
  law : S → Law K
  damage : S → K
  failed : S → Bool
  advance : Platform K → Draw K → S → K → Option S
  remainingReferenceS : Platform K → S → Option K
  jump : S → K → S
  resetState : S → S

/-! ## The Wiener process -/

structure WienerArguments (K : Type) where
  lifeH : K
  cv : K
  loadExp : K
  speedExp : K

structure WienerProcess (K : Type) where
  drift : K
  diffusion : K
  loadExp : K
  speedExp : K
  level : K
  failed : Bool

section
variable {K : Type} [Field K] [LinearOrder K]

namespace WienerProcess
variable (w : WienerProcess K)

/-- The constructor: a life of no length raises, and so does the root of a negative one. -/
def new (f : Platform K) (args : WienerArguments K) (initial : K) : Option (WienerProcess K) := do
  let lifeS := args.lifeH * hourS
  let drift ← reciprocal lifeS
  if lifeS < 0 then none
  else
    let diffusion ← divided args.cv (f.sqrt lifeS)
    return ⟨drift, diffusion, args.loadExp, args.speedExp, initial, false⟩

def damage : K := if w.failed then 1 else min (max w.level 0) 1

/-- `_set_level`. -/
def setLevel (level : K) : WienerProcess K := { w with level := min level 1, failed := 1 ≤ level }

/-- `_advance`. -/
def advance (f : Platform K) (draw : Draw K) (referenceS : K) : WienerProcess K :=
  let noise := w.diffusion * f.sqrt referenceS * draw.normal
  w.setLevel (w.level + w.drift * referenceS + noise)

/-- `_remaining_reference_s`. -/
def remainingReferenceS : Option K := divided (1 - w.level) w.drift

def jump (amount : K) : WienerProcess K := w.setLevel (w.level + amount)

/-- `_reset_state`. -/
def resetState : WienerProcess K := { w with level := 0, failed := false }

end WienerProcess

instance wienerModel : WearModel (WienerProcess K) K where
  law w := .wiener w.loadExp w.speedExp
  damage := WienerProcess.damage
  failed := WienerProcess.failed
  advance f draw w referenceS := some (w.advance f draw referenceS)
  remainingReferenceS _ := WienerProcess.remainingReferenceS
  jump := WienerProcess.jump
  resetState := WienerProcess.resetState

end

/-! ## The gamma process -/

structure GammaArguments (K : Type) where
  lifeH : K
  cv : K
  loadExp : K
  speedExp : K

structure GammaProcess (K : Type) where
  shapeRate : K
  scale : K
  loadExp : K
  speedExp : K
  x : K

structure MotorArguments (K : Type) where
  lifeH : K
  eta0 : K
  k : K
  cv : K
  loadExp : K

/-- A gamma process that the speed does not drive. -/
structure MotorEfficiencyLoss (K : Type) extends GammaProcess K where
  eta0 : K
  k : K

section
variable {K : Type} [Field K] [LinearOrder K]

namespace GammaProcess
variable (g : GammaProcess K)

/-- The constructor: a variation of zero raises, and so does a life of no length. -/
def new (args : GammaArguments K) (initial : K) : Option (GammaProcess K) := do
  let lifeS := args.lifeH * hourS
  let shapeRate ← reciprocal (args.cv ^ 2 * lifeS)
  let scale ← reciprocal (shapeRate * lifeS)
  return ⟨shapeRate, scale, args.loadExp, args.speedExp, initial⟩

def damage : K := min (max g.x 0) 1

def meanRate : K := g.shapeRate * g.scale

/-- `_advance`. -/
def advance (draw : Draw K) (referenceS : K) : GammaProcess K :=
  { g with x := min (g.x + draw.gamma (g.shapeRate * referenceS) g.scale) 1 }

/-- `_remaining_reference_s`. -/
def remainingReferenceS : Option K := divided (1 - g.x) g.meanRate

def jump (amount : K) : GammaProcess K := { g with x := min (g.x + amount) 1 }

/-- `_reset_state`. -/
def resetState : GammaProcess K := { g with x := 0 }

end GammaProcess

def MotorEfficiencyLoss.new (args : MotorArguments K) (initial : K) : Option (MotorEfficiencyLoss K) := do
  let g ← GammaProcess.new ⟨args.lifeH, args.cv, args.loadExp, 0⟩ initial
  return ⟨g, args.eta0, args.k⟩

def MotorEfficiencyLoss.efficiency (m : MotorEfficiencyLoss K) : K := m.eta0 - m.k * m.damage

/-- `failed`, where a class does not define its own. -/
def whole (damage : K) : Bool := 1 ≤ damage

instance gammaModel : WearModel (GammaProcess K) K where
  law g := .gamma g.loadExp g.speedExp
  damage := GammaProcess.damage
  failed g := whole g.damage
  advance _ draw g referenceS := some (g.advance draw referenceS)
  remainingReferenceS _ := GammaProcess.remainingReferenceS
  jump := GammaProcess.jump
  resetState := GammaProcess.resetState

instance motorModel : WearModel (MotorEfficiencyLoss K) K where
  law m := .motorEfficiency m.loadExp
  damage m := m.damage
  failed m := whole m.damage
  advance _ draw m referenceS := some { m with toGammaProcess := m.toGammaProcess.advance draw referenceS }
  remainingReferenceS _ m := m.remainingReferenceS
  jump m amount := { m with toGammaProcess := m.toGammaProcess.jump amount }
  resetState m := { m with toGammaProcess := m.toGammaProcess.resetState }

/-! ## The classes that draw nothing -/

instance crackModel : WearModel (ParisLaw K) K where
  law := DegradationModel.law
  damage := ParisLaw.damage
  failed p := whole p.damage
  advance f _ p referenceS := p.advance f.toPowers referenceS
  remainingReferenceS f p := p.remainingReferenceS f.toPowers
  jump := ParisLaw.jump
  resetState p := { p with a := p.args.a0 }

instance toolModel : WearModel (TaylorToolLife K) K where
  law := DegradationModel.law
  damage := TaylorToolLife.wear
  failed t := whole t.wear
  advance _ _ t referenceS := t.advance referenceS
  remainingReferenceS _ t := some t.remainingReferenceS
  jump t amount := { t with wear := min (t.wear + amount) 1 }
  resetState t := { t with wear := 0 }

end

/-! ## The process -/

section
variable {K : Type} [Field K] [LinearOrder K]

/-- A process of a class; its multiplier stays positive. -/
structure Process (S K : Type) [Field K] [LinearOrder K] where
  state : S
  arrhenius : Option (Arrhenius K)
  rateMultiplier : K
  positive : 0 < rateMultiplier

namespace Process
variable {S : Type} [WearModel S K] (f : Platform K) (p : Process S K)

def damage : K := WearModel.damage p.state

def failed : Bool := WearModel.failed p.state

/-- As far as its rate goes. -/
def usage : Usage.Process K := ⟨WearModel.law p.state, p.arrhenius, p.rateMultiplier, p.positive⟩

def rate (cond : Conditions K) : Option K := p.usage.rate f.toPowers cond

def step (dt : K) (cond : Conditions K) (draw : Draw K) : Option (Process S K) :=
  if dt ≤ 0 ∨ p.failed then some p
  else do
    let rate ← p.rate f cond
    let referenceS := dt * rate
    if 0 < referenceS then
      let state ← WearModel.advance f draw p.state referenceS
      return { p with state := state }
    else return p

/-- `true_rul`; no number is `inf`. -/
def trueRul (cond : Conditions K) : Option (Option K) :=
  if p.failed then some (some 0)
  else do
    let rate ← p.rate f cond
    if rate ≤ 0 then return none
    else
      let remaining ← WearModel.remainingReferenceS f p.state
      return some (max remaining 0 / rate)

def jump (amount : K) : Process S K := { p with state := WearModel.jump p.state amount }

section
variable {f : Platform K} {p : Process S K}

/-- A step advances the state or leaves the process as it is. -/
theorem step_eq_some {dt : K} {cond : Conditions K} {draw : Draw K} {q : Process S K}
    (h : p.step f dt cond draw = some q) :
    q = p ∨ ¬ p.failed ∧ ∃ r s, 0 < r ∧ WearModel.advance f draw p.state r = some s ∧ q = { p with state := s } := by
  unfold step at h
  split at h
  · cases h
    exact Or.inl rfl
  · rename_i hrun
    obtain ⟨rate, -, h⟩ := Option.bind_eq_some_iff.mp h
    dsimp only at h
    split at h
    · rename_i hr
      obtain ⟨s, hs, hq⟩ := Option.bind_eq_some_iff.mp h
      cases hq
      exact Or.inr ⟨(not_or.mp hrun).2, _, s, hr, hs, rfl⟩
    · cases h
      exact Or.inl rfl

theorem trueRul_of_failed (h : p.failed) (cond : Conditions K) : p.trueRul f cond = some (some 0) := if_pos h

theorem trueRul_of_idle (h : ¬ p.failed) {cond : Conditions K} {rate : K} (hrate : p.rate f cond = some rate)
    (hidle : rate ≤ 0) : p.trueRul f cond = some none := by
  simp [trueRul, h, hrate, hidle]

theorem trueRul_of_running (h : ¬ p.failed) {cond : Conditions K} {rate remaining : K}
    (hrate : p.rate f cond = some rate) (hpos : 0 < rate)
    (hremaining : WearModel.remainingReferenceS f p.state = some remaining) (hleft : 0 < remaining) :
    p.trueRul f cond = some (some (remaining / rate)) := by
  simp [trueRul, h, hrate, not_le.mpr hpos, hremaining, hleft.le]

/-- A process that runs at no rate has raised. -/
theorem trueRul_eq_none (h : ¬ p.failed) {cond : Conditions K} (hrate : p.rate f cond = none) :
    p.trueRul f cond = none := by
  simp [trueRul, h, hrate]

/-- The rate is as many times what it was as the multiplier is. -/
theorem rate_scaled {cond : Conditions K} {times multiplier : K} (hmultiplier : multiplier = p.rateMultiplier * times)
    (positive : 0 < multiplier) :
    ({ p with rateMultiplier := multiplier, positive := positive } : Process S K).rate f cond =
      (p.rate f cond).map (· * times) := by
  subst hmultiplier
  unfold rate usage Usage.Process.rate
  cases (WearModel.law p.state).acceleration f.toPowers cond with
  | none => rfl
  | some acceleration =>
    simp only [Option.bind_eq_bind, Option.bind_some]
    rw [← mul_assoc, heated_mul]

end

section
variable [IsStrictOrderedRing K]

theorem full_rate_pos (K : Type) [Field K] [LinearOrder K] [IsStrictOrderedRing K] : (0 : K) < 1 := one_pos

/-- A process that was just built. -/
def new (state : S) (arrhenius : Option (Arrhenius K)) : Process S K := ⟨state, arrhenius, 1, full_rate_pos K⟩

def reset : Process S K := new (WearModel.resetState p.state) p.arrhenius

/-- The gradual fault of `inject`: the rate grows until no more than the target is left. -/
def gradual (cond : Conditions K) (targetS : K) (positive : 0 < targetS) : Option (Process S K) := do
  let rul ← p.trueRul f cond
  let usage := rul.elim p.usage fun rul => p.usage.change (.gradual rul targetS positive)
  return { p with rateMultiplier := usage.rateMultiplier, positive := usage.positive }

end

end Process

/-- What happens to a process. -/
inductive Event (K : Type) [Field K] [LinearOrder K]
  | step (dt : K) (cond : Conditions K) (draw : Draw K)
  | jump (amount : K) (nonneg : 0 ≤ amount)
  | gradual (cond : Conditions K) (targetS : K) (positive : 0 < targetS)
  | reset

section
variable [IsStrictOrderedRing K] {S : Type} [WearModel S K] (f : Platform K)

namespace Process

def apply (p : Process S K) : Event K → Option (Process S K)
  | .step dt cond draw => p.step f dt cond draw
  | .jump amount _ => some (p.jump amount)
  | .gradual cond targetS positive => p.gradual f cond targetS positive
  | .reset => some p.reset

/-- A process after some events; one that raises leaves it as it was. -/
def run (p : Process S K) (events : List (Event K)) : Process S K :=
  events.foldl (fun p event => (p.apply f event).getD p) p

end Process

/-! ## What the classes have in common -/

/-- The contract of a class for the processes that were built with one set of parameters, of which `fresh` is new. -/
structure Contract (fresh : S) (Valid : S → Prop) : Prop where
  damage_nonneg : ∀ s, Valid s → 0 ≤ WearModel.damage s
  damage_le : ∀ s, Valid s → WearModel.damage s ≤ 1
  failed_iff : ∀ s, Valid s → (WearModel.failed s ↔ WearModel.damage s = 1)
  advance : ∀ draw s r, Valid s → ¬ WearModel.failed s → 0 < r → ∃ s', WearModel.advance f draw s r = some s' ∧ Valid s'
  remaining : ∀ s, Valid s → ¬ WearModel.failed s → ∃ x, WearModel.remainingReferenceS f s = some x ∧ 0 < x
  jump : ∀ s amount, Valid s → 0 ≤ amount → Valid (WearModel.jump s amount)
  failed_jump : ∀ s amount, Valid s → 0 ≤ amount → WearModel.failed s → WearModel.failed (WearModel.jump s amount)
  reset : ∀ s, Valid s → WearModel.resetState s = fresh
  valid_fresh : Valid fresh
  damage_fresh : WearModel.damage fresh = 0

/-- Damage, failure and the time that is left say the same in every run of a process; a gradual fault leaves its target
or less, and a reset leaves no trace of any event. -/
structure Coupled (p : Process S K) : Prop where
  damage_mem : ∀ events, (p.run f events).damage ∈ Set.Icc 0 1
  failed_iff : ∀ events, (p.run f events).failed ↔ (p.run f events).damage = 1
  failed_until_reset : ∀ events later, Event.reset ∉ later → (p.run f events).failed →
    (p.run f (events ++ later)).failed
  trueRul_isSome : ∀ events cond, ((p.run f events).rate f cond).isSome → ((p.run f events).trueRul f cond).isSome
  spent_iff : ∀ events cond rul, (p.run f events).trueRul f cond = some rul → (rul = some 0 ↔ (p.run f events).failed)
  gradual : ∀ events cond targetS positive rul, (p.run f events).trueRul f cond = some rul →
    ∃ q, (p.run f events).gradual f cond targetS positive = some q ∧
      q.trueRul f cond = some (rul.map fun rul => min rul targetS) ∧ q.reset = (p.run f events).reset
  reset : ∀ events, (p.run f events).reset = p.reset
  reset_new : p.reset.damage = 0 ∧ p.reset.rateMultiplier = 1

end

/-! ## Runs -/

section
variable [IsStrictOrderedRing K] {S : Type} [WearModel S K] {f : Platform K} {fresh : S} {Valid : S → Prop}
  {p : Process S K}

namespace Process

@[simp] theorem run_nil (p : Process S K) : p.run f [] = p := rfl

@[simp] theorem run_cons (p : Process S K) (event : Event K) (events : List (Event K)) :
    p.run f (event :: events) = ((p.apply f event).getD p).run f events := rfl

theorem run_append (p : Process S K) (events later : List (Event K)) :
    p.run f (events ++ later) = (p.run f events).run f later :=
  List.foldl_append

/-- An infinite time stays as it is. -/
theorem gradual_of_infinite {cond : Conditions K} {targetS : K} (positive : 0 < targetS)
    (h : p.trueRul f cond = some none) : p.gradual f cond targetS positive = some p := by
  simp [gradual, h, usage]

theorem gradual_of_le {cond : Conditions K} {targetS rul : K} (positive : 0 < targetS)
    (h : p.trueRul f cond = some (some rul)) (hle : rul ≤ targetS) : p.gradual f cond targetS positive = some p := by
  simp [gradual, h, usage, Usage.Process.change, not_lt.mpr hle]

theorem gradual_of_lt {cond : Conditions K} {targetS rul : K} (positive : 0 < targetS)
    (h : p.trueRul f cond = some (some rul)) (hlt : targetS < rul) :
    ∃ multiplier, ∃ hpos : 0 < multiplier, multiplier = p.rateMultiplier * (rul / targetS) ∧
      p.gradual f cond targetS positive = some { p with rateMultiplier := multiplier, positive := hpos } := by
  refine ⟨_, mul_pos p.positive (div_pos (positive.trans hlt) positive), rfl, ?_⟩
  simp [gradual, h, usage, Usage.Process.change, hlt]

/-- A gradual fault has a part in the rate only. -/
theorem gradual_eq_some {cond : Conditions K} {targetS : K} {positive : 0 < targetS} {q : Process S K}
    (h : p.gradual f cond targetS positive = some q) : q.state = p.state ∧ q.arrhenius = p.arrhenius := by
  obtain ⟨rul, -, hq⟩ := Option.bind_eq_some_iff.mp h
  cases hq
  exact ⟨rfl, rfl⟩

end Process

namespace Contract
variable (h : Contract f fresh Valid)
include h

theorem valid_apply (hvalid : Valid p.state) {event : Event K} {q : Process S K} (hq : p.apply f event = some q) :
    Valid q.state ∧ q.arrhenius = p.arrhenius := by
  cases event with
  | step dt cond draw =>
    rcases Process.step_eq_some hq with rfl | ⟨hrunning, r, s, hr, hs, rfl⟩
    · exact ⟨hvalid, rfl⟩
    · obtain ⟨s', hs', hvalid'⟩ := h.advance draw p.state r hvalid hrunning hr
      cases hs.symm.trans hs'
      exact ⟨hvalid', rfl⟩
  | jump amount nonneg =>
    cases hq
    exact ⟨h.jump p.state amount hvalid nonneg, rfl⟩
  | gradual cond targetS positive =>
    obtain ⟨hstate, harrhenius⟩ := Process.gradual_eq_some hq
    rw [hstate]
    exact ⟨hvalid, harrhenius⟩
  | reset =>
    cases hq
    change Valid (WearModel.resetState p.state) ∧ _
    rw [h.reset p.state hvalid]
    exact ⟨h.valid_fresh, rfl⟩

theorem failed_apply (hvalid : Valid p.state) {event : Event K} (hevent : event ≠ .reset) {q : Process S K}
    (hq : p.apply f event = some q) (hfailed : p.failed) : q.failed := by
  cases event with
  | step dt cond draw =>
    rcases Process.step_eq_some hq with rfl | ⟨hrunning, -⟩
    · exact hfailed
    · exact absurd hfailed hrunning
  | jump amount nonneg =>
    cases hq
    exact h.failed_jump p.state amount hvalid nonneg hfailed
  | gradual cond targetS positive =>
    rw [Process.failed, (Process.gradual_eq_some hq).1]
    exact hfailed
  | reset => exact absurd rfl hevent

theorem valid_run (hvalid : Valid p.state) (events : List (Event K)) :
    Valid (p.run f events).state ∧ (p.run f events).arrhenius = p.arrhenius := by
  induction events generalizing p with
  | nil => exact ⟨hvalid, rfl⟩
  | cons event events ih =>
    rw [Process.run_cons]
    cases hq : p.apply f event with
    | none => exact ih hvalid
    | some q =>
      obtain ⟨hnext, harrhenius⟩ := h.valid_apply hvalid hq
      obtain ⟨hlast, hsame⟩ := ih hnext
      exact ⟨hlast, hsame.trans harrhenius⟩

theorem failed_run (hvalid : Valid p.state) {events : List (Event K)} (hevents : Event.reset ∉ events)
    (hfailed : p.failed) : (p.run f events).failed := by
  induction events generalizing p with
  | nil => exact hfailed
  | cons event events ih =>
    obtain ⟨hne, hrest⟩ := List.ne_and_not_mem_of_not_mem_cons hevents
    rw [Process.run_cons]
    cases hq : p.apply f event with
    | none => exact ih hvalid hrest hfailed
    | some q => exact ih (h.valid_apply hvalid hq).1 hrest (h.failed_apply hvalid hne.symm hq hfailed)

omit [IsStrictOrderedRing K] in
theorem trueRul_cases (hvalid : Valid p.state) (hrunning : ¬ p.failed) {cond : Conditions K} {rate : K}
    (hrate : p.rate f cond = some rate) :
    rate ≤ 0 ∧ p.trueRul f cond = some none ∨
      0 < rate ∧ ∃ remaining, 0 < remaining ∧ WearModel.remainingReferenceS f p.state = some remaining ∧
        p.trueRul f cond = some (some (remaining / rate)) := by
  rcases le_or_gt rate 0 with hidle | hpos
  · exact Or.inl ⟨hidle, Process.trueRul_of_idle hrunning hrate hidle⟩
  · obtain ⟨remaining, hremaining, hleft⟩ := h.remaining p.state hvalid hrunning
    exact Or.inr ⟨hpos, remaining, hleft, hremaining, Process.trueRul_of_running hrunning hrate hpos hremaining hleft⟩

omit [IsStrictOrderedRing K] in
theorem trueRul_isSome (hvalid : Valid p.state) {cond : Conditions K} (hrate : (p.rate f cond).isSome) :
    (p.trueRul f cond).isSome := by
  by_cases hfailed : p.failed
  · rw [Process.trueRul_of_failed hfailed]
    rfl
  · obtain ⟨rate, hrate⟩ := Option.isSome_iff_exists.mp hrate
    rcases h.trueRul_cases hvalid hfailed hrate with ⟨-, hrul⟩ | ⟨-, remaining, -, -, hrul⟩
    · rw [hrul]
      rfl
    · rw [hrul]
      rfl

theorem spent_iff (hvalid : Valid p.state) {cond : Conditions K} {rul : Option K} (hrul : p.trueRul f cond = some rul) :
    rul = some 0 ↔ p.failed := by
  by_cases hfailed : p.failed
  · rw [Process.trueRul_of_failed hfailed] at hrul
    simp [← Option.some.inj hrul, hfailed]
  · cases hrate : p.rate f cond with
    | none =>
      rw [Process.trueRul_eq_none hfailed hrate] at hrul
      cases hrul
    | some rate =>
      rcases h.trueRul_cases hvalid hfailed hrate with ⟨-, hcase⟩ | ⟨hpos, remaining, hleft, -, hcase⟩
      · rw [hcase] at hrul
        simp [← Option.some.inj hrul, hfailed]
      · rw [hcase] at hrul
        simp [← Option.some.inj hrul, hfailed, (div_pos hleft hpos).ne']

/-- The time shrinks as the rate grows. -/
theorem trueRul_scaled (hvalid : Valid p.state) (hrunning : ¬ p.failed) {cond : Conditions K} {rul times multiplier : K}
    (hrul : p.trueRul f cond = some (some rul)) (htimes : 0 < times) (hmultiplier : multiplier = p.rateMultiplier * times)
    (positive : 0 < multiplier) :
    ({ p with rateMultiplier := multiplier, positive := positive } : Process S K).trueRul f cond =
      some (some (rul / times)) := by
  cases hrate : p.rate f cond with
  | none =>
    rw [Process.trueRul_eq_none hrunning hrate] at hrul
    cases hrul
  | some rate =>
    rcases h.trueRul_cases hvalid hrunning hrate with ⟨-, hcase⟩ | ⟨hpos, remaining, hleft, hremaining, hcase⟩
    · rw [hcase] at hrul
      cases hrul
    · have hfaster : ({ p with rateMultiplier := multiplier, positive := positive } : Process S K).rate f cond =
          some (rate * times) := by
        rw [Process.rate_scaled hmultiplier positive, hrate, Option.map_some]
      have hrunning' : ¬ ({ p with rateMultiplier := multiplier, positive := positive } : Process S K).failed := hrunning
      rw [Process.trueRul_of_running hrunning' hfaster (mul_pos hpos htimes) hremaining hleft, ← div_div,
        ← Option.some.inj (Option.some.inj (hcase.symm.trans hrul))]

/-- What a gradual fault leaves of the time. -/
theorem trueRul_gradual (hvalid : Valid p.state) {cond : Conditions K} {targetS : K} (positive : 0 < targetS)
    {rul : Option K} (hrul : p.trueRul f cond = some rul) :
    ∃ q, p.gradual f cond targetS positive = some q ∧ q.trueRul f cond = some (rul.map fun rul => min rul targetS) ∧
      q.reset = p.reset := by
  cases rul with
  | none => exact ⟨p, Process.gradual_of_infinite positive hrul, hrul, rfl⟩
  | some rul =>
    rcases le_or_gt rul targetS with hlate | hsoon
    · refine ⟨p, Process.gradual_of_le positive hrul hlate, ?_, rfl⟩
      rw [hrul, Option.map_some, min_eq_left hlate]
    · have hrunning : ¬ p.failed := fun hfailed =>
        (positive.trans hsoon).ne' (Option.some.inj ((h.spent_iff hvalid hrul).mpr hfailed))
      obtain ⟨multiplier, hpos', hmultiplier, hq⟩ := Process.gradual_of_lt positive hrul hsoon
      refine ⟨_, hq, ?_, rfl⟩
      rw [h.trueRul_scaled hvalid hrunning hrul (div_pos (positive.trans hsoon) positive) hmultiplier hpos',
        div_div_cancel₀ (positive.trans hsoon).ne', Option.map_some, min_eq_right hsoon.le]

/-- A class that keeps the contract couples its processes. -/
theorem coupled (hvalid : Valid p.state) : Coupled f p where
  damage_mem events :=
    have hrun := (h.valid_run hvalid events).1
    ⟨h.damage_nonneg _ hrun, h.damage_le _ hrun⟩
  failed_iff events := h.failed_iff _ (h.valid_run hvalid events).1
  failed_until_reset events later hlater hfailed := by
    rw [Process.run_append]
    exact h.failed_run (h.valid_run hvalid events).1 hlater hfailed
  trueRul_isSome events cond := h.trueRul_isSome (h.valid_run hvalid events).1
  spent_iff events cond rul := h.spent_iff (h.valid_run hvalid events).1
  gradual events cond targetS positive rul := h.trueRul_gradual (h.valid_run hvalid events).1 positive
  reset events := by
    obtain ⟨hrun, harrhenius⟩ := h.valid_run hvalid events
    rw [Process.reset, Process.reset, h.reset _ hrun, h.reset _ hvalid, harrhenius]
  reset_new := by
    refine ⟨?_, rfl⟩
    change WearModel.damage (WearModel.resetState p.state) = 0
    rw [h.reset p.state hvalid]
    exact h.damage_fresh

end Contract

end

end

end TwinVoice.Sim.Wearing
