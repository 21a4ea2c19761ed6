import TwinVoice.Sim.Engine

/-! # Degradation

The processes that wear a component out. Each has a state variable of its own,
which a step advances by a time at reference conditions and a sudden fault
lets jump. Roots, powers and exponentials are whatever the platform computes,
and the draws of the random generator are arbitrary. -/

namespace TwinVoice.Sim.Base

open TwinVoice.Lib

/-- The functions that the formulas take from the platform. -/
structure Math where
  exp : Rat → Rat
  sqrt : Rat → Rat
  pow : Rat → Rat → Rat

/-- What the generator draws for one process in one step. -/
structure Draw where
  normal : Rat
  gamma : Rat → Rat → Rat

structure Conditions where
  load : Rat
  speed : Rat
  tempC : Option Rat

structure Arrhenius where
  activationEnergyEv : Rat
  tRefC : Rat

/-- `BOLTZMANN_EV_PER_K`. -/
def boltzmannEvPerK : Rat := 8617333262 / 100000000000000

/-- `KELVIN`. -/
def kelvin : Rat := 27315 / 100

/-- The parameters and the state of a process; the state is the last number, and the flag. -/
inductive Degradation
  | wiener (drift diffusion loadExp speedExp level : Rat) (failed : Bool)
  | gamma (shapeRate scale loadExp speedExp x : Rat)
  | paris (m k g cyclesPerS a0 aCrit : Rat) (grows : a0 ≠ aCrit) (a : Rat)
  | taylor (n lifeRefS feedExp wear : Rat)
  | motorEfficiency (shapeRate scale loadExp eta0 k x : Rat)

section
variable (math : Math)

/-- `factor`. -/
def Arrhenius.factor (a : Arrhenius) (tempC : Rat) : Rat :=
  let tK := max (tempC + kelvin) 1
  let invDiff := 1 / (a.tRefC + kelvin) - 1 / tK
  math.exp (min (a.activationEnergyEv / boltzmannEvPerK * invDiff) 50)

namespace Degradation

/-- The state without the parameters. -/
def wearState : Degradation → Wear
  | wiener _ _ _ _ level failed => .wiener level failed
  | gamma _ _ _ _ x => .gamma x
  | paris _ _ _ _ a0 aCrit grows a => .paris a a0 aCrit grows
  | taylor _ _ _ wear => .taylor wear
  | motorEfficiency _ _ _ _ _ x => .motorEfficiency x

def damage (d : Degradation) : Rat := d.wearState.damage

def failed (d : Degradation) : Bool := d.wearState.failed

/-- `_reset_state`. -/
def resetState : Degradation → Degradation
  | wiener drift diffusion loadExp speedExp _ _ => wiener drift diffusion loadExp speedExp 0 false
  | gamma shapeRate scale loadExp speedExp _ => gamma shapeRate scale loadExp speedExp 0
  | paris m k g cyclesPerS a0 aCrit grows _ => paris m k g cyclesPerS a0 aCrit grows a0
  | taylor n lifeRefS feedExp _ => taylor n lifeRefS feedExp 0
  | motorEfficiency shapeRate scale loadExp eta0 k _ => motorEfficiency shapeRate scale loadExp eta0 k 0

def acceleration (d : Degradation) (cond : Conditions) : Rat :=
  match d with
  | wiener _ _ loadExp speedExp _ _ | gamma _ _ loadExp speedExp _ =>
    math.pow (max cond.load 0) loadExp * math.pow (max cond.speed 0) speedExp
  | paris m _ _ _ _ _ _ _ => max cond.speed 0 * math.pow (max cond.load 0) m
  | taylor n _ feedExp _ => math.pow (max cond.speed 0) (1 / n) * math.pow (max cond.load 0) feedExp
  | motorEfficiency _ _ loadExp _ _ _ =>
    math.pow (max cond.load 0) loadExp * math.pow (max cond.speed 0) 0

/-- `_set_level`. -/
def setLevel (drift diffusion loadExp speedExp level : Rat) : Degradation :=
  wiener drift diffusion loadExp speedExp (min level 1) (1 ≤ level)

/-- `_advance`. -/
def advance (draw : Draw) (d : Degradation) (referenceS : Rat) : Degradation :=
  match d with
  | wiener drift diffusion loadExp speedExp level _ =>
    let noise := diffusion * math.sqrt referenceS * draw.normal
    setLevel drift diffusion loadExp speedExp (level + drift * referenceS + noise)
  | gamma shapeRate scale loadExp speedExp x =>
    gamma shapeRate scale loadExp speedExp (min (x + draw.gamma (shapeRate * referenceS) scale) 1)
  | paris m k g cyclesPerS a0 aCrit grows a =>
    let target := math.pow a k + k * g * referenceS * cyclesPerS
    let crit := math.pow aCrit k
    let reached := if k < 0 then target ≤ crit else crit ≤ target
    paris m k g cyclesPerS a0 aCrit grows (if reached then aCrit else min (math.pow target (1 / k)) aCrit)
  | taylor n lifeRefS feedExp wear => taylor n lifeRefS feedExp (min (wear + referenceS / lifeRefS) 1)
  | motorEfficiency shapeRate scale loadExp eta0 k x =>
    motorEfficiency shapeRate scale loadExp eta0 k (min (x + draw.gamma (shapeRate * referenceS) scale) 1)

/-- `_remaining_reference_s`. -/
def remainingReferenceS : Degradation → Rat
  | wiener drift _ _ _ level _ => (1 - level) / drift
  | gamma shapeRate scale _ _ x => (1 - x) / (shapeRate * scale)
  | paris _ k g cyclesPerS _ aCrit _ a => (math.pow aCrit k - math.pow a k) / (k * g) / cyclesPerS
  | taylor _ lifeRefS _ wear => (1 - wear) * lifeRefS
  | motorEfficiency shapeRate scale _ _ _ x => (1 - x) / (shapeRate * scale)

def jump (d : Degradation) (amount : Rat) : Degradation :=
  match d with
  | wiener drift diffusion loadExp speedExp level _ => setLevel drift diffusion loadExp speedExp (level + amount)
  | gamma shapeRate scale loadExp speedExp x => gamma shapeRate scale loadExp speedExp (min (x + amount) 1)
  | paris m k g cyclesPerS a0 aCrit grows a =>
    let damage := min ((paris m k g cyclesPerS a0 aCrit grows a).damage + amount) 1
    paris m k g cyclesPerS a0 aCrit grows (a0 + damage * (aCrit - a0))
  | taylor n lifeRefS feedExp wear => taylor n lifeRefS feedExp (min (wear + amount) 1)
  | motorEfficiency shapeRate scale loadExp eta0 k x =>
    motorEfficiency shapeRate scale loadExp eta0 k (min (x + amount) 1)

@[simp] theorem wearState_resetState (d : Degradation) : d.resetState.wearState = d.wearState.resetState := by
  cases d <;> rfl

end Degradation

structure Process where
  driver : String
  arrhenius : Option Arrhenius
  rateMultiplier : Rat
  degradation : Degradation

namespace Process

def damage (p : Process) : Rat := p.degradation.damage

def failed (p : Process) : Bool := p.degradation.failed

/-- Seconds at reference conditions for each second of operation. -/
def rate (p : Process) (cond : Conditions) : Rat :=
  let factor := p.degradation.acceleration math cond * p.rateMultiplier
  match p.arrhenius, cond.tempC with
  | some arrhenius, some tempC => factor * arrhenius.factor math tempC
  | _, _ => factor

def step (draw : Draw) (p : Process) (dt : Rat) (cond : Conditions) : Process :=
  if dt ≤ 0 ∨ p.failed then p
  else
    let referenceS := dt * p.rate math cond
    if 0 < referenceS then { p with degradation := p.degradation.advance math draw referenceS } else p

/-- `true_rul`; no number is `inf`. -/
def trueRul (p : Process) (cond : Conditions) : Option Rat :=
  if p.failed then some 0
  else if p.rate math cond ≤ 0 then none
  else some (max (p.degradation.remainingReferenceS math) 0 / p.rate math cond)

def jump (p : Process) (amount : Rat) : Process := { p with degradation := p.degradation.jump amount }

def reset (p : Process) : Process := { p with rateMultiplier := 1, degradation := p.degradation.resetState }

theorem trueRul_of_failed {p : Process} (h : p.failed = true) (cond : Conditions) : p.trueRul math cond = some 0 :=
  if_pos h

/-- No time is left to a failed component and no less to any other. -/
theorem trueRul_nonneg {p : Process} {cond : Conditions} {rul : Rat} (h : p.trueRul math cond = some rul) : 0 ≤ rul := by
  unfold trueRul at h
  split at h
  · cases h
    exact le_refl 0
  · split at h
    · cases h
    · rename_i hrate
      cases h
      exact div_nonneg (le_max_right _ _) (not_le.mp hrate).le

end Process

end

end TwinVoice.Sim.Base
