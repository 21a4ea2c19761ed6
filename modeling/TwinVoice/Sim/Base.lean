import TwinVoice.Lib.Dict
import TwinVoice.Sim.Physics

/-! # The machine over time

The whole of a simulated machine: its operating state, the wear of its
components, production and energy, and the operations that change them. What a
kind of machine adds, its mechanical demand and its clean signals, is a
parameter. The readings that the sensors make of the signals feed nothing back
and are left out. -/

namespace TwinVoice.Sim.Base

open TwinVoice.Lib

/-! ## Production and energy -/

/-- `LOAD_CORRELATION_S`. -/
def loadCorrelationS : Rat := 300

/-- `LOAD_WALK_STD_PCT`. -/
def loadWalkStdPct : Rat := 5 / 2

/-- `MAX_LOAD_PCT`. -/
def maxLoadPct : Rat := 110

def followPlan (math : Math) (normal loadPct targetPct dt : Rat) (walk : Bool) : Rat :=
  if ¬ walk then targetPct
  else
    let decay := math.exp (-dt / loadCorrelationS)
    let noise := loadWalkStdPct * math.sqrt (1 - decay * decay) * normal
    min (max (targetPct + (loadPct - targetPct) * decay + noise) 0) maxLoadPct

structure ProductionCounter where
  idealCycleTimeS : Rat
  good : Nat
  reject : Nat
  cycleTimeS : Rat
  partialCycles : Rat

/-- `int(x)`. -/
def truncated (x : Rat) : Int := if x < 0 then x.ceil else x.floor

/-- What the generator draws for the counter; `binomial(n, p)` is at most `n`. -/
structure CycleDraw where
  normal : Rat
  binomial : (n : Nat) → Rat → Fin (n + 1)

/-- `step`. A division by a cycle time of zero and the draw for a negative number of cycles raise,
and leave what has been computed by then. -/
def ProductionCounter.step (draw : CycleDraw) (c : ProductionCounter)
    (dt utilization slowdown speed rejectProb : Rat) : ProductionCounter :=
  if dt ≤ 0 ∨ utilization ≤ 0 then c
  else
    let nominal := c.idealCycleTimeS / max speed (1 / 10) * (1 + slowdown)
    let c := { c with cycleTimeS := nominal * max (1 + 2 / 100 * draw.normal) (1 / 2) }
    if nominal = 0 then c
    else
      let partialCycles := c.partialCycles + dt * min utilization 1 / nominal
      let completed := truncated partialCycles
      let c := { c with partialCycles := partialCycles - completed }
      if completed < 0 then c
      else
        let rejects : Nat := (draw.binomial completed.toNat (min (max rejectProb 0) 1)).val
        { c with good := c.good + (completed.toNat - rejects), reject := c.reject + rejects }

structure Electrical where
  powerKw : Rat
  powerFactor : Rat
  currentA : Rat

/-- `LINE_VOLTAGE_V`. -/
def lineVoltageV : Rat := 415

def powerFactor (math : Math) (demand pfRated : Rat) : Rat :=
  pfRated * (1 - 4 / 10 * math.exp (-4 * max demand 0))

def electricalState (math : Math) (ratedKw demand efficiency etaNominal idleFraction : Rat) (running : Bool)
    (pfRated : Rat) : Electrical :=
  let (power, pf) :=
    if running then
      let shaft := idleFraction + (1 - idleFraction) * max demand 0
      (ratedKw * shaft * etaNominal / max efficiency (1 / 20), powerFactor math demand pfRated)
    else (ratedKw * idleFraction, powerFactor math 0 pfRated)
  ⟨power, pf, power * 1000 / (math.sqrt 3 * lineVoltageV * pf)⟩

/-! ## The machine -/

structure FailureMode where
  code : String
  name : String
  driver : String
  qualityImpact : Rat
  cycleImpact : Rat

/-- A component, with what its `spec` says about it. -/
structure Component where
  code : String
  name : String
  tempMetric : Option String
  failureMode : Option FailureMode
  process : Option Process
  activeModes : List ActiveMode

instance : Keyed Component String := ⟨Component.code⟩

namespace Component

def damage (c : Component) : Rat := (c.process.map Process.damage).getD 0

def failed (c : Component) : Bool := c.process.any Process.failed

def degrade (math : Math) (draw : Draw) (c : Component) (dt : Rat) (cond : Conditions) : Component :=
  { c with process := c.process.map fun p => p.step math draw dt cond }

def reset (c : Component) : Component :=
  { c with process := c.process.map Process.reset, activeModes := [] }

theorem key_degrade (math : Math) (draw : Draw) (c : Component) (dt : Rat) (cond : Conditions) :
    Keyed.key (c.degrade math draw dt cond) = Keyed.key c := rfl

theorem key_reset (c : Component) : Keyed.key c.reset = Keyed.key c := rfl

end Component

/-- What the asset and its type fix. -/
structure Spec where
  code : String
  idealCycleTimeS : Rat
  ratedPowerKw : Rat
  idlePowerFraction : Rat
  etaNominal : Rat
  powerFactorRated : Rat
  baseRejectRate : Rat
  maintenanceDurationS : Rat

structure Machine where
  spec : Spec
  components : Table Component
  sensorFaults : List SensorFault
  counter : ProductionCounter
  meterKwh : Rat
  state : State
  loadPct : Rat
  speedSetpointPct : Rat
  loadSetpointPct : Option Rat
  nowS : Rat
  thermal : Dict String Rat
  maintenanceLeftS : Rat
  failedComponent : Option String
  operatingLoadPct : Rat
  damageOf : Dict String Rat
  electrical : Electrical
  clean : Dict String Rat

structure OperatingContext where
  nowS : Rat
  producing : Bool
  planLoadPct : Rat

structure MachineEvent where
  level : Level
  message : String
  deriving DecidableEq

structure GroundTruth where
  damage : Dict String Rat
  trueRulS : Option Rat
  driver : Option String
  failureMode : String

/-- What a kind of machine adds: `_demand`, and `_signals` with the thermal states it leaves. -/
structure Subclass where
  demand : Machine → Rat
  signals : Machine → Rat → Dict String Rat × Dict String Rat

/-- The draws of one step. -/
structure StepDraw where
  load : Rat
  wear : String → Draw
  cycle : CycleDraw

namespace Machine

def running (m : Machine) : Bool := m.state = .running

def load (m : Machine) : Rat := if m.running then m.loadPct / 100 else 0

def speed (m : Machine) : Rat := if m.running then m.speedSetpointPct / 100 else 0

def setLoadSetpoint (m : Machine) (loadPct : Rat) : Machine :=
  { m with loadSetpointPct := some loadPct, operatingLoadPct := loadPct }

/-- `_refresh_damage`. -/
def refreshDamage (m : Machine) : Machine :=
  { m with damageOf := m.components.rows.map fun c => (c.code, c.damage) }

/-- `_conditions`: the actual ones, or those at the operating point. -/
def conditions (m : Machine) (c : Component) (operating : Bool) : Conditions :=
  let temp := c.tempMetric.bind m.clean.get?
  if ¬ operating then ⟨m.load, m.speed, temp⟩
  else
    let temp := match temp, c.process.bind Process.arrhenius with
      | some t, some arrhenius => some (max t arrhenius.tRefC)
      | _, _ => temp
    ⟨m.operatingLoadPct / 100, m.speedSetpointPct / 100, temp⟩

/-- `_degrade`. -/
def degrade (math : Math) (wear : String → Draw) (m : Machine) (dt : Rat) : Machine :=
  { m with
    components := m.components.update (fun _ => true)
      (fun c => c.degrade math (wear c.code) dt (m.conditions c false))
      fun c => c.key_degrade math (wear c.code) dt (m.conditions c false) }

/-- `_fail`. -/
def fail (m : Machine) (c : Component) : Machine × List MachineEvent :=
  let name := (c.failureMode.map FailureMode.name).getD c.name
  ({ m with state := .down, loadPct := 0, failedComponent := some c.code },
    [⟨.error, m.spec.code ++ " DOWN: " ++ name ++ " (" ++ c.code ++ ")"⟩])

/-- `_check_failures`. -/
def checkFailures (m : Machine) : Machine × List MachineEvent :=
  if m.state = .down then (m, [])
  else
    match m.components.rows.find? Component.failed with
    | some c => m.fail c
    | none => (m, [])

/-- `_update_state`. -/
def updateState (m : Machine) (dt : Rat) (producing : Bool) : Machine × List MachineEvent :=
  let next : State := if producing then .running else .idle
  if m.state = .down then (m, [])
  else if m.state = .maintenance then
    let m := { m with maintenanceLeftS := m.maintenanceLeftS - dt }
    if 0 < m.maintenanceLeftS then (m, [])
    else ({ m with state := next }, [⟨.info, m.spec.code ++ " maintenance complete"⟩])
  else ({ m with state := next }, [])

def efficiency (m : Machine) : Rat :=
  let motors := m.components.rows.filterMap fun c =>
    match c.process.map Process.degradation with
    | some (.motorEfficiency shapeRate scale loadExp eta0 k x) =>
      some (eta0 - k * (Degradation.motorEfficiency shapeRate scale loadExp eta0 k x).damage)
    | _ => none
  motors.head?.getD m.spec.etaNominal

/-- `_electrical`. -/
def electricalNow (math : Math) (kind : Subclass) (m : Machine) : Electrical :=
  electricalState math m.spec.ratedPowerKw (if m.running then kind.demand m else 0) m.efficiency m.spec.etaNominal
    m.spec.idlePowerFraction m.running m.spec.powerFactorRated

/-- `MAX_REJECT_PROB`. -/
def maxRejectProb : Rat := 1 / 2

/-- `_quality_effects`. -/
def qualityEffects (m : Machine) : Rat × Rat :=
  let impact (weight : FailureMode → Rat) (sum : Rat) (c : Component) : Rat :=
    match c.failureMode with
    | some mode => sum + weight mode * ((m.damageOf.get? c.code).getD 0) ^ 2
    | none => sum
  (m.components.rows.foldl (impact FailureMode.cycleImpact) 0,
    min (m.components.rows.foldl (impact FailureMode.qualityImpact) m.spec.baseRejectRate) maxRejectProb)

/-- The part of `step` that wears the machine out. -/
def operate (math : Math) (draw : StepDraw) (wasRunning : Bool) (target dt : Rat) (m : Machine) : Machine :=
  if m.running then
    let start := if wasRunning then m.loadPct else target
    let loadPct := followPlan math draw.load start target dt m.loadSetpointPct.isNone
    ({ m with operatingLoadPct := target, loadPct := loadPct }.degrade math draw.wear dt).refreshDamage
  else { m with loadPct := 0 }

/-- The part of `step` that computes power, energy and signals. -/
def measure (math : Math) (kind : Subclass) (dt : Rat) (m : Machine) : Machine :=
  let electrical := m.electricalNow math kind
  let m := { m with electrical := electrical, meterKwh := m.meterKwh + electrical.powerKw * dt / 3600 }
  let (clean, thermal) := kind.signals m dt
  { m with clean := clean, thermal := thermal }

/-- The part of `step` that counts. -/
def produce (draw : CycleDraw) (dt : Rat) (m : Machine) : Machine :=
  if m.running then
    let (slowdown, rejectProb) := m.qualityEffects
    { m with counter := m.counter.step draw dt (min (m.loadPct / 100) 1) slowdown m.speed rejectProb }
  else m

def step (math : Math) (kind : Subclass) (draw : StepDraw) (m : Machine) (dt : Rat) (ctx : OperatingContext) :
    Machine × List MachineEvent :=
  let target := m.loadSetpointPct.getD ctx.planLoadPct
  let started : Machine := { m with nowS := ctx.nowS }
  let (next, events) := started.updateState dt (ctx.producing && 0 < target)
  let (next, failures) := (next.operate math draw m.running target dt).checkFailures
  ((next.measure math kind dt).produce draw.cycle dt, events ++ failures)

/-- `component_for_mode`. -/
def componentForMode (m : Machine) (failureMode : String) : Option Component :=
  m.components.rows.find? fun c => c.failureMode.any fun mode => mode.code = failureMode

/-- `GRADUAL_MIN_H`. -/
def gradualMinH : Rat := 1

/-- `GRADUAL_MAX_H`. -/
def gradualMaxH : Rat := 24

/-- A gradual fault: the time that is left shrinks to the target. -/
def hasten (math : Math) (m : Machine) (c : Component) (severity : Rat) (p : Process) : Process :=
  let targetS := (gradualMaxH - (gradualMaxH - gradualMinH) * severity) * 3600
  match p.trueRul math (m.conditions c true) with
  | some rul => if targetS < rul then { p with rateMultiplier := p.rateMultiplier * (rul / targetS) } else p
  | none => p

def updateComponent (m : Machine) (code : String) (f : Component → Component) (keepsCode : ∀ c, (f c).code = c.code) :
    Machine :=
  { m with components := m.components.modify code f keepsCode }

def setProcess (m : Machine) (code : String) (p : Process) : Machine :=
  m.updateComponent code (fun c => { c with process := some p }) fun _ => rfl

def activate (m : Machine) (code : String) (mode : ActiveMode) : Machine :=
  m.updateComponent code (fun c => { c with activeModes := c.activeModes ++ [mode] }) fun _ => rfl

/-- `inject`; none is a `KeyError` or a failed assertion, before anything has changed. -/
def inject (math : Math) (m : Machine) (failureMode : String) (mode : FaultMode) (severity : Rat) :
    Option (Machine × List MachineEvent) := do
  let c ← m.componentForMode failureMode
  let process ← c.process
  let (next, events) := match mode with
    | .gradual => (m.setProcess c.code (m.hasten math c severity process), [])
    | .sudden => (m.setProcess c.code (process.jump severity)).refreshDamage.checkFailures
  some (next.activate c.code ⟨failureMode, mode, severity, m.nowS⟩, events)

/-- The components that a reset is about. -/
def codesOf (m : Machine) : Option String → List String
  | none => m.components.rows.map Component.code
  | some code => [code]

/-- The body of `reset`, after the components have been looked up. -/
def renew (m : Machine) (componentCode : Option String) : Machine :=
  let codes := m.codesOf componentCode
  let renewed : Machine := { m with
    components := m.components.update (fun c => c.code ∈ codes) Component.reset Component.key_reset }
  { renewed.refreshDamage with
    sensorFaults := Sim.Machine.clearedFaults m.sensorFaults componentCode
    failedComponent := m.failedComponent.filter fun code => code ∉ codes
    state := .maintenance
    maintenanceLeftS := m.spec.maintenanceDurationS
    loadPct := 0 }

/-- `reset`; none is a `KeyError`, before anything has changed. -/
def reset (m : Machine) (componentCode : Option String) : Option (Machine × List String) :=
  if ∃ code ∈ m.codesOf componentCode, m.components.find code = none then none
  else some (m.renew componentCode, m.codesOf componentCode)

/-- `rul < best`, where no number is `inf`. -/
def shorter (rul best : Option Rat) : Bool :=
  match rul, best with
  | some r, some b => r < b
  | some _, none => true
  | none, _ => false

/-- One round of the search for the component that fails first. -/
def better (math : Math) (m : Machine) (best : Option (Option Rat × FailureMode)) (c : Component) :
    Option (Option Rat × FailureMode) :=
  match c.process, c.failureMode with
  | some p, some mode =>
    let rul := p.trueRul math (m.conditions c true)
    if best.all fun b => shorter rul b.1 then some (rul, mode) else best
  | _, _ => best

/-- `ground_truth`; none is a `KeyError` or a failed assertion. -/
def groundTruth (math : Math) (m : Machine) : Option GroundTruth :=
  match m.failedComponent.filter fun _ => m.state = .down with
  | some code => do
    let c ← m.components.find code
    let mode ← c.failureMode
    some ⟨m.damageOf, some 0, some mode.driver, mode.code⟩
  | none =>
    match m.components.rows.foldl (m.better math) none with
    | some (some rul, mode) => some ⟨m.damageOf, some rul, some mode.driver, mode.code⟩
    | _ => some ⟨m.damageOf, none, none, "none"⟩

/-- `__init__`, for components that have been built. -/
def new (math : Math) (kind : Subclass) (spec : Spec) (components : Table Component) : Machine :=
  let m : Machine := {
    spec := spec
    components := components
    sensorFaults := []
    counter := ⟨spec.idealCycleTimeS, 0, 0, spec.idealCycleTimeS, 0⟩
    meterKwh := 0
    state := .idle
    loadPct := 0
    speedSetpointPct := 100
    loadSetpointPct := none
    nowS := 0
    thermal := []
    maintenanceLeftS := 0
    failedComponent := none
    operatingLoadPct := 100
    damageOf := []
    electrical := ⟨0, 0, 0⟩
    clean := [] }
  let m := m.refreshDamage
  let m := { m with electrical := m.electricalNow math kind }
  let (clean, thermal) := kind.signals m 0
  { m with clean := clean, thermal := thermal }

end Machine

/-! ## Operations -/

/-- What can be done to a machine. -/
inductive Op
  | step (dt : Rat) (nonneg : 0 ≤ dt) (ctx : OperatingContext) (draw : StepDraw)
  | inject (failureMode : String) (mode : FaultMode) (severity : Rat)
  | reset (componentCode : Option String)
  | setLoad (loadPct : Rat)
  | setSpeed (speedPct : Rat)

def Machine.apply (math : Math) (kind : Subclass) (m : Machine) : Op → Option Machine
  | .step dt _ ctx draw => some (m.step math kind draw dt ctx).1
  | .inject failureMode mode severity => (m.inject math failureMode mode severity).map Prod.fst
  | .reset componentCode => (m.reset componentCode).map Prod.fst
  | .setLoad loadPct => some (m.setLoadSetpoint loadPct)
  | .setSpeed speedPct => some { m with speedSetpointPct := speedPct }

end TwinVoice.Sim.Base
