import Mathlib.Algebra.Order.Field.Rat
import TwinVoice.Basic
import TwinVoice.Lib.Table

/-! # The simulated machine

What a maintenance reset acts on: the wear of each component, kept by one of
the degradation processes, the failure modes that were injected, the sensor
faults and the operating state of the machine. Doubles are rationals. -/

namespace TwinVoice.Sim

open TwinVoice.Lib

/-- The state variables of the degradation processes. A crack has two lengths
between which it grows; if they were one, its damage could not be computed. -/
inductive Wear
  | wiener (level : Rat) (failed : Bool)
  | gamma (x : Rat)
  | paris (a a0 aCrit : Rat) (grows : a0 ≠ aCrit)
  | taylor (wear : Rat)
  | motorEfficiency (x : Rat)
  deriving DecidableEq

namespace Wear

def clamped (x : Rat) : Rat := min (max x 0) 1

def damage : Wear → Rat
  | wiener level failed => if failed then 1 else clamped level
  | gamma x => clamped x
  | paris a a0 aCrit _ => clamped ((a - a0) / (aCrit - a0))
  | taylor wear => wear
  | motorEfficiency x => clamped x

def failed : Wear → Bool
  | wiener _ failed => failed
  | w => 1 ≤ w.damage

/-- `_reset_state`. -/
def resetState : Wear → Wear
  | wiener _ _ => wiener 0 false
  | gamma _ => gamma 0
  | paris _ a0 aCrit grows => paris a0 a0 aCrit grows
  | taylor _ => taylor 0
  | motorEfficiency _ => motorEfficiency 0

end Wear

structure Process where
  rateMultiplier : Rat
  wear : Wear
  deriving DecidableEq

def Process.reset (p : Process) : Process := ⟨1, p.wear.resetState⟩

inductive FaultMode
  | gradual | sudden
  deriving DecidableEq

structure ActiveMode where
  failureMode : String
  mode : FaultMode
  severity : Rat
  startedS : Rat
  deriving DecidableEq

structure Component where
  code : String
  process : Option Process
  activeModes : List ActiveMode
  deriving DecidableEq

instance : Keyed Component String := ⟨Component.code⟩

def Component.reset (c : Component) : Component :=
  { c with process := c.process.map Process.reset, activeModes := [] }

structure SensorFault where
  metric : String
  component : Option String
  kind : String
  deriving DecidableEq

inductive State
  | running | idle | down | maintenance | unknown
  deriving DecidableEq

structure Machine where
  code : String
  components : Table Component
  sensorFaults : List SensorFault
  state : State
  loadPct : Rat
  speedSetpointPct : Rat
  loadSetpointPct : Option Rat
  operatingLoadPct : Rat
  maintenanceDurationS : Rat
  maintenanceLeftS : Rat
  failedComponent : Option String

instance : Keyed Machine String := ⟨Machine.code⟩

namespace Machine

def codes (m : Machine) : List String := m.components.rows.map Component.code

def setLoadSetpoint (m : Machine) (loadPct : Rat) : Machine :=
  { m with loadSetpointPct := some loadPct, operatingLoadPct := loadPct }

/-- `sensor_array.clear`: all faults, or those of the sensors on some components. -/
def clearedFaults (faults : List SensorFault) (componentCode : Option String) : List SensorFault :=
  match componentCode with
  | none => []
  | some code => faults.filter fun f => f.component ≠ some code

/-- `reset`; no component code means all of them. -/
def reset (m : Machine) (componentCode : Option String) : Machine × List String :=
  let codes := match componentCode with
    | none => m.codes
    | some code => [code]
  ({ m with
      components := m.components.update (fun c => c.code ∈ codes) Component.reset fun _ => rfl
      sensorFaults := clearedFaults m.sensorFaults componentCode
      failedComponent := m.failedComponent.filter fun code => code ∉ codes
      state := .maintenance
      maintenanceLeftS := m.maintenanceDurationS
      loadPct := 0 }, codes)

end Machine

/-! ## What a reset changes -/

/-- What can be seen of a component's wear: its damage, whether it has failed
or is what the machine is down for, its rate and the failure modes at work. -/
structure Health where
  damage : Rat
  failed : Bool
  downed : Bool
  rateMultiplier : Option Rat
  activeModes : List ActiveMode
  deriving DecidableEq

def Component.damage (c : Component) : Rat := (c.process.map fun p => p.wear.damage).getD 0

def Component.failed (c : Component) : Bool := c.process.any fun p => p.wear.failed

def Component.health (c : Component) (failedComponent : Option String) : Health where
  damage := c.damage
  failed := c.failed
  downed := failedComponent = some c.code
  rateMultiplier := c.process.map Process.rateMultiplier
  activeModes := c.activeModes

def Machine.health (m : Machine) (code : String) : Option Health :=
  (m.components.find code).map fun c => c.health m.failedComponent

/-- As good as new. -/
def Health.fresh (h : Health) : Health := ⟨0, false, false, h.rateMultiplier.map fun _ => 1, []⟩

def Health.AsNew (h : Health) : Prop :=
  h.damage = 0 ∧ h.failed = false ∧ h.downed = false ∧
    (∀ rate ∈ h.rateMultiplier, rate = 1) ∧ h.activeModes = []

theorem fresh_eq_iff {h : Health} : h.fresh = h ↔ h.AsNew := by
  obtain ⟨damage, failed, downed, rateMultiplier, activeModes⟩ := h
  unfold Health.fresh Health.AsNew
  cases rateMultiplier <;> simp [eq_comm]

theorem damage_resetState (w : Wear) : w.resetState.damage = 0 := by
  cases w <;> simp [Wear.resetState, Wear.damage, Wear.clamped]

theorem failed_resetState (w : Wear) : w.resetState.failed = false := by
  cases w with
  | wiener level failed => rfl
  | gamma x => rfl
  | paris a a0 aCrit grows => simp [Wear.resetState, Wear.failed, Wear.damage, Wear.clamped]
  | taylor wear => rfl
  | motorEfficiency x => rfl

theorem health_reset (c : Component) (failedComponent : Option String)
    (h : failedComponent ≠ some c.code) :
    c.reset.health failedComponent = (c.health failedComponent).fresh := by
  unfold Component.health Health.fresh Component.reset Component.damage Component.failed
  cases c.process with
  | none => simp [h]
  | some p => simp [h, Process.reset, damage_resetState, failed_resetState]

theorem find_reset (m : Machine) (componentCode : Option String) (code : String) :
    (m.reset componentCode).1.components.find code = (m.components.find code).map fun c =>
      if c.code ∈ (m.reset componentCode).2 then c.reset else c := by
  have hupdate := Table.find_update m.components (fun c => c.code ∈ (m.reset componentCode).2)
    Component.reset (fun _ => rfl) code
  simp only [decide_eq_true_eq] at hupdate
  exact hupdate

/-- A component that is reset is as good as new. -/
theorem health_of_reset (m : Machine) {componentCode : Option String} {code : String}
    (h : componentCode = none ∨ componentCode = some code) :
    (m.reset componentCode).1.health code = (m.health code).map Health.fresh := by
  unfold Machine.health
  rw [find_reset]
  cases hfind : m.components.find code with
  | none => rfl
  | some c =>
    have hcode : c.code = code := Table.key_of_find hfind
    have hmem : c.code ∈ (m.reset componentCode).2 := by
      rcases h with rfl | rfl
      · exact List.mem_map.mpr ⟨c, Table.mem_of_find hfind, rfl⟩
      · exact List.mem_singleton.mpr hcode
    have hfailed : (m.reset componentCode).1.failedComponent ≠ some c.code := by
      intro hf
      have hnot := (Option.filter_eq_some_iff.mp hf).2
      exact absurd hmem (of_decide_eq_true hnot)
    rw [Option.map_some, Option.map_some, Option.map_some, if_pos hmem, health_reset c _ hfailed]
    rfl

/-- A reset of one component leaves every other one alone. -/
theorem health_of_other (m : Machine) {code other : String} (h : other ≠ code) :
    (m.reset (some code)).1.health other = m.health other := by
  unfold Machine.health
  rw [find_reset]
  cases hfind : m.components.find other with
  | none => rfl
  | some c =>
    have hcode : c.code = other := Table.key_of_find hfind
    have hne : c.code ≠ code := hcode ▸ h
    have hmem : c.code ∉ (m.reset (some code)).2 := fun hmem => hne (List.mem_singleton.mp hmem)
    have hdowned : ((m.reset (some code)).1.failedComponent = some c.code) ↔
        m.failedComponent = some c.code := by
      unfold Machine.reset
      rw [Option.filter_eq_some_iff]
      simp [hne]
    rw [Option.map_some, Option.map_some, Option.map_some, if_neg hmem]
    unfold Component.health
    rw [decide_eq_decide.mpr hdowned]

end TwinVoice.Sim
