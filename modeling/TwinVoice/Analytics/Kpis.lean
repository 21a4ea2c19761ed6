import Mathlib.Algebra.BigOperators.Group.List.Basic
import Mathlib.Algebra.Order.Field.Rat
import TwinVoice.Analytics.Oee
import TwinVoice.Lib.FloatFormat

/-! # The KPIs of a period

`compute_all` and the energy KPIs, from the facts that are on record for the
assets of a scope. Doubles are rationals, and `round` takes ties to even. -/

namespace TwinVoice.Analytics

open TwinVoice.Lib Timeline

/-- `round(q, digits)`. -/
def roundTo (digits : Nat) (q : Rat) : Rat :=
  if q < 0 then -(roundToEven (-q * 10 ^ digits).toNNRat / 10 ^ digits)
  else roundToEven (q * 10 ^ digits).toNNRat / 10 ^ digits

def inSeconds (d : Int) : Rat := d / 1000000

/-- A `KpiResult`. -/
structure KpiResult where
  code : String
  value : Rat
  inputs : Params
  deriving DecidableEq

/-! ## What is on record -/

structure ProductionCount where
  time : Int
  good : Nat
  reject : Nat

structure EnergyReading where
  time : Int
  assetId : Uuid
  energyKwh : Rat
  powerKw : Rat
  tariffRate : Option Rat

/-- The actual times of a closed work order, and when it was closed. -/
structure Repair where
  actualStart : Int
  actualEnd : Int
  closed : Int

/-- The facts about the assets of a scope, the state changes in the order of their times. -/
structure History where
  events : List StateEvent
  ordered : Ordered StateEvent.time events
  production : List ProductionCount
  energy : List EnergyReading
  repairs : List Repair

/-- What else the KPIs of a scope depend on: `ideal_cycle_time` and the plant's currency. -/
structure Scope where
  idealCycleTimeS : Option Rat
  currency : String

namespace History

/-- What was on record before an instant. -/
def before (h : History) (r : Int) : History where
  events := h.events.filter fun e => e.time < r
  ordered := h.ordered.filter _
  production := h.production.filter fun p => p.time < r
  energy := h.energy.filter fun e => e.time < r
  repairs := h.repairs.filter fun w => w.closed < r

variable (h : History) (start stop : Int)

/-- `state_events`. -/
def stateEvents : List StateEvent :=
  (h.events.filter fun e => e.time < start).getLast?.toList ++
    h.events.filter fun e => start ≤ e.time ∧ e.time < stop

/-- The rows that `production` sums. -/
def produced : List ProductionCount := h.production.filter fun p => start ≤ p.time ∧ p.time < stop

def goodCount : Nat := ((h.produced start stop).map ProductionCount.good).sum

def rejectCount : Nat := ((h.produced start stop).map ProductionCount.reject).sum

/-- `breakdowns`. -/
def breakdowns : List StateEvent :=
  h.events.filter fun e => start ≤ e.time ∧ e.time < stop ∧ e.state = .down ∧ e.causeCode = some "breakdown"

/-- The rows that `repairs` sums. -/
def repaired : List Repair := h.repairs.filter fun w => start ≤ w.actualEnd ∧ w.actualEnd < stop

def repairTimeS : Rat := ((h.repaired start stop).map fun w => inSeconds (w.actualEnd - w.actualStart)).sum

/-- The rows that `energy` sums. -/
def metered : List EnergyReading := h.energy.filter fun e => start ≤ e.time ∧ e.time < stop

def energyKwh : Rat := ((h.metered start stop).map EnergyReading.energyKwh).sum

def cost : Rat := ((h.metered start stop).map fun e => e.energyKwh * e.tariffRate.getD 0).sum

/-- `coalesce(max(power_kw), 0)`. -/
def peakKw : Rat := ((h.metered start stop).map EnergyReading.powerKw).max?.getD 0

/-- The state of the asset at a reading, by its own last event. -/
def stateOf (e : EnergyReading) : Option MachineState :=
  (h.events.filter fun x => x.assetId = e.assetId ∧ x.time ≤ e.time).getLast?.map StateEvent.state

/-- `idle_energy`. -/
def idleEnergyKwh : Rat :=
  (((h.metered start stop).filter fun e => h.stateOf e = some .idle ∨ h.stateOf e = some .down).map
    EnergyReading.energyKwh).sum

end History

/-! ## The formulas -/

def availability (durations : List StateDuration) : KpiResult :=
  let run := inSeconds (runTime durations)
  let planned := inSeconds (plannedTime durations)
  let value := if 0 < planned then 100 * run / planned else 0
  ⟨"availability", roundTo 3 value,
    [("run_time_s", .number (roundTo 1 run)), ("planned_time_s", .number (roundTo 1 planned))]⟩

def optional (q : Option Rat) : Value := (q.map Value.number).getD .null

def performance (runTimeS : Rat) (totalCount : Nat) (idealCycleTimeS : Option Rat) : KpiResult :=
  let configured := idealCycleTimeS.getD 0
  let inputs : Params := [("run_time_s", .number (roundTo 1 runTimeS)), ("total_count", .number totalCount),
    ("ideal_cycle_time_s", optional idealCycleTimeS)]
  if configured = 0 ∨ runTimeS ≤ 0 then
    let note := if configured = 0 then "no ideal cycle time configured" else "no run time in period"
    ⟨"performance", 0, inputs ++ [("note", .text note)]⟩
  else
    let raw := 100 * (configured * totalCount) / runTimeS
    ⟨"performance", roundTo 3 (min raw 100), inputs ++ [("uncapped", .number (roundTo 3 raw))]⟩

def quality (goodCount totalCount : Nat) : KpiResult :=
  let value : Rat := if 0 < totalCount then 100 * goodCount / totalCount else 0
  ⟨"quality", roundTo 3 value, [("good_count", .number goodCount), ("total_count", .number totalCount)]⟩

def oee (availabilityPct performancePct qualityPct : Rat) : KpiResult :=
  ⟨"oee", roundTo 3 (availabilityPct * performancePct * qualityPct / 10000),
    [("availability", .number availabilityPct), ("performance", .number performancePct),
      ("quality", .number qualityPct)]⟩

def mtbf (runTimeS : Rat) (breakdownCount : Nat) : KpiResult :=
  if breakdownCount = 0 then
    ⟨"mtbf", roundTo 3 (runTimeS / 3600), [("run_time_s", .number (roundTo 1 runTimeS)),
      ("breakdowns", .number 0), ("note", .text "no breakdowns in period")]⟩
  else
    ⟨"mtbf", roundTo 3 (runTimeS / 3600 / breakdownCount), [("run_time_s", .number (roundTo 1 runTimeS)),
      ("breakdowns", .number breakdownCount)]⟩

def mttr (repairTimeS : Rat) (repairCount : Nat) : KpiResult :=
  if repairCount = 0 then ⟨"mttr", 0, [("repair_time_s", .number 0), ("repairs", .number 0)]⟩
  else
    ⟨"mttr", roundTo 3 (repairTimeS / 3600 / repairCount),
      [("repair_time_s", .number (roundTo 1 repairTimeS)), ("repairs", .number repairCount)]⟩

/-- `compute_all`. -/
def computeAll (durations : List StateDuration) (goodCount rejectCount : Nat) (idealCycleTimeS : Option Rat)
    (breakdownCount : Nat) (repairTimeS : Rat) (repairCount : Nat) : List KpiResult :=
  let totalCount := goodCount + rejectCount
  let runTimeS := inSeconds (runTime durations)
  let a := availability durations
  let p := performance runTimeS totalCount idealCycleTimeS
  let q := quality goodCount totalCount
  [a, p, q, oee a.value p.value q.value, mtbf runTimeS breakdownCount, mttr repairTimeS repairCount]

/-- `as_kpi_results(summarise(...))`. -/
def energyResults (energyKwh idleEnergyKwh peakKw cost : Rat) (goodCount : Nat) (currency : String) :
    List KpiResult :=
  let share := if 0 < energyKwh then roundTo 3 (100 * idleEnergyKwh / energyKwh) else 0
  [⟨"idle_energy_share", share,
      [("idle_energy_kwh", .number (roundTo 3 idleEnergyKwh)), ("energy_kwh", .number (roundTo 3 energyKwh))]⟩,
    ⟨"peak_demand", roundTo 3 peakKw, [("energy_kwh", .number (roundTo 3 energyKwh))]⟩] ++
  if 0 < goodCount then
    [⟨"energy_per_unit", roundTo 4 (energyKwh / goodCount), [("energy_kwh", .number (roundTo 3 energyKwh)),
      ("cost", .number (roundTo 2 cost)), ("currency", .text currency)]⟩]
  else []

@[simp] theorem performance_code (run : Rat) (n : Nat) (ideal : Option Rat) :
    (performance run n ideal).code = "performance" := by
  unfold performance
  dsimp only
  split <;> rfl

@[simp] theorem mtbf_code (run : Rat) (n : Nat) : (mtbf run n).code = "mtbf" := by
  unfold mtbf
  split <;> rfl

@[simp] theorem mttr_code (time : Rat) (n : Nat) : (mttr time n).code = "mttr" := by
  unfold mttr
  split <;> rfl

theorem codes_computeAll (durations : List StateDuration) (good reject : Nat) (ideal : Option Rat)
    (breakdownCount : Nat) (repairTime : Rat) (repairCount : Nat) :
    (computeAll durations good reject ideal breakdownCount repairTime repairCount).map KpiResult.code =
      ["availability", "performance", "quality", "oee", "mtbf", "mttr"] := by
  simp [computeAll, availability, quality, oee]

/-- A result for the energy of a unit needs a unit. -/
theorem codes_energyResults (energy idle peak cost : Rat) (good : Nat) (currency : String) :
    (energyResults energy idle peak cost good currency).map KpiResult.code =
      ["idle_energy_share", "peak_demand"] ++ if 0 < good then ["energy_per_unit"] else [] := by
  by_cases h : 0 < good <;> simp [energyResults, h]

section
variable (h : History) (scope : Scope) (start stop : Int)

/-- `_durations`. -/
def History.durations : List StateDuration :=
  durationsFromEvents ((h.stateEvents start stop).map StateEvent.row) start stop

/-- The results that `KpiService.rollup` computes. -/
def History.kpis : List KpiResult :=
  computeAll (h.durations start stop) (h.goodCount start stop) (h.rejectCount start stop) scope.idealCycleTimeS
      (h.breakdowns start stop).length (h.repairTimeS start stop) (h.repaired start stop).length ++
    energyResults (h.energyKwh start stop) (h.idleEnergyKwh start stop) (h.peakKw start stop) (h.cost start stop)
      (h.goodCount start stop) scope.currency

end

end TwinVoice.Analytics
